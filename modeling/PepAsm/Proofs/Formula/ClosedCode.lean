import PepAsm.Proofs.Assembly.Encoding
import PepAsm.Proofs.Formula.Evaluation
import Mathlib.Data.List.Nodup

namespace PepAsm.Assembly

open PepAsm.Instruction

/-- Code that needs no symbols but its own: each of them is declared once, and whatever an
instruction works on is declared. -/
structure Closed (code : List CodeLine) : Prop where
  isInstruction {line : CodeLine} (h : line ∈ code) : line.isInstruction
  nodup : (declarations (code.map .code)).Nodup
  declared : references (code.map .code) ⊆ declarations (code.map .code)

section Mention

variable {code : List CodeLine} {line : CodeLine} {t : SymbolTable} {name : String}

theorem mention_eq (line : CodeLine) (t : SymbolTable) :
    ∃ u, (∀ name, u.symbol name = t.symbol name) ∧ line.mention t = label u line.symbol := by
  unfold CodeLine.mention
  split
  · rename_i mentioned _ _
    refine ⟨t.reference mentioned, t.symbol_reference mentioned, ?_⟩
    cases line.symbol with
    | _ => rfl
  · refine ⟨t, fun name ↦ rfl, ?_⟩
    cases line.symbol with
    | _ => rfl

theorem definitions_mention :
    ((line.mention t).symbol name).definitions =
      (t.symbol name).definitions + if line.symbol = some name then 1 else 0 := by
  obtain ⟨u, hu, hmention⟩ := mention_eq line t
  rw [hmention, ← hu]
  cases line.symbol with
  | none => rfl
  | some declared =>
    rw [label, u.definitions_define]
    simp [eq_comm]

theorem definitions_foldl_mention :
    ((code.foldl CodeLine.mention t).symbol name).definitions =
      (t.symbol name).definitions + (declarations (code.map .code)).count name := by
  induction code generalizing t with
  | nil => rfl
  | cons line code ih =>
    rw [List.foldl_cons, ih, definitions_mention, List.map_cons, count_declarations_cons,
      Nat.add_assoc]
    rfl

theorem definitions_ofCode :
    ((Program.ofCode code).symbols.symbol name).definitions =
      (declarations (code.map .code)).count name := by
  rw [Program.ofCode, definitions_foldl_mention]
  exact Nat.zero_add _

theorem length_filter_symbol (lines : List Line) :
    ((lines.filterMap Line.code?).filter (·.symbol == some name)).length =
      (declarations lines).count name := by
  induction lines with
  | nil => rfl
  | cons line lines ih =>
    rw [count_declarations_cons, ← ih]
    cases line with
    | code line =>
      change ((line :: lines.filterMap Line.code?).filter _).length = _
      rw [List.filter_cons, Line.declared?]
      by_cases hs : line.symbol = some name
      · simp [hs, Nat.add_comm]
      · simp [hs]
    | _ => exact (Nat.zero_add _).symm

theorem referenced?_eq_some :
    (Line.code line).referenced? = some name ↔
      ∃ m mode, line.body = .dyadic m (.symbol name) mode := by
  obtain ⟨body, symbol, comment, address⟩ := line
  cases body with
  | dyadic m o mode =>
    cases o with
    | _ => simp [Line.referenced?]
  | _ => simp [Line.referenced?]

theorem references_place {base : Int} {lines : List Line} :
    references (place t base lines).lines = references lines := by
  refine filterMap_place (fun reason ↦ rfl) fun address line ↦ ?_
  cases line with
  | code line =>
    refine Option.ext fun name ↦ ?_
    rw [Line.moveTo, referenced?_eq_some, referenced?_eq_some]
  | _ => rfl

end Mention

namespace Closed

variable {code : List CodeLine} {name : String}

theorem definitions_image (h : Closed code) (base : Int)
    (hn : name ∈ declarations (code.map .code)) :
    (((Program.ofCode code).image base).symbols.symbol name).definitions = 1 := by
  rw [Program.image, definitions_place, definitions_ofCode]
  exact List.count_eq_one_of_mem h.nodup hn

theorem faults_image (h : Closed code) (base : Int) :
    ((Program.ofCode code).image base).faults = [] := by
  rw [Program.image, faults_place, List.flatMap_eq_nil_iff]
  intro line hl
  obtain ⟨line, hline, rfl⟩ := List.mem_map.1 hl
  rw [faults_of_isInstruction (h.isInstruction hline)]
  cases line.symbol with
  | none => rfl
  | some name =>
    have hone := List.nodup_iff_count_le_one.1 h.nodup name
    dsimp only
    rw [definitions_ofCode, if_neg (by omega)]

theorem resolves (h : Closed code) (base : Int) (hn : name ∈ declarations (code.map .code)) :
    let image := (Program.ofCode code).image base
    ∃ target address, image.codeLines.filter (·.symbol == some name) = [target] ∧
      target.address = some address ∧ image.symbols.number name = address := by
  intro image
  have hlength : (image.codeLines.filter (·.symbol == some name)).length = 1 := by
    rw [Image.codeLines, length_filter_symbol]
    exact (congrArg (List.count name) declarations_place).trans
      (List.count_eq_one_of_mem h.nodup hn)
  obtain ⟨target, htarget⟩ := List.length_eq_one_iff.1 hlength
  have hdeclaration : image.declaration? name = some target := by
    rw [Image.declaration?, htarget]
    rfl
  obtain ⟨address, haddress, -⟩ := address_place (mem_of_declaration? hdeclaration)
  have hdefinitions : ((Program.ofCode code).symbols.symbol name).definitions ≤ 1 := by
    rw [definitions_ofCode]
    exact List.nodup_iff_count_le_one.1 h.nodup name
  refine ⟨target, address, htarget, haddress, ?_⟩
  rw [SymbolTable.number_eq, show image = place _ _ _ from rfl,
    value_of_declaration? hdefinitions hdeclaration, haddress, Option.getD_some]

end Closed

end PepAsm.Assembly

namespace PepAsm.Formula

open PepAsm.Assembly PepAsm.Instruction PepAsm.Machine

def transfers : List (Mnemonic × String) :=
  [(.call, "plus"), (.call, "times"), (.breq, "e_loop"), (.breq, "noadd"), (.br, "b_loop")]

def isCompiled (line : CodeLine) : Bool :=
  match line.body with
  | .dyadic m (.symbol name) mode => transfers.contains (m, name) && mode == .immediate
  | .dyadic .. | .monadic _ => true
  | .given .. => false

theorem isCompiled_of_mem {tokens : List Token} {line : CodeLine} (h : line ∈ code tokens) :
    isCompiled line := by
  have hpieces : (showResult ++ plusSubroutine ++ timesSubroutine).all isCompiled := by decide
  have htoken : ∀ token, (tokenCode token).all isCompiled := by
    intro token
    cases token with
    | _ => rfl
  rw [code_eq, List.append_assoc, List.append_assoc, ← List.append_assoc showResult] at h
  rcases List.mem_append.1 h with h | h
  · obtain ⟨token, -, hline⟩ := List.mem_flatMap.1 h
    exact List.all_eq_true.1 (htoken token) line hline
  · exact List.all_eq_true.1 hpieces line h

theorem isInstruction_of_isCompiled {line : CodeLine} (h : isCompiled line) :
    line.isInstruction := by
  unfold isCompiled at h
  unfold CodeLine.isInstruction
  cases hb : line.body with
  | given bytes size source argument =>
    rw [hb] at h
    contradiction
  | _ => rfl

theorem mem_transfers {line : CodeLine} (h : isCompiled line) {m : Mnemonic} {name : String}
    {mode : Mode} (hb : line.body = .dyadic m (.symbol name) mode) :
    (m, name) ∈ transfers ∧ mode = .immediate := by
  unfold isCompiled at h
  rw [hb] at h
  simpa using h

theorem declarations_code (tokens : List Token) :
    declarations ((code tokens).map .code) = ["plus", "times", "b_loop", "noadd", "e_loop"] := by
  have htokens := declared_flatMap_tokenCode tokens
  unfold declared at htokens
  rw [declarations, List.filterMap_map, code_eq, List.filterMap_append, List.filterMap_append,
    List.filterMap_append]
  exact congrArg (· ++ _ ++ _ ++ _) htokens

theorem closed_code (tokens : List Token) : Closed (code tokens) where
  isInstruction h := isInstruction_of_isCompiled (isCompiled_of_mem h)
  nodup := by
    rw [declarations_code]
    decide
  declared := by
    intro name hname
    obtain ⟨line, hl, hreferenced⟩ := List.mem_filterMap.1 hname
    obtain ⟨line, hline, rfl⟩ := List.mem_map.1 hl
    have hcompiled := isCompiled_of_mem hline
    have hall : ∀ transfer ∈ transfers,
        transfer.2 ∈ ["plus", "times", "b_loop", "noadd", "e_loop"] := by decide
    rw [declarations_code]
    obtain ⟨m, mode, hb⟩ := referenced?_eq_some.1 hreferenced
    exact hall _ (mem_transfers hcompiled hb).1

theorem faults_compile (tokens : List Token) (base : Int) :
    ((compile tokens).image base).faults = [] := by
  rw [compile_eq]
  exact (closed_code tokens).faults_image base

/-- The code for a list of tokens, whatever they are, has no faults at any address. It declares its
five symbols once each, and all its jumps and calls go to the lines that declare their symbols. -/
theorem compile_closed (tokens : List Token) (base : Int) :
    let image := (compile tokens).image base
    image.faults = [] ∧
    declarations image.lines = ["plus", "times", "b_loop", "noadd", "e_loop"] ∧
    (∀ name, name ∈ declarations image.lines ∨ name ∈ references image.lines →
      (image.symbols.symbol name).definitions = 1) ∧
    ∀ line ∈ image.codeLines, ∀ m name mode, line.body = .dyadic m (.symbol name) mode →
      (m, name) ∈ transfers ∧ mode = .immediate ∧
      ∃ target address, image.codeLines.filter (·.symbol == some name) = [target] ∧
        target.address = some address ∧ (Operand.symbol name).value image.symbols = address := by
  rw [compile_eq]
  intro image
  have hclosed := closed_code tokens
  have hdeclarations : declarations image.lines = declarations ((code tokens).map .code) :=
    declarations_place
  have hreferences : references image.lines = references ((code tokens).map .code) :=
    references_place
  refine ⟨hclosed.faults_image base, ?_, fun name hname ↦ ?_, fun line hl m name mode hb ↦ ?_⟩
  · rw [hdeclarations, declarations_code]
  · rw [hdeclarations, hreferences] at hname
    exact hclosed.definitions_image base (hname.elim id fun h ↦ hclosed.declared h)
  · obtain ⟨source, hsource, hbody⟩ := exists_body_of_mem_codeLines hl
    obtain ⟨source, hcode, hcodeLine⟩ := List.mem_map.1 hsource
    cases hcodeLine
    obtain ⟨htransfer, hmode⟩ := mem_transfers (isCompiled_of_mem hcode) (hbody.trans hb)
    refine ⟨htransfer, hmode, hclosed.resolves base (hclosed.declared ?_)⟩
    exact List.mem_filterMap.2 ⟨_, hsource, referenced?_eq_some.2 ⟨m, mode, hbody.trans hb⟩⟩

end PepAsm.Formula
