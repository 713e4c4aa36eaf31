import PepAsm.Proofs.Assembly.Grammar
import PepAsm.Proofs.Assembly.MemoryImage

namespace PepAsm.Assembly

namespace Line

def declared? : Line → Option String
  | .code line => line.symbol
  | _ => none

def referenced? : Line → Option String
  | .code { body := .dyadic _ (.symbol name) _, .. } => some name
  | _ => none

end Line

def declarations (lines : List Line) : List String :=
  lines.filterMap Line.declared?

def references (lines : List Line) : List String :=
  lines.filterMap Line.referenced?

section Placed

variable {α : Type} {t : SymbolTable} {base : Int} {lines : List Line} {name : String}

/-- What does not hang on addresses is the same before and after lines are put into memory. -/
theorem filterMap_place {f : Line → Option α} (he : ∀ reason, f (.error reason) = none)
    (hm : ∀ address line, f (line.moveTo address) = f line) :
    (place t base lines).lines.filterMap f = lines.filterMap f := by
  rw [lines_place]
  induction lines generalizing base with
  | nil => rfl
  | cons line lines ih =>
    cases line with
    | error reason =>
      rw [List.filterMap_cons_none (he reason)]
      exact ih
    | _ =>
      rw [readable, List.filter_cons_of_pos rfl, ← readable, arrange_cons, List.filterMap_cons,
        List.filterMap_cons, hm, ih]

theorem declarations_place : declarations (place t base lines).lines = declarations lines := by
  refine filterMap_place (fun reason ↦ rfl) fun address line ↦ ?_
  cases line with
  | _ => rfl

theorem declaration?_eq_none {image : Image} :
    image.declaration? name = none ↔ name ∉ declarations image.lines := by
  unfold Image.declaration? Image.codeLines declarations
  rw [List.getLast?_eq_none_iff, List.filter_eq_nil_iff, List.mem_filterMap]
  constructor
  · rintro h ⟨line, hl, hd⟩
    cases line with
    | code line => exact h line (List.mem_filterMap.2 ⟨_, hl, rfl⟩) (beq_iff_eq.2 hd)
    | _ => contradiction
  · intro h line hl hs
    obtain ⟨read, hread, hcode⟩ := List.mem_filterMap.1 hl
    cases read with
    | code line' =>
      cases hcode
      exact h ⟨_, hread, beq_iff_eq.1 hs⟩
    | _ => contradiction

theorem count_declarations_cons (line : Line) :
    (declarations (line :: lines)).count name =
      (if line.declared? = some name then 1 else 0) + (declarations lines).count name := by
  unfold declarations
  cases hd : line.declared? with
  | none => rw [List.filterMap_cons_none hd, if_neg nofun, Nat.zero_add]
  | some other =>
    rw [List.filterMap_cons_some hd, List.count_cons, Nat.add_comm]
    simp

end Placed

variable {symbols after : SymbolTable} {tokens : List Token} {line : Line}

theorem IsArgument.symbol_after {token : Token} {o : Operand}
    (h : IsArgument symbols token o after) (name : String) :
    after.symbol name = symbols.symbol name := by
  cases h with
  | hexadecimal n => rfl
  | decimal n => rfl
  | symbol other => exact symbols.symbol_reference other name

theorem IsContent.symbol_after (h : IsContent symbols tokens line after) (name : String) :
    (after.symbol name).definitions =
        (symbols.symbol name).definitions + (if line.declared? = some name then 1 else 0) ∧
      (after.symbol name).value = (symbols.symbol name).value := by
  cases h with
  | comment text => exact ⟨rfl, rfl⟩
  | code symbol remark h =>
    obtain ⟨-, ho, -, -, -⟩ := h
    rw [ho.symbol_after]
    cases symbol with
    | none => exact ⟨rfl, rfl⟩
    | some declared =>
      refine ⟨?_, symbols.value_define declared name⟩
      rw [label, symbols.definitions_define]
      simp [Line.declared?, eq_comm]

theorem symbol_readSegments {pieces : List (List Token)}
    (hl : ∀ line ∈ (readSegments symbols pieces).1, line.isError = false) (name : String) :
    ((readSegments symbols pieces).2.symbol name).definitions =
        (symbols.symbol name).definitions +
          (declarations (readSegments symbols pieces).1).count name ∧
      ((readSegments symbols pieces).2.symbol name).value = (symbols.symbol name).value := by
  induction pieces generalizing symbols with
  | nil => exact ⟨rfl, rfl⟩
  | cons piece pieces ih =>
    rw [readSegments] at hl ⊢
    dsimp only at hl ⊢
    obtain ⟨hdefinitions, hvalue⟩ := ih fun line hm ↦ hl line (List.mem_cons_of_mem _ hm)
    rw [hdefinitions, hvalue, count_declarations_cons]
    rcases readSegment_cases (hl _ List.mem_cons_self) with ⟨hempty, hafter⟩ | hcontent
    · rw [hempty, hafter]
      simp [Line.declared?]
    · obtain ⟨hd, hv⟩ := hcontent.symbol_after name
      rw [hd, hv]
      exact ⟨Nat.add_assoc .., rfl⟩

/-- A program that can be read leaves each symbol with its definitions before the program and one
for each of its declarations. No symbol has a new value yet. -/
theorem symbol_parse {text : String}
    (hl : ∀ line ∈ (parse text symbols).lines, line.isError = false) (name : String) :
    ((parse text symbols).symbols.symbol name).definitions =
        (symbols.symbol name).definitions + (declarations (parse text symbols).lines).count name ∧
      ((parse text symbols).symbols.symbol name).value = (symbols.symbol name).value := by
  obtain ⟨hlines, hsymbols⟩ := Prod.mk.inj (parse_eq text symbols)
  rw [hlines] at hl
  rw [hlines, hsymbols]
  exact symbol_readSegments hl name

theorem isInstruction_of_mem_parse {text : String} {line : CodeLine}
    (hm : .code line ∈ (parse text symbols).lines) : line.isInstruction := by
  rcases mem_parse hm rfl with hempty | ⟨before, tokens, after, hcontent, -⟩
  · contradiction
  · cases hcontent
    rfl

theorem mem_faults_parse {text : String} {t : SymbolTable} {fault : Fault}
    (hm : line ∈ (parse text symbols).lines) :
    fault ∈ line.faults t ↔
      (∃ reason, line = .error reason ∧ fault = .unread reason) ∨
      ∃ name, line.declared? = some name ∧ 1 < (t.symbol name).definitions ∧
        fault = .multiplyDefined name := by
  cases line with
  | error reason => simp [Line.faults, Line.declared?]
  | empty => simp [Line.faults, Line.declared?]
  | comment text => simp [Line.faults, Line.declared?]
  | code line =>
    rw [faults_of_isInstruction (isInstruction_of_mem_parse hm), Line.declared?]
    cases line.symbol with
    | none => simp
    | some name =>
      by_cases hd : 1 < (t.symbol name).definitions
      · simp [hd]
      · simp [hd]

section Readable

variable {text : String} {base : Int} {name : String}

theorem definitions_image (hl : ∀ line ∈ (parse text symbols).lines, line.isError = false) :
    (((parse text symbols).image base).symbols.symbol name).definitions =
      (symbols.symbol name).definitions + (declarations (parse text symbols).lines).count name := by
  rw [Program.image, definitions_place, (symbol_parse hl name).1]

theorem faults_image_eq_nil (hl : ∀ line ∈ (parse text symbols).lines, line.isError = false) :
    ((parse text symbols).image base).faults = [] ↔
      ∀ name ∈ declarations (parse text symbols).lines,
        (symbols.symbol name).definitions +
          (declarations (parse text symbols).lines).count name = 1 := by
  rw [Program.image, faults_place, List.flatMap_eq_nil_iff]
  constructor
  · intro hf name hd
    obtain ⟨line, hm, hs⟩ := List.mem_filterMap.1 hd
    have hpos := List.count_pos_iff.2 hd
    have hle : ¬ 1 < ((parse text symbols).symbols.symbol name).definitions := by
      intro hlt
      have hmem := (mem_faults_parse hm).2 (.inr ⟨name, hs, hlt, rfl⟩)
      rw [hf line hm] at hmem
      contradiction
    rw [(symbol_parse hl name).1] at hle
    omega
  · intro hd line hm
    refine List.eq_nil_iff_forall_not_mem.2 fun fault hf ↦ ?_
    rcases (mem_faults_parse hm).1 hf with ⟨reason, rfl, -⟩ | ⟨name, hs, hlt, -⟩
    · have hread := hl _ hm
      contradiction
    · have hone := hd name (List.mem_filterMap.2 ⟨line, hm, hs⟩)
      rw [(symbol_parse hl name).1] at hlt
      omega

theorem number_image_of_undefined
    (hl : ∀ line ∈ (parse text symbols).lines, line.isError = false)
    (hu : (((parse text symbols).image base).symbols.symbol name).definitions = 0) :
    ((parse text symbols).image base).symbols.number name = symbols.number name := by
  rw [definitions_image hl] at hu
  have hnone : ((parse text symbols).image base).declaration? name = none := by
    rw [declaration?_eq_none, Program.image, declarations_place, ← List.count_eq_zero]
    omega
  rw [Program.image] at hnone ⊢
  rw [SymbolTable.number_eq, SymbolTable.number_eq, value_place, hnone, (symbol_parse hl name).2]
  simp

end Readable

/-- A program is faulty if a line cannot be read or a symbol is defined twice, and never because a
symbol is not defined at all. If all lines can be read, the symbols that the instructions work on
are defined exactly if each of them is defined before the program or declared in it. One that is
neither stands for the value it has from before, which is zero if there is none. -/
theorem undefined_unreported (text : String) (symbols : SymbolTable) (base : Int) :
    let program := parse text symbols
    let image := program.image base
    let declared := declarations image.lines
    (∀ name, Fault.undefined name ∉ image.faults) ∧
    ((∀ line ∈ program.lines, line.isError = false) →
      (∀ name, (image.symbols.symbol name).definitions =
        (symbols.symbol name).definitions + declared.count name) ∧
      (image.faults = [] ↔
        ∀ name ∈ declared, (symbols.symbol name).definitions + declared.count name = 1) ∧
      ((∀ name ∈ references image.lines, 1 ≤ (image.symbols.symbol name).definitions) ↔
        ∀ name ∈ references image.lines,
          1 ≤ (symbols.symbol name).definitions ∨ name ∈ declared) ∧
      ∀ name, (image.symbols.symbol name).definitions = 0 →
        image.symbols.number name = symbols.number name) := by
  dsimp only
  have hdeclared : declarations ((parse text symbols).image base).lines =
      declarations (parse text symbols).lines := declarations_place
  rw [hdeclared]
  refine ⟨fun name hf ↦ ?_, fun hread ↦ ⟨fun name ↦ definitions_image hread,
    faults_image_eq_nil hread, ?_, fun name hu ↦ number_image_of_undefined hread hu⟩⟩
  · rw [Program.image, faults_place] at hf
    obtain ⟨line, hl, hf⟩ := List.mem_flatMap.1 hf
    rcases (mem_faults_parse hl).1 hf with ⟨reason, -, he⟩ | ⟨other, -, -, he⟩
    · contradiction
    · contradiction
  · refine forall₂_congr fun name hr ↦ ?_
    rw [definitions_image hread, ← List.count_pos_iff]
    omega

/-- A reference to a symbol that nothing defines is assembled as zero, without a fault. -/
theorem undefined_assembled_as_zero :
    let program := parse "LDWA foo,i" .empty
    let image := program.image 0
    (∀ line ∈ program.lines, line.isError = false) ∧ image.faults = [] ∧
      references image.lines = ["foo"] ∧ (image.symbols.symbol "foo").definitions = 0 ∧
      image.objectCode = .ok [0xC0, 0, 0] := by
  decide +kernel

end PepAsm.Assembly
