import PepAsm.Proofs.Assembly.References
import PepAsm.Proofs.Assembly.Spelling

namespace PepAsm.Instruction

theorem Mnemonic.encode_of_allows {m : Mnemonic} {mode : Mode} (h : m.format.allows mode) :
    ∃ first, m.encode (some mode) = .ok first := by
  unfold encode
  cases hf : m.format with
  | branch =>
    rw [hf] at h
    have hmode : mode = .immediate ∨ mode = .indexed := by simpa [Format.allows] using h
    rcases hmode with rfl | rfl
    · exact ⟨_, rfl⟩
    · exact ⟨_, rfl⟩
  | _ => exact ⟨_, rfl⟩

end PepAsm.Instruction

namespace PepAsm.Assembly

open PepAsm.Scan PepAsm.Instruction PepAsm.Text

namespace Token

def Unsigned : Token → Prop
  | .hexadecimal n => 0 ≤ n
  | _ => True

theorem unsigned_of_mem {token : Token} {text : List Char} (h : token ∈ scanner.tokens text) :
    token.Unsigned := by
  cases token with
  | hexadecimal n =>
    obtain ⟨s, hs⟩ := exists_spells_of_mem h nofun nofun
    cases hs with
    | hexadecimal n => exact Int.natCast_nonneg n
  | _ => trivial

end Token

/-- A number in sixteen bits, the most significant byte first. A number below zero is its two's
complement. -/
def lowWord (n : Int) : List UInt8 :=
  [UInt8.ofNat ((n % 0x10000).toNat / 256), UInt8.ofNat ((n % 0x10000).toNat % 256)]

theorem wordBytes_eq_lowWord {n : Int} (hlo : 0 ≤ n) (hhi : n < 0x10000) :
    wordBytes n = .ok (lowWord n) := by
  rw [wordBytes_eq_ok, lowWord, Int.emod_eq_of_lt hlo hhi]
  exact ⟨hlo, hhi, rfl⟩

namespace CodeLine

/-- The first byte that instruction and mode select, then the operand in sixteen bits. -/
def IsEncoding (symbols : SymbolTable) (line : CodeLine) (own : List UInt8) : Prop :=
  ∃ m o mode first, line.body = .dyadic m o mode ∧ m.encode (some mode) = .ok first ∧
    own = first :: lowWord (o.value symbols)

def hasNegative (line : CodeLine) : Bool :=
  match line.body with
  | .dyadic _ (.decimal n) _ => decide (n < 0)
  | _ => false

end CodeLine

section Emit

variable {t : SymbolTable} {code : List CodeLine}

theorem exists_emit {R : CodeLine → List UInt8 → Prop}
    (h : ∀ line ∈ code, ∃ own, R line own ∧ line.bytes t = .ok own) :
    ∃ parts, List.Forall₂ R code parts ∧ emit t code = .ok parts.flatten := by
  induction code with
  | nil => exact ⟨[], .nil, rfl⟩
  | cons line code ih =>
    obtain ⟨own, hown, hbytes⟩ := h line List.mem_cons_self
    obtain ⟨parts, hparts, hemit⟩ := ih fun line hl ↦ h line (List.mem_cons_of_mem _ hl)
    exact ⟨own :: parts, .cons hown hparts, emit_cons.2 ⟨own, _, hbytes, hemit, rfl⟩⟩

end Emit

section Ranges

variable {t : SymbolTable} {base : Int} {lines : List Line} {line : CodeLine}

theorem address_place (hl : line ∈ (place t base lines).codeLines) :
    ∃ address, line.address = some address ∧ base ≤ address ∧
      address + line.size ≤ base + extent lines := by
  induction lines generalizing t base with
  | nil => contradiction
  | cons first lines ih =>
    rw [extent_cons]
    cases first with
    | error reason => simpa only [Line.size, Nat.zero_add] using ih hl
    | empty => simpa only [Line.size, Nat.zero_add] using ih hl
    | comment text => simpa only [Line.size, Nat.zero_add] using ih hl
    | code first =>
      rw [codeLines_code] at hl
      rcases List.mem_cons.1 hl with rfl | hl
      · refine ⟨base, rfl, Int.le_refl _, ?_⟩
        change base + first.size ≤ base + ((first.size + extent lines : Nat) : Int)
        omega
      · obtain ⟨address, ha, hlo, hhi⟩ := ih hl
        refine ⟨address, ha, by omega, ?_⟩
        change address + line.size ≤ base + ((first.size + extent lines : Nat) : Int)
        omega

theorem number_place (hvalues : ∀ name value, (t.symbol name).value = some value →
      0 ≤ value ∧ value ≤ 0xFFFF)
    (hbase : 0 ≤ base) (hend : base + extent lines ≤ 0x10000)
    (hsize : ∀ line ∈ (place t base lines).codeLines, 0 < line.size) (name : String) :
    0 ≤ (place t base lines).symbols.number name ∧
      (place t base lines).symbols.number name < 0x10000 := by
  have hbefore : 0 ≤ (t.symbol name).value.getD 0 ∧ (t.symbol name).value.getD 0 < 0x10000 := by
    cases hv : (t.symbol name).value with
    | none => simp
    | some value =>
      have h := hvalues name value hv
      rw [Option.getD_some]
      omega
  rw [SymbolTable.number_eq, value_place]
  split
  · cases hd : (place t base lines).declaration? name with
    | none => exact hbefore
    | some line =>
      -- The declaring line is not empty, so it begins below the end of memory.
      obtain ⟨address, ha, hlo, hhi⟩ := address_place (mem_of_declaration? hd)
      have hpos := hsize line (mem_of_declaration? hd)
      dsimp only
      rw [ha, Option.getD_some]
      omega
  · exact hbefore

theorem exists_body_of_mem_codeLines (hl : line ∈ (place t base lines).codeLines) :
    ∃ source, .code source ∈ lines ∧ source.body = line.body := by
  obtain ⟨placed, hplaced, hcode⟩ := List.mem_filterMap.1 hl
  have hbody : line.body ∈
      (place t base lines).lines.filterMap fun line ↦ line.code?.map CodeLine.body :=
    List.mem_filterMap.2 ⟨placed, hplaced, by rw [hcode]; rfl⟩
  rw [filterMap_place (fun reason ↦ rfl) fun address line ↦ by cases line <;> rfl] at hbody
  obtain ⟨source, hsource, hb⟩ := List.mem_filterMap.1 hbody
  cases source with
  | code source => exact ⟨source, hsource, Option.some.inj hb⟩
  | _ => contradiction

end Ranges

variable {text : String} {symbols : SymbolTable} {line : CodeLine}

inductive Operand.Readable : Operand → Prop
  | decimal {n : Int} (hlow : -32768 ≤ n) (hhigh : n ≤ 65535) : Readable (.decimal n)
  | hexadecimal {n : Int} (hlow : 0 ≤ n) (hhigh : n ≤ 65535) : Readable (.hexadecimal n)
  | symbol (name : String) : Readable (.symbol name)

theorem body_of_mem_parse (hm : .code line ∈ (parse text symbols).lines) :
    ∃ m o mode, line.body = .dyadic m o mode ∧ m.format.allows mode ∧ o.Readable := by
  rcases mem_parse hm rfl with hempty | ⟨before, tokens, after, hcontent, hsub⟩
  · contradiction
  · cases hcontent with
    | @code symbol remark tokens m o mode _ h =>
      refine ⟨m, o, mode, rfl, ?_⟩
      obtain ⟨-, ho, hlow, hhigh, -, hallows⟩ := h
      refine ⟨hallows, ?_⟩
      cases ho with
      | decimal n => exact .decimal hlow hhigh
      | hexadecimal n =>
        have hn : (Token.hexadecimal n).Unsigned := Token.unsigned_of_mem (hsub (by simp))
        exact .hexadecimal hn hhigh
      | symbol name => exact .symbol name

theorem bytes_of_readable {t : SymbolTable} {m : Mnemonic} {o : Operand} {mode : Mode}
    (hb : line.body = .dyadic m o mode) (hallows : m.format.allows mode) (ho : o.Readable)
    (hnumber : ∀ name, 0 ≤ t.number name ∧ t.number name < 0x10000) :
    ∃ own, line.IsEncoding t own ∧
      line.bytes t = if line.hasNegative then .error .negative else .ok own := by
  obtain ⟨first, hfirst⟩ := Mnemonic.encode_of_allows hallows
  refine ⟨first :: lowWord (o.value t), ⟨m, o, mode, first, hb, hfirst, rfl⟩, ?_⟩
  have hword : 0 ≤ o.value t → o.value t < 0x10000 →
      line.bytes t = .ok (first :: lowWord (o.value t)) := fun hlo hhi ↦
    (bytes_dyadic hb).2 ⟨first, _, hfirst, wordBytes_eq_lowWord hlo hhi, rfl⟩
  unfold CodeLine.hasNegative
  rw [hb]
  cases ho with
  | @decimal n hlow hhigh =>
    dsimp only
    by_cases hn : n < 0
    · unfold CodeLine.bytes wordBytes
      rw [hb]
      dsimp only
      rw [hfirst]
      simp [Operand.value, hn, Except.map]
    · rw [if_neg (by simpa using hn)]
      exact hword (by simpa [Operand.value] using hn) (by simp only [Operand.value]; omega)
  | @hexadecimal n hlow hhigh =>
    exact hword hlow (by simp only [Operand.value]; omega)
  | symbol name => exact hword (hnumber name).1 (hnumber name).2

theorem bytes_of_mem_image {base : Int}
    (hvalues : ∀ name value, (symbols.symbol name).value = some value →
      0 ≤ value ∧ value ≤ 0xFFFF)
    (hbase : 0 ≤ base) (hend : base + extent (parse text symbols).lines ≤ 0x10000)
    (hread : ∀ line ∈ (parse text symbols).lines, line.isError = false)
    (hl : line ∈ ((parse text symbols).image base).codeLines) :
    ∃ own, line.IsEncoding ((parse text symbols).image base).symbols own ∧
      line.bytes ((parse text symbols).image base).symbols =
        if line.hasNegative then .error .negative else .ok own := by
  have hbody : ∀ line ∈ ((parse text symbols).image base).codeLines,
      ∃ m o mode, line.body = .dyadic m o mode ∧ m.format.allows mode ∧ o.Readable := by
    intro line hl
    obtain ⟨source, hsource, hb⟩ := exists_body_of_mem_codeLines hl
    rw [← hb]
    exact body_of_mem_parse hsource
  have hnumber := number_place
    (fun name value hv ↦ hvalues name value ((symbol_parse hread name).2 ▸ hv)) hbase hend
    fun line hl ↦ by
      obtain ⟨m, o, mode, hb, -⟩ := hbody line hl
      simp [CodeLine.size, hb]
  obtain ⟨m, o, mode, hb, hallows, ho⟩ := hbody line hl
  exact bytes_of_readable hb hallows ho hnumber

/-- A program that can be read and fits into memory has object code exactly if no operand is a
number below zero, although such operands can be read. Each of its instructions is then three
bytes, the one for instruction and mode and the operand in sixteen bits. -/
theorem objectCode_parse (text : String) (symbols : SymbolTable) (base : Int)
    (hvalues : ∀ name value, (symbols.symbol name).value = some value →
      0 ≤ value ∧ value ≤ 0xFFFF)
    (hbase : 0 ≤ base) (hend : base + extent (parse text symbols).lines ≤ 0x10000)
    (hread : ∀ line ∈ (parse text symbols).lines, line.isError = false) :
    let image := (parse text symbols).image base
    (∀ line ∈ image.codeLines, ∃ own, line.IsEncoding image.symbols own ∧
      line.bytes image.symbols = if line.hasNegative then .error .negative else .ok own) ∧
    ((∃ line ∈ image.codeLines, line.hasNegative) → image.objectCode = .error .negative) ∧
    ((∀ line ∈ image.codeLines, line.hasNegative = false) →
      ∃ parts, List.Forall₂ (CodeLine.IsEncoding image.symbols) image.codeLines parts ∧
        image.objectCode = .ok parts.flatten) := by
  dsimp only
  have hbytes := fun line ↦ @bytes_of_mem_image text symbols line base hvalues hbase hend hread
  refine ⟨hbytes, ?_, fun hnone ↦ ?_⟩
  · rintro ⟨line, hl, hneg⟩
    refine collect_eq_error (fun other ho ↦ ?_) hl ?_
    · obtain ⟨own, -, hown⟩ := hbytes other ho
      rw [hown]
      split
      · exact .inl rfl
      · exact .inr ⟨own, rfl⟩
    · obtain ⟨own, -, hown⟩ := hbytes line hl
      rw [hown, if_pos hneg]
  · refine exists_emit fun line hl ↦ ?_
    obtain ⟨own, hencoding, hown⟩ := hbytes line hl
    rw [hnone line hl] at hown
    exact ⟨own, hencoding, hown⟩

theorem objectCode_parse_end_of_memory :
    let symbols := SymbolTable.empty.setValue "k" (some 0xFFFF)
    let program := parse "a: LDWA k,d\nBR a,i ;again\nSTWA 0x10,d" symbols
    let image := program.image 0xFFF7
    (0xFFF7 : Int) + extent program.lines = 0x10000 ∧
      (∀ line ∈ program.lines, line.isError = false) ∧
      image.objectCode = .ok [0xC1, 0xFF, 0xFF, 0x24, 0xFF, 0xF7, 0xE1, 0x00, 0x10] ∧
      ∃ parts, List.Forall₂ (CodeLine.IsEncoding image.symbols) image.codeLines parts ∧
        image.objectCode = .ok parts.flatten := by
  intro symbols program image
  have hvalues : ∀ name value, (symbols.symbol name).value = some value →
      0 ≤ value ∧ value ≤ 0xFFFF := by
    intro name value hv
    rw [SymbolTable.value_setValue] at hv
    split at hv
    · cases hv
      decide
    · contradiction
  have hend : (0xFFF7 : Int) + extent program.lines = 0x10000 := by decide +kernel
  have hread : ∀ line ∈ program.lines, line.isError = false := by decide +kernel
  have hcode : image.objectCode =
      .ok [0xC1, 0xFF, 0xFF, 0x24, 0xFF, 0xF7, 0xE1, 0x00, 0x10] := by decide +kernel
  have hnone : ∀ line ∈ image.codeLines, line.hasNegative = false := by decide +kernel
  exact ⟨hend, hread, hcode,
    (objectCode_parse _ symbols 0xFFF7 hvalues (by decide) (Int.le_of_eq hend) hread).2.2 hnone⟩

/-- A number below zero can be read as an operand and has no object code. -/
theorem objectCode_parse_negative :
    let program := parse "LDWA -1,i" .empty
    let image := program.image 0
    program.lines = [.code { body := .dyadic .ldwa (.decimal (-1)) .immediate }] ∧
      image.faults = [] ∧ lowWord (-1) = [0xFF, 0xFF] ∧
      image.objectCode = .error .negative := by
  decide +kernel

end PepAsm.Assembly
