import PepAsm.Proofs.Assembly.Encoding
import PepAsm.Proofs.Assembly.Mentions

namespace PepAsm.Assembly

def IsAddress (n : Int) : Prop :=
  0 ≤ n ∧ n ≤ 0xFFFF

instance : DecidablePred IsAddress :=
  fun n ↦ inferInstanceAs (Decidable (0 ≤ n ∧ n ≤ 0xFFFF))

section Placed

variable {t : SymbolTable} {base : Int} {lines : List Line}

theorem exists_last_place (h : 0 < extent lines) :
    ∃ line ∈ (place t base lines).codeLines, ∃ address, line.address = some address ∧
      address + line.size = base + extent lines := by
  induction lines generalizing t base with
  | nil => contradiction
  | cons first lines ih =>
    rw [extent_cons] at h ⊢
    cases first with
    | error reason =>
      simp only [Line.size, Nat.zero_add] at h ⊢
      exact ih h
    | empty =>
      simp only [Line.size, Nat.zero_add] at h ⊢
      exact ih h
    | comment text =>
      simp only [Line.size, Nat.zero_add] at h ⊢
      exact ih h
    | code first =>
      rw [codeLines_code]
      by_cases hrest : extent lines = 0
      · refine ⟨_, List.mem_cons_self, base, rfl, ?_⟩
        rw [hrest]
        rfl
      · obtain ⟨line, hl, address, ha, hend⟩ := @ih (first.declare t base).1 (base + first.size)
          (Nat.pos_of_ne_zero hrest)
        refine ⟨line, List.mem_cons_of_mem _ hl, address, ha, hend.trans ?_⟩
        change base + first.size + extent lines = base + ((first.size + extent lines : Nat) : Int)
        omega

theorem value_place_cases {name : String} {value : Int}
    (h : ((place t base lines).symbols.symbol name).value = some value) :
    (t.symbol name).value = some value ∨
      ∃ line ∈ (place t base lines).codeLines, line.address = some value := by
  rw [value_place] at h
  split at h
  · cases hd : (place t base lines).declaration? name with
    | none =>
      rw [hd] at h
      exact .inl h
    | some line =>
      rw [hd] at h
      exact .inr ⟨line, mem_of_declaration? hd, h⟩
  · exact .inl h

end Placed

variable {text : String} {symbols : SymbolTable} {base : Int}

theorem size_of_mem_image {line : CodeLine}
    (hl : line ∈ ((parse text symbols).image base).codeLines) : line.size = 3 := by
  obtain ⟨source, hsource, hb⟩ := exists_body_of_mem_codeLines hl
  obtain ⟨m, o, mode, hbody, -⟩ := body_of_mem_parse hsource
  rw [CodeLine.size, ← hb, hbody]

/-- A program fits into the address space exactly if the last of its lines begins there. No fault
tells that it does not: the faults are the same wherever the program stands. -/
theorem addresses_fit_iff (text : String) (symbols : SymbolTable) (base : Int)
    (hvalues : ∀ name value, (symbols.symbol name).value = some value → IsAddress value)
    (hbase : IsAddress base) :
    let program := parse text symbols
    let image := program.image base
    (∀ other, (program.image other).faults = image.faults) ∧
    (∀ line ∈ image.codeLines, ∃ address, line.address = some address ∧ base ≤ address ∧
      address + 3 ≤ base + extent program.lines) ∧
    ((∀ line ∈ image.codeLines, ∀ address, line.address = some address → IsAddress address) ∧
        (∀ name value, (image.symbols.symbol name).value = some value → IsAddress value) ↔
      base + extent program.lines ≤ 0xFFFF + 3) := by
  intro program image
  have hplaced : ∀ line ∈ image.codeLines, ∃ address, line.address = some address ∧
      base ≤ address ∧ address + 3 ≤ base + extent program.lines := by
    intro line hl
    obtain ⟨address, ha, hlow, hhigh⟩ := address_place hl
    rw [size_of_mem_image hl] at hhigh
    exact ⟨address, ha, hlow, hhigh⟩
  refine ⟨fun other ↦ ?_, hplaced, ⟨fun ⟨hlines, _⟩ ↦ ?_, fun hend ↦ ?_⟩⟩
  · change (place _ _ _).faults = (place _ _ _).faults
    rw [faults_place, faults_place]
  · by_cases hempty : extent program.lines = 0
    · have hhigh := hbase.2
      omega
    · obtain ⟨line, hl, address, ha, hlast⟩ :=
        @exists_last_place program.symbols base program.lines (Nat.pos_of_ne_zero hempty)
      have hhigh := (hlines line hl address ha).2
      rw [size_of_mem_image hl] at hlast
      omega
  · have hlines : ∀ line ∈ image.codeLines, ∀ address, line.address = some address →
        IsAddress address := by
      intro line hl address ha
      obtain ⟨address', ha', hlow, hhigh⟩ := hplaced line hl
      rw [ha] at ha'
      cases ha'
      have hfirst := hbase.1
      exact ⟨by omega, by omega⟩
    refine ⟨hlines, fun name value hv ↦ ?_⟩
    rcases value_place_cases hv with hbefore | ⟨line, hl, ha⟩
    · rw [(parse_records text symbols name).2.1] at hbefore
      exact hvalues name value hbefore
    · exact hlines line hl value ha

theorem addresses_fit_iff_last_byte :
    let symbols := SymbolTable.empty.setValue "k" (some 0xFFFF)
    let program := parse "LDWA k,d ;first\na: BR a,i" symbols
    let image := program.image 0xFFFC
    (∀ line ∈ program.lines, line.isError = false) ∧ image.faults = [] ∧
      (0xFFFC : Int) + extent program.lines = 0xFFFF + 3 ∧
      (image.symbols.symbol "a").value = some 0xFFFF ∧
      (∀ line ∈ image.codeLines, ∀ address, line.address = some address → IsAddress address) ∧
      ∀ name value, (image.symbols.symbol name).value = some value → IsAddress value := by
  intro symbols program image
  have hvalues : ∀ name value, (symbols.symbol name).value = some value → IsAddress value := by
    intro name value hv
    rw [SymbolTable.value_setValue] at hv
    split at hv
    · cases hv
      decide
    · contradiction
  have hread : ∀ line ∈ program.lines, line.isError = false := by decide +kernel
  have hfaults : image.faults = [] := by decide +kernel
  have hend : (0xFFFC : Int) + extent program.lines = 0xFFFF + 3 := by decide +kernel
  have ha : (image.symbols.symbol "a").value = some 0xFFFF := by decide +kernel
  have hfit := (addresses_fit_iff _ symbols 0xFFFC hvalues (by decide)).2.2.2
    (Int.le_of_eq hend)
  exact ⟨hread, hfaults, hend, ha, hfit⟩

/-- A program that runs past the end of the address space has no fault. -/
theorem addresses_beyond_unreported :
    let program := parse "LDWA 0,i\na: LDWA 1,i" .empty
    let image := program.image 0xFFFF
    (∀ name value, (SymbolTable.empty.symbol name).value = some value → IsAddress value) ∧
      IsAddress 0xFFFF ∧ (∀ line ∈ program.lines, line.isError = false) ∧ image.faults = [] ∧
      image.codeLines.map CodeLine.address = [some 0xFFFF, some 0x10002] ∧
      (image.symbols.symbol "a").value = some 0x10002 ∧ ¬ IsAddress 0x10002 := by
  intro program image
  have hread : ∀ line ∈ program.lines, line.isError = false := by decide +kernel
  have hfaults : image.faults = [] := by decide +kernel
  have haddresses : image.codeLines.map CodeLine.address = [some 0xFFFF, some 0x10002] := by
    decide +kernel
  have ha : (image.symbols.symbol "a").value = some 0x10002 := by decide +kernel
  exact ⟨nofun, by decide, hread, hfaults, haddresses, ha, by decide⟩

end PepAsm.Assembly
