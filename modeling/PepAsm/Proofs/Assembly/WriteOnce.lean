import PepAsm.Proofs.Assembly.Mentions

namespace PepAsm.SymbolTable

def ValuesDefined (t : SymbolTable) : Prop :=
  ∀ name, (t.symbol name).value.isSome → 1 ≤ (t.symbol name).definitions

variable {t : SymbolTable}

theorem valuesDefined_empty : empty.ValuesDefined := by
  intro name h
  contradiction

theorem ValuesDefined.define_setValue (h : t.ValuesDefined) (name : String) (value : Option Int) :
    ((t.define name).setValue name value).ValuesDefined := by
  intro other hvalue
  rw [definitions_setValue, definitions_define]
  by_cases ho : other = name
  · rw [if_pos ho]
    omega
  · rw [value_setValue, if_neg ho, value_define] at hvalue
    exact Nat.le_add_right_of_le (h other hvalue)

theorem ValuesDefined.addSystem (h : t.ValuesDefined) : t.addSystem.ValuesDefined := by
  unfold SymbolTable.addSystem
  generalize systemValues = values
  induction values generalizing t with
  | nil => exact h
  | cons entry values ih => exact ih (h.define_setValue entry.1 (some entry.2))

end PepAsm.SymbolTable

namespace PepAsm.Assembly

/-- Programs over one table of symbols. A program that was read waits, with its lines, to be put
into memory. -/
structure Workspace where
  symbols : SymbolTable
  programs : List (Option (List Line))
deriving Repr, DecidableEq

inductive Action
  | read (text : String)
  | place (program : Nat) (base : Int)
deriving Repr, DecidableEq

namespace Workspace

/-- Does an action, unless it is to place a program that was not read yet or was placed before. -/
def step (w : Workspace) : Action → Option Workspace
  | .read text =>
    let program := parse text w.symbols
    some ⟨program.symbols, w.programs ++ [some program.lines]⟩
  | .place k base =>
    match w.programs[k]? with
    | some (some lines) => some ⟨(place w.symbols base lines).symbols, w.programs.set k none⟩
    | _ => none

def run (w : Workspace) (actions : List Action) : Option Workspace :=
  actions.foldlM step w

def waiting (programs : List (Option (List Line))) : List String :=
  programs.flatMap fun program ↦ declarations (program.getD [])

/-- Each symbol has a definition for every declaration that waits, and one more for its value. -/
def Accounted (w : Workspace) : Prop :=
  ∀ name, (waiting w.programs).count name + (w.symbols.symbol name).value.toList.length ≤
    (w.symbols.symbol name).definitions

variable {w w' : Workspace} {k : Nat} {lines : List Line}

theorem accounted_of_valuesDefined {symbols : SymbolTable} (h : symbols.ValuesDefined) :
    Accounted ⟨symbols, []⟩ := by
  intro name
  have hdefined := h name
  change 0 + (symbols.symbol name).value.toList.length ≤ (symbols.symbol name).definitions
  cases hv : (symbols.symbol name).value with
  | none => exact Nat.zero_le _
  | some value =>
    rw [hv] at hdefined
    exact hdefined rfl

theorem count_waiting {programs : List (Option (List Line))}
    (h : programs[k]? = some (some lines)) (name : String) :
    (waiting programs).count name =
      (declarations lines).count name + (waiting (programs.set k none)).count name := by
  induction programs generalizing k with
  | nil => contradiction
  | cons program programs ih =>
    cases k with
    | zero =>
      cases h
      simp [waiting, declarations]
    | succ k =>
      have hrest := ih h
      simp only [waiting, List.set_cons_succ, List.flatMap_cons, List.count_append] at hrest ⊢
      omega

theorem declaration?_place_eq_none {t : SymbolTable} {base : Int} {name : String}
    (h : name ∉ declarations lines) : (place t base lines).declaration? name = none := by
  rwa [declaration?_eq_none, declarations_place]

theorem Accounted.value_place (hw : w.Accounted) (h : w.programs[k]? = some (some lines))
    (base : Int) (name : String) :
    ((place w.symbols base lines).symbols.symbol name).value =
      (w.symbols.symbol name).value.or
        (if (w.symbols.symbol name).definitions ≤ 1 then
          ((place w.symbols base lines).declaration? name).bind CodeLine.address
        else none) := by
  rw [Assembly.value_place]
  cases hv : (w.symbols.symbol name).value with
  | none =>
    rw [Option.none_or]
    split
    · cases (place w.symbols base lines).declaration? name with
      | none => rfl
      | some line => rfl
    · rfl
  | some value =>
    rw [Option.some_or]
    split
    · -- The one definition there is belongs to the value, so no line declares the symbol.
      have haccount := hw name
      have hcount := count_waiting h name
      rw [hv, Option.toList_some, List.length_singleton] at haccount
      have hnone : name ∉ declarations lines := by
        rw [← List.count_eq_zero]
        omega
      rw [declaration?_place_eq_none hnone]
    · rfl

theorem Accounted.read (hw : w.Accounted) (text : String) :
    Accounted ⟨(parse text w.symbols).symbols,
      w.programs ++ [some (parse text w.symbols).lines]⟩ := by
  intro name
  obtain ⟨hdefinitions, hvalue, hcount⟩ := parse_records text w.symbols name
  have haccount := hw name
  rw [hdefinitions, hvalue]
  simp only [waiting, List.flatMap_append, List.flatMap_singleton, Option.getD_some,
    List.count_append] at haccount ⊢
  omega

theorem Accounted.place (hw : w.Accounted) (h : w.programs[k]? = some (some lines)) (base : Int) :
    Accounted ⟨(place w.symbols base lines).symbols, w.programs.set k none⟩ := by
  intro name
  have haccount := hw name
  have hcount := count_waiting h name
  dsimp only
  rw [definitions_place, hw.value_place h base name]
  cases hv : (w.symbols.symbol name).value with
  | some value =>
    rw [hv] at haccount
    rw [Option.some_or]
    omega
  | none =>
    rw [Option.none_or]
    by_cases hd : name ∈ declarations lines
    · -- The new value takes over the definition of a declaration that waits no longer.
      have hpos := List.count_pos_iff.2 hd
      have hlength : ∀ o : Option Int, o.toList.length ≤ 1 := fun o ↦ Option.length_toList_le
      exact Nat.le_trans (Nat.add_le_add_left (hlength _) _) (by omega)
    · rw [declaration?_place_eq_none hd, Option.bind_none, ite_self, Option.toList_none,
        List.length_nil]
      omega

theorem Accounted.step (hw : w.Accounted) {action : Action} (h : w.step action = some w') :
    w'.Accounted ∧ ∀ name value, (w.symbols.symbol name).value = some value →
      (w'.symbols.symbol name).value = some value := by
  cases action with
  | read text =>
    cases h
    refine ⟨hw.read text, fun name value hv ↦ ?_⟩
    exact (parse_records text w.symbols name).2.1.trans hv
  | place k base =>
    unfold Workspace.step at h
    dsimp only at h
    split at h
    · rename_i lines hlines
      cases h
      refine ⟨hw.place hlines base, fun name value hv ↦ ?_⟩
      rw [hw.value_place hlines base name, hv, Option.some_or]
    · contradiction

theorem run_cons (action : Action) (actions : List Action) :
    w.run (action :: actions) = (w.step action).bind (·.run actions) := by
  rw [run, List.foldlM_cons]
  rfl

theorem Accounted.run (hw : w.Accounted) {actions : List Action} (h : w.run actions = some w') :
    w'.Accounted ∧ ∀ name value, (w.symbols.symbol name).value = some value →
      (w'.symbols.symbol name).value = some value := by
  induction actions generalizing w with
  | nil =>
    cases h
    exact ⟨hw, fun name value hv ↦ hv⟩
  | cons action actions ih =>
    rw [run_cons] at h
    obtain ⟨next, hstep, hrest⟩ := Option.bind_eq_some_iff.1 h
    obtain ⟨hnext, hkeep⟩ := hw.step hstep
    obtain ⟨hlast, hkeep'⟩ := ih hnext hrest
    exact ⟨hlast, fun name value hv ↦ hkeep' name value (hkeep name value hv)⟩

end Workspace

/-- However programs over one table are read and placed, each of them placed once at most, a symbol
never changes the value that it has. A program that is placed gives the symbols that had no value
so far, and have no second definition, the addresses of the lines that declare them. -/
theorem values_written_once (symbols : SymbolTable) (hsymbols : symbols.ValuesDefined)
    (earlier later : List Action) (w w' : Workspace)
    (hw : Workspace.run ⟨symbols, []⟩ earlier = some w) (hw' : w.run later = some w') :
    (∀ name value, (w.symbols.symbol name).value = some value →
      (w'.symbols.symbol name).value = some value) ∧
    ∀ k lines base, w.programs[k]? = some (some lines) →
      w.step (.place k base) =
        some ⟨(place w.symbols base lines).symbols, w.programs.set k none⟩ ∧
      ∀ name, ((place w.symbols base lines).symbols.symbol name).value =
        (w.symbols.symbol name).value.or
          (if (w.symbols.symbol name).definitions ≤ 1 then
            ((place w.symbols base lines).declaration? name).bind CodeLine.address
          else none) := by
  obtain ⟨haccounted, -⟩ := (Workspace.accounted_of_valuesDefined hsymbols).run hw
  refine ⟨(haccounted.run hw').2, fun k lines base hlines ↦ ⟨?_, ?_⟩⟩
  · rw [Workspace.step, hlines]
  · exact haccounted.value_place hlines base

theorem values_written_once_second_file :
    let earlier := [.read "a: LDWA charIn,d\nBR b,i", .read "b: BR a,i", .place 0 100]
    let later := [.read "charIn: LDWA 1,i\na: BR b,i\na: ,", .place 2 200, .place 1 300]
    ∃ w ∈ Workspace.run ⟨.system, []⟩ earlier, ∃ w' ∈ w.run later,
      (w.symbols.symbol "charIn").value = some 0xFFFD ∧ (w.symbols.symbol "a").value = some 100 ∧
      (w'.symbols.symbol "a").definitions = 3 ∧ (w'.symbols.symbol "b").value = some 300 ∧
      (w'.symbols.symbol "charIn").value = some 0xFFFD ∧
      (w'.symbols.symbol "a").value = some 100 := by
  intro earlier later
  have hrun : ∃ w ∈ Workspace.run ⟨.system, []⟩ earlier, ∃ w' ∈ w.run later,
      (w.symbols.symbol "charIn").value = some 0xFFFD ∧ (w.symbols.symbol "a").value = some 100 ∧
      (w'.symbols.symbol "a").definitions = 3 ∧
      (w'.symbols.symbol "b").value = some 300 := by decide +kernel
  obtain ⟨w, hw, w', hw', hcharIn, ha, hdefinitions, hb⟩ := hrun
  have hkeep := (values_written_once .system SymbolTable.valuesDefined_empty.addSystem earlier later
    w w' hw hw').1
  exact ⟨w, hw, w', hw', hcharIn, ha, hdefinitions, hb, hkeep _ _ hcharIn, hkeep _ _ ha⟩

end PepAsm.Assembly
