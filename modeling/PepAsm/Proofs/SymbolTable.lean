import PepAsm.Symbol
import Mathlib.Data.List.Nodup

namespace PepAsm.SymbolTable

/-- The symbol of a name. One that was never mentioned has no definition and no value. -/
def symbol (t : SymbolTable) (name : String) : Symbol :=
  (t.get? name).getD { name }

variable (t : SymbolTable) (name other : String)

theorem number_eq : t.number name = (t.symbol name).value.getD 0 := by
  unfold number symbol
  cases t.get? name with
  | none => rfl
  | some s => rfl

theorem isUndefined_eq : t.isUndefined name = decide ((t.symbol name).definitions = 0) := by
  unfold isUndefined symbol
  cases t.get? name with
  | none => rfl
  | some s => exact Bool.beq_eq_decide_eq s.definitions 0

theorem isMultiplyDefined_eq :
    t.isMultiplyDefined name = decide (1 < (t.symbol name).definitions) := by
  unfold isMultiplyDefined symbol
  cases t.get? name with
  | none => rfl
  | some s => rfl

@[simp] theorem symbol_reference : (t.reference name).symbol other = t.symbol other := by
  unfold symbol
  rw [get?_reference]
  split
  · subst other
    rfl
  · rfl

theorem symbol_define :
    (t.define name).symbol other =
      if other = name then (t.symbol name).define else t.symbol other := by
  unfold symbol
  rw [get?_define]
  split
  · rfl
  · rfl

theorem symbol_setValue (value : Option Int) :
    (t.setValue name value).symbol other =
      if other = name then (t.symbol name).setValue value else t.symbol other := by
  unfold symbol
  rw [get?_setValue]
  split
  · rfl
  · rfl

theorem definitions_define :
    ((t.define name).symbol other).definitions =
      (t.symbol other).definitions + if other = name then 1 else 0 := by
  rw [symbol_define]
  split
  · subst other
    rfl
  · rfl

@[simp] theorem value_define :
    ((t.define name).symbol other).value = (t.symbol other).value := by
  rw [symbol_define]
  split
  · subst other
    rfl
  · rfl

@[simp] theorem definitions_setValue (value : Option Int) :
    ((t.setValue name value).symbol other).definitions = (t.symbol other).definitions := by
  rw [symbol_setValue]
  split
  · subst other
    rfl
  · rfl

theorem value_setValue (value : Option Int) :
    ((t.setValue name value).symbol other).value =
      if other = name then value else (t.symbol other).value := by
  rw [symbol_setValue]
  split
  · rfl
  · rfl

def mention (names mentions : List String) : List String :=
  names ++ (mentions.filter (· ∉ names)).eraseDups

theorem mention_nil (names : List String) : mention names [] = names := by
  simp [mention]

theorem mention_append (names first second : List String) :
    mention names (first ++ second) = mention (mention names first) second := by
  have hlater : (second.filter (· ∉ names)).removeAll (first.filter (· ∉ names)) =
      second.filter (· ∉ mention names first) := by
    rw [List.removeAll, List.filter_filter]
    apply List.filter_congr
    intro name hname
    by_cases hnames : name ∈ names <;> simp [mention, hnames]
  rw [mention, List.filter_append, List.eraseDups_append, hlater, ← List.append_assoc]
  rfl

def names : List String :=
  t.symbols.map Symbol.name

theorem get?_eq_none : t.get? name = none ↔ name ∉ t.names := by
  simp [get?, names]

theorem names_update (f : Symbol → Symbol) (hf : ∀ s, (f s).name = s.name) :
    (t.update name f hf).names = t.names := by
  rw [names, update, List.map_map]
  apply List.map_congr_left
  intro s hs
  simp only [Function.comp_apply]
  split
  · exact hf s
  · rfl

theorem names_reference : (t.reference name).names = mention t.names [name] := by
  have hcontains : t.contains name = true ↔ name ∈ t.names := by
    rw [contains, Option.isSome_iff_ne_none, ne_eq, get?_eq_none, not_not]
  unfold reference mention
  split
  · rename_i h
    simp [hcontains.1 h]
  · rename_i h
    rw [hcontains] at h
    rw [List.filter_cons_of_pos (by simpa using h), names, List.map_append]
    rfl

theorem names_define : (t.define name).names = mention t.names [name] := by
  rw [define, names_update, names_reference]

theorem name_symbol : (t.symbol name).name = name := by
  unfold symbol
  cases h : t.get? name with
  | none => rfl
  | some s => exact name_of_get? h

theorem symbol_eq :
    t.symbol name = ⟨name, (t.symbol name).definitions, (t.symbol name).value⟩ := by
  conv_rhs => enter [1]; rw [← t.name_symbol name]

theorem symbol_of_not_mem (h : name ∉ t.names) : t.symbol name = { name } := by
  rw [symbol, (t.get?_eq_none name).2 h]
  rfl

theorem symbol_of_mem {s : Symbol} (h : s ∈ t.symbols) : t.symbol s.name = s := by
  have hname := t.name_symbol s.name
  have hmem : t.symbol s.name ∈ t.symbols := by
    unfold symbol
    cases hget : t.get? s.name with
    | none =>
      rw [get?_eq_none] at hget
      exact absurd (List.mem_map_of_mem h) hget
    | some s' => exact List.mem_of_find?_eq_some hget
  exact List.inj_on_of_nodup_map t.nodup hmem h hname

theorem symbols_eq_map : t.symbols = t.names.map t.symbol := by
  rw [names, List.map_map]
  conv_lhs => rw [← List.map_id t.symbols]
  apply List.map_congr_left
  intro s hs
  exact (t.symbol_of_mem hs).symm

end PepAsm.SymbolTable
