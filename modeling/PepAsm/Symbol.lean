namespace PepAsm

structure Symbol where
  name : String
  definitions : Nat := 0
  value : Option Int := none
deriving Repr, DecidableEq

namespace Symbol

def isUndefined (s : Symbol) : Bool :=
  s.definitions == 0

def isMultiplyDefined (s : Symbol) : Bool :=
  decide (1 < s.definitions)

/-- The number that a symbol counts as. A value that is not known counts as zero. -/
def number (s : Symbol) : Int :=
  s.value.getD 0

def define (s : Symbol) : Symbol :=
  { s with definitions := s.definitions + 1 }

def setValue (value : Option Int) (s : Symbol) : Symbol :=
  { s with value := value }

theorem name_define (s : Symbol) : s.define.name = s.name := rfl

theorem name_setValue (value : Option Int) (s : Symbol) : (s.setValue value).name = s.name := rfl

end Symbol

/-- The symbols of a program in the order of their first mention, each name once. -/
structure SymbolTable where
  symbols : List Symbol
  nodup : (symbols.map Symbol.name).Nodup
deriving Repr, DecidableEq

namespace SymbolTable

def empty : SymbolTable :=
  ⟨[], List.nodup_nil⟩

def get? (t : SymbolTable) (name : String) : Option Symbol :=
  t.symbols.find? (·.name == name)

def contains (t : SymbolTable) (name : String) : Bool :=
  (t.get? name).isSome

def update (t : SymbolTable) (name : String) (f : Symbol → Symbol)
    (hf : ∀ s, (f s).name = s.name) : SymbolTable where
  symbols := t.symbols.map fun s ↦ if s.name = name then f s else s
  nodup := by
    have h : (Symbol.name ∘ fun s ↦ if s.name = name then f s else s) = Symbol.name := by
      funext s
      simp only [Function.comp_apply]
      split
      · exact hf s
      · rfl
    rw [List.map_map, h]
    exact t.nodup

/-- Mentions a symbol. A new one comes last and is not defined. -/
def reference (t : SymbolTable) (name : String) : SymbolTable :=
  if h : t.contains name then t
  else
    { symbols := t.symbols ++ [{ name }]
      nodup := by
        have hn : ∀ s ∈ t.symbols, s.name ≠ name := by
          simpa [contains, get?] using h
        rw [List.map_append, List.nodup_append]
        refine ⟨t.nodup, List.nodup_cons.2 ⟨List.not_mem_nil, List.nodup_nil⟩, ?_⟩
        intro a ha b hb
        obtain ⟨s, hs, rfl⟩ := List.mem_map.1 ha
        have : b = name := by simpa using hb
        exact this ▸ hn s hs }

def define (t : SymbolTable) (name : String) : SymbolTable :=
  (t.reference name).update name Symbol.define Symbol.name_define

def setValue (t : SymbolTable) (name : String) (value : Option Int) : SymbolTable :=
  (t.reference name).update name (Symbol.setValue value) (Symbol.name_setValue value)

def number (t : SymbolTable) (name : String) : Int :=
  ((t.get? name).map Symbol.number).getD 0

def isUndefined (t : SymbolTable) (name : String) : Bool :=
  ((t.get? name).map Symbol.isUndefined).getD true

def isMultiplyDefined (t : SymbolTable) (name : String) : Bool :=
  ((t.get? name).map Symbol.isMultiplyDefined).getD false

def systemValues : List (String × Int) :=
  [("pwrOff", 0xFFFF), ("charOut", 0xFFFE), ("charIn", 0xFFFD), ("DECI", 0), ("DECO", 1),
   ("HEXO", 2), ("STRO", 3), ("SNOP", 4)]

def addSystem (t : SymbolTable) : SymbolTable :=
  systemValues.foldl (fun t (name, value) ↦ (t.define name).setValue name (some value)) t

def system : SymbolTable :=
  empty.addSystem

theorem name_of_get? {t : SymbolTable} {name : String} {s : Symbol} (h : t.get? name = some s) :
    s.name = name := by
  simpa using List.find?_some h

theorem get?_update (t : SymbolTable) (name other : String) (f : Symbol → Symbol)
    (hf : ∀ s, (f s).name = s.name) :
    (t.update name f hf).get? other =
      if other = name then (t.get? other).map f else t.get? other := by
  have h : ∀ l : List Symbol,
      (l.map fun s ↦ if s.name = name then f s else s).find? (·.name == other) =
        if other = name then (l.find? (·.name == other)).map f else l.find? (·.name == other) := by
    intro l
    induction l with
    | nil => simp
    | cons s l ih =>
      by_cases hs : s.name = name <;> by_cases ho : s.name = other <;>
        by_cases hn : other = name <;> simp_all
  exact h t.symbols

theorem get?_reference (t : SymbolTable) (name other : String) :
    (t.reference name).get? other =
      if other = name then some ((t.get? name).getD { name }) else t.get? other := by
  unfold reference
  split
  · rename_i h
    split
    · subst_vars
      obtain ⟨s, hs⟩ := Option.isSome_iff_exists.1 h
      simp [hs]
    · rfl
  · rename_i h
    have hn : t.get? name = none := by simpa [contains] using h
    by_cases ho : other = name
    · subst ho
      unfold get? at hn ⊢
      simp [List.find?_append, hn]
    · have ho' : ¬ name = other := fun h ↦ ho h.symm
      simp [get?, List.find?_append, ho, ho']

theorem get?_define (t : SymbolTable) (name other : String) :
    (t.define name).get? other =
      if other = name then some ((t.get? name).getD { name }).define else t.get? other := by
  rw [define, get?_update, get?_reference]
  split <;> simp

theorem get?_setValue (t : SymbolTable) (name other : String) (value : Option Int) :
    (t.setValue name value).get? other =
      if other = name then some (((t.get? name).getD { name }).setValue value)
      else t.get? other := by
  rw [setValue, get?_update, get?_reference]
  split <;> simp

end SymbolTable

end PepAsm
