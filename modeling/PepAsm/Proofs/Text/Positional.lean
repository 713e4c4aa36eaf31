import PepAsm.Text.Digit
import Mathlib.Data.List.Induction
import Mathlib.Data.Nat.Digits.Defs

namespace PepAsm.Text

def numeral (base : Nat) (value : Char → Nat) (digits : List Char) : Nat :=
  Nat.ofDigits base (digits.map value).reverse

/-- The number that a run of digits denotes. Each of them must have a value, and there must be
one. -/
def positional? (base : Nat) (value? : Char → Option Nat) (digits : List Char) : Option Nat :=
  if !digits.isEmpty && digits.all fun c ↦ (value? c).isSome then
    some (numeral base (fun c ↦ (value? c).getD 0) digits)
  else none

def splitSign : List Char → Int × List Char
  | '+' :: text => (1, text)
  | '-' :: text => (-1, text)
  | text => (1, text)

def signedNotation? (value? : Char → Option Nat) (text : List Char) : Option Int :=
  (positional? 10 value? (splitSign text).2).map fun n : Nat ↦ (splitSign text).1 * n

def hexValue? (c : Char) : Option Nat :=
  "0123456789abcdef".toList.idxOf? c.toLower

def hexadecimalNotation? : List Char → Option Int
  | '0' :: 'x' :: digits | '0' :: 'X' :: digits =>
    (positional? 16 hexValue? digits).map fun n : Nat ↦ (n : Int)
  | _ => none

theorem splitSign_of_ne {c : Char} (hplus : c ≠ '+') (hminus : c ≠ '-') (text : List Char) :
    splitSign (c :: text) = (1, c :: text) := by
  apply splitSign.eq_3
  · intro rest h
    exact hplus (List.cons.inj h).1
  · intro rest h
    exact hminus (List.cons.inj h).1

section Numeral

variable {base : Nat} {value value' : Char → Nat} {digits : List Char}

@[simp] theorem numeral_concat (digits : List Char) (c : Char) :
    numeral base value (digits ++ [c]) = base * numeral base value digits + value c := by
  simp [numeral, Nat.ofDigits_cons, Nat.add_comm]

theorem numeral_eq_foldl :
    numeral base value digits = digits.foldl (fun n d ↦ base * n + value d) 0 := by
  induction digits using List.reverseRecOn with
  | nil => rfl
  | append_singleton digits c ih => simp [ih]

theorem numeral_congr (h : ∀ c ∈ digits, value c = value' c) :
    numeral base value digits = numeral base value' digits := by
  rw [numeral, numeral, List.map_congr_left h]

/-- Digits that count for more make up a greater number, and the same number only if all of them
count for the same. -/
theorem numeral_le (hbase : 0 < base) (h : ∀ c ∈ digits, value c ≤ value' c) :
    numeral base value digits ≤ numeral base value' digits ∧
      (numeral base value digits = numeral base value' digits →
        ∀ c ∈ digits, value c = value' c) := by
  induction digits using List.reverseRecOn with
  | nil => simp [numeral]
  | append_singleton digits c ih =>
    simp only [List.forall_mem_append, List.forall_mem_singleton] at h
    obtain ⟨hle, hinj⟩ := ih h.1
    have hmul := Nat.mul_le_mul_left base hle
    simp only [numeral_concat, List.forall_mem_append, List.forall_mem_singleton]
    refine ⟨by omega, ?_⟩
    intro heq
    refine ⟨hinj ?_, by omega⟩
    apply Nat.eq_of_mul_eq_mul_left hbase
    omega

end Numeral

section Positional

variable {base n : Nat} {value? : Char → Option Nat} {value : Char → Nat} {digits : List Char}

theorem positional?_eq_some : positional? base value? digits = some n ↔
    digits ≠ [] ∧ (∀ c ∈ digits, (value? c).isSome) ∧
      numeral base (fun c ↦ (value? c).getD 0) digits = n := by
  simp [positional?, and_assoc]

theorem positional?_of_values (hne : digits ≠ []) (h : ∀ c ∈ digits, value? c = some (value c)) :
    positional? base value? digits = some (numeral base value digits) := by
  rw [positional?_eq_some]
  refine ⟨hne, ?_, ?_⟩
  · intro c hc
    rw [h c hc]
    rfl
  · apply numeral_congr
    intro c hc
    rw [h c hc]
    rfl

theorem signedNotation?_eq_some {text : List Char} {v : Int} :
    signedNotation? value? text = some v ↔
      ∃ n, positional? 10 value? (splitSign text).2 = some n ∧ (splitSign text).1 * n = v := by
  rw [signedNotation?, Option.map_eq_some_iff]

end Positional

end PepAsm.Text
