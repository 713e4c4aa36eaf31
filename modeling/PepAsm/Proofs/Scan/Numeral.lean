import PepAsm.Scan.Lexeme
import PepAsm.Text.Digit
import PepAsm.Text.Format
import Mathlib.Data.List.TakeWhile

namespace PepAsm.Scan

open PepAsm.Text

theorem exists_digitChar {c : Char} (h : c.isDigit = true) : ∃ d < 10, c = Nat.digitChar d := by
  obtain ⟨hlow, hhigh⟩ : 48 ≤ c.toNat ∧ c.toNat ≤ 57 := Char.isDigit_iff_toNat.1 h
  refine ⟨c.toNat - 48, by omega, ?_⟩
  apply Char.toNat_inj.1
  rw [Nat.toNat_digitChar_of_lt_ten (by omega)]
  omega

theorem class_of_isDigit {c : Char} (h : c.isDigit = true) :
    isGap c = false ∧ isLetter c = false ∧ Text.isDigit c = true ∧
      decimalValue? c = some (digitValue c) := by
  have hall : ∀ d < 10, isGap (Nat.digitChar d) = false ∧ isLetter (Nat.digitChar d) = false ∧
      Text.isDigit (Nat.digitChar d) = true ∧
      decimalValue? (Nat.digitChar d) = some (digitValue (Nat.digitChar d)) := by decide
  obtain ⟨d, hd, rfl⟩ := exists_digitChar h
  exact hall d hd

theorem not_mem_of_isDigit {c : Char} (h : c.isDigit = true) {marks : List Char}
    (hmarks : marks.all (!·.isDigit) = true) : c ∉ marks := by
  intro hmem
  have hmark := List.all_eq_true.1 hmarks c hmem
  rw [h] at hmark
  contradiction

theorem decimalFrom_digits (n : Nat) : decimalFrom 0 (digits 10 n) = n :=
  Nat.ofDigitChars_ten_toDigits

theorem decimalFrom_cons (d : Char) (ds : List Char) :
    decimalFrom 0 (d :: ds) = decimalFrom (digitValue d) ds := by
  simp [decimalFrom]

theorem decimal_cases (n : Int) :
    ∃ d ds, (∀ c ∈ d :: ds, c.isDigit = true) ∧
      ((Text.decimal n).toList = d :: ds ∧ n = decimalFrom 0 (d :: ds) ∨
        (Text.decimal n).toList = '-' :: d :: ds ∧ n = -decimalFrom 0 (d :: ds)) := by
  have hds : ∀ c ∈ digits 10 n.natAbs, c.isDigit = true := by
    intro c hc
    exact Nat.isDigit_of_mem_toDigits (by decide) (by decide) hc
  have hvalue := decimalFrom_digits n.natAbs
  obtain ⟨d, ds, hdigits⟩ : ∃ d ds, digits 10 n.natAbs = d :: ds :=
    List.exists_cons_of_ne_nil Nat.toDigits_ne_nil
  rw [hdigits] at hds hvalue
  refine ⟨d, ds, hds, ?_⟩
  rw [Text.decimal, String.toList_ofList, hdigits, hvalue]
  by_cases hn : n < 0
  · exact .inr ⟨if_pos hn, by omega⟩
  · exact .inl ⟨if_neg hn, by omega⟩

theorem toNat_lt_of_isHexDigit {c : Char} (h : isHexDigit c = true) : c.toNat < 128 := by
  simp only [isHexDigit, Bool.or_eq_true, Bool.and_eq_true, decide_eq_true_eq] at h
  rcases h with (hdigit | ⟨-, hlower⟩) | ⟨-, hupper⟩
  · have hhigh : c.toNat ≤ 57 := (Char.isDigit_iff_toNat.1 hdigit).2
    omega
  · have hhigh : c.toNat ≤ 102 := Char.le_def.1 hlower
    omega
  · have hhigh : c.toNat ≤ 70 := Char.le_def.1 hupper
    omega

theorem hexDigit_digitChar {d : Nat} (h : d < 16) :
    isHexDigit (Nat.digitChar d) = true ∧ hexDigitValue (Nat.digitChar d) = d := by
  have hall : ∀ d < 16,
      isHexDigit (Nat.digitChar d) = true ∧ hexDigitValue (Nat.digitChar d) = d := by decide
  exact hall d h

theorem hexadecimalOf_append (first : List Char) (c : Char) :
    hexadecimalOf (first ++ [c]) = 16 * hexadecimalOf first + hexDigitValue c := by
  simp [hexadecimalOf, List.foldl_append]

theorem hexadecimalOf_digits (n : Nat) :
    (∀ c ∈ digits 16 n, isHexDigit c = true) ∧ hexadecimalOf (digits 16 n) = n := by
  induction n using Nat.strong_induction_on with
  | h n ih =>
    obtain ⟨hdigit, hvalue⟩ := hexDigit_digitChar (Nat.mod_lt n (show 0 < 16 by decide))
    by_cases hn : n < 16
    · rw [Nat.mod_eq_of_lt hn] at hdigit hvalue
      have hone : digits 16 n = [Nat.digitChar n] := Nat.toDigits_of_lt_base hn
      simp [hone, hexadecimalOf, hdigit, hvalue]
    · have hmore : digits 16 n = digits 16 (n / 16) ++ [Nat.digitChar (n % 16)] :=
        Nat.toDigits_of_base_le (by decide) (by omega)
      obtain ⟨hall, hrest⟩ := ih (n / 16) (by omega)
      rw [hmore, hexadecimalOf_append, hrest, hvalue]
      refine ⟨fun c hc ↦ ?_, by omega⟩
      rcases List.mem_append.1 hc with hc | hc
      · exact hall c hc
      · rwa [List.mem_singleton.1 hc]

theorem hexadecimalOf_zeros (k : Nat) (l : List Char) :
    hexadecimalOf (List.replicate k '0' ++ l) = hexadecimalOf l := by
  induction k with
  | zero => rfl
  | succ k ih => exact ih

theorem hexadecimalOf_hexadecimal (width n : Nat) :
    (∀ c ∈ hexadecimal width n, isHexDigit c = true) ∧ hexadecimal width n ≠ [] ∧
      hexadecimalOf (hexadecimal width n) = n := by
  obtain ⟨hall, hvalue⟩ := hexadecimalOf_digits n
  have hpad : hexadecimal width n =
      List.replicate (width - (digits 16 n).length) '0' ++ digits 16 n := by
    rw [hexadecimal, if_neg (by omega)]
    rfl
  have hne : digits 16 n ≠ [] := Nat.toDigits_ne_nil
  rw [hpad, hexadecimalOf_zeros, hvalue]
  refine ⟨fun c hc ↦ ?_, by simp [hne], rfl⟩
  rcases List.mem_append.1 hc with hc | hc
  · rw [List.eq_of_mem_replicate hc]
    decide
  · exact hall c hc

/-- A run of characters of a class ends before the first character outside the class, or with the
text. -/
theorem span_run_before {p : Char → Bool} {run rest : List Char} (hrun : ∀ c ∈ run, p c = true)
    (hrest : ∀ c ∈ rest.head?, p c = false) :
    (run ++ rest).takeWhile p = run ∧ (run ++ rest).dropWhile p = rest := by
  rw [List.takeWhile_append_of_pos hrun, List.dropWhile_append_of_pos hrun]
  cases rest with
  | nil => simp
  | cons c rest =>
    have hneg : ¬ p c = true := by simpa using hrest c
    rw [List.takeWhile_cons_of_neg hneg, List.dropWhile_cons_of_neg hneg, List.append_nil]
    exact ⟨rfl, rfl⟩

theorem span_run {p : Char → Bool} {run : List Char} (hrun : ∀ c ∈ run, p c = true) {c : Char}
    (hc : p c = false) (rest : List Char) :
    (run ++ c :: rest).takeWhile p = run ∧ (run ++ c :: rest).dropWhile p = c :: rest :=
  span_run_before hrun (by simpa using hc)

section Number

variable {τ : Type} {decimal : Int → τ} {invalid : τ} {ds rest : List Char}

theorem number_run (sign : Int) (value : Nat) (hds : ∀ d ∈ ds, d.isDigit = true)
    (hrest : ∀ c ∈ rest.head?, c.isDigit = false) :
    number decimal sign value (ds ++ rest) = (decimal (sign * decimalFrom value ds), rest) := by
  obtain ⟨htake, hdrop⟩ := span_run_before hds hrest
  rw [number, htake, hdrop]

theorem signedNumber_digits (sign : Int) (hne : ds ≠ []) (hds : ∀ d ∈ ds, d.isDigit = true)
    (hrest : ∀ c ∈ rest.head?, c.isDigit = false) :
    signedNumber decimal invalid sign (ds ++ rest) =
      (decimal (sign * decimalFrom 0 ds), rest) := by
  have hrun : number decimal sign 0 (ds ++ rest) = _ := number_run sign 0 hds hrest
  cases ds with
  | nil => contradiction
  | cons d ds =>
    rw [List.cons_append] at hrun ⊢
    rw [signedNumber, if_pos (hds d List.mem_cons_self), hrun]

end Number

theorem Scanner.nextLexeme?_gap {τ : Type} (lineEnd : τ)
    (lexeme : Char → List Char → τ × List Char) {gap : List Char}
    (hgap : ∀ c ∈ gap, isGap c = true) {c : Char} (hc : isGap c = false) (rest : List Char) :
    nextLexeme? lineEnd lexeme (gap ++ c :: rest) = some (lexeme c rest) := by
  have hneg : ¬ isGap c = true := by simp [hc]
  rw [nextLexeme?, if_neg (by simp), List.dropWhile_append_of_pos hgap,
    List.dropWhile_cons_of_neg hneg]

end PepAsm.Scan
