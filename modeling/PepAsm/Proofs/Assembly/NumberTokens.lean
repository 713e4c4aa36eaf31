import PepAsm.Proofs.Assembly.Spelling
import PepAsm.Proofs.Text.Positional

namespace PepAsm.Assembly.Token

open PepAsm.Scan PepAsm.Text

/-- The distance of a digit from the zero of ASCII. It is the digit's value in ASCII only. -/
def offsetValue? (c : Char) : Option Nat :=
  if Text.isDigit c then some (digitValue c) else none

def Denotes : Token → List Char → Prop
  | .decimal v, word => signedNotation? offsetValue? word = some v
  | .hexadecimal v, word => hexadecimalNotation? word = some v
  | _, _ => True

def ReadOff (text : List Char) (read : Token × List Char) : Prop :=
  ∃ word, text = word ++ read.2 ∧ Denotes read.1 word

section Value

variable {c : Char}

theorem decimalValue?_lt {k : Nat} (h : decimalValue? c = some k) : k < 10 := by
  unfold decimalValue? at h
  split at h
  · split at h
    · rename_i hdigit
      obtain ⟨-, hhigh⟩ : 48 ≤ c.toNat ∧ c.toNat ≤ 57 := Char.isDigit_iff_toNat.1 hdigit
      obtain rfl : c.toNat - 48 = k := Option.some.inj h
      omega
    · contradiction
  · obtain ⟨run, -, rfl⟩ := Option.map_eq_some_iff.1 h
    exact Nat.mod_lt _ (by decide)

theorem decimalValue?_of_isAscii (hdigit : Text.isDigit c = true) (hc : isAscii c = true) :
    decimalValue? c = some (digitValue c) := by
  rw [isDigit_eq_isDigit hc] at hdigit
  rw [decimalValue?_of_ascii hc, if_pos hdigit, digitValue]

theorem decimalValue?_lt_digitValue {k : Nat} (hc : isAscii c = false)
    (h : decimalValue? c = some k) : k < digitValue c := by
  have hk := decimalValue?_lt h
  have hlarge : 0x80 ≤ c.toNat := by simpa [isAscii] using hc
  have hzero : digitValue c = c.toNat - 48 := rfl
  omega

theorem hexValue?_of_isHexDigit (h : isHexDigit c = true) :
    hexValue? c = some (hexDigitValue c) := by
  have hall : ∀ n < 128, isHexDigit (Char.ofNat n) = true →
      hexValue? (Char.ofNat n) = some (hexDigitValue (Char.ofNat n)) := by decide
  have hc := hall c.toNat (toNat_lt_of_isHexDigit h)
  rw [Char.ofNat_toNat] at hc
  exact hc h

end Value

section Notation

variable {sign v : Int} {word digits : List Char}

theorem decimalFrom_eq_numeral : decimalFrom 0 digits = numeral 10 digitValue digits :=
  numeral_eq_foldl.symm

theorem signedNotation?_of_digits (hsplit : splitSign word = (sign, digits)) (hne : digits ≠ [])
    (hdigits : ∀ c ∈ digits, Text.isDigit c = true) :
    signedNotation? offsetValue? word = some (sign * decimalFrom 0 digits) := by
  rw [signedNotation?_eq_some, hsplit]
  refine ⟨decimalFrom 0 digits, ?_, rfl⟩
  rw [decimalFrom_eq_numeral]
  apply positional?_of_values hne
  intro c hc
  simp [offsetValue?, hdigits c hc]

theorem splitSign_of_isDigit {c : Char} (h : Text.isDigit c = true) (text : List Char) :
    splitSign (c :: text) = (1, c :: text) := by
  apply splitSign_of_ne
  · intro hc
    subst hc
    contradiction
  · intro hc
    subst hc
    contradiction

theorem splitSign_cases (word : List Char) :
    ∃ mark, word = mark ++ (splitSign word).2 ∧ (∀ c ∈ mark, isAscii c = true) ∧
      (splitSign word).1 ≠ 0 := by
  unfold splitSign
  split
  · exact ⟨['+'], rfl, List.forall_mem_singleton.2 rfl, by simp⟩
  · exact ⟨['-'], rfl, List.forall_mem_singleton.2 rfl, by simp⟩
  · exact ⟨[], rfl, by simp, by simp⟩

/-- Digits of other scripts are too far from the zero of ASCII for the number they denote. -/
theorem positional?_decimalValue?_iff {n : Nat} (h : positional? 10 offsetValue? digits = some n) :
    positional? 10 decimalValue? digits = some n ↔ ∀ c ∈ digits, isAscii c = true := by
  obtain ⟨hne, hdigits, hn⟩ := positional?_eq_some.1 h
  have hoffset : ∀ c ∈ digits, (offsetValue? c).getD 0 = digitValue c ∧ Text.isDigit c = true := by
    intro c hc
    have hsome := hdigits c hc
    unfold offsetValue? at hsome ⊢
    split
    · exact ⟨rfl, ‹_›⟩
    · simp_all
  rw [numeral_congr fun c hc ↦ (hoffset c hc).1] at hn
  constructor
  · -- No digit has a value above its offset, so equal numbers have equal digits.
    intro hdecimal
    obtain ⟨-, hvalues, hm⟩ := positional?_eq_some.1 hdecimal
    have hle : ∀ c ∈ digits, (decimalValue? c).getD 0 ≤ digitValue c ∧
        ((decimalValue? c).getD 0 = digitValue c → isAscii c = true) := by
      intro c hc
      obtain ⟨k, hk⟩ := Option.isSome_iff_exists.1 (hvalues c hc)
      rw [hk, Option.getD_some]
      cases hascii : isAscii c with
      | true =>
        have heq := decimalValue?_of_isAscii (hoffset c hc).2 hascii
        rw [hk] at heq
        exact ⟨(Option.some.inj heq).le, fun _ ↦ rfl⟩
      | false =>
        have hlt := decimalValue?_lt_digitValue hascii hk
        exact ⟨hlt.le, fun heq ↦ absurd heq hlt.ne⟩
    intro c hc
    apply (hle c hc).2
    exact (numeral_le (by decide) fun c hc ↦ (hle c hc).1).2 (hm.trans hn.symm) c hc
  · intro hascii
    rw [← hn]
    apply positional?_of_values hne
    intro c hc
    exact decimalValue?_of_isAscii (hoffset c hc).2 (hascii c hc)

theorem signedNotation?_decimalValue?_iff (h : signedNotation? offsetValue? word = some v) :
    signedNotation? decimalValue? word = some v ↔ ∀ c ∈ word, isAscii c = true := by
  obtain ⟨n, hn, rfl⟩ := signedNotation?_eq_some.1 h
  obtain ⟨mark, hword, hmark, hsign⟩ := splitSign_cases word
  have hall : (∀ c ∈ word, isAscii c = true) ↔ ∀ c ∈ (splitSign word).2, isAscii c = true := by
    constructor
    · intro hall c hc
      apply hall
      rw [hword]
      exact List.mem_append_right mark hc
    · intro hall c hc
      rw [hword] at hc
      exact (List.mem_append.1 hc).elim (hmark c) (hall c)
  rw [hall, ← positional?_decimalValue?_iff hn, signedNotation?_eq_some]
  constructor
  · rintro ⟨m, hm, heq⟩
    obtain rfl : m = n := by exact_mod_cast mul_left_cancel₀ hsign heq
    exact hm
  · intro hdecimal
    exact ⟨n, hdecimal, rfl⟩

end Notation

section Rules

variable {text : List Char}

theorem isDigit_of_mem_takeWhile {c : Char} (h : c ∈ text.takeWhile Char.isDigit) :
    Text.isDigit c = true :=
  (class_of_isDigit (List.mem_takeWhile_imp h)).2.2.1

theorem readOff_number {sign : Int} (before lead : List Char)
    (hsplit : ∀ digits, splitSign (before ++ digits) = (sign, lead ++ digits))
    (hne : lead ++ text.takeWhile Char.isDigit ≠ [])
    (hlead : ∀ c ∈ lead, Text.isDigit c = true) :
    ReadOff (before ++ text) (number .decimal sign (decimalFrom 0 lead) text) := by
  refine ⟨before ++ text.takeWhile Char.isDigit, ?_, ?_⟩
  · rw [number, List.append_assoc, List.takeWhile_append_dropWhile]
  · have hvalue : decimalFrom (decimalFrom 0 lead) (text.takeWhile Char.isDigit) =
        decimalFrom 0 (lead ++ text.takeWhile Char.isDigit) := by
      simp [decimalFrom, List.foldl_append]
    rw [number, Denotes, hvalue]
    apply signedNotation?_of_digits (hsplit _) hne
    intro c hc
    rcases List.mem_append.1 hc with hc | hc
    · exact hlead c hc
    · exact isDigit_of_mem_takeWhile hc

theorem readOff_hexNumber {mark : Char} (hmark : mark = 'x' ∨ mark = 'X') :
    ReadOff ('0' :: mark :: text) (hexNumber text) := by
  cases text with
  | nil => exact ⟨['0', mark], rfl, trivial⟩
  | cons c text =>
    by_cases hc : isHexDigit c
    · have hdigits : ∀ d ∈ c :: text.takeWhile isHexDigit, hexValue? d = some (hexDigitValue d) := by
        intro d hd
        apply hexValue?_of_isHexDigit
        rcases List.mem_cons.1 hd with rfl | hd
        · exact hc
        · exact List.mem_takeWhile_imp hd
      have hvalue : positional? 16 hexValue? (c :: text.takeWhile isHexDigit) =
          some (hexadecimalOf (c :: text.takeWhile isHexDigit)) := by
        rw [hexadecimalOf, ← numeral_eq_foldl]
        exact positional?_of_values (List.cons_ne_nil _ _) hdigits
      rw [hexNumber, if_pos hc]
      refine ⟨'0' :: mark :: c :: text.takeWhile isHexDigit, by simp, ?_⟩
      rcases hmark with rfl | rfl
      · simp [Denotes, hexadecimalNotation?, hvalue]
      · simp [Denotes, hexadecimalNotation?, hvalue]
    · rw [hexNumber, if_neg hc]
      exact ⟨['0', mark, c], rfl, trivial⟩

theorem readOff_zeroNumber : ReadOff ('0' :: text) (zeroNumber text) := by
  have hzero : Denotes (.decimal 0) ['0'] := by
    change signedNotation? offsetValue? ['0'] = some 0
    decide
  cases text with
  | nil => exact ⟨['0'], rfl, hzero⟩
  | cons c text =>
    by_cases hc : Text.isDigit c
    · have hlead : digitValue c = decimalFrom 0 ['0', c] := by simp [decimalFrom, digitValue]
      rw [zeroNumber, if_pos hc, hlead]
      apply readOff_number ['0', c] ['0', c]
      · intro digits
        exact splitSign_of_isDigit (by decide) _
      · simp
      · exact List.forall_mem_cons.2 ⟨by decide, List.forall_mem_singleton.2 hc⟩
    · by_cases hmark : c = 'x' ∨ c = 'X'
      · rw [zeroNumber, if_neg hc, if_pos hmark]
        exact readOff_hexNumber hmark
      · rw [zeroNumber, if_neg hc, if_neg hmark]
        exact ⟨['0'], rfl, hzero⟩

theorem readOff_signedNumber {mark : Char} {sign : Int}
    (hsplit : ∀ digits, splitSign (mark :: digits) = (sign, digits)) :
    ReadOff (mark :: text) (signedNumber .decimal .invalid sign text) := by
  cases text with
  | nil => exact ⟨[mark], rfl, trivial⟩
  | cons c text =>
    by_cases hc : c.isDigit
    · rw [signedNumber, if_pos hc]
      apply readOff_number [mark] []
      · exact hsplit
      · simp [hc]
      · simp
    · rw [signedNumber, if_neg hc]
      exact ⟨[mark, c], rfl, trivial⟩

theorem readOff_word (c : Char) : ReadOff (c :: text) (word c text) := by
  obtain ⟨taken, htaken⟩ := suffix_word c text
  refine ⟨c :: taken, ?_, ?_⟩
  · rw [List.cons_append, htaken]
  · unfold word
    dsimp only
    split
    · trivial
    · trivial

theorem readOff_lexeme (c : Char) (text : List Char) : ReadOff (c :: text) (lexeme c text) := by
  cases c using lexeme_cases with
  | lineEnd h | comma h | other c h =>
    rw [h]
    exact ⟨[_], rfl, trivial⟩
  | comment h =>
    rw [h]
    exact ⟨';' :: text.takeWhile (· != '\n'), by simp [remark], trivial⟩
  | name c hname h => exact h ▸ readOff_word c
  | zero h => exact h ▸ readOff_zeroNumber
  | decimal c hdecimal h =>
    have hdigit := isDigit_of_isDecimal hdecimal
    have hlead : digitValue c = decimalFrom 0 [c] := by simp [decimalFrom]
    rw [h, hlead]
    apply readOff_number [c] [c]
    · exact splitSign_of_isDigit hdigit
    · simp
    · simp [hdigit]
  | plus h => exact h ▸ readOff_signedNumber fun digits ↦ rfl
  | minus h => exact h ▸ readOff_signedNumber fun digits ↦ rfl

end Rules

variable {text rest : List Char} {token : Token}

theorem readOff_next? (h : scanner.next? text = some (token, rest)) :
    ∃ gap word, text = gap ++ word ++ rest ∧ (∀ c ∈ gap, isGap c = true) ∧ Denotes token word := by
  obtain ⟨gap, hgap, ⟨rfl, -, rfl, rfl⟩ | ⟨c, tail, rfl, -, hread⟩⟩ := Scanner.nextLexeme?_cases h
  · exact ⟨text, [], by simp, hgap, trivial⟩
  · obtain ⟨word, hword, hdenotes⟩ := readOff_lexeme c tail
    rw [hread] at hword hdenotes
    exact ⟨gap, word, by rw [hword, List.append_assoc], hgap, hdenotes⟩

/-- A token takes blanks and then the characters that make up its number. A hexadecimal number is
the one that they denote. A decimal number is so only if all the characters are in ASCII, since each
digit counts for its distance from the zero of ASCII. -/
theorem next?_number (h : scanner.next? text = some (token, rest)) :
    ∃ gap word, text = gap ++ word ++ rest ∧ (∀ c ∈ gap, isGap c = true) ∧
      (∀ v, token = .decimal v → signedNotation? offsetValue? word = some v ∧
        (signedNotation? decimalValue? word = some v ↔ ∀ c ∈ word, isAscii c = true)) ∧
      (∀ v, token = .hexadecimal v → hexadecimalNotation? word = some v) := by
  obtain ⟨gap, word, htext, hgap, hdenotes⟩ := readOff_next? h
  refine ⟨gap, word, htext, hgap, ?_, ?_⟩
  · rintro v rfl
    exact ⟨hdenotes, signedNotation?_decimalValue?_iff hdenotes⟩
  · rintro v rfl
    exact hdenotes

theorem next?_number_signed :
    scanner.next? " -0042,i".toList = some (.decimal (-42), ",i".toList) ∧
      ∃ gap word, " -0042,i".toList = gap ++ word ++ ",i".toList ∧
        signedNotation? decimalValue? word = some (-42) := by
  have hnext : scanner.next? " -0042,i".toList = some (.decimal (-42), ",i".toList) := rfl
  obtain ⟨gap, word, htext, -, hdecimal, -⟩ := next?_number hnext
  refine ⟨hnext, gap, word, htext, (hdecimal (-42) rfl).2.2 ?_⟩
  intro c hc
  have hall : " -0042,i".toList.all isAscii = true := by decide
  apply List.all_eq_true.1 hall
  simp [htext, hc]

/-- The Arabic digit three is read as 1587, the distance of its code point from the zero of ASCII. -/
theorem next?_number_other_script :
    scanner.next? ['\u0663'] = some (.decimal 1587, []) ∧
      signedNotation? decimalValue? ['\u0663'] = some 3 ∧
      ¬ ∃ gap word, ['\u0663'] = gap ++ word ++ [] ∧ (∀ c ∈ gap, isGap c = true) ∧
        signedNotation? decimalValue? word = some 1587 := by
  have hthree : signedNotation? decimalValue? ['\u0663'] = some 3 := by decide
  refine ⟨by decide +kernel, hthree, ?_⟩
  rintro ⟨gap, word, htext, hgap, hvalue⟩
  cases gap with
  | nil =>
    obtain rfl : ['\u0663'] = word := by simpa using htext
    rw [hthree] at hvalue
    exact absurd hvalue (by decide)
  | cons c gap =>
    obtain rfl : '\u0663' = c := (List.cons.inj htext).1
    have hblank := hgap _ List.mem_cons_self
    exact absurd hblank (by decide)

end PepAsm.Assembly.Token
