import PepAsm.Scan.Scanner
import PepAsm.Text.Character

namespace PepAsm.Scan

open PepAsm.Text

/-- Blanks between tokens carry no meaning, except for the line break. -/
def isGap (c : Char) : Bool :=
  isBlank c && c != '\n'

def digitValue (c : Char) : Nat :=
  c.toNat - '0'.toNat

/-- The number that a run of ASCII digits makes up when `start` stands before it. -/
def decimalFrom (start : Nat) (digits : List Char) : Nat :=
  digits.foldl (fun n d ↦ 10 * n + digitValue d) start

def isHexDigit (c : Char) : Bool :=
  c.isDigit || (decide ('a' ≤ c) && decide (c ≤ 'f')) || (decide ('A' ≤ c) && decide (c ≤ 'F'))

def hexDigitValue (c : Char) : Nat :=
  if c.isDigit then digitValue c else c.toLower.toNat - 'a'.toNat + 10

def hexadecimalOf (digits : List Char) : Nat :=
  digits.foldl (fun n d ↦ 16 * n + hexDigitValue d) 0

section Number

variable {τ : Type} (decimal : Int → τ) (invalid : τ)

/-- The digits in front of a text and the text after them, as a number that begins with
`value`. -/
def number (sign : Int) (value : Nat) (text : List Char) : τ × List Char :=
  (decimal (sign * decimalFrom value (text.takeWhile Char.isDigit)), text.dropWhile Char.isDigit)

/-- A sign belongs to the number that follows it at once. Without one it is invalid, and takes
the character in the digit's place with it. -/
def signedNumber (sign : Int) : List Char → τ × List Char
  | [] => (invalid, [])
  | c :: text => if c.isDigit then number decimal sign 0 (c :: text) else (invalid, text)

theorem suffix_number (sign : Int) (value : Nat) (text : List Char) :
    (number decimal sign value text).2 <:+ text :=
  List.dropWhile_suffix _

theorem suffix_signedNumber (sign : Int) (text : List Char) :
    (signedNumber decimal invalid sign text).2 <:+ text := by
  unfold signedNumber
  split
  · exact List.suffix_rfl
  · split
    · exact suffix_number ..
    · exact List.suffix_cons ..

end Number

namespace Scanner

variable {τ : Type}

/-- The first token of a text, for a rule that reads a token from its first character on. A text
with nothing but blanks left is one last line end. -/
def nextLexeme? (lineEnd : τ) (lexeme : Char → List Char → τ × List Char) (text : List Char) :
    Option (τ × List Char) :=
  if text.isEmpty then none
  else
    match text.dropWhile isGap with
    | [] => some (lineEnd, [])
    | c :: rest => some (lexeme c rest)

section Lexeme

variable {lineEnd : τ} {lexeme : Char → List Char → τ × List Char} {text rest : List Char}
  {token : τ}

theorem nextLexeme?_eq_none : nextLexeme? lineEnd lexeme text = none ↔ text = [] := by
  unfold nextLexeme?
  split
  · simp_all
  · split
    · simp_all
    · simp_all

/-- A token is the line end after the last blanks, or read by the rule after a gap. -/
theorem nextLexeme?_cases (h : nextLexeme? lineEnd lexeme text = some (token, rest)) :
    ∃ gap, (∀ c ∈ gap, isGap c = true) ∧
      (text = gap ∧ text ≠ [] ∧ token = lineEnd ∧ rest = [] ∨
        ∃ c tail, text = gap ++ c :: tail ∧ isGap c = false ∧ lexeme c tail = (token, rest)) := by
  have hgap : ∀ c ∈ text.takeWhile isGap, isGap c = true := List.all_eq_true.1 List.all_takeWhile
  have hsplit : text.takeWhile isGap ++ text.dropWhile isGap = text :=
    List.takeWhile_append_dropWhile
  unfold nextLexeme? at h
  split at h
  · contradiction
  · rename_i hne
    refine ⟨text.takeWhile isGap, hgap, ?_⟩
    split at h
    · rename_i hnil
      cases h
      rw [hnil, List.append_nil] at hsplit
      exact .inl ⟨hsplit.symm, by simpa using hne, rfl, rfl⟩
    · rename_i c tail hcons
      have hhead := List.head?_dropWhile_not isGap text
      rw [hcons] at hhead hsplit
      exact .inr ⟨c, tail, hsplit.symm, hhead, Option.some.inj h⟩

theorem length_nextLexeme?_lt (hl : ∀ c text, (lexeme c text).2.length ≤ text.length)
    (h : nextLexeme? lineEnd lexeme text = some (token, rest)) : rest.length < text.length := by
  obtain ⟨gap, -, ⟨-, hne, -, rfl⟩ | ⟨c, tail, rfl, -, hread⟩⟩ := nextLexeme?_cases h
  · exact List.length_pos_iff.2 hne
  · have hle : rest.length ≤ tail.length := by simpa [hread] using hl c tail
    simp only [List.length_append, List.length_cons]
    omega

end Lexeme

def ofLexeme (lineEnd : τ) (lexeme : Char → List Char → τ × List Char)
    (hl : ∀ c text, (lexeme c text).2.length ≤ text.length) : Scanner τ where
  next? := nextLexeme? lineEnd lexeme
  length_lt := length_nextLexeme?_lt hl

theorem tokens_ofLexeme_eq_nil {lineEnd : τ} {lexeme : Char → List Char → τ × List Char}
    {hl : ∀ c text, (lexeme c text).2.length ≤ text.length} {text : List Char} :
    (ofLexeme lineEnd lexeme hl).tokens text = [] ↔ text = [] := by
  constructor
  · intro h
    cases hnext : (ofLexeme lineEnd lexeme hl).next? text with
    | none => exact nextLexeme?_eq_none.1 hnext
    | some next =>
      rw [tokens_of_some _ hnext] at h
      contradiction
  · intro h
    rw [h, tokens_nil]

end Scanner

end PepAsm.Scan
