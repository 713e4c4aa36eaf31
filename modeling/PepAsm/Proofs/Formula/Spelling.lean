import PepAsm.Formula.Token
import PepAsm.Proofs.Scan.Numeral
import Mathlib.Data.List.Chain

namespace PepAsm.Formula.Token

open PepAsm.Scan PepAsm.Text

inductive Spells : Token → List Char → Prop
  | plus : Spells .plus ['+']
  | times : Spells .times ['*']
  | parenOpen : Spells .parenOpen ['(']
  | parenClose : Spells .parenClose [')']
  | decimal (n : Int) : Spells (.decimal n) (Text.decimal n).toList

/-- Printed tokens, with any number of gaps before each and at the end. Nothing is asked for that
would keep two of them apart. -/
inductive Written : List Token → List Char → Prop
  | gap {gap : List Char} (hgap : ∀ c ∈ gap, isGap c = true) : Written [] gap
  | token {gap spelled rest : List Char} {token : Token} {tokens : List Token}
      (hgap : ∀ c ∈ gap, isGap c = true) (hs : Spells token spelled) (h : Written tokens rest) :
      Written (token :: tokens) (gap ++ spelled ++ rest)

/-- Two tokens that stay apart without a gap. Digits would run together with digits. -/
def Apart (first second : Token) : Prop :=
  first.decimal? = none ∨ second.decimal? = none

theorem isChain_around {first second : List Token} {token : Token} (ht : token.decimal? = none)
    (hf : first.IsChain Apart) (hs : second.IsChain Apart) :
    (first ++ token :: second).IsChain Apart := by
  apply List.isChain_append.2
  refine ⟨hf, List.isChain_cons.2 ⟨fun _ _ ↦ .inl ht, hs⟩, ?_⟩
  intro last _ next hnext
  cases hnext
  exact .inr ht

section Lexeme

variable {d : Char} {ds rest : List Char}

theorem lexeme_digits (hd : d.isDigit = true) (hds : ∀ d ∈ ds, d.isDigit = true)
    (hrest : ∀ c ∈ rest.head?, c.isDigit = false) :
    lexeme d (ds ++ rest) = (.decimal (decimalFrom 0 (d :: ds)), rest) := by
  obtain ⟨-, -, -, hvalue⟩ := class_of_isDigit hd
  have hmark : d ∉ ['\n', '(', ')', '+', '*', '-'] := not_mem_of_isDigit hd (by decide)
  simp only [List.mem_cons, List.not_mem_nil, or_false, not_or] at hmark
  obtain ⟨hbreak, hopen, hclose, hplus, htimes, hminus⟩ := hmark
  simp only [lexeme, hbreak, hopen, hclose, hplus, htimes, hminus, hvalue, if_false]
  rw [number_run 1 _ hds hrest, decimalFrom_cons, Int.one_mul]

theorem lexeme_negative (hds : ∀ c ∈ d :: ds, c.isDigit = true)
    (hrest : ∀ c ∈ rest.head?, c.isDigit = false) :
    lexeme '-' (d :: ds ++ rest) = (.decimal (-decimalFrom 0 (d :: ds)), rest) := by
  change signedNumber Token.decimal .invalid (-1) (d :: ds ++ rest) = _
  rw [signedNumber_digits (-1) (List.cons_ne_nil d ds) hds hrest, Int.neg_one_mul]

end Lexeme

section Written

variable {token : Token} {tokens : List Token} {spelled text : List Char}

theorem lexeme_of_spells (hs : Spells token spelled) :
    ∃ first word, spelled = first :: word ∧ isGap first = false ∧
      (token.decimal? = none → first.isDigit = false) ∧
      ∀ c rest, (token.decimal? ≠ none → c.isDigit = false) →
        lexeme first (word ++ c :: rest) = (token, c :: rest) := by
  cases hs with
  | plus => exact ⟨'+', [], rfl, rfl, fun _ ↦ rfl, fun _ _ _ ↦ rfl⟩
  | times => exact ⟨'*', [], rfl, rfl, fun _ ↦ rfl, fun _ _ _ ↦ rfl⟩
  | parenOpen => exact ⟨'(', [], rfl, rfl, fun _ ↦ rfl, fun _ _ _ ↦ rfl⟩
  | parenClose => exact ⟨')', [], rfl, rfl, fun _ ↦ rfl, fun _ _ _ ↦ rfl⟩
  | decimal n =>
    obtain ⟨d, ds, hds, ⟨htext, hn⟩ | ⟨htext, hn⟩⟩ := decimal_cases n
    · obtain ⟨hd, hds⟩ := List.forall_mem_cons.1 hds
      refine ⟨d, ds, htext, (class_of_isDigit hd).1, nofun, fun c rest hc ↦ ?_⟩
      rw [lexeme_digits hd hds (by simpa using hc nofun), ← hn]
    · refine ⟨'-', d :: ds, htext, rfl, nofun, fun c rest hc ↦ ?_⟩
      rw [lexeme_negative hds (by simpa using hc nofun), ← hn]

theorem Written.exists_first (h : Written tokens text) :
    ∃ c rest, text ++ ['\n'] = c :: rest ∧
      ((∀ token ∈ tokens.head?, token.decimal? = none) → c.isDigit = false) := by
  have hgaps {c : Char} (hc : isGap c = true) : c.isDigit = false := by
    by_contra hd
    rw [Bool.not_eq_false] at hd
    simp [(class_of_isDigit hd).1] at hc
  cases h with
  | gap hgap =>
    cases text with
    | nil => exact ⟨'\n', [], rfl, fun _ ↦ rfl⟩
    | cons c rest => exact ⟨c, _, rfl, fun _ ↦ hgaps (hgap c List.mem_cons_self)⟩
  | @token gap spelled rest token tokens hgap hs h =>
    obtain ⟨first, word, rfl, -, hfirst, -⟩ := lexeme_of_spells hs
    cases gap with
    | nil => exact ⟨first, _, rfl, fun hnone ↦ hfirst (hnone token rfl)⟩
    | cons c gap => exact ⟨c, _, rfl, fun _ ↦ hgaps (hgap c List.mem_cons_self)⟩

theorem next?_gap {gap : List Char} (hgap : ∀ c ∈ gap, isGap c = true) {c : Char}
    (hc : isGap c = false) (rest : List Char) :
    scanner.next? (gap ++ c :: rest) = some (lexeme c rest) :=
  Scanner.nextLexeme?_gap Token.empty lexeme hgap hc rest

/-- Printed tokens are read back if neighbours stay apart. -/
theorem Written.tokens_eq (h : Written tokens text) (hapart : tokens.IsChain Apart) :
    scanner.tokens (text ++ ['\n']) = tokens ++ [.empty] := by
  induction h with
  | @gap gap hgap =>
    rw [scanner.tokens_of_some (next?_gap hgap rfl [])]
    exact congrArg _ (scanner.tokens_of_none rfl)
  | @token gap spelled rest token tokens hgap hs h ih =>
    obtain ⟨hnext, hrest⟩ := List.isChain_cons.1 hapart
    obtain ⟨first, word, rfl, hfirst, -, hread⟩ := lexeme_of_spells hs
    obtain ⟨c, more, hmore, hc⟩ := h.exists_first
    have hstop : token.decimal? ≠ none → c.isDigit = false := by
      intro htoken
      apply hc
      intro second hsecond
      exact (hnext second hsecond).resolve_left htoken
    have htext : gap ++ first :: word ++ rest ++ ['\n'] = gap ++ first :: (word ++ c :: more) := by
      rw [← hmore]
      simp
    have htoken : scanner.next? (gap ++ first :: (word ++ c :: more)) = some (token, c :: more) := by
      rw [next?_gap hgap hfirst, hread c more hstop]
    rw [htext, scanner.tokens_of_some htoken, ← hmore, ih hrest]
    rfl

theorem exists_written (h : ∀ token ∈ tokens, ∃ spelled, Spells token spelled) :
    ∃ text, Written tokens text := by
  induction tokens with
  | nil => exact ⟨[], .gap nofun⟩
  | cons token tokens ih =>
    obtain ⟨⟨spelled, hs⟩, hrest⟩ := List.forall_mem_cons.1 h
    obtain ⟨rest, hr⟩ := ih hrest
    exact ⟨[] ++ spelled ++ rest, .token nofun hs hr⟩

end Written

end PepAsm.Formula.Token
