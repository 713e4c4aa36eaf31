import PepAsm.Proofs.Assembly.NumberTokens
import PepAsm.Proofs.Formula.Spelling
import PepAsm.Proofs.Recognizer.SignedDecimal

namespace PepAsm

open Scan Text

namespace Scan.Scanner

variable {τ : Type} {lineEnd token : τ} {lexeme : Char → List Char → τ × List Char}
  {hl : ∀ c text, (lexeme c text).2.length ≤ text.length}

/-- A text is a single token if the rule of its first character takes all of it. -/
theorem tokens_ofLexeme_eq_singleton {c : Char} {rest : List Char} (hc : isGap c = false) :
    (ofLexeme lineEnd lexeme hl).tokens (c :: rest) = [token] ↔ lexeme c rest = (token, []) := by
  obtain ⟨first, left, hread⟩ : ∃ first left, lexeme c rest = (first, left) := ⟨_, _, rfl⟩
  have hnext : (ofLexeme lineEnd lexeme hl).next? (c :: rest) = some (first, left) := by
    rw [← hread]
    exact nextLexeme?_gap lineEnd lexeme (List.forall_mem_nil _) hc rest
  rw [tokens_of_some _ hnext, hread, List.cons.injEq, tokens_ofLexeme_eq_nil, Prod.mk.injEq]

end Scan.Scanner

section Notation

variable {text digits : List Char} {sign v : Int}

/-- In ASCII a number is written with the digits that both scanners go by. -/
theorem signedNotation?_iff_of_ascii (hsplit : splitSign text = (sign, digits))
    (hascii : ∀ c ∈ digits, isAscii c = true) :
    signedNotation? decimalValue? text = some v ↔
      digits ≠ [] ∧ (∀ c ∈ digits, c.isDigit = true) ∧ v = sign * decimalFrom 0 digits := by
  have hdecimal : (∀ c ∈ digits, (decimalValue? c).isSome = true) ↔
      ∀ c ∈ digits, c.isDigit = true := by
    apply forall₂_congr
    intro c hc
    exact Eq.congr_left (isDecimal_eq_isDigit (hascii c hc))
  have hvalue (hdigits : ∀ c ∈ digits, c.isDigit = true) :
      numeral 10 (fun c ↦ (decimalValue? c).getD 0) digits = decimalFrom 0 digits := by
    rw [Assembly.Token.decimalFrom_eq_numeral]
    apply numeral_congr
    intro c hc
    rw [(class_of_isDigit (hdigits c hc)).2.2.2, Option.getD_some]
  rw [signedNotation?_eq_some, hsplit]
  constructor
  · intro h
    obtain ⟨n, hn, hv⟩ := h
    obtain ⟨hne, hsome, hnumeral⟩ := positional?_eq_some.1 hn
    have hdigits := hdecimal.1 hsome
    rw [hvalue hdigits] at hnumeral
    exact ⟨hne, hdigits, by rw [hnumeral, hv]⟩
  · intro h
    obtain ⟨hne, hdigits, hv⟩ := h
    exact ⟨_, positional?_eq_some.2 ⟨hne, hdecimal.2 hdigits, hvalue hdigits⟩, hv.symm⟩

end Notation

section Lexeme

variable {c : Char} {rest : List Char} {sign v : Int}

theorem Assembly.Token.lexeme_eq_decimal (hascii : ∀ d ∈ c :: rest, isAscii d = true) :
    lexeme c rest = (.decimal v, []) ↔ signedNotation? decimalValue? (c :: rest) = some v := by
  constructor
  · intro h
    obtain ⟨word, hword, hdenotes⟩ := readOff_lexeme c rest
    rw [h, List.append_nil] at hword
    rw [h, ← hword] at hdenotes
    exact (signedNotation?_decimalValue?_iff hdenotes).2 hascii
  · intro h
    have hend : ∀ d ∈ ([] : List Char).head?, isSeparator d := by simp
    have hsigned {sign : Int} (hsplit : splitSign (c :: rest) = (sign, rest)) :
        signedNumber Token.decimal .invalid sign rest = (.decimal v, []) := by
      have hrest : ∀ d ∈ rest, isAscii d = true := (List.forall_mem_cons.1 hascii).2
      obtain ⟨hne, hdigits, hv⟩ := (signedNotation?_iff_of_ascii hsplit hrest).1 h
      rw [← List.append_nil rest, hv,
        signedNumber_digits sign hne hdigits (isDigit_of_isSeparator hend)]
    by_cases hplus : c = '+'
    · subst hplus
      exact hsigned rfl
    by_cases hminus : c = '-'
    · subst hminus
      exact hsigned rfl
    · have hsplit := splitSign_of_ne hplus hminus rest
      obtain ⟨-, hdigits, hv⟩ := (signedNotation?_iff_of_ascii hsplit hascii).1 h
      obtain ⟨hc, hds⟩ := List.forall_mem_cons.1 hdigits
      rw [hv, Int.one_mul, ← lexeme_digits hc hds hend, List.append_nil]

theorem Formula.Token.number_eq_decimal {value : Nat} :
    number .decimal sign value rest = (Token.decimal v, []) ↔
      (∀ d ∈ rest, d.isDigit = true) ∧ v = sign * decimalFrom value rest := by
  constructor
  · intro h
    obtain ⟨hv, hdrop⟩ := Prod.mk.inj h
    have hdigits := List.dropWhile_eq_nil_iff.1 hdrop
    rw [List.takeWhile_eq_self_iff.2 hdigits] at hv
    exact ⟨hdigits, (Token.decimal.inj hv).symm⟩
  · intro h
    obtain ⟨hdigits, hv⟩ := h
    have hend : ∀ d ∈ ([] : List Char).head?, d.isDigit = false := by simp
    rw [hv, ← number_run sign value hdigits hend, List.append_nil]

theorem Formula.Token.signedNumber_eq_decimal :
    signedNumber .decimal .invalid sign rest = (Token.decimal v, []) ↔
      rest ≠ [] ∧ (∀ d ∈ rest, d.isDigit = true) ∧ v = sign * decimalFrom 0 rest := by
  cases rest with
  | nil => simp [signedNumber]
  | cons d ds =>
    by_cases hd : d.isDigit
    · rw [signedNumber, if_pos hd, number_eq_decimal]
      simp
    · simp [signedNumber, hd]

theorem Formula.Token.lexeme_eq_decimal (hplus : c ≠ '+')
    (hascii : ∀ d ∈ c :: rest, isAscii d = true) :
    lexeme c rest = (.decimal v, []) ↔ signedNotation? decimalValue? (c :: rest) = some v := by
  obtain ⟨hc, hrest⟩ := List.forall_mem_cons.1 hascii
  by_cases hminus : c = '-'
  · subst hminus
    have hsplit : splitSign ('-' :: rest) = (-1, rest) := rfl
    rw [signedNotation?_iff_of_ascii hsplit hrest, ← signedNumber_eq_decimal]
    rfl
  · rw [signedNotation?_iff_of_ascii (splitSign_of_ne hplus hminus rest) hascii]
    constructor
    · intro h
      cases c using lexeme_cases with
      | mark c token htoken hread =>
        rw [hread] at h
        exact absurd (congrArg Prod.fst h) (htoken v)
      | minus hread => contradiction
      | decimal c d hd hread =>
        rw [hread, number_eq_decimal] at h
        have hdigit : c.isDigit = true := by
          rw [← isDecimal_eq_isDigit hc, isDecimal, hd, Option.isSome_some]
        rw [(class_of_isDigit hdigit).2.2.2, Option.some.injEq] at hd
        rw [← hd, ← decimalFrom_cons] at h
        exact ⟨List.cons_ne_nil c rest, List.forall_mem_cons.2 ⟨hdigit, h.1⟩, h.2⟩
    · intro h
      obtain ⟨_, hdigits, hv⟩ := h
      have hend : ∀ d ∈ ([] : List Char).head?, d.isDigit = false := by simp
      obtain ⟨hdigit, hds⟩ := List.forall_mem_cons.1 hdigits
      rw [hv, Int.one_mul, ← lexeme_digits hdigit hds hend, List.append_nil]

end Lexeme

section Agreement

open Recognizer.SignedDecimal

/-- The recognizer of signed decimals and the two scanners read the same numbers off texts in ASCII
without blanks. In arithmetic text a plus sign is an operator. -/
theorem recognizers_agree (text : String) (v : Int)
    (hascii : ∀ c ∈ text.toList, isAscii c = true)
    (hblank : ∀ c ∈ text.toList, isBlank c = false) :
    (recognize text = .accepted v ↔
        Assembly.Token.scanner.tokens text.toList = [.decimal v]) ∧
      (text.toList.head? ≠ some '+' →
        (recognize text = .accepted v ↔
          Formula.Token.scanner.tokens text.toList = [.decimal v])) := by
  have hline : firstLine text.toList = text.toList := by
    apply List.takeWhile_eq_self_iff.2
    intro c hc
    rw [bne_iff_ne]
    intro hbreak
    subst hbreak
    exact absurd (hblank _ hc) (by decide)
  rw [recognize_eq_accepted, hline]
  cases htext : text.toList with
  | nil =>
    have hnot : signedNotation? decimalValue? [] ≠ some v := by
      intro h
      rw [signedNotation?_iff_of_ascii rfl (List.forall_mem_nil _)] at h
      exact h.1 rfl
    simp [hnot, Scanner.tokens_nil]
  | cons c rest =>
    rw [htext] at hascii hblank
    have hgap : isGap c = false := by simp [isGap, hblank c List.mem_cons_self]
    refine ⟨?_, ?_⟩
    · rw [← Assembly.Token.lexeme_eq_decimal hascii]
      exact (Scanner.tokens_ofLexeme_eq_singleton hgap).symm
    · intro hhead
      have hplus : c ≠ '+' := by simpa using hhead
      rw [← Formula.Token.lexeme_eq_decimal hplus hascii]
      exact (Scanner.tokens_ofLexeme_eq_singleton hgap).symm

theorem recognizers_agree_leading_zeros :
    recognize "-0042" = .accepted (-42) ∧
      Assembly.Token.scanner.tokens "-0042".toList = [.decimal (-42)] ∧
      Formula.Token.scanner.tokens "-0042".toList = [.decimal (-42)] := by
  have hnumber : recognize "-0042" = .accepted (-42) := by decide
  have hascii : "-0042".toList.all isAscii = true := by decide
  have hblank : "-0042".toList.all (!isBlank ·) = true := by decide
  obtain ⟨hassembly, hformula⟩ := recognizers_agree "-0042" (-42) (List.all_eq_true.1 hascii)
    (by simpa only [List.all_eq_true, Bool.not_eq_true'] using hblank)
  exact ⟨hnumber, hassembly.1 hnumber, (hformula (by decide)).1 hnumber⟩

end Agreement

end PepAsm
