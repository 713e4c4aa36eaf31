import PepAsm.Assembly.Token
import Mathlib.Data.List.TakeWhile

namespace PepAsm

open PepAsm.Scan PepAsm.Text

namespace Scan

section Line

variable {p : Char → Bool} {line : List Char}

theorem takeWhile_line (hp : p '\n' = false) (rest : List Char) :
    (line ++ '\n' :: rest).takeWhile p = line.takeWhile p := by
  induction line with
  | nil => exact List.takeWhile_cons_of_neg (by simp [hp])
  | cons c line ih =>
    rw [List.cons_append, List.takeWhile_cons, List.takeWhile_cons, ih]

theorem dropWhile_line (hp : p '\n' = false) (rest : List Char) :
    (line ++ '\n' :: rest).dropWhile p = line.dropWhile p ++ '\n' :: rest := by
  induction line with
  | nil => exact List.dropWhile_cons_of_neg (by simp [hp])
  | cons c line ih =>
    rw [List.cons_append, List.dropWhile_cons, List.dropWhile_cons, ih]
    split
    · rfl
    · rfl

theorem dropWhile_isGap_line (line rest : List Char) :
    (line ++ '\n' :: rest).dropWhile isGap = line.dropWhile isGap ++ '\n' :: rest :=
  dropWhile_line (by decide) rest

section Number

variable {τ : Type} {decimal : Int → τ} {invalid : τ}

theorem number_line (sign : Int) (value : Nat) (line rest : List Char) :
    number decimal sign value (line ++ '\n' :: rest) =
      ((number decimal sign value line).1, (number decimal sign value line).2 ++ '\n' :: rest) := by
  rw [number, takeWhile_line (by decide), dropWhile_line (by decide), number]

theorem signedNumber_line (sign : Int) (hl : line ≠ []) (rest : List Char) :
    signedNumber decimal invalid sign (line ++ '\n' :: rest) =
      ((signedNumber decimal invalid sign line).1,
        (signedNumber decimal invalid sign line).2 ++ '\n' :: rest) := by
  cases line with
  | nil => contradiction
  | cons c line =>
    by_cases hc : c.isDigit
    · rw [List.cons_append, signedNumber, signedNumber, if_pos hc, if_pos hc, ← List.cons_append,
        number_line]
    · rw [List.cons_append, signedNumber, signedNumber, if_neg hc, if_neg hc]

end Number

namespace Scanner

variable {τ : Type} (lineEnd : τ) (lexeme : Char → List Char → τ × List Char)

theorem nextLexeme?_blank (hd : line.dropWhile isGap = []) (rest : List Char) :
    nextLexeme? lineEnd lexeme (line ++ '\n' :: rest) = some (lexeme '\n' rest) := by
  rw [nextLexeme?, if_neg (by simp), dropWhile_isGap_line, hd]
  rfl

theorem nextLexeme?_line {c : Char} {word : List Char} (hd : line.dropWhile isGap = c :: word)
    (rest : List Char) :
    nextLexeme? lineEnd lexeme (line ++ '\n' :: rest) = some (lexeme c (word ++ '\n' :: rest)) := by
  rw [nextLexeme?, if_neg (by simp), dropWhile_isGap_line, hd]
  rfl

end Scanner

end Line

def Scanner.positions {τ : Type} (S : Scanner τ) (text : List Char) : List (List Char) :=
  text :: (S.spans text).map Prod.snd

theorem Scanner.positions_of_some {τ : Type} (S : Scanner τ) {text rest : List Char} {token : τ}
    (h : S.next? text = some (token, rest)) : S.positions text = text :: S.positions rest := by
  rw [positions, S.spans_of_some h, List.map_cons, positions]

end Scan

namespace Assembly.Token

/-- The beginnings of a number that are no number: a sign and the mark of a hexadecimal number. -/
def bareMarks : List (List Char) :=
  [['+'], ['-'], ['0', 'x'], ['0', 'X']]

def StopsInside (rule : List Char → Token × List Char) (line : List Char) : Prop :=
  ∃ token line', token ≠ .empty ∧ line' <:+ line ∧
    ∀ rest, rule (line ++ '\n' :: rest) = (token, line' ++ '\n' :: rest)

variable {c : Char} {line : List Char}

theorem StopsInside.cons {rule : List Char → Token × List Char}
    {rule' : List Char → Token × List Char} (h : StopsInside rule' line)
    (hr : ∀ text, rule (c :: text) = rule' text) : StopsInside rule (c :: line) := by
  obtain ⟨token, line', hne, hs, hrest⟩ := h
  exact ⟨token, line', hne, hs.trans (List.suffix_cons c line),
    fun rest ↦ (hr _).trans (hrest rest)⟩

theorem stopsInside_number (sign : Int) (value : Nat) (line : List Char) :
    StopsInside (number .decimal sign value) line := by
  refine ⟨_, _, ?_, suffix_number _ sign value line, number_line sign value line⟩
  exact Token.noConfusion

theorem stopsInside_hexNumber (hl : line ≠ []) : StopsInside hexNumber line := by
  cases line with
  | nil => contradiction
  | cons c line =>
    by_cases hc : isHexDigit c
    · refine ⟨.hexadecimal (hexadecimalOf (c :: line.takeWhile isHexDigit)),
        line.dropWhile isHexDigit, nofun,
        (List.dropWhile_suffix _).trans (List.suffix_cons c line), fun rest ↦ ?_⟩
      rw [List.cons_append, hexNumber, if_pos hc, takeWhile_line (by decide),
        dropWhile_line (by decide)]
    · refine ⟨.invalid, line, nofun, List.suffix_cons c line, fun rest ↦ ?_⟩
      rw [List.cons_append, hexNumber, if_neg hc]

theorem stopsInside_zeroNumber (hl : line ≠ ['x']) (hl' : line ≠ ['X']) :
    StopsInside zeroNumber line := by
  cases line with
  | nil => exact ⟨.decimal 0, [], nofun, List.suffix_rfl, fun rest ↦ rfl⟩
  | cons c line =>
    by_cases hd : Text.isDigit c
    · exact (stopsInside_number 1 (digitValue c) line).cons fun text ↦ if_pos hd
    · by_cases hx : c = 'x' ∨ c = 'X'
      · have hne : line ≠ [] := by
          rintro rfl
          rcases hx with rfl | rfl
          · exact hl rfl
          · exact hl' rfl
        refine (stopsInside_hexNumber hne).cons fun text ↦ ?_
        rw [zeroNumber, if_neg hd, if_pos hx]
      · refine ⟨.decimal 0, c :: line, nofun, List.suffix_rfl, fun rest ↦ ?_⟩
        rw [List.cons_append, zeroNumber, if_neg hd, if_neg hx]

theorem stopsInside_signedNumber (sign : Int) (hl : line ≠ []) :
    StopsInside (signedNumber .decimal .invalid sign) line := by
  refine ⟨_, _, ?_, suffix_signedNumber _ _ sign line, signedNumber_line sign hl⟩
  unfold signedNumber
  split
  · exact Token.noConfusion
  · split
    · exact Token.noConfusion
    · exact Token.noConfusion

theorem stopsInside_word (c : Char) (line : List Char) : StopsInside (word c) line := by
  have hw : isWordChar '\n' = false := by decide
  have hs : line.dropWhile isWordChar <:+ line := List.dropWhile_suffix _
  cases h : line.dropWhile isWordChar with
  | nil =>
    refine ⟨.identifier (String.ofList (c :: line.takeWhile isWordChar)), [], nofun,
      List.nil_suffix, fun rest ↦ ?_⟩
    simp only [word, takeWhile_line hw, dropWhile_line hw, h, List.nil_append]
    rfl
  | cons next line' =>
    rw [h] at hs
    by_cases hn : next = ':'
    · subst hn
      refine ⟨.symbol (String.ofList (c :: line.takeWhile isWordChar)), line', nofun,
        (List.suffix_cons _ line').trans hs, fun rest ↦ ?_⟩
      simp only [word, takeWhile_line hw, dropWhile_line hw, h, List.cons_append]
    · refine ⟨.identifier (String.ofList (c :: line.takeWhile isWordChar)), next :: line', nofun,
        hs, fun rest ↦ ?_⟩
      simp only [word, takeWhile_line hw, dropWhile_line hw, h, List.cons_append]
      split
      · rename_i heq
        exact absurd (List.cons.inj heq).1 hn
      · rfl

theorem stopsInside_remark (line : List Char) : StopsInside remark line := by
  refine ⟨.comment (String.ofList (line.takeWhile (· != '\n'))), line.dropWhile (· != '\n'),
    nofun, List.dropWhile_suffix _, fun rest ↦ ?_⟩
  rw [remark, takeWhile_line (by decide), dropWhile_line (by decide)]

/-- A token ends inside its line, unless it is a bare mark at the line's end. -/
theorem stopsInside_lexeme (hc : c ≠ '\n') (hm : c :: line ∉ bareMarks) :
    StopsInside (lexeme c) line := by
  have here (token : Token) (hne : token ≠ .empty) : StopsInside (fun text ↦ (token, text)) line :=
    ⟨token, line, hne, List.suffix_rfl, fun rest ↦ rfl⟩
  have hmark : ∀ mark ∈ bareMarks, c :: line ≠ mark := fun mark h he ↦ hm (he ▸ h)
  cases c using lexeme_cases with
  | lineEnd h => contradiction
  | comma h => exact h ▸ here .comma nofun
  | comment h => exact h ▸ stopsInside_remark line
  | name c hname h => exact h ▸ stopsInside_word c line
  | zero h =>
    rw [h]
    exact stopsInside_zeroNumber (fun h ↦ hmark ['0', 'x'] (by decide) (by rw [h]))
      (fun h ↦ hmark ['0', 'X'] (by decide) (by rw [h]))
  | decimal c hdecimal h => exact h ▸ stopsInside_number 1 (digitValue c) line
  | plus h =>
    rw [h]
    exact stopsInside_signedNumber 1 fun h ↦ hmark ['+'] (by decide) (by rw [h])
  | minus h =>
    rw [h]
    exact stopsInside_signedNumber (-1) fun h ↦ hmark ['-'] (by decide) (by rw [h])
  | other c h => exact h ▸ here .invalid nofun

theorem lexeme_bareMark (hm : c :: line ∈ bareMarks) (rest : List Char) :
    lexeme c (line ++ '\n' :: rest) = (.invalid, rest) := by
  simp only [bareMarks, List.mem_cons, List.cons.injEq, List.not_mem_nil, or_false] at hm
  rcases hm with ⟨rfl, rfl⟩ | ⟨rfl, rfl⟩ | ⟨rfl, rfl⟩ | ⟨rfl, rfl⟩
  · rfl
  · rfl
  · rfl
  · rfl

end Assembly.Token

namespace Assembly

/-- A line whose last token is a bare mark. The mark takes the line break for its first digit. -/
def OpenEnded (line : List Char) : Prop :=
  ∃ rest ∈ Token.scanner.positions (line ++ ['\n']), ∃ mark ∈ Token.bareMarks,
    rest.dropWhile isGap = mark ++ ['\n']

instance (line : List Char) : Decidable (OpenEnded line) :=
  inferInstanceAs (Decidable (∃ rest ∈ Token.scanner.positions (line ++ ['\n']),
    ∃ mark ∈ Token.bareMarks, rest.dropWhile isGap = mark ++ ['\n']))

variable {line : List Char}

theorem next?_blank (hd : line.dropWhile isGap = []) (rest : List Char) :
    Token.scanner.next? (line ++ '\n' :: rest) = some (.empty, rest) :=
  Scanner.nextLexeme?_blank Token.empty Token.lexeme hd rest

theorem next?_lexeme {c : Char} {word : List Char} (hd : line.dropWhile isGap = c :: word)
    (rest : List Char) :
    Token.scanner.next? (line ++ '\n' :: rest) = some (Token.lexeme c (word ++ '\n' :: rest)) :=
  Scanner.nextLexeme?_line Token.empty Token.lexeme hd rest

theorem positions_nil : Token.scanner.positions [] = [[]] := by
  rw [Scanner.positions, Token.scanner.spans_of_none rfl, List.map_nil]

theorem openEnded_iff_of_next? {token : Token} {rest : List Char}
    (h : Token.scanner.next? (line ++ ['\n']) = some (token, rest)) :
    OpenEnded line ↔ line.dropWhile isGap ∈ Token.bareMarks ∨
      ∃ p ∈ Token.scanner.positions rest, ∃ mark ∈ Token.bareMarks,
        p.dropWhile isGap = mark ++ ['\n'] := by
  unfold OpenEnded
  rw [Token.scanner.positions_of_some h]
  simp only [List.mem_cons, exists_eq_or_imp, dropWhile_isGap_line]
  refine or_congr_left ?_
  constructor
  · rintro ⟨mark, hm, he⟩
    exact List.append_cancel_right he ▸ hm
  · exact fun hm ↦ ⟨_, hm, rfl⟩

/-- The tokens of a line are the same whatever comes after the line. They end in the line's end,
unless the line is open-ended and has an invalid token in its place. -/
theorem tokens_line (line : List Char) (hl : '\n' ∉ line) :
    ∃ body, Token.empty ∉ body ∧ (OpenEnded line → Token.invalid ∈ body) ∧
      ∀ rest, Token.scanner.tokens (line ++ '\n' :: rest) =
        body ++ (if OpenEnded line then [] else [.empty]) ++ Token.scanner.tokens rest := by
  induction hn : line.length using Nat.strong_induction_on generalizing line with
  | h n ih =>
    cases hd : line.dropWhile isGap with
    | nil =>
      have hnot : ¬ OpenEnded line := by
        rw [openEnded_iff_of_next? (next?_blank hd []), hd, positions_nil]
        decide
      refine ⟨[], List.not_mem_nil, fun h ↦ absurd h hnot, fun rest ↦ ?_⟩
      rw [Token.scanner.tokens_of_some (next?_blank hd rest), if_neg hnot]
      rfl
    | cons c word =>
      have hsuffix : c :: word <:+ line := hd ▸ List.dropWhile_suffix _
      have hc : c ≠ '\n' := fun h ↦ hl (hsuffix.mem (h ▸ List.mem_cons_self))
      by_cases hm : c :: word ∈ Token.bareMarks
      · have hopen : OpenEnded line := by
          rw [openEnded_iff_of_next? ((next?_lexeme hd []).trans
            (congrArg some (Token.lexeme_bareMark hm []))), hd]
          exact .inl hm
        refine ⟨[.invalid], by simp, by simp, fun rest ↦ ?_⟩
        rw [Token.scanner.tokens_of_some ((next?_lexeme hd rest).trans
          (congrArg some (Token.lexeme_bareMark hm rest))), if_pos hopen]
        rfl
      · obtain ⟨token, line', hne, hs, hrest⟩ := Token.stopsInside_lexeme hc hm
        have hnext (rest : List Char) : Token.scanner.next? (line ++ '\n' :: rest) =
            some (token, line' ++ '\n' :: rest) := by rw [next?_lexeme hd, hrest]
        have hopen : OpenEnded line ↔ OpenEnded line' := by
          rw [openEnded_iff_of_next? (hnext []), hd, or_iff_right hm]
          rfl
        have hlt : line'.length < n := by
          have h₁ := hs.length_le
          have h₂ := hsuffix.length_le
          simp only [List.length_cons] at h₂
          omega
        have hl' : '\n' ∉ line' := fun h ↦ hl (hsuffix.mem (List.mem_cons_of_mem c (hs.mem h)))
        obtain ⟨body, hb, hinvalid, htokens⟩ := ih _ hlt line' hl' rfl
        refine ⟨token :: body, ?_, fun h ↦ List.mem_cons_of_mem _ (hinvalid (hopen.1 h)),
          fun rest ↦ ?_⟩
        · rw [List.mem_cons, not_or]
          exact ⟨fun h ↦ hne h.symm, hb⟩
        · rw [Token.scanner.tokens_of_some (hnext rest), htokens]
          simp only [hopen, List.cons_append]

end Assembly

end PepAsm
