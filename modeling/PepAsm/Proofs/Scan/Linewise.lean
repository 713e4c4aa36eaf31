import PepAsm.Formula.Token
import PepAsm.Proofs.Assembly.LineScan

namespace PepAsm

namespace Scan

variable {τ : Type}

/-- A rule reads its token before a line break or together with it, whatever comes after. -/
def StopsByBreak (rule : List Char → τ × List Char) (line : List Char) : Prop :=
  ∃ token left, left <:+ line ++ ['\n'] ∧ ∀ rest, rule (line ++ '\n' :: rest) = (token, left ++ rest)

structure Scanner.Linewise (S : Scanner τ) : Prop where
  suffix : ∀ {text token rest}, S.next? text = some (token, rest) → rest <:+ text
  stops : ∀ line, ∃ token left, left <:+ line ++ ['\n'] ∧
    ∀ rest, S.next? (line ++ '\n' :: rest) = some (token, left ++ rest)

section Rule

variable {rule : List Char → τ × List Char} {line : List Char}

theorem stopsByBreak_of_suffix {token : τ} {left : List Char} (hleft : left <:+ line)
    (hrule : ∀ rest, rule (line ++ '\n' :: rest) = (token, left ++ '\n' :: rest)) :
    StopsByBreak rule line := by
  refine ⟨token, left ++ ['\n'], ?_, ?_⟩
  · exact List.suffix_concat_iff.2 (.inr ⟨left, rfl, hleft⟩)
  · intro rest
    rw [hrule, List.append_assoc, List.singleton_append]

theorem stopsByBreak_here (token : τ) (line : List Char) :
    StopsByBreak (fun text ↦ (token, text)) line :=
  stopsByBreak_of_suffix List.suffix_rfl fun _ ↦ rfl

end Rule

namespace Scanner

variable {S : Scanner τ} {lineEnd : τ} {lexeme : Char → List Char → τ × List Char}
  {hl : ∀ c text, (lexeme c text).2.length ≤ text.length}

theorem suffix_nextLexeme? (hsuffix : ∀ c text, (lexeme c text).2 <:+ text)
    {text rest : List Char} {token : τ}
    (h : nextLexeme? lineEnd lexeme text = some (token, rest)) : rest <:+ text := by
  obtain ⟨gap, -, ⟨-, -, -, rfl⟩ | ⟨c, tail, rfl, -, hread⟩⟩ := nextLexeme?_cases h
  · exact List.nil_suffix
  · have hrest := hsuffix c tail
    rw [hread] at hrest
    exact hrest.trans ((List.suffix_cons c tail).trans (List.suffix_append gap _))

theorem linewise_ofLexeme (hsuffix : ∀ c text, (lexeme c text).2 <:+ text)
    (hbreak : ∀ text, lexeme '\n' text = (lineEnd, text))
    (hstops : ∀ c line, StopsByBreak (lexeme c) line) : (ofLexeme lineEnd lexeme hl).Linewise := by
  refine ⟨suffix_nextLexeme? hsuffix, ?_⟩
  intro line
  cases hd : line.dropWhile isGap with
  | nil =>
    refine ⟨lineEnd, [], List.nil_suffix, ?_⟩
    intro rest
    rw [← hbreak]
    exact nextLexeme?_blank lineEnd lexeme hd rest
  | cons c tail =>
    obtain ⟨token, left, hleft, hrest⟩ := hstops c tail
    refine ⟨token, left, ?_, ?_⟩
    · have hdrop : c :: tail <:+ line := hd ▸ List.dropWhile_suffix isGap
      obtain ⟨before, rfl⟩ := (List.suffix_cons c tail).trans hdrop
      rw [List.append_assoc]
      exact hleft.trans (List.suffix_append before _)
    · intro rest
      rw [← hrest]
      exact nextLexeme?_line lineEnd lexeme hd rest

theorem Linewise.tokens_append (h : S.Linewise) (line rest : List Char) :
    S.tokens (line ++ '\n' :: rest) = S.tokens (line ++ ['\n']) ++ S.tokens rest := by
  -- A token leaves less of the text up to the break: nothing, or a text that ends in the same break.
  induction hn : line.length using Nat.strong_induction_on generalizing line with
  | h n ih =>
    obtain ⟨token, left, hleft, hnext⟩ := h.stops line
    have hlone : S.next? (line ++ ['\n']) = some (token, left) := by simpa using hnext []
    rw [S.tokens_of_some (hnext rest), S.tokens_of_some hlone, List.cons_append]
    congr 1
    rcases List.suffix_concat_iff.1 hleft with rfl | ⟨line', rfl, -⟩
    · rw [S.tokens_nil, List.nil_append, List.nil_append]
    · have hlt := S.length_lt hlone
      simp only [List.length_append, List.length_singleton] at hlt
      simpa using ih line'.length (by omega) line' rfl

theorem Linewise.break_last (h : S.Linewise) {text rest : List Char} {token : τ}
    (hnext : S.next? text = some (token, rest)) :
    ∃ taken, text = taken ++ rest ∧ '\n' ∉ taken.dropLast := by
  by_cases hmem : '\n' ∈ text
  · obtain ⟨line, more, rfl, hline⟩ := List.eq_append_cons_of_mem hmem
    obtain ⟨token', left, ⟨taken, htaken⟩, hstops⟩ := h.stops line
    obtain ⟨rfl, rfl⟩ : token' = token ∧ left ++ more = rest := by
      simpa using (hstops more).symm.trans hnext
    refine ⟨taken, ?_, ?_⟩
    · rw [← List.append_assoc, htaken, List.append_assoc, List.singleton_append]
    · intro hbreak
      apply hline
      rcases List.prefix_concat_iff.1 ⟨left, htaken⟩ with rfl | hprefix
      · rwa [List.dropLast_concat] at hbreak
      · exact hprefix.mem ((List.dropLast_prefix taken).mem hbreak)
  · obtain ⟨taken, rfl⟩ := h.suffix hnext
    refine ⟨taken, rfl, ?_⟩
    intro hbreak
    apply hmem
    exact List.mem_append_left rest ((List.dropLast_prefix taken).mem hbreak)

end Scanner

end Scan

open Scan

namespace Assembly.Token

theorem StopsInside.stopsByBreak {rule : List Char → Token × List Char} {line : List Char}
    (h : StopsInside rule line) : StopsByBreak rule line := by
  obtain ⟨token, line', -, hsuffix, hrest⟩ := h
  exact stopsByBreak_of_suffix hsuffix hrest

theorem stopsByBreak_lexeme (c : Char) (line : List Char) : StopsByBreak (lexeme c) line := by
  by_cases hc : c = '\n'
  · subst hc
    exact stopsByBreak_here Token.empty line
  · by_cases hm : c :: line ∈ bareMarks
    · refine ⟨.invalid, [], List.nil_suffix, ?_⟩
      intro rest
      exact lexeme_bareMark hm rest
    · exact (stopsInside_lexeme hc hm).stopsByBreak

theorem linewise_scanner : scanner.Linewise :=
  Scanner.linewise_ofLexeme suffix_lexeme (fun _ ↦ rfl) stopsByBreak_lexeme

end Assembly.Token

namespace Formula.Token

theorem stopsByBreak_number (sign : Int) (value : Nat) (line : List Char) :
    StopsByBreak (number Token.decimal sign value) line :=
  stopsByBreak_of_suffix (suffix_number _ sign value line) (number_line sign value line)

theorem stopsByBreak_signedNumber (sign : Int) (line : List Char) :
    StopsByBreak (signedNumber Token.decimal .invalid sign) line := by
  cases line with
  | nil =>
    refine ⟨.invalid, [], List.nil_suffix, ?_⟩
    intro rest
    rfl
  | cons c line =>
    exact stopsByBreak_of_suffix (suffix_signedNumber _ _ sign (c :: line))
      (signedNumber_line sign (List.cons_ne_nil c line))

theorem stopsByBreak_lexeme (c : Char) (line : List Char) : StopsByBreak (lexeme c) line := by
  cases c using lexeme_cases with
  | mark c token htoken h => exact h ▸ stopsByBreak_here token line
  | minus h => exact h ▸ stopsByBreak_signedNumber (-1) line
  | decimal c d hd h => exact h ▸ stopsByBreak_number 1 d line

theorem linewise_scanner : scanner.Linewise :=
  Scanner.linewise_ofLexeme suffix_lexeme (fun _ ↦ rfl) stopsByBreak_lexeme

end Formula.Token

/-- The tokens of a text are those up to any of its line breaks and then those of the text after
the break. No token goes beyond a line break. -/
theorem tokens_split_at_break :
    (∀ a b : List Char, Assembly.Token.scanner.tokens (a ++ '\n' :: b) =
      Assembly.Token.scanner.tokens (a ++ ['\n']) ++ Assembly.Token.scanner.tokens b) ∧
    (∀ a b : List Char, Formula.Token.scanner.tokens (a ++ '\n' :: b) =
      Formula.Token.scanner.tokens (a ++ ['\n']) ++ Formula.Token.scanner.tokens b) ∧
    (∀ text token rest, Assembly.Token.scanner.next? text = some (token, rest) →
      ∃ taken, text = taken ++ rest ∧ '\n' ∉ taken.dropLast) ∧
    (∀ text token rest, Formula.Token.scanner.next? text = some (token, rest) →
      ∃ taken, text = taken ++ rest ∧ '\n' ∉ taken.dropLast) := by
  refine ⟨?_, ?_, ?_, ?_⟩
  · exact Assembly.Token.linewise_scanner.tokens_append
  · exact Formula.Token.linewise_scanner.tokens_append
  · intro text token rest h
    exact Assembly.Token.linewise_scanner.break_last h
  · intro text token rest h
    exact Formula.Token.linewise_scanner.break_last h

end PepAsm
