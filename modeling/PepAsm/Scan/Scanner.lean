namespace PepAsm.Scan

/-- A scanner takes the first token off a text and gives back the rest, which is shorter. At the
end of the text there is no token. -/
structure Scanner (τ : Type) where
  next? : List Char → Option (τ × List Char)
  length_lt : ∀ {text token rest}, next? text = some (token, rest) → rest.length < text.length

namespace Scanner

variable {τ : Type} (S : Scanner τ)

/-- Every token of a text, each with the text that is left after it. -/
def spans (text : List Char) : List (τ × List Char) :=
  match _h : S.next? text with
  | none => []
  | some (token, rest) => (token, rest) :: spans rest
termination_by text.length
decreasing_by exact S.length_lt _h

def tokens (text : List Char) : List τ :=
  (S.spans text).map Prod.fst

theorem spans_of_none {text : List Char} (h : S.next? text = none) : S.spans text = [] := by
  rw [spans]
  split
  · rfl
  · simp_all

theorem spans_of_some {text rest : List Char} {token : τ}
    (h : S.next? text = some (token, rest)) :
    S.spans text = (token, rest) :: S.spans rest := by
  rw [spans]
  split
  · simp_all
  · simp_all

theorem tokens_of_none {text : List Char} (h : S.next? text = none) : S.tokens text = [] := by
  rw [tokens, S.spans_of_none h, List.map_nil]

theorem tokens_nil : S.tokens [] = [] := by
  apply S.tokens_of_none
  cases h : S.next? [] with
  | none => rfl
  | some next =>
    have hlt := S.length_lt h
    contradiction

theorem tokens_of_some {text rest : List Char} {token : τ}
    (h : S.next? text = some (token, rest)) : S.tokens text = token :: S.tokens rest := by
  rw [tokens, S.spans_of_some h, List.map_cons, tokens]

end Scanner

def afterLine (text : List Char) : List Char :=
  (text.dropWhile (· != '\n')).drop 1

end PepAsm.Scan
