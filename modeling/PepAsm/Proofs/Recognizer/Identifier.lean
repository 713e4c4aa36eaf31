import PepAsm.Recognizer.Identifier
import PepAsm.Text.Digit

namespace PepAsm.Recognizer.Identifier

open PepAsm.Text

/-- An identifier is a letter, and after it letters and digits. -/
def isIdentifier : List Char → Bool
  | [] => false
  | c :: rest => isLetter c && rest.all fun d ↦ isLetter d || isDigit d

theorem isIdentifier_eq_false {c : Char} {rest : List Char} (hc : isLetter c = true) :
    isIdentifier (c :: rest) = false ↔ ∃ d ∈ rest, isLetter d = false ∧ isDigit d = false := by
  simp [isIdentifier, hc]

theorem foldl_next_of_absorbing {q : State} (h : ∀ column, next q column = q) (text : List Char) :
    text.foldl (fun q c ↦ next q (.of c)) q = q := by
  induction text with
  | nil => rfl
  | cons c text ih =>
    rw [List.foldl_cons, h]
    exact ih

theorem run_cons (c : Char) (rest : List Char) :
    run (c :: rest) = if isLetter c then .identifier else .trap := by
  rw [run, List.foldl_cons, Column.of]
  by_cases hc : isLetter c
  · rw [if_pos hc, if_pos hc]
    apply foldl_next_of_absorbing
    intro column
    rfl
  · rw [if_neg hc, if_neg hc]
    apply foldl_next_of_absorbing
    intro column
    rfl

theorem accepts_iff_letter (text : String) :
    accepts text = true ↔ ∃ c rest, text.toList = c :: rest ∧ isLetter c = true := by
  rw [accepts]
  cases htext : text.toList with
  | nil => simp [run, State.isFinal]
  | cons c rest =>
    rw [run_cons]
    by_cases hc : isLetter c
    · simp [hc, State.isFinal]
    · simp [hc, State.isFinal]

/-- Only the first character of a text counts. Every identifier is accepted, and so is every other
text that begins with a letter: one that has a character after it which is neither a letter nor a
digit. -/
theorem accepts_by_first_letter (text : String) :
    (accepts text = true ↔ ∃ c rest, text.toList = c :: rest ∧ isLetter c = true) ∧
      (isIdentifier text.toList = true → accepts text = true) ∧
      (accepts text = true ∧ isIdentifier text.toList = false ↔
        ∃ c rest, text.toList = c :: rest ∧ isLetter c = true ∧
          ∃ d ∈ rest, isLetter d = false ∧ isDigit d = false) := by
  have haccepts := accepts_iff_letter text
  refine ⟨haccepts, ?_, ?_⟩
  · intro h
    rw [haccepts]
    cases htext : text.toList with
    | nil => simp [htext, isIdentifier] at h
    | cons c rest =>
      simp only [htext, isIdentifier, Bool.and_eq_true] at h
      exact ⟨c, rest, rfl, h.1⟩
  · rw [haccepts]
    constructor
    · intro h
      obtain ⟨⟨c, rest, htext, hc⟩, hnot⟩ := h
      rw [htext] at hnot
      exact ⟨c, rest, htext, hc, (isIdentifier_eq_false hc).1 hnot⟩
    · intro h
      obtain ⟨c, rest, htext, hc, hother⟩ := h
      refine ⟨⟨c, rest, htext, hc⟩, ?_⟩
      rw [htext]
      exact (isIdentifier_eq_false hc).2 hother

/-- A letter and an exclamation mark are accepted. -/
theorem accepts_punctuation :
    accepts "a!" = true ∧ isIdentifier "a!".toList = false := by
  decide

end PepAsm.Recognizer.Identifier
