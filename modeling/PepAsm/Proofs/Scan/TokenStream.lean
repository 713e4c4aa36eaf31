import PepAsm.Scan.Lookahead

namespace PepAsm.Scan.Lookahead

variable {τ α : Type} {S : Scanner τ} {s : Lookahead τ}

theorem toList_fill : (s.fill S).toList S = s.toList S := by
  obtain ⟨pending, rest⟩ := s
  cases pending with
  | cons token others => rfl
  | nil =>
    unfold fill
    dsimp only
    cases h : S.next? rest with
    | none => rfl
    | some next =>
      obtain ⟨token, rest'⟩ := next
      exact (S.tokens_of_some h).symm

theorem toList_of_pending {token : τ} {others : List τ} (h : (s.fill S).pending = token :: others) :
    s.toList S = token :: (⟨others, (s.fill S).rest⟩ : Lookahead τ).toList S := by
  rw [← toList_fill, toList, h]
  rfl

theorem toList_eq_nil : s.toList S = [] ↔ (s.fill S).pending = [] := by
  constructor
  · intro h
    rw [← toList_fill] at h
    exact (List.append_eq_nil_iff.1 h).1
  · intro h
    obtain ⟨pending, rest⟩ := s
    cases pending with
    | cons token others => contradiction
    | nil =>
      unfold fill at h
      dsimp only at h
      cases hn : S.next? rest with
      | none => exact S.tokens_of_none hn
      | some next => simp [hn] at h

/-- What taking a token does to the tokens to come: it takes the first of them if it is selected,
and otherwise nothing. -/
theorem accept?_cases (select : τ → Option α) (s : Lookahead τ) :
    (∃ token a, select token = some a ∧ (s.accept? S select).1 = some a ∧
      s.toList S = token :: (s.accept? S select).2.toList S) ∨
    ((∀ token ∈ (s.toList S).head?, select token = none) ∧ (s.accept? S select).1 = none ∧
      (s.accept? S select).2.toList S = s.toList S) := by
  cases hp : (s.fill S).pending with
  | nil =>
    refine .inr ⟨fun token ht ↦ ?_, ?_, ?_⟩
    · rw [toList_eq_nil.2 hp] at ht
      contradiction
    · simp only [accept?, hp]
    · simp only [accept?, hp, toList_fill]
  | cons token others =>
    have hl := toList_of_pending hp
    cases hs : select token with
    | none =>
      refine .inr ⟨fun first ht ↦ ?_, ?_, ?_⟩
      · rw [hl] at ht
        cases ht
        exact hs
      · simp only [accept?, hp, hs]
      · simp only [accept?, hp, hs, toList_fill]
    | some a => exact .inl ⟨token, a, hs, by simp only [accept?, hp, hs], by
        simpa only [accept?, hp, hs] using hl⟩

theorem toList_skipPast (stop : τ → Bool) (s : Lookahead τ) :
    (s.skipPast S stop).toList S = ((s.toList S).dropWhile (!stop ·)).drop 1 := by
  fun_induction skipPast S stop s with
  | case1 s h =>
    rw [toList_fill, toList_eq_nil.2 h]
    rfl
  | case2 s token others h ht =>
    rw [toList_of_pending h, List.dropWhile_cons_of_neg (by simp [ht])]
    rfl
  | case3 s token others h ht ih =>
    rw [toList_of_pending h, List.dropWhile_cons_of_pos (by simp [ht])]
    exact ih

end PepAsm.Scan.Lookahead
