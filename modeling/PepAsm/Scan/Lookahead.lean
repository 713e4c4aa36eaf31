import PepAsm.Scan.Scanner

namespace PepAsm.Scan

/-- A stream of tokens with unlimited lookahead: those that were read ahead or put there, and the
text that the others come from. -/
structure Lookahead (τ : Type) where
  pending : List τ
  rest : List Char
deriving Repr, DecidableEq

namespace Lookahead

variable {τ α : Type} (S : Scanner τ)

def ofText (text : List Char) : Lookahead τ :=
  ⟨[], text⟩

def toList (s : Lookahead τ) : List τ :=
  s.pending ++ S.tokens s.rest

def size (s : Lookahead τ) : Nat :=
  s.pending.length + s.rest.length

def fill (s : Lookahead τ) : Lookahead τ :=
  match s.pending with
  | _ :: _ => s
  | [] =>
    match S.next? s.rest with
    | none => s
    | some (token, rest) => ⟨[token], rest⟩

def peek (s : Lookahead τ) : Option τ × Lookahead τ :=
  ((s.fill S).pending.head?, s.fill S)

/-- Takes the next token off the stream if `select` has a result for it, and gives that result. -/
def accept? (select : τ → Option α) (s : Lookahead τ) : Option α × Lookahead τ :=
  match (s.fill S).pending with
  | [] => (none, s.fill S)
  | token :: others =>
    match select token with
    | none => (none, s.fill S)
    | some a => (some a, ⟨others, (s.fill S).rest⟩)

def push (token : τ) (s : Lookahead τ) : Lookahead τ :=
  { s with pending := s.pending ++ [token] }

theorem fill_of_pending {s : Lookahead τ} (h : s.pending ≠ []) : s.fill S = s := by
  unfold fill
  split
  · rfl
  · contradiction

theorem size_fill_le (s : Lookahead τ) : (s.fill S).size ≤ s.size := by
  unfold fill
  split
  · exact Nat.le_refl _
  · split
    · exact Nat.le_refl _
    · rename_i h
      have := S.length_lt h
      simp_all [size]
      omega

theorem size_accept?_le (select : τ → Option α) (s : Lookahead τ) :
    (s.accept? S select).2.size ≤ s.size := by
  have hf := s.size_fill_le S
  unfold accept?
  split
  · exact hf
  · split
    · exact hf
    · simp_all [size]
      omega

theorem size_accept?_lt {select : τ → Option α} {s : Lookahead τ} {a : α}
    (h : (s.accept? S select).1 = some a) : (s.accept? S select).2.size < s.size := by
  have hf := s.size_fill_le S
  unfold accept? at h ⊢
  split at h
  · contradiction
  · split at h
    · contradiction
    · simp_all [size]
      omega

/-- A token that is not taken leaves a pending token where it is. -/
theorem accept?_of_none {select : τ → Option α} {s : Lookahead τ} (hs : s.pending ≠ [])
    (h : (s.accept? S select).1 = none) : (s.accept? S select).2 = s := by
  have hf := s.fill_of_pending S hs
  unfold accept? at h ⊢
  split at h
  · exact hf
  · split at h
    · exact hf
    · contradiction

def skipPast (stop : τ → Bool) (s : Lookahead τ) : Lookahead τ :=
  match _h : (s.fill S).pending with
  | [] => s.fill S
  | token :: others =>
    if stop token then ⟨others, (s.fill S).rest⟩
    else skipPast stop ⟨others, (s.fill S).rest⟩
termination_by s.size
decreasing_by
  have hf := s.size_fill_le S
  simp only [size, _h, List.length_cons] at hf ⊢
  omega

theorem size_skipPast_le (stop : τ → Bool) (s : Lookahead τ) :
    (s.skipPast S stop).size ≤ s.size := by
  fun_induction skipPast S stop s with
  | case1 s h => exact s.size_fill_le S
  | case2 s token others h ht =>
    have hf := s.size_fill_le S
    simp only [size, h, List.length_cons] at hf ⊢
    omega
  | case3 s token others h ht ih =>
    have hf := s.size_fill_le S
    simp only [size, h, List.length_cons] at hf ih ⊢
    omega

theorem size_skipPast_lt {s : Lookahead τ} (stop : τ → Bool) (h : s.pending ≠ []) :
    (s.skipPast S stop).size < s.size := by
  have hf := s.fill_of_pending S h
  obtain ⟨token, others, hp⟩ := List.exists_cons_of_ne_nil h
  have hlt : (⟨others, s.rest⟩ : Lookahead τ).size < s.size := by
    simp [size, hp]
  rw [skipPast]
  split
  · simp_all
  · rename_i token' others' hp'
    have : others' = others := by simp_all
    subst this
    rw [hf]
    split
    · exact hlt
    · exact Nat.lt_of_le_of_lt (size_skipPast_le S stop _) hlt

end Lookahead

end PepAsm.Scan
