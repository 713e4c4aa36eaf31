import PepAsm.Assembly.Progress
import PepAsm.Proofs.Formula.Parsing

namespace PepAsm

namespace Scan

variable {τ σ : Type}

inductive Request (τ : Type)
  | peek
  | accept (kind : String)
  | expect (kind : String)
  | push (token : τ)
  | skipPast (kinds : List String)
deriving Repr, DecidableEq

inductive Answer (τ : Type)
  | next (token : Option τ)
  | refused
  | done
deriving Repr, DecidableEq

def run (serve : σ → Request τ → Answer τ × σ) (s : σ) : List (Request τ) → List (Answer τ) × σ
  | [] => ([], s)
  | request :: requests =>
    ((serve s request).1 :: (run serve (serve s request).2 requests).1,
      (run serve (serve s request).2 requests).2)

section Run

variable (serve : σ → Request τ → Answer τ × σ)

theorem run_append (s : σ) (before after : List (Request τ)) :
    run serve s (before ++ after) =
      ((run serve s before).1 ++ (run serve (run serve s before).2 after).1,
        (run serve (run serve s before).2 after).2) := by
  induction before generalizing s with
  | nil => rfl
  | cons request before ih => simp only [List.cons_append, run, ih]

theorem length_run (s : σ) (requests : List (Request τ)) :
    (run serve s requests).1.length = requests.length := by
  induction requests generalizing s with
  | nil => rfl
  | cons request requests ih => simp only [run, List.length_cons, ih]

end Run

namespace Request

def isPush : Request τ → Bool
  | .push _ => true
  | _ => false

/-- How many tokens there are up to and including the first of some kinds. Without one, it is
more than there are. -/
def distance (kind : τ → String) (kinds : List String) (tokens : List τ) : Nat :=
  tokens.findIdx (fun token ↦ kinds.contains (kind token)) + 1

theorem distance_pos (kind : τ → String) (kinds : List String) (tokens : List τ) :
    0 < distance kind kinds tokens :=
  Nat.succ_pos _

def taken (kind : τ → String) (tokens : List τ) (answer : Answer τ) : Request τ → List τ
  | .accept _ | .expect _ =>
    match answer with
    | .next token => token.toList
    | _ => []
  | .skipPast kinds => tokens.take (distance kind kinds tokens)
  | .peek | .push _ => []

end Request

/-- A plain list of tokens, of which the first `held` were read ahead or put there. -/
structure TokenList (τ : Type) where
  tokens : List τ
  held : Nat
deriving Repr, DecidableEq

namespace TokenList

def look (l : TokenList τ) : TokenList τ :=
  { l with held := max l.held (min 1 l.tokens.length) }

def drop (n : Nat) (l : TokenList τ) : TokenList τ :=
  ⟨l.tokens.drop n, l.held - n⟩

def Begins (kind : τ → String) (k : String) (l : TokenList τ) : Prop :=
  l.tokens.head?.map kind = some k

instance (kind : τ → String) (k : String) (l : TokenList τ) : Decidable (l.Begins kind k) :=
  inferInstanceAs (Decidable (_ = _))

def serve (kind : τ → String) (l : TokenList τ) : Request τ → Answer τ × TokenList τ
  | .peek => (.next l.tokens.head?, l.look)
  | .accept k => if l.Begins kind k then (.next l.tokens.head?, l.drop 1) else (.next none, l.look)
  | .expect k => if l.Begins kind k then (.next l.tokens.head?, l.drop 1) else (.refused, l.look)
  | .push token => (.done, ⟨l.tokens.take l.held ++ token :: l.tokens.drop l.held, l.held + 1⟩)
  | .skipPast kinds => (.done, l.drop (Request.distance kind kinds l.tokens))

variable {kind : τ → String} {k : String} {request : Request τ} {l l' : TokenList τ}

theorem Begins.exists_head (h : l.Begins kind k) :
    ∃ token, l.tokens.head? = some token ∧ kind token = k :=
  Option.map_eq_some_iff.1 h

theorem drop_drop (m n : Nat) : (l.drop m).drop n = l.drop (m + n) := by
  simp [drop, Nat.sub_sub]

theorem drop_look {n : Nat} (hn : 0 < n) : l.look.drop n = l.drop n := by
  simp only [drop, look, mk.injEq, true_and]
  omega

variable (kind)

theorem tokens_serve (h : request.isPush = false) (l : TokenList τ) :
    l.tokens = request.taken kind l.tokens (l.serve kind request).1 ++
      (l.serve kind request).2.tokens := by
  cases request with
  | peek => rfl
  | push token => contradiction
  | skipPast kinds => exact (List.take_append_drop _ _).symm
  | accept k | expect k =>
    by_cases hk : l.Begins kind k
    · obtain ⟨token, hhead, -⟩ := hk.exists_head
      obtain ⟨others, hl⟩ := List.head?_eq_some_iff.1 hhead
      simp [serve, hk, Request.taken, drop, hl]
    · simp [serve, hk, Request.taken, look]

theorem serve_congr (h : request.isPush = false) (hl : l.tokens = l'.tokens) :
    (l.serve kind request).1 = (l'.serve kind request).1 ∧
      (l.serve kind request).2.tokens = (l'.serve kind request).2.tokens := by
  cases request with
  | peek => simp [serve, look, hl]
  | push token => contradiction
  | skipPast kinds => simp [serve, drop, hl]
  | accept k | expect k =>
    have hiff : l.Begins kind k ↔ l'.Begins kind k := by rw [Begins, Begins, hl]
    by_cases hk : l'.Begins kind k
    · simp [serve, hiff, hk, drop, hl]
    · simp [serve, hiff, hk, look, hl]

/-- How many tokens are held shows in the place of the tokens that are pushed only. -/
theorem run_congr {requests : List (Request τ)} (h : ∀ r ∈ requests, r.isPush = false)
    (hl : l.tokens = l'.tokens) :
    (run (serve kind) l requests).1 = (run (serve kind) l' requests).1 ∧
      (run (serve kind) l requests).2.tokens = (run (serve kind) l' requests).2.tokens := by
  induction requests generalizing l l' with
  | nil => exact ⟨rfl, hl⟩
  | cons request requests ih =>
    rw [List.forall_mem_cons] at h
    obtain ⟨hanswer, htokens⟩ := serve_congr kind h.1 hl
    obtain ⟨hanswers, hlast⟩ := ih h.2 htokens
    simp only [run, hanswer, hanswers, hlast, and_self]

end TokenList

namespace Lookahead

def ofKind (kind : τ → String) (k : String) (token : τ) : Option τ :=
  if kind token = k then some token else none

def serve (S : Scanner τ) (kind : τ → String) (s : Lookahead τ) :
    Request τ → Answer τ × Lookahead τ
  | .peek => (.next (s.peek S).1, (s.peek S).2)
  | .accept k => (.next (s.accept? S (ofKind kind k)).1, (s.accept? S (ofKind kind k)).2)
  | .expect k =>
    (match (s.accept? S (ofKind kind k)).1 with
      | some token => .next (some token)
      | none => .refused,
      (s.accept? S (ofKind kind k)).2)
  | .push token => (.done, s.push token)
  | .skipPast kinds => (.done, s.skipPast S fun token ↦ kinds.contains (kind token))

def view (S : Scanner τ) (s : Lookahead τ) : TokenList τ :=
  ⟨s.toList S, s.pending.length⟩

def taken (S : Scanner τ) (kind : τ → String) (s : Lookahead τ) : List (Request τ) → List τ
  | [] => []
  | request :: requests =>
    request.taken kind (s.toList S) (s.serve S kind request).1 ++
      taken S kind (s.serve S kind request).2 requests

section Fill

variable {S : Scanner τ} {kind : τ → String} {k : String} {s : Lookahead τ} {token : τ}
  {others : List τ}

theorem view_fill : (s.fill S).view S = (s.view S).look := by
  have hheld : (s.fill S).pending.length = max s.pending.length (min 1 (s.toList S).length) := by
    obtain ⟨pending, rest⟩ := s
    cases pending with
    | cons token others => simp [fill, toList]
    | nil =>
      cases h : S.next? rest with
      | none => simp [fill, toList, h, S.tokens_of_none h]
      | some next => simp [fill, toList, h, S.tokens_of_some h]
  simp only [view, TokenList.look, toList_fill, hheld]

theorem head?_view : (s.view S).tokens.head? = (s.fill S).pending.head? :=
  peek_eq.symm

theorem view_of_pending (h : (s.fill S).pending = token :: others) :
    (⟨others, (s.fill S).rest⟩ : Lookahead τ).view S = (s.view S).drop 1 := by
  rw [← TokenList.drop_look Nat.one_pos, ← view_fill]
  simp [view, TokenList.drop, toList, h]

theorem accept?_of_begins (h : (s.view S).Begins kind k) :
    (s.accept? S (ofKind kind k)).1 = (s.view S).tokens.head? ∧
      (s.accept? S (ofKind kind k)).2.view S = (s.view S).drop 1 := by
  obtain ⟨token, hhead, hk⟩ := h.exists_head
  rw [head?_view] at hhead ⊢
  obtain ⟨others, hp⟩ := List.head?_eq_some_iff.1 hhead
  simp [accept?, hp, ofKind, hk, view_of_pending hp]

theorem accept?_of_not_begins (h : ¬(s.view S).Begins kind k) :
    (s.accept? S (ofKind kind k)).1 = none ∧
      (s.accept? S (ofKind kind k)).2.view S = (s.view S).look := by
  rw [TokenList.Begins, head?_view] at h
  rw [← view_fill]
  cases hp : (s.fill S).pending with
  | nil => simp [accept?, hp]
  | cons token others =>
    have hk : kind token ≠ k := by simpa [hp] using h
    simp [accept?, hp, ofKind, hk]

end Fill

variable (S : Scanner τ) (kind : τ → String)

theorem view_skipPast (kinds : List String) (s : Lookahead τ) :
    (s.skipPast S fun token ↦ kinds.contains (kind token)).view S =
      (s.view S).drop (Request.distance kind kinds (s.toList S)) := by
  fun_induction skipPast S (fun token ↦ kinds.contains (kind token)) s with
  | case1 s h =>
    have hlist := toList_eq_nil.2 h
    rw [← TokenList.drop_look (Request.distance_pos kind kinds _), ← view_fill]
    simp [view, TokenList.drop, toList_fill, hlist, h]
  | case2 s token others h ht =>
    rw [view_of_pending h, toList_of_pending h]
    simp only [Request.distance, List.findIdx_cons, ht, cond_true, Nat.zero_add]
  | case3 s token others h ht ih =>
    rw [ih, view_of_pending h, toList_of_pending h, TokenList.drop_drop]
    simp only [Request.distance, List.findIdx_cons, ht, cond_false, Nat.add_comm]

/-- A request does to the stream what it does to the plain list. -/
theorem serve_view (s : Lookahead τ) (request : Request τ) :
    (s.serve S kind request).1 = ((s.view S).serve kind request).1 ∧
      (s.serve S kind request).2.view S = ((s.view S).serve kind request).2 := by
  cases request with
  | peek => exact ⟨congrArg Answer.next head?_view.symm, view_fill⟩
  | accept k =>
    by_cases hk : (s.view S).Begins kind k
    · obtain ⟨hanswer, hview⟩ := accept?_of_begins hk
      simp [serve, TokenList.serve, hk, hanswer, hview]
    · obtain ⟨hanswer, hview⟩ := accept?_of_not_begins hk
      simp [serve, TokenList.serve, hk, hanswer, hview]
  | expect k =>
    by_cases hk : (s.view S).Begins kind k
    · obtain ⟨hanswer, hview⟩ := accept?_of_begins hk
      obtain ⟨token, hhead, -⟩ := hk.exists_head
      simp [serve, TokenList.serve, hk, hanswer, hview, hhead]
    · obtain ⟨hanswer, hview⟩ := accept?_of_not_begins hk
      simp [serve, TokenList.serve, hk, hanswer, hview]
  | push token => simp [serve, TokenList.serve, push, view, toList]
  | skipPast kinds => exact ⟨rfl, view_skipPast S kind kinds s⟩

theorem run_view (s : Lookahead τ) (requests : List (Request τ)) :
    (run (serve S kind) s requests).1 = (run (TokenList.serve kind) (s.view S) requests).1 ∧
      (run (serve S kind) s requests).2.view S =
        (run (TokenList.serve kind) (s.view S) requests).2 := by
  induction requests generalizing s with
  | nil => exact ⟨rfl, rfl⟩
  | cons request requests ih =>
    obtain ⟨hanswer, hview⟩ := serve_view S kind s request
    obtain ⟨hanswers, hlast⟩ := ih (s.serve S kind request).2
    rw [hview] at hanswers hlast
    simp only [run, hanswer, hanswers, hlast, and_self]

variable {requests : List (Request τ)} (h : ∀ r ∈ requests, r.isPush = false)
include h

theorem toList_eq_taken (s : Lookahead τ) :
    s.toList S = s.taken S kind requests ++ (run (serve S kind) s requests).2.toList S := by
  induction requests generalizing s with
  | nil => rfl
  | cons request requests ih =>
    rw [List.forall_mem_cons] at h
    obtain ⟨hanswer, hview⟩ := serve_view S kind s request
    have htokens := TokenList.tokens_serve kind h.1 (s.view S)
    rw [← hanswer, ← hview] at htokens
    rw [taken, run, List.append_assoc, ← ih h.2]
    exact htokens

theorem run_peek (s : Lookahead τ) :
    (run (serve S kind) (s.peek S).2 requests).1 = (run (serve S kind) s requests).1 ∧
      (run (serve S kind) (s.peek S).2 requests).2.toList S =
        (run (serve S kind) s requests).2.toList S := by
  obtain ⟨hpeeked, hpeekedLast⟩ := run_view S kind (s.peek S).2 requests
  obtain ⟨hplain, hplainLast⟩ := run_view S kind s requests
  have htokens : ((s.peek S).2.view S).tokens = (s.view S).tokens := toList_fill
  obtain ⟨hanswers, hlast⟩ := TokenList.run_congr kind h htokens
  refine ⟨hpeeked.trans (hanswers.trans hplain.symm), ?_⟩
  rw [← hpeekedLast, ← hplainLast] at hlast
  exact hlast

theorem run_insert_peek (s : Lookahead τ) (before : List (Request τ)) :
    (run (serve S kind) s (before ++ .peek :: requests)).1.eraseIdx before.length =
      (run (serve S kind) s (before ++ requests)).1 := by
  rw [run_append, run_append, run, ← length_run (serve S kind) s before,
    List.eraseIdx_append_of_length_le (Nat.le_refl _), Nat.sub_self, List.eraseIdx_cons_zero]
  exact congrArg _ (run_peek S kind h _).1

end Lookahead

end Scan

open Scan

theorem Formula.expect_eq_serve (k : String) (s : Lookahead Formula.Token) :
    Formula.expect (Lookahead.ofKind Formula.Token.kind k) s =
      match s.serve Formula.Token.scanner Formula.Token.kind (.expect k) with
      | (.next (some token), s) => .ok token s
      | (_, s) => .error .unexpectedToken s := by
  have haccept : Formula.accept? (Lookahead.ofKind Formula.Token.kind k) s =
      .ok (s.accept? Formula.Token.scanner (Lookahead.ofKind Formula.Token.kind k)).1
        (s.accept? Formula.Token.scanner (Lookahead.ofKind Formula.Token.kind k)).2 := rfl
  rw [Formula.expect, Formula.ParseM.bind_of_ok haccept, Lookahead.serve]
  cases (s.accept? Formula.Token.scanner (Lookahead.ofKind Formula.Token.kind k)).1 with
  | some token => rfl
  | none => rfl

theorem Assembly.expect_eq_serve (k : String) (r : Assembly.Reader) :
    Assembly.expect (Lookahead.ofKind Assembly.Token.kind k) r =
      match r.stream.serve Assembly.Token.scanner Assembly.Token.kind (.expect k) with
      | (.next (some token), stream) => .ok token { r with stream }
      | (_, stream) => .error .unexpectedToken { r with stream } := by
  rw [Assembly.expect, Assembly.ParseM.bind_of_ok (Assembly.accept?_apply _ r), Lookahead.serve]
  cases (r.stream.accept? Assembly.Token.scanner (Lookahead.ofKind Assembly.Token.kind k)).1 with
  | some token => rfl
  | none => rfl

/-- Requests to a stream are answered as by the plain list of its tokens, whatever they are and
in whatever order. Without a push, every token is in its turn handed over or skipped, or is still
there, and a peek that is put in between changes no later answer. What the parsers expect are
such requests. -/
theorem requests_refine_list :
    (∀ (τ : Type) (S : Scanner τ) (kind : τ → String) (s : Lookahead τ),
      (∀ requests, (run (Lookahead.serve S kind) s requests).1 =
            (run (TokenList.serve kind) (s.view S) requests).1 ∧
          (run (Lookahead.serve S kind) s requests).2.view S =
            (run (TokenList.serve kind) (s.view S) requests).2) ∧
      (∀ requests : List (Request τ), (∀ r ∈ requests, r.isPush = false) →
        s.toList S = s.taken S kind requests ++
          (run (Lookahead.serve S kind) s requests).2.toList S) ∧
      (∀ before after : List (Request τ), (∀ r ∈ after, r.isPush = false) →
        (run (Lookahead.serve S kind) s (before ++ .peek :: after)).1.eraseIdx before.length =
          (run (Lookahead.serve S kind) s (before ++ after)).1)) ∧
    (∀ (k : String) (r : Assembly.Reader),
      Assembly.expect (Lookahead.ofKind Assembly.Token.kind k) r =
        match r.stream.serve Assembly.Token.scanner Assembly.Token.kind (.expect k) with
        | (.next (some token), stream) => .ok token { r with stream }
        | (_, stream) => .error .unexpectedToken { r with stream }) ∧
    (∀ (k : String) (s : Lookahead Formula.Token),
      Formula.expect (Lookahead.ofKind Formula.Token.kind k) s =
        match s.serve Formula.Token.scanner Formula.Token.kind (.expect k) with
        | (.next (some token), s) => .ok token s
        | (_, s) => .error .unexpectedToken s) := by
  refine ⟨?_, Assembly.expect_eq_serve, Formula.expect_eq_serve⟩
  intro τ S kind s
  refine ⟨Lookahead.run_view S kind s, ?_, ?_⟩
  · intro requests h
    exact Lookahead.toList_eq_taken S kind h s
  · intro before after h
    exact Lookahead.run_insert_peek S kind h s before

/-- Reading a line of a program up to its operand, with and without a look at it. -/
theorem requests_refine_list_operand :
    let S := Assembly.Token.scanner
    let kind := Assembly.Token.kind
    let s : Lookahead Assembly.Token := .ofText "LDWA 5,i".toList
    let before := [Request.accept "Symbol", .expect "Identifier"]
    let after := [Request.accept "Hexadecimal", .expect "Comma", .skipPast ["Empty"]]
    ((∀ r ∈ before ++ after, r.isPush = false) ∧
      s.toList S = s.taken S kind (before ++ after) ++
        (run (Lookahead.serve S kind) s (before ++ after)).2.toList S) ∧
    (∀ r ∈ after, r.isPush = false) ∧
      (run (Lookahead.serve S kind) s (before ++ .peek :: after)).1.eraseIdx before.length =
        (run (Lookahead.serve S kind) s (before ++ after)).1 := by
  intro S kind s before after
  obtain ⟨-, hkept, hpeek⟩ := requests_refine_list.1 Assembly.Token S kind s
  have hall : ∀ r ∈ before ++ after, r.isPush = false := by decide
  have hafter : ∀ r ∈ after, r.isPush = false := by decide
  exact ⟨⟨hall, hkept _ hall⟩, hafter, hpeek before after hafter⟩

-- Before a push a peek does show: the token that is put there comes after the one it looked at.
example :
    (run (TokenList.serve id) ⟨["a"], 0⟩ [.push "b", .peek]).1 = [.done, .next "b"] ∧
      (run (TokenList.serve id) ⟨["a"], 0⟩ [.peek, .push "b", .peek]).1 =
        [.next "a", .done, .next "a"] := by
  decide

end PepAsm
