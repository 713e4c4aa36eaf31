import PepAsm.Proofs.Formula.Parsing

namespace PepAsm.Formula

open PepAsm.Scan

namespace ParseM

variable {α β : Type} {x y : ParseM α} {f g : α → ParseM β} {s s' : Lookahead Token}
  {e : ParseError}

theorem bind_eq_error (h : (x >>= f) s = .error e s') :
    x s = .error e s' ∨ ∃ a t, x s = .ok a t ∧ f a t = .error e s' := by
  change EStateM.bind x f s = _ at h
  unfold EStateM.bind at h
  split at h
  · exact .inr ⟨_, _, ‹_›, h⟩
  · cases h
    exact .inl ‹_›

theorem bind_congr (hx : x s = y s) (hf : ∀ a t, x s = .ok a t → f a t = g a t) :
    (x >>= f) s = (y >>= g) s := by
  change EStateM.bind x f s = EStateM.bind y g s
  simp only [EStateM.bind, ← hx]
  split
  · apply hf
    assumption
  · rfl

end ParseM

variable {s s' : Lookahead Token} {e : ParseError}

theorem expect_eq_error {select : Token → Option Token} (h : expect select s = .error e s') :
    upcoming s' = upcoming s ∧ ∀ token ∈ (upcoming s).head?, select token = none := by
  rcases accept?_cases select s with ⟨token, a, t, ha, ht, -⟩ | ⟨t, hnone, ht, hl⟩
  · rw [expect, ParseM.bind_of_ok ht] at h
    contradiction
  · rw [expect, ParseM.bind_of_ok ht] at h
    cases h
    exact ⟨hl, hnone⟩

section Chain

variable {left right left' right' : ParseM (List Token)} {operator? : Token → Option Token}

theorem chain_eq_error (h : chain left right operator? s = .error e s') :
    left s = .error e s' ∨
      ∃ first t token operator t', left s = .ok first t ∧ operator? token = some operator ∧
        upcoming t = token :: upcoming t' ∧ right t' = .error e s' := by
  rcases ParseM.bind_eq_error h with hleft | ⟨first, t, hleft, h⟩
  · exact .inl hleft
  · rcases accept?_cases operator? t with ⟨token, operator, t', ho, ht, hl⟩ | ⟨t', -, ht, -⟩
    · rw [ParseM.bind_of_ok ht] at h
      rcases ParseM.bind_eq_error h with hright | ⟨second, u, -, h⟩
      · exact .inr ⟨first, t, token, operator, t', hleft, ho, hl, hright⟩
      · contradiction
    · rw [ParseM.bind_of_ok ht] at h
      contradiction

theorem chain_congr (hleft : left s = left' s)
    (hright : ∀ first t token t', left s = .ok first t → upcoming t = token :: upcoming t' →
      right t' = right' t') :
    chain left right operator? s = chain left' right' operator? s := by
  apply ParseM.bind_congr hleft
  intro first t ht
  rcases accept?_cases operator? t with ⟨token, operator, t', -, ha, hl⟩ | ⟨t', -, ha, -⟩
  · rw [ParseM.bind_of_ok ha, ParseM.bind_of_ok ha]
    apply ParseM.bind_congr (hright first t token t' ht hl)
    intro second u hu
    rfl
  · rw [ParseM.bind_of_ok ha, ParseM.bind_of_ok ha]

end Chain

namespace Nonterminal

variable {n : Nonterminal} {depth depth' : Nat} {tokens taken rest : List Token}

def rule (recurse : Nonterminal → ParseM (List Token)) : Nonterminal → ParseM (List Token)
  | .expression => chain (recurse .term) (recurse .expression) Token.plus?
  | .term => chain (recurse .factor) (recurse .term) Token.times?
  | .factor => do
    match ← accept? Token.parenOpen? with
    | some _ =>
      let inner ← recurse .expression
      let _ ← expect Token.parenClose?
      return inner
    | none => return [← expect Token.decimal?]

/-- The rules in mutual recursion down to some depth, at which `limit` takes over. -/
def recursion (limit : Nonterminal → ParseM (List Token)) :
    Nat → Nonterminal → ParseM (List Token)
  | 0 => limit
  | depth + 1 => rule (recursion limit depth)

theorem readWithin_succ (n : Nonterminal) (depth : Nat) :
    n.readWithin (depth + 1) = rule (fun m ↦ m.readWithin depth) n := by
  cases n with
  | _ => rfl

theorem length_of_readWithin (h : n.readWithin depth s = .ok tokens s') :
    (upcoming s').length ≤ (upcoming s).length := by
  obtain ⟨d, hd, -, -⟩ := derivation_of_readWithin h
  simp [hd]

/-- A rule calls itself on a shorter stream, or a rule of a lower level on the same stream. -/
theorem rule_congr {recurse recurse' : Nonterminal → ParseM (List Token)}
    (hsame : ∀ m t, (upcoming t).length < (upcoming s).length ∨
        (upcoming t).length = (upcoming s).length ∧ m.level < n.level →
      recurse m t = recurse' m t)
    (hshrink : ∀ m t tokens t', recurse m t = .ok tokens t' →
      (upcoming t').length ≤ (upcoming t).length) :
    rule recurse n s = rule recurse' n s := by
  cases n with
  | expression | term =>
    apply chain_congr
    · apply hsame
      simp [level]
    · intro first t token t' hleft ht
      apply hsame
      have hle := hshrink _ _ _ _ hleft
      rw [ht, List.length_cons] at hle
      omega
  | factor =>
    rcases accept?_cases Token.parenOpen? s with ⟨token, a, t, -, ha, hl⟩ | ⟨t, -, ha, -⟩
    · simp only [rule, ParseM.bind_of_ok ha]
      apply ParseM.bind_congr
      · apply hsame
        simp [hl]
      · intro inner u hu
        rfl
    · simp only [rule, ParseM.bind_of_ok ha]

/-- The limit of the depth does not matter, nor what is done there: no reading gets so far. -/
theorem readWithin_eq_recursion (limit : Nonterminal → ParseM (List Token))
    (h : 3 * (upcoming s).length + n.level ≤ depth)
    (h' : 3 * (upcoming s).length + n.level ≤ depth') :
    n.readWithin depth s = recursion limit depth' n s := by
  induction depth generalizing n s depth' with
  | zero =>
    cases n with
    | _ => simp [level] at h
  | succ depth ih =>
    cases depth' with
    | zero =>
      cases n with
      | _ => simp [level] at h'
    | succ depth' =>
      rw [readWithin_succ, recursion]
      apply rule_congr
      · intro m t hless
        have hlevel : m.level ≤ 3 ∧ 1 ≤ n.level := by
          cases m <;> cases n <;> decide
        apply ih
        · omega
        · omega
      · intro m t tokens t' hread
        exact length_of_readWithin hread

/-- A reading took some tokens and failed before the rest: a phrase begins with the taken tokens,
but none that does goes on with the next token, or ends where the rest is empty. -/
structure Stuck (n : Nonterminal) (taken rest : List Token) : Prop where
  begun : ∃ d : Derivation n, taken <+: d.sentence
  refused : ∀ (d : Derivation n) (more : List Token), d.sentence = taken ++ more →
    more.head? ≠ rest.head?

def Absent (n : Nonterminal) (tokens : List Token) : Prop :=
  ∀ (d : Derivation n) (rest : List Token), tokens = d.sentence ++ rest → ¬ n.Ends rest

theorem absent_of_error (h : n.readWithin depth s = .error e s')
    (hdepth : 3 * (upcoming s).length + n.level ≤ depth) : n.Absent (upcoming s) := by
  intro d rest hs hend
  obtain ⟨t, hread, -⟩ := readWithin_of_derivation d depth hs hend hdepth
  rw [h] at hread
  contradiction

theorem Ends.of_head?_eq {rest' : List Token} (h : n.Ends rest) (hhead : rest'.head? = rest.head?) :
    n.Ends rest' := by
  intro token ht
  apply h
  rwa [← hhead]

theorem Stuck.refused_before {after more : List Token} (h : n.Stuck taken rest)
    (habsent : n.Absent (taken ++ rest)) (d : Derivation n) (hend : n.Ends after)
    (hd : d.sentence ++ after = taken ++ more) : more.head? ≠ rest.head? := by
  intro hhead
  -- A phrase that ends before the place of the failure would have been read there, since what
  -- follows it begins as the stream does. Only a phrase that ends behind it is left to `h`.
  rcases List.append_eq_append_iff.1 hd with ⟨shared, htaken, hafter⟩ | ⟨missing, hsentence, hmore⟩
  · apply habsent d (shared ++ rest)
    · rw [htaken, List.append_assoc]
    · apply hend.of_head?_eq
      rw [hafter, List.head?_append, List.head?_append, hhead]
  · cases missing with
    | nil =>
      rw [List.nil_append] at hmore
      apply habsent d rest
      · rw [hsentence, List.append_nil]
      · exact hend.of_head?_eq (by rw [← hhead, hmore])
    | cons token missing =>
      apply h.refused d (token :: missing) hsentence
      rw [← hhead, hmore]
      rfl

/-- `n → m operator n | m`: the phrases of `n` are those of `m`, alone or with an operator and
another phrase of `n` after them. -/
structure Chains (n m : Nonterminal) (operator : Token) : Prop where
  sentence_iff : ∀ tokens, (∃ d : Derivation n, d.sentence = tokens) ↔
    (∃ left : Derivation m, left.sentence = tokens) ∨
      ∃ (left : Derivation m) (right : Derivation n),
        left.sentence ++ operator :: right.sentence = tokens
  ends : ∀ rest, m.Ends (operator :: rest)

theorem chains_expression : expression.Chains term .plus := by
  refine ⟨?_, ?_⟩
  · intro tokens
    constructor
    · rintro ⟨d, rfl⟩
      cases d with
      | sum left right => exact .inr ⟨left, right, rfl⟩
      | single left => exact .inl ⟨left, rfl⟩
    · rintro (⟨left, rfl⟩ | ⟨left, right, rfl⟩)
      · exact ⟨.single left, rfl⟩
      · exact ⟨.sum left right, rfl⟩
  · intro rest
    exact ends_cons.2 rfl

theorem chains_term : term.Chains factor .times := by
  refine ⟨?_, ?_⟩
  · intro tokens
    constructor
    · rintro ⟨d, rfl⟩
      cases d with
      | product left right => exact .inr ⟨left, right, rfl⟩
      | lone left => exact .inl ⟨left, rfl⟩
    · rintro (⟨left, rfl⟩ | ⟨left, right, rfl⟩)
      · exact ⟨.lone left, rfl⟩
      · exact ⟨.product left right, rfl⟩
  · intro rest
    exact ends_factor _

section Chains

variable {m : Nonterminal} {operator : Token} (hc : n.Chains m operator)
include hc

theorem Stuck.first (h : m.Stuck taken rest) (habsent : m.Absent (taken ++ rest)) :
    n.Stuck taken rest := by
  refine ⟨?_, ?_⟩
  · obtain ⟨left, hleft⟩ := h.begun
    obtain ⟨d, hd⟩ := (hc.sentence_iff _).2 (.inl ⟨left, rfl⟩)
    exact ⟨d, hd ▸ hleft⟩
  · intro d more hd
    rcases (hc.sentence_iff _).1 ⟨d, hd⟩ with ⟨left, hleft⟩ | ⟨left, right, hboth⟩
    · exact h.refused left more hleft
    · exact h.refused_before habsent left (hc.ends _) hboth

theorem Stuck.second (left : Derivation m) (h : n.Stuck taken rest) :
    n.Stuck (left.sentence ++ operator :: taken) rest := by
  refine ⟨?_, ?_⟩
  · obtain ⟨right, hright⟩ := h.begun
    obtain ⟨d, hd⟩ := (hc.sentence_iff _).2 (.inr ⟨left, right, rfl⟩)
    refine ⟨d, ?_⟩
    simpa [hd] using hright
  · intro d more hd
    rw [List.append_assoc, List.cons_append] at hd
    rcases (hc.sentence_iff _).1 ⟨d, hd⟩ with ⟨left', hleft⟩ | ⟨left', right, hboth⟩
    · rw [← List.append_nil left'.sentence] at hleft
      obtain ⟨-, hnil⟩ := left'.eq_of_sentence_append left hleft nofun (hc.ends _)
      contradiction
    · obtain ⟨-, hright⟩ := left'.eq_of_sentence_append left hboth (hc.ends _) (hc.ends _)
      exact h.refused right more (List.cons.inj hright).2

theorem stuck_of_chain {operator? : Token → Option Token}
    (hoperator : ∀ token a, operator? token = some a → token = operator)
    (h : chain (m.readWithin depth) (n.readWithin depth) operator? s = .error e s')
    (hlevel : m.level < n.level) (hdepth : 3 * (upcoming s).length + n.level ≤ depth + 1)
    (ih : ∀ (k : Nonterminal) (t : Lookahead Token), k.readWithin depth t = .error e s' →
      3 * (upcoming t).length + k.level ≤ depth →
      ∃ taken, upcoming t = taken ++ upcoming s' ∧ k.Stuck taken (upcoming s')) :
    ∃ taken, upcoming s = taken ++ upcoming s' ∧ n.Stuck taken (upcoming s') := by
  rcases chain_eq_error h with hleft | ⟨first, t, token, a, t', hleft, ho, ht, hright⟩
  · have hfirst : 3 * (upcoming s).length + m.level ≤ depth := by omega
    obtain ⟨taken, hs, hstuck⟩ := ih m s hleft hfirst
    exact ⟨taken, hs, hstuck.first hc (hs ▸ absent_of_error hleft hfirst)⟩
  · obtain ⟨d, hd, -, -⟩ := derivation_of_readWithin hleft
    obtain rfl := hoperator token a ho
    rw [hd, ht, List.length_append, List.length_cons] at hdepth
    obtain ⟨taken, ht', hstuck⟩ := ih n t' hright (by omega)
    refine ⟨d.sentence ++ token :: taken, ?_, hstuck.second hc d⟩
    rw [hd, ht, ht', List.append_assoc, List.cons_append]

end Chains

theorem Stuck.nested (h : expression.Stuck taken rest)
    (habsent : expression.Absent (taken ++ rest)) : factor.Stuck (.parenOpen :: taken) rest := by
  refine ⟨?_, ?_⟩
  · obtain ⟨d, hd⟩ := h.begun
    refine ⟨.nested d, ?_⟩
    simpa [Derivation.sentence] using hd.trans (List.prefix_append d.sentence [.parenClose])
  · intro d more hd
    cases d with
    | nested inner =>
      have hinner : inner.sentence ++ [.parenClose] = taken ++ more := (List.cons.inj hd).2
      exact h.refused_before habsent inner (ends_cons.2 rfl) hinner
    | number k => cases (List.cons.inj hd).1

theorem stuck_unclosed (inner : Derivation .expression) (hend : expression.Ends rest)
    (hclose : ∀ token ∈ rest.head?, token.parenClose? = none) :
    factor.Stuck (.parenOpen :: inner.sentence) rest := by
  refine ⟨⟨.nested inner, ?_⟩, ?_⟩
  · simp [Derivation.sentence]
  · intro d more hd hhead
    cases d with
    | nested other =>
      have hother : other.sentence ++ [.parenClose] = inner.sentence ++ more := (List.cons.inj hd).2
      obtain ⟨-, hmore⟩ :=
        other.eq_of_sentence_append inner hother (ends_cons.2 rfl) (hend.of_head?_eq hhead)
      have hnone := hclose .parenClose (by rw [← hhead, ← hmore]; rfl)
      contradiction
    | number k => cases (List.cons.inj hd).1

theorem stuck_at_start (hopen : ∀ token ∈ rest.head?, token.parenOpen? = none)
    (hnumber : ∀ token ∈ rest.head?, token.decimal? = none) : factor.Stuck [] rest := by
  refine ⟨⟨.number 0, List.nil_prefix⟩, ?_⟩
  intro d more hd hhead
  rw [← hhead] at hopen hnumber
  cases d with
  | nested inner =>
    have hnone := hopen .parenOpen (by rw [← List.nil_append more, ← hd]; rfl)
    contradiction
  | number k =>
    have hnone := hnumber (.decimal k) (by rw [← List.nil_append more, ← hd]; rfl)
    contradiction

theorem stuck_of_readWithin (h : n.readWithin depth s = .error e s')
    (hdepth : 3 * (upcoming s).length + n.level ≤ depth) :
    ∃ taken, upcoming s = taken ++ upcoming s' ∧ n.Stuck taken (upcoming s') := by
  -- The depth never runs out, so the cases are the places at which one of the rules gives up.
  induction depth generalizing n s with
  | zero =>
    cases n with
    | _ => simp [level] at hdepth
  | succ depth ih =>
    cases n with
    | expression =>
      refine stuck_of_chain chains_expression ?_ h (by decide) hdepth fun k t ↦ ih
      intro token a ho
      exact (Token.plus?_eq_some.1 ho).1
    | term =>
      refine stuck_of_chain chains_term ?_ h (by decide) hdepth fun k t ↦ ih
      intro token a ho
      exact (Token.times?_eq_some.1 ho).1
    | factor =>
      simp only [level] at hdepth
      rw [readWithin_succ] at h
      rcases accept?_cases Token.parenOpen? s with ⟨token, a, t, ha, hs, hl⟩ | ⟨t, hnone, hs, hl⟩
      · obtain ⟨rfl, -⟩ := Token.parenOpen?_eq_some.1 ha
        rw [hl, List.length_cons] at hdepth
        have hlevel : 3 * (upcoming t).length + expression.level ≤ depth := by
          simp only [level]
          omega
        simp only [rule, ParseM.bind_of_ok hs] at h
        rcases ParseM.bind_eq_error h with hinner | ⟨inner, u, hinner, h⟩
        · obtain ⟨taken, ht, hstuck⟩ := ih hinner hlevel
          refine ⟨.parenOpen :: taken, ?_, hstuck.nested (ht ▸ absent_of_error hinner hlevel)⟩
          rw [hl, ht, List.cons_append]
        · obtain ⟨d, hd, -, hend⟩ := derivation_of_readWithin hinner
          rcases ParseM.bind_eq_error h with hclose | ⟨close, u', -, h⟩
          · obtain ⟨hu, hnone⟩ := expect_eq_error hclose
            refine ⟨.parenOpen :: d.sentence, ?_, ?_⟩
            · rw [hl, hd, hu, List.cons_append]
            · rw [hu]
              exact stuck_unclosed d hend hnone
          · contradiction
      · simp only [rule, ParseM.bind_of_ok hs] at h
        rcases ParseM.bind_eq_error h with hnumber | ⟨number, u, -, h⟩
        · obtain ⟨hu, hnone'⟩ := expect_eq_error hnumber
          refine ⟨[], by rw [hu, hl, List.nil_append], ?_⟩
          rw [hu, hl]
          exact stuck_at_start hnone (hl ▸ hnone')
        · contradiction

/-- Reading ends for every stream. Where it fails, the tokens taken so far begin a phrase, but with
the next token, which is not taken, they begin none. At the end of the stream they are none. -/
theorem read_rejects_earliest (n : Nonterminal) (s : Lookahead Token) :
    (∀ limit depth, sufficientDepth s ≤ depth → recursion limit depth n s = n.read s) ∧
    ∀ e s', n.read s = .error e s' →
      (s'.peek Token.scanner).1 = (s'.toList Token.scanner).head? ∧
      ∃ taken, s.toList Token.scanner = taken ++ s'.toList Token.scanner ∧
        (∃ d : Derivation n, taken <+: d.sentence) ∧
        (∀ token ∈ (s'.toList Token.scanner).head?, ∀ d : Derivation n,
          ¬ taken ++ [token] <+: d.sentence) ∧
        (s'.toList Token.scanner = [] → ∀ d : Derivation n, d.sentence ≠ taken) := by
  have hdepth := n.le_sufficientDepth s
  refine ⟨?_, ?_⟩
  · intro limit depth hle
    rw [read_eq]
    exact (readWithin_eq_recursion limit hdepth (Nat.le_trans hdepth hle)).symm
  · intro e s' h
    rw [read_eq] at h
    obtain ⟨taken, hs, hstuck⟩ := stuck_of_readWithin h hdepth
    refine ⟨Lookahead.peek_eq, taken, hs, hstuck.begun, ?_, ?_⟩
    · rintro token ht d ⟨more, hd⟩
      apply hstuck.refused d (token :: more)
      · rw [← hd, List.append_assoc, List.singleton_append]
      · exact ht.symm
    · intro hend d hd
      apply hstuck.refused d []
      · rw [hd, List.append_nil]
      · exact (congrArg List.head? hend).symm

/-- In `(1+)` the closing parenthesis is where no phrase goes on. -/
theorem read_rejects_earliest_operand :
    expression.read (.ofText "(1+)".toList) = .error .unexpectedToken ⟨[.parenClose], []⟩ ∧
      ∃ taken, Token.scanner.tokens "(1+)".toList = taken ++ [.parenClose] ∧
        (∃ d : Derivation .expression, taken <+: d.sentence) ∧
        ∀ d : Derivation .expression, ¬ taken ++ [.parenClose] <+: d.sentence := by
  have hread : expression.read (.ofText "(1+)".toList) =
      .error .unexpectedToken ⟨[.parenClose], []⟩ := rfl
  obtain ⟨-, taken, htaken, hbegun, hrefused, -⟩ :=
    (read_rejects_earliest .expression (.ofText "(1+)".toList)).2 _ _ hread
  have hrest : (⟨[.parenClose], []⟩ : Lookahead Token).toList Token.scanner = [.parenClose] := by
    simp [Lookahead.toList, Scanner.tokens_nil]
  rw [hrest] at htaken hrefused
  exact ⟨hread, taken, htaken, hbegun, hrefused .parenClose rfl⟩

end Nonterminal

end PepAsm.Formula
