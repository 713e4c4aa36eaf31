import PepAsm.Formula.Parser
import PepAsm.Proofs.Formula.Derivation
import PepAsm.Proofs.Scan.TokenStream

namespace PepAsm.Scan.Lookahead

variable {τ : Type} {S : Scanner τ} {s : Lookahead τ}

theorem length_tokens_le (S : Scanner τ) (text : List Char) :
    (S.tokens text).length ≤ text.length := by
  rw [Scanner.tokens, List.length_map]
  fun_induction S.spans text with
  | case1 text h => simp
  | case2 text token rest h ih =>
    have hlt := S.length_lt h
    rw [List.length_cons]
    omega

theorem length_toList_le : (s.toList S).length ≤ s.size := by
  rw [toList, List.length_append, size]
  have h := length_tokens_le S s.rest
  omega

theorem peek_eq : (s.peek S).1 = (s.toList S).head? := by
  cases h : (s.fill S).pending with
  | nil => simp [peek, h, toList_eq_nil.2 h]
  | cons token others => simp [peek, h, toList_of_pending h]

end PepAsm.Scan.Lookahead

namespace PepAsm.Formula

open PepAsm.Scan

namespace ParseM

variable {α β : Type} {x : ParseM α} {f : α → ParseM β} {s s' : Lookahead Token}

theorem bind_of_ok {a : α} (h : x s = .ok a s') : (x >>= f) s = f a s' := by
  change EStateM.bind x f s = _
  rw [EStateM.bind, h]

theorem bind_eq_ok {b : β} (h : (x >>= f) s = .ok b s') :
    ∃ a t, x s = .ok a t ∧ f a t = .ok b s' := by
  change EStateM.bind x f s = _ at h
  unfold EStateM.bind at h
  split at h
  · exact ⟨_, _, ‹_›, h⟩
  · contradiction

end ParseM

def upcoming (s : Lookahead Token) : List Token :=
  s.toList Token.scanner

variable {s s' : Lookahead Token} {token : Token} {tokens rest : List Token}

theorem accept?_cases (select : Token → Option Token) (s : Lookahead Token) :
    (∃ token a s', select token = some a ∧ accept? select s = .ok (some a) s' ∧
      upcoming s = token :: upcoming s') ∨
    (∃ s', (∀ token ∈ (upcoming s).head?, select token = none) ∧
      accept? select s = .ok none s' ∧ upcoming s' = upcoming s) := by
  have happly : accept? select s =
      .ok (s.accept? Token.scanner select).1 (s.accept? Token.scanner select).2 := rfl
  rcases s.accept?_cases (S := Token.scanner) select with ⟨token, a, hs, ha, hl⟩ | ⟨hs, ha, hl⟩
  · exact .inl ⟨token, a, _, hs, by rw [happly, ha], hl⟩
  · exact .inr ⟨_, hs, by rw [happly, ha], hl⟩

theorem accept?_of_head (select : Token → Option Token) {a : Token}
    (hs : upcoming s = token :: rest) (ha : select token = some a) :
    ∃ s', accept? select s = .ok (some a) s' ∧ upcoming s' = rest := by
  rcases accept?_cases select s with ⟨token', a', s', ha', h, hs'⟩ | ⟨s', hnone, -, -⟩
  · rw [hs] at hs'
    obtain ⟨rfl, rfl⟩ := List.cons.inj hs'
    rw [ha] at ha'
    cases ha'
    exact ⟨s', h, rfl⟩
  · have := hnone token (by rw [hs]; rfl)
    rw [ha] at this
    contradiction

theorem accept?_of_not (select : Token → Option Token)
    (hs : ∀ token ∈ (upcoming s).head?, select token = none) :
    ∃ s', accept? select s = .ok none s' ∧ upcoming s' = upcoming s := by
  rcases accept?_cases select s with ⟨token, a, s', ha, -, hs'⟩ | ⟨s', -, h, hs'⟩
  · have := hs token (by rw [hs']; rfl)
    rw [ha] at this
    contradiction
  · exact ⟨s', h, hs'⟩

theorem expect_of_head (select : Token → Option Token) {a : Token}
    (hs : upcoming s = token :: rest) (ha : select token = some a) :
    ∃ s', expect select s = .ok a s' ∧ upcoming s' = rest := by
  obtain ⟨s', h, hs'⟩ := accept?_of_head select hs ha
  exact ⟨s', ParseM.bind_of_ok h, hs'⟩

theorem expect_eq_ok {select : Token → Option Token} {a : Token}
    (h : expect select s = .ok a s') :
    ∃ token, select token = some a ∧ upcoming s = token :: upcoming s' := by
  obtain ⟨found, t, ht, h⟩ := ParseM.bind_eq_ok h
  rcases accept?_cases select s with ⟨token, a', t', ha, hs, hl⟩ | ⟨t', -, hs, -⟩
  · rw [hs] at ht
    cases ht
    cases h
    exact ⟨token, ha, hl⟩
  · rw [hs] at ht
    cases ht
    contradiction

/-- `left [operator right]` in postfix order, the shape of two of the three rules. -/
def chain (left right : ParseM (List Token)) (operator? : Token → Option Token) :
    ParseM (List Token) := do
  let first ← left
  match ← accept? operator? with
  | none => return first
  | some operator => return first ++ (← right) ++ [operator]

section Chain

variable {left right : ParseM (List Token)} {operator? : Token → Option Token}
  {t : Lookahead Token} {first second : List Token}

theorem chain_eq_ok (h : chain left right operator? s = .ok tokens s') :
    ∃ first t, left s = .ok first t ∧
      ((tokens = first ∧ upcoming s' = upcoming t ∧
        ∀ token ∈ (upcoming t).head?, operator? token = none) ∨
      ∃ token operator t' second, operator? token = some operator ∧
        upcoming t = token :: upcoming t' ∧ right t' = .ok second s' ∧
        tokens = first ++ second ++ [operator]) := by
  obtain ⟨first, t, hleft, h⟩ := ParseM.bind_eq_ok h
  refine ⟨first, t, hleft, ?_⟩
  obtain ⟨found, t', ht, h⟩ := ParseM.bind_eq_ok h
  rcases accept?_cases operator? t with ⟨token, operator, u, ho, hu, hl⟩ | ⟨u, hnone, hu, hl⟩
  · rw [hu] at ht
    cases ht
    obtain ⟨second, u, hright, h⟩ := ParseM.bind_eq_ok h
    cases h
    exact .inr ⟨token, operator, t', second, ho, hl, hright, rfl⟩
  · rw [hu] at ht
    cases ht
    cases h
    exact .inl ⟨rfl, hl, hnone⟩

theorem chain_of_end (hleft : left s = .ok first t)
    (ht : ∀ token ∈ (upcoming t).head?, operator? token = none) :
    ∃ s', chain left right operator? s = .ok first s' ∧ upcoming s' = upcoming t := by
  obtain ⟨s', h, hs'⟩ := accept?_of_not operator? ht
  refine ⟨s', ?_, hs'⟩
  rw [chain, ParseM.bind_of_ok hleft, ParseM.bind_of_ok h]
  rfl

theorem chain_of_operator {operator : Token} (hleft : left s = .ok first t)
    (ht : upcoming t = token :: rest) (ho : operator? token = some operator)
    (hright : ∀ t', upcoming t' = rest → ∃ s', right t' = .ok second s' ∧ upcoming s' = tokens) :
    ∃ s', chain left right operator? s = .ok (first ++ second ++ [operator]) s' ∧
      upcoming s' = tokens := by
  obtain ⟨t', h, ht'⟩ := accept?_of_head operator? ht ho
  obtain ⟨s', hr, hs'⟩ := hright t' ht'
  refine ⟨s', ?_, hs'⟩
  rw [chain, ParseM.bind_of_ok hleft, ParseM.bind_of_ok h]
  exact ParseM.bind_of_ok hr

end Chain

namespace Nonterminal

def read : Nonterminal → ParseM (List Token)
  | .expression => Formula.expression
  | .term => Formula.term
  | .factor => Formula.factor

/-- The reading of a phrase down to some depth. With a sufficient depth nothing is refused for its
nesting: a limit on how deep calls may go is not part of the readers, unlike the limit on the
digits of a number that is shown. -/
def readWithin : Nonterminal → Nat → ParseM (List Token)
  | .expression => expressionWithin
  | .term => termWithin
  | .factor => factorWithin

def level : Nonterminal → Nat
  | .expression => 3
  | .term => 2
  | .factor => 1

theorem read_eq (n : Nonterminal) (s : Lookahead Token) :
    n.read s = n.readWithin (sufficientDepth s) s := by
  cases n with
  | _ => rfl

theorem readWithin_expression (depth : Nat) :
    expression.readWithin (depth + 1) =
      chain (term.readWithin depth) (expression.readWithin depth) Token.plus? := rfl

theorem readWithin_term (depth : Nat) :
    term.readWithin (depth + 1) =
      chain (factor.readWithin depth) (term.readWithin depth) Token.times? := rfl

end Nonterminal

namespace Token

variable {token a : Token}

theorem plus?_eq_some : token.plus? = some a ↔ token = .plus ∧ a = .plus := by
  cases token with
  | _ => simp [plus?, eq_comm]

theorem times?_eq_some : token.times? = some a ↔ token = .times ∧ a = .times := by
  cases token with
  | _ => simp [times?, eq_comm]

theorem parenOpen?_eq_some : token.parenOpen? = some a ↔ token = .parenOpen ∧ a = .parenOpen := by
  cases token with
  | _ => simp [parenOpen?, eq_comm]

theorem parenClose?_eq_some :
    token.parenClose? = some a ↔ token = .parenClose ∧ a = .parenClose := by
  cases token with
  | _ => simp [parenClose?, eq_comm]

theorem decimal?_eq_some : token.decimal? = some a ↔ ∃ n, token = .decimal n ∧ a = .decimal n := by
  cases token with
  | _ => simp [decimal?, eq_comm]

end Token

namespace Nonterminal

theorem ends_expression_iff :
    expression.Ends rest ↔ term.Ends rest ∧ ∀ token ∈ rest.head?, token.plus? = none := by
  cases rest with
  | nil => simp [Ends]
  | cons token rest =>
    cases token with
    | _ => simp [Ends, goesOn, Token.plus?]

theorem ends_term_iff : term.Ends rest ↔ ∀ token ∈ rest.head?, token.times? = none := by
  cases rest with
  | nil => simp [Ends]
  | cons token rest =>
    cases token with
    | _ => simp [Ends, goesOn, Token.times?]

/-- Whatever is read is a phrase of the grammar, and the longest one in front of the stream. -/
theorem derivation_of_readWithin {n : Nonterminal} {depth : Nat}
    (h : n.readWithin depth s = .ok tokens s') :
    ∃ d : Derivation n, upcoming s = d.sentence ++ upcoming s' ∧ tokens = d.postorder ∧
      n.Ends (upcoming s') := by
  induction depth generalizing n s s' tokens with
  | zero =>
    cases n with
    | _ => contradiction
  | succ depth ih =>
    cases n with
    | expression =>
      rw [readWithin_expression] at h
      obtain ⟨first, t, hleft, h⟩ := chain_eq_ok h
      obtain ⟨d, hd, rfl, hend⟩ := ih hleft
      rcases h with ⟨rfl, hs', hnone⟩ | ⟨token, operator, t', second, ho, ht, hright, rfl⟩
      · refine ⟨.single d, ?_, rfl, ?_⟩
        · rw [hd, hs']
          rfl
        · rw [hs']
          exact ends_expression_iff.2 ⟨hend, hnone⟩
      · obtain ⟨e, he, rfl, hend'⟩ := ih hright
        obtain ⟨rfl, rfl⟩ := Token.plus?_eq_some.1 ho
        refine ⟨.sum d e, ?_, rfl, hend'⟩
        rw [hd, ht, he, Derivation.sentence, List.append_assoc, List.cons_append]
    | term =>
      rw [readWithin_term] at h
      obtain ⟨first, t, hleft, h⟩ := chain_eq_ok h
      obtain ⟨d, hd, rfl, -⟩ := ih hleft
      rcases h with ⟨rfl, hs', hnone⟩ | ⟨token, operator, t', second, ho, ht, hright, rfl⟩
      · refine ⟨.lone d, ?_, rfl, ?_⟩
        · rw [hd, hs']
          rfl
        · rw [hs']
          exact ends_term_iff.2 hnone
      · obtain ⟨e, he, rfl, hend'⟩ := ih hright
        obtain ⟨rfl, rfl⟩ := Token.times?_eq_some.1 ho
        refine ⟨.product d e, ?_, rfl, hend'⟩
        rw [hd, ht, he, Derivation.sentence, List.append_assoc, List.cons_append]
    | factor =>
      obtain ⟨found, t, ht, h⟩ := ParseM.bind_eq_ok h
      rcases accept?_cases Token.parenOpen? s with ⟨token, a, t', ha, hs, hl⟩ | ⟨t', -, hs, hl⟩
      · rw [hs] at ht
        cases ht
        obtain ⟨rfl, rfl⟩ := Token.parenOpen?_eq_some.1 ha
        obtain ⟨inner, u, hinner, h⟩ := ParseM.bind_eq_ok h
        obtain ⟨d, hd, rfl, -⟩ := ih (n := expression) hinner
        obtain ⟨close, u', hclose, h⟩ := ParseM.bind_eq_ok h
        cases h
        obtain ⟨token, hc, hu⟩ := expect_eq_ok hclose
        obtain ⟨rfl, -⟩ := Token.parenClose?_eq_some.1 hc
        refine ⟨.nested d, ?_, rfl, ends_factor _⟩
        rw [hl, hd, hu, Derivation.sentence, List.cons_append, List.append_assoc,
          List.singleton_append]
      · rw [hs] at ht
        cases ht
        obtain ⟨number, u, hnumber, h⟩ := ParseM.bind_eq_ok h
        cases h
        obtain ⟨token, hk, hu⟩ := expect_eq_ok hnumber
        obtain ⟨k, rfl, rfl⟩ := Token.decimal?_eq_some.1 hk
        refine ⟨.number k, ?_, rfl, ends_factor _⟩
        rw [← hl, hu]
        rfl

/-- A phrase in front of a stream is read, and nothing after it. -/
theorem readWithin_of_derivation {n : Nonterminal} (d : Derivation n) (depth : Nat)
    (hs : upcoming s = d.sentence ++ rest) (hend : n.Ends rest)
    (hdepth : 3 * (upcoming s).length + n.level ≤ depth) :
    ∃ s', n.readWithin depth s = .ok d.postorder s' ∧ upcoming s' = rest := by
  induction d generalizing s rest depth with
  | sum left right ihl ihr =>
    cases depth with
    | zero => simp [level] at hdepth
    | succ depth =>
      simp only [level] at hdepth
      rw [Derivation.sentence, List.append_assoc, List.cons_append] at hs
      have hlength := congrArg List.length hs
      simp only [List.length_append, List.length_cons] at hlength
      obtain ⟨t, hleft, ht⟩ := ihl depth hs (ends_cons.2 rfl) (by simp only [level]; omega)
      refine chain_of_operator hleft ht rfl fun t' ht' ↦ ?_
      refine ihr depth ht' hend ?_
      rw [ht', List.length_append, level]
      omega
  | single term ih =>
    cases depth with
    | zero => simp [level] at hdepth
    | succ depth =>
      simp only [level] at hdepth
      obtain ⟨hterm, hplus⟩ := ends_expression_iff.1 hend
      obtain ⟨t, hleft, rfl⟩ := ih depth hs hterm (by simp only [level]; omega)
      exact chain_of_end hleft hplus
  | product left right ihl ihr =>
    cases depth with
    | zero => simp [level] at hdepth
    | succ depth =>
      simp only [level] at hdepth
      rw [Derivation.sentence, List.append_assoc, List.cons_append] at hs
      have hlength := congrArg List.length hs
      simp only [List.length_append, List.length_cons] at hlength
      obtain ⟨t, hleft, ht⟩ := ihl depth hs (ends_factor _) (by simp only [level]; omega)
      refine chain_of_operator hleft ht rfl fun t' ht' ↦ ?_
      refine ihr depth ht' hend ?_
      rw [ht', List.length_append, level]
      omega
  | lone factor ih =>
    cases depth with
    | zero => simp [level] at hdepth
    | succ depth =>
      simp only [level] at hdepth
      obtain ⟨t, hleft, rfl⟩ := ih depth hs (ends_factor _) (by simp only [level]; omega)
      exact chain_of_end hleft (ends_term_iff.1 hend)
  | nested inner ih =>
    cases depth with
    | zero => simp [level] at hdepth
    | succ depth =>
      simp only [level] at hdepth
      rw [Derivation.sentence, List.cons_append, List.append_assoc, List.singleton_append] at hs
      obtain ⟨t, hopen, ht⟩ := accept?_of_head Token.parenOpen? hs rfl
      rw [hs, List.length_cons, ← ht] at hdepth
      obtain ⟨u, hinner, hu⟩ := ih depth ht (ends_cons.2 rfl) (by simp only [level]; omega)
      obtain ⟨s', hclose, hs'⟩ := expect_of_head Token.parenClose? hu rfl
      refine ⟨s', ?_, hs'⟩
      refine (ParseM.bind_of_ok hopen).trans ?_
      exact (ParseM.bind_of_ok (x := expressionWithin depth) hinner).trans
        (ParseM.bind_of_ok hclose)
  | number k =>
    cases depth with
    | zero => simp [level] at hdepth
    | succ depth =>
      have hnone : ∀ token ∈ (upcoming s).head?, token.parenOpen? = none := by
        simp [hs, Derivation.sentence, Token.parenOpen?]
      obtain ⟨t, hopen, ht⟩ := accept?_of_not Token.parenOpen? hnone
      obtain ⟨s', hnumber, hs'⟩ := expect_of_head Token.decimal? (ht.trans hs) rfl
      refine ⟨s', ?_, hs'⟩
      exact (ParseM.bind_of_ok hopen).trans (ParseM.bind_of_ok hnumber)

variable {n : Nonterminal}

theorem le_sufficientDepth (n : Nonterminal) (s : Lookahead Token) :
    3 * (upcoming s).length + n.level ≤ sufficientDepth s := by
  have hsize : (upcoming s).length ≤ s.size := Lookahead.length_toList_le
  have hlevel : n.level ≤ 3 := by
    cases n with
    | _ => decide
  unfold sufficientDepth
  omega

theorem read_of_derivation (d : Derivation n) (hs : upcoming s = d.sentence ++ rest)
    (hend : n.Ends rest) : ∃ s', n.read s = .ok d.postorder s' ∧ upcoming s' = rest := by
  rw [read_eq]
  exact readWithin_of_derivation d _ hs hend (n.le_sufficientDepth s)

/-- Reading succeeds exactly if the stream begins with a phrase of the grammar that may end where
it does. There is then one such phrase with one derivation tree. Just its tokens are taken, and the
result is the postorder of the tree. Otherwise the stream is rejected. -/
theorem read_recognizes (n : Nonterminal) (s : Lookahead Token) :
    ((∃ tokens s', n.read s = .ok tokens s') ↔
      ∃ (d : Derivation n) (rest : List Token),
        s.toList Token.scanner = d.sentence ++ rest ∧ n.Ends rest) ∧
    (∀ (d : Derivation n) (rest : List Token),
      s.toList Token.scanner = d.sentence ++ rest → n.Ends rest →
        (∃ s', n.read s = .ok d.postorder s' ∧ s'.toList Token.scanner = rest ∧
          (s'.peek Token.scanner).1 = rest.head?) ∧
        ∀ (e : Derivation n) (rest' : List Token),
          s.toList Token.scanner = e.sentence ++ rest' → n.Ends rest' → e = d ∧ rest' = rest) ∧
    ((¬ ∃ (d : Derivation n) (rest : List Token),
        s.toList Token.scanner = d.sentence ++ rest ∧ n.Ends rest) →
      ∃ s', n.read s = .error .unexpectedToken s') := by
  have hiff : (∃ tokens s', n.read s = .ok tokens s') ↔
      ∃ (d : Derivation n) (rest : List Token), upcoming s = d.sentence ++ rest ∧ n.Ends rest := by
    constructor
    · rintro ⟨tokens, s', h⟩
      rw [read_eq] at h
      obtain ⟨d, hd, -, hend⟩ := derivation_of_readWithin h
      exact ⟨d, _, hd, hend⟩
    · rintro ⟨d, rest, hd, hend⟩
      obtain ⟨s', h, -⟩ := read_of_derivation d hd hend
      exact ⟨_, s', h⟩
  refine ⟨hiff, fun d rest hd hend ↦ ⟨?_, fun e rest' he hend' ↦ ?_⟩, fun hnone ↦ ?_⟩
  · obtain ⟨s', h, hs'⟩ := read_of_derivation d hd hend
    exact ⟨s', h, hs', Lookahead.peek_eq.trans (congrArg List.head? hs')⟩
  · exact e.eq_of_sentence_append d (he.symm.trans hd) hend' hend
  · cases h : n.read s with
    | ok tokens s' => exact absurd (hiff.1 ⟨tokens, s', h⟩) hnone
    | error e s' => exact ⟨s', rfl⟩

end Nonterminal

end PepAsm.Formula
