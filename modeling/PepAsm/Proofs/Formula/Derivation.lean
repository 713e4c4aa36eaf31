import PepAsm.Formula.Token

namespace PepAsm.Formula

inductive Nonterminal
  | expression
  | term
  | factor
deriving Repr, DecidableEq

def Nonterminal.goesOn : Nonterminal → Token → Bool
  | .expression, .plus | .expression, .times | .term, .times => true
  | _, _ => false

/-- A phrase may end before these tokens. -/
def Nonterminal.Ends (n : Nonterminal) (rest : List Token) : Prop :=
  ∀ token ∈ rest.head?, n.goesOn token = false

/-- The derivation trees of `E → T + E | T`, `T → F * T | F` and `F → ( E ) | decimal`. -/
inductive Derivation : Nonterminal → Type
  | sum (left : Derivation .term) (right : Derivation .expression) : Derivation .expression
  | single (term : Derivation .term) : Derivation .expression
  | product (left : Derivation .factor) (right : Derivation .term) : Derivation .term
  | lone (factor : Derivation .factor) : Derivation .term
  | nested (inner : Derivation .expression) : Derivation .factor
  | number (n : Int) : Derivation .factor

namespace Derivation

variable {n : Nonterminal}

def sentence {n : Nonterminal} : Derivation n → List Token
  | sum left right => left.sentence ++ .plus :: right.sentence
  | single term => term.sentence
  | product left right => left.sentence ++ .times :: right.sentence
  | lone factor => factor.sentence
  | nested inner => .parenOpen :: (inner.sentence ++ [.parenClose])
  | number n => [.decimal n]

/-- Operands from left to right, each operator after its two operands, and no parentheses. -/
def postorder {n : Nonterminal} : Derivation n → List Token
  | sum left right => left.postorder ++ right.postorder ++ [.plus]
  | single term => term.postorder
  | product left right => left.postorder ++ right.postorder ++ [.times]
  | lone factor => factor.postorder
  | nested inner => inner.postorder
  | number n => [.decimal n]

end Derivation

theorem Nonterminal.ends_cons {n : Nonterminal} {token : Token} {rest : List Token} :
    n.Ends (token :: rest) ↔ n.goesOn token = false := by
  simp [Ends]

theorem Nonterminal.Ends.term {rest : List Token} (h : expression.Ends rest) :
    term.Ends rest := by
  intro token ht
  have he := h token ht
  cases token with
  | times => contradiction
  | _ => rfl

theorem Nonterminal.ends_factor (rest : List Token) : factor.Ends rest := by
  intro token ht
  cases token with
  | _ => rfl

namespace Derivation

variable {n : Nonterminal} {rest rest' : List Token}

/-- The grammar is unambiguous, and a sentence that may end before the tokens after it is the only
one in front of them. -/
theorem eq_of_sentence_append (d e : Derivation n) (h : d.sentence ++ rest = e.sentence ++ rest')
    (hd : n.Ends rest) (he : n.Ends rest') : d = e ∧ rest = rest' := by
  induction d generalizing rest rest' with
  | sum left right ihl ihr =>
    cases e with
    | sum left' right' =>
      simp only [sentence, List.append_assoc, List.cons_append] at h
      obtain ⟨rfl, hright⟩ :=
        ihl left' h (Nonterminal.ends_cons.2 rfl) (Nonterminal.ends_cons.2 rfl)
      obtain ⟨rfl, rfl⟩ := ihr right' (List.cons.inj hright).2 hd he
      exact ⟨rfl, rfl⟩
    | single term =>
      simp only [sentence, List.append_assoc, List.cons_append] at h
      obtain ⟨-, rfl⟩ := ihl term h (Nonterminal.ends_cons.2 rfl) he.term
      exact absurd (Nonterminal.ends_cons.1 he) (by decide)
  | single term ih =>
    cases e with
    | sum left right =>
      simp only [sentence, List.append_assoc, List.cons_append] at h
      obtain ⟨-, rfl⟩ := ih left h hd.term (Nonterminal.ends_cons.2 rfl)
      exact absurd (Nonterminal.ends_cons.1 hd) (by decide)
    | single term' =>
      obtain ⟨rfl, rfl⟩ := ih term' h hd.term he.term
      exact ⟨rfl, rfl⟩
  | product left right ihl ihr =>
    cases e with
    | product left' right' =>
      simp only [sentence, List.append_assoc, List.cons_append] at h
      obtain ⟨rfl, hright⟩ := ihl left' h (Nonterminal.ends_factor _) (Nonterminal.ends_factor _)
      obtain ⟨rfl, rfl⟩ := ihr right' (List.cons.inj hright).2 hd he
      exact ⟨rfl, rfl⟩
    | lone factor =>
      simp only [sentence, List.append_assoc, List.cons_append] at h
      obtain ⟨-, rfl⟩ := ihl factor h (Nonterminal.ends_factor _) (Nonterminal.ends_factor _)
      exact absurd (Nonterminal.ends_cons.1 he) (by decide)
  | lone factor ih =>
    cases e with
    | product left right =>
      simp only [sentence, List.append_assoc, List.cons_append] at h
      obtain ⟨-, rfl⟩ := ih left h (Nonterminal.ends_factor _) (Nonterminal.ends_factor _)
      exact absurd (Nonterminal.ends_cons.1 hd) (by decide)
    | lone factor' =>
      obtain ⟨rfl, rfl⟩ := ih factor' h (Nonterminal.ends_factor _) (Nonterminal.ends_factor _)
      exact ⟨rfl, rfl⟩
  | nested inner ih =>
    cases e with
    | nested inner' =>
      simp only [sentence, List.append_assoc, List.cons_append, List.nil_append] at h
      obtain ⟨rfl, hclose⟩ := ih inner' (List.cons.inj h).2 (Nonterminal.ends_cons.2 rfl)
        (Nonterminal.ends_cons.2 rfl)
      exact ⟨rfl, (List.cons.inj hclose).2⟩
    | number k => cases (List.cons.inj h).1
  | number k =>
    cases e with
    | nested inner => cases (List.cons.inj h).1
    | number k' =>
      obtain ⟨hk, hr⟩ := List.cons.inj h
      cases hk
      exact ⟨rfl, hr⟩

end Derivation

end PepAsm.Formula
