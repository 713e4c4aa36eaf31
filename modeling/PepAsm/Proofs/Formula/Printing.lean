import PepAsm.Proofs.Formula.Parsing
import PepAsm.Proofs.Formula.Spelling

namespace PepAsm.Formula

open PepAsm.Scan

inductive Tree
  | number (n : Int)
  | sum (left right : Tree)
  | product (left right : Tree)
deriving Repr, DecidableEq

namespace Tree

def value : Tree → Int
  | number n => n
  | sum left right => left.value + right.value
  | product left right => left.value * right.value

def postorder : Tree → List Token
  | number n => [.decimal n]
  | sum left right => left.postorder ++ right.postorder ++ [.plus]
  | product left right => left.postorder ++ right.postorder ++ [.times]

/-- The ways to print a tree where the grammar has a phrase of some kind. A tree that is no such
phrase stands in parentheses, and any other may, as often as one likes. -/
inductive Prints : Nonterminal → Tree → List Token → Prop
  | number (place : Nonterminal) (n : Int) : Prints place (number n) [.decimal n]
  | sum {left right : Tree} {first second : List Token} (hl : Prints .term left first)
      (hr : Prints .expression right second) :
      Prints .expression (sum left right) (first ++ .plus :: second)
  | product {place : Nonterminal} {left right : Tree} {first second : List Token}
      (hplace : place ≠ .factor) (hl : Prints .factor left first)
      (hr : Prints .term right second) :
      Prints place (product left right) (first ++ .times :: second)
  | enclosed (place : Nonterminal) {t : Tree} {tokens : List Token}
      (h : Prints .expression t tokens) :
      Prints place t (.parenOpen :: (tokens ++ [.parenClose]))

def IsPrinted (t : Tree) (text : List Char) : Prop :=
  ∃ tokens, t.Prints .expression tokens ∧ Token.Written tokens text

end Tree

def applyToken : List Int → Token → Option (List Int)
  | stack, .decimal n => some (n :: stack)
  | b :: a :: stack, .plus => some ((a + b) :: stack)
  | b :: a :: stack, .times => some ((a * b) :: stack)
  | _, _ => none

def evaluate (tokens : List Token) (stack : List Int) : Option (List Int) :=
  tokens.foldlM applyToken stack

namespace Derivation

def ofFactor (d : Derivation .factor) : (n : Nonterminal) → Derivation n
  | .expression => .single (.lone d)
  | .term => .lone d
  | .factor => d

theorem sentence_ofFactor (d : Derivation .factor) (n : Nonterminal) :
    (d.ofFactor n).sentence = d.sentence := by
  cases n with
  | _ => rfl

theorem postorder_ofFactor (d : Derivation .factor) (n : Nonterminal) :
    (d.ofFactor n).postorder = d.postorder := by
  cases n with
  | _ => rfl

theorem isChain_sentence {n : Nonterminal} (d : Derivation n) :
    d.sentence.IsChain Token.Apart := by
  induction d with
  | sum left right ihl ihr => exact Token.isChain_around rfl ihl ihr
  | single term ih => exact ih
  | product left right ihl ihr => exact Token.isChain_around rfl ihl ihr
  | lone factor ih => exact ih
  | nested inner ih =>
    have hinner := Token.isChain_around (show Token.parenClose.decimal? = none from rfl) ih .nil
    exact Token.isChain_around (show Token.parenOpen.decimal? = none from rfl) .nil hinner
  | number n => exact .singleton _

end Derivation

namespace Tree

variable {t : Tree} {place : Nonterminal} {tokens : List Token}

theorem Prints.exists_derivation (h : t.Prints place tokens) :
    ∃ d : Derivation place, d.sentence = tokens ∧ d.postorder = t.postorder := by
  induction h with
  | number place n =>
    refine ⟨(Derivation.number n).ofFactor place, ?_, ?_⟩
    · exact Derivation.sentence_ofFactor _ _
    · exact Derivation.postorder_ofFactor _ _
  | sum hl hr ihl ihr =>
    obtain ⟨d, rfl, hd⟩ := ihl
    obtain ⟨e, rfl, he⟩ := ihr
    refine ⟨.sum d e, rfl, ?_⟩
    rw [Derivation.postorder, Tree.postorder, hd, he]
  | @product place left right _ _ hplace hl hr ihl ihr =>
    obtain ⟨d, rfl, hd⟩ := ihl
    obtain ⟨e, rfl, he⟩ := ihr
    have hpostorder : (Derivation.product d e).postorder = (Tree.product left right).postorder := by
      rw [Derivation.postorder, Tree.postorder, hd, he]
    cases place with
    | expression => exact ⟨.single (.product d e), rfl, hpostorder⟩
    | term => exact ⟨.product d e, rfl, hpostorder⟩
    | factor => exact absurd rfl hplace
  | enclosed place h ih =>
    obtain ⟨d, rfl, hd⟩ := ih
    refine ⟨(Derivation.nested d).ofFactor place, ?_, ?_⟩
    · exact Derivation.sentence_ofFactor _ _
    · exact (Derivation.postorder_ofFactor _ _).trans hd

theorem exists_prints (t : Tree) (place : Nonterminal) : ∃ tokens, t.Prints place tokens := by
  -- a tree in parentheses fits everywhere, so it is enough to print it as an expression
  suffices h : ∃ tokens, t.Prints .expression tokens by
    obtain ⟨tokens, h⟩ := h
    exact ⟨_, .enclosed place h⟩
  induction t with
  | number n => exact ⟨_, .number _ n⟩
  | sum left right ihl ihr =>
    obtain ⟨first, hl⟩ := ihl
    obtain ⟨second, hr⟩ := ihr
    exact ⟨_, .sum (.enclosed _ hl) hr⟩
  | product left right ihl ihr =>
    obtain ⟨first, hl⟩ := ihl
    obtain ⟨second, hr⟩ := ihr
    exact ⟨_, .product nofun (.enclosed _ hl) (.enclosed _ hr)⟩

theorem Prints.spells (h : t.Prints place tokens) :
    ∀ token ∈ tokens, ∃ spelled, Token.Spells token spelled := by
  induction h with
  | number place n => simpa using ⟨_, .decimal n⟩
  | sum hl hr ihl ihr =>
    exact List.forall_mem_append.2 ⟨ihl, List.forall_mem_cons.2 ⟨⟨_, .plus⟩, ihr⟩⟩
  | product hplace hl hr ihl ihr =>
    exact List.forall_mem_append.2 ⟨ihl, List.forall_mem_cons.2 ⟨⟨_, .times⟩, ihr⟩⟩
  | enclosed place h ih =>
    have hclose : ∀ token ∈ [Token.parenClose], ∃ spelled, Token.Spells token spelled := by
      simpa using ⟨_, .parenClose⟩
    exact List.forall_mem_cons.2 ⟨⟨_, .parenOpen⟩, List.forall_mem_append.2 ⟨ih, hclose⟩⟩

theorem evaluate_postorder (t : Tree) (stack : List Int) :
    evaluate t.postorder stack = some (t.value :: stack) := by
  unfold evaluate
  induction t generalizing stack with
  | number n => rfl
  | sum left right ihl ihr =>
    rw [postorder, List.foldlM_append, List.foldlM_append, ihl]
    simp [ihr, applyToken, value]
  | product left right ihl ihr =>
    rw [postorder, List.foldlM_append, List.foldlM_append, ihl]
    simp [ihr, applyToken, value]

/-- Every tree can be printed. However it is printed, the line is read to its end as the postorder
of the tree, and a machine with a stack computes just the value of the tree from that. -/
theorem expression_of_isPrinted (t : Tree) :
    (∃ text, t.IsPrinted text) ∧
    ∀ text, t.IsPrinted text →
      ∃ s, expression (.ofText (text ++ ['\n'])) = .ok t.postorder s ∧
        (s.peek Token.scanner).1 = some .empty ∧ s.toList Token.scanner = [.empty] ∧
        evaluate t.postorder [] = some [t.value] := by
  constructor
  · obtain ⟨tokens, hp⟩ := t.exists_prints .expression
    obtain ⟨text, hw⟩ := Token.exists_written hp.spells
    exact ⟨text, tokens, hp, hw⟩
  · rintro text ⟨tokens, hp, hw⟩
    obtain ⟨d, rfl, hd⟩ := hp.exists_derivation
    have htokens : upcoming (.ofText (text ++ ['\n'])) = d.sentence ++ [.empty] :=
      hw.tokens_eq d.isChain_sentence
    obtain ⟨s, hread, hs⟩ := Nonterminal.read_of_derivation d htokens (Nonterminal.ends_cons.2 rfl)
    rw [hd] at hread
    refine ⟨s, hread, ?_, hs, t.evaluate_postorder []⟩
    rw [Lookahead.peek_eq]
    exact congrArg List.head? hs

theorem expression_of_isPrinted_signs :
    IsPrinted
        (sum (sum (number (-3)) (number 2)) (product (number 12) (sum (number 1) (number (-4)))))
        "\t(-3 +2)+ 12*( (1+-4)) ".toList ∧
      ∃ s, expression (.ofText "\t(-3 +2)+ 12*( (1+-4)) \n".toList) =
          .ok [.decimal (-3), .decimal 2, .plus, .decimal 12, .decimal 1, .decimal (-4), .plus,
            .times, .plus] s ∧
        (s.peek Token.scanner).1 = some .empty ∧
        evaluate [.decimal (-3), .decimal 2, .plus, .decimal 12, .decimal 1, .decimal (-4), .plus,
          .times, .plus] [] = some [-37] := by
  have hinner : (sum (number 1) (number (-4))).Prints .expression _ :=
    .sum (.number .term 1) (.number .expression (-4))
  have hleft : (sum (number (-3)) (number 2)).Prints .term _ :=
    .enclosed .term (.sum (.number .term (-3)) (.number .expression 2))
  have hright : (product (number 12) (sum (number 1) (number (-4)))).Prints .expression _ :=
    .product nofun (.number .factor 12) (.enclosed .term (.enclosed .expression hinner))
  have hnone : ∀ c ∈ [], isGap c = true := nofun
  have hblank : ∀ c ∈ [' '], isGap c = true := List.forall_mem_singleton.2 rfl
  have htab : ∀ c ∈ ['\t'], isGap c = true := List.forall_mem_singleton.2 rfl
  have hw := Token.Written.token htab .parenOpen <| .token hnone (.decimal (-3)) <|
    .token hblank .plus <| .token hnone (.decimal 2) <| .token hnone .parenClose <|
    .token hnone .plus <| .token hblank (.decimal 12) <| .token hnone .times <|
    .token hnone .parenOpen <| .token hblank .parenOpen <| .token hnone (.decimal 1) <|
    .token hnone .plus <| .token hnone (.decimal (-4)) <| .token hnone .parenClose <|
    .token hnone .parenClose <| .gap hblank
  have hprinted : IsPrinted _ "\t(-3 +2)+ 12*( (1+-4)) ".toList := ⟨_, .sum hleft hright, hw⟩
  obtain ⟨s, hs, hempty, -, hvalue⟩ := (expression_of_isPrinted _).2 _ hprinted
  exact ⟨hprinted, s, hs, hempty, hvalue⟩

end Tree

end PepAsm.Formula
