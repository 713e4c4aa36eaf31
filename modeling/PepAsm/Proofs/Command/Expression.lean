import PepAsm.Command.Run
import PepAsm.Proofs.Formula.ClosedCode

namespace PepAsm.Formula

open PepAsm.Scan

variable {text : List Char} {tokens rest : List Token}

theorem parse_of_sentence (d : Derivation .expression)
    (h : Token.scanner.tokens text = d.sentence ++ rest) (hend : Nonterminal.expression.Ends rest) :
    parse text = .ok d.postorder := by
  obtain ⟨s, hread, -⟩ := Nonterminal.read_of_derivation (s := .ofText text) d h hend
  have hexpression : expression (.ofText text) = .ok d.postorder s := hread
  rw [parse, hexpression]

theorem sentence_of_parse (h : parse text = .ok tokens) :
    ∃ (d : Derivation .expression) (rest : List Token),
      Token.scanner.tokens text = d.sentence ++ rest ∧ Nonterminal.expression.Ends rest ∧
        tokens = d.postorder := by
  unfold parse at h
  split at h
  · rename_i result s hread
    cases h
    have hwithin := (Nonterminal.expression.read_eq (.ofText text)).symm.trans hread
    obtain ⟨d, hd, hpostorder, hend⟩ := Nonterminal.derivation_of_readWithin hwithin
    exact ⟨d, upcoming s, hd, hend, hpostorder⟩
  · contradiction

end PepAsm.Formula

namespace PepAsm.Command

open PepAsm.Text PepAsm.Formula

def formulaTokens (text : String) : List Formula.Token :=
  Formula.Token.scanner.tokens (endLine text)

/-- The text begins with an expression that may end where `rest` begins. -/
def BeginsWith (text : String) (d : Derivation .expression) (rest : List Formula.Token) : Prop :=
  formulaTokens text = d.sentence ++ rest ∧ Nonterminal.expression.Ends rest

/-- The text is an expression and the end of its line, and nothing else. -/
def IsWhole (text : String) : Prop :=
  ∃ d : Derivation .expression, formulaTokens text = d.sentence ++ [.empty]

def isShowable : Formula.Token → Bool
  | .decimal n => (digits 10 n.natAbs).length ≤ 4300
  | _ => true

variable {text : String}

theorem shownToken_eq (token : Formula.Token) :
    shownToken token = if isShowable token then .ok token.text else .error .tooManyDigits := by
  cases token with
  | decimal n => simp [shownToken, shownDecimal, isShowable, Formula.Token.text]
  | _ => rfl

theorem mapM_shownToken (tokens : List Formula.Token) :
    tokens.mapM shownToken =
      if tokens.all isShowable then .ok (tokens.map Formula.Token.text)
      else .error .tooManyDigits := by
  induction tokens with
  | nil => rfl
  | cons token tokens ih =>
    rw [List.mapM_cons, shownToken_eq, ih, List.all_cons]
    cases isShowable token with
    | false => rfl
    | true =>
      cases tokens.all isShowable with
      | _ => rfl

/-- Compiled code has no faults to report, so it is always listed. -/
theorem runExprcode_of_parse {tokens : List Formula.Token}
    (h : Formula.parse (endLine text) = .ok tokens) :
    runExprcode text = writeListing ((compile tokens).image 0) := by
  unfold runExprcode
  rw [h]
  dsimp only
  rw [faults_compile]
  rfl

theorem runExpr_of_parse {tokens : List Formula.Token}
    (h : Formula.parse (endLine text) = .ok tokens) :
    runExpr text =
      if tokens.all isShowable then { output := unlines [postfixText tokens] }
      else .failed .tooManyDigits := by
  unfold runExpr
  simp only [h, mapM_shownToken]
  cases tokens.all isShowable with
  | _ => rfl

section Front

variable {d e : Derivation .expression} {rest rest' : List Formula.Token}

theorem BeginsWith.parse_eq (h : BeginsWith text d rest) :
    Formula.parse (endLine text) = .ok d.postorder :=
  parse_of_sentence d h.1 h.2

theorem parse_of_not_beginsWith (h : ¬ ∃ d rest, BeginsWith text d rest) :
    Formula.parse (endLine text) = .error .unexpectedToken := by
  cases hparse : Formula.parse (endLine text) with
  | ok tokens =>
    obtain ⟨d, rest, hd, hend, -⟩ := sentence_of_parse hparse
    exact absurd ⟨d, rest, hd, hend⟩ h
  | error e => rfl

theorem BeginsWith.eq (hd : BeginsWith text d rest) (he : BeginsWith text e rest') :
    d = e ∧ rest = rest' :=
  d.eq_of_sentence_append e (hd.1.symm.trans he.1) hd.2 he.2

theorem isWhole_iff (h : BeginsWith text d rest) : IsWhole text ↔ rest = [.empty] := by
  constructor
  · rintro ⟨e, he⟩
    exact (h.eq ⟨he, Nonterminal.ends_cons.2 rfl⟩).2
  · rintro rfl
    exact ⟨d, h.1⟩

end Front

/-- Both jobs read the expression in front of a text and ignore what comes after it. Only a text
without an expression in front is rejected. So whether a text is accepted says whether it is a
whole expression exactly if there is nothing to ignore. -/
theorem runExpr_reads_front (text : String) :
    (∀ d rest, BeginsWith text d rest →
      Formula.parse (endLine text) = .ok d.postorder ∧
      runExpr text =
        (if d.postorder.all isShowable then { output := unlines [postfixText d.postorder] }
        else .failed .tooManyDigits) ∧
      runExprcode text = writeListing ((compile d.postorder).image 0)) ∧
    ((¬ ∃ d rest, BeginsWith text d rest) →
      Formula.parse (endLine text) = .error .unexpectedToken ∧
      runExpr text = .failed (.unreadable none) ∧
      runExprcode text = .failed (.unreadable none)) ∧
    (((∃ tokens, Formula.parse (endLine text) = .ok tokens) ↔ IsWhole text) ↔
      ∀ d rest, BeginsWith text d rest → rest = [.empty]) := by
  refine ⟨fun d rest h ↦ ?_, fun hnone ↦ ?_, ?_⟩
  · exact ⟨h.parse_eq, runExpr_of_parse h.parse_eq, runExprcode_of_parse h.parse_eq⟩
  · have hparse := parse_of_not_beginsWith hnone
    refine ⟨hparse, ?_, ?_⟩
    · unfold runExpr
      rw [hparse]
    · unfold runExprcode
      rw [hparse]
  · constructor
    · intro hiff d rest h
      apply (isWhole_iff h).1
      apply hiff.1
      exact ⟨_, h.parse_eq⟩
    · intro hall
      constructor
      · rintro ⟨tokens, hparse⟩
        obtain ⟨d, rest, hd, hend, -⟩ := sentence_of_parse hparse
        exact (isWhole_iff ⟨hd, hend⟩).2 (hall d rest ⟨hd, hend⟩)
      · rintro ⟨d, hd⟩
        exact ⟨_, parse_of_sentence d hd (Nonterminal.ends_cons.2 rfl)⟩

/-- Of two numbers side by side the second is ignored. -/
theorem runExpr_accepts_leftover :
    formulaTokens "1 2" = [.decimal 1, .decimal 2, .empty] ∧ ¬ IsWhole "1 2" ∧
      runExpr "1 2" = { output := "1\n" } ∧ runExprcode "1 2" = runExprcode "1" := by
  have htokens : formulaTokens "1 2" = [.decimal 1, .decimal 2, .empty] := by decide +kernel
  have hone : formulaTokens "1" = [.decimal 1, .empty] := by decide +kernel
  have hfront : BeginsWith "1 2" (.single (.lone (.number 1))) [.decimal 2, .empty] :=
    ⟨htokens, Nonterminal.ends_cons.2 rfl⟩
  have hwhole : BeginsWith "1" (.single (.lone (.number 1))) [.empty] :=
    ⟨hone, Nonterminal.ends_cons.2 rfl⟩
  refine ⟨htokens, ?_, ?_, ?_⟩
  · rw [isWhole_iff hfront]
    decide
  · rw [runExpr_of_parse hfront.parse_eq]
    decide +kernel
  · rw [runExprcode_of_parse hfront.parse_eq, runExprcode_of_parse hwhole.parse_eq]

end PepAsm.Command
