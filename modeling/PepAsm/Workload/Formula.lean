import PepAsm.Formula.Compiler
import PepAsm.Formula.Parser
import PepAsm.Workload.Parts

namespace PepAsm.Workload

open PepAsm.Assembly

def formulaKinds (text : String) : List Report :=
  (Formula.Token.scanner.tokens text.toList).map fun t ↦ .text t.kind

/-- The kinds of the tokens of a long sum, of a text with tokens that are invalid, and the
notations of the tokens that have none. -/
def formulaTokens (n : Int) : Report :=
  let sum := "+".intercalate (List.replicate (blocks 20 n) "(1+2)*(3+4*5)+6*7")
  let silent : List Formula.Token := [.empty, .invalid, .parenOpen, .parenClose]
  .list (formulaKinds sum ++ formulaKinds "-x ? -12" ++ silent.map fun t ↦ .text t.text)

def sumText (n : Int) : String :=
  "+".intercalate ((List.range n.toNat).map fun (i : Nat) ↦
    "(" ++ Text.decimal i ++ "*" ++ Text.decimal (i + 1) ++ "+" ++ Text.decimal (i + 2) ++ ")")

def readSum (n : Int) : Except Failure (List Formula.Token) :=
  (Formula.parse (sumText n).toList).mapError fun _ ↦ .unreadable

def postfixSum (n : Int) : Except Failure Report := do
  let tokens ← readSum n
  let shown := (Formula.postfixText tokens).toList.take 64
  return .list [.number tokens.length, .text (String.ofList shown)]

def compiledSum (n : Int) : Except Failure Report := do
  let image := (Formula.compile (← readSum n)).image 0
  let listing ← image.listing.mapError .listing
  match image.source.head?, image.source.getLast? with
  | some first, some last =>
    return .list [.number image.lines.length, .text first, .text last, .number listing.length]
  | _, _ => throw .noItems

end PepAsm.Workload
