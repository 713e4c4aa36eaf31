import PepAsm.Command.Run
import PepAsm.Workload.Formula
import PepAsm.Workload.Program

namespace PepAsm.Workload

open PepAsm.Text

def commandOutput (n : Int) : Report :=
  let program := unlines (sampleLines n)
  .number ((Command.runLex program).output.length +
    (Command.runParser program).output.length : Nat)

inductive Kind
  | signedDecimals
  | identifiers
  | formulaTokens
  | postfixSum
  | compiledSum
  | programTokens
  | programLines
  | programCode
  | variedLines
  | opcodeSum
  | macroTexts
  | symbolEntries
  | streamWords
  | commandOutput
deriving Repr, DecidableEq

def Kind.defaultSize : Kind → Int
  | signedDecimals | identifiers => 3000
  | formulaTokens => 2000
  | compiledSum => 60
  | symbolEntries => 2500
  | opcodeSum => 4000
  | streamWords => 6000
  | _ => 200

def Kind.run (kind : Kind) (size : Option Int) : Except Failure Report :=
  let n := size.getD kind.defaultSize
  match kind with
  | signedDecimals => .ok (Workload.signedDecimals n)
  | identifiers => Workload.identifiers n
  | formulaTokens => .ok (Workload.formulaTokens n)
  | postfixSum => Workload.postfixSum n
  | compiledSum => Workload.compiledSum n
  | programTokens => .ok (Workload.programTokens n)
  | programLines => Workload.programLines n
  | programCode => Workload.programCode n
  | variedLines => .ok (Workload.variedLines n)
  | opcodeSum => Workload.opcodeSum n
  | macroTexts => .ok (Workload.macroTexts n)
  | symbolEntries => Workload.symbolEntries n
  | streamWords => .ok (Workload.streamWords n)
  | commandOutput => .ok (Workload.commandOutput n)

end PepAsm.Workload
