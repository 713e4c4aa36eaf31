import PepAsm.Assembly.Reading
import PepAsm.Workload.Parts

namespace PepAsm.Workload

open PepAsm.Assembly PepAsm.Scan PepAsm.Text

def tokenKinds (text : String) : List Report :=
  (Token.scanner.tokens text.toList).map fun t ↦ .text t.kind

def sampleHeader : List String :=
  ["; sample Pep/10 program", ""]

def sampleBlock : List String :=
  ["LDWA 0x00ff,d", "ADDA 5,i ;add", "SUBA 3,i", "STWA 0x0100,d", "LDWX 2,i",
   "LDBA 0x0010,x", "ANDA 15,i", "STBA charOut,d", "STBA 0x0020,n", "ORA 1,i", "ADDSP 4,i",
   "LDWA 2,s", "STWA 0x0004,sf", "LDBX 0x0020,sx", "loop: BR loop,i"]

def sampleLines (n : Int) : List String :=
  sampleHeader ++ (List.replicate (blocks sampleBlock.length n) sampleBlock).flatten

/-- Lines of which the first three can be read and the others cannot. -/
def sampleFaults : List String :=
  ["STBA pwrOff,d", "; done", "SUBSP 2,i", "LDWY 1,i", "LDWA ,i", "LDWA 0x10000,i", "STWA 1,i",
   ", 5"]

def sampleProgram (n : Int) : Program :=
  Assembly.parse (unlines (sampleLines n ++ sampleFaults)) .system

/-- The kinds of the tokens of a program and of some numbers, and the first token of a second
line. -/
def programTokens (n : Int) : Report :=
  let numbers := "0 07 0x1F 0xZ +5 -5 +a ?\n;end"
  let second := (Assembly.Token.scanner.next? (afterLine "skipped line\nLDWA 0,i".toList)).map
    fun (t, _) ↦ Report.token t
  .list (tokenKinds (unlines (sampleLines n)) ++ tokenKinds numbers ++ second.toList)

def programLines (n : Int) : Except Failure Report :=
  let program := sampleProgram n
  match program.lines.head?, program.lines.getLast? with
  | some first, some last =>
    .ok (.list [.number program.lines.length, .text first.describe, .text last.describe,
      .flag (program.symbols.contains "charIn"), .text "charIn"])
  | _, _ => .error .noItems

def shortProgram : Program :=
  Assembly.parse (unlines ["; short", "start: LDWA 1,i", "ADDA 2,i", "STWA 0x0010,d", "LDWX 0,i",
    "", "BREQ start,i", "STBA pwrOff,d"]) .system

/-- The sizes of the object code and the listing of a short program, the size of a long one, and
the size and the text of its first instruction. -/
def programCode (n : Int) : Except Failure Report := do
  let short := shortProgram.image 0
  let code ← short.objectCode.mapError .encode
  let listing ← short.listing.mapError .listing
  let long := (sampleProgram n).image 0
  match long.codeLines.head? with
  | some first =>
    return .list [.number code.length, .number listing.length, .number long.lines.length,
      .number first.size, .text first.source]
  | none => throw .noItems

def variedLine (i : Nat) : CodeLine :=
  match i % 5 with
  | 0 =>
    { body := .dyadic .ldwa (.decimal i) .immediate, symbol := some "foo", comment := some "c" }
  | 1 => { body := .dyadic .stwa (.hexadecimal i) .direct }
  | 2 => { body := .dyadic .br (.symbol "foo") .indexed }
  | 3 => { body := .monadic .ret, symbol := some "foo", comment := some "c" }
  | _ => { body := .monadic .nop }

def isDyadic (line : CodeLine) : Bool :=
  match line.body with
  | .dyadic .. => true
  | _ => false

/-- The descriptions and the texts of instructions of every shape, those with an operand first,
each at the address that is its size. -/
def variedLines (n : Int) : Report :=
  let lines := (List.range n.toNat).map variedLine
  let (dyadic, monadic) := lines.partition isDyadic
  .list ((dyadic ++ monadic).flatMap fun line ↦
    let placed := { line with address := some line.size }
    [.text placed.describe, .text placed.source])

end PepAsm.Workload
