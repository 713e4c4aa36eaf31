import PepAsm.Assembly.Line
import PepAsm.Assembly.Token
import PepAsm.Macro
import PepAsm.Recognizer.Identifier
import PepAsm.Recognizer.SignedDecimal
import PepAsm.Scan.Lookahead

namespace PepAsm.Workload

open PepAsm.Assembly PepAsm.Instruction PepAsm.Recognizer PepAsm.Scan PepAsm.Text

inductive Report
  | nothing
  | flag (b : Bool)
  | number (n : Int)
  | text (s : String)
  | token (t : Assembly.Token)
  | list (items : List Report)

inductive Failure
  | noItems
  | unreadable
  | encode (e : EncodeError)
  | listing (e : ListingError)
deriving Repr, DecidableEq

def cycle {α : Type} (items : List α) (n : Int) : List α :=
  (List.range n.toNat).filterMap fun i ↦ items[i % items.length]?

def blocks (size : Nat) (n : Int) : Nat :=
  max 1 (n / size).toNat

def numberTexts : List String :=
  ["123456", "+98765", "-42", "7", "0", "+0", "-0", "009",
   "", "+", "-", "abc", "12a", "--0", "1 2"]

def verdictReport : Verdict → Report
  | .accepted n => .list [.flag true, .number n]
  | .rejected | .valueless _ => .list [.flag false, .nothing]

def signedDecimals (n : Int) : Report :=
  .list ((cycle numberTexts n).map fun s ↦ verdictReport (SignedDecimal.recognize s))

def nameTexts : List String :=
  ["name", "x1", "1st", "total", "a9b", "2nd", "Main", "loop9", "3rd", "z"]

def identifiers (n : Int) : Except Failure Report :=
  match cycle nameTexts n with
  | [] => .error .noItems
  | texts => .ok (.number (texts.filter Identifier.accepts).length)

def variedMode (m : Mnemonic) (i : Nat) : Option Mode :=
  if m.format = .branch then some (if i % 2 = 0 then .immediate else .indexed)
  else Mode.all[i % Mode.all.length]?

def byteSum (bytes : List UInt8) : Nat :=
  bytes.foldl (fun n b ↦ n + b.toNat) 0

/-- The sum of all mode fields, one more for the modes without a short field, and the sum of the
first bytes of a row of instructions. -/
def opcodeSum (n : Int) : Except Failure Report := do
  let fields := byteSum (Mode.all.map Mode.field)
  let short := byteSum (Mode.all.filterMap Mode.shortField?)
  let missing := if Mode.all.all fun m ↦ m.shortField?.isSome then 0 else 1
  let row := (cycle Mnemonic.all n).zipIdx
  let opcodes ← row.mapM fun (m, i) ↦ (m.encode (variedMode m i)).mapError fun e ↦ .encode (.mode e)
  return .number (fields + short + missing + byteSum opcodes : Nat)

def macroArguments : List (List String) :=
  [["0x10", "d"], ["5", "i"], ["var", "s"], ["0", "n"]]

def instantiationReport : Except MacroError String → Report
  | .ok text => .text text
  | .error _ => .text "err"

def macroTexts (n : Int) : Report :=
  let registry := MacroRegistry.empty.addSystem.insert "PUSH" ⟨2, "SUBSP $1,i\nSTWA $2,s\n"⟩
  let calls := (cycle MacroRegistry.systemNames n).zip (cycle macroArguments n)
  .list (calls.map (fun (name, arguments) ↦
      instantiationReport (registry.instantiate name arguments)) ++
    [instantiationReport (registry.instantiate "PUSH" ["2", "0"]),
     .flag (registry.contains "PUSH"),
     instantiationReport (registry.instantiate "PUSH" [])])

def symbolEntries (n : Int) : Except Failure Report :=
  let names := (List.range n.toNat).map fun (i : Nat) ↦ "sym" ++ Text.decimal i
  match names with
  | [] => .error .noItems
  | first :: _ =>
    let table := names.foldl SymbolTable.define .system
    let table := (table.define first).setValue first (some 7)
    match table.get? first with
    | none => .error .noItems
    | some symbol =>
      .ok (.list [.number (names.filter table.contains).length, .flag (table.contains "charIn"),
        .number (table.number "charIn"), .number symbol.number, .text symbol.name,
        .flag symbol.isUndefined, .flag symbol.isMultiplyDefined, .number symbol.definitions])

def countWords : Nat → Lookahead Assembly.Token → Nat × Lookahead Assembly.Token
  | 0, s => (0, s)
  | lines + 1, s =>
    let (word, s) := s.accept? Token.scanner Token.identifier?
    let (count, s) := countWords lines (s.skipPast Token.scanner (· == .empty))
    (count + if word.isSome then 1 else 0, s)

def streamWords (n : Int) : Report :=
  let lines := blocks 5 n
  let text := unlines (List.replicate lines "LDWA 5,i")
  let (count, s) := countWords lines (.ofText text.toList)
  let (last, _) := (s.push (.identifier "last")).accept? Token.scanner Token.identifier?
  .number (count + if last.isSome then 1 else 0 : Nat)

end PepAsm.Workload
