import PepAsm.Assembly.Line
import PepAsm.Assembly.Token
import PepAsm.Scan.Lookahead

namespace PepAsm.Assembly

open PepAsm.Scan PepAsm.Instruction PepAsm.Text

inductive ParseError
  | unexpectedToken
  | unrecognizedMnemonic (name : String)
  | missingArgument
  | numberTooLarge
  | unknownMode (name : String)
  | invalidMode (mode mnemonic : String)
  | symbolWithoutInstruction
  | notALine
deriving Repr, DecidableEq

def ParseError.message : ParseError → Option String
  | unexpectedToken => none
  | unrecognizedMnemonic name => some ("Unrecognized mnemonic: " ++ name)
  | missingArgument => some "Missing argument"
  | numberTooLarge => some "Number too large"
  | unknownMode name => some ("Unknown addressing mode: " ++ name)
  | invalidMode mode mnemonic => some ("Invalid addressing mode " ++ mode ++ " for " ++ mnemonic)
  | symbolWithoutInstruction => some "Symbol declaration must be followed by instruction"
  | notALine => some "Failed to parse line"

structure Reader where
  stream : Lookahead Token
  symbols : SymbolTable
deriving Repr, DecidableEq

namespace Reader

def size (r : Reader) : Nat :=
  r.stream.size

def ofText (text : List Char) (symbols : SymbolTable) : Reader :=
  ⟨.ofText text, symbols⟩

def skipLine (r : Reader) : Reader :=
  { r with stream := r.stream.skipPast Token.scanner (· == .empty) }

end Reader

/-- Readers of program lines. A reader that fails keeps what it has taken and defined. -/
abbrev ParseM := EStateM ParseError Reader

variable {α β : Type}

def accept? (select : Token → Option α) : ParseM (Option α) := fun r ↦
  let (found, stream) := r.stream.accept? Token.scanner select
  .ok found { r with stream }

theorem accept?_apply (select : Token → Option α) (r : Reader) :
    accept? select r = .ok (r.stream.accept? Token.scanner select).1
      { r with stream := (r.stream.accept? Token.scanner select).2 } := rfl

def expect (select : Token → Option α) : ParseM α := do
  match ← accept? select with
  | some a => return a
  | none => throw .unexpectedToken

def modifySymbols (f : SymbolTable → SymbolTable) : ParseM Unit := fun r ↦
  .ok () { r with symbols := f r.symbols }

/-- `argument → hexadecimal | decimal | identifier` -/
def argument : ParseM (Option Operand) := do
  match ← accept? Token.hexadecimal? with
  | some n => return some (.hexadecimal n)
  | none =>
    match ← accept? Token.decimal? with
    | some n => return some (.decimal n)
    | none =>
      match ← accept? Token.identifier? with
      | some name =>
        modifySymbols (·.reference name)
        return some (.symbol name)
      | none => return none

/-- A number fits into a word if it is one of sixteen bits, with or without a sign. -/
def fitsWord (n : Int) : Bool :=
  decide (-0x8000 ≤ n) && decide (n ≤ 0xFFFF)

def operand : ParseM Operand := do
  match ← argument with
  | none => throw .missingArgument
  | some operand =>
    if fitsWord (operand.value (← get).symbols) then return operand
    else throw .numberTooLarge

def mode (mnemonic : Mnemonic) : ParseM Mode := do
  let name := upper (← expect Token.identifier?)
  match Mode.ofName? name with
  | none => throw (.unknownMode name)
  | some mode =>
    if mnemonic.format.allows mode then return mode
    else throw (.invalidMode name mnemonic.name)

/-- `instruction → identifier argument , identifier` -/
def instruction (symbol : Option String) : ParseM (Option CodeLine) := do
  match ← accept? Token.identifier? with
  | none => return none
  | some word =>
    match Mnemonic.ofWord? word with
    | none => throw (.unrecognizedMnemonic (upper word))
    | some mnemonic =>
      let operand ← operand
      expect Token.comma?
      let mode ← mode mnemonic
      return some { body := .dyadic mnemonic operand mode, symbol }

/-- `line → instruction [comment]` -/
def line (symbol : Option String) : ParseM (Option CodeLine) := do
  match ← instruction symbol with
  | none => return none
  | some code => return some { code with comment := ← accept? Token.comment? }

def codeLine (symbol : Option String) (otherwise : ParseError) : ParseM Line := do
  match ← line symbol with
  | some code => return .code code
  | none => throw otherwise

/-- `labelled → [symbol] line` -/
def labelled : ParseM Line := do
  match ← accept? Token.symbol? with
  | some name =>
    modifySymbols (·.define name)
    codeLine (some name) .symbolWithoutInstruction
  | none => codeLine none .notALine

/-- `content → comment | labelled`, the part of a statement before the end of its line. -/
def content : ParseM Line := do
  match ← accept? Token.comment? with
  | some text => return .comment text
  | none => labelled

/-- `statement → [content] empty` -/
def statement : ParseM Line := do
  match ← accept? Token.empty? with
  | some () => return .empty
  | none =>
    let read ← content
    expect Token.empty?
    return read

end PepAsm.Assembly
