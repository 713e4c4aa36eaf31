import PepAsm.Assembly.Program
import PepAsm.Formula.Token

namespace PepAsm.Formula

open PepAsm.Assembly PepAsm.Instruction

def immediate (mnemonic : Mnemonic) (n : Int) : CodeLine :=
  { body := .dyadic mnemonic (.decimal n) .immediate }

/-- An instruction on a word of the stack, counted in bytes from its top. -/
def onStack (mnemonic : Mnemonic) (offset : Int) : CodeLine :=
  { body := .dyadic mnemonic (.decimal offset) .stackRelative }

/-- Code under construction, with the symbols that it has named so far. -/
abbrev Generator := StateM SymbolTable

def reference (name : String) : Generator Operand :=
  modifyGet fun symbols ↦ (.symbol name, symbols.reference name)

def define (name : String) : Generator String :=
  modifyGet fun symbols ↦ (name, symbols.define name)

def transfer (mnemonic : Mnemonic) (target : Operand) : CodeLine :=
  { body := .dyadic mnemonic target .immediate }

def plain (mnemonic : Mnemonic) : CodeLine :=
  { body := .monadic mnemonic }

def labelled (name : String) (line : CodeLine) : CodeLine :=
  { line with symbol := some name }

/-- Replaces the two words on top of the stack by what a subroutine makes of them. -/
def generateOperator (subroutine : String) : Generator (List CodeLine) := do
  return [transfer .call (← reference subroutine), immediate .addsp 2, onStack .stwa 0]

def generateToken : Token → Generator (List CodeLine)
  | .decimal n => return [immediate .subsp 2, immediate .ldwa n, onStack .stwa 0]
  | .plus => generateOperator "plus"
  | .times => generateOperator "times"
  | .empty | .invalid | .parenOpen | .parenClose => return []

/-- Shows the word on top of the stack and ends the program. -/
def showResult : List CodeLine :=
  [immediate .ldwa 1, onStack .scall 0, plain .ret]

def generatePlus : Generator (List CodeLine) := do
  return [labelled (← define "plus") (onStack .ldwa 2), onStack .adda 4, plain .ret]

/-- Multiplies the two words below the return address, one bit of the second at a time. -/
def generateTimes : Generator (List CodeLine) := do
  return [labelled (← define "times") (immediate .subsp 2), immediate .ldwa 0, onStack .stwa 0,
    labelled (← define "b_loop") (onStack .ldwa 6), onStack .ldwx 4,
    transfer .breq (← reference "e_loop"), immediate .andx 1,
    transfer .breq (← reference "noadd"),
    onStack .adda 0, onStack .stwa 0, onStack .ldwa 6,
    labelled (← define "noadd") (plain .asla), onStack .stwa 6, onStack .ldwx 4, plain .asrx,
    onStack .stwx 4, transfer .br (← reference "b_loop"),
    labelled (← define "e_loop") (onStack .ldwa 0), immediate .addsp 2, plain .ret]

def generate (tokens : List Token) : Generator (List CodeLine) := do
  let pieces ← tokens.mapM generateToken
  return pieces.flatten ++ showResult ++ (← generatePlus) ++ (← generateTimes)

def compile (tokens : List Token) : Program :=
  let (code, symbols) := generate tokens .empty
  ⟨code.map .code, symbols⟩

end PepAsm.Formula
