import PepAsm.Symbol
import PepAsm.Text.Format
import PepAsm.Text.Quoted

namespace PepAsm.Assembly

open PepAsm.Text

inductive Operand
  | decimal (value : Int)
  | hexadecimal (value : Int)
  | string (bytes : List UInt8)
  | symbol (name : String)
deriving Repr, DecidableEq

namespace Operand

def bytesValue (bytes : List UInt8) : Nat :=
  bytes.foldl (fun n b ↦ 256 * n + b.toNat) 0

def value (symbols : SymbolTable) : Operand → Int
  | .decimal n | .hexadecimal n => n
  | .string bytes => bytesValue bytes
  | .symbol name => symbols.number name

def protectQuotes (text : List Char) : List Char :=
  text.flatMap fun c ↦ if c = doubleQuote then [backslash, c] else [c]

/-- An operand as it stands in a program. A hexadecimal number has four digits at least, its sign
counted. A string shows its byte array, cut by two characters in front and one at the end. -/
def text : Operand → String
  | .decimal n => Text.decimal n
  | .hexadecimal n => "0x" ++ String.ofList (Text.hexadecimal 4 n)
  | .string bytes =>
    "\"" ++ String.ofList (protectQuotes ((shownBytes bytes).drop 2).dropLast) ++ "\""
  | .symbol name => name

end Operand

end PepAsm.Assembly
