import PepAsm.Assembly.Operand
import PepAsm.Instruction.Mnemonic
import PepAsm.Text.Format

namespace PepAsm.Assembly

open PepAsm.Text PepAsm.Instruction

inductive Body
  | dyadic (mnemonic : Mnemonic) (operand : Operand) (mode : Mode)
  | monadic (mnemonic : Mnemonic)
  /-- Bytes that were made elsewhere, with the room they claim and the text that stands for them.
  A symbol that is its `argument` has to be defined. -/
  | given (bytes : List UInt8) (size : Nat) (source : String) (argument : Option Operand)
deriving Repr, DecidableEq

structure CodeLine where
  body : Body
  symbol : Option String := none
  comment : Option String := none
  address : Option Int := none
deriving Repr, DecidableEq

inductive Line
  | error (reason : Option String)
  | empty
  | comment (text : String)
  | code (line : CodeLine)
deriving Repr, DecidableEq

inductive EncodeError
  | mode (e : ModeError)
  | negative
  | tooBig
deriving Repr, DecidableEq

def EncodeError.message : EncodeError → String
  | mode e => e.message
  | negative => "can\x27t convert negative int to unsigned"
  | tooBig => "int too big to convert"

def wordBytes (n : Int) : Except EncodeError (List UInt8) :=
  if n < 0 then .error .negative
  else if 0x10000 ≤ n then .error .tooBig
  else .ok [UInt8.ofNat (n.toNat / 256), UInt8.ofNat (n.toNat % 256)]

def sourceText (instruction : String) (operands : List String) (symbol comment : Option String) :
    String :=
  let declaration := match symbol with
    | some name => name ++ ":"
    | none => ""
  let remark := match comment with
    | some text => if text.isEmpty then "" else ";" ++ text
    | none => ""
  column 7 declaration ++ column 7 instruction ++ column 12 (",".intercalate operands) ++ remark

namespace CodeLine

def size (line : CodeLine) : Nat :=
  match line.body with
  | .dyadic .. => 3
  | .monadic .. => 1
  | .given _ size .. => size

def bytes (symbols : SymbolTable) (line : CodeLine) : Except EncodeError (List UInt8) :=
  match line.body with
  | .dyadic mnemonic operand mode =>
    match mnemonic.encode (some mode) with
    | .error e => .error (.mode e)
    | .ok first => (wordBytes (operand.value symbols)).map (first :: ·)
  | .monadic mnemonic =>
    match mnemonic.encode none with
    | .error e => .error (.mode e)
    | .ok first => .ok [first]
  | .given bytes .. => .ok bytes

def source (line : CodeLine) : String :=
  match line.body with
  | .dyadic mnemonic operand mode =>
    sourceText mnemonic.name [operand.text, mode.suffix] line.symbol line.comment
  | .monadic mnemonic => sourceText mnemonic.name [] line.symbol line.comment
  | .given _ _ source _ => source

def argument? (line : CodeLine) : Option Operand :=
  match line.body with
  | .given _ _ _ argument => argument
  | _ => none

/-- A line on one line: what stands before its comment, then comment and address if there are
any. An address of zero does not show. -/
def summary (line : CodeLine) (kind addressLabel statement : String) : String :=
  let declaration := match line.symbol with
    | some name => name ++ ":"
    | none => ""
  let comment := match line.comment with
    | some text => if text.isEmpty then [] else ["comment=" ++ text]
    | none => []
  let address := match line.address with
    | some n => if n = 0 then [] else [addressLabel ++ "=" ++ Text.decimal n]
    | none => []
  let parts := ["'" ++ declaration ++ statement ++ "'"] ++ comment ++ address
  kind ++ "(" ++ ",".intercalate parts ++ ")"

def describe (line : CodeLine) : String :=
  match line.body with
  | .dyadic mnemonic operand mode =>
    line.summary "DyadicLine" "memory_address"
      (mnemonic.name ++ " " ++ operand.text ++ "," ++ mode.suffix)
  | .monadic mnemonic => line.summary "MonadicLine" "address" mnemonic.name
  | .given _ _ source _ => source

end CodeLine

inductive ListingError
  | encode (e : EncodeError)
  /-- A text was to leave a space for its sign. -/
  | spaceForSign
deriving Repr, DecidableEq

def ListingError.message : ListingError → String
  | encode e => e.message
  | spaceForSign => "Space not allowed in string format specifier"

def listingText (address : Option Int) (bytes : List UInt8) (source : String) : String :=
  let place := match address with
    | some n => String.ofList ((Text.hexadecimal 4 n).map Char.toUpper)
    | none => "    "
  place ++ " " ++ column 6 (hexBytes bytes) ++ " " ++ source

def overflowText (bytes : List UInt8) : Except ListingError String :=
  match ({ spaceForSign := true, width := 6 } : ColumnFormat).text? (hexBytes bytes) with
  | some code => .ok (column 4 "" ++ " " ++ code)
  | none => .error .spaceForSign

/-- The object code beside the source and what is left over for the lines below. More than three
bytes are cut so that the third is in neither part. -/
def splitCode (bytes : List UInt8) : List UInt8 × List UInt8 :=
  if bytes.length ≤ 3 then (bytes, []) else (bytes.take 2, bytes.drop 3)

def batches : List UInt8 → List (List UInt8)
  | [] => []
  | a :: b :: c :: bytes => [a, b, c] :: batches bytes
  | bytes => [bytes]

def listingTexts (address : Option Int) (bytes : List UInt8) (source : String) :
    Except ListingError (List String) := do
  let (beside, below) := splitCode bytes
  let overflow ← (batches below).mapM overflowText
  return listingText address beside source :: overflow

namespace Line

def errorSource (reason : Option String) : String :=
  let message := match reason with
    | some text => if text.isEmpty then "Failed to parse line" else text
    | none => "Failed to parse line"
  ";ERROR: " ++ message

def source : Line → String
  | error reason => errorSource reason
  | empty => sourceText "" [] none none
  | comment text => sourceText "" [] none (some text)
  | code line => line.source

def describe : Line → String
  | error reason => "ErrorLine('" ++ errorSource reason ++ "')"
  | empty => "EmptyLine()"
  | comment text => "CommentLine('" ++ text ++ "')"
  | code line => line.describe

def code? : Line → Option CodeLine
  | code line => some line
  | _ => none

def isError : Line → Bool
  | error _ => true
  | _ => false

def listing (symbols : SymbolTable) : Line → Except ListingError (List String)
  | code line =>
    match line.bytes symbols with
    | .error e => .error (.encode e)
    | .ok bytes => listingTexts line.address bytes line.source
  | line => listingTexts none [] line.source

end Line

end PepAsm.Assembly
