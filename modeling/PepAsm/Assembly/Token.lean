import PepAsm.Scan.Lexeme
import PepAsm.Text.Digit

namespace PepAsm.Assembly

open PepAsm.Text PepAsm.Scan

inductive Token
  | identifier (name : String)
  | symbol (name : String)
  | comment (text : String)
  | empty
  | invalid
  | comma
  | decimal (value : Int)
  | hexadecimal (value : Int)
  | dot (name : String)
  | string (bytes : List UInt8)
  | call (name : String)
deriving Repr, DecidableEq

namespace Token

/-- The hexadecimal number after its mark `0x`. Without a digit it is invalid, and takes the
character in the digit's place with it. -/
def hexNumber : List Char → Token × List Char
  | [] => (.invalid, [])
  | c :: text =>
    if isHexDigit c then
      (.hexadecimal (hexadecimalOf (c :: text.takeWhile isHexDigit)), text.dropWhile isHexDigit)
    else (.invalid, text)

def zeroNumber : List Char → Token × List Char
  | [] => (.decimal 0, [])
  | c :: text =>
    if Text.isDigit c then number .decimal 1 (digitValue c) text
    else if c = 'x' ∨ c = 'X' then hexNumber text
    else (.decimal 0, c :: text)

def isWordChar (c : Char) : Bool :=
  isLetterOrNumber c || c == '_'

/-- A word that begins with `c`. A colon after it makes it the declaration of a symbol. -/
def word (c : Char) (text : List Char) : Token × List Char :=
  let name := String.ofList (c :: text.takeWhile isWordChar)
  match text.dropWhile isWordChar with
  | ':' :: rest => (.symbol name, rest)
  | rest => (.identifier name, rest)

def remark (text : List Char) : Token × List Char :=
  (.comment (String.ofList (text.takeWhile (· != '\n'))), text.dropWhile (· != '\n'))

def lexeme (c : Char) (text : List Char) : Token × List Char :=
  if c = '\n' then (.empty, text)
  else if c = ',' then (.comma, text)
  else if c = ';' then remark text
  else if isLetter c then word c text
  else if c = '0' then zeroNumber text
  else if isDecimal c then number .decimal 1 (digitValue c) text
  else if c = '+' then signedNumber .decimal .invalid 1 text
  else if c = '-' then signedNumber .decimal .invalid (-1) text
  else (.invalid, text)

/-- The first character of a token tells by which rule it is read. -/
theorem lexeme_cases {motive : Char → Prop}
    (lineEnd : (lexeme '\n' = fun text ↦ (.empty, text)) → motive '\n')
    (comma : (lexeme ',' = fun text ↦ (.comma, text)) → motive ',')
    (comment : lexeme ';' = remark → motive ';')
    (name : ∀ c, isLetter c = true → lexeme c = word c → motive c)
    (zero : lexeme '0' = zeroNumber → motive '0')
    (decimal : ∀ c, isDecimal c = true → lexeme c = number .decimal 1 (digitValue c) → motive c)
    (plus : lexeme '+' = signedNumber .decimal .invalid 1 → motive '+')
    (minus : lexeme '-' = signedNumber .decimal .invalid (-1) → motive '-')
    (other : ∀ c, (lexeme c = fun text ↦ (.invalid, text)) → motive c) (c : Char) :
    motive c := by
  by_cases hend : c = '\n'
  · exact hend ▸ lineEnd rfl
  by_cases hcomma : c = ','
  · exact hcomma ▸ comma rfl
  by_cases hcomment : c = ';'
  · exact hcomment ▸ comment rfl
  by_cases hname : isLetter c = true
  · exact name c hname (by funext text; simp [lexeme, *])
  by_cases hzero : c = '0'
  · exact hzero ▸ zero rfl
  by_cases hdecimal : isDecimal c = true
  · exact decimal c hdecimal (by funext text; simp [lexeme, *])
  by_cases hplus : c = '+'
  · exact hplus ▸ plus rfl
  by_cases hminus : c = '-'
  · exact hminus ▸ minus rfl
  · exact other c (by funext text; simp [lexeme, *])

theorem suffix_hexNumber (text : List Char) : (hexNumber text).2 <:+ text := by
  unfold hexNumber
  split
  · exact List.suffix_rfl
  · split
    · exact (List.dropWhile_suffix _).trans (List.suffix_cons ..)
    · exact List.suffix_cons ..

theorem suffix_zeroNumber (text : List Char) : (zeroNumber text).2 <:+ text := by
  unfold zeroNumber
  split
  · exact List.suffix_rfl
  · split
    · exact (suffix_number ..).trans (List.suffix_cons ..)
    · split
      · exact (suffix_hexNumber _).trans (List.suffix_cons ..)
      · exact List.suffix_rfl

theorem suffix_word (c : Char) (text : List Char) : (word c text).2 <:+ text := by
  have hd : text.dropWhile isWordChar <:+ text := List.dropWhile_suffix _
  unfold word
  dsimp only
  split
  · rename_i h
    rw [h] at hd
    exact (List.suffix_cons ..).trans hd
  · exact hd

theorem suffix_remark (text : List Char) : (remark text).2 <:+ text :=
  List.dropWhile_suffix _

theorem suffix_lexeme (c : Char) (text : List Char) : (lexeme c text).2 <:+ text := by
  cases c using lexeme_cases with
  | lineEnd h | comma h | other c h => exact h ▸ List.suffix_rfl
  | comment h => exact h ▸ suffix_remark text
  | name c hc h => exact h ▸ suffix_word c text
  | zero h => exact h ▸ suffix_zeroNumber text
  | decimal c hc h => exact h ▸ suffix_number Token.decimal 1 (digitValue c) text
  | plus h => exact h ▸ suffix_signedNumber Token.decimal .invalid 1 text
  | minus h => exact h ▸ suffix_signedNumber Token.decimal .invalid (-1) text

theorem length_lexeme_le (c : Char) (text : List Char) :
    (lexeme c text).2.length ≤ text.length :=
  (suffix_lexeme c text).length_le

def scanner : Scanner Token :=
  .ofLexeme .empty lexeme length_lexeme_le

def kind : Token → String
  | .identifier _ => "Identifier"
  | .symbol _ => "Symbol"
  | .comment _ => "Comment"
  | .empty => "Empty"
  | .invalid => "Invalid"
  | .comma => "Comma"
  | .decimal _ => "Decimal"
  | .hexadecimal _ => "Hexadecimal"
  | .dot _ => "Dot"
  | .string _ => "String"
  | .call _ => "Macro"

def identifier? : Token → Option String
  | .identifier name => some name
  | _ => none

def symbol? : Token → Option String
  | .symbol name => some name
  | _ => none

def comment? : Token → Option String
  | .comment text => some text
  | _ => none

def empty? : Token → Option Unit
  | .empty => some ()
  | _ => none

def comma? : Token → Option Unit
  | .comma => some ()
  | _ => none

def decimal? : Token → Option Int
  | .decimal n => some n
  | _ => none

def hexadecimal? : Token → Option Int
  | .hexadecimal n => some n
  | _ => none

end Token

end PepAsm.Assembly
