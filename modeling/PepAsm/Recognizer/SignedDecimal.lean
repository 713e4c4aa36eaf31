import PepAsm.Text.Digit

namespace PepAsm.Recognizer

open PepAsm.Text

inductive Verdict
  | accepted (value : Int)
  | rejected
  /-- A digit that stands in no decimal notation has no value. -/
  | valueless (digit : Char)
deriving Repr, DecidableEq

namespace SignedDecimal

/-- The digits after `magnitude`, up to the line break that ends the number or the end of the
text. -/
def magnitude (sign : Int) (m : Nat) : List Char → Verdict
  | [] => .accepted (sign * m)
  | c :: cs =>
    if isDigit c then
      match decimalValue? c with
      | some d => magnitude sign (10 * m + d) cs
      | none => .valueless c
    else if c = '\n' then .accepted (sign * m)
    else .rejected

def firstDigit (sign : Int) : List Char → Verdict
  | [] => .rejected
  | c :: cs =>
    if isDigit c then
      match decimalValue? c with
      | some d => magnitude sign d cs
      | none => .valueless c
    else .rejected

def run : List Char → Verdict
  | '+' :: cs => firstDigit 1 cs
  | '-' :: cs => firstDigit (-1) cs
  | cs => firstDigit 1 cs

def recognize (text : String) : Verdict :=
  run text.toList

end SignedDecimal

namespace Hexadecimal

/-- No text is recognized as a hexadecimal number. -/
def recognize (_text : String) : Verdict :=
  .rejected

end Hexadecimal

end PepAsm.Recognizer
