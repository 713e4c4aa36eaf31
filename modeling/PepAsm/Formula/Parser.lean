import PepAsm.Formula.Token
import PepAsm.Scan.Lookahead

namespace PepAsm.Formula

open PepAsm.Scan

inductive ParseError
  | unexpectedToken
deriving Repr, DecidableEq

/-- Readers of a stream of tokens. A reader that fails leaves the stream where it stopped. -/
abbrev ParseM := EStateM ParseError (Lookahead Token)

def accept? (select : Token → Option Token) : ParseM (Option Token) :=
  modifyGet (Lookahead.accept? Token.scanner select)

def expect (select : Token → Option Token) : ParseM Token := do
  match ← accept? select with
  | some token => return token
  | none => throw .unexpectedToken

mutual

/-- `E → T + E | T`, read to a limited depth and given in postfix order. -/
def expressionWithin : Nat → ParseM (List Token)
  | 0 => throw .unexpectedToken
  | depth + 1 => do
    let left ← termWithin depth
    match ← accept? Token.plus? with
    | none => return left
    | some operator => return left ++ (← expressionWithin depth) ++ [operator]

/-- `T → F * T | F`, read to a limited depth and given in postfix order. -/
def termWithin : Nat → ParseM (List Token)
  | 0 => throw .unexpectedToken
  | depth + 1 => do
    let left ← factorWithin depth
    match ← accept? Token.times? with
    | none => return left
    | some operator => return left ++ (← termWithin depth) ++ [operator]

/-- `F → ( E ) | decimal`, read to a limited depth and given in postfix order. -/
def factorWithin : Nat → ParseM (List Token)
  | 0 => throw .unexpectedToken
  | depth + 1 => do
    match ← accept? Token.parenOpen? with
    | some _ =>
      let inner ← expressionWithin depth
      let _ ← expect Token.parenClose?
      return inner
    | none => return [← expect Token.decimal?]

end

/-- A depth that no reading of a stream exceeds: three levels for each token, and three more. There
is no other limit on the depth, however deep a text is nested. -/
def sufficientDepth (s : Lookahead Token) : Nat :=
  3 * s.size + 3

def expression : ParseM (List Token) := do
  expressionWithin (sufficientDepth (← get))

def term : ParseM (List Token) := do
  termWithin (sufficientDepth (← get))

def factor : ParseM (List Token) := do
  factorWithin (sufficientDepth (← get))

def parse (text : List Char) : Except ParseError (List Token) :=
  match expression (.ofText text) with
  | .ok tokens _ => .ok tokens
  | .error e _ => .error e

end PepAsm.Formula
