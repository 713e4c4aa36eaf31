import PepAsm.Text.Format
import PepAsm.Text.Visible

namespace PepAsm.Text

def singleQuote : Char := '\x27'

def doubleQuote : Char := '\x22'

def backslash : Char := '\x5c'

/-- The mark put around a text: a double quote for a text that has single quotes only, and a
single quote for every other. -/
def quoteMark (text : List Char) : Char :=
  if text.contains singleQuote && !text.contains doubleQuote then doubleQuote else singleQuote

/-- A character between quote marks. The mark and the backslash take a backslash, and what is
not visible is written by its name or its code point. -/
def escape (mark c : Char) : List Char :=
  if c == mark || c == backslash then [backslash, c]
  else if c == '\t' then [backslash, 't']
  else if c == '\n' then [backslash, 'n']
  else if c == '\r' then [backslash, 'r']
  else if isVisible c then [c]
  else if c.toNat < 0x100 then backslash :: 'x' :: hexadecimal 2 c.toNat
  else if c.toNat < 0x10000 then backslash :: 'u' :: hexadecimal 4 c.toNat
  else backslash :: 'U' :: hexadecimal 8 c.toNat

def quoted (s : String) : String :=
  let mark := quoteMark s.toList
  String.ofList (mark :: s.toList.flatMap (escape mark) ++ [mark])

def ofBytes (bytes : List UInt8) : List Char :=
  bytes.map fun b ↦ Char.ofNat b.toNat

/-- A byte between quote marks: as a character, but a byte beyond ASCII is never visible, and a
single quote takes a backslash whatever the mark is. -/
def escapeByte (mark : Char) (b : UInt8) : List Char :=
  let c := Char.ofNat b.toNat
  if c == singleQuote then [backslash, c]
  else if 0x80 ≤ b.toNat then backslash :: 'x' :: hexadecimal 2 b.toNat
  else escape mark c

def quotedBytes (bytes : List UInt8) : List Char :=
  let mark := quoteMark (ofBytes bytes)
  mark :: bytes.flatMap (escapeByte mark) ++ [mark]

def bytesOpening : List Char :=
  "bytearray(b".toList

def shownBytes (bytes : List UInt8) : List Char :=
  bytesOpening ++ quotedBytes bytes ++ [')']

end PepAsm.Text
