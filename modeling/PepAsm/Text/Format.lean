namespace PepAsm.Text

def digits (base n : Nat) : List Char :=
  Nat.toDigits base n

def decimal (n : Int) : String :=
  String.ofList (if n < 0 then '-' :: digits 10 n.natAbs else digits 10 n.natAbs)

/-- The hexadecimal notation of an integer, lower case. Zeros after the sign fill it up to
`width` characters, of which the sign is one. -/
def hexadecimal (width : Nat) (n : Int) : List Char :=
  if n < 0 then '-' :: (digits 16 n.natAbs).leftpad (width - 1) '0'
  else (digits 16 n.natAbs).leftpad width '0'

def hexBytes (bytes : List UInt8) : String :=
  String.ofList (bytes.flatMap fun b ↦ (hexadecimal 2 b.toNat).map Char.toUpper)

/-- A text filled up with spaces to the width of its column. A longer text is kept whole. -/
def column (width : Nat) (s : String) : String :=
  String.ofList (s.toList.rightpad width ' ')

theorem toList_column (width : Nat) (s : String) :
    (column width s).toList = s.toList ++ List.replicate (width - s.toList.length) ' ' := by
  simp [column, List.rightpad]

structure ColumnFormat where
  spaceForSign : Bool := false
  width : Nat
deriving Repr, DecidableEq

/-- A text in a column. A text has no sign, so a format that wants a space in its place is
refused. -/
def ColumnFormat.text? (format : ColumnFormat) (s : String) : Option String :=
  if format.spaceForSign then none else some (column format.width s)

def unlines (lines : List String) : String :=
  String.join (lines.map (· ++ "\n"))

end PepAsm.Text
