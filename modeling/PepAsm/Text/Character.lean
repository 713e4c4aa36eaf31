namespace PepAsm.Text

/-- A class of characters beyond ASCII is given by runs of code points, both ends included. The
classes are those of Unicode 15.0. -/
abbrev Runs := List (Nat × Nat)

def Runs.find? (runs : Runs) (c : Char) : Option (Nat × Nat) :=
  List.find? (fun r ↦ decide (r.1 ≤ c.toNat) && decide (c.toNat ≤ r.2)) runs

def Runs.contains (runs : Runs) (c : Char) : Bool :=
  (runs.find? c).isSome

def isAscii (c : Char) : Bool :=
  decide (c.toNat < 0x80)

def blankRuns : Runs :=
  [(0x85, 0x85), (0xA0, 0xA0), (0x1680, 0x1680), (0x2000, 0x200A), (0x2028, 0x2029),
   (0x202F, 0x202F), (0x205F, 0x205F), (0x3000, 0x3000)]

/-- White space: the space, the controls that move the carriage, the four separator controls,
and the spaces and line separators of other scripts. -/
def isBlank (c : Char) : Bool :=
  if isAscii c then
    c == ' ' || (decide (9 ≤ c.toNat) && decide (c.toNat ≤ 13)) ||
      (decide (28 ≤ c.toNat) && decide (c.toNat ≤ 31))
  else blankRuns.contains c

def trimEnd (text : List Char) : List Char :=
  (text.reverse.dropWhile isBlank).reverse

/-- A text that ends in exactly one line break and has no other white space at its end. -/
def endLine (text : String) : List Char :=
  trimEnd text.toList ++ ['\n']

end PepAsm.Text
