import PepAsm.Text.Letter

namespace PepAsm.Recognizer.Identifier

open PepAsm.Text

inductive State
  | start
  | identifier
  | trap
deriving Repr, DecidableEq

inductive Column
  | letter
  | digit
deriving Repr, DecidableEq

/-- Whatever is no letter goes into the column of the digits. -/
def Column.of (c : Char) : Column :=
  if isLetter c then .letter else .digit

def next : State → Column → State
  | .start, .letter => .identifier
  | .start, .digit => .trap
  | .identifier, _ => .identifier
  | .trap, _ => .trap

def State.isFinal : State → Bool
  | .identifier => true
  | .start | .trap => false

def run (text : List Char) : State :=
  text.foldl (fun q c ↦ next q (.of c)) .start

def accepts (text : String) : Bool :=
  (run text.toList).isFinal

end PepAsm.Recognizer.Identifier
