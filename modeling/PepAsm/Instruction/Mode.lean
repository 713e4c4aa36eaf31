namespace PepAsm.Instruction

inductive Mode
  | immediate
  | direct
  | indirect
  | stackRelative
  | stackDeferred
  | indexed
  | stackIndexed
  | stackDeferredIndexed
deriving Repr, DecidableEq

namespace Mode

def all : List Mode :=
  [immediate, direct, indirect, stackRelative, stackDeferred, indexed, stackIndexed,
   stackDeferredIndexed]

def name : Mode → String
  | immediate => "I"
  | direct => "D"
  | indirect => "N"
  | stackRelative => "S"
  | stackDeferred => "SF"
  | indexed => "X"
  | stackIndexed => "SX"
  | stackDeferredIndexed => "SFX"

def suffix : Mode → String
  | immediate => "i"
  | direct => "d"
  | indirect => "n"
  | stackRelative => "s"
  | stackDeferred => "sf"
  | indexed => "x"
  | stackIndexed => "sx"
  | stackDeferredIndexed => "sfx"

def ofName? (s : String) : Option Mode :=
  all.find? (·.name == s)

theorem mem_all (m : Mode) : m ∈ all := by
  cases m <;> simp [all]

theorem ofName?_name (m : Mode) : ofName? m.name = some m := by
  cases m <;> rfl

def field : Mode → UInt8
  | immediate => 0
  | direct => 1
  | indirect => 2
  | stackRelative => 3
  | stackDeferred => 4
  | indexed => 5
  | stackIndexed => 6
  | stackDeferredIndexed => 7

/-- The one-bit field of the instructions that know two modes only. -/
def shortField? : Mode → Option UInt8
  | immediate => some 0
  | indexed => some 1
  | _ => none

end Mode

end PepAsm.Instruction
