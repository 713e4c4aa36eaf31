import PepAsm.Text.Format

namespace PepAsm

/-- A macro: how many arguments it takes and the text it stands for, in which `$1` is the first
argument, `$2` the second, and so on. -/
structure Macro where
  arity : Int
  body : String
deriving Repr, DecidableEq

inductive MacroError
  | unknown (name : String)
  | wrongCount (name : String) (arity : Int) (given : Nat)
deriving Repr, DecidableEq

def MacroError.message : MacroError → String
  | unknown name => name
  | wrongCount name arity given =>
    name ++ " instantiated with " ++ Text.decimal arity ++ " arguments; expected " ++
      Text.decimal given

namespace Macro

/-- Replaces every occurrence of a pattern from left to right. While `skip` is not zero, the
characters belong to an occurrence that was replaced already. -/
def replaceFrom (pattern new : List Char) : Nat → List Char → List Char
  | _, [] => []
  | skip + 1, _ :: text => replaceFrom pattern new skip text
  | 0, c :: text =>
    if pattern.isPrefixOf (c :: text) then new ++ replaceFrom pattern new (pattern.length - 1) text
    else c :: replaceFrom pattern new 0 text

def replace (pattern new text : List Char) : List Char :=
  replaceFrom pattern new 0 text

def placeholder (position : Nat) : List Char :=
  '$' :: Text.digits 10 position

def fill (position : Nat) : List String → List Char → List Char
  | [], text => text
  | argument :: arguments, text =>
    fill (position + 1) arguments (replace (placeholder position) argument.toList text)

def instantiate (m : Macro) (arguments : List String) : String :=
  String.ofList (fill 1 arguments m.body.toList)

end Macro

structure MacroRegistry where
  entries : List (String × Macro)
deriving Repr, DecidableEq

namespace MacroRegistry

def empty : MacroRegistry :=
  ⟨[]⟩

def get? (r : MacroRegistry) (name : String) : Option Macro :=
  r.entries.lookup name

def contains (r : MacroRegistry) (name : String) : Bool :=
  (r.get? name).isSome

/-- Adds a macro. It takes the place of an earlier one of its name. -/
def insert (r : MacroRegistry) (name : String) (m : Macro) : MacroRegistry :=
  ⟨(name, m) :: r.entries⟩

def instantiate (r : MacroRegistry) (name : String) (arguments : List String) :
    Except MacroError String :=
  match r.get? name with
  | none => .error (.unknown name)
  | some m =>
    if m.arity = arguments.length then .ok (m.instantiate arguments)
    else .error (.wrongCount name m.arity arguments.length)

def systemNames : List String :=
  ["DECI", "DECO", "HEXO", "STRO", "SNOP"]

def systemCall (name : String) : Macro :=
  ⟨2, "LDWA " ++ name ++ ",i\nSCALL $1,$2\n"⟩

def addSystem (r : MacroRegistry) : MacroRegistry :=
  systemNames.foldl (fun r name ↦ r.insert name (systemCall name)) r

end MacroRegistry

end PepAsm
