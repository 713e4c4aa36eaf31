import PepAsm.Formula.Compiler
import PepAsm.Proofs.Assembly.MemoryImage

namespace PepAsm.Formula

open PepAsm.Assembly PepAsm.Instruction

/-- The lines that a generator writes with no symbols there before. -/
def written (g : Generator (List CodeLine)) : List CodeLine :=
  (g .empty).1

def applyOperator (subroutine : String) : List CodeLine :=
  written (generateOperator subroutine)

def tokenCode (token : Token) : List CodeLine :=
  written (generateToken token)

def plusSubroutine : List CodeLine :=
  written generatePlus

def timesSubroutine : List CodeLine :=
  written generateTimes

def code (tokens : List Token) : List CodeLine :=
  written (generate tokens)

/-- A generator writes some lines whatever symbols there are before, and leaves behind those that
the lines name. -/
def Writes (g : Generator (List CodeLine)) (code : List CodeLine) : Prop :=
  ∀ t, g t = (code, code.foldl CodeLine.mention t)

theorem Writes.written_eq {g : Generator (List CodeLine)} {code : List CodeLine} (h : Writes g code) :
    written g = code :=
  congrArg Prod.fst (h .empty)

theorem writes_token (token : Token) : Writes (generateToken token) (tokenCode token) := by
  intro t
  cases token <;> rfl

theorem writes_plus : Writes generatePlus plusSubroutine :=
  fun _ ↦ rfl

theorem writes_times : Writes generateTimes timesSubroutine :=
  fun _ ↦ rfl

theorem bind_apply {α β : Type} (g : Generator α) (f : α → Generator β) (t : SymbolTable) :
    (g >>= f) t = f (g t).1 (g t).2 :=
  rfl

theorem mapM_generateToken (tokens : List Token) (t : SymbolTable) :
    tokens.mapM generateToken t =
      (tokens.map tokenCode, (tokens.flatMap tokenCode).foldl CodeLine.mention t) := by
  induction tokens generalizing t with
  | nil => rfl
  | cons token tokens ih =>
    rw [List.mapM_cons, bind_apply, writes_token, bind_apply, ih, List.map_cons,
      List.flatMap_cons, List.foldl_append]
    rfl

theorem writes_generate (tokens : List Token) :
    Writes (generate tokens)
      (tokens.flatMap tokenCode ++ showResult ++ plusSubroutine ++ timesSubroutine) := by
  intro t
  rw [generate, bind_apply, mapM_generateToken, bind_apply, writes_plus, bind_apply, writes_times,
    List.foldl_append, List.foldl_append, List.foldl_append, List.flatMap_def]
  rfl

theorem code_eq (tokens : List Token) :
    code tokens = tokens.flatMap tokenCode ++ showResult ++ plusSubroutine ++ timesSubroutine :=
  (writes_generate tokens).written_eq

/-- The symbols of a compiled program are those that its lines name. -/
theorem compile_eq (tokens : List Token) : compile tokens = .ofCode (code tokens) := by
  rw [compile, writes_generate, code_eq]
  rfl

end PepAsm.Formula
