import PepAsm.Assembly.Program
import PepAsm.Assembly.Progress
import PepAsm.Text.Character

namespace PepAsm.Assembly

open PepAsm.Scan PepAsm.Text

def Reader.fill (r : Reader) : Reader :=
  { r with stream := r.stream.fill Token.scanner }

/-- The next line and the reader after it, or nothing at the end of the text. A line that cannot
be read becomes an error line, and reading goes on after it. -/
def nextLine? (r : Reader) : Option (Line × Reader) :=
  match r.fill.stream.pending with
  | [] => none
  | _ :: _ =>
    match statement r.fill with
    | .ok line s => some (line, s)
    | .error e s => some (.error e.message, s.skipLine)

theorem Reader.size_fill_le (r : Reader) : r.fill.size ≤ r.size :=
  r.stream.size_fill_le Token.scanner

theorem Reader.size_skipLine_le (r : Reader) : r.skipLine.size ≤ r.size :=
  r.stream.size_skipPast_le Token.scanner _

theorem size_nextLine?_lt {r s : Reader} {line : Line} (h : nextLine? r = some (line, s)) :
    s.size < r.size := by
  unfold nextLine? at h
  split at h
  · contradiction
  · rename_i hp
    have hr : r.fill.stream.pending ≠ [] := by simp [hp]
    refine Nat.lt_of_lt_of_le ?_ r.size_fill_le
    have hs := ParseM.statement_progress hr
    split at h
    · rename_i hok
      cases h
      rw [hok] at hs
      exact hs.elim id nofun
    · rename_i e s' herror
      cases h
      rw [herror] at hs
      refine hs.elim (Nat.lt_of_le_of_lt s'.size_skipLine_le) fun he ↦ ?_
      cases he
      exact Lookahead.size_skipPast_lt Token.scanner _ hr

def readLines (r : Reader) : List Line × Reader :=
  match _h : nextLine? r with
  | none => ([], r)
  | some (line, s) =>
    let (lines, final) := readLines s
    (line :: lines, final)
termination_by r.size
decreasing_by exact size_nextLine?_lt _h

/-- Reads a program whose text ends in one line break, over symbols that are already known. -/
def parse (text : String) (symbols : SymbolTable) : Program :=
  let (lines, final) := readLines (.ofText (endLine text) symbols)
  ⟨lines, final.symbols⟩

end PepAsm.Assembly
