import PepAsm.Assembly.Program
import PepAsm.Proofs.SymbolTable

namespace PepAsm.Assembly

namespace Line

def size : Line → Nat
  | .code line => line.size
  | _ => 0

def moveTo (address : Int) : Line → Line
  | .code line => .code { line with address := some address }
  | line => line

end Line

def extent : List Line → Nat
  | [] => 0
  | line :: lines => line.size + extent lines

def readable (lines : List Line) : List Line :=
  lines.filter (!·.isError)

def arrange (base : Int) (lines : List Line) : List Line :=
  lines.mapIdx fun k line ↦ line.moveTo (base + extent (lines.take k))

/-- The last line that declares a name. -/
def Image.declaration? (image : Image) (name : String) : Option CodeLine :=
  (image.codeLines.filter (·.symbol == some name)).getLast?

def Line.faults (symbols : SymbolTable) : Line → List Fault
  | .error reason => [.unread reason]
  | .code line => (line.declare symbols 0).2 ++ line.undefined symbols
  | _ => []

variable (t : SymbolTable) (base : Int) (lines : List Line)

theorem place_code (line : CodeLine) :
    place t base (.code line :: lines) =
      let image := place (line.declare t base).1 (base + line.size) lines
      { image with
        lines := .code { line with address := some base } :: image.lines
        faults := (line.declare t base).2 ++ line.undefined (line.declare t base).1 ++
          image.faults } := rfl

theorem place_empty :
    place t base (.empty :: lines) =
      { place t base lines with lines := .empty :: (place t base lines).lines } := rfl

theorem place_comment (text : String) :
    place t base (.comment text :: lines) =
      { place t base lines with lines := .comment text :: (place t base lines).lines } := rfl

theorem extent_cons (line : Line) : extent (line :: lines) = line.size + extent lines := rfl

theorem arrange_cons (line : Line) :
    arrange base (line :: lines) = line.moveTo base :: arrange (base + line.size) lines := by
  unfold arrange
  rw [List.mapIdx_cons]
  congr 1
  · simp [extent]
  · congr
    funext k l
    rw [List.take_succ_cons, extent_cons]
    congr 1
    push_cast
    omega

theorem lines_place : (place t base lines).lines = arrange base (readable lines) := by
  induction lines generalizing t base with
  | nil => rfl
  | cons line lines ih =>
    cases line with
    | error reason => exact ih t base
    | empty =>
      rw [place_empty, readable, List.filter_cons_of_pos rfl, ← readable, arrange_cons, ih]
      simp [Line.moveTo, Line.size]
    | comment text =>
      rw [place_comment, readable, List.filter_cons_of_pos rfl, ← readable, arrange_cons, ih]
      simp [Line.moveTo, Line.size]
    | code line =>
      rw [place_code, readable, List.filter_cons_of_pos rfl, ← readable, arrange_cons]
      dsimp only
      rw [ih]
      rfl

section Codes

variable {t base lines}

@[simp] theorem codeLines_error {reason : Option String} :
    (place t base (.error reason :: lines)).codeLines = (place t base lines).codeLines := rfl

@[simp] theorem codeLines_empty :
    (place t base (.empty :: lines)).codeLines = (place t base lines).codeLines := rfl

@[simp] theorem codeLines_comment {text : String} :
    (place t base (.comment text :: lines)).codeLines = (place t base lines).codeLines := rfl

theorem codeLines_code {line : CodeLine} :
    (place t base (.code line :: lines)).codeLines =
      { line with address := some base } ::
        (place (line.declare t base).1 (base + line.size) lines).codeLines := rfl

end Codes

theorem definitions_declare (line : CodeLine) (name : String) :
    ((line.declare t base).1.symbol name).definitions = (t.symbol name).definitions := by
  unfold CodeLine.declare
  split
  · rfl
  · split
    · rfl
    · exact t.definitions_setValue _ _ _

theorem definitions_place (name : String) :
    ((place t base lines).symbols.symbol name).definitions = (t.symbol name).definitions := by
  induction lines generalizing t base with
  | nil => rfl
  | cons line lines ih =>
    cases line with
    | error reason => exact ih t base
    | empty => exact ih t base
    | comment text => exact ih t base
    | code line => exact (ih _ _).trans (definitions_declare t base line name)

theorem faults_declare (line : CodeLine) :
    (line.declare t base).2 = (line.declare t 0).2 := by
  unfold CodeLine.declare
  split
  · rfl
  · split
    · rfl
    · rfl

theorem undefined_congr {t u : SymbolTable}
    (h : ∀ name, (u.symbol name).definitions = (t.symbol name).definitions) (line : CodeLine) :
    line.undefined u = line.undefined t := by
  unfold CodeLine.undefined
  split
  · rw [u.isUndefined_eq, t.isUndefined_eq, h]
  · rfl

theorem faults_congr {t u : SymbolTable}
    (h : ∀ name, (u.symbol name).definitions = (t.symbol name).definitions) (line : Line) :
    line.faults u = line.faults t := by
  cases line with
  | error reason => rfl
  | empty => rfl
  | comment text => rfl
  | code line =>
    simp only [Line.faults, undefined_congr h, CodeLine.declare, u.isMultiplyDefined_eq,
      t.isMultiplyDefined_eq, h]
    split
    · rfl
    · split
      · rfl
      · rfl

theorem faults_place : (place t base lines).faults = lines.flatMap (Line.faults t) := by
  induction lines generalizing t base with
  | nil => rfl
  | cons line lines ih =>
    rw [List.flatMap_cons]
    cases line with
    | error reason => exact congrArg (Fault.unread reason :: ·) (ih t base)
    | empty => exact ih t base
    | comment text => exact ih t base
    | code line =>
      -- A declaration gives values only, so the lines below see the same counts.
      have hd := definitions_declare t base line
      have hf : Line.faults (line.declare t base).1 = Line.faults t :=
        funext (faults_congr hd)
      rw [place_code]
      dsimp only
      rw [ih, hf, faults_declare, undefined_congr hd]
      rfl

theorem value_declare (line : CodeLine) (name : String) :
    ((line.declare t base).1.symbol name).value =
      if line.symbol = some name ∧ (t.symbol name).definitions ≤ 1 then some base
      else (t.symbol name).value := by
  unfold CodeLine.declare
  split
  · rename_i hs
    simp [hs]
  · rename_i declared hs
    rw [t.isMultiplyDefined_eq]
    split
    · rename_i hm
      rw [if_neg]
      rintro ⟨he, hd⟩
      rw [hs] at he
      cases he
      simp only [decide_eq_true_eq] at hm
      omega
    · rename_i hm
      rw [t.value_setValue, hs]
      by_cases he : name = declared
      · subst he
        simp only [decide_eq_true_eq] at hm
        rw [if_pos rfl, if_pos ⟨rfl, by omega⟩]
      · rw [if_neg he, if_neg]
        rintro ⟨h, -⟩
        exact he (Option.some.inj h).symm

/-- A symbol that is not defined twice has the address of the last line that declares it, and
every other symbol keeps its value. -/
theorem value_place (name : String) :
    ((place t base lines).symbols.symbol name).value =
      if (t.symbol name).definitions ≤ 1 then
        match (place t base lines).declaration? name with
        | some line => line.address
        | none => (t.symbol name).value
      else (t.symbol name).value := by
  induction lines generalizing t base with
  | nil =>
    change (t.symbol name).value = _
    split
    · rfl
    · rfl
  | cons line lines ih =>
    cases line with
    | error reason => exact ih t base
    | empty => exact ih t base
    | comment text => exact ih t base
    | code line =>
      have h := ih (line.declare t base).1 (base + line.size)
      rw [definitions_declare, value_declare] at h
      refine h.trans ?_
      unfold Image.declaration?
      rw [codeLines_code, List.filter_cons]
      by_cases hd : (t.symbol name).definitions ≤ 1
      · -- This line's address stands unless a line below declares the name again.
        simp only [hd, and_true, beq_iff_eq]
        by_cases hs : line.symbol = some name
        · rw [if_pos hs, if_pos hs, List.getLast?_cons]
          cases List.getLast? _ with
          | none => rfl
          | some last => rfl
        · rw [if_neg hs, if_neg hs]
      · simp only [hd, and_false, if_false]

variable {t base lines} {name : String} {line : CodeLine}

theorem value_of_declaration? (hd : (t.symbol name).definitions ≤ 1)
    (h : (place t base lines).declaration? name = some line) :
    ((place t base lines).symbols.symbol name).value = line.address := by
  rw [value_place, if_pos hd, h]

theorem mem_of_declaration? {image : Image} (h : image.declaration? name = some line) :
    line ∈ image.codeLines :=
  (List.mem_filter.1 (List.mem_of_getLast? h)).1

end PepAsm.Assembly
