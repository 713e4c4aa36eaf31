import PepAsm.Assembly.Line
import Mathlib.Logic.Function.Basic

namespace PepAsm.Machine

open PepAsm.Assembly PepAsm.Instruction

abbrev Word := BitVec 16

inductive Cell
  | word (w : Word)
  | link (line : Nat)
deriving Repr, DecidableEq

inductive Register
  | a
  | x
deriving Repr, DecidableEq

/-- A machine that executes the lines of a program. Its stack has no end, grows towards lower
addresses and lies apart from the program. -/
structure State where
  line : Nat
  a : Word
  x : Word
  zero : Bool
  sp : Int
  memory : Int → Cell

def number? : Operand → Option Int
  | .decimal n | .hexadecimal n => if 0 ≤ n ∧ n < 0x10000 then some n else none
  | _ => none

/-- A distance on the stack. Words do not overlap, so it is even. -/
def distance? (o : Operand) : Option Int :=
  (number? o).filter (· % 2 == 0)

def target? (program : List CodeLine) : Operand → Option Nat
  | .symbol name => program.findIdx? (·.symbol == some name)
  | _ => none

namespace State

def get (s : State) : Register → Word
  | .a => s.a
  | .x => s.x

def goto (s : State) (line : Nat) : State :=
  { s with line }

def next (s : State) : State :=
  s.goto (s.line + 1)

def put (s : State) (w : Word) : Register → State
  | .a => { s.next with a := w, zero := w == 0 }
  | .x => { s.next with x := w, zero := w == 0 }

def moveStack (s : State) (n : Int) : State :=
  { s with sp := s.sp + n }

def store (s : State) (address : Int) (cell : Cell) : State :=
  { s with memory := Function.update s.memory address cell }

def push (s : State) (cell : Cell) : State :=
  (s.moveStack (-2)).store (s.sp + -2) cell

def address? (s : State) (o : Operand) : Mode → Option Int
  | .stackRelative => (distance? o).map (s.sp + ·)
  | _ => none

def fetch? (s : State) (o : Operand) : Mode → Option Word
  | .immediate => (number? o).map (BitVec.ofInt 16)
  | mode =>
    match (s.address? o mode).map s.memory with
    | some (.word w) => some w
    | _ => none

def operate (s : State) (r : Register) (f : Word → Word → Word) (o : Operand) (mode : Mode) :
    Option State :=
  (s.fetch? o mode).map fun w ↦ s.put (f (s.get r) w) r

def save (s : State) (r : Register) (o : Operand) (mode : Mode) : Option State :=
  (s.address? o mode).map fun address ↦ (s.store address (.word (s.get r))).next

/-- What a line does. Nothing is said about instructions that no formula is compiled to. -/
def execute (program : List CodeLine) (s : State) : Body → Option State
  | .dyadic .ldwa o mode => s.operate .a (fun _ w ↦ w) o mode
  | .dyadic .ldwx o mode => s.operate .x (fun _ w ↦ w) o mode
  | .dyadic .adda o mode => s.operate .a (· + ·) o mode
  | .dyadic .addx o mode => s.operate .x (· + ·) o mode
  | .dyadic .anda o mode => s.operate .a (· &&& ·) o mode
  | .dyadic .andx o mode => s.operate .x (· &&& ·) o mode
  | .dyadic .stwa o mode => s.save .a o mode
  | .dyadic .stwx o mode => s.save .x o mode
  | .dyadic .addsp o .immediate => (distance? o).map fun n ↦ (s.moveStack n).next
  | .dyadic .subsp o .immediate => (distance? o).map fun n ↦ (s.moveStack (-n)).next
  | .dyadic .br o .immediate => (target? program o).map s.goto
  | .dyadic .breq o .immediate => if s.zero then (target? program o).map s.goto else some s.next
  | .dyadic .call o .immediate =>
    (target? program o).map (s.push (.link (s.line + 1))).goto
  -- A system call gives the machine back as it was.
  | .dyadic .scall _ _ => some s.next
  | .monadic .asla => some (s.put (s.a <<< 1) .a)
  | .monadic .aslx => some (s.put (s.x <<< 1) .x)
  | .monadic .asra => some (s.put (s.a.sshiftRight 1) .a)
  | .monadic .asrx => some (s.put (s.x.sshiftRight 1) .x)
  | .monadic .ret =>
    match s.memory s.sp with
    | .link line => some ((s.moveStack 2).goto line)
    | .word _ => none
  | _ => none

end State

def instruction? (program : List CodeLine) (line : Nat) : Option Body :=
  program[line]?.map CodeLine.body

def step (program : List CodeLine) (s : State) : Option State :=
  (instruction? program s.line).bind (s.execute program)

def run (program : List CodeLine) : Nat → State → Option State
  | 0, s => some s
  | n + 1, s => (step program s).bind (run program n)

def Reaches (program : List CodeLine) (s t : State) : Prop :=
  ∃ n, run program n s = some t

def Leads (program : List CodeLine) (s : State) (P : State → Prop) : Prop :=
  ∃ t, Reaches program s t ∧ P t

variable {program : List CodeLine} {s t : State} {P Q : State → Prop}

theorem run_add (m n : Nat) (s : State) :
    run program (m + n) s = (run program m s).bind (run program n) := by
  induction m generalizing s with
  | zero => simp [run]
  | succ m ih =>
    rw [Nat.succ_add, run, run]
    cases step program s with
    | none => rfl
    | some t => exact ih t

theorem Leads.done (h : P s) : Leads program s P :=
  ⟨s, ⟨0, rfl⟩, h⟩

theorem Leads.bind (h : Leads program s P) (h' : ∀ t, P t → Leads program t Q) :
    Leads program s Q := by
  obtain ⟨t, ⟨m, hm⟩, ht⟩ := h
  obtain ⟨u, ⟨n, hn⟩, hu⟩ := h' t ht
  refine ⟨u, ⟨m + n, ?_⟩, hu⟩
  rw [run_add, hm, Option.bind_some, hn]

theorem step_eq {body : Body} (hi : instruction? program s.line = some body)
    (he : s.execute program body = some t) : step program s = some t := by
  rw [step, hi, Option.bind_some, he]

theorem Leads.head {body : Body} (hi : instruction? program s.line = some body)
    (he : s.execute program body = some t) (h : Leads program t P) : Leads program s P := by
  have hstep : Leads program s (· = t) := by
    refine ⟨t, ⟨1, ?_⟩, rfl⟩
    rw [run, step_eq hi he]
    rfl
  exact hstep.bind fun u hu ↦ hu ▸ h

def Avoids (program : List CodeLine) (s : State) (P : State → Prop) : Prop :=
  ∀ n, ∃ t, run program n s = some t ∧ ¬ P t

theorem Avoids.not_leads (h : Avoids program s P) : ¬ Leads program s P := by
  rintro ⟨t, ⟨n, hn⟩, ht⟩
  obtain ⟨u, hu, hnot⟩ := h n
  rw [hn] at hu
  cases hu
  exact hnot ht

theorem Avoids.head {body : Body} (hi : instruction? program s.line = some body)
    (he : s.execute program body = some t) (hs : ¬ P s) (h : Avoids program t P) :
    Avoids program s P := by
  intro n
  cases n with
  | zero => exact ⟨s, rfl, hs⟩
  | succ n =>
    rw [run, step_eq hi he]
    exact h n

theorem Avoids.of_invariant {I : State → Prop}
    (hstep : ∀ s, I s → ∃ t, step program s = some t ∧ I t) (hnot : ∀ s, I s → ¬ P s)
    (hs : I s) : Avoids program s P := by
  intro n
  induction n generalizing s with
  | zero => exact ⟨s, rfl, hnot s hs⟩
  | succ n ih =>
    obtain ⟨t, ht, hI⟩ := hstep s hs
    rw [run, ht]
    exact ih hI

section Instruction

variable {n : Int} {w : Word}

theorem State.operate_immediate (r : Register) (f : Word → Word → Word)
    (hn : number? (.decimal n) = some n) :
    s.operate r f (.decimal n) .immediate = some (s.put (f (s.get r) (.ofInt 16 n)) r) := by
  simp [operate, fetch?, hn]

theorem State.operate_stack (r : Register) (f : Word → Word → Word)
    (hn : distance? (.decimal n) = some n) (hm : s.memory (s.sp + n) = .word w) :
    s.operate r f (.decimal n) .stackRelative = some (s.put (f (s.get r) w) r) := by
  simp [operate, fetch?, address?, hn, hm]

theorem State.save_stack (r : Register) (hn : distance? (.decimal n) = some n) :
    s.save r (.decimal n) .stackRelative = some (s.store (s.sp + n) (.word (s.get r))).next := by
  simp [save, address?, hn]

variable {o : Operand} {line : Nat}

theorem State.execute_br (h : target? program o = some line) :
    s.execute program (.dyadic .br o .immediate) = some (s.goto line) := by
  simp [execute, h]

theorem State.execute_breq_taken (hz : s.zero = true) (h : target? program o = some line) :
    s.execute program (.dyadic .breq o .immediate) = some (s.goto line) := by
  simp [execute, hz, h]

theorem State.execute_breq_passed (hz : s.zero = false) :
    s.execute program (.dyadic .breq o .immediate) = some s.next := by
  simp [execute, hz]

theorem State.execute_call (h : target? program o = some line) :
    s.execute program (.dyadic .call o .immediate) =
      some ((s.push (.link (s.line + 1))).goto line) := by
  simp [execute, h]

theorem State.execute_ret (h : s.memory s.sp = .link line) :
    s.execute program (.monadic .ret) = some ((s.moveStack 2).goto line) := by
  simp [execute, h]

end Instruction

/-- A piece of code that stands in a program from a line on and whose symbols are the program's. -/
structure Linked (program piece : List CodeLine) (base : Nat) : Prop where
  instruction {k : Nat} {body : Body} (h : instruction? piece k = some body) :
    instruction? program (base + k) = some body
  target {o : Operand} {k : Nat} (h : target? piece o = some k) :
    target? program o = some (base + k)

def declared (lines : List CodeLine) : List String :=
  lines.filterMap CodeLine.symbol

/-- A piece is linked if nothing in front of it declares one of its symbols. -/
theorem linked_append {before piece : List CodeLine} (after : List CodeLine)
    (h : ∀ name ∈ declared piece, name ∉ declared before) :
    Linked (before ++ piece ++ after) piece before.length := by
  constructor
  · intro k body hk
    obtain ⟨line, hline, rfl⟩ := Option.map_eq_some_iff.1 hk
    have hlt : k < piece.length := (List.getElem?_eq_some_iff.1 hline).1
    rw [instruction?, List.append_assoc, List.getElem?_append_right (Nat.le_add_right _ _),
      Nat.add_sub_cancel_left, List.getElem?_append_left hlt, hline, Option.map_some]
  · intro o k hk
    cases o with
    | symbol name =>
      change piece.findIdx? (·.symbol == some name) = some k at hk
      have hname : name ∈ declared piece := by
        obtain ⟨hlt, hsymbol, -⟩ := List.findIdx?_eq_some_iff_getElem.1 hk
        exact List.mem_filterMap.2 ⟨_, List.getElem_mem hlt, by simpa using hsymbol⟩
      have hbefore : before.findIdx? (·.symbol == some name) = none := by
        apply List.findIdx?_eq_none_iff.2
        intro line hline
        have hne : line.symbol ≠ some name := fun he ↦
          h name hname (List.mem_filterMap.2 ⟨line, hline, he⟩)
        simpa using hne
      change (before ++ piece ++ after).findIdx? (·.symbol == some name) = some (before.length + k)
      rw [List.append_assoc, List.findIdx?_append, hbefore, List.findIdx?_append, hk]
      simp [Nat.add_comm]
    | _ => contradiction

end PepAsm.Machine
