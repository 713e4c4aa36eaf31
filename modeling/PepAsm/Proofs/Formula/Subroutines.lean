import PepAsm.Proofs.Formula.Generation
import PepAsm.Proofs.Machine.Execution
import Mathlib.Algebra.Group.Int.Defs
import Mathlib.Algebra.Group.Nat.Defs

namespace PepAsm.Formula

open PepAsm.Assembly PepAsm.Instruction PepAsm.Machine

variable {program : List CodeLine} {base : Nat}

/-- A subroutine that takes the words `x` and `y` from below its return address and comes back with
`w`. It may change these two words and the ones above its return address. -/
def Returns (program : List CodeLine) (entry : Nat) (x y w : Word) : Prop :=
  ∀ (s : State) (line : Nat), s.line = entry → s.memory s.sp = .link line →
    s.memory (s.sp + 2) = .word y → s.memory (s.sp + 4) = .word x →
    Leads program s fun t ↦ t.line = line ∧ t.a = w ∧ t.sp = s.sp + 2 ∧
      ∀ address, s.sp + 4 < address → t.memory address = s.memory address

theorem returns_plus (h : Linked program plusSubroutine base) (x y : Word) :
    Returns program base x y (x + y) := by
  intro s line hs hlink hy hx
  obtain ⟨l, a, r, z, sp, memory⟩ := s
  obtain rfl : l = base := hs
  refine .head (h.instruction (k := 0) rfl) (State.operate_stack .a (fun _ w ↦ w) rfl hy) ?_
  refine .head (h.instruction (k := 1) rfl) (State.operate_stack .a (· + ·) rfl hx) ?_
  refine .head (h.instruction (k := 2) rfl) (State.execute_ret hlink) (.done ?_)
  exact ⟨rfl, BitVec.add_comm y x, rfl, fun address _ ↦ rfl⟩

theorem mul_halve (a b : Word) :
    a * b = (if b &&& 1#16 = 0#16 then 0#16 else a) + (a <<< 1) * (b >>> 1) := by
  have hmod : (b &&& 1#16).toNat = b.toNat % 2 := Nat.and_one_is_mod b.toNat
  have hb : b = (b &&& 1#16) + 2#16 * (b >>> 1) := by
    apply BitVec.eq_of_toNat_eq
    have hdiv : b.toNat >>> 1 = b.toNat / 2 := Nat.shiftRight_eq_div_pow ..
    simp only [BitVec.toNat_add, BitVec.toNat_mul, BitVec.toNat_ofNat, BitVec.toNat_ushiftRight,
      hmod, hdiv, Nat.reducePow, Nat.reduceMod]
    omega
  have hdouble : a <<< 1 = a * 2#16 := by
    apply BitVec.eq_of_toNat_eq
    simp [Nat.shiftLeft_eq]
  have hcases : b &&& 1#16 = 0#16 ∨ b &&& 1#16 = 1#16 := by
    simp only [← BitVec.toNat_inj, hmod, BitVec.toNat_ofNat, Nat.reducePow, Nat.reduceMod]
    omega
  have hbit : a * (b &&& 1#16) = if b &&& 1#16 = 0#16 then 0#16 else a := by
    rcases hcases with hbit | hbit
    · simp [hbit]
    · simp [hbit]
  calc a * b = a * ((b &&& 1#16) + 2#16 * (b >>> 1)) := by rw [← hb]
    _ = _ := by rw [BitVec.mul_add, hbit, hdouble, BitVec.mul_assoc]

/-- The stack while a product is computed: the sum so far, the return address, and what is left to
multiply. -/
def frame (memory : Int → Cell) (sp : Int) (sum b a : Word) : Int → Cell :=
  Function.update (Function.update (Function.update memory (sp + 0) (.word sum))
    (sp + 4) (.word b)) (sp + 6) (.word a)

section Frame

variable (memory : Int → Cell) (sp : Int) (sum b a w : Word)

theorem frame_sum : frame memory sp sum b a (sp + 0) = .word sum := by
  simp only [frame, Function.update_apply]
  grind

theorem frame_b : frame memory sp sum b a (sp + 4) = .word b := by
  simp [frame]

theorem frame_a : frame memory sp sum b a (sp + 6) = .word a := by
  simp [frame]

theorem frame_other {address : Int} (h : address ≠ sp + 0 ∧ address ≠ sp + 4 ∧ address ≠ sp + 6) :
    frame memory sp sum b a address = memory address := by
  obtain ⟨h0, h4, h6⟩ := h
  rw [frame, Function.update_of_ne h6, Function.update_of_ne h4, Function.update_of_ne h0]

theorem frame_eq_update (hb : memory (sp + 4) = .word b) (ha : memory (sp + 6) = .word a) :
    frame memory sp sum b a = Function.update memory (sp + 0) (.word sum) := by
  funext address
  simp only [frame, Function.update_apply]
  grind

theorem update_frame_sum : Function.update (frame memory sp sum b a) (sp + 0) (.word w) =
    frame memory sp w b a := by
  funext address
  simp only [frame, Function.update_apply]
  grind

theorem update_frame_b : Function.update (frame memory sp sum b a) (sp + 4) (.word w) =
    frame memory sp sum w a := by
  funext address
  simp only [frame, Function.update_apply]
  grind

theorem update_frame_a : Function.update (frame memory sp sum b a) (sp + 6) (.word w) =
    frame memory sp sum b w := by
  simp [frame]

end Frame

def InLoop (base : Nat) (memory : Int → Cell) (sp : Int) (sum b a : Word) (s : State) : Prop :=
  s.line = base + 3 ∧ s.sp = sp ∧ s.memory = frame memory sp sum b a

variable {memory : Int → Cell} {sp : Int} {sum b a : Word} {s : State}

theorem shift_leads (h : Linked program timesSubroutine base) (memory : Int → Cell) (sp : Int)
    (sum b a x : Word) (z : Bool) :
    Leads program ⟨base + 11, a, x, z, sp, frame memory sp sum b a⟩
      (InLoop base memory sp sum (b.sshiftRight 1) (a <<< 1)) := by
  have hstore := update_frame_a memory sp sum b a (a <<< 1)
  have hload := frame_b memory sp sum b (a <<< 1)
  rw [← hstore] at hload
  refine .head (h.instruction (k := 11) rfl) rfl ?_
  refine .head (h.instruction (k := 12) rfl) (State.save_stack .a rfl) ?_
  refine .head (h.instruction (k := 13) rfl) (State.operate_stack .x (fun _ w ↦ w) rfl hload) ?_
  refine .head (h.instruction (k := 14) rfl) rfl ?_
  refine .head (h.instruction (k := 15) rfl) (State.save_stack .x rfl) ?_
  refine .head (h.instruction (k := 16) rfl) (State.execute_br (h.target rfl)) (.done ?_)
  refine ⟨rfl, rfl, ?_⟩
  change Function.update (Function.update (frame memory sp sum b a) (sp + 6) (.word (a <<< 1)))
    (sp + 4) (.word (b.sshiftRight 1)) = _
  rw [hstore, update_frame_b]

/-- One turn of the loop adds what the lowest bit of the multiplier asks for, and goes on with the
double of one factor and half of the other. -/
theorem loop_step (h : Linked program timesSubroutine base) (hb : b ≠ 0#16)
    (hs : InLoop base memory sp sum b a s) :
    Leads program s (InLoop base memory sp (sum + if b &&& 1#16 = 0#16 then 0#16 else a)
      (b.sshiftRight 1) (a <<< 1)) := by
  obtain ⟨l, a', x, z, sp', memory'⟩ := s
  obtain ⟨hl, hsp, hmemory⟩ := hs
  obtain rfl : l = base + 3 := hl
  obtain rfl : sp' = sp := hsp
  obtain rfl : memory' = frame memory sp' sum b a := hmemory
  refine .head (h.instruction (k := 3) rfl)
    (State.operate_stack .a (fun _ w ↦ w) rfl (frame_a ..)) ?_
  refine .head (h.instruction (k := 4) rfl)
    (State.operate_stack .x (fun _ w ↦ w) rfl (frame_b ..)) ?_
  refine .head (h.instruction (k := 5) rfl)
    (State.execute_breq_passed (beq_eq_false_iff_ne.2 hb)) ?_
  refine .head (h.instruction (k := 6) rfl) (State.operate_immediate .x (· &&& ·) rfl) ?_
  by_cases hbit : b &&& 1#16 = 0#16
  · rw [if_pos hbit, BitVec.add_zero]
    refine .head (h.instruction (k := 7) rfl)
      (State.execute_breq_taken (beq_iff_eq.2 hbit) (h.target rfl)) ?_
    exact shift_leads h ..
  · rw [if_neg hbit]
    have hstore := update_frame_sum memory sp' sum b a (a + sum)
    have hload := frame_a memory sp' (a + sum) b a
    rw [← hstore] at hload
    refine .head (h.instruction (k := 7) rfl)
      (State.execute_breq_passed (beq_eq_false_iff_ne.2 hbit)) ?_
    refine .head (h.instruction (k := 8) rfl)
      (State.operate_stack .a (· + ·) rfl (frame_sum ..)) ?_
    refine .head (h.instruction (k := 9) rfl) (State.save_stack .a rfl) ?_
    refine .head (h.instruction (k := 10) rfl)
      (State.operate_stack .a (fun _ w ↦ w) rfl hload) ?_
    have hshift := shift_leads h memory sp' (a + sum) b a (b &&& 1#16) (a == 0#16)
    rw [← hstore] at hshift
    rw [BitVec.add_comm sum a]
    exact hshift

theorem loop_run (h : Linked program timesSubroutine base) (hb : b.toNat < 2 ^ 15)
    (hs : InLoop base memory sp sum b a s) :
    Leads program s fun t ↦ ∃ a', InLoop base memory sp (sum + a * b) 0#16 a' t := by
  induction hn : b.toNat using Nat.strongRecOn generalizing s sum b a with
  | ind n ih =>
    by_cases hzero : b = 0#16
    · subst hzero
      rw [BitVec.mul_zero, BitVec.add_zero]
      exact .done ⟨a, hs⟩
    · have hhalf : b.sshiftRight 1 = b >>> 1 := by
        apply BitVec.sshiftRight_eq_of_msb_false
        rw [BitVec.msb_eq_false_iff_two_mul_lt]
        omega
      have htoNat : (b >>> 1).toNat = b.toNat / 2 := by
        simp [Nat.shiftRight_eq_div_pow]
      have hpos : b.toNat ≠ 0 := fun h0 ↦ hzero (BitVec.eq_of_toNat_eq h0)
      refine (loop_step h hzero hs).bind fun t ht ↦ ?_
      rw [hhalf] at ht
      have hrest := ih (b.toNat / 2) (by omega) (by omega) ht htoNat
      rwa [BitVec.add_assoc, ← mul_halve] at hrest

theorem exit_leads (h : Linked program timesSubroutine base)
    (hs : InLoop base memory sp sum 0#16 a s) :
    Leads program s fun t ↦ t.line = base + 19 ∧ t.a = sum ∧ t.sp = sp + 2 ∧
      t.memory = frame memory sp sum 0#16 a := by
  obtain ⟨l, a', x, z, sp', memory'⟩ := s
  obtain ⟨hl, hsp, hmemory⟩ := hs
  obtain rfl : l = base + 3 := hl
  obtain rfl : sp' = sp := hsp
  obtain rfl : memory' = frame memory sp' sum 0#16 a := hmemory
  refine .head (h.instruction (k := 3) rfl)
    (State.operate_stack .a (fun _ w ↦ w) rfl (frame_a ..)) ?_
  refine .head (h.instruction (k := 4) rfl)
    (State.operate_stack .x (fun _ w ↦ w) rfl (frame_b ..)) ?_
  refine .head (h.instruction (k := 5) rfl) (State.execute_breq_taken rfl (h.target rfl)) ?_
  refine .head (h.instruction (k := 17) rfl)
    (State.operate_stack .a (fun _ w ↦ w) rfl (frame_sum ..)) ?_
  refine .head (h.instruction (k := 18) rfl) rfl (.done ?_)
  exact ⟨rfl, rfl, rfl, rfl⟩

theorem enter_leads (h : Linked program timesSubroutine base) (hs : s.line = base)
    (hb : s.memory (s.sp + 2) = .word b) (ha : s.memory (s.sp + 4) = .word a) :
    Leads program s (InLoop base s.memory (s.sp + -2) 0#16 b a) := by
  obtain ⟨l, a', x, z, sp, memory⟩ := s
  obtain rfl : l = base := hs
  have h4 : sp + -2 + 4 = sp + 2 := by omega
  have h6 : sp + -2 + 6 = sp + 4 := by omega
  refine .head (h.instruction (k := 0) rfl) rfl ?_
  refine .head (h.instruction (k := 1) rfl) (State.operate_immediate .a (fun _ w ↦ w) rfl) ?_
  refine .head (h.instruction (k := 2) rfl) (State.save_stack .a rfl) (.done ?_)
  refine ⟨rfl, rfl, (frame_eq_update memory (sp + -2) 0#16 b a ?_ ?_).symm⟩
  · rwa [h4]
  · rwa [h6]

theorem times_leads (h : Linked program timesSubroutine base) (hs : s.line = base)
    (hb : s.memory (s.sp + 2) = .word b) (ha : s.memory (s.sp + 4) = .word a)
    (hsmall : b.toNat < 2 ^ 15) :
    Leads program s fun t ↦ t.line = base + 19 ∧ t.a = a * b ∧ t.sp = s.sp ∧
      t.memory t.sp = s.memory s.sp ∧
      ∀ address, s.sp + 4 < address → t.memory address = s.memory address := by
  refine (enter_leads h hs hb ha).bind fun t ht ↦ ?_
  refine (loop_run h hsmall ht).bind fun u ⟨a', hu⟩ ↦ ?_
  rw [BitVec.zero_add] at hu
  refine (exit_leads h hu).bind fun v ⟨hline, hproduct, hsp, hmemory⟩ ↦ .done ?_
  have h2 : v.sp = s.sp := by omega
  refine ⟨hline, hproduct, h2, ?_, fun address haddress ↦ ?_⟩
  · rw [hmemory, h2]
    exact frame_other _ _ _ _ _ (by omega)
  · rw [hmemory]
    exact frame_other _ _ _ _ _ (by omega)

theorem returns_times (h : Linked program timesSubroutine base) (x y : Word)
    (hy : y.toNat < 2 ^ 15) : Returns program base x y (x * y) := by
  intro s line hs hlink htop hbelow
  refine (times_leads h hs htop hbelow hy).bind fun t ⟨hline, ha, hsp, htop', hkeep⟩ ↦ ?_
  obtain ⟨l, a, r, z, sp, memory⟩ := t
  obtain rfl : l = base + 19 := hline
  refine .head (h.instruction (k := 19) rfl) (State.execute_ret (htop'.trans hlink)) (.done ?_)
  exact ⟨rfl, ha, congrArg (· + 2) hsp, hkeep⟩

end PepAsm.Formula
