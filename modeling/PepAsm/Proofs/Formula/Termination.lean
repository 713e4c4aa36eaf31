import PepAsm.Proofs.Formula.Evaluation
import Mathlib.Tactic.IntervalCases

namespace PepAsm.Formula

open PepAsm.Assembly PepAsm.Instruction PepAsm.Machine

variable {program : List CodeLine} {base : Nat} {s : State} {a b : Word}

/-- The machine inside the loop while the multiplier is negative. The shift keeps the sign, so the
multiplier is never zero when it is tested. -/
inductive Endless (base : Nat) : State → Prop
  | intro (k : Nat) (hk : 3 ≤ k ∧ k ≤ 16) {a x : Word} {z : Bool} {sp : Int}
      {memory : Int → Cell} {sum b w : Word} (hb : b.msb = true) (hz : k = 5 → z = false)
      (hx : k = 14 ∨ k = 15 → x.msb = true) :
      Endless base ⟨base + k, a, x, z, sp, frame memory sp sum b w⟩

theorem ne_zero_of_msb (hb : b.msb = true) : (b == 0#16) = false := by
  apply beq_eq_false_iff_ne.2
  rintro rfl
  contradiction

theorem endless_step (h : Linked program timesSubroutine base) (hs : Endless base s) :
    ∃ t, step program s = some t ∧ Endless base t := by
  obtain @⟨k, ⟨hlow, hhigh⟩, a, x, z, sp, memory, sum, b, w, hb, hz, hx⟩ := hs
  interval_cases k
  · refine ⟨_, step_eq (h.instruction (k := 3) rfl)
      (State.operate_stack .a (fun _ w ↦ w) rfl (frame_a ..)), ?_⟩
    exact .intro 4 (by omega) hb nofun nofun
  · refine ⟨_, step_eq (h.instruction (k := 4) rfl)
      (State.operate_stack .x (fun _ w ↦ w) rfl (frame_b ..)), ?_⟩
    exact .intro 5 (by omega) hb (fun _ ↦ ne_zero_of_msb hb) nofun
  · refine ⟨_, step_eq (h.instruction (k := 5) rfl)
      (State.execute_breq_passed (hz rfl)), ?_⟩
    exact .intro 6 (by omega) hb nofun nofun
  · refine ⟨_, step_eq (h.instruction (k := 6) rfl)
      (State.operate_immediate .x (· &&& ·) rfl), ?_⟩
    exact .intro 7 (by omega) hb nofun nofun
  · cases z with
    | true =>
      refine ⟨_, step_eq (h.instruction (k := 7) rfl)
        (State.execute_breq_taken rfl (h.target rfl)), ?_⟩
      exact .intro 11 (by omega) hb nofun nofun
    | false =>
      refine ⟨_, step_eq (h.instruction (k := 7) rfl) (State.execute_breq_passed rfl), ?_⟩
      exact .intro 8 (by omega) hb nofun nofun
  · refine ⟨_, step_eq (h.instruction (k := 8) rfl)
      (State.operate_stack .a (· + ·) rfl (frame_sum ..)), ?_⟩
    exact .intro 9 (by omega) hb nofun nofun
  · refine ⟨_, step_eq (h.instruction (k := 9) rfl) (State.save_stack .a rfl), ?_⟩
    rw [State.store, update_frame_sum]
    exact .intro 10 (by omega) hb nofun nofun
  · refine ⟨_, step_eq (h.instruction (k := 10) rfl)
      (State.operate_stack .a (fun _ w ↦ w) rfl (frame_a ..)), ?_⟩
    exact .intro 11 (by omega) hb nofun nofun
  · exact ⟨_, step_eq (h.instruction (k := 11) rfl) rfl, .intro 12 (by omega) hb nofun nofun⟩
  · refine ⟨_, step_eq (h.instruction (k := 12) rfl) (State.save_stack .a rfl), ?_⟩
    rw [State.store, update_frame_a]
    exact .intro 13 (by omega) hb nofun nofun
  · refine ⟨_, step_eq (h.instruction (k := 13) rfl)
      (State.operate_stack .x (fun _ w ↦ w) rfl (frame_b ..)), ?_⟩
    exact .intro 14 (by omega) hb nofun fun _ ↦ hb
  · -- The arithmetic shift copies the sign bit.
    refine ⟨_, step_eq (h.instruction (k := 14) rfl) rfl, .intro 15 (by omega) hb nofun fun _ ↦ ?_⟩
    rw [BitVec.msb_sshiftRight]
    exact hx (.inl rfl)
  · refine ⟨_, step_eq (h.instruction (k := 15) rfl) (State.save_stack .x rfl), ?_⟩
    rw [State.store, update_frame_b]
    exact .intro 16 (by omega) (hx (.inr rfl)) nofun nofun
  · refine ⟨_, step_eq (h.instruction (k := 16) rfl) (State.execute_br (h.target rfl)), ?_⟩
    exact .intro 3 (by omega) hb nofun nofun

theorem endless_run (h : Linked program timesSubroutine base) (hs : Endless base s) :
    Avoids program s (·.line = base + 19) := by
  apply Avoids.of_invariant (fun s ↦ endless_step h) _ hs
  rintro s ⟨k, hk, -, -, -⟩ hline
  have hreturn : base + k = base + 19 := hline
  omega

theorem enter_endless (h : Linked program timesSubroutine base) (hs : s.line = base)
    (hb : s.memory (s.sp + 2) = .word b) (ha : s.memory (s.sp + 4) = .word a)
    (hsign : b.msb = true) : Avoids program s (·.line = base + 19) := by
  obtain ⟨l, a', x, z, sp, memory⟩ := s
  obtain rfl : l = base := hs
  have hbefore {k : Nat} (hk : k < 19) : ¬ l + k = l + 19 := by omega
  have h4 : sp + -2 + 4 = sp + 2 := by omega
  have h6 : sp + -2 + 6 = sp + 4 := by omega
  have hframe : frame memory (sp + -2) 0#16 b a =
      Function.update memory (sp + -2 + 0) (.word 0#16) := by
    apply frame_eq_update
    · rwa [h4]
    · rwa [h6]
  refine .head (h.instruction (k := 0) rfl) rfl (hbefore (k := 0) (by decide)) ?_
  refine .head (h.instruction (k := 1) rfl) (State.operate_immediate .a (fun _ w ↦ w) rfl)
    (hbefore (k := 1) (by decide)) ?_
  refine .head (h.instruction (k := 2) rfl) (State.save_stack .a rfl)
    (hbefore (k := 2) (by decide)) ?_
  apply endless_run h
  change Endless l
    ⟨l + 3, 0#16, x, true, sp + -2, Function.update memory (sp + -2 + 0) (.word 0#16)⟩
  rw [← hframe]
  exact .intro 3 (by omega) hsign nofun nofun

theorem call_enters (h : Linked program timesSubroutine base) (hb : s.memory s.sp = .word b)
    (ha : s.memory (s.sp + 2) = .word a) :
    ∃ t, s.execute program (.dyadic .call (.symbol "times") .immediate) = some t ∧
      t.line = base ∧ t.sp = s.sp - 2 ∧ t.memory t.sp = .link (s.line + 1) ∧
      t.memory (t.sp + 2) = .word b ∧ t.memory (t.sp + 4) = .word a := by
  have h2 : s.sp + -2 + 2 = s.sp := by omega
  have h4 : s.sp + -2 + 4 = s.sp + 2 := by omega
  refine ⟨_, State.execute_call (h.target (k := 0) rfl), rfl, rfl, Function.update_self .., ?_, ?_⟩
  · change Function.update s.memory (s.sp + -2) _ (s.sp + -2 + 2) = _
    rwa [h2, Function.update_of_ne (by omega)]
  · change Function.update s.memory (s.sp + -2) _ (s.sp + -2 + 4) = _
    rwa [h4, Function.update_of_ne (by omega)]

theorem call_endless (h : Linked program timesSubroutine base)
    (hcall : instruction? program s.line = some (.dyadic .call (.symbol "times") .immediate))
    (hb : s.memory s.sp = .word b) (ha : s.memory (s.sp + 2) = .word a)
    (hbig : 2 ^ 15 ≤ b.toNat) : Avoids program s (·.line = base + 19) := by
  have hreturn : instruction? program (base + 19) = some (.monadic .ret) :=
    h.instruction (k := 19) rfl
  have hsign : b.msb = true := by
    rw [BitVec.msb_eq_true_iff_two_mul_ge]
    omega
  obtain ⟨t, ht, hline, -, -, hb', ha'⟩ := call_enters h hb ha
  refine .head hcall ht (fun hs ↦ ?_) (enter_endless h hline hb' ha' hsign)
  rw [hs, hreturn] at hcall
  contradiction

/-- The product subroutine comes to its return, with the product and with the stack as it was at
its entry, exactly if the multiplier is not negative. With a negative multiplier it goes on for
ever. -/
theorem times_returns_iff (h : Linked program timesSubroutine base) (s : State) (a b : Word)
    (hcall : instruction? program s.line = some (.dyadic .call (.symbol "times") .immediate))
    (hb : s.memory s.sp = .word b) (ha : s.memory (s.sp + 2) = .word a) :
    (Leads program s (fun t ↦
        t.line = base + 19 ∧ instruction? program t.line = some (.monadic .ret) ∧
        t.a = a * b ∧ t.sp = s.sp - 2 ∧ t.memory t.sp = .link (s.line + 1)) ↔
      b.toNat < 2 ^ 15) ∧
    (2 ^ 15 ≤ b.toNat → ∀ n, ∃ t, run program n s = some t ∧ t.line ≠ base + 19) := by
  refine ⟨⟨fun hleads ↦ ?_, fun hsmall ↦ ?_⟩, call_endless h hcall hb ha⟩
  · by_contra hbig
    obtain ⟨t, ht, hline, -⟩ := hleads
    exact (call_endless h hcall hb ha (by omega)).not_leads ⟨t, ht, hline⟩
  · obtain ⟨t, ht, hline, hsp, hlink, hb', ha'⟩ := call_enters h hb ha
    refine .head hcall ht ?_
    refine (times_leads h hline hb' ha' hsmall).bind
      fun u ⟨huline, hproduct, husp, hutop, _⟩ ↦ .done ?_
    refine ⟨huline, ?_, hproduct, husp.trans hsp, hutop.trans hlink⟩
    rw [huline]
    exact h.instruction (k := 19) rfl

theorem times_returns_iff_six_seven :
    let program := code [.decimal 6, .decimal 7, .times]
    let s : State := ⟨6, 0, 0, false, 0, fun address ↦ .word (if address = 0 then 7 else 6)⟩
    instruction? program s.line = some (.dyadic .call (.symbol "times") .immediate) ∧
      Leads program s fun t ↦ t.line = 34 ∧ t.a = 42#16 ∧ t.sp = -2 := by
  intro program s
  have hcall : instruction? program s.line = some (.dyadic .call (.symbol "times") .immediate) :=
    rfl
  have hleads := (times_returns_iff (linked_times _) s 6 7 hcall rfl rfl).1.2 (by decide)
  exact ⟨hcall, hleads.bind fun t ⟨hline, _, hproduct, hsp, _⟩ ↦ .done ⟨hline, hproduct, hsp⟩⟩

/-- The code for `1*65535` never comes back from its product. -/
theorem times_never_returns :
    let program := code [.decimal 1, .decimal 65535, .times]
    let s : State := ⟨6, 0, 0, false, 0, fun address ↦ .word (if address = 0 then 65535 else 1)⟩
    instruction? program s.line = some (.dyadic .call (.symbol "times") .immediate) ∧
      s.memory s.sp = .word 65535 ∧ s.memory (s.sp + 2) = .word 1 ∧
      instruction? program 34 = some (.monadic .ret) ∧ ¬ Leads program s (·.line = 34) := by
  intro program s
  have hcall : instruction? program s.line = some (.dyadic .call (.symbol "times") .immediate) :=
    rfl
  have hendless := call_endless (linked_times _) hcall (b := 65535) (a := 1) rfl rfl (by decide)
  exact ⟨hcall, rfl, rfl, rfl, hendless.not_leads⟩

end PepAsm.Formula
