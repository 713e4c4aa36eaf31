import PepAsm.Proofs.Formula.Evaluation
import PepAsm.Proofs.Machine.StackDepth

namespace PepAsm.Formula

open PepAsm.Assembly PepAsm.Instruction PepAsm.Machine PepAsm.Scan

structure Grown (s : State) (stop : Nat) (t : State) : Prop where
  line : t.line = stop
  sp : t.sp = s.sp - 2
  top : ∃ w, t.memory t.sp = .word w
  kept : ∀ address, s.sp ≤ address → t.memory address = s.memory address

/-- No run from the line `start` comes to the line `ending` unless it comes to the line `stop`
before, with one more word on the stack. -/
def Grows (program : List CodeLine) (ending start stop : Nat) : Prop :=
  ∀ s : State, s.line = start → Passes program ending s (Grown s stop)

section Code

variable {program piece : List CodeLine} {base first second entry ending : Nat} {name : String}

theorem grows_number {n : Int} (h : Linked program (tokenCode (.decimal n)) base)
    (hending : base + 3 ≤ ending) : Grows program ending base (base + 3) := by
  intro s hs
  refine .head h (k := 0) rfl hs (by omega) fun t ht ↦ ?_
  obtain ⟨htline, htsp, htmemory⟩ := ht.advances (n := -2) rfl rfl rfl rfl
  refine .head h (k := 1) rfl (by omega) (by omega) fun u hu ↦ ?_
  obtain ⟨huline, husp, humemory⟩ := hu.advances (n := 0) rfl rfl rfl rfl
  refine .head h (k := 2) rfl (by omega) (by omega) fun v hv ↦ .done ?_
  obtain ⟨hvline, hvsp, w, hvmemory⟩ := hv.stores (n := 0) rfl rfl
  refine ⟨by omega, by omega, ⟨w, ?_⟩, fun address haddress ↦ ?_⟩
  · rw [hvmemory, hvsp, Int.add_zero, Function.update_self]
  · rw [hvmemory, Function.update_of_ne (by omega), humemory, htmemory]

theorem operator_passes {s : State} (h : Linked program (applyOperator name) base)
    (ht : target? program (.symbol name) = some entry) (hsub : Linked program piece entry)
    (hp : Disciplined piece) (hending : base + 3 ≤ ending) (hentry : ending < entry)
    (hs : s.line = base) :
    Passes program ending s fun t ↦ t.line = base + 3 ∧ t.sp = s.sp + 2 ∧
      (∃ w, t.memory t.sp = .word w) ∧
      ∀ address, s.sp + 2 < address → t.memory address = s.memory address := by
  refine .head h (k := 0) rfl hs (by omega) fun t hcall ↦ ?_
  obtain ⟨htline, htsp, htmemory⟩ := hcall.enters ht
  refine (passes_returned hp hsub hentry htline).bind fun u ⟨hlink, husp, hukept⟩ ↦ ?_
  -- The call left the line after it as the link, so this is where the subroutine comes back to.
  rw [htsp, htmemory, Function.update_self] at hlink
  injection hlink with huline
  refine .head h (k := 1) rfl (by omega) (by omega) fun v hv ↦ ?_
  obtain ⟨hvline, hvsp, hvmemory⟩ := hv.advances (n := 2) rfl rfl rfl rfl
  refine .head h (k := 2) rfl (by omega) (by omega) fun r hr ↦ .done ?_
  obtain ⟨hrline, hrsp, w, hrmemory⟩ := hr.stores (n := 0) rfl rfl
  refine ⟨by omega, by omega, ⟨w, ?_⟩, fun address haddress ↦ ?_⟩
  · rw [hrmemory, hrsp, Int.add_zero, Function.update_self]
  · rw [hrmemory, Function.update_of_ne (by omega), hvmemory, hukept address (by omega),
      htmemory, Function.update_of_ne (by omega)]

theorem Grows.operator (h : Linked program (applyOperator name) base)
    (ht : target? program (.symbol name) = some entry) (hsub : Linked program piece entry)
    (hp : Disciplined piece) (hending : base + 3 ≤ ending) (hentry : ending < entry)
    (hx : Grows program ending first second) (hy : Grows program ending second base) :
    Grows program ending first (base + 3) := by
  intro s hs
  refine (hx s hs).bind fun t ⟨htline, htsp, _, htkept⟩ ↦ ?_
  refine (hy t htline).bind fun u ⟨huline, husp, _, hukept⟩ ↦ ?_
  refine (operator_passes h ht hsub hp hending hentry huline).bind
    fun v ⟨hvline, hvsp, hvtop, hvkept⟩ ↦ .done ⟨hvline, by omega, hvtop, fun address haddress ↦ ?_⟩
  rw [hvkept address (by omega), hukept address (by omega), htkept address haddress]

end Code

theorem disciplined_plus : Disciplined plusSubroutine := by decide

theorem disciplined_times : Disciplined timesSubroutine := by decide

theorem codeLength_token_le {tokens before after : List Token} {token : Token}
    (ht : tokens = before ++ token :: after) (hthree : codeLength [token] = 3) :
    codeLength before + 3 ≤ codeLength tokens + 2 := by
  rw [ht, List.append_cons, codeLength_append, codeLength_append, hthree]
  omega

/-- A run comes to the end of the program only over the code of each phrase, which leaves one more
word on the stack. -/
theorem grows_derivation {n : Nonterminal} (d : Derivation n) {tokens before after : List Token}
    (ht : tokens = before ++ d.postorder ++ after) :
    Grows (code tokens) (codeLength tokens + 2) (codeLength before)
      (codeLength (before ++ d.postorder)) := by
  induction d generalizing before after with
  | sum left right ihl ihr =>
    simp only [Derivation.postorder, ← List.append_assoc] at ht ⊢
    have hx := @ihl before (right.postorder ++ [.plus] ++ after) (by simp [ht])
    have hy := @ihr (before ++ left.postorder) ([.plus] ++ after) (by simp [ht])
    have htoken := ht.trans (List.append_assoc ..)
    rw [codeLength_append _ [.plus]]
    exact .operator (linked_token tokens htoken) ((linked_plus tokens).target rfl)
      (linked_plus tokens) disciplined_plus (codeLength_token_le htoken rfl)
      (Nat.lt_add_one _) hx hy
  | single term ih => exact ih ht
  | product left right ihl ihr =>
    simp only [Derivation.postorder, ← List.append_assoc] at ht ⊢
    have hx := @ihl before (right.postorder ++ [.times] ++ after) (by simp [ht])
    have hy := @ihr (before ++ left.postorder) ([.times] ++ after) (by simp [ht])
    have htoken := ht.trans (List.append_assoc ..)
    rw [codeLength_append _ [.times]]
    exact .operator (linked_token tokens htoken) ((linked_times tokens).target rfl)
      (linked_times tokens) disciplined_times (codeLength_token_le htoken rfl)
      (Nat.add_lt_add_left (by decide) _) hx hy
  | lone factor ih => exact ih ht
  | nested inner ih => exact ih ht
  | number k =>
    have htoken := ht.trans (List.append_assoc ..)
    rw [codeLength_append]
    exact grows_number (linked_token tokens htoken) (codeLength_token_le htoken rfl)

theorem depth_derivation {n : Nonterminal} (d : Derivation n) :
    depth (d.postorder.flatMap tokenCode) = -2 := by
  induction d with
  | sum left right ihl ihr =>
    rw [Derivation.postorder, List.flatMap_append, List.flatMap_append, depth_append, depth_append,
      ihl, ihr]
    rfl
  | single term ih => exact ih
  | product left right ihl ihr =>
    rw [Derivation.postorder, List.flatMap_append, List.flatMap_append, depth_append, depth_append,
      ihl, ihr]
    rfl
  | lone factor ih => exact ih
  | nested inner ih => exact ih
  | number k => rfl

section Ending

variable (d : Derivation .expression)

theorem depth_main :
    depth ((code d.postorder).take (codeLength d.postorder + 2)) = -2 := by
  have hmain : (code d.postorder).take (codeLength d.postorder + 2) =
      d.postorder.flatMap tokenCode ++ showResult.take 2 := by
    rw [code_eq, List.append_assoc, List.append_assoc, codeLength, List.take_length_add_append]
    rfl
  rw [hmain, depth_append, depth_derivation]
  rfl

theorem passes_main :
    Grows (code d.postorder) (codeLength d.postorder + 2) 0 (codeLength d.postorder + 2) := by
  intro s hs
  have hlink := linked_showResult d.postorder
  have hgrows := @grows_derivation _ d d.postorder [] [] (by simp)
  rw [List.nil_append] at hgrows
  refine (hgrows s hs).bind fun t ⟨htline, htsp, ⟨w, httop⟩, htkept⟩ ↦ ?_
  refine .head hlink (k := 0) rfl htline (by omega) fun u hu ↦ ?_
  obtain ⟨huline, husp, humemory⟩ := hu.advances (n := 0) rfl rfl rfl rfl
  refine .head hlink (k := 1) rfl (by omega) (by omega) fun v hv ↦ .done ?_
  obtain ⟨hvline, hvsp, hvmemory⟩ := hv.advances (n := 0) rfl rfl rfl rfl
  have hmemory : v.memory = t.memory := hvmemory.trans humemory
  have hsp : v.sp = t.sp := by omega
  refine ⟨by omega, hsp.trans htsp, ⟨w, ?_⟩, fun address haddress ↦ ?_⟩
  · rw [hmemory, hsp, httop]
  · rw [hmemory, htkept address haddress]

theorem stuck_of_grown {s t : State} (h : Grown s (codeLength d.postorder + 2) t) :
    step (code d.postorder) t = none := by
  obtain ⟨w, hw⟩ := h.top
  have hret := (linked_showResult d.postorder).instruction (k := 2) rfl
  rw [step, h.line, hret, Option.bind_some]
  simp [plain, State.execute, hw]

end Ending

/-- A compiled expression that was read never gives back the word that holds its result. Over its
lines up to the return that ends it the stack moves by one word. Each run that comes to this return
has that word on top of the stack, on the return address that was there at the beginning, and stops
since a word is no return address. -/
theorem code_unbalanced (s s' : Lookahead Token) (tokens : List Token)
    (h : expression s = .ok tokens s') :
    instruction? (code tokens) (codeLength tokens + 2) = some (.monadic .ret) ∧
    depth ((code tokens).take (codeLength tokens + 2)) = -2 ∧
    (∀ start stop : State, start.line = 0 → Reaches (code tokens) start stop →
      stop.line = codeLength tokens + 2 →
      stop.sp = start.sp - 2 ∧ (∃ w, stop.memory stop.sp = .word w) ∧
      (∀ address, start.sp ≤ address → stop.memory address = start.memory address) ∧
      step (code tokens) stop = none) ∧
    ∀ d : Derivation .expression, tokens = d.postorder →
      (∀ n, .decimal n ∈ tokens → 0 ≤ n ∧ n < 0x10000) → d.SmallMultipliers →
      ∀ start : State, start.line = 0 →
        Leads (code tokens) start (·.line = codeLength tokens + 2) := by
  have hread : Nonterminal.expression.read s = .ok tokens s' := h
  rw [Nonterminal.read_eq] at hread
  obtain ⟨d, -, rfl, -⟩ := Nonterminal.derivation_of_readWithin hread
  have hlink := linked_showResult d.postorder
  refine ⟨hlink.instruction (k := 2) rfl, depth_main d, ?_, ?_⟩
  · intro start stop hstart hreaches hline
    -- The machine stops when it first comes to the return, so it comes there only once.
    obtain ⟨u, hu, hstop⟩ := passes_main d start hstart stop hreaches hline
    have hstuck := stuck_of_grown d hu
    obtain rfl := hstop.eq_of_stuck hstuck
    exact ⟨hu.sp, hu.top, hu.kept, hstuck⟩
  · intro e he hfits hsmall start hstart
    have hpushes := @pushes_derivation _ e d.postorder [] [] (by simp [he]) hfits hsmall
    rw [List.nil_append, ← he] at hpushes
    refine (hpushes start hstart).bind fun t ⟨htline, _⟩ ↦ ?_
    obtain ⟨l, a, x, z, sp, memory⟩ := t
    obtain rfl : l = codeLength d.postorder := htline
    refine .head (hlink.instruction (k := 0) rfl)
      (State.operate_immediate .a (fun _ w ↦ w) rfl) ?_
    exact .head (hlink.instruction (k := 1) rfl) rfl (.done rfl)

theorem code_unbalanced_product :
    expression (.ofText "6*(7+8)".toList) =
        .ok [.decimal 6, .decimal 7, .decimal 8, .plus, .times] ⟨[], []⟩ ∧
      ∀ start : State, start.line = 0 →
        Leads (code [.decimal 6, .decimal 7, .decimal 8, .plus, .times]) start fun stop ↦
          stop.line = 17 ∧ stop.sp = start.sp - 2 ∧
          stop.memory start.sp = start.memory start.sp := by
  have h : expression (.ofText "6*(7+8)".toList) =
      .ok [.decimal 6, .decimal 7, .decimal 8, .plus, .times] ⟨[], []⟩ := rfl
  obtain ⟨-, -, hall, harrives⟩ := code_unbalanced _ _ _ h
  let inner : Derivation .expression := .sum (.lone (.number 7)) (.single (.lone (.number 8)))
  let whole : Derivation .expression := .single (.product (.number 6) (.lone (.nested inner)))
  have hfits : ∀ n, Token.decimal n ∈ whole.postorder → 0 ≤ n ∧ n < 0x10000 := by
    intro n hn
    simp only [whole, inner, Derivation.postorder, List.mem_append, List.mem_singleton,
      Token.decimal.injEq, reduceCtorEq, or_false] at hn
    omega
  have hsmall : whole.SmallMultipliers := ⟨trivial, ⟨trivial, trivial⟩, by decide⟩
  refine ⟨h, fun start hstart ↦ ?_⟩
  obtain ⟨stop, hreaches, hline⟩ := harrives whole rfl hfits hsmall start hstart
  obtain ⟨hsp, -, hkept, -⟩ := hall start stop hstart hreaches hline
  exact ⟨stop, hreaches, hline, hsp, hkept start.sp (Int.le_refl _)⟩

/-- The code for `1` comes to its return with the result on top of the stack and stops there. -/
theorem code_one_unbalanced :
    let program := code [.decimal 1]
    let start : State := ⟨0, 0, 0, false, 0, fun _ ↦ .link 7⟩
    expression (.ofText "1".toList) = .ok [.decimal 1] ⟨[], []⟩ ∧
      ∃ stop, run program 5 start = some stop ∧
        instruction? program stop.line = some (.monadic .ret) ∧ stop.sp = -2 ∧
        stop.memory stop.sp = .word 1 ∧ stop.memory start.sp = .link 7 ∧
        step program stop = none := by
  exact ⟨rfl, _, rfl, rfl, rfl, rfl, rfl, rfl⟩

end PepAsm.Formula
