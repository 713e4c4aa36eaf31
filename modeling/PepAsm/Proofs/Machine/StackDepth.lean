import PepAsm.Proofs.Machine.Execution

namespace PepAsm.Machine

open PepAsm.Assembly PepAsm.Instruction

/-- How far an instruction moves the stack. A call counts together with its return, so neither
moves it. -/
def shift : Body → Int
  | .dyadic .addsp o .immediate => (distance? o).getD 0
  | .dyadic .subsp o .immediate => -(distance? o).getD 0
  | _ => 0

def depth : List CodeLine → Int
  | [] => 0
  | line :: lines => shift line.body + depth lines

def stored? : Body → Option Int
  | .dyadic .stwa o .stackRelative | .dyadic .stwx o .stackRelative => distance? o
  | _ => none

def jump? : Body → Option Operand
  | .dyadic .br o .immediate | .dyadic .breq o .immediate => some o
  | _ => none

def calls : Body → Bool
  | .dyadic .call .. => true
  | _ => false

def fallsThrough : Body → Bool
  | .dyadic .br .. | .dyadic .call .. | .monadic .ret => false
  | _ => true

variable {program : List CodeLine} {s t : State} {body : Body}

section Effect

inductive Effect (program : List CodeLine) (s : State) : Body → State → Prop
  | forward {body : Body} {t : State} (hbody : fallsThrough body) (hstored : stored? body = none)
      (hline : t.line = s.line + 1) (hsp : t.sp = s.sp + shift body)
      (hmemory : t.memory = s.memory) : Effect program s body t
  | store {body : Body} {n : Int} (w : Word) (hbody : fallsThrough body) (hshift : shift body = 0)
      (hn : stored? body = some n) :
      Effect program s body (s.store (s.sp + n) (.word w)).next
  | jump {body : Body} {o : Operand} {line : Nat} (ho : jump? body = some o)
      (hline : target? program o = some line) : Effect program s body (s.goto line)
  | call {o : Operand} {line : Nat} (hline : target? program o = some line) :
      Effect program s (.dyadic .call o .immediate) ((s.push (.link (s.line + 1))).goto line)
  | ret {line : Nat} (hlink : s.memory s.sp = .link line) :
      Effect program s (.monadic .ret) ((s.moveStack 2).goto line)

theorem effect_put (r : Register) (w : Word) (hbody : fallsThrough body)
    (hshift : shift body = 0) (hstored : stored? body = none) :
    Effect program s body (s.put w r) := by
  have hsp : s.sp = s.sp + shift body := by rw [hshift, Int.add_zero]
  cases r with
  | _ => exact .forward hbody hstored rfl hsp rfl

theorem effect_operate {r : Register} {f : Word → Word → Word} {o : Operand} {mode : Mode}
    (h : s.operate r f o mode = some t) (hbody : fallsThrough body) (hshift : shift body = 0)
    (hstored : stored? body = none) : Effect program s body t := by
  obtain ⟨w, -, rfl⟩ := Option.map_eq_some_iff.1 h
  exact effect_put r _ hbody hshift hstored

theorem effect_save {r : Register} {o : Operand} {mode : Mode} (h : s.save r o mode = some t)
    (hbody : fallsThrough body) (hshift : shift body = 0)
    (hstored : mode = .stackRelative → stored? body = distance? o) : Effect program s body t := by
  obtain ⟨address, haddress, rfl⟩ := Option.map_eq_some_iff.1 h
  cases mode with
  | stackRelative =>
    obtain ⟨n, hn, rfl⟩ := Option.map_eq_some_iff.1 haddress
    exact .store _ hbody hshift ((hstored rfl).trans hn)
  | _ => contradiction

/-- Every step of the machine does one of these things. -/
theorem effect_of_execute (h : s.execute program body = some t) : Effect program s body t := by
  cases body with
  | dyadic m o mode =>
    cases m with
    | ldwa | ldwx | adda | addx | anda | andx =>
      simp only [State.execute] at h
      exact effect_operate h rfl rfl rfl
    | stwa | stwx => exact effect_save h rfl rfl fun hmode ↦ hmode ▸ rfl
    | addsp | subsp =>
      cases mode with
      | immediate =>
        obtain ⟨n, hn, rfl⟩ := Option.map_eq_some_iff.1 h
        refine .forward rfl rfl rfl ?_ rfl
        rw [shift, hn]
        rfl
      | _ => contradiction
    | br =>
      cases mode with
      | immediate =>
        obtain ⟨line, hline, rfl⟩ := Option.map_eq_some_iff.1 h
        exact .jump rfl hline
      | _ => contradiction
    | breq =>
      cases mode with
      | immediate =>
        by_cases hzero : s.zero = true
        · obtain ⟨line, hline, rfl⟩ := Option.map_eq_some_iff.1 ((if_pos hzero).symm.trans h)
          exact .jump rfl hline
        · cases (if_neg hzero).symm.trans h
          exact .forward rfl rfl rfl (Int.add_zero _).symm rfl
      | _ => contradiction
    | call =>
      cases mode with
      | immediate =>
        obtain ⟨line, hline, rfl⟩ := Option.map_eq_some_iff.1 h
        exact .call hline
      | _ => contradiction
    | scall =>
      cases h
      exact .forward rfl rfl rfl (Int.add_zero _).symm rfl
    | _ => contradiction
  | monadic m =>
    cases m with
    | asla | asra =>
      cases h
      exact effect_put .a _ rfl rfl rfl
    | aslx | asrx =>
      cases h
      exact effect_put .x _ rfl rfl rfl
    | ret =>
      cases hcell : s.memory s.sp with
      | link line =>
        rw [State.execute_ret hcell] at h
        cases h
        exact .ret hcell
      | word w => simp [State.execute, hcell] at h
    | _ => contradiction
  | given => contradiction

theorem Effect.advances {n : Int} (h : Effect program s body t) (hbody : fallsThrough body)
    (hstored : stored? body = none) (hjump : jump? body = none) (hshift : shift body = n) :
    t.line = s.line + 1 ∧ t.sp = s.sp + n ∧ t.memory = s.memory := by
  cases h with
  | forward _ _ hline hsp hmemory => exact ⟨hline, hshift ▸ hsp, hmemory⟩
  | store _ _ _ hn =>
    rw [hstored] at hn
    contradiction
  | jump ho _ =>
    rw [hjump] at ho
    contradiction
  | call => contradiction
  | ret => contradiction

theorem Effect.stores {n : Int} (h : Effect program s body t) (hstored : stored? body = some n)
    (hjump : jump? body = none) :
    t.line = s.line + 1 ∧ t.sp = s.sp ∧
      ∃ w, t.memory = Function.update s.memory (s.sp + n) (.word w) := by
  cases h with
  | forward _ hnone _ _ _ =>
    rw [hstored] at hnone
    contradiction
  | store w _ _ hn =>
    rw [hstored] at hn
    cases hn
    exact ⟨rfl, rfl, w, rfl⟩
  | jump ho _ =>
    rw [hjump] at ho
    contradiction
  | call => contradiction
  | ret => contradiction

theorem Effect.enters {o : Operand} {line : Nat}
    (h : Effect program s (.dyadic .call o .immediate) t) (ho : target? program o = some line) :
    t.line = line ∧ t.sp = s.sp - 2 ∧
      t.memory = Function.update s.memory (s.sp - 2) (.link (s.line + 1)) := by
  cases h with
  | forward hbody => contradiction
  | store _ hbody => contradiction
  | jump hjump _ => contradiction
  | call hline =>
    rw [ho] at hline
    cases hline
    exact ⟨rfl, rfl, rfl⟩

end Effect

section Passes

/-- Every run that comes to the line `ending` is in a state with a property before. -/
def Passes (program : List CodeLine) (ending : Nat) (s : State) (P : State → Prop) : Prop :=
  ∀ t, Reaches program s t → t.line = ending → ∃ u, P u ∧ Reaches program u t

variable {ending : Nat} {P Q : State → Prop}

theorem Passes.done (h : P s) : Passes program ending s P :=
  fun _ ht _ ↦ ⟨s, h, ht⟩

theorem Passes.bind (h : Passes program ending s P)
    (h' : ∀ t, P t → Passes program ending t Q) : Passes program ending s Q := by
  intro t ht hline
  obtain ⟨u, hu, hut⟩ := h t ht hline
  exact h' u hu t hut hline

/-- A machine that stops comes to no other line, so only the steps that exist count. -/
theorem Passes.head {piece : List CodeLine} {base k : Nat} (h : Linked program piece base)
    (hk : instruction? piece k = some body) (hs : s.line = base + k) (hne : base + k ≠ ending)
    (hnext : ∀ t, Effect program s body t → Passes program ending t P) :
    Passes program ending s P := by
  rintro u ⟨n, hn⟩ hline
  cases n with
  | zero =>
    cases hn
    exact absurd (hs.symm.trans hline) hne
  | succ n =>
    obtain ⟨t, ht, hu⟩ := Option.bind_eq_some_iff.1 hn
    rw [step, hs, h.instruction hk, Option.bind_some] at ht
    exact hnext t (effect_of_execute ht) u ⟨n, hu⟩ hline

theorem Passes.of_invariant {I : State → Prop} (hline : ∀ s, I s → s.line ≠ ending)
    (hstep : ∀ s t, I s → step program s = some t → I t ∨ P t) (hs : I s) :
    Passes program ending s P := by
  rintro u ⟨n, hn⟩ hu
  induction n generalizing s with
  | zero =>
    cases hn
    exact absurd hu (hline _ hs)
  | succ n ih =>
    obtain ⟨t, ht, hrun⟩ := Option.bind_eq_some_iff.1 hn
    rcases hstep s t hs ht with hI | hP
    · exact ih hI hrun
    · exact ⟨t, hP, n, hrun⟩

theorem Reaches.eq_of_stuck (h : Reaches program s t) (hs : step program s = none) : t = s := by
  obtain ⟨n, hn⟩ := h
  cases n with
  | zero =>
    cases hn
    rfl
  | succ n =>
    rw [run, hs] at hn
    contradiction

end Passes

section Subroutine

/-- An instruction in line `k` of a subroutine, where the stack stands at `level`, stores nothing
over the return address or beyond the two operands under it, goes on inside the subroutine where
the stack is to stand at the same level, calls nothing, and returns only to the caller. -/
def KeepsStack (piece : List CodeLine) (k : Nat) (level : Int) (body : Body) : Prop :=
  (∀ n ∈ stored? body, level + n ≠ 0 ∧ level + n ≤ 4) ∧
  (∀ o ∈ jump? body, ∃ j ∈ target? piece o, j < piece.length ∧ depth (piece.take j) = level) ∧
  (fallsThrough body → k + 1 < piece.length) ∧
  calls body = false ∧
  (body = .monadic .ret → level = 0)

instance (piece : List CodeLine) (k : Nat) (level : Int) (body : Body) :
    Decidable (KeepsStack piece k level body) :=
  inferInstanceAs (Decidable (_ ∧ _ ∧ _ ∧ _ ∧ _))

def Disciplined (piece : List CodeLine) : Prop :=
  0 < piece.length ∧ ∀ k < piece.length, ∀ body ∈ instruction? piece k,
    KeepsStack piece k (depth (piece.take k)) body

instance (piece : List CodeLine) : Decidable (Disciplined piece) :=
  inferInstanceAs (Decidable (_ ∧ ∀ k < piece.length, ∀ body ∈ instruction? piece k,
    KeepsStack piece k (depth (piece.take k)) body))

inductive Inside (piece : List CodeLine) (base : Nat) (entry s : State) : Prop
  | intro (k : Nat) (hk : k < piece.length) (hline : s.line = base + k)
      (hsp : s.sp = entry.sp + depth (piece.take k))
      (hkept : ∀ address, address = entry.sp ∨ entry.sp + 4 < address →
        s.memory address = entry.memory address)

structure Returned (entry t : State) : Prop where
  line : entry.memory entry.sp = .link t.line
  sp : t.sp = entry.sp + 2
  kept : ∀ address, entry.sp + 4 < address → t.memory address = entry.memory address

variable {piece : List CodeLine} {base k ending : Nat} {entry : State}

theorem depth_append (first second : List CodeLine) :
    depth (first ++ second) = depth first + depth second := by
  induction first with
  | nil => exact (Int.zero_add _).symm
  | cons line first ih => rw [List.cons_append, depth, depth, ih, Int.add_assoc]

theorem depth_take_succ (h : instruction? piece k = some body) :
    depth (piece.take (k + 1)) = depth (piece.take k) + shift body := by
  obtain ⟨line, hline, rfl⟩ := Option.map_eq_some_iff.1 h
  rw [List.take_add_one, hline, Option.toList_some, depth_append, depth, depth, Int.add_zero]

theorem Inside.step (hp : Disciplined piece) (h : Linked program piece base)
    (hs : Inside piece base entry s) (ht : step program s = some t) :
    Inside piece base entry t ∨ Returned entry t := by
  obtain ⟨k, hk, hline, hsp, hkept⟩ := hs
  have hbody : instruction? piece k = some piece[k].body := by simp [instruction?, hk]
  generalize piece[k].body = body at hbody
  obtain ⟨hstored, hjump, hnext, hcalls, hreturn⟩ := hp.2 k hk body hbody
  have hdepth := depth_take_succ hbody
  rw [Machine.step, hline, h.instruction hbody, Option.bind_some] at ht
  cases effect_of_execute ht with
  | forward hfalls _ hline' hsp' hmemory =>
    refine .inl ⟨k + 1, hnext hfalls, by omega, by omega, fun address haddress ↦ ?_⟩
    rw [hmemory, hkept address haddress]
  | @store _ n w hfalls hshift hn =>
    obtain ⟨hlink, hbeyond⟩ := hstored n hn
    refine .inl ⟨k + 1, hnext hfalls, congrArg (· + 1) hline, ?_, fun address haddress ↦ ?_⟩
    · rw [hdepth, hshift, Int.add_zero]
      exact hsp
    · have hne : address ≠ s.sp + n := by omega
      exact (Function.update_of_ne hne _ _).trans (hkept address haddress)
  | jump ho htarget =>
    obtain ⟨j, hj, hlt, hlevel⟩ := hjump _ ho
    rw [h.target hj] at htarget
    cases htarget
    exact .inl ⟨j, hlt, rfl, hlevel ▸ hsp, hkept⟩
  | call => contradiction
  | ret hlink =>
    -- At level zero the stack stands where it stood at the entry, so the link is still on top.
    have hentry : s.sp = entry.sp := by rw [hsp, hreturn rfl, Int.add_zero]
    rw [hentry, hkept _ (.inl rfl)] at hlink
    refine .inr ⟨hlink, congrArg (· + 2) hentry, fun address haddress ↦ ?_⟩
    exact hkept address (.inr haddress)

/-- Before a run gets out of a subroutine it returns, and the stack is then as it was before the
call, but for the operands. -/
theorem passes_returned (hp : Disciplined piece) (h : Linked program piece base)
    (hending : ending < base) (hs : s.line = base) : Passes program ending s (Returned s) := by
  have hinside : Inside piece base s s := ⟨0, hp.1, hs, (Int.add_zero _).symm, fun _ _ ↦ rfl⟩
  refine .of_invariant (fun t ht ↦ ?_) (fun t u ↦ Inside.step hp h) hinside
  obtain ⟨k, -, hline, -, -⟩ := ht
  omega

end Subroutine

end PepAsm.Machine
