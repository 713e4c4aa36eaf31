import PepAsm.Proofs.Formula.Parsing
import PepAsm.Proofs.Formula.Subroutines

namespace PepAsm.Formula

open PepAsm.Assembly PepAsm.Instruction PepAsm.Machine PepAsm.Scan

namespace Derivation

def value {n : Nonterminal} : Derivation n → Int
  | sum left right => left.value + right.value
  | single term => term.value
  | product left right => left.value * right.value
  | lone factor => factor.value
  | nested inner => inner.value
  | number n => n

def SmallMultipliers {n : Nonterminal} : Derivation n → Prop
  | sum left right => left.SmallMultipliers ∧ right.SmallMultipliers
  | single term => term.SmallMultipliers
  | product left right =>
    left.SmallMultipliers ∧ right.SmallMultipliers ∧ right.value % 2 ^ 16 < 2 ^ 15
  | lone factor => factor.SmallMultipliers
  | nested inner => inner.SmallMultipliers
  | number _ => True

end Derivation

def Pushes (program : List CodeLine) (start stop : Nat) (w : Word) : Prop :=
  ∀ s : State, s.line = start → Leads program s fun t ↦
    t.line = stop ∧ t.sp = s.sp - 2 ∧ t.memory t.sp = .word w ∧
      ∀ address, s.sp ≤ address → t.memory address = s.memory address

section Code

variable {program : List CodeLine} {base first second entry : Nat} {x y w : Word} {name : String}

theorem pushes_number {n : Int} (h : Linked program (tokenCode (.decimal n)) base)
    (hn : 0 ≤ n ∧ n < 0x10000) : Pushes program base (base + 3) (.ofInt 16 n) := by
  intro s hs
  obtain ⟨l, a, x, z, sp, memory⟩ := s
  obtain rfl : l = base := hs
  have hnumber : number? (.decimal n) = some n := if_pos hn
  refine .head (h.instruction (k := 0) rfl) rfl ?_
  refine .head (h.instruction (k := 1) rfl) (State.operate_immediate .a (fun _ w ↦ w) hnumber) ?_
  refine .head (h.instruction (k := 2) rfl) (State.save_stack .a rfl) (.done ?_)
  refine ⟨rfl, rfl, ?_, fun address haddress ↦ ?_⟩
  · change Function.update memory (sp + -2 + 0) _ (sp + -2) = _
    rw [Int.add_zero, Function.update_self]
    rfl
  · have hkept : sp ≤ address := haddress
    have hne : address ≠ sp + -2 + 0 := by omega
    exact Function.update_of_ne hne _ _

theorem operator_leads {s : State} (h : Linked program (applyOperator name) base)
    (ht : target? program (.symbol name) = some entry) (hsub : Returns program entry x y w)
    (hs : s.line = base) (hy : s.memory s.sp = .word y) (hx : s.memory (s.sp + 2) = .word x) :
    Leads program s fun t ↦ t.line = base + 3 ∧ t.sp = s.sp + 2 ∧ t.memory t.sp = .word w ∧
      ∀ address, s.sp + 2 < address → t.memory address = s.memory address := by
  obtain ⟨l, a, r, z, sp, memory⟩ := s
  obtain rfl : l = base := hs
  have hother {address : Int} (hne : address ≠ sp + -2) :
      Function.update memory (sp + -2) (.link (l + 1)) address = memory address :=
    Function.update_of_ne hne _ _
  have h2 : sp + -2 + 2 = sp := by omega
  have h4 : sp + -2 + 4 = sp + 2 := by omega
  have htop : Function.update memory (sp + -2) (.link (l + 1)) (sp + -2 + 2) = .word y := by
    rw [h2, hother (by omega)]
    exact hy
  have hbelow : Function.update memory (sp + -2) (.link (l + 1)) (sp + -2 + 4) = .word x := by
    rw [h4, hother (by omega)]
    exact hx
  refine .head (h.instruction (k := 0) rfl) (State.execute_call ht) ?_
  have hcall := hsub ⟨entry, a, r, z, sp + -2, Function.update memory (sp + -2) (.link (l + 1))⟩
    (l + 1) rfl (Function.update_self ..) htop hbelow
  refine hcall.bind fun t ⟨hline, ha, hsp, hkeep⟩ ↦ ?_
  obtain ⟨l', a', r', z', sp', memory'⟩ := t
  obtain rfl : l' = l + 1 := hline
  obtain rfl : a' = w := ha
  obtain rfl : sp' = sp := by rw [← h2]; exact hsp
  refine .head (h.instruction (k := 1) rfl) rfl ?_
  refine .head (h.instruction (k := 2) rfl) (State.save_stack .a rfl) (.done ?_)
  refine ⟨rfl, rfl, ?_, fun address haddress ↦ ?_⟩
  · change Function.update memory' (sp' + 2 + 0) (.word a') (sp' + 2) = _
    rw [Int.add_zero, Function.update_self]
  · have habove : sp' + 2 < address := haddress
    have hkept : memory' address = memory address :=
      (hkeep address (by rw [h4]; exact habove)).trans (hother (by omega))
    have hne : address ≠ sp' + 2 + 0 := by omega
    exact (Function.update_of_ne hne _ _).trans hkept

theorem Pushes.operator (h : Linked program (applyOperator name) base)
    (ht : target? program (.symbol name) = some entry) (hsub : Returns program entry x y w)
    (hx : Pushes program first second x) (hy : Pushes program second base y) :
    Pushes program first (base + 3) w := by
  intro s hs
  refine (hx s hs).bind fun t ⟨htline, htsp, httop, htkeep⟩ ↦ ?_
  refine (hy t htline).bind fun u ⟨huline, husp, hutop, hukeep⟩ ↦ ?_
  have h2 : u.sp + 2 = t.sp := by omega
  have hbelow : u.memory (u.sp + 2) = .word x := by
    rw [h2, hukeep t.sp (Int.le_refl _), httop]
  refine (operator_leads h ht hsub huline hutop hbelow).bind
    fun v ⟨hvline, hvsp, hvtop, hvkeep⟩ ↦ .done ⟨hvline, by omega, hvtop, fun address haddress ↦ ?_⟩
  rw [hvkeep address (by omega), hukeep address (by omega), htkeep address haddress]

end Code

section Layout

def codeLength (tokens : List Token) : Nat :=
  (tokens.flatMap tokenCode).length

variable (tokens : List Token)

theorem declared_flatMap_tokenCode : declared (tokens.flatMap tokenCode) = [] := by
  induction tokens with
  | nil => rfl
  | cons token tokens ih =>
    have hone : declared (tokenCode token) = [] := by
      cases token with
      | _ => rfl
    rw [declared, List.flatMap_cons, List.filterMap_append]
    exact List.append_eq_nil_iff.2 ⟨hone, ih⟩

theorem linked_token {before after : List Token} {token : Token}
    (h : tokens = before ++ token :: after) :
    Linked (code tokens) (tokenCode token) (codeLength before) := by
  have hcode : code tokens = before.flatMap tokenCode ++ tokenCode token ++
      (after.flatMap tokenCode ++ showResult ++ plusSubroutine ++ timesSubroutine) := by
    simp [code_eq, h]
  rw [hcode]
  refine linked_append _ fun name _ ↦ ?_
  rw [declared_flatMap_tokenCode]
  exact List.not_mem_nil

theorem linked_piece (front piece after : List CodeLine)
    (hcode : showResult ++ plusSubroutine ++ timesSubroutine = front ++ piece ++ after)
    (h : ∀ name ∈ declared piece, name ∉ declared front) :
    Linked (code tokens) piece (codeLength tokens + front.length) := by
  have hall : code tokens = (tokens.flatMap tokenCode ++ front) ++ piece ++ after := by
    rw [List.append_assoc, List.append_assoc, ← List.append_assoc front, ← hcode, code_eq]
    simp
  rw [hall, codeLength, ← List.length_append]
  refine linked_append after fun name hname ↦ ?_
  have hdeclared := declared_flatMap_tokenCode tokens
  unfold declared at hdeclared h ⊢
  rw [List.filterMap_append, hdeclared]
  exact h name hname

theorem linked_showResult : Linked (code tokens) showResult (codeLength tokens) :=
  linked_piece tokens [] showResult (plusSubroutine ++ timesSubroutine) rfl (by decide)

theorem linked_plus : Linked (code tokens) plusSubroutine (codeLength tokens + 3) :=
  linked_piece tokens showResult plusSubroutine timesSubroutine rfl (by decide)

theorem linked_times : Linked (code tokens) timesSubroutine (codeLength tokens + 6) :=
  linked_piece tokens (showResult ++ plusSubroutine) timesSubroutine [] rfl (by decide)

end Layout

theorem codeLength_append (first second : List Token) :
    codeLength (first ++ second) = codeLength first + codeLength second := by
  simp [codeLength]

theorem pushes_derivation {n : Nonterminal} (d : Derivation n) {tokens before after : List Token}
    (ht : tokens = before ++ d.postorder ++ after)
    (hfits : ∀ k, .decimal k ∈ tokens → 0 ≤ k ∧ k < 0x10000) (hsmall : d.SmallMultipliers) :
    Pushes (code tokens) (codeLength before) (codeLength (before ++ d.postorder))
      (.ofInt 16 d.value) := by
  induction d generalizing before after with
  | sum left right ihl ihr =>
    obtain ⟨hl, hr⟩ := hsmall
    simp only [Derivation.postorder, ← List.append_assoc] at ht ⊢
    have hx := @ihl before (right.postorder ++ [.plus] ++ after) (by simp [ht]) hl
    have hy := @ihr (before ++ left.postorder) ([.plus] ++ after) (by simp [ht]) hr
    rw [codeLength_append _ [.plus], Derivation.value, BitVec.ofInt_add]
    exact .operator (linked_token tokens (ht.trans (List.append_assoc ..)))
      ((linked_plus tokens).target rfl) (returns_plus (linked_plus tokens) _ _) hx hy
  | single term ih => exact ih ht hsmall
  | product left right ihl ihr =>
    obtain ⟨hl, hr, hlt⟩ := hsmall
    simp only [Derivation.postorder, ← List.append_assoc] at ht ⊢
    have hx := @ihl before (right.postorder ++ [.times] ++ after) (by simp [ht]) hl
    have hy := @ihr (before ++ left.postorder) ([.times] ++ after) (by simp [ht]) hr
    have hmultiplier : (BitVec.ofInt 16 right.value).toNat < 2 ^ 15 := by
      rw [BitVec.toNat_ofInt]
      omega
    rw [codeLength_append _ [.times], Derivation.value, BitVec.ofInt_mul]
    exact .operator (linked_token tokens (ht.trans (List.append_assoc ..)))
      ((linked_times tokens).target rfl) (returns_times (linked_times tokens) _ _ hmultiplier) hx hy
  | lone factor ih => exact ih ht hsmall
  | nested inner ih => exact ih ht hsmall
  | number k =>
    have hk := hfits k (by simp [ht, Derivation.postorder])
    rw [codeLength_append]
    exact pushes_number (linked_token tokens (ht.trans (List.append_assoc ..))) hk

/-- The code for an expression that was read runs up to the system call that shows the result. The
value of the expression is then on top of the stack, and all that was there before is as it was. -/
theorem code_evaluates (s s' : Lookahead Token) (tokens : List Token)
    (h : expression s = .ok tokens s') :
    ∃ d : Derivation .expression,
      s.toList Token.scanner = d.sentence ++ s'.toList Token.scanner ∧ tokens = d.postorder ∧
      ((∀ n, .decimal n ∈ tokens → 0 ≤ n ∧ n < 0x10000) → d.SmallMultipliers →
        ∀ start : State, start.line = 0 → Leads (code tokens) start fun stop ↦
          stop.line = codeLength tokens + 1 ∧
          instruction? (code tokens) stop.line =
            some (.dyadic .scall (.decimal 0) .stackRelative) ∧
          stop.sp = start.sp - 2 ∧ stop.memory stop.sp = .word (.ofInt 16 d.value) ∧
          ∀ address, start.sp ≤ address → stop.memory address = start.memory address) := by
  have hread : Nonterminal.expression.read s = .ok tokens s' := h
  rw [Nonterminal.read_eq] at hread
  obtain ⟨d, hd, rfl, -⟩ := Nonterminal.derivation_of_readWithin hread
  refine ⟨d, hd, rfl, fun hfits hsmall start hstart ↦ ?_⟩
  have hpushes := @pushes_derivation _ d d.postorder [] [] (by simp) hfits hsmall
  have hlink := linked_showResult d.postorder
  refine (hpushes start hstart).bind fun t ⟨hline, hsp, htop, hkeep⟩ ↦ ?_
  obtain ⟨l, a, x, z, sp, memory⟩ := t
  obtain rfl : l = codeLength d.postorder := hline
  refine .head (hlink.instruction (k := 0) rfl)
    (State.operate_immediate .a (fun _ w ↦ w) rfl) (.done ?_)
  exact ⟨rfl, hlink.instruction (k := 1) rfl, hsp, htop, hkeep⟩

theorem code_evaluates_wrapping :
    expression (.ofText "6*(7+65535)".toList) =
        .ok [.decimal 6, .decimal 7, .decimal 65535, .plus, .times] ⟨[], []⟩ ∧
      ∀ start : State, start.line = 0 →
        Leads (code [.decimal 6, .decimal 7, .decimal 65535, .plus, .times]) start fun stop ↦
          stop.sp = start.sp - 2 ∧ stop.memory stop.sp = .word 36#16 := by
  have h : expression (.ofText "6*(7+65535)".toList) =
      .ok [.decimal 6, .decimal 7, .decimal 65535, .plus, .times] ⟨[], []⟩ := rfl
  obtain ⟨d, hd, -, hrun⟩ := code_evaluates _ _ _ h
  let inner : Derivation .expression := .sum (.lone (.number 7)) (.single (.lone (.number 65535)))
  let whole : Derivation .expression := .single (.product (.number 6) (.lone (.nested inner)))
  have hrest : (Lookahead.mk [] []).toList Token.scanner = [] := by decide +kernel
  have hwhole : (Lookahead.ofText "6*(7+65535)".toList).toList Token.scanner =
      whole.sentence ++ [] := by decide +kernel
  rw [hrest] at hd
  obtain ⟨rfl, -⟩ := d.eq_of_sentence_append whole (hd.symm.trans hwhole) nofun nofun
  have hfits : ∀ n, Token.decimal n ∈ whole.postorder → 0 ≤ n ∧ n < 0x10000 := by
    intro n hn
    simp only [whole, inner, Derivation.postorder, List.mem_append, List.mem_singleton,
      Token.decimal.injEq, reduceCtorEq, or_false] at hn
    omega
  have hsmall : whole.SmallMultipliers := ⟨trivial, ⟨trivial, trivial⟩, by decide⟩
  refine ⟨h, fun start hstart ↦ ?_⟩
  exact (hrun hfits hsmall start hstart).bind fun stop ⟨_, _, hsp, htop, _⟩ ↦ .done ⟨hsp, htop⟩

end PepAsm.Formula
