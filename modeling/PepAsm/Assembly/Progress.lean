import PepAsm.Assembly.Parser

namespace PepAsm.Assembly

open PepAsm.Scan PepAsm.Instruction

variable {α β : Type}

namespace ParseM

def left : EStateM.Result ParseError Reader α → Reader
  | .ok _ r | .error _ r => r

def Shrinks (x : ParseM α) : Prop :=
  ∀ r, (left (x r)).size ≤ r.size

theorem shrinks_pure (a : α) : Shrinks (pure a) :=
  fun _ ↦ Nat.le_refl _

theorem shrinks_throw (e : ParseError) : Shrinks (throw e : ParseM α) :=
  fun _ ↦ Nat.le_refl _

theorem shrinks_get : Shrinks (get : ParseM Reader) :=
  fun _ ↦ Nat.le_refl _

theorem shrinks_modifySymbols (f : SymbolTable → SymbolTable) : Shrinks (modifySymbols f) :=
  fun _ ↦ Nat.le_refl _

theorem left_bind_le {x : ParseM α} {f : α → ParseM β} (hf : ∀ a, Shrinks (f a)) (r : Reader) :
    (left ((x >>= f) r)).size ≤ (left (x r)).size := by
  change (left (EStateM.bind x f r)).size ≤ _
  unfold EStateM.bind
  split
  · rename_i a s h
    exact h ▸ hf a s
  · rename_i e s h
    exact h ▸ Nat.le_refl _

theorem shrinks_bind {x : ParseM α} {f : α → ParseM β} (hx : Shrinks x)
    (hf : ∀ a, Shrinks (f a)) : Shrinks (x >>= f) :=
  fun r ↦ Nat.le_trans (left_bind_le hf r) (hx r)

theorem shrinks_accept? (select : Token → Option α) : Shrinks (accept? select) :=
  fun r ↦ r.stream.size_accept?_le Token.scanner select

theorem shrinks_expect (select : Token → Option α) : Shrinks (expect select) := by
  refine shrinks_bind (shrinks_accept? select) fun found ↦ ?_
  split
  · exact shrinks_pure _
  · exact shrinks_throw _

theorem shrinks_argument : Shrinks argument := by
  refine shrinks_bind (shrinks_accept? _) fun hex ↦ ?_
  cases hex with
  | some n => exact shrinks_pure _
  | none =>
    refine shrinks_bind (shrinks_accept? _) fun dec ↦ ?_
    cases dec with
    | some n => exact shrinks_pure _
    | none =>
      refine shrinks_bind (shrinks_accept? _) fun name ↦ ?_
      cases name with
      | some name => exact shrinks_bind (shrinks_modifySymbols _) fun _ ↦ shrinks_pure _
      | none => exact shrinks_pure _

theorem shrinks_operand : Shrinks operand := by
  refine shrinks_bind shrinks_argument fun found ↦ ?_
  cases found with
  | none => exact shrinks_throw _
  | some o =>
    refine shrinks_bind shrinks_get fun r ↦ ?_
    split
    · exact shrinks_pure _
    · exact shrinks_throw _

theorem shrinks_mode (mnemonic : Mnemonic) : Shrinks (mode mnemonic) := by
  refine shrinks_bind (shrinks_expect _) fun name ↦ ?_
  dsimp only
  split
  · exact shrinks_throw _
  · split
    · exact shrinks_pure _
    · exact shrinks_throw _

theorem shrinks_instruction (symbol : Option String) : Shrinks (instruction symbol) := by
  refine shrinks_bind (shrinks_accept? _) fun word ↦ ?_
  cases word with
  | none => exact shrinks_pure _
  | some word =>
    dsimp only
    split
    · exact shrinks_throw _
    · exact shrinks_bind shrinks_operand fun _ ↦ shrinks_bind (shrinks_expect _) fun _ ↦
        shrinks_bind (shrinks_mode _) fun _ ↦ shrinks_pure _

theorem shrinks_line (symbol : Option String) : Shrinks (line symbol) := by
  refine shrinks_bind (shrinks_instruction symbol) fun code ↦ ?_
  cases code with
  | none => exact shrinks_pure _
  | some code => exact shrinks_bind (shrinks_accept? _) fun _ ↦ shrinks_pure _

theorem shrinks_codeLine (symbol : Option String) (otherwise : ParseError) :
    Shrinks (codeLine symbol otherwise) := by
  refine shrinks_bind (shrinks_line symbol) fun code ↦ ?_
  cases code with
  | some code => exact shrinks_pure _
  | none => exact shrinks_throw _

theorem bind_of_ok {x : ParseM α} {f : α → ParseM β} {r s : Reader} {a : α}
    (h : x r = .ok a s) : (x >>= f) r = f a s := by
  change EStateM.bind x f r = _
  rw [EStateM.bind, h]

theorem bind_of_error {x : ParseM α} {f : α → ParseM β} {r s : Reader} {e : ParseError}
    (h : x r = .error e s) : (x >>= f) r = .error e s := by
  change EStateM.bind x f r = _
  rw [EStateM.bind, h]

theorem left_bind_lt {x : ParseM α} {f : α → ParseM β} {r : Reader} {n : Nat}
    (hx : (left (x r)).size < n) (hf : ∀ a, Shrinks (f a)) : (left ((x >>= f) r)).size < n :=
  Nat.lt_of_le_of_lt (left_bind_le hf r) hx

/-- An attempt that begins with the pending token either takes it or goes on without it. -/
theorem accept?_bind_progress {select : Token → Option α} {f : Option α → ParseM β} {r : Reader}
    (hr : r.stream.pending ≠ []) (hf : ∀ found, Shrinks (f found)) :
    (left ((accept? select >>= f) r)).size < r.size ∨
      (accept? select >>= f) r = f none r := by
  cases h : (r.stream.accept? Token.scanner select).1 with
  | some a =>
    exact .inl (left_bind_lt (Lookahead.size_accept?_lt Token.scanner h) hf)
  | none =>
    refine .inr (bind_of_ok ?_)
    rw [accept?_apply, h, Lookahead.accept?_of_none Token.scanner hr h]

theorem instruction_progress (symbol : Option String) {r : Reader}
    (hr : r.stream.pending ≠ []) :
    (left (instruction symbol r)).size < r.size ∨ instruction symbol r = .ok none r := by
  refine accept?_bind_progress hr fun word ↦ ?_
  cases word with
  | none => exact shrinks_pure _
  | some word =>
    dsimp only
    split
    · exact shrinks_throw _
    · exact shrinks_bind shrinks_operand fun _ ↦ shrinks_bind (shrinks_expect _) fun _ ↦
        shrinks_bind (shrinks_mode _) fun _ ↦ shrinks_pure _

theorem line_progress (symbol : Option String) {r : Reader} (hr : r.stream.pending ≠ []) :
    (left (line symbol r)).size < r.size ∨ line symbol r = .ok none r := by
  refine (instruction_progress symbol hr).imp (fun h ↦ left_bind_lt h fun code ↦ ?_) bind_of_ok
  cases code with
  | none => exact shrinks_pure _
  | some code => exact shrinks_bind (shrinks_accept? _) fun _ ↦ shrinks_pure _

theorem codeLine_progress (symbol : Option String) (otherwise : ParseError) {r : Reader}
    (hr : r.stream.pending ≠ []) :
    (left (codeLine symbol otherwise r)).size < r.size ∨
      codeLine symbol otherwise r = .error otherwise r := by
  refine (line_progress symbol hr).imp (fun h ↦ left_bind_lt h fun code ↦ ?_) bind_of_ok
  cases code with
  | some code => exact shrinks_pure _
  | none => exact shrinks_throw _

theorem labelled_step (found : Option String) : Shrinks (match found with
    | some name => do
      modifySymbols (·.define name)
      codeLine (some name) .symbolWithoutInstruction
    | none => codeLine none .notALine) := by
  cases found with
  | some name => exact shrinks_bind (shrinks_modifySymbols _) fun _ ↦ shrinks_codeLine _ _
  | none => exact shrinks_codeLine _ _

theorem shrinks_labelled : Shrinks labelled :=
  shrinks_bind (shrinks_accept? _) labelled_step

theorem labelled_progress {r : Reader} (hr : r.stream.pending ≠ []) :
    (left (labelled r)).size < r.size ∨ labelled r = .error .notALine r := by
  refine (accept?_bind_progress hr labelled_step).elim .inl fun h ↦ ?_
  change labelled r = codeLine none .notALine r at h
  exact h ▸ codeLine_progress none .notALine hr

theorem content_step (found : Option String) : Shrinks (match found with
    | some text => pure (.comment text)
    | none => labelled) := by
  cases found with
  | some text => exact shrinks_pure _
  | none => exact shrinks_labelled

theorem shrinks_content : Shrinks content :=
  shrinks_bind (shrinks_accept? _) content_step

theorem content_progress {r : Reader} (hr : r.stream.pending ≠ []) :
    (left (content r)).size < r.size ∨ content r = .error .notALine r := by
  refine (accept?_bind_progress hr content_step).elim .inl fun h ↦ ?_
  change content r = labelled r at h
  exact h ▸ labelled_progress hr

theorem statement_step (found : Option Unit) : Shrinks (match found with
    | some () => pure .empty
    | none => do
      let read ← content
      expect Token.empty?
      return read) := by
  cases found with
  | some _ => exact shrinks_pure _
  | none =>
    exact shrinks_bind shrinks_content fun _ ↦ shrinks_bind (shrinks_expect _) fun _ ↦
      shrinks_pure _

/-- A statement that is read from a pending token takes a token or fails at once. -/
theorem statement_progress {r : Reader} (hr : r.stream.pending ≠ []) :
    (left (statement r)).size < r.size ∨ statement r = .error .notALine r := by
  refine (accept?_bind_progress hr statement_step).elim .inl fun h ↦ ?_
  change statement r = _ at h
  rw [h]
  refine (content_progress hr).imp (fun h ↦ left_bind_lt h fun _ ↦ ?_) bind_of_error
  exact shrinks_bind (shrinks_expect _) fun _ ↦ shrinks_pure _

end ParseM

end PepAsm.Assembly
