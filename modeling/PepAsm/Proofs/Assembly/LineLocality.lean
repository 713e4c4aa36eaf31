import PepAsm.Assembly.Progress
import PepAsm.Proofs.Scan.TokenStream

namespace PepAsm.Assembly

open PepAsm.Scan PepAsm.Instruction PepAsm.Text

variable {α β : Type}

namespace Reader

def tokens (r : Reader) : List Token :=
  r.stream.toList Token.scanner

def ofTokens (tokens : List Token) (symbols : SymbolTable) : Reader :=
  ⟨⟨tokens, []⟩, symbols⟩

theorem tokens_ofTokens (tokens : List Token) (symbols : SymbolTable) :
    (ofTokens tokens symbols).tokens = tokens := by
  change tokens ++ Token.scanner.tokens [] = tokens
  rw [Token.scanner.tokens_of_none rfl, List.append_nil]

/-- Both readers are inside the same line, and `r` has more tokens after it. -/
structure Extends (r lone : Reader) (tail : List Token) : Prop where
  symbols : r.symbols = lone.symbols
  tokens : r.tokens = lone.tokens ++ tail
  noEnd : Token.empty ∉ lone.tokens

end Reader

theorem accept?_cases (select : Token → Option α) (r : Reader) :
    (∃ token a s, select token = some a ∧ accept? select r = .ok (some a) s ∧
      r.tokens = token :: s.tokens ∧ s.symbols = r.symbols) ∨
    (∃ s, (∀ token ∈ r.tokens.head?, select token = none) ∧ accept? select r = .ok none s ∧
      s.tokens = r.tokens ∧ s.symbols = r.symbols) := by
  rw [accept?_apply]
  rcases r.stream.accept?_cases (S := Token.scanner) select with
    ⟨token, a, hs, ha, hl⟩ | ⟨hs, ha, hl⟩
  · exact .inl ⟨token, a, { r with stream := _ }, hs, by rw [ha], hl, rfl⟩
  · exact .inr ⟨{ r with stream := _ }, hs, by rw [ha], hl, rfl⟩

namespace ParseM

inductive Alike (tail : List Token) :
    EStateM.Result ParseError Reader α → EStateM.Result ParseError Reader α → Prop
  | ok (a : α) {r lone : Reader} : r.Extends lone tail → Alike tail (.ok a r) (.ok a lone)
  | error (e : ParseError) {r lone : Reader} :
      r.Extends lone tail → Alike tail (.error e r) (.error e lone)

/-- An attempt does not look past the end of the line: it goes the same way whether the line ends
there or the tokens do, and it never takes the line's end. -/
def LineLocal (x : ParseM α) : Prop :=
  ∀ (tail : List Token) (r lone : Reader), (∀ token ∈ tail.head?, token = .empty) →
    r.Extends lone tail → Alike tail (x r) (x lone)

theorem lineLocal_pure (a : α) : LineLocal (pure a) :=
  fun _ _ _ _ h ↦ .ok a h

theorem lineLocal_throw (e : ParseError) : LineLocal (throw e : ParseM α) :=
  fun _ _ _ _ h ↦ .error e h

theorem lineLocal_modifySymbols (f : SymbolTable → SymbolTable) : LineLocal (modifySymbols f) :=
  fun _ _ _ _ h ↦ .ok () ⟨congrArg f h.symbols, h.tokens, h.noEnd⟩

theorem lineLocal_bind {x : ParseM α} {f : α → ParseM β} (hx : LineLocal x)
    (hf : ∀ a, LineLocal (f a)) : LineLocal (x >>= f) := by
  intro tail r lone ht h
  change Alike tail (EStateM.bind x f r) (EStateM.bind x f lone)
  unfold EStateM.bind
  have hs := hx tail r lone ht h
  generalize x r = y at hs ⊢
  generalize x lone = z at hs ⊢
  cases hs with
  | ok a h' => exact hf a tail _ _ ht h'
  | error e h' => exact .error e h'

theorem lineLocal_get {f : SymbolTable → ParseM α} (hf : ∀ t, LineLocal (f t)) :
    LineLocal (get >>= fun r ↦ f r.symbols) := by
  intro tail r lone ht h
  have hr := hf r.symbols tail r lone ht h
  change Alike tail (f r.symbols r) (f lone.symbols lone)
  rwa [h.symbols] at hr ⊢

theorem lineLocal_accept? {select : Token → Option α} (hs : select .empty = none) :
    LineLocal (accept? select) := by
  intro tail r lone ht h
  rcases accept?_cases select lone with
    ⟨token, a, lone', ha, hlone, htokens, hsymbols⟩ | ⟨lone', hnone, hlone, htokens, hsymbols⟩
  · have hr : r.tokens = token :: (lone'.tokens ++ tail) := by
      rw [h.tokens, htokens, List.cons_append]
    rcases accept?_cases select r with
      ⟨token', a', r', ha', hr', htokens', hsymbols'⟩ | ⟨r', hnone', -, -, -⟩
    · rw [hr] at htokens'
      obtain ⟨rfl, ht'⟩ := List.cons.inj htokens'
      rw [ha] at ha'
      cases ha'
      rw [hlone, hr']
      refine .ok _ ⟨by rw [hsymbols', hsymbols, h.symbols], ht'.symm, fun hm ↦ h.noEnd ?_⟩
      exact htokens ▸ List.mem_cons_of_mem _ hm
    · have := hnone' token (by simp [hr])
      simp [ha] at this
  · -- The first token of `r` is that of `lone`, or the line's end.
    have hhead : ∀ token ∈ r.tokens.head?, select token = none := by
      intro token hm
      rw [h.tokens] at hm
      cases hl : lone.tokens with
      | nil =>
        rw [hl, List.nil_append] at hm
        rw [ht token hm, hs]
      | cons first others =>
        refine hnone token ?_
        rw [hl, List.cons_append, List.head?_cons] at hm
        rw [hl, List.head?_cons]
        exact hm
    rcases accept?_cases select r with
      ⟨token, a, r', ha, -, htokens', -⟩ | ⟨r', -, hr', htokens', hsymbols'⟩
    · have := hhead token (by simp [htokens'])
      simp [ha] at this
    · rw [hlone, hr']
      refine .ok none ⟨by rw [hsymbols', hsymbols, h.symbols], ?_, htokens.symm ▸ h.noEnd⟩
      rw [htokens', htokens, h.tokens]

theorem lineLocal_expect {select : Token → Option α} (hs : select .empty = none) :
    LineLocal (expect select) := by
  refine lineLocal_bind (lineLocal_accept? hs) fun found ↦ ?_
  cases found with
  | some a => exact lineLocal_pure a
  | none => exact lineLocal_throw _

theorem lineLocal_argument : LineLocal argument := by
  refine lineLocal_bind (lineLocal_accept? rfl) fun hex ↦ ?_
  cases hex with
  | some n => exact lineLocal_pure _
  | none =>
    refine lineLocal_bind (lineLocal_accept? rfl) fun dec ↦ ?_
    cases dec with
    | some n => exact lineLocal_pure _
    | none =>
      refine lineLocal_bind (lineLocal_accept? rfl) fun name ↦ ?_
      cases name with
      | some name => exact lineLocal_bind (lineLocal_modifySymbols _) fun _ ↦ lineLocal_pure _
      | none => exact lineLocal_pure _

theorem lineLocal_operand : LineLocal operand := by
  refine lineLocal_bind lineLocal_argument fun found ↦ ?_
  cases found with
  | none => exact lineLocal_throw _
  | some o =>
    refine lineLocal_get (f := fun t ↦
      if fitsWord (o.value t) then pure o else throw .numberTooLarge) fun t ↦ ?_
    split
    · exact lineLocal_pure _
    · exact lineLocal_throw _

theorem lineLocal_mode (mnemonic : Mnemonic) : LineLocal (mode mnemonic) := by
  refine lineLocal_bind (lineLocal_expect rfl) fun name ↦ ?_
  dsimp only
  split
  · exact lineLocal_throw _
  · split
    · exact lineLocal_pure _
    · exact lineLocal_throw _

theorem lineLocal_instruction (symbol : Option String) : LineLocal (instruction symbol) := by
  refine lineLocal_bind (lineLocal_accept? rfl) fun word ↦ ?_
  cases word with
  | none => exact lineLocal_pure _
  | some word =>
    dsimp only
    split
    · exact lineLocal_throw _
    · exact lineLocal_bind lineLocal_operand fun _ ↦ lineLocal_bind (lineLocal_expect rfl) fun _ ↦
        lineLocal_bind (lineLocal_mode _) fun _ ↦ lineLocal_pure _

theorem lineLocal_line (symbol : Option String) : LineLocal (line symbol) := by
  refine lineLocal_bind (lineLocal_instruction symbol) fun code ↦ ?_
  cases code with
  | none => exact lineLocal_pure _
  | some code => exact lineLocal_bind (lineLocal_accept? rfl) fun _ ↦ lineLocal_pure _

theorem lineLocal_codeLine (symbol : Option String) (otherwise : ParseError) :
    LineLocal (codeLine symbol otherwise) := by
  refine lineLocal_bind (lineLocal_line symbol) fun code ↦ ?_
  cases code with
  | some code => exact lineLocal_pure _
  | none => exact lineLocal_throw _

theorem lineLocal_labelled : LineLocal labelled := by
  refine lineLocal_bind (lineLocal_accept? rfl) fun found ↦ ?_
  cases found with
  | some name => exact lineLocal_bind (lineLocal_modifySymbols _) fun _ ↦ lineLocal_codeLine _ _
  | none => exact lineLocal_codeLine _ _

theorem lineLocal_content : LineLocal content := by
  refine lineLocal_bind (lineLocal_accept? rfl) fun found ↦ ?_
  cases found with
  | some text => exact lineLocal_pure _
  | none => exact lineLocal_labelled

end ParseM

end PepAsm.Assembly
