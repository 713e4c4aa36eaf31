import PepAsm.Proofs.Assembly.References

namespace PepAsm.Assembly

open PepAsm.Scan PepAsm.Instruction PepAsm.Text

variable {α β : Type}

def leadingSymbol? (tokens : List Token) : Option String :=
  tokens.head?.bind Token.symbol?

def mentionArgument (symbols : SymbolTable) : List Token → SymbolTable
  | .identifier name :: _ => symbols.reference name
  | _ => symbols

def mentionOperand (symbols : SymbolTable) : List Token → SymbolTable
  | .identifier word :: tokens =>
    if (Mnemonic.ofWord? word).isSome then mentionArgument symbols tokens else symbols
  | _ => symbols

/-- The symbols after a line, whether it can be read or not: its label counts as a definition, and
the symbol that its instruction works on is mentioned. -/
def recordLine (symbols : SymbolTable) : List Token → SymbolTable
  | .symbol name :: tokens => mentionOperand (symbols.define name) tokens
  | tokens => mentionOperand symbols tokens

namespace ParseM

variable {r : Reader}

def KeepsSymbols (x : ParseM α) : Prop :=
  ∀ r, (left (x r)).symbols = r.symbols

theorem keepsSymbols_pure (a : α) : KeepsSymbols (pure a) :=
  fun _ ↦ rfl

theorem keepsSymbols_throw (e : ParseError) : KeepsSymbols (throw e : ParseM α) :=
  fun _ ↦ rfl

theorem keepsSymbols_accept? (select : Token → Option α) : KeepsSymbols (accept? select) :=
  fun _ ↦ rfl

/-- What comes after an attempt and keeps the symbols does not matter for them. -/
theorem symbols_bind {x : ParseM α} {f : α → ParseM β} (hf : ∀ a, KeepsSymbols (f a))
    (r : Reader) : (left ((x >>= f) r)).symbols = (left (x r)).symbols := by
  cases h : x r with
  | ok a s =>
    rw [bind_of_ok h]
    exact hf a s
  | error e s =>
    rw [bind_of_error h]
    rfl

theorem keepsSymbols_bind {x : ParseM α} {f : α → ParseM β} (hx : KeepsSymbols x)
    (hf : ∀ a, KeepsSymbols (f a)) : KeepsSymbols (x >>= f) :=
  fun r ↦ (symbols_bind hf r).trans (hx r)

theorem keepsSymbols_expect (select : Token → Option α) : KeepsSymbols (expect select) := by
  refine keepsSymbols_bind (keepsSymbols_accept? select) fun found ↦ ?_
  cases found with
  | some a => exact keepsSymbols_pure a
  | none => exact keepsSymbols_throw _

theorem keepsSymbols_mode (mnemonic : Mnemonic) : KeepsSymbols (mode mnemonic) := by
  refine keepsSymbols_bind (keepsSymbols_expect _) fun word ↦ ?_
  dsimp only
  split
  · exact keepsSymbols_throw _
  · split
    · exact keepsSymbols_pure _
    · exact keepsSymbols_throw _

theorem symbols_argument (r : Reader) :
    (left (argument r)).symbols = mentionArgument r.symbols r.tokens := by
  rcases accept?_cases Token.hexadecimal? r with
    ⟨token, n, s, hn, hs, htokens, hsymbols⟩ | ⟨s₁, -, h₁, htokens₁, hsymbols₁⟩
  · cases Token.hexadecimal?_eq_some.1 hn
    rw [argument, bind_of_ok hs, htokens]
    exact hsymbols
  rw [← htokens₁, ← hsymbols₁]
  rcases accept?_cases Token.decimal? s₁ with
    ⟨token, n, s, hn, hs, htokens, hsymbols⟩ | ⟨s₂, -, h₂, htokens₂, hsymbols₂⟩
  · cases Token.decimal?_eq_some.1 hn
    simp only [argument, bind_of_ok h₁, bind_of_ok hs, htokens]
    exact hsymbols
  rw [← htokens₂, ← hsymbols₂]
  rcases accept?_cases Token.identifier? s₂ with
    ⟨token, name, s, hn, hs, htokens, hsymbols⟩ | ⟨s, hnone, hs, -, hsymbols⟩
  · cases Token.identifier?_eq_some.1 hn
    simp only [argument, bind_of_ok h₁, bind_of_ok h₂, bind_of_ok hs, htokens, mentionArgument,
      ← hsymbols]
    rfl
  · simp only [argument, bind_of_ok h₁, bind_of_ok h₂, bind_of_ok hs]
    refine hsymbols.trans ?_
    unfold mentionArgument
    split
    · rename_i name tokens hword
      have hnot := hnone (.identifier name) (by rw [hword]; rfl)
      contradiction
    · rfl

theorem symbols_operand (r : Reader) :
    (left (operand r)).symbols = mentionArgument r.symbols r.tokens := by
  refine (symbols_bind (fun found ↦ ?_) r).trans (symbols_argument r)
  cases found with
  | none => exact keepsSymbols_throw _
  | some o =>
    refine keepsSymbols_bind (fun _ ↦ rfl) fun s ↦ ?_
    split
    · exact keepsSymbols_pure _
    · exact keepsSymbols_throw _

theorem symbols_instruction (symbol : Option String) (r : Reader) :
    (left (instruction symbol r)).symbols = mentionOperand r.symbols r.tokens := by
  rcases accept?_cases Token.identifier? r with
    ⟨token, word, s, hn, hs, htokens, hsymbols⟩ | ⟨s, hnone, hs, -, hsymbols⟩
  · cases Token.identifier?_eq_some.1 hn
    rw [instruction, bind_of_ok hs, htokens, mentionOperand, ← hsymbols]
    dsimp only
    cases Mnemonic.ofWord? word with
    | none => rfl
    | some m =>
      refine (symbols_bind (fun o ↦ ?_) s).trans (symbols_operand s)
      exact keepsSymbols_bind (keepsSymbols_expect _) fun _ ↦
        keepsSymbols_bind (keepsSymbols_mode m) fun _ ↦ keepsSymbols_pure _
  · rw [instruction, bind_of_ok hs]
    refine hsymbols.trans ?_
    unfold mentionOperand
    split
    · rename_i word tokens hword
      have hnot := hnone (.identifier word) (by rw [hword]; rfl)
      contradiction
    · rfl

theorem symbols_codeLine (symbol : Option String) (otherwise : ParseError) (r : Reader) :
    (left (codeLine symbol otherwise r)).symbols = mentionOperand r.symbols r.tokens := by
  have hline : (left (line symbol r)).symbols = mentionOperand r.symbols r.tokens := by
    refine (symbols_bind (fun code ↦ ?_) r).trans (symbols_instruction symbol r)
    cases code with
    | none => exact keepsSymbols_pure _
    | some code => exact keepsSymbols_bind (keepsSymbols_accept? _) fun _ ↦ keepsSymbols_pure _
  refine (symbols_bind (fun code ↦ ?_) r).trans hline
  cases code with
  | some code => exact keepsSymbols_pure _
  | none => exact keepsSymbols_throw _

theorem symbols_labelled (r : Reader) :
    (left (labelled r)).symbols = recordLine r.symbols r.tokens := by
  rcases accept?_cases Token.symbol? r with
    ⟨token, name, s, hn, hs, htokens, hsymbols⟩ | ⟨s, hnone, hs, htokens, hsymbols⟩
  · cases Token.symbol?_eq_some.1 hn
    rw [labelled, bind_of_ok hs, htokens, recordLine, ← hsymbols]
    exact symbols_codeLine _ _ { s with symbols := s.symbols.define name }
  · rw [labelled, bind_of_ok hs]
    refine (symbols_codeLine _ _ s).trans ?_
    rw [htokens, hsymbols]
    unfold recordLine
    split
    · rename_i name tokens hlabel
      have hnot := hnone (.symbol name) (by rw [hlabel]; rfl)
      contradiction
    · rfl

/-- A line changes the symbols in the same way whether it can be read or not. -/
theorem symbols_content (r : Reader) :
    (left (content r)).symbols = recordLine r.symbols r.tokens := by
  rcases accept?_cases Token.comment? r with
    ⟨token, text, s, hn, hs, htokens, hsymbols⟩ | ⟨s, hnone, hs, htokens, hsymbols⟩
  · cases Token.comment?_eq_some.1 hn
    rw [content, bind_of_ok hs, htokens]
    exact hsymbols
  · rw [content, bind_of_ok hs, ← htokens, ← hsymbols]
    exact symbols_labelled s

end ParseM

variable {symbols : SymbolTable} {tokens piece : List Token} {name : String}

theorem symbol_mentionOperand :
    (mentionOperand symbols tokens).symbol name = symbols.symbol name := by
  unfold mentionOperand mentionArgument
  split
  · split
    · split
      · exact symbols.symbol_reference _ _
      · rfl
    · rfl
  · rfl

theorem symbol_recordLine :
    ((recordLine symbols tokens).symbol name).definitions =
        (symbols.symbol name).definitions + (if leadingSymbol? tokens = some name then 1 else 0) ∧
      ((recordLine symbols tokens).symbol name).value = (symbols.symbol name).value := by
  unfold recordLine
  split
  · rename_i other rest
    rw [symbol_mentionOperand, symbols.definitions_define, symbols.value_define]
    simp [leadingSymbol?, Token.symbol?, eq_comm]
  · rename_i hlabel
    rw [symbol_mentionOperand, if_neg]
    · exact ⟨rfl, rfl⟩
    · intro h
      obtain ⟨token, htoken, hsymbol⟩ := Option.bind_eq_some_iff.1 h
      obtain ⟨rest, rfl⟩ := List.head?_eq_some_iff.1 htoken
      exact hlabel name rest (congrArg (· :: rest) (Token.symbol?_eq_some.1 hsymbol))

theorem symbols_readSegment :
    (readSegment symbols piece).2 = recordLine symbols (piece.takeWhile (· != .empty)) := by
  unfold readSegment readLine
  split
  · rename_i hempty
    rw [Bool.and_eq_true, List.isEmpty_iff] at hempty
    rw [hempty.1]
    rfl
  · have hcontent := ParseM.symbols_content (.ofTokens (piece.takeWhile (· != .empty)) symbols)
    rw [Reader.tokens_ofTokens] at hcontent
    cases hc : content (.ofTokens (piece.takeWhile (· != .empty)) symbols) with
    | ok line s =>
      rw [hc] at hcontent
      exact hcontent
    | error e s =>
      rw [hc] at hcontent
      exact hcontent

theorem leadingSymbol?_takeWhile :
    leadingSymbol? (piece.takeWhile (· != .empty)) = leadingSymbol? piece := by
  cases piece with
  | nil => rfl
  | cons token rest =>
    cases token with
    | empty => rfl
    | _ => rfl

theorem leadingSymbol?_of_declared (h : (readSegment symbols piece).1.declared? = some name) :
    leadingSymbol? piece = some name := by
  have hread : (readSegment symbols piece).1.isError = false := by
    cases hl : (readSegment symbols piece).1 with
    | error reason =>
      rw [hl] at h
      contradiction
    | _ => rfl
  rw [← leadingSymbol?_takeWhile]
  rcases readSegment_cases hread with ⟨hempty, -⟩ | hcontent
  · rw [hempty] at h
    contradiction
  · generalize piece.takeWhile (· != .empty) = body at hcontent
    generalize (readSegment symbols piece).1 = line at hcontent h
    generalize (readSegment symbols piece).2 = after at hcontent
    cases hcontent with
    | comment text => contradiction
    | code symbol remark hi =>
      obtain rfl : symbol = some name := h
      rfl

theorem readSegments_records {pieces : List (List Token)} :
    ((readSegments symbols pieces).2.symbol name).definitions =
        (symbols.symbol name).definitions +
          pieces.countP (leadingSymbol? · = some name) ∧
      ((readSegments symbols pieces).2.symbol name).value = (symbols.symbol name).value ∧
      (declarations (readSegments symbols pieces).1).count name ≤
        pieces.countP (leadingSymbol? · = some name) := by
  induction pieces generalizing symbols with
  | nil => exact ⟨rfl, rfl, Nat.le_refl _⟩
  | cons piece pieces ih =>
    rw [readSegments]
    dsimp only
    obtain ⟨hdefinitions, hvalue, hcount⟩ := @ih (readSegment symbols piece).2
    obtain ⟨hd, hv⟩ := @symbol_recordLine symbols (piece.takeWhile (· != .empty)) name
    rw [← symbols_readSegment, leadingSymbol?_takeWhile] at hd
    rw [← symbols_readSegment] at hv
    rw [count_declarations_cons, List.countP_cons, hdefinitions, hvalue, hd, hv]
    have hone : (if (readSegment symbols piece).1.declared? = some name then 1 else 0) ≤
        if leadingSymbol? piece = some name then 1 else 0 := by
      split
      · rename_i h
        rw [if_pos (leadingSymbol?_of_declared h)]
      · exact Nat.zero_le _
    simp only [decide_eq_true_eq, true_and]
    exact ⟨by omega, by omega⟩

/-- Reading a program counts one definition of a symbol for each line that begins with its label,
and gives no symbol a value. The lines that declare the symbol are among them. -/
theorem parse_records (text : String) (symbols : SymbolTable) (name : String) :
    let labels := (segments (Token.scanner.tokens (endLine text))).countP
      (leadingSymbol? · = some name)
    ((parse text symbols).symbols.symbol name).definitions =
        (symbols.symbol name).definitions + labels ∧
      ((parse text symbols).symbols.symbol name).value = (symbols.symbol name).value ∧
      (declarations (parse text symbols).lines).count name ≤ labels := by
  obtain ⟨hlines, hsymbols⟩ := Prod.mk.inj (parse_eq text symbols)
  rw [hlines, hsymbols]
  exact readSegments_records

end PepAsm.Assembly
