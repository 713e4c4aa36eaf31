import PepAsm.Proofs.Assembly.Mentions

namespace PepAsm.Assembly

open PepAsm.Scan PepAsm.Instruction PepAsm.Text

def operandName? : List Token → Option String
  | .identifier word :: .identifier name :: _ =>
    if (Mnemonic.ofWord? word).isSome then some name else none
  | _ => none

def mentioned : List Token → List String
  | .symbol label :: tokens => label :: (operandName? tokens).toList
  | tokens => (operandName? tokens).toList

variable {symbols : SymbolTable} {tokens piece : List Token}

theorem names_mentionOperand :
    (mentionOperand symbols tokens).names =
      SymbolTable.mention symbols.names (operandName? tokens).toList := by
  cases tokens with
  | nil => exact (SymbolTable.mention_nil _).symm
  | cons first tokens =>
    cases first with
    | identifier word =>
      cases tokens with
      | nil => simp [mentionOperand, mentionArgument, operandName?, SymbolTable.mention_nil]
      | cons second tokens =>
        by_cases hword : (Mnemonic.ofWord? word).isSome
        · cases second with
          | identifier name =>
            simp [mentionOperand, mentionArgument, operandName?, hword, symbols.names_reference]
          | _ =>
            simp [mentionOperand, mentionArgument, operandName?, SymbolTable.mention_nil]
        · cases second with
          | _ => simp [mentionOperand, operandName?, hword, SymbolTable.mention_nil]
    | _ => exact (SymbolTable.mention_nil _).symm

theorem names_recordLine :
    (recordLine symbols tokens).names = SymbolTable.mention symbols.names (mentioned tokens) := by
  cases tokens with
  | nil => exact names_mentionOperand
  | cons first tokens =>
    cases first with
    | symbol label =>
      rw [recordLine, names_mentionOperand, symbols.names_define, ← SymbolTable.mention_append]
      rfl
    | _ => exact names_mentionOperand

theorem operandName?_takeWhile :
    operandName? (tokens.takeWhile (· != .empty)) = operandName? tokens := by
  cases tokens with
  | nil => rfl
  | cons first tokens =>
    cases first with
    | identifier word =>
      cases tokens with
      | nil => rfl
      | cons second tokens =>
        cases second with
        | _ => rfl
    | _ => rfl

theorem mentioned_takeWhile : mentioned (piece.takeWhile (· != .empty)) = mentioned piece := by
  cases piece with
  | nil => rfl
  | cons first tokens =>
    cases first with
    | symbol label => exact congrArg (label :: ·.toList) operandName?_takeWhile
    | identifier word =>
      have hname : operandName? ((Token.identifier word :: tokens).takeWhile (· != .empty)) =
          operandName? (.identifier word :: tokens) := operandName?_takeWhile
      exact congrArg Option.toList hname
    | _ => rfl

theorem names_readSegments (symbols : SymbolTable) (pieces : List (List Token)) :
    (readSegments symbols pieces).2.names =
      SymbolTable.mention symbols.names (pieces.flatMap mentioned) := by
  induction pieces generalizing symbols with
  | nil => exact (SymbolTable.mention_nil _).symm
  | cons piece pieces ih =>
    rw [readSegments, List.flatMap_cons, SymbolTable.mention_append]
    dsimp only
    rw [ih, symbols_readSegment, names_recordLine, mentioned_takeWhile]

/-- Reading a program adds the number of lines that begin with a symbol's label to the symbol's
definitions. It adds the other symbols that the lines mention in the order of their first mention,
keeps all that were there, and gives none a value. -/
theorem parse_symbols (text : String) (symbols : SymbolTable) :
    let pieces := segments (Token.scanner.tokens (endLine text))
    let labels (name : String) := pieces.countP (leadingSymbol? · = some name)
    let added := ((pieces.flatMap mentioned).filter (· ∉ symbols.names)).eraseDups
    (parse text symbols).symbols.symbols =
      symbols.symbols.map (fun s ↦ { s with definitions := s.definitions + labels s.name }) ++
        added.map fun name ↦ { name, definitions := labels name, value := none } := by
  intro pieces labels added
  have hnames : (parse text symbols).symbols.names = symbols.names ++ added := by
    obtain ⟨-, hsymbols⟩ := Prod.mk.inj (parse_eq text symbols)
    rw [hsymbols]
    exact names_readSegments symbols pieces
  have hsymbol (name : String) : (parse text symbols).symbols.symbol name =
      { name, definitions := (symbols.symbol name).definitions + labels name,
        value := (symbols.symbol name).value } := by
    obtain ⟨hdefinitions, hvalue, -⟩ := parse_records text symbols name
    rw [SymbolTable.symbol_eq, hdefinitions, hvalue]
  -- A table is given by its names and by what it holds under each of them.
  rw [(parse text symbols).symbols.symbols_eq_map, hnames, List.map_append]
  congr 1
  · rw [SymbolTable.names, List.map_map]
    apply List.map_congr_left
    intro s hs
    rw [Function.comp_apply, hsymbol, symbols.symbol_of_mem hs]
  · apply List.map_congr_left
    intro name hname
    have hnot : name ∉ symbols.names := by
      have hfilter := List.mem_filter.1 (List.mem_eraseDups.1 hname)
      simpa using hfilter.2
    rw [hsymbol, symbols.symbol_of_not_mem name hnot, Nat.zero_add]

example : (parse "CALL dog,i\ncat:CALL dog,i" .empty).symbols.symbols =
    [{ name := "dog" }, { name := "cat", definitions := 1 }] := by
  decide +kernel

end PepAsm.Assembly
