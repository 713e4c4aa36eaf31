import PepAsm.Proofs.Assembly.Grammar

namespace PepAsm.Assembly

open PepAsm.Scan PepAsm.Instruction PepAsm.Text

variable {α : Type}

/-- `statement → [content] empty` -/
inductive IsStatement (symbols : SymbolTable) : List Token → Line → SymbolTable → Prop
  | empty : IsStatement symbols [.empty] .empty symbols
  | content {tokens : List Token} {line : Line} {after : SymbolTable}
      (h : IsContent symbols tokens line after) :
      IsStatement symbols (tokens ++ [.empty]) line after

namespace ParseM

variable {r : Reader} {token : Token} {rest : List Token}

theorem accept?_of_head (select : Token → Option α) {a : α} (hr : r.tokens = token :: rest)
    (ha : select token = some a) :
    ∃ s, accept? select r = .ok (some a) s ∧ s.tokens = rest ∧ s.symbols = r.symbols := by
  rcases accept?_cases select r with
    ⟨token', a', s, ha', h, htokens, hsymbols⟩ | ⟨s, hnone, -, -, -⟩
  · rw [hr] at htokens
    obtain ⟨rfl, rfl⟩ := List.cons.inj htokens
    rw [ha] at ha'
    cases ha'
    exact ⟨s, h, rfl, hsymbols⟩
  · have hselect := hnone token (by rw [hr]; rfl)
    rw [ha] at hselect
    contradiction

theorem accept?_of_not (select : Token → Option α)
    (hr : ∀ token ∈ r.tokens.head?, select token = none) :
    ∃ s, accept? select r = .ok none s ∧ s.tokens = r.tokens ∧ s.symbols = r.symbols := by
  rcases accept?_cases select r with ⟨token, a, s, ha, -, htokens, -⟩ | ⟨s, -, h, htokens, hsymbols⟩
  · have hselect := hr token (by rw [htokens]; rfl)
    rw [ha] at hselect
    contradiction
  · exact ⟨s, h, htokens, hsymbols⟩

theorem accept?_of_other (select : Token → Option α) (hr : r.tokens = token :: rest)
    (ha : select token = none) :
    ∃ s, accept? select r = .ok none s ∧ s.tokens = token :: rest ∧ s.symbols = r.symbols := by
  rw [← hr]
  refine accept?_of_not select fun first hfirst ↦ ?_
  rw [hr] at hfirst
  cases hfirst
  exact ha

theorem expect_of_head (select : Token → Option α) {a : α} (hr : r.tokens = token :: rest)
    (ha : select token = some a) :
    ∃ s, expect select r = .ok a s ∧ s.tokens = rest ∧ s.symbols = r.symbols := by
  obtain ⟨s, h, hs⟩ := accept?_of_head select hr ha
  exact ⟨s, bind_of_ok h, hs⟩

variable {o : Operand} {after : SymbolTable}

theorem argument_of_isArgument (hr : r.tokens = token :: rest)
    (h : IsArgument r.symbols token o after) :
    ∃ s, argument r = .ok (some o) s ∧ s.tokens = rest ∧ s.symbols = after := by
  cases h with
  | hexadecimal n =>
    obtain ⟨s, hs, htokens, hsymbols⟩ := accept?_of_head Token.hexadecimal? hr rfl
    exact ⟨s, bind_of_ok hs, htokens, hsymbols⟩
  | decimal n =>
    obtain ⟨r₁, h₁, ht₁, hs₁⟩ := accept?_of_other Token.hexadecimal? hr rfl
    obtain ⟨s, hs, htokens, hsymbols⟩ := accept?_of_head Token.decimal? ht₁ rfl
    exact ⟨s, (bind_of_ok h₁).trans (bind_of_ok hs), htokens, hsymbols.trans hs₁⟩
  | symbol name =>
    obtain ⟨r₁, h₁, ht₁, hs₁⟩ := accept?_of_other Token.hexadecimal? hr rfl
    obtain ⟨r₂, h₂, ht₂, hs₂⟩ := accept?_of_other Token.decimal? ht₁ rfl
    obtain ⟨r₃, h₃, ht₃, hs₃⟩ := accept?_of_head Token.identifier? ht₂ rfl
    refine ⟨{ r₃ with symbols := r₃.symbols.reference name },
      (bind_of_ok h₁).trans ((bind_of_ok h₂).trans (bind_of_ok h₃)), ht₃, ?_⟩
    rw [hs₃, hs₂, hs₁]

theorem operand_of_isArgument (hr : r.tokens = token :: rest)
    (h : IsArgument r.symbols token o after) (hlow : -32768 ≤ o.value after)
    (hhigh : o.value after ≤ 65535) :
    ∃ s, operand r = .ok o s ∧ s.tokens = rest ∧ s.symbols = after := by
  obtain ⟨s, hs, htokens, rfl⟩ := argument_of_isArgument hr h
  refine ⟨s, (bind_of_ok hs).trans ?_, htokens, rfl⟩
  change (if fitsWord (o.value s.symbols) then pure o
    else throw .numberTooLarge : ParseM Operand) s = _
  rw [if_pos (fitsWord_iff.2 ⟨hlow, hhigh⟩)]
  rfl

theorem mode_of_word {m : Mnemonic} {found : Mode} {word : String}
    (hr : r.tokens = .identifier word :: rest) (hmode : Mode.ofName? (upper word) = some found)
    (hallows : m.format.allows found) :
    ∃ s, mode m r = .ok found s ∧ s.tokens = rest ∧ s.symbols = r.symbols := by
  obtain ⟨s, hs, htokens, hsymbols⟩ := expect_of_head Token.identifier? hr rfl
  refine ⟨s, (bind_of_ok hs).trans ?_, htokens, hsymbols⟩
  rw [hmode]
  dsimp only
  rw [if_pos hallows]
  rfl

theorem instruction_of_isInstruction (symbol : Option String) {tokens : List Token} {m : Mnemonic}
    {found : Mode} (hr : r.tokens = tokens ++ rest)
    (h : IsInstruction r.symbols tokens m o found after) :
    ∃ s, instruction symbol r = .ok (some { body := .dyadic m o found, symbol }) s ∧
      s.tokens = rest ∧ s.symbols = after := by
  obtain ⟨hm, ho, hlow, hhigh, hmode, hallows⟩ := h
  obtain ⟨r₁, h₁, ht₁, hs₁⟩ := accept?_of_head Token.identifier? hr rfl
  obtain ⟨r₂, h₂, ht₂, hs₂⟩ := operand_of_isArgument ht₁ (hs₁ ▸ ho) hlow hhigh
  obtain ⟨r₃, h₃, ht₃, hs₃⟩ := expect_of_head Token.comma? ht₂ rfl
  obtain ⟨s, h₄, ht₄, hs₄⟩ := mode_of_word ht₃ hmode hallows
  refine ⟨s, (bind_of_ok h₁).trans ?_, ht₄, by rw [hs₄, hs₃, hs₂]⟩
  dsimp only
  rw [hm]
  exact (bind_of_ok h₂).trans ((bind_of_ok h₃).trans (bind_of_ok h₄))

theorem codeLine_of_isInstruction (symbol remark : Option String) (otherwise : ParseError)
    {tokens : List Token} {m : Mnemonic} {found : Mode}
    (hr : r.tokens = tokens ++ remark.toList.map .comment)
    (h : IsInstruction r.symbols tokens m o found after) :
    ∃ s, codeLine symbol otherwise r =
        .ok (.code { body := .dyadic m o found, symbol, comment := remark }) s ∧
      s.tokens = [] ∧ s.symbols = after := by
  obtain ⟨r₁, h₁, ht₁, hs₁⟩ := instruction_of_isInstruction symbol hr h
  obtain ⟨s, h₂, ht₂, hs₂⟩ : ∃ s, accept? Token.comment? r₁ = .ok remark s ∧ s.tokens = [] ∧
      s.symbols = r₁.symbols := by
    cases remark with
    | none =>
      obtain ⟨s, hs, ht, hsymbols⟩ := accept?_of_not Token.comment? (r := r₁) (by simp [ht₁])
      exact ⟨s, hs, ht.trans ht₁, hsymbols⟩
    | some text => exact accept?_of_head Token.comment? ht₁ rfl
  refine ⟨s, ?_, ht₂, hs₂.trans hs₁⟩
  have hline : line symbol r =
      .ok (some { body := .dyadic m o found, symbol, comment := remark }) s :=
    (bind_of_ok h₁).trans (bind_of_ok h₂)
  exact bind_of_ok hline

theorem content_of_isContent {read : Line} (h : IsContent r.symbols r.tokens read after) :
    ∃ s, content r = .ok read s ∧ s.tokens = [] ∧ s.symbols = after := by
  generalize hr : r.tokens = tokens at h
  cases h with
  | comment text =>
    obtain ⟨s, hs, ht, hsymbols⟩ := accept?_of_head Token.comment? hr rfl
    exact ⟨s, bind_of_ok hs, ht, hsymbols⟩
  | @code symbol remark tokens m o mode _ h =>
    cases symbol with
    | some name =>
      obtain ⟨r₁, h₁, ht₁, hs₁⟩ := accept?_of_other Token.comment? hr rfl
      obtain ⟨r₂, h₂, ht₂, hs₂⟩ := accept?_of_head Token.symbol? ht₁ rfl
      rw [label, ← hs₁, ← hs₂] at h
      obtain ⟨s, hs, ht, hsymbols⟩ := codeLine_of_isInstruction
        (r := { r₂ with symbols := r₂.symbols.define name }) (some name) remark
        .symbolWithoutInstruction ht₂ h
      exact ⟨s, (bind_of_ok h₁).trans ((bind_of_ok h₂).trans hs), ht, hsymbols⟩
    | none =>
      have hfirst : ∃ word others,
          tokens ++ remark.toList.map .comment = .identifier word :: others := by
        cases h
        exact ⟨_, _, rfl⟩
      obtain ⟨word, others, hword⟩ := hfirst
      change r.tokens = tokens ++ remark.toList.map .comment at hr
      obtain ⟨r₁, h₁, ht₁, hs₁⟩ := accept?_of_other Token.comment? (hr.trans hword) rfl
      obtain ⟨r₂, h₂, ht₂, hs₂⟩ := accept?_of_other Token.symbol? ht₁ rfl
      rw [label, ← hs₁, ← hs₂] at h
      obtain ⟨s, hs, ht, hsymbols⟩ := codeLine_of_isInstruction none remark .notALine
        (ht₂.trans hword.symm) h
      exact ⟨s, (bind_of_ok h₁).trans ((bind_of_ok h₂).trans hs), ht, hsymbols⟩

end ParseM

variable {symbols after : SymbolTable} {line : Line} {tokens piece : List Token}

theorem IsContent.isError (h : IsContent symbols tokens line after) : line.isError = false := by
  cases h with
  | _ => rfl

theorem IsStatement.isError (h : IsStatement symbols tokens line after) :
    line.isError = false := by
  cases h with
  | empty => rfl
  | content h => exact h.isError

theorem IsInstruction.empty_not_mem {m : Mnemonic} {o : Operand} {mode : Mode}
    (h : IsInstruction symbols tokens m o mode after) : Token.empty ∉ tokens := by
  obtain ⟨-, ho, -, -, -, -⟩ := h
  cases ho with
  | _ => simp

theorem IsContent.empty_not_mem (h : IsContent symbols tokens line after) :
    Token.empty ∉ tokens := by
  cases h with
  | comment text => simp
  | code symbol remark h =>
    have hi := h.empty_not_mem
    simp [hi]

theorem IsContent.ne_nil (h : IsContent symbols tokens line after) : tokens ≠ [] := by
  cases h with
  | comment text => simp
  | code symbol remark h =>
    cases h
    simp

theorem readLine_of_isContent (h : IsContent symbols tokens line after) :
    readLine symbols tokens true = (line, after) := by
  have hcontent : IsContent (Reader.ofTokens tokens symbols).symbols
      (Reader.ofTokens tokens symbols).tokens line after := by
    rw [Reader.tokens_ofTokens]
    exact h
  obtain ⟨s, hs, ht, rfl⟩ := ParseM.content_of_isContent hcontent
  simp [readLine, h.ne_nil, hs, ht]

theorem readSegment_ended {body : List Token} (hb : Token.empty ∉ body) :
    readSegment symbols (body ++ [.empty]) = readLine symbols body true :=
  @readSegment_append body [.empty] symbols hb (by simp)

theorem readSegment_open {body : List Token} (hb : Token.empty ∉ body) :
    readSegment symbols body = readLine symbols body false := by
  simpa using @readSegment_append body [] symbols hb (by simp)

theorem readSegment_of_isStatement (h : IsStatement symbols piece line after) :
    readSegment symbols piece = (line, after) := by
  cases h with
  | empty => rfl
  | content h => rw [readSegment_ended h.empty_not_mem, readLine_of_isContent h]

theorem isStatement_of_readSegment (hne : piece ≠ []) (hp : Token.empty ∉ piece.dropLast)
    (h : readSegment symbols piece = (line, after)) (hl : line.isError = false) :
    IsStatement symbols piece line after := by
  obtain ⟨body, last, rfl⟩ : ∃ body last, piece = body ++ [last] :=
    ⟨_, _, (List.dropLast_concat_getLast hne).symm⟩
  rw [List.dropLast_concat] at hp
  by_cases hlast : last = .empty
  · subst hlast
    rw [readSegment_ended hp] at h
    obtain ⟨-, ⟨rfl, rfl, rfl⟩ | hcontent⟩ := readLine_cases h hl
    · exact .empty
    · exact .content hcontent
  · -- Only the last piece of a text may have no end. It is no statement then.
    have hopen : Token.empty ∉ body ++ [last] := by
      simp [hp, Ne.symm hlast]
    rw [readSegment_open hopen] at h
    have hended := (readLine_cases h hl).1
    contradiction

theorem mem_segments (h : piece ∈ segments tokens) :
    piece ≠ [] ∧ Token.empty ∉ piece.dropLast := by
  fun_induction segments tokens generalizing piece with
  | case1 => contradiction
  | case2 tokens ih =>
    rcases List.mem_cons.1 h with rfl | h
    · simp
    · exact ih h
  | case3 token tokens hne hnil ih =>
    obtain rfl := List.mem_singleton.1 h
    simp
  | case4 token tokens hne first others hcons ih =>
    rw [hcons] at ih
    rcases List.mem_cons.1 h with rfl | h
    · obtain ⟨hfirst, hend⟩ := ih List.mem_cons_self
      rw [List.dropLast_cons_of_ne_nil hfirst, List.mem_cons, not_or]
      exact ⟨List.cons_ne_nil _ _, fun he ↦ hne he.symm, hend⟩
    · exact ih (List.mem_cons_of_mem _ h)

theorem mem_dropLast_segments (h : piece ∈ (segments tokens).dropLast) :
    piece.getLast? = some .empty := by
  fun_induction segments tokens generalizing piece with
  | case1 => contradiction
  | case2 tokens ih =>
    rcases List.mem_cons.1 (List.dropLast_subset _ h) with rfl | hm
    · rfl
    · have hne : segments tokens ≠ [] := List.ne_nil_of_mem hm
      rw [List.dropLast_cons_of_ne_nil hne] at h
      rcases List.mem_cons.1 h with rfl | h
      · rfl
      · exact ih h
  | case3 token tokens hne hnil ih => contradiction
  | case4 token tokens hne first others hcons ih =>
    rw [hcons] at ih
    cases others with
    | nil => contradiction
    | cons second others =>
      rw [List.dropLast_cons_of_ne_nil (List.cons_ne_nil _ _)] at h ih
      rcases List.mem_cons.1 h with rfl | h
      · have hfirst := ih List.mem_cons_self
        rw [List.getLast?_cons, hfirst]
        rfl
      · exact ih (List.mem_cons_of_mem _ h)

def symbolsAfter (symbols : SymbolTable) (pieces : List (List Token)) (k : Nat) : SymbolTable :=
  (readSegments symbols (pieces.take k)).2

theorem readSegments_getElem? (symbols : SymbolTable) {pieces : List (List Token)} {k : Nat}
    (h : pieces[k]? = some piece) :
    (readSegments symbols pieces).1[k]? =
        some (readSegment (symbolsAfter symbols pieces k) piece).1 ∧
      symbolsAfter symbols pieces (k + 1) =
        (readSegment (symbolsAfter symbols pieces k) piece).2 := by
  induction pieces generalizing symbols k with
  | nil => contradiction
  | cons first pieces ih =>
    cases k with
    | zero =>
      cases h
      exact ⟨rfl, rfl⟩
    | succ k => exact ih _ h

/-- A program has one line for each segment of its tokens. What the line is hangs on the tokens of
the segment and on the symbols that the segments before it leave behind. It can be read exactly if
the segment is a statement of the grammar, and is then the line that the grammar says. -/
theorem parse_accepts (text : String) (symbols : SymbolTable) :
    let tokens := Token.scanner.tokens (endLine text)
    let pieces := segments tokens
    let known := symbolsAfter symbols pieces
    let program := parse text symbols
    (pieces.flatten = tokens ∧ (∀ piece ∈ pieces, piece ≠ [] ∧ Token.empty ∉ piece.dropLast) ∧
      ∀ piece ∈ pieces.dropLast, piece.getLast? = some .empty) ∧
    (program.lines.length = pieces.length ∧ known 0 = symbols ∧
      known pieces.length = program.symbols) ∧
    ∀ k piece, pieces[k]? = some piece → ∃ line, program.lines[k]? = some line ∧
      (line, known (k + 1)) = readSegment (known k) piece ∧
      (line.isError = false ↔ ∃ read after, IsStatement (known k) piece read after) ∧
      ∀ read after, IsStatement (known k) piece read after →
        line = read ∧ known (k + 1) = after := by
  intro tokens pieces known program
  obtain ⟨hlines, hsymbols⟩ := Prod.mk.inj (parse_eq text symbols)
  refine ⟨⟨flatten_segments _, fun piece hp ↦ mem_segments hp,
    fun piece hp ↦ mem_dropLast_segments hp⟩, ⟨?_, rfl, ?_⟩, fun k piece hk ↦ ?_⟩
  · rw [hlines, length_readSegments]
  · change (readSegments symbols (pieces.take pieces.length)).2 = program.symbols
    rw [List.take_length, hsymbols]
  · obtain ⟨hline, hafter⟩ : program.lines[k]? = some (readSegment (known k) piece).1 ∧
        known (k + 1) = (readSegment (known k) piece).2 := by
      rw [hlines]
      exact readSegments_getElem? symbols hk
    obtain ⟨hne, hend⟩ := mem_segments (List.mem_of_getElem? hk)
    rw [hafter]
    refine ⟨_, hline, rfl, ⟨fun hread ↦ ?_, ?_⟩, fun read after h ↦ ?_⟩
    · exact ⟨_, _, isStatement_of_readSegment hne hend rfl hread⟩
    · rintro ⟨read, after, h⟩
      rw [readSegment_of_isStatement h]
      exact h.isError
    · rw [readSegment_of_isStatement h]
      exact ⟨rfl, rfl⟩

example :
    (parse "BR 65535,i" .empty).lines =
        [.code { body := .dyadic .br (.decimal 65535) .immediate }] ∧
      (parse "BR 65536,i" .empty).lines = [.error (some "Number too large")] := by
  decide +kernel

end PepAsm.Assembly
