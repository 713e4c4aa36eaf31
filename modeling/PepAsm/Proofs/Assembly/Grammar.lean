import PepAsm.Proofs.Assembly.Segments

namespace PepAsm.Assembly

open PepAsm.Scan PepAsm.Instruction PepAsm.Text

variable {α β : Type}

/-- `argument → hexadecimal | decimal | identifier`. An identifier is a symbol, which is mentioned
by that. -/
inductive IsArgument (symbols : SymbolTable) : Token → Operand → SymbolTable → Prop
  | hexadecimal (n : Int) : IsArgument symbols (.hexadecimal n) (.hexadecimal n) symbols
  | decimal (n : Int) : IsArgument symbols (.decimal n) (.decimal n) symbols
  | symbol (name : String) :
      IsArgument symbols (.identifier name) (.symbol name) (symbols.reference name)

/-- `instruction → identifier argument , identifier`. The argument has to be a number of sixteen
bits, with or without a sign, and the instruction has to know the mode. -/
inductive IsInstruction (symbols : SymbolTable) :
    List Token → Mnemonic → Operand → Mode → SymbolTable → Prop
  | intro {word modeWord : String} {token : Token} {m : Mnemonic} {o : Operand} {mode : Mode}
      {after : SymbolTable} (hm : Mnemonic.ofWord? word = some m)
      (ho : IsArgument symbols token o after) (hlow : -32768 ≤ o.value after)
      (hhigh : o.value after ≤ 65535)
      (hmode : Mode.ofName? (upper modeWord) = some mode) (hallows : m.format.allows mode) :
      IsInstruction symbols [.identifier word, token, .comma, .identifier modeWord] m o mode after

def label (symbols : SymbolTable) : Option String → SymbolTable
  | some name => symbols.define name
  | none => symbols

/-- `content → comment | [symbol] instruction [comment]` -/
inductive IsContent (symbols : SymbolTable) : List Token → Line → SymbolTable → Prop
  | comment (text : String) : IsContent symbols [.comment text] (.comment text) symbols
  | code (symbol remark : Option String) {tokens : List Token} {m : Mnemonic} {o : Operand}
      {mode : Mode} {after : SymbolTable}
      (h : IsInstruction (label symbols symbol) tokens m o mode after) :
      IsContent symbols
        (symbol.toList.map .symbol ++ tokens ++ remark.toList.map .comment)
        (.code { body := .dyadic m o mode, symbol, comment := remark }) after

theorem fitsWord_iff {n : Int} : fitsWord n ↔ -32768 ≤ n ∧ n ≤ 65535 := by
  simp [fitsWord]

namespace Token

variable {token : Token}

theorem identifier?_eq_some {name : String} :
    token.identifier? = some name ↔ token = .identifier name := by
  cases token with
  | _ => simp [identifier?]

theorem symbol?_eq_some {name : String} : token.symbol? = some name ↔ token = .symbol name := by
  cases token with
  | _ => simp [symbol?]

theorem comment?_eq_some {text : String} : token.comment? = some text ↔ token = .comment text := by
  cases token with
  | _ => simp [comment?]

theorem comma?_eq_some {u : Unit} : token.comma? = some u ↔ token = .comma := by
  cases token with
  | _ => simp [comma?]

theorem decimal?_eq_some {n : Int} : token.decimal? = some n ↔ token = .decimal n := by
  cases token with
  | _ => simp [decimal?]

theorem hexadecimal?_eq_some {n : Int} :
    token.hexadecimal? = some n ↔ token = .hexadecimal n := by
  cases token with
  | _ => simp [hexadecimal?]

end Token

namespace ParseM

variable {r s : Reader}

theorem bind_eq_ok {x : ParseM α} {f : α → ParseM β} {b : β} (h : (x >>= f) r = .ok b s) :
    ∃ a r', x r = .ok a r' ∧ f a r' = .ok b s := by
  change EStateM.bind x f r = _ at h
  unfold EStateM.bind at h
  split at h
  · exact ⟨_, _, ‹_›, h⟩
  · contradiction

theorem accept?_eq_some {select : Token → Option α} {a : α} (h : accept? select r = .ok (some a) s) :
    ∃ token, select token = some a ∧ r.tokens = token :: s.tokens ∧ s.symbols = r.symbols := by
  rcases accept?_cases select r with
    ⟨token, a', s', hs, hr, htokens, hsymbols⟩ | ⟨s', -, hr, -, -⟩
  · rw [hr] at h
    cases h
    exact ⟨token, hs, htokens, hsymbols⟩
  · rw [hr] at h
    cases h

theorem accept?_eq_none {select : Token → Option α} (h : accept? select r = .ok none s) :
    s.tokens = r.tokens ∧ s.symbols = r.symbols := by
  rcases accept?_cases select r with
    ⟨token, a', s', hs, hr, htokens, hsymbols⟩ | ⟨s', -, hr, htokens, hsymbols⟩
  · rw [hr] at h
    cases h
  · rw [hr] at h
    cases h
    exact ⟨htokens, hsymbols⟩

theorem expect_eq_ok {select : Token → Option α} {a : α} (h : expect select r = .ok a s) :
    ∃ token, select token = some a ∧ r.tokens = token :: s.tokens ∧ s.symbols = r.symbols := by
  obtain ⟨found, r', hr, hf⟩ := bind_eq_ok h
  cases found with
  | some a' =>
    cases hf
    exact accept?_eq_some hr
  | none => contradiction

theorem argument_eq_ok {o : Operand} (h : argument r = .ok (some o) s) :
    ∃ token, r.tokens = token :: s.tokens ∧ IsArgument r.symbols token o s.symbols := by
  obtain ⟨hex, r₁, h₁, h⟩ := bind_eq_ok h
  cases hex with
  | some n =>
    obtain ⟨token, ht, htokens, hsymbols⟩ := accept?_eq_some h₁
    cases h
    cases Token.hexadecimal?_eq_some.1 ht
    exact ⟨_, htokens, hsymbols ▸ .hexadecimal n⟩
  | none =>
    obtain ⟨ht₁, hs₁⟩ := accept?_eq_none h₁
    obtain ⟨dec, r₂, h₂, h⟩ := bind_eq_ok h
    cases dec with
    | some n =>
      obtain ⟨token, ht, htokens, hsymbols⟩ := accept?_eq_some h₂
      cases h
      cases Token.decimal?_eq_some.1 ht
      exact ⟨_, ht₁ ▸ htokens, by rw [hsymbols, hs₁]; exact .decimal n⟩
    | none =>
      obtain ⟨ht₂, hs₂⟩ := accept?_eq_none h₂
      obtain ⟨name, r₃, h₃, h⟩ := bind_eq_ok h
      cases name with
      | some name =>
        obtain ⟨token, ht, htokens, hsymbols⟩ := accept?_eq_some h₃
        cases Token.identifier?_eq_some.1 ht
        cases h
        refine ⟨.identifier name, ?_, ?_⟩
        · rw [← ht₁, ← ht₂, htokens]
          rfl
        · change IsArgument r.symbols _ _ (r₃.symbols.reference name)
          rw [hsymbols, hs₂, hs₁]
          exact .symbol name
      | none => cases h

theorem operand_eq_ok {o : Operand} (h : operand r = .ok o s) :
    ∃ token, r.tokens = token :: s.tokens ∧ IsArgument r.symbols token o s.symbols ∧
      -32768 ≤ o.value s.symbols ∧ o.value s.symbols ≤ 65535 := by
  obtain ⟨found, r', hr, h⟩ := bind_eq_ok h
  cases found with
  | none => contradiction
  | some o' =>
    obtain ⟨token, htokens, ho⟩ := argument_eq_ok hr
    obtain ⟨r'', s', hget, h⟩ := bind_eq_ok h
    cases hget
    split at h
    · cases h
      exact ⟨token, htokens, ho, fitsWord_iff.1 ‹_›⟩
    · contradiction

theorem mode_eq_ok {m : Mnemonic} {found : Mode} (h : mode m r = .ok found s) :
    ∃ word, r.tokens = .identifier word :: s.tokens ∧ s.symbols = r.symbols ∧
      Mode.ofName? (upper word) = some found ∧ m.format.allows found := by
  obtain ⟨word, r', hr, h⟩ := bind_eq_ok h
  obtain ⟨token, ht, htokens, hsymbols⟩ := expect_eq_ok hr
  cases Token.identifier?_eq_some.1 ht
  dsimp only at h
  cases hm : Mode.ofName? (upper word) with
  | none =>
    rw [hm] at h
    contradiction
  | some found' =>
    rw [hm] at h
    dsimp only at h
    split at h
    · cases h
      exact ⟨word, htokens, hsymbols, hm, ‹_›⟩
    · contradiction

theorem instruction_eq_ok {symbol : Option String} {code : CodeLine}
    (h : instruction symbol r = .ok (some code) s) :
    ∃ tokens m o found, r.tokens = tokens ++ s.tokens ∧
      IsInstruction r.symbols tokens m o found s.symbols ∧
      code = { body := .dyadic m o found, symbol } := by
  obtain ⟨word, r₁, h₁, h⟩ := bind_eq_ok h
  cases word with
  | none => cases h
  | some word =>
    obtain ⟨token, ht, htokens₁, hsymbols₁⟩ := accept?_eq_some h₁
    cases Token.identifier?_eq_some.1 ht
    dsimp only at h
    cases hm : Mnemonic.ofWord? word with
    | none =>
      rw [hm] at h
      contradiction
    | some m =>
      rw [hm] at h
      obtain ⟨o, r₂, h₂, h⟩ := bind_eq_ok h
      obtain ⟨argument, htokens₂, ho, hlow, hhigh⟩ := operand_eq_ok h₂
      obtain ⟨u, r₃, h₃, h⟩ := bind_eq_ok h
      obtain ⟨separator, ht₃, htokens₃, hsymbols₃⟩ := expect_eq_ok h₃
      cases Token.comma?_eq_some.1 ht₃
      obtain ⟨found, r₄, h₄, h⟩ := bind_eq_ok h
      obtain ⟨modeWord, htokens₄, hsymbols₄, hmode, hallows⟩ := mode_eq_ok h₄
      cases h
      refine ⟨[.identifier word, argument, .comma, .identifier modeWord], m, o, found, ?_, ?_, rfl⟩
      · rw [htokens₁, htokens₂, htokens₃, htokens₄]
        rfl
      · rw [hsymbols₄, hsymbols₃]
        exact .intro hm (hsymbols₁ ▸ ho) hlow hhigh hmode hallows

theorem codeLine_eq_ok {symbol : Option String} {otherwise : ParseError} {read : Line}
    (h : codeLine symbol otherwise r = .ok read s) :
    ∃ tokens m o found remark,
      r.tokens = tokens ++ remark.toList.map .comment ++ s.tokens ∧
      IsInstruction r.symbols tokens m o found s.symbols ∧
      read = .code { body := .dyadic m o found, symbol, comment := remark } := by
  obtain ⟨code, r₁, h₁, h⟩ := bind_eq_ok h
  cases code with
  | none => contradiction
  | some code =>
    cases h
    obtain ⟨code', r₂, h₂, h₁⟩ := bind_eq_ok h₁
    cases code' with
    | none => cases h₁
    | some code' =>
      obtain ⟨tokens, m, o, found, htokens, hi, rfl⟩ := instruction_eq_ok h₂
      obtain ⟨remark, r₃, h₃, h₁⟩ := bind_eq_ok h₁
      cases h₁
      refine ⟨tokens, m, o, found, remark, ?_, ?_, rfl⟩
      · cases remark with
        | some text =>
          obtain ⟨token, ht, htokens₃, -⟩ := accept?_eq_some h₃
          cases Token.comment?_eq_some.1 ht
          rw [htokens, htokens₃, List.append_assoc]
          rfl
        | none =>
          rw [htokens, (accept?_eq_none h₃).1, List.append_assoc]
          rfl
      · cases remark with
        | some text =>
          obtain ⟨token, -, -, hsymbols⟩ := accept?_eq_some h₃
          exact hsymbols ▸ hi
        | none => exact (accept?_eq_none h₃).2 ▸ hi

theorem content_eq_ok {read : Line} (h : content r = .ok read s) :
    ∃ tokens, r.tokens = tokens ++ s.tokens ∧ IsContent r.symbols tokens read s.symbols := by
  obtain ⟨found, r₁, h₁, h⟩ := bind_eq_ok h
  cases found with
  | some text =>
    obtain ⟨token, ht, htokens, hsymbols⟩ := accept?_eq_some h₁
    cases Token.comment?_eq_some.1 ht
    cases h
    exact ⟨[.comment text], htokens, hsymbols ▸ .comment text⟩
  | none =>
    obtain ⟨htokens₁, hsymbols₁⟩ := accept?_eq_none h₁
    obtain ⟨name, r₂, h₂, h⟩ := bind_eq_ok h
    cases name with
    | some name =>
      obtain ⟨token, ht, htokens₂, hsymbols₂⟩ := accept?_eq_some h₂
      cases Token.symbol?_eq_some.1 ht
      obtain ⟨u, r₃, h₃, h⟩ := bind_eq_ok h
      cases h₃
      obtain ⟨tokens, m, o, found, remark, htokens, hi, rfl⟩ := codeLine_eq_ok h
      change r₂.tokens = _ at htokens
      change IsInstruction (r₂.symbols.define name) tokens m o found s.symbols at hi
      rw [hsymbols₂, hsymbols₁] at hi
      refine ⟨.symbol name :: (tokens ++ remark.toList.map Token.comment), ?_,
        .code (some name) remark hi⟩
      rw [← htokens₁, htokens₂, htokens, List.cons_append]
    | none =>
      obtain ⟨htokens₂, hsymbols₂⟩ := accept?_eq_none h₂
      obtain ⟨tokens, m, o, found, remark, htokens, hi, rfl⟩ := codeLine_eq_ok h
      rw [hsymbols₂, hsymbols₁] at hi
      refine ⟨tokens ++ remark.toList.map Token.comment, ?_, .code none remark hi⟩
      rw [← htokens₁, ← htokens₂, htokens]

end ParseM

variable {symbols after : SymbolTable} {line : Line}

theorem readLine_cases {body : List Token} {ended : Bool}
    (h : readLine symbols body ended = (line, after)) (hl : line.isError = false) :
    ended = true ∧
      ((body = [] ∧ line = .empty ∧ after = symbols) ∨ IsContent symbols body line after) := by
  unfold readLine at h
  split at h
  · rename_i hempty
    rw [Bool.and_eq_true] at hempty
    cases h
    exact ⟨hempty.2, .inl ⟨List.isEmpty_iff.1 hempty.1, rfl, rfl⟩⟩
  · split at h
    · rename_i read s hc
      split at h
      · rename_i hend
        rw [Bool.and_eq_true] at hend
        cases h
        have hnil : s.tokens = [] := List.isEmpty_iff.1 hend.1
        obtain ⟨tokens, htokens, hcontent⟩ := ParseM.content_eq_ok hc
        rw [Reader.tokens_ofTokens, hnil, List.append_nil] at htokens
        exact ⟨hend.2, .inr (htokens ▸ hcontent)⟩
      · cases h
        contradiction
    · cases h
      contradiction

theorem readSegment_cases {segment : List Token}
    (hl : (readSegment symbols segment).1.isError = false) :
    ((readSegment symbols segment).1 = .empty ∧ (readSegment symbols segment).2 = symbols) ∨
      IsContent symbols (segment.takeWhile (· != .empty)) (readSegment symbols segment).1
        (readSegment symbols segment).2 :=
  (readLine_cases rfl hl).2.imp_left And.right

theorem mem_readSegments {pieces : List (List Token)} (hm : line ∈ (readSegments symbols pieces).1)
    (hl : line.isError = false) :
    line = .empty ∨ ∃ before tokens after,
      IsContent before tokens line after ∧ tokens ⊆ pieces.flatten := by
  induction pieces generalizing symbols with
  | nil => contradiction
  | cons piece pieces ih =>
    rw [List.flatten_cons]
    rcases List.mem_cons.1 hm with rfl | hm
    · rcases readSegment_cases hl with ⟨hempty, -⟩ | hcontent
      · exact .inl hempty
      · refine .inr ⟨_, _, _, hcontent, ?_⟩
        exact List.subset_append_of_subset_left _ (List.takeWhile_sublist _).subset
    · rcases ih hm with hempty | ⟨before, tokens, after, hcontent, hsub⟩
      · exact .inl hempty
      · exact .inr ⟨before, tokens, after, hcontent, List.subset_append_of_subset_right _ hsub⟩

theorem flatten_segments (tokens : List Token) : (segments tokens).flatten = tokens := by
  fun_induction segments tokens with
  | case1 => rfl
  | case2 tokens ih => rw [List.flatten_cons, ih, List.singleton_append]
  | case3 token tokens hne h ih =>
    rw [h] at ih
    rw [← ih]
    rfl
  | case4 token tokens hne first others h ih =>
    rw [h] at ih
    rw [← ih]
    rfl

theorem mem_parse {text : String} (hm : line ∈ (parse text symbols).lines)
    (hl : line.isError = false) :
    line = .empty ∨ ∃ before tokens after,
      IsContent before tokens line after ∧ tokens ⊆ Token.scanner.tokens (endLine text) := by
  have hlines := congrArg Prod.fst (parse_eq text symbols)
  dsimp only at hlines
  rw [hlines] at hm
  have h := mem_readSegments hm hl
  rwa [flatten_segments] at h

end PepAsm.Assembly
