import PepAsm.Proofs.Assembly.Acceptance
import PepAsm.Proofs.Assembly.Spelling

namespace PepAsm.Text

def EndsVisible (text : List Char) : Prop :=
  ∃ c ∈ text.getLast?, isBlank c = false

variable {text last : List Char}

theorem EndsVisible.append (h : EndsVisible last) (text : List Char) :
    EndsVisible (text ++ last) := by
  obtain ⟨c, hc, hblank⟩ := h
  refine ⟨c, ?_, hblank⟩
  rw [Option.mem_def] at hc ⊢
  rw [List.getLast?_append, hc]
  rfl

theorem EndsVisible.of_suffix (h : EndsVisible text) (hs : last <:+ text) (hne : last ≠ []) :
    EndsVisible last := by
  obtain ⟨c, hc, hblank⟩ := h
  obtain ⟨front, rfl⟩ := hs
  rw [List.getLast?_append, List.getLast?_eq_some_getLast hne] at hc
  cases hc
  exact ⟨_, List.getLast?_eq_some_getLast hne, hblank⟩

theorem trimEnd_of_endsVisible (h : EndsVisible text) : trimEnd text = text := by
  obtain ⟨c, hc, hblank⟩ := h
  rw [Option.mem_def, List.getLast?_eq_head?_reverse] at hc
  unfold trimEnd
  cases hr : text.reverse with
  | nil => simpa using hr
  | cons d rest =>
    rw [hr] at hc
    cases hc
    rw [List.dropWhile_cons_of_neg (by simp [hblank]), ← hr, List.reverse_reverse]

theorem trimEnd_append_blank {blank : List Char} (h : ∀ c ∈ blank, isBlank c = true)
    (text : List Char) : trimEnd (text ++ blank) = trimEnd text := by
  have hr : ∀ c ∈ blank.reverse, isBlank c = true := fun c hc ↦ h c (List.mem_reverse.1 hc)
  unfold trimEnd
  rw [List.reverse_append, List.dropWhile_append_of_pos hr]

theorem trimEnd_cases (text : List Char) : trimEnd text = [] ∨ EndsVisible (trimEnd text) := by
  have hhead := List.head?_dropWhile_not isBlank text.reverse
  unfold trimEnd EndsVisible
  cases hd : text.reverse.dropWhile isBlank with
  | nil => exact .inl rfl
  | cons c rest =>
    rw [hd] at hhead
    refine .inr ⟨c, ?_, hhead⟩
    simp

theorem isBlank_of_mem_replicate {n : Nat} {c : Char} (h : c ∈ List.replicate n ' ') :
    isBlank c = true := by
  rw [List.eq_of_mem_replicate h]
  decide

end PepAsm.Text

namespace PepAsm.Instruction

open PepAsm.Text PepAsm.Assembly.Token

theorem Mnemonic.name_readable (m : Mnemonic) :
    ofWord? m.name = some m ∧ isName m.name.toList := by
  have hall : ∀ m ∈ all, ofWord? m.name = some m ∧ isName m.name.toList := by decide +kernel
  exact hall m m.mem_all

theorem Mode.suffix_readable (mode : Mode) :
    ofName? (upper mode.suffix) = some mode ∧ isName mode.suffix.toList ∧
      EndsVisible mode.suffix.toList := by
  have hall : ∀ mode ∈ all,
      ofName? (upper mode.suffix) = some mode ∧ isName mode.suffix.toList := by
    decide +kernel
  have hvisible : EndsVisible mode.suffix.toList := by
    cases mode with
    | _ => exact ⟨_, rfl, rfl⟩
  obtain ⟨hmode, hname⟩ := hall mode mode.mem_all
  exact ⟨hmode, hname, hvisible⟩

/-- The names that fill their column belong to instructions without an operand. -/
theorem Mnemonic.length_name_lt {m : Mnemonic} {mode : Mode} (h : m.format.allows mode) :
    m.name.length < 7 := by
  have hall : ∀ m ∈ all, m.name.length < 7 ∨ m.format = .monadic := by decide +kernel
  rcases hall m m.mem_all with hlt | hformat
  · exact hlt
  · rw [hformat] at h
    contradiction

end PepAsm.Instruction

namespace PepAsm.Assembly

open PepAsm.Scan PepAsm.Text PepAsm.Instruction Token

variable {symbols after : SymbolTable} {tokens : List Token} {token : Token} {m : Mnemonic}
  {o : Operand} {mode : Mode} {line : Line}

theorem isGap_of_mem_replicate {n : Nat} {c : Char} (h : c ∈ List.replicate n ' ') :
    isGap c = true := by
  rw [List.eq_of_mem_replicate h]
  decide

def operandText (symbol : Option String) (m : Mnemonic) (o : Operand) (i j : Nat) : List Char :=
  symbol.toList.flatMap (·.toList ++ [':']) ++ List.replicate i ' ' ++ m.name.toList ++
    List.replicate (j + 1) ' ' ++ o.text.toList ++ [',']

def codeText (symbol : Option String) (m : Mnemonic) (o : Operand) (mode : Mode)
    (remark : Option String) (i j k : Nat) : List Char :=
  operandText symbol m o i j ++ mode.suffix.toList ++ List.replicate k ' ' ++
    remark.toList.flatMap fun t ↦ ';' :: t.toList

theorem toList_sourceText (instruction : String) (operands : List String)
    (symbol : Option String) {remark : Option String} (hr : remark ≠ some "") :
    ∃ i k, (sourceText instruction operands symbol remark).toList =
      symbol.toList.flatMap (·.toList ++ [':']) ++ List.replicate i ' ' ++ instruction.toList ++
        List.replicate (7 - instruction.toList.length) ' ' ++ (",".intercalate operands).toList ++
        List.replicate k ' ' ++ remark.toList.flatMap fun t ↦ ';' :: t.toList := by
  refine ⟨7 - (symbol.toList.flatMap (·.toList ++ [':'])).length,
    12 - (",".intercalate operands).toList.length, ?_⟩
  cases remark with
  | none =>
    cases symbol with
    | _ => simp [sourceText, toList_column]
  | some t =>
    have hne : t ≠ "" := fun h ↦ hr (congrArg some h)
    cases symbol with
    | _ => simp [sourceText, toList_column, hne]

theorem IsArgument.spells {text : List Char} (h : IsArgument symbols token o after)
    (hmem : token ∈ scanner.tokens text) : Spells token o.text.toList := by
  cases h with
  | hexadecimal n =>
    obtain ⟨s, hs⟩ := exists_spells_of_mem hmem nofun nofun
    cases hs with
    | hexadecimal n =>
      have htext : (Operand.hexadecimal n).text.toList = '0' :: 'x' :: Text.hexadecimal 4 n := by
        simp [Operand.text]
      rw [htext]
      exact .hexadecimal n
  | decimal n => exact .decimal n
  | symbol name =>
    obtain ⟨s, hs⟩ := exists_spells_of_mem hmem nofun nofun
    cases hs with
    | identifier hname => exact .identifier hname

theorem isSeparator_head {c : Char} (h : isSeparator c) (rest : List Char) :
    ∀ d ∈ (c :: rest).head?, isSeparator d := by
  rintro d ⟨⟩
  exact h

theorem IsArgument.stopsBefore (h : IsArgument symbols token o after) (rest : List Char) :
    StopsBefore token (',' :: rest) := by
  cases h with
  | _ => exact isSeparator_head rfl rest

theorem written_remark {remark : Option String} (h : ∀ t ∈ remark, '\n' ∉ t.toList) (k : Nat) :
    Written (remark.toList.map .comment)
      (List.replicate k ' ' ++ remark.toList.flatMap fun t ↦ ';' :: t.toList) := by
  cases remark with
  | none => simpa using Written.gap fun c ↦ isGap_of_mem_replicate
  | some t =>
    have hend : Written [] [] := .gap nofun
    simpa using Written.token (fun c ↦ isGap_of_mem_replicate) (.comment (h t rfl)) rfl hend

theorem written_code {symbol remark : Option String} (hsymbol : ∀ name ∈ symbol, isName name.toList)
    (ho : IsArgument symbols token o after) (hs : Spells token o.text.toList)
    (hremark : ∀ t ∈ remark, '\n' ∉ t.toList) (i j k : Nat) :
    Written (symbol.toList.map .symbol ++
        [.identifier m.name, token, .comma, .identifier mode.suffix] ++
        remark.toList.map .comment)
      (codeText symbol m o mode remark i j k) := by
  have hspaces (n : Nat) : ∀ c ∈ List.replicate n ' ', isGap c = true :=
    fun c ↦ isGap_of_mem_replicate
  have hnone : ∀ c ∈ ([] : List Char), isGap c = true := nofun
  have hend := written_remark hremark k
  have hstop : ∀ c ∈ (List.replicate k ' ' ++ remark.toList.flatMap fun t ↦ ';' :: t.toList).head?,
      isSeparator c := by
    cases k with
    | zero =>
      cases remark with
      | none => nofun
      | some t => exact isSeparator_head (c := ';') rfl _
    | succ k => exact isSeparator_head (c := ' ') rfl _
  have hmode := Written.token hnone (.identifier mode.suffix_readable.2.1) hstop hend
  have hcomma := Written.token hnone .comma trivial hmode
  have hoperand := Written.token (hspaces (j + 1)) hs (ho.stopsBefore _) hcomma
  have hname := Written.token (hspaces i) (.identifier m.name_readable.2)
    (isSeparator_head (c := ' ') rfl _) hoperand
  cases symbol with
  | none => simpa [codeText, operandText, List.replicate_succ] using hname
  | some name =>
    simpa [codeText, operandText, List.replicate_succ] using
      Written.token hnone (.symbol (hsymbol name rfl)) trivial hname

theorem trimEnd_codeText {symbol remark : Option String}
    (h : ∀ t ∈ remark, EndsVisible (';' :: t.toList)) (i j k : Nat) :
    ∃ k', trimEnd (codeText symbol m o mode remark i j k) = codeText symbol m o mode remark i j k' ∧
      EndsVisible (codeText symbol m o mode remark i j k') := by
  cases remark with
  | none =>
    have hvisible : EndsVisible (codeText symbol m o mode none i j 0) := by
      simpa [codeText] using mode.suffix_readable.2.2.append (operandText symbol m o i j)
    refine ⟨0, ?_, hvisible⟩
    have hpad : codeText symbol m o mode none i j k =
        codeText symbol m o mode none i j 0 ++ List.replicate k ' ' := by
      simp [codeText]
    rw [hpad, trimEnd_append_blank fun c ↦ isBlank_of_mem_replicate,
      trimEnd_of_endsVisible hvisible]
  | some t =>
    have hvisible : EndsVisible (codeText symbol m o mode (some t) i j k) := by
      simpa [codeText] using (h t rfl).append
        (operandText symbol m o i j ++ mode.suffix.toList ++ List.replicate k ' ')
    exact ⟨k, trimEnd_of_endsVisible hvisible, hvisible⟩

def Line.remark? : Line → Option String
  | .comment text => some text
  | .code line => line.comment
  | _ => none

theorem source_code (symbol : Option String) {remark : Option String} (o : Operand)
    (hr : remark ≠ some "") (hallows : m.format.allows mode) :
    ∃ i j k, (Line.code { body := .dyadic m o mode, symbol, comment := remark }).source.toList =
      codeText symbol m o mode remark i j k := by
  obtain ⟨i, k, h⟩ := toList_sourceText m.name [o.text, mode.suffix] symbol hr
  obtain ⟨j, hj⟩ : ∃ j, 7 - m.name.toList.length = j + 1 := by
    have hlt := Mnemonic.length_name_lt hallows
    rw [← String.length_toList] at hlt
    exact ⟨6 - m.name.toList.length, by omega⟩
  refine ⟨i, j, k, ?_⟩
  rw [hj] at h
  simpa [Line.source, CodeLine.source, codeText, operandText] using h

theorem IsInstruction.canonical (h : IsInstruction symbols tokens m o mode after) :
    ∃ token ∈ tokens, IsArgument symbols token o after ∧ m.format.allows mode ∧
      IsInstruction symbols [.identifier m.name, token, .comma, .identifier mode.suffix]
        m o mode after := by
  obtain ⟨hm, ho, hlow, hhigh, hmode, hallows⟩ := h
  exact ⟨_, by simp, ho, hallows,
    .intro m.name_readable.1 ho hlow hhigh mode.suffix_readable.1 hallows⟩

theorem not_endsVisible_of_blank {source : List Char} (hl : '\n' ∉ source)
    (h : scanner.tokens (source ++ ['\n']) = [.empty]) : ¬ EndsVisible source := by
  rintro ⟨last, hlast, hvisible⟩
  cases hd : source.dropWhile isGap with
  | nil =>
    have hgap := List.dropWhile_eq_nil_iff.1 hd last (List.mem_of_getLast? hlast)
    simp [isGap, hvisible] at hgap
  | cons c word =>
    have hsuffix : c :: word <:+ source := hd ▸ List.dropWhile_suffix _
    have hc : c ≠ '\n' := fun he ↦ hl (hsuffix.mem (he ▸ List.mem_cons_self))
    have hnext := next?_lexeme hd []
    by_cases hm : c :: word ∈ bareMarks
    · rw [lexeme_bareMark hm] at hnext
      rw [scanner.tokens_of_some hnext] at h
      simp at h
    · obtain ⟨token, line', hne, -, hread⟩ := stopsInside_lexeme hc hm
      rw [hread] at hnext
      rw [scanner.tokens_of_some hnext] at h
      exact hne (List.cons.inj h).1

def Prints (symbols : SymbolTable) (line : Line) (after : SymbolTable) (text : List Char) : Prop :=
  ∃ tokens, IsStatement symbols (tokens ++ [.empty]) line after ∧ Written tokens text

/-- The print of a line is read as the line. If the line stems from a text that ends in no white
space, the white space at the end of its print does not matter. -/
def Reprints (symbols : SymbolTable) (line : Line) (after : SymbolTable) (source : List Char) :
    Prop :=
  Prints symbols line after line.source.toList ∧
    (EndsVisible source → EndsVisible (trimEnd line.source.toList) ∧
      Prints symbols line after (trimEnd line.source.toList))

variable {source : List Char}

theorem endsVisible_comment {t : String} (hl : '\n' ∉ source)
    (h : .comment t ∈ scanner.tokens (source ++ ['\n'])) (hv : EndsVisible source) :
    EndsVisible (';' :: t.toList) :=
  hv.of_suffix (suffix_of_comment_mem hl h) (List.cons_ne_nil _ _)

theorem reprints_comment {text : String} (hl : '\n' ∉ source)
    (h : .comment text ∈ scanner.tokens (source ++ ['\n'])) (hne : text ≠ "") :
    Reprints symbols (.comment text) symbols source := by
  have hsource : (Line.comment text).source.toList =
      List.replicate 26 ' ' ++ ';' :: text.toList := by
    simp [Line.source, sourceText, toList_column, hne]
  have hbreak : ∀ t ∈ some text, '\n' ∉ t.toList := by
    rintro t ⟨⟩
    exact break_not_mem_of_comment_mem h
  have hprints : Prints symbols (.comment text) symbols
      (List.replicate 26 ' ' ++ ';' :: text.toList) :=
    ⟨[.comment text], .content (.comment text), by simpa using written_remark hbreak 26⟩
  rw [Reprints, hsource]
  refine ⟨hprints, fun hv ↦ ?_⟩
  have hvisible := (endsVisible_comment hl h hv).append (List.replicate 26 ' ')
  rw [trimEnd_of_endsVisible hvisible]
  exact ⟨hvisible, hprints⟩

theorem reprints_code {symbol remark : Option String} (hl : '\n' ∉ source)
    (hmem : ∀ token ∈ symbol.toList.map .symbol ++ tokens ++ remark.toList.map .comment,
      token ∈ scanner.tokens (source ++ ['\n']))
    (h : IsInstruction (label symbols symbol) tokens m o mode after) (hr : remark ≠ some "") :
    Reprints symbols (.code { body := .dyadic m o mode, symbol, comment := remark }) after
      source := by
  obtain ⟨token, htoken, ho, hallows, hcanonical⟩ := h.canonical
  have hargument := ho.spells (hmem token (by simp [htoken]))
  have hsymbol : ∀ name ∈ symbol, isName name.toList := by
    rintro name ⟨⟩
    exact isName_of_symbol_mem (hmem (.symbol name) (by simp))
  have hremark : ∀ t ∈ remark, .comment t ∈ scanner.tokens (source ++ ['\n']) := by
    rintro t ⟨⟩
    exact hmem (.comment t) (by simp)
  have hbreak : ∀ t ∈ remark, '\n' ∉ t.toList := fun t ht ↦
    break_not_mem_of_comment_mem (hremark t ht)
  have hprints (i j k : Nat) : Prints symbols
      (.code { body := .dyadic m o mode, symbol, comment := remark }) after
      (codeText symbol m o mode remark i j k) :=
    ⟨_, .content (.code symbol remark hcanonical), written_code hsymbol ho hargument hbreak i j k⟩
  obtain ⟨i, j, k, hsource⟩ := source_code symbol o hr hallows
  rw [Reprints, hsource]
  refine ⟨hprints i j k, fun hv ↦ ?_⟩
  obtain ⟨k', htrim, hvisible⟩ := trimEnd_codeText
    (fun t ht ↦ endsVisible_comment hl (hremark t ht) hv) i j k
  rw [htrim]
  exact ⟨hvisible, hprints i j k'⟩

theorem reprints_of_isStatement (hl : '\n' ∉ source)
    (h : IsStatement symbols (scanner.tokens (source ++ ['\n'])) line after)
    (hr : line.remark? ≠ some "") : Reprints symbols line after source := by
  generalize hp : scanner.tokens (source ++ ['\n']) = piece at h
  cases h with
  | empty =>
    refine ⟨⟨[], .empty, .gap fun c ↦ isGap_of_mem_replicate (n := 26)⟩, fun hv ↦ ?_⟩
    exact absurd hv (not_endsVisible_of_blank hl hp)
  | content h =>
    cases h with
    | comment text => exact reprints_comment hl (by simp [hp]) fun he ↦ hr (congrArg some he)
    | code symbol remark h =>
      refine reprints_code hl (fun token ht ↦ ?_) h hr
      rw [hp]
      exact List.mem_append_left _ ht

theorem Prints.isStatement {text : List Char} (h : Prints symbols line after text) :
    '\n' ∉ text ∧ IsStatement symbols (scanner.tokens (text ++ ['\n'])) line after := by
  obtain ⟨tokens, hstatement, hwritten⟩ := h
  rw [hwritten.tokens_eq]
  exact ⟨hwritten.break_not_mem, hstatement⟩

end PepAsm.Assembly
