import PepAsm.Proofs.Assembly.Acceptance
import PepAsm.Proofs.Assembly.Synchronization

namespace PepAsm.Assembly

open PepAsm.Scan PepAsm.Text

/-- Source lines that can be read, each by itself, together with what they are read as. -/
inductive Transcribes : SymbolTable → List (List Char) → List Line → SymbolTable → Prop
  | nil (symbols : SymbolTable) : Transcribes symbols [] [] symbols
  | cons {symbols mid after : SymbolTable} {source : List Char} {sources : List (List Char)}
      {line : Line} {lines : List Line}
      (h : IsStatement symbols (Token.scanner.tokens (source ++ ['\n'])) line mid)
      (hrest : Transcribes mid sources lines after) :
      Transcribes symbols (source :: sources) (line :: lines) after

variable {symbols after : SymbolTable} {tokens piece : List Token} {line : Line}
  {lines : List Line} {source : List Char}

theorem IsContent.invalid_not_mem (h : IsContent symbols tokens line after) :
    Token.invalid ∉ tokens := by
  cases h with
  | comment text => simp
  | code symbol remark h =>
    obtain ⟨-, ho, -, -, -⟩ := h
    cases ho with
    | _ => simp

theorem IsStatement.exists_body (h : IsStatement symbols piece line after) :
    ∃ body, piece = body ++ [.empty] ∧ Token.empty ∉ body ∧ Token.invalid ∉ body := by
  cases h with
  | empty => exact ⟨[], rfl, List.not_mem_nil, List.not_mem_nil⟩
  | content h => exact ⟨_, rfl, h.empty_not_mem, h.invalid_not_mem⟩

theorem IsStatement.invalid_not_mem (h : IsStatement symbols piece line after) :
    Token.invalid ∉ piece := by
  obtain ⟨body, rfl, -, hinvalid⟩ := h.exists_body
  simp [hinvalid]

/-- A line whose tokens make up a statement ends the segment, whatever comes after it. -/
theorem segments_of_isStatement (hl : '\n' ∉ source)
    (h : IsStatement symbols (Token.scanner.tokens (source ++ ['\n'])) line after)
    (rest : List Char) :
    segments (Token.scanner.tokens (source ++ '\n' :: rest)) =
      Token.scanner.tokens (source ++ ['\n']) :: segments (Token.scanner.tokens rest) := by
  obtain ⟨body, hbody, hinvalid, htokens⟩ := tokens_line source hl
  have hline := htokens []
  rw [Scanner.tokens_nil, List.append_nil] at hline
  have hclosed : ¬ OpenEnded source := by
    intro ho
    apply h.invalid_not_mem
    rw [hline]
    exact List.mem_append_left _ (hinvalid ho)
  rw [if_neg hclosed] at hline
  rw [htokens, if_neg hclosed, hline, List.append_assoc, List.singleton_append,
    segments_ended hbody]

theorem isStatement_first {pieces : List (List Token)} (hp : segments tokens = piece :: pieces)
    (h : readSegments symbols (segments tokens) = (lines, after))
    (hread : ∀ line ∈ lines, line.isError = false) :
    ∃ line others mid, lines = line :: others ∧ IsStatement symbols piece line mid ∧
      readSegments mid pieces = (others, after) := by
  obtain ⟨hne, hend⟩ := mem_segments (hp ▸ List.mem_cons_self : piece ∈ segments tokens)
  rw [hp] at h
  obtain ⟨rfl, rfl⟩ := Prod.mk.inj h
  exact ⟨_, _, _, rfl, isStatement_of_readSegment hne hend rfl (hread _ List.mem_cons_self), rfl⟩

/-- If a text can be read, so can the first of its lines. An open-ended line would leave its invalid
token to the segment it shares with the next line. -/
theorem isStatement_of_readSegments (hl : '\n' ∉ source) {rest : List Char}
    (h : readSegments symbols (segments (Token.scanner.tokens (source ++ '\n' :: rest))) =
      (lines, after)) (hread : ∀ line ∈ lines, line.isError = false) :
    ∃ line others mid, lines = line :: others ∧
      IsStatement symbols (Token.scanner.tokens (source ++ ['\n'])) line mid ∧
      readSegments mid (segments (Token.scanner.tokens rest)) = (others, after) := by
  obtain ⟨body, hbody, hinvalid, htokens⟩ := tokens_line source hl
  have hline := htokens []
  rw [Scanner.tokens_nil, List.append_nil] at hline
  rw [htokens, List.append_assoc] at h
  by_cases ho : OpenEnded source
  · obtain ⟨more, tail, hmore, hb, ht⟩ := exists_line (Token.scanner.tokens rest)
    have hmem : Token.invalid ∈ body ++ more := List.mem_append_left _ (hinvalid ho)
    have hempty : Token.empty ∉ body ++ more := by simp [hbody, hb]
    have hne : body ++ more ++ tail ≠ [] :=
      List.append_ne_nil_of_left_ne_nil (List.ne_nil_of_mem hmem) _
    rw [if_pos ho, List.nil_append, hmore, ← List.append_assoc] at h
    obtain ⟨line, others, mid, -, hfirst, -⟩ :=
      isStatement_first (segments_append hne hempty ht) h hread
    exact absurd (List.mem_append_left _ hmem) hfirst.invalid_not_mem
  · rw [if_neg ho] at hline h
    rw [hline]
    exact isStatement_first (segments_ended hbody) h hread

/-- A text can be read exactly if each of its lines can, and the lines are then what the text is
read as. -/
theorem readSegments_iff_transcribes (text : List Char) :
    readSegments symbols (segments (Token.scanner.tokens (text ++ ['\n']))) = (lines, after) ∧
        (∀ line ∈ lines, line.isError = false) ↔
      Transcribes symbols (sourceLines text) lines after := by
  induction text using lines_induction generalizing symbols lines with
  | last source hl =>
    rw [sourceLines_last hl]
    constructor
    · rintro ⟨h, hread⟩
      obtain ⟨line, others, mid, rfl, hfirst, hrest⟩ := isStatement_of_readSegments hl h hread
      rw [Scanner.tokens_nil] at hrest
      obtain ⟨rfl, rfl⟩ := Prod.mk.inj hrest
      exact .cons hfirst (.nil _)
    · intro h
      cases h with
      | cons h hrest =>
        cases hrest
        rw [segments_of_isStatement hl h, Scanner.tokens_nil, readSegments,
          readSegment_of_isStatement h]
        refine ⟨rfl, ?_⟩
        simpa using h.isError
  | more source rest hl ih =>
    rw [sourceLines_more hl, List.append_assoc, List.cons_append]
    constructor
    · rintro ⟨h, hread⟩
      obtain ⟨line, others, mid, rfl, hfirst, hrest⟩ := isStatement_of_readSegments hl h hread
      exact .cons hfirst (ih.1 ⟨hrest, fun other ho ↦ hread other (List.mem_cons_of_mem _ ho)⟩)
    · intro h
      cases h with
      | cons h hrest =>
        obtain ⟨hothers, hread⟩ := ih.2 hrest
        rw [segments_of_isStatement hl h, readSegments, readSegment_of_isStatement h, hothers]
        exact ⟨rfl, List.forall_mem_cons.2 ⟨h.isError, hread⟩⟩

theorem parse_iff_transcribes (text : String) (symbols : SymbolTable) (program : Program) :
    parse text symbols = program ∧ (∀ line ∈ program.lines, line.isError = false) ↔
      Transcribes symbols (sourceLines (trimEnd text.toList)) program.lines program.symbols := by
  rw [← readSegments_iff_transcribes, ← endLine, ← parse_eq, Prod.mk.injEq, ← Program.mk.injEq]

end PepAsm.Assembly
