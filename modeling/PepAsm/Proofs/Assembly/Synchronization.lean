import PepAsm.Proofs.Assembly.LineScan
import PepAsm.Proofs.Assembly.Segments

namespace PepAsm.Assembly

open PepAsm.Scan PepAsm.Text

def sourceLines (text : List Char) : List (List Char) :=
  text.splitOn '\n'

/-- Reads every source line by itself, over the symbols that the lines before it leave behind. -/
def readApart (symbols : SymbolTable) : List (List Char) → List Line × SymbolTable
  | [] => ([], symbols)
  | line :: lines =>
    let read := readLines (.ofText (line ++ ['\n']) symbols)
    let after := readApart read.2.symbols lines
    (read.1 ++ after.1, after.2)

theorem lines_induction {motive : List Char → Prop}
    (last : ∀ line, '\n' ∉ line → motive line)
    (more : ∀ line rest, '\n' ∉ line → motive rest → motive (line ++ '\n' :: rest))
    (text : List Char) : motive text := by
  induction hn : text.length using Nat.strong_induction_on generalizing text with
  | h n ih =>
    by_cases h : '\n' ∈ text
    · obtain ⟨line, rest, rfl, hl⟩ := List.eq_append_cons_of_mem h
      refine more line rest hl (ih rest.length ?_ rest rfl)
      rw [← hn, List.length_append, List.length_cons]
      omega
    · exact last text h

variable {line rest : List Char}

theorem sourceLines_last (hl : '\n' ∉ line) : sourceLines line = [line] :=
  List.splitOn_eq_singleton hl

theorem sourceLines_more (hl : '\n' ∉ line) :
    sourceLines (line ++ '\n' :: rest) = line :: sourceLines rest :=
  List.splitOn_append_cons_self_of_not_mem hl rest

theorem dropLast_sourceLines_more (hl : '\n' ∉ line) :
    (sourceLines (line ++ '\n' :: rest)).dropLast = line :: (sourceLines rest).dropLast := by
  have hne : sourceLines rest ≠ [] := List.splitOn_ne_nil _ _
  rw [sourceLines_more hl, List.dropLast_cons_of_ne_nil hne]

theorem not_mem_of_mem_sourceLines {text : List Char} (h : line ∈ sourceLines text) :
    '\n' ∉ line := by
  induction text using lines_induction with
  | last first hl =>
    rw [sourceLines_last hl, List.mem_singleton] at h
    rwa [h]
  | more first rest hl ih =>
    rw [sourceLines_more hl] at h
    rcases List.mem_cons.1 h with rfl | h
    · exact hl
    · exact ih h

theorem length_dropLast_sourceLines (text : List Char) :
    (sourceLines text).dropLast.length = text.count '\n' := by
  induction text using lines_induction with
  | last line hl => rw [sourceLines_last hl, List.count_eq_zero_of_not_mem hl]; rfl
  | more line rest hl ih =>
    rw [dropLast_sourceLines_more hl, List.length_cons, ih, List.count_append,
      List.count_eq_zero_of_not_mem hl, List.count_cons_self, Nat.zero_add]

theorem segments_ended {body tokens : List Token} (hb : Token.empty ∉ body) :
    segments (body ++ .empty :: tokens) = (body ++ [.empty]) :: segments tokens :=
  segments_append (by simp) hb (by simp)

theorem segments_single {body : List Token} (hb : Token.empty ∉ body) (hne : body ≠ []) :
    segments body = [body] := by
  have h := @segments_append body [] (by simpa using hne) hb (by simp)
  simpa [segments] using h

theorem segments_line (hl : '\n' ∉ line) {before : List Token} (hb : Token.empty ∉ before) :
    ∃ segment, segments (before ++ Token.scanner.tokens (line ++ ['\n'])) = [segment] := by
  obtain ⟨body, hbody, hinvalid, htokens⟩ := tokens_line line hl
  have hb' : Token.empty ∉ before ++ body := by
    rw [List.mem_append, not_or]
    exact ⟨hb, hbody⟩
  rw [htokens [], Scanner.tokens_nil, List.append_nil, ← List.append_assoc]
  by_cases ho : OpenEnded line
  · rw [if_pos ho, List.append_nil]
    have hne : before ++ body ≠ [] :=
      List.ne_nil_of_mem (List.mem_append_right _ (hinvalid ho))
    exact ⟨_, segments_single hb' hne⟩
  · rw [if_neg ho, segments_ended hb']
    exact ⟨_, rfl⟩

/-- An open-ended line makes one segment together with the line after it. Every other line makes
a segment of its own. -/
theorem length_segments (text : List Char) {before : List Token} (hb : Token.empty ∉ before) :
    (segments (before ++ Token.scanner.tokens (text ++ ['\n']))).length =
      1 + (sourceLines text).dropLast.countP fun line ↦ decide (¬ OpenEnded line) := by
  induction text using lines_induction generalizing before with
  | last line hl =>
    obtain ⟨segment, hs⟩ := segments_line hl hb
    rw [hs, sourceLines_last hl]
    rfl
  | more line rest hl ih =>
    obtain ⟨body, hbody, -, htokens⟩ := tokens_line line hl
    have hb' : Token.empty ∉ before ++ body := by
      rw [List.mem_append, not_or]
      exact ⟨hb, hbody⟩
    rw [dropLast_sourceLines_more hl, List.countP_cons, List.append_assoc, List.cons_append,
      htokens, List.append_assoc, ← List.append_assoc]
    by_cases ho : OpenEnded line
    · simpa [ho] using ih hb'
    · rw [if_neg ho, List.singleton_append, segments_ended hb', List.length_cons,
        ← List.nil_append (Token.scanner.tokens _), ih List.not_mem_nil]
      simp only [ho, not_false_eq_true, decide_true, if_true]
      omega

theorem readSegments_append (symbols : SymbolTable) (first second : List (List Token)) :
    readSegments symbols (first ++ second) =
      ((readSegments symbols first).1 ++
          (readSegments (readSegments symbols first).2 second).1,
        (readSegments (readSegments symbols first).2 second).2) := by
  induction first generalizing symbols with
  | nil => rfl
  | cons segment first ih =>
    rw [List.cons_append, readSegments, ih]
    rfl

theorem readSegments_line (symbols : SymbolTable) (line : List Char) :
    readSegments symbols (segments (Token.scanner.tokens (line ++ ['\n']))) =
      ((readLines (.ofText (line ++ ['\n']) symbols)).1,
        (readLines (.ofText (line ++ ['\n']) symbols)).2.symbols) :=
  (readLines_eq (.ofText (line ++ ['\n']) symbols)).symm

theorem readSegments_eq_readApart (text : List Char) (symbols : SymbolTable)
    (h : ∀ line ∈ (sourceLines text).dropLast, ¬ OpenEnded line) :
    readSegments symbols (segments (Token.scanner.tokens (text ++ ['\n']))) =
      readApart symbols (sourceLines text) := by
  induction text using lines_induction generalizing symbols with
  | last line hl =>
    rw [sourceLines_last hl, readSegments_line, readApart, readApart, List.append_nil]
  | more line rest hl ih =>
    rw [dropLast_sourceLines_more hl] at h
    have ho := h line List.mem_cons_self
    obtain ⟨body, hbody, -, htokens⟩ := tokens_line line hl
    have hline : Token.scanner.tokens (line ++ ['\n']) = body ++ [.empty] := by
      rw [htokens [], if_neg ho, Scanner.tokens_nil, List.append_nil]
    have hsegments : segments (Token.scanner.tokens ((line ++ '\n' :: rest) ++ ['\n'])) =
        segments (Token.scanner.tokens (line ++ ['\n'])) ++
          segments (Token.scanner.tokens (rest ++ ['\n'])) := by
      rw [hline, List.append_assoc, List.cons_append, htokens, if_neg ho, List.append_assoc,
        List.singleton_append, segments_ended hbody, segments_ended hbody]
      rfl
    rw [hsegments, readSegments_append, readSegments_line, sourceLines_more hl, readApart,
      ih _ fun l hm ↦ h l (List.mem_cons_of_mem _ hm)]

/-- A text yields one line for each source line, except that an open-ended line and the line after
it yield one line together. So the lines of a program keep step with those of its text exactly if
no line before the last is open-ended, and then every source line is read as if it stood alone. -/
theorem parse_synchronized (text : String) (symbols : SymbolTable) :
    let source := sourceLines (trimEnd text.toList)
    let program := parse text symbols
    program.lines.length = 1 + source.dropLast.countP (fun line ↦ decide (¬ OpenEnded line)) ∧
    (program.lines.length = 1 + (trimEnd text.toList).count '\n' ↔
      ∀ line ∈ source.dropLast, ¬ OpenEnded line) ∧
    ((∀ line ∈ source.dropLast, ¬ OpenEnded line) →
      (program.lines, program.symbols) = readApart symbols source) ∧
    ∀ line ∈ source, ∀ known, (readLines (.ofText (line ++ ['\n']) known)).1.length = 1 := by
  dsimp only
  have hparse := parse_eq text symbols
  have hlength : (parse text symbols).lines.length =
      1 + (sourceLines (trimEnd text.toList)).dropLast.countP fun line ↦
        decide (¬ OpenEnded line) := by
    have hlines := congrArg (fun read ↦ read.1.length) hparse
    dsimp only at hlines
    rw [hlines, length_readSegments]
    exact length_segments (trimEnd text.toList) List.not_mem_nil
  refine ⟨hlength, ?_, fun h ↦ ?_, fun line hl known ↦ ?_⟩
  · rw [hlength, ← length_dropLast_sourceLines, Nat.add_left_cancel_iff, List.countP_eq_length]
    simp only [decide_eq_true_eq]
  · exact hparse.trans (readSegments_eq_readApart _ symbols h)
  · obtain ⟨segment, hs⟩ := segments_line (not_mem_of_mem_sourceLines hl) List.not_mem_nil
    have hread := congrArg (fun read ↦ read.1.length) (readSegments_line known line)
    dsimp only at hread
    rw [List.nil_append] at hs
    rw [← hread, length_readSegments, hs, List.length_singleton]

/-- The mark of a hexadecimal number at the end of a line takes the next line with it. -/
theorem parse_not_synchronized :
    (parse "LDWA 0x\n;a" .empty).lines = [.error (some "Missing argument")] ∧
      1 + (trimEnd "LDWA 0x\n;a".toList).count '\n' = 2 := by
  decide +kernel

end PepAsm.Assembly
