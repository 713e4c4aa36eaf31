import PepAsm.Proofs.Assembly.Printing
import PepAsm.Proofs.Assembly.Transcription

namespace PepAsm.Assembly

open PepAsm.Scan PepAsm.Text

variable {symbols after : SymbolTable} {sources : List (List Char)} {lines : List Line}

theorem transcribes_concat {last : List Char} :
    Transcribes symbols (sources ++ [last]) lines after ↔
      ∃ first line mid, lines = first ++ [line] ∧ Transcribes symbols sources first mid ∧
        IsStatement mid (Token.scanner.tokens (last ++ ['\n'])) line after := by
  constructor
  · intro h
    induction sources generalizing symbols lines with
    | nil =>
      cases h with
      | cons h hrest =>
        cases hrest
        exact ⟨[], _, symbols, rfl, .nil symbols, h⟩
    | cons source sources ih =>
      cases h with
      | @cons _ mid _ _ _ line others h hrest =>
        obtain ⟨first, final, mid', rfl, hfirst, hfinal⟩ := ih hrest
        exact ⟨line :: first, final, mid', rfl, .cons h hfirst, hfinal⟩
  · rintro ⟨first, line, mid, rfl, hfirst, hline⟩
    induction hfirst with
    | nil => exact .cons hline (.nil _)
    | cons h hrest ih => exact .cons h (ih hline)

theorem Transcribes.source (h : Transcribes symbols sources lines after)
    (hbreak : ∀ source ∈ sources, '\n' ∉ source) (hr : ∀ line ∈ lines, line.remark? ≠ some "") :
    (∀ source ∈ (lines.map Line.source).map String.toList, '\n' ∉ source) ∧
      Transcribes symbols ((lines.map Line.source).map String.toList) lines after := by
  induction h with
  | nil symbols => exact ⟨fun source hs ↦ absurd hs List.not_mem_nil, .nil symbols⟩
  | cons h hrest ih =>
    obtain ⟨hsource, hbreak⟩ := List.forall_mem_cons.1 hbreak
    obtain ⟨hline, hr⟩ := List.forall_mem_cons.1 hr
    obtain ⟨hprinted, hothers⟩ := ih hbreak hr
    obtain ⟨hfirst, hstatement⟩ := (reprints_of_isStatement hsource h hline).1.isStatement
    exact ⟨List.forall_mem_cons.2 ⟨hfirst, hprinted⟩, .cons hstatement hothers⟩

theorem trimEnd_append_of_endsVisible {last : List Char} (h : EndsVisible (trimEnd last))
    (text : List Char) : trimEnd (text ++ last) = text ++ trimEnd last := by
  have hne : last.reverse.dropWhile isBlank ≠ [] := by
    intro hnil
    obtain ⟨c, hc, -⟩ := h
    simp [trimEnd, hnil] at hc
  simp [trimEnd, List.dropWhile_append, hne]

theorem exists_front (texts : List (List Char)) :
    ∃ front, ∀ last, ['\n'].intercalate (texts ++ [last]) = front ++ last := by
  induction texts with
  | nil => exact ⟨[], fun last ↦ by simp⟩
  | cons text texts ih =>
    obtain ⟨front, hfront⟩ := ih
    refine ⟨text ++ '\n' :: front, fun last ↦ ?_⟩
    rw [List.cons_append, List.intercalate_cons_of_ne_nil (by simp), hfront]
    simp

theorem trimEnd_unlines (texts : List String) {last : String}
    (h : EndsVisible (trimEnd last.toList)) :
    trimEnd ("\n".intercalate (texts ++ [last])).toList =
      ['\n'].intercalate (texts.map String.toList ++ [trimEnd last.toList]) := by
  obtain ⟨front, hfront⟩ := exists_front (texts.map String.toList)
  rw [String.toList_intercalate, List.map_append, List.map_singleton]
  change trimEnd (['\n'].intercalate _) = _
  rw [hfront, hfront, trimEnd_append_of_endsVisible h]

theorem endsVisible_last {text : List Char} (h : EndsVisible text) :
    ∃ first last, sourceLines text = first ++ [last] ∧ EndsVisible last := by
  induction text using lines_induction with
  | last line hl => exact ⟨[], line, sourceLines_last hl, h⟩
  | more line rest hl ih =>
    have hne : rest ≠ [] := by
      rintro rfl
      obtain ⟨c, hc, hblank⟩ := h
      simp only [List.getLast?_concat, Option.mem_some] at hc
      subst hc
      contradiction
    have hsuffix : rest <:+ line ++ '\n' :: rest := ⟨line ++ ['\n'], by simp⟩
    obtain ⟨first, last, hlines, hlast⟩ := ih (h.of_suffix hsuffix hne)
    exact ⟨line :: first, last, by rw [sourceLines_more hl, hlines]; rfl, hlast⟩

theorem parse_of_blank {text : String} (h : trimEnd text.toList = []) (symbols : SymbolTable) :
    parse text symbols = ⟨[.empty], symbols⟩ := by
  have hempty : Token.scanner.tokens ([] ++ ['\n']) = [.empty] := by decide +kernel
  refine ((parse_iff_transcribes text symbols ⟨[.empty], symbols⟩).2 ?_).1
  rw [h, sourceLines_last List.not_mem_nil]
  refine .cons ?_ (.nil _)
  rw [hempty]
  exact .empty

theorem source_place (symbols : SymbolTable) (address : Int) (lines : List Line)
    (h : ∀ line ∈ lines, line.isError = false) :
    (place symbols address lines).source = lines.map Line.source := by
  fun_induction place symbols address lines with
  | case1 => rfl
  | case2 symbols address reason lines => simp [Line.isError] at h
  | case3 symbols address line lines declared faults hdeclare image ih =>
    obtain ⟨-, h⟩ := List.forall_mem_cons.1 h
    -- The source of a line does not show its address.
    exact congrArg (List.cons line.source) (ih h)
  | case4 symbols address line lines hcode image hne ih =>
    obtain ⟨-, h⟩ := List.forall_mem_cons.1 h
    exact congrArg (List.cons line.source) (ih h)

/-- A program that was read without errors and has no empty comments is printed as a text that is
read as the same program. -/
theorem parse_source (text : String) (symbols : SymbolTable)
    (hread : ∀ line ∈ (parse text symbols).lines, line.isError = false)
    (hremark : ∀ line ∈ (parse text symbols).lines, line.remark? ≠ some "") :
    let program := parse text symbols
    (∀ base, (program.image base).source = program.lines.map Line.source) ∧
      parse ("\n".intercalate (program.lines.map Line.source)) symbols = program := by
  refine ⟨fun base ↦ source_place _ _ _ hread, ?_⟩
  rcases trimEnd_cases text.toList with hblank | hvisible
  · have hempty : trimEnd ("\n".intercalate [Line.empty.source]).toList = [] := by decide +kernel
    rw [parse_of_blank hblank]
    exact parse_of_blank hempty symbols
  · obtain ⟨sources, last, hsources, hlast⟩ := endsVisible_last hvisible
    have hbreak : ∀ source ∈ sources ++ [last], '\n' ∉ source := by
      rw [← hsources]
      exact fun source ↦ not_mem_of_mem_sourceLines
    have htext := (parse_iff_transcribes text symbols _).1 ⟨rfl, hread⟩
    rw [hsources] at htext
    obtain ⟨lines, line, mid, hlines, hfirst, hline⟩ := transcribes_concat.1 htext
    rw [hlines] at hremark ⊢
    rw [List.forall_mem_append, List.forall_mem_singleton] at hbreak hremark
    obtain ⟨hprinted, hothers⟩ := hfirst.source hbreak.1 hremark.1
    obtain ⟨hend, hprints⟩ := (reprints_of_isStatement hbreak.2 hline hremark.2).2 hlast
    obtain ⟨hclean, hstatement⟩ := hprints.isStatement
    have htrim := trimEnd_unlines (lines.map Line.source) hend
    refine ((parse_iff_transcribes _ symbols _).2 ?_).1
    rw [List.map_append, List.map_singleton, htrim, sourceLines, List.splitOn_intercalate, hlines]
    · exact transcribes_concat.2 ⟨lines, line, mid, rfl, hothers, hstatement⟩
    · rw [List.forall_mem_append, List.forall_mem_singleton]
      exact ⟨hprinted, hclean⟩
    · simp

theorem parse_source_columns :
    (parse "sum:ldwa -5 ,i;one \n\n adda 0xAb,d" .empty).lines =
      [.code { body := .dyadic .ldwa (.decimal (-5)) .immediate
               symbol := some "sum", comment := some "one " },
        .empty, .code { body := .dyadic .adda (.hexadecimal 0xAB) .direct }] ∧
    (∀ line ∈ (parse "sum:ldwa -5 ,i;one \n\n adda 0xAb,d" .empty).lines,
      line.isError = false ∧ line.remark? ≠ some "") ∧
    parse
        "sum:   LDWA   -5,i        ;one \n                          \n       ADDA   0x00ab,d    "
        .empty =
      parse "sum:ldwa -5 ,i;one \n\n adda 0xAb,d" .empty := by
  refine ⟨by decide +kernel, by decide +kernel, ?_⟩
  have hprint : "\n".intercalate
      ((parse "sum:ldwa -5 ,i;one \n\n adda 0xAb,d" .empty).lines.map Line.source) =
      "sum:   LDWA   -5,i        ;one \n                          \n       ADDA   0x00ab,d    " := by
    decide +kernel
  rw [← hprint]
  exact (parse_source _ _ (by decide +kernel) (by decide +kernel)).2

end PepAsm.Assembly
