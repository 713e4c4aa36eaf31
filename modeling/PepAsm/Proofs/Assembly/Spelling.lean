import PepAsm.Proofs.Assembly.LineScan
import PepAsm.Proofs.Scan.Numeral

namespace PepAsm.Assembly.Token

open PepAsm.Scan PepAsm.Text

def isSeparator (c : Char) : Bool :=
  c == ' ' || c == ',' || c == ';' || c == '\n'

def isName : List Char → Bool
  | [] => false
  | c :: word => isLetter c && !isGap c && word.all isWordChar

theorem isName_cons {c : Char} {tail : List Char} : isName (c :: tail) ↔
    isLetter c = true ∧ isGap c = false ∧ ∀ d ∈ tail, isWordChar d = true := by
  simp [isName, and_assoc]

inductive Spells : Token → List Char → Prop
  | identifier {name : String} (h : isName name.toList) : Spells (.identifier name) name.toList
  | symbol {name : String} (h : isName name.toList) :
      Spells (.symbol name) (name.toList ++ [':'])
  | comma : Spells .comma [',']
  | decimal (n : Int) : Spells (.decimal n) (Text.decimal n).toList
  | hexadecimal (n : Nat) : Spells (.hexadecimal n) ('0' :: 'x' :: Text.hexadecimal 4 n)
  | comment {text : String} (h : '\n' ∉ text.toList) : Spells (.comment text) (';' :: text.toList)

def StopsBefore : Token → List Char → Prop
  | .symbol _, _ | .comma, _ => True
  | .comment _, rest => rest = []
  | _, rest => ∀ c ∈ rest.head?, isSeparator c

section Character

variable {c : Char}

theorem class_of_isSeparator (h : isSeparator c) :
    isWordChar c = false ∧ Text.isDigit c = false ∧ c.isDigit = false ∧ isHexDigit c = false ∧
      c ≠ ':' ∧ c ≠ 'x' ∧ c ≠ 'X' := by
  simp only [isSeparator, Bool.or_eq_true, beq_iff_eq] at h
  rcases h with ((rfl | rfl) | rfl) | rfl
  · decide
  · decide
  · decide
  · decide

theorem class_of_isLetter (h : isLetter c = true) : c ≠ '\n' ∧ c ≠ ',' ∧ c ≠ ';' := by
  refine ⟨?_, ?_, ?_⟩
  all_goals
    rintro rfl
    contradiction

end Character

section Lexeme

variable {c : Char}

theorem isDigit_of_isSeparator {rest : List Char} (h : ∀ c ∈ rest.head?, isSeparator c) :
    ∀ c ∈ rest.head?, c.isDigit = false := by
  intro c hc
  exact (class_of_isSeparator (h c hc)).2.2.1

theorem lexeme_digits {d : Char} {ds rest : List Char} (hd : d.isDigit = true)
    (hds : ∀ d ∈ ds, d.isDigit = true) (hrest : ∀ c ∈ rest.head?, isSeparator c) :
    lexeme d (ds ++ rest) = (.decimal (decimalFrom 0 (d :: ds)), rest) := by
  have hend := isDigit_of_isSeparator hrest
  by_cases hzero : d = '0'
  · subst hzero
    change zeroNumber (ds ++ rest) = _
    cases ds with
    | nil =>
      cases rest with
      | nil => rfl
      | cons c rest =>
        obtain ⟨-, hnumber, -, -, -, hx, hX⟩ := class_of_isSeparator (hrest c rfl)
        simp [zeroNumber, hnumber, hx, hX, decimalFrom, digitValue]
    | cons d ds =>
      obtain ⟨hd, hds⟩ := List.forall_mem_cons.1 hds
      obtain ⟨-, -, hd, -⟩ := class_of_isDigit hd
      rw [List.cons_append, zeroNumber, if_pos hd, number_run _ _ hds hend]
      simp [decimalFrom, digitValue]
  · obtain ⟨-, hletter, -, hvalue⟩ := class_of_isDigit hd
    have hdecimal : isDecimal d = true := by rw [isDecimal, hvalue, Option.isSome_some]
    have hmark : d ∉ ['\n', ',', ';'] := not_mem_of_isDigit hd (by decide)
    simp only [List.mem_cons, List.not_mem_nil, or_false, not_or] at hmark
    obtain ⟨hbreak, hcomma, hremark⟩ := hmark
    simp only [lexeme, hbreak, hcomma, hremark, hletter, hzero, hdecimal, if_true, if_false]
    rw [number_run _ _ hds hend, decimalFrom_cons, Int.one_mul]
    rfl

theorem lexeme_decimal (n : Int) :
    ∃ first ds, (Text.decimal n).toList = first :: ds ∧ isGap first = false ∧
      ∀ c rest, isSeparator c → lexeme first (ds ++ c :: rest) = (.decimal n, c :: rest) := by
  obtain ⟨d, ds, hds, ⟨htext, hn⟩ | ⟨htext, hn⟩⟩ := decimal_cases n
  · obtain ⟨hd, hds⟩ := List.forall_mem_cons.1 hds
    refine ⟨d, ds, htext, (class_of_isDigit hd).1, fun c rest hc ↦ ?_⟩
    rw [lexeme_digits hd hds (by simpa using hc), ← hn]
  · refine ⟨'-', d :: ds, htext, rfl, fun c rest hc ↦ ?_⟩
    change signedNumber Token.decimal .invalid (-1) (d :: ds ++ c :: rest) = _
    rw [signedNumber_digits (-1) (List.cons_ne_nil d ds) hds
      (isDigit_of_isSeparator (by simpa using hc)), Int.neg_one_mul, ← hn]

theorem lexeme_hexadecimal (n : Nat) (hc : isSeparator c) (rest : List Char) :
    lexeme '0' ('x' :: Text.hexadecimal 4 n ++ c :: rest) = (.hexadecimal n, c :: rest) := by
  obtain ⟨-, -, -, hdigit, -⟩ := class_of_isSeparator hc
  obtain ⟨hall, hne, hvalue⟩ := hexadecimalOf_hexadecimal 4 n
  change hexNumber (Text.hexadecimal 4 n ++ c :: rest) = _
  generalize Text.hexadecimal 4 n = ds at hall hne hvalue
  cases ds with
  | nil => exact absurd rfl hne
  | cons d ds =>
    obtain ⟨hd, hds⟩ := List.forall_mem_cons.1 hall
    rw [List.cons_append, hexNumber, if_pos hd, (span_run hds hdigit rest).1,
      (span_run hds hdigit rest).2, hvalue]

theorem lexeme_name {tail : List Char} {next : Char} (hname : isName (c :: tail))
    (hnext : isWordChar next = false) (rest : List Char) :
    lexeme c (tail ++ next :: rest) =
      if next = ':' then (.symbol (String.ofList (c :: tail)), rest)
      else (.identifier (String.ofList (c :: tail)), next :: rest) := by
  obtain ⟨hletter, -, htail⟩ := isName_cons.1 hname
  obtain ⟨hbreak, hcomma, hremark⟩ := class_of_isLetter hletter
  obtain ⟨htake, hdrop⟩ := span_run htail hnext rest
  simp only [lexeme, hbreak, hcomma, hremark, hletter, if_true, if_false, word, htake, hdrop]
  by_cases hn : next = ':'
  · simp [hn]
  · simp [hn]

theorem ne_break_of_mem {text : List Char} (h : '\n' ∉ text) :
    ∀ c ∈ text, (c != '\n') = true := by
  intro c hc
  have hne : c ≠ '\n' := fun he ↦ h (he ▸ hc)
  simpa using hne

theorem lexeme_comment {text : List Char} (h : '\n' ∉ text) (rest : List Char) :
    lexeme ';' (text ++ '\n' :: rest) = (.comment (String.ofList text), '\n' :: rest) := by
  have hrun := ne_break_of_mem h
  change remark (text ++ '\n' :: rest) = _
  rw [remark, (span_run hrun rfl rest).1, (span_run hrun rfl rest).2]

end Lexeme

/-- A printed token is read back as that token if it is parted from what follows on its line. -/
theorem lexeme_of_spells {token : Token} {spelled rest : List Char} (hs : Spells token spelled)
    (hstop : StopsBefore token rest) :
    ∃ c word, spelled = c :: word ∧ isGap c = false ∧ ∀ more,
      lexeme c (word ++ rest ++ '\n' :: more) = (token, rest ++ '\n' :: more) := by
  have hfirst (h : ∀ c ∈ rest.head?, isSeparator c) (more : List Char) :
      ∃ c tail, rest ++ '\n' :: more = c :: tail ∧ isSeparator c := by
    cases rest with
    | nil => exact ⟨'\n', more, rfl, rfl⟩
    | cons c tail => exact ⟨c, _, rfl, h c rfl⟩
  cases hs with
  | @identifier name hname =>
    cases hn : name.toList with
    | nil => simp [hn, isName] at hname
    | cons c word =>
      rw [hn] at hname
      refine ⟨c, word, rfl, (isName_cons.1 hname).2.1, fun more ↦ ?_⟩
      obtain ⟨next, tail, hnext, hsep⟩ := hfirst hstop more
      obtain ⟨hword, -, -, -, hcolon, -⟩ := class_of_isSeparator hsep
      rw [List.append_assoc, hnext, lexeme_name hname hword, if_neg hcolon, ← hn,
        String.ofList_toList]
  | @symbol name hname =>
    cases hn : name.toList with
    | nil => simp [hn, isName] at hname
    | cons c word =>
      rw [hn] at hname
      refine ⟨c, word ++ [':'], rfl, (isName_cons.1 hname).2.1, fun more ↦ ?_⟩
      have htext : word ++ [':'] ++ rest ++ '\n' :: more =
          word ++ ':' :: (rest ++ '\n' :: more) := by simp
      rw [htext, lexeme_name hname (by decide), if_pos rfl, ← hn, String.ofList_toList]
  | comma => exact ⟨',', [], rfl, rfl, fun more ↦ rfl⟩
  | decimal n =>
    obtain ⟨first, ds, htext, hgap, hread⟩ := lexeme_decimal n
    refine ⟨first, ds, htext, hgap, fun more ↦ ?_⟩
    obtain ⟨next, tail, hnext, hsep⟩ := hfirst hstop more
    rw [List.append_assoc, hnext, hread next tail hsep]
  | hexadecimal n =>
    refine ⟨'0', _, rfl, rfl, fun more ↦ ?_⟩
    obtain ⟨next, tail, hnext, hsep⟩ := hfirst hstop more
    rw [List.append_assoc, hnext, lexeme_hexadecimal n hsep]
  | @comment text hbreak =>
    refine ⟨';', text.toList, rfl, rfl, fun more ↦ ?_⟩
    obtain rfl : rest = [] := hstop
    rw [List.append_nil, lexeme_comment hbreak, String.ofList_toList]
    rfl

inductive Written : List Token → List Char → Prop
  | gap {gap : List Char} (hgap : ∀ c ∈ gap, isGap c = true) : Written [] gap
  | token {gap spelled rest : List Char} {token : Token} {tokens : List Token}
      (hgap : ∀ c ∈ gap, isGap c = true) (hs : Spells token spelled)
      (hstop : StopsBefore token rest) (h : Written tokens rest) :
      Written (token :: tokens) (gap ++ spelled ++ rest)

theorem Written.tokens_eq {tokens : List Token} {text : List Char} (h : Written tokens text) :
    scanner.tokens (text ++ ['\n']) = tokens ++ [.empty] := by
  induction h with
  | @gap gap hgap =>
    have hd : gap.dropWhile isGap = [] := List.dropWhile_eq_nil_iff.2 hgap
    rw [scanner.tokens_of_some (next?_blank hd []), Scanner.tokens_nil]
    rfl
  | @token gap spelled rest token tokens hgap hs hstop h ih =>
    obtain ⟨c, word, rfl, hc, hread⟩ := lexeme_of_spells hs hstop
    have hd : (gap ++ c :: word ++ rest).dropWhile isGap = c :: (word ++ rest) := by
      rw [List.append_assoc, List.dropWhile_append_of_pos hgap, List.cons_append,
        List.dropWhile_cons_of_neg (by simp [hc])]
    have hnext := next?_lexeme hd []
    rw [hread []] at hnext
    rw [scanner.tokens_of_some hnext, ih]
    rfl

theorem break_not_mem_of_isName {name : List Char} (h : isName name) : '\n' ∉ name := by
  cases name with
  | nil => nofun
  | cons c word =>
    obtain ⟨hletter, -, hword⟩ := isName_cons.1 h
    rw [List.mem_cons, not_or]
    refine ⟨(class_of_isLetter hletter).1.symm, fun hmem ↦ ?_⟩
    have hbreak := hword _ hmem
    contradiction

theorem Spells.break_not_mem {token : Token} {spelled : List Char} (h : Spells token spelled) :
    '\n' ∉ spelled := by
  cases h with
  | identifier hname => exact break_not_mem_of_isName hname
  | symbol hname => simpa using break_not_mem_of_isName hname
  | comma => decide
  | decimal n =>
    have hdigits : '\n' ∉ digits 10 n.natAbs := fun hmem ↦ by
      have hdigit := Nat.isDigit_of_mem_toDigits (by decide) (by decide) hmem
      contradiction
    rw [Text.decimal, String.toList_ofList]
    split
    · simpa using hdigits
    · exact hdigits
  | hexadecimal n =>
    have hdigits : '\n' ∉ Text.hexadecimal 4 n := fun hmem ↦ by
      have hdigit := (hexadecimalOf_hexadecimal 4 n).1 _ hmem
      contradiction
    simpa using hdigits
  | comment hbreak => simpa using hbreak

theorem Written.break_not_mem {tokens : List Token} {text : List Char} (h : Written tokens text) :
    '\n' ∉ text := by
  have hgaps {gap : List Char} (hgap : ∀ c ∈ gap, isGap c = true) : '\n' ∉ gap := fun hmem ↦ by
    have hbreak := hgap _ hmem
    contradiction
  induction h with
  | gap hgap => exact hgaps hgap
  | token hgap hs hstop h ih => simp [hgaps hgap, hs.break_not_mem, ih]

inductive Plain : Token → Prop
  | empty : Plain .empty
  | invalid : Plain .invalid
  | spelled {token : Token} {s : List Char} (h : Spells token s) (hc : token.comment? = none) :
      Plain token

theorem plain_number (sign : Int) (value : Nat) (text : List Char) :
    Plain (number .decimal sign value text).1 :=
  .spelled (.decimal _) rfl

theorem plain_hexNumber (text : List Char) : Plain (hexNumber text).1 := by
  unfold hexNumber
  split
  · exact .invalid
  · split
    · exact .spelled (.hexadecimal _) rfl
    · exact .invalid

theorem plain_zeroNumber (text : List Char) : Plain (zeroNumber text).1 := by
  unfold zeroNumber
  split
  · exact .spelled (.decimal 0) rfl
  · split
    · exact plain_number ..
    · split
      · exact plain_hexNumber _
      · exact .spelled (.decimal 0) rfl

theorem plain_signedNumber (sign : Int) (text : List Char) :
    Plain (signedNumber .decimal .invalid sign text).1 := by
  unfold signedNumber
  split
  · exact .invalid
  · split
    · exact plain_number ..
    · exact .invalid

section Scanned

variable {c : Char} {text : List Char} {token : Token}

theorem plain_word (hletter : isLetter c = true) (hgap : isGap c = false) (text : List Char) :
    Plain (word c text).1 := by
  have hname : isName (String.ofList (c :: text.takeWhile isWordChar)).toList := by
    rw [String.toList_ofList, isName_cons]
    exact ⟨hletter, hgap, fun d ↦ List.mem_takeWhile_imp⟩
  unfold word
  dsimp only
  split
  · exact .spelled (.symbol hname) rfl
  · exact .spelled (.identifier hname) rfl

theorem plain_lexeme (hgap : isGap c = false) (hc : c ≠ ';') (text : List Char) :
    Plain (lexeme c text).1 := by
  cases c using lexeme_cases with
  | lineEnd h => exact h ▸ .empty
  | comma h => exact h ▸ .spelled .comma rfl
  | comment h => contradiction
  | name c hname h => exact h ▸ plain_word hname hgap text
  | zero h => exact h ▸ plain_zeroNumber text
  | decimal c hdecimal h => exact h ▸ plain_number ..
  | plus h => exact h ▸ plain_signedNumber 1 text
  | minus h => exact h ▸ plain_signedNumber (-1) text
  | other c h => exact h ▸ .invalid

theorem next?_cases {rest : List Char} (h : scanner.next? text = some (token, rest)) :
    token = .empty ∧ rest = [] ∨
      ∃ c after, c :: after <:+ text ∧ isGap c = false ∧ lexeme c after = (token, rest) := by
  obtain ⟨gap, -, ⟨-, -, rfl, rfl⟩ | ⟨c, after, rfl, hc, hread⟩⟩ := Scanner.nextLexeme?_cases h
  · exact .inl ⟨rfl, rfl⟩
  · exact .inr ⟨c, after, List.suffix_append gap _, hc, hread⟩

theorem plain_or_comment (h : token ∈ scanner.tokens text) :
    Plain token ∨ ∃ rest, ';' :: rest <:+ text ∧
      token = .comment (String.ofList (rest.takeWhile (· != '\n'))) := by
  unfold Scanner.tokens at h
  fun_induction Scanner.spans scanner text with
  | case1 text hnone => contradiction
  | case2 text first rest hnext ih =>
    rcases next?_cases hnext with ⟨rfl, rfl⟩ | ⟨c, after, hsuffix, hgap, hread⟩
    · have hend : scanner.spans [] = [] := scanner.spans_of_none rfl
      rw [hend, List.map_singleton, List.mem_singleton] at h
      exact .inl (h ▸ .empty)
    · rw [List.map_cons] at h
      rcases List.mem_cons.1 h with rfl | h
      · by_cases hc : c = ';'
        · subst hc
          have hremark : remark after = (token, rest) := hread
          exact .inr ⟨after, hsuffix, (congrArg Prod.fst hremark).symm⟩
        · have hplain := plain_lexeme hgap hc after
          rw [hread] at hplain
          exact .inl hplain
      · have hrest := suffix_lexeme c after
        rw [hread] at hrest
        refine (ih h).imp_right fun ⟨t, ht, hcomment⟩ ↦ ⟨t, ?_, hcomment⟩
        exact ht.trans (hrest.trans ((List.suffix_cons c after).trans hsuffix))

theorem exists_spells_of_mem (h : token ∈ scanner.tokens text) (hempty : token ≠ .empty)
    (hinvalid : token ≠ .invalid) : ∃ s, Spells token s := by
  rcases plain_or_comment h with hplain | ⟨rest, -, rfl⟩
  · cases hplain with
    | empty => contradiction
    | invalid => contradiction
    | spelled hs hc => exact ⟨_, hs⟩
  · refine ⟨_, .comment ?_⟩
    rw [String.toList_ofList]
    intro hmem
    have hne := List.mem_takeWhile_imp hmem
    simp at hne

theorem isName_of_symbol_mem {name : String} (h : .symbol name ∈ scanner.tokens text) :
    isName name.toList := by
  obtain ⟨s, hs⟩ := exists_spells_of_mem h nofun nofun
  cases hs with
  | symbol hname => exact hname

theorem break_not_mem_of_comment_mem {t : String} (h : .comment t ∈ scanner.tokens text) :
    '\n' ∉ t.toList := by
  obtain ⟨s, hs⟩ := exists_spells_of_mem h nofun nofun
  cases hs with
  | comment hbreak => exact hbreak

theorem suffix_of_comment_mem {line : List Char} {t : String} (hl : '\n' ∉ line)
    (h : .comment t ∈ scanner.tokens (line ++ ['\n'])) : ';' :: t.toList <:+ line := by
  rcases plain_or_comment h with hplain | ⟨rest, hsuffix, hcomment⟩
  · cases hplain with
    | spelled hs hc => contradiction
  · rcases List.suffix_concat_iff.1 hsuffix with hnil | ⟨inner, hinner, hline⟩
    · contradiction
    · cases inner with
      | nil => simp at hinner
      | cons c inner =>
        rw [List.cons_append] at hinner
        obtain ⟨rfl, rfl⟩ := List.cons.inj hinner
        have hrun := ne_break_of_mem fun hm ↦ hl (hline.mem (List.mem_cons_of_mem _ hm))
        have hend : ('\n' != '\n') = false := rfl
        rw [(span_run hrun hend []).1] at hcomment
        obtain rfl := Token.comment.inj hcomment
        rwa [String.toList_ofList]

end Scanned

end PepAsm.Assembly.Token
