import PepAsm.Assembly.Reading
import PepAsm.Proofs.Assembly.LineLocality
import Mathlib.Data.List.TakeWhile

namespace PepAsm.Assembly

open PepAsm.Scan PepAsm.Text

/-- What the tokens of a line make up. `ended` tells whether a line end follows them or nothing. -/
def readLine (symbols : SymbolTable) (body : List Token) (ended : Bool) : Line × SymbolTable :=
  if body.isEmpty && ended then (.empty, symbols)
  else
    match content (.ofTokens body symbols) with
    | .ok line s => (if s.tokens.isEmpty && ended then line else .error none, s.symbols)
    | .error e s => (.error e.message, s.symbols)

theorem Token.empty?_eq_some {token : Token} {u : Unit} :
    token.empty? = some u ↔ token = .empty := by
  cases token with
  | empty => simp [Token.empty?]
  | _ => simp [Token.empty?]

variable {r : Reader} {body tail : List Token}

theorem eq_of_append_eq_empty_cons {rest : List Token} (hb : Token.empty ∉ body)
    (h : body ++ tail = .empty :: rest) : body = [] ∧ tail = .empty :: rest := by
  cases body with
  | nil => exact ⟨rfl, h⟩
  | cons token body =>
    obtain ⟨rfl, -⟩ := List.cons.inj h
    exact absurd List.mem_cons_self hb

theorem end_visible (h : ∀ token ∈ (body ++ tail).head?, token.empty? = none)
    (ht : ∀ token ∈ tail.head?, token = .empty) : (body.isEmpty && !tail.isEmpty) = false := by
  cases body with
  | cons token body => rfl
  | nil =>
    cases tail with
    | nil => rfl
    | cons token tail =>
      have he := h token rfl
      rw [ht token rfl] at he
      contradiction

theorem drop_line_of_extends {lone : Reader} (h : r.Extends lone tail)
    (ht : ∀ token ∈ tail.head?, token = .empty) :
    r.skipLine.tokens = tail.drop 1 := by
  change (r.stream.skipPast Token.scanner (· == .empty)).toList Token.scanner = _
  rw [Lookahead.toList_skipPast]
  change (r.tokens.dropWhile _).drop 1 = _
  have hall : ∀ token ∈ lone.tokens, (!(token == .empty)) = true := by
    intro token hm
    have hne : token ≠ .empty := fun he ↦ h.noEnd (he ▸ hm)
    simp [hne]
  rw [h.tokens, List.dropWhile_append_of_pos hall]
  cases tail with
  | nil => rfl
  | cons token tail => rw [ht token rfl, List.dropWhile_cons_of_neg (by simp)]

theorem Reader.ofTokens_extends (hr : r.tokens = body ++ tail) (hb : Token.empty ∉ body) :
    r.Extends (.ofTokens body r.symbols) tail := by
  refine ⟨rfl, ?_, ?_⟩
  · rw [Reader.tokens_ofTokens, hr]
  · rwa [Reader.tokens_ofTokens]

theorem expect_empty_cases (r : Reader) :
    (∃ s, expect Token.empty? r = .ok () s ∧ r.tokens = .empty :: s.tokens ∧
      s.symbols = r.symbols) ∨
    (∃ s, expect Token.empty? r = .error .unexpectedToken s ∧ s.tokens = r.tokens ∧
      s.symbols = r.symbols ∧ ∀ token ∈ r.tokens.head?, token.empty? = none) := by
  rcases accept?_cases Token.empty? r with
    ⟨token, a, s, ha, hr, htokens, hsymbols⟩ | ⟨s, hnone, hr, htokens, hsymbols⟩
  · rw [Token.empty?_eq_some.1 ha] at htokens
    exact .inl ⟨s, ParseM.bind_of_ok hr, htokens, hsymbols⟩
  · exact .inr ⟨s, ParseM.bind_of_ok hr, htokens, hsymbols, hnone⟩

/-- A statement takes its line with the line's end, or fails somewhere inside the line. -/
theorem statement_cases (hr : r.tokens = body ++ tail) (hb : Token.empty ∉ body)
    (ht : ∀ token ∈ tail.head?, token = .empty) :
    (∃ line s, statement r = .ok line s ∧ s.tokens = tail.drop 1 ∧
      readLine r.symbols body (!tail.isEmpty) = (line, s.symbols)) ∨
    (∃ e s, statement r = .error e s ∧ s.skipLine.tokens = tail.drop 1 ∧
      readLine r.symbols body (!tail.isEmpty) = (.error e.message, s.symbols)) := by
  rcases accept?_cases Token.empty? r with
    ⟨token, u, s, hu, haccept, htokens, hsymbols⟩ | ⟨s, hnone, haccept, htokens, hsymbols⟩
  · rw [Token.empty?_eq_some.1 hu, hr] at htokens
    obtain ⟨rfl, rfl⟩ := eq_of_append_eq_empty_cons hb htokens
    refine .inl ⟨.empty, s, ParseM.bind_of_ok haccept, rfl, ?_⟩
    rw [hsymbols]
    rfl
  · have hstatement : statement r = (do
        let read ← content
        expect Token.empty?
        return read : ParseM Line) s := ParseM.bind_of_ok haccept
    have hread : readLine r.symbols body (!tail.isEmpty) =
        match content (.ofTokens body s.symbols) with
        | .ok line lone => (if lone.tokens.isEmpty && !tail.isEmpty then line else .error none,
            lone.symbols)
        | .error e lone => (.error e.message, lone.symbols) := by
      rw [readLine, if_neg (by simpa using end_visible (hr ▸ hnone) ht), hsymbols]
    -- From here on the whole stream and the lone line go the same way.
    have halike := ParseM.lineLocal_content tail s _ ht
      (Reader.ofTokens_extends (htokens.trans hr) hb)
    rw [hstatement, hread]
    generalize hc : content s = x at halike
    generalize content (.ofTokens body s.symbols) = y at halike
    cases halike with
    | error e h =>
      refine .inr ⟨e, _, ParseM.bind_of_error hc, drop_line_of_extends h ht, ?_⟩
      rw [h.symbols]
    | @ok read s' lone h =>
      rw [ParseM.bind_of_ok hc]
      rcases expect_empty_cases s' with
        ⟨s'', hexpect, htokens', hsymbols'⟩ | ⟨s'', hexpect, htokens', hsymbols', hnone'⟩
      · rw [h.tokens] at htokens'
        obtain ⟨hlone, rfl⟩ := eq_of_append_eq_empty_cons h.noEnd htokens'
        refine .inl ⟨read, s'', ParseM.bind_of_ok hexpect, rfl, ?_⟩
        simp [hlone, hsymbols', h.symbols]
      · rw [h.tokens] at hnone'
        have h'' : s''.Extends lone tail :=
          ⟨hsymbols'.trans h.symbols, htokens'.trans h.tokens, h.noEnd⟩
        refine .inr ⟨.unexpectedToken, s'', ParseM.bind_of_error hexpect,
          drop_line_of_extends h'' ht, ?_⟩
        dsimp only
        rw [if_neg (by simpa using end_visible hnone' ht), h''.symbols]
        rfl

theorem nextLine?_eq_none : nextLine? r = none ↔ r.tokens = [] := by
  unfold nextLine?
  rw [show r.tokens = [] ↔ r.fill.stream.pending = [] from Lookahead.toList_eq_nil]
  split
  · simp [*]
  · split
    · simp [*]
    · simp [*]

/-- The next line is what the tokens up to the end of the line make up, and only the tokens after
that end are left. -/
theorem nextLine?_of_tokens (hr : r.tokens = body ++ tail) (hne : r.tokens ≠ [])
    (hb : Token.empty ∉ body) (ht : ∀ token ∈ tail.head?, token = .empty) :
    ∃ s, nextLine? r = some ((readLine r.symbols body (!tail.isEmpty)).1, s) ∧
      s.symbols = (readLine r.symbols body (!tail.isEmpty)).2 ∧ s.tokens = tail.drop 1 := by
  have hfill : r.fill.tokens = body ++ tail := Lookahead.toList_fill.trans hr
  obtain ⟨token, others, hp⟩ : ∃ token others, r.fill.stream.pending = token :: others :=
    List.exists_cons_of_ne_nil fun h ↦ hne (Lookahead.toList_eq_nil.2 h)
  unfold nextLine?
  rw [hp]
  rcases statement_cases hfill hb ht with
    ⟨line, s, hs, htokens, hread⟩ | ⟨e, s, hs, htokens, hread⟩
  · rw [show readLine r.symbols body _ = _ from hread]
    exact ⟨s, by rw [hs], rfl, htokens⟩
  · rw [show readLine r.symbols body _ = _ from hread]
    exact ⟨s.skipLine, by rw [hs], rfl, htokens⟩

def segments : List Token → List (List Token)
  | [] => []
  | .empty :: tokens => [.empty] :: segments tokens
  | token :: tokens =>
    match segments tokens with
    | [] => [[token]]
    | first :: others => (token :: first) :: others

theorem exists_line (tokens : List Token) :
    ∃ body tail, tokens = body ++ tail ∧ Token.empty ∉ body ∧
      ∀ token ∈ tail.head?, token = .empty := by
  refine ⟨tokens.takeWhile (· != .empty), tokens.dropWhile (· != .empty),
    List.takeWhile_append_dropWhile.symm, fun h ↦ ?_, fun token h ↦ ?_⟩
  · simpa using List.mem_takeWhile_imp h
  · have hnot := List.head?_dropWhile_not (· != Token.empty) tokens
    rw [Option.mem_def.1 h] at hnot
    simpa using hnot

theorem segments_append (hne : body ++ tail ≠ []) (hb : Token.empty ∉ body)
    (ht : ∀ token ∈ tail.head?, token = .empty) :
    segments (body ++ tail) = (body ++ tail.take 1) :: segments (tail.drop 1) := by
  induction body with
  | nil =>
    cases tail with
    | nil => contradiction
    | cons token tail =>
      rw [ht token rfl]
      rfl
  | cons token body ih =>
    obtain ⟨hfirst, hbody⟩ : Token.empty ≠ token ∧ Token.empty ∉ body := by simpa using hb
    rw [List.cons_append, segments.eq_3 _ _ fun h ↦ hfirst h.symm]
    cases hrest : body ++ tail with
    | nil =>
      obtain ⟨rfl, rfl⟩ := List.append_eq_nil_iff.1 hrest
      rfl
    | cons next rest =>
      rw [← hrest, ih (by simp [hrest]) hbody]
      rfl

def readSegment (symbols : SymbolTable) (segment : List Token) : Line × SymbolTable :=
  readLine symbols (segment.takeWhile (· != .empty)) (segment.contains .empty)

/-- What segments make up one after the other. Each of them sees the symbols that those before it
leave behind, and nothing else of them. -/
def readSegments (symbols : SymbolTable) : List (List Token) → List Line × SymbolTable
  | [] => ([], symbols)
  | segment :: others =>
    let read := readSegment symbols segment
    let after := readSegments read.2 others
    (read.1 :: after.1, after.2)

theorem readSegment_append (symbols : SymbolTable) (hb : Token.empty ∉ body)
    (ht : ∀ token ∈ tail.head?, token = .empty) :
    readSegment symbols (body ++ tail.take 1) = readLine symbols body (!tail.isEmpty) := by
  have hall : ∀ token ∈ body, (token != .empty) = true := by
    intro token hm
    have hne : token ≠ .empty := fun he ↦ hb (he ▸ hm)
    simp [hne]
  unfold readSegment
  rw [List.takeWhile_append_of_pos hall]
  cases tail with
  | nil => simp [hb]
  | cons token tail =>
    rw [ht token rfl]
    simp

/-- Reading lines off a stream is reading its segments, each as if it stood alone. -/
theorem readLines_eq (r : Reader) :
    ((readLines r).1, (readLines r).2.symbols) = readSegments r.symbols (segments r.tokens) := by
  fun_induction readLines r with
  | case1 r h =>
    rw [nextLine?_eq_none.1 h]
    rfl
  | case2 r line s h lines final hrest ih =>
    have hne : r.tokens ≠ [] := by
      intro hr
      rw [nextLine?_eq_none.2 hr] at h
      contradiction
    obtain ⟨body, tail, hr, hb, ht⟩ := exists_line r.tokens
    obtain ⟨s', hs', hsymbols, htokens⟩ := nextLine?_of_tokens hr hne hb ht
    obtain ⟨rfl, rfl⟩ : line = _ ∧ s = s' := by simpa using h.symm.trans hs'
    rw [hr] at hne ⊢
    rw [segments_append hne hb ht, readSegments, readSegment_append _ hb ht, ← hsymbols, ← htokens]
    dsimp only
    rw [hrest] at ih
    rw [← ih]

theorem parse_eq (text : String) (symbols : SymbolTable) :
    ((parse text symbols).lines, (parse text symbols).symbols) =
      readSegments symbols (segments (Token.scanner.tokens (endLine text))) :=
  readLines_eq (.ofText (endLine text) symbols)

theorem length_readSegments (symbols : SymbolTable) (pieces : List (List Token)) :
    (readSegments symbols pieces).1.length = pieces.length := by
  induction pieces generalizing symbols with
  | nil => rfl
  | cons piece pieces ih => simpa [readSegments] using ih _

end PepAsm.Assembly
