import PepAsm.Proofs.Assembly.Segments
import PepAsm.Proofs.Scan.Linewise

namespace PepAsm

open Scan Text

namespace Scan.Scanner

variable {τ : Type} {S : Scanner τ}

/-- A scanner stops at the end of the text and nowhere else. Anywhere before it there is a token, after
which the scanner stands further on, inside the text or at its end. -/
def AdvancesFrom (S : Scanner τ) (text : List Char) (p : Nat) : Prop :=
  (S.next? (text.drop p) = none ↔ text.length ≤ p) ∧
    ∀ token rest, S.next? (text.drop p) = some (token, rest) →
      ∃ q, p < q ∧ q ≤ text.length ∧ rest = text.drop q

theorem Linewise.advancesFrom (h : S.Linewise) (hend : ∀ {text}, S.next? text = none ↔ text = [])
    (text : List Char) (p : Nat) : S.AdvancesFrom text p := by
  refine ⟨?_, ?_⟩
  · rw [hend, List.drop_eq_nil_iff]
  · intro token rest hnext
    have hsuffix : rest <:+ text := (h.suffix hnext).trans (List.drop_suffix p text)
    have hlt := S.length_lt hnext
    rw [List.length_drop] at hlt
    refine ⟨text.length - rest.length, ?_, ?_, ?_⟩
    · omega
    · omega
    · exact List.suffix_iff_eq_drop.1 hsuffix

end Scan.Scanner

namespace Assembly

variable {r s final : Reader} {line : Line} {lines : List Line}

theorem nextLine?_takes (h : nextLine? r = some (line, s)) :
    ∃ taken, taken ≠ [] ∧ r.tokens = taken ++ s.tokens := by
  have hne : r.tokens ≠ [] := by
    intro hr
    rw [nextLine?_eq_none.2 hr] at h
    contradiction
  obtain ⟨body, tail, hr, hb, ht⟩ := exists_line r.tokens
  obtain ⟨s', hs', -, htokens⟩ := nextLine?_of_tokens hr hne hb ht
  obtain ⟨-, rfl⟩ : _ ∧ s' = s := by simpa using hs'.symm.trans h
  have htaken : r.tokens = (body ++ tail.take 1) ++ s'.tokens := by
    rw [htokens, List.append_assoc, List.take_append_drop, hr]
  refine ⟨body ++ tail.take 1, ?_, htaken⟩
  intro hnil
  obtain ⟨hbody, htake⟩ := List.append_eq_nil_iff.1 hnil
  have htail : tail = [] := by simpa using htake
  apply hne
  rw [hr, hbody, htail, List.append_nil]

inductive Reads : Reader → List Line → Reader → Prop
  | done {r : Reader} (h : nextLine? r = none) : Reads r [] r
  | line {r s final : Reader} {line : Line} {lines : List Line}
      (h : nextLine? r = some (line, s)) (hs : Reads s lines final) :
      Reads r (line :: lines) final

theorem reads_readLines (r : Reader) : Reads r (readLines r).1 (readLines r).2 := by
  fun_induction readLines r with
  | case1 r h => exact .done h
  | case2 r line s h lines final hrest ih =>
    rw [hrest] at ih
    exact .line h ih

theorem Reads.length_le (h : Reads r lines final) : lines.length ≤ r.tokens.length := by
  induction h with
  | done h => simp
  | line h hs ih =>
    obtain ⟨taken, hne, htokens⟩ := nextLine?_takes h
    have htaken := List.length_pos_iff.2 hne
    rw [htokens, List.length_append, List.length_cons]
    omega

theorem Reads.ne_nil (h : Reads r lines final) (hr : r.tokens ≠ []) : lines ≠ [] := by
  cases h with
  | done h => exact absurd (nextLine?_eq_none.1 h) hr
  | line h hs => exact List.cons_ne_nil _ _

theorem tokens_ofText (text : List Char) (symbols : SymbolTable) :
    (Reader.ofText text symbols).tokens = Token.scanner.tokens text :=
  List.nil_append _

theorem tokens_endLine_ne_nil (text : String) : Token.scanner.tokens (endLine text) ≠ [] := by
  intro h
  have hempty : endLine text = [] := Scanner.tokens_ofLexeme_eq_nil.1 h
  simp [endLine] at hempty

end Assembly

open Assembly

/-- Every text is read to its end. Each token takes at least one character and each line at least one
token, so that a program has no more lines than its text has tokens, and it has one at least. -/
theorem reading_is_total :
    (∀ text p, Assembly.Token.scanner.AdvancesFrom text p) ∧
      (∀ text p, Formula.Token.scanner.AdvancesFrom text p) ∧
      (∀ r, nextLine? r = none ↔ r.tokens = []) ∧
      (∀ r line s, nextLine? r = some (line, s) →
        ∃ taken, taken ≠ [] ∧ r.tokens = taken ++ s.tokens) ∧
      ∀ text symbols, (parse text symbols).lines ≠ [] ∧
        (parse text symbols).lines.length ≤ (Assembly.Token.scanner.tokens (endLine text)).length ∧
        ∃ final, Reads (.ofText (endLine text) symbols) (parse text symbols).lines final ∧
          final.symbols = (parse text symbols).symbols := by
  refine ⟨?_, ?_, ?_, ?_, ?_⟩
  · exact Assembly.Token.linewise_scanner.advancesFrom Scanner.nextLexeme?_eq_none
  · exact Formula.Token.linewise_scanner.advancesFrom Scanner.nextLexeme?_eq_none
  · intro r
    exact nextLine?_eq_none
  · intro r line s h
    exact nextLine?_takes h
  · intro text symbols
    have hreads := reads_readLines (.ofText (endLine text) symbols)
    have htokens := tokens_ofText (endLine text) symbols
    refine ⟨?_, ?_, _, hreads, rfl⟩
    · apply hreads.ne_nil
      rw [htokens]
      exact tokens_endLine_ne_nil text
    · rw [← htokens]
      exact hreads.length_le

end PepAsm
