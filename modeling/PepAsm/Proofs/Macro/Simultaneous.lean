import PepAsm.Proofs.Macro.Substitution

namespace PepAsm.Macro

open PepAsm.Scan

/-- Every mark whose first digit or whole number names an argument has one digit only. -/
def SingleDigits (n : Nat) (body : List Char) : Prop :=
  ∀ text ∈ marks body, Names n (digit text) ∨ Names n (number text) → number text = digit text

/-- No `$` stands directly before the mark of an argument other than the last. -/
def MarksApart (n : Nat) (body : List Char) : Prop :=
  ∀ text ∈ marks body, text.head? = some '$' → ¬Names (n - 1) (digit text.tail)

def OnlyLast (n : Nat) (body : List Char) : Prop :=
  ∀ text ∈ marks body, ¬Names (n - 1) (digit text)

instance (n : Nat) (body : List Char) : Decidable (SingleDigits n body) :=
  inferInstanceAs (Decidable (∀ text ∈ marks body, _))

instance (n : Nat) (body : List Char) : Decidable (MarksApart n body) :=
  inferInstanceAs (Decidable (∀ text ∈ marks body, _))

instance (n : Nat) (body : List Char) : Decidable (OnlyLast n body) :=
  inferInstanceAs (Decidable (∀ text ∈ marks body, _))

section Simultaneous

variable {n : Nat} {arguments : List String} {body text : List Char}

theorem mem_of_argument? {digits : List Char} {a : String}
    (h : argument? arguments digits = some a) : a ∈ arguments := by
  unfold argument? at h
  split at h
  · contradiction
  · exact List.mem_of_getElem? h

theorem names_of_argument?_dropLast {digits : List Char} {a : String}
    (h : argument? arguments.dropLast digits = some a) : Names (arguments.length - 1) digits := by
  by_contra hnot
  rw [← List.length_dropLast] at hnot
  rw [argument?_eq_none.2 hnot] at h
  contradiction

theorem SingleDigits.tail {c : Char} (h : SingleDigits n (c :: body)) : SingleDigits n body :=
  fun text ht ↦ h text (mem_marks_cons ht)

theorem substituteFrom_digit (h : SingleDigits arguments.length body) (skip : Nat) :
    substituteFrom digit arguments skip body = substituteFrom number arguments skip body := by
  induction body generalizing skip with
  | nil => rfl
  | cons c text ih =>
    cases skip with
    | succ skip => exact ih h.tail skip
    | zero =>
      by_cases hc : c = '$'
      · subst hc
        by_cases hsame : number text = digit text
        · rw [substituteFrom, substituteFrom, hsame]
          simp only [ih h.tail]
        · have hnames := not_or.1 (mt (h text self_mem_marks) hsame)
          rw [substituteFrom_mark_none (argument?_eq_none.2 hnames.1),
            substituteFrom_mark_none (argument?_eq_none.2 hnames.2), ih h.tail]
      · rw [substituteFrom_cons hc, substituteFrom_cons hc, ih h.tail]

theorem fill_eq_substitute (hsingle : SingleDigits arguments.length body)
    (hinert : Inert arguments.dropLast body) :
    fill 1 arguments body = substitute arguments body :=
  (fill_eq hinert).trans (substituteFrom_digit hsingle 0)

theorem MarksApart.inert (h : MarksApart arguments.length body)
    (hplain : ∀ a ∈ arguments, '$' ∉ a.toList) : Inert arguments.dropLast body where
  plain _ _ a ha := hplain a (List.mem_of_mem_dropLast (mem_of_argument? ha))
  apart text ht hhead _ ha := absurd (names_of_argument?_dropLast ha) (h text ht hhead)

theorem OnlyLast.inert (h : OnlyLast arguments.length body) : Inert arguments.dropLast body where
  plain text ht _ ha := absurd (names_of_argument?_dropLast ha) (h text ht)
  apart text ht hhead _ ha :=
    absurd (names_of_argument?_dropLast ha) (h text.tail (tail_mem_marks ht hhead))

end Simultaneous

section Letters

variable {pattern other text : List Char}

theorem replaceFrom_letter (other : List Char) (c : Char) (text : List Char) :
    ∃ d skip, replaceFrom other ['z'] 0 (c :: text) = d :: replaceFrom other ['z'] skip text := by
  rw [replaceFrom]
  split
  · exact ⟨_, _, rfl⟩
  · exact ⟨_, _, rfl⟩

theorem prefix_of_prefix_replace (hz : 'z' ∉ pattern)
    (h : pattern <+: replace other ['z'] text) : pattern <+: text := by
  induction text generalizing pattern with
  | nil => exact h
  | cons c text ih =>
    cases pattern with
    | nil => exact List.nil_prefix
    | cons d pattern =>
      rw [List.mem_cons, not_or] at hz
      by_cases hother : other <+: c :: text
      · rw [replace, replaceFrom, if_pos (List.isPrefixOf_iff_prefix.2 hother),
          List.singleton_append, List.cons_prefix_cons] at h
        exact absurd h.1.symm hz.1
      · rw [replace_cons hother, List.cons_prefix_cons] at h
        exact List.cons_prefix_cons.2 ⟨h.1, ih hz.2 h.2⟩

/-- A letter makes no new occurrence of a pattern without it. -/
theorem infix_of_infix_replaceFrom (hz : 'z' ∉ pattern) {skip : Nat}
    (h : pattern <:+: replaceFrom other ['z'] skip text) : pattern <:+: text := by
  induction text generalizing skip with
  | nil => exact h
  | cons c text ih =>
    cases skip with
    | succ skip => exact List.infix_cons (ih h)
    | zero =>
      obtain ⟨d, next, hstep⟩ := replaceFrom_letter other c text
      rw [hstep, List.infix_cons_iff, ← hstep] at h
      exact List.infix_cons_iff.2 (h.imp (prefix_of_prefix_replace hz) ih)

theorem not_infix_replaceFrom (hz : 'z' ∉ pattern) (hne : pattern ≠ []) (skip : Nat) :
    ¬pattern <:+: replaceFrom pattern ['z'] skip text := by
  induction text generalizing skip with
  | nil => simpa [replaceFrom] using hne
  | cons c text ih =>
    cases skip with
    | succ skip => exact ih skip
    | zero =>
      intro h
      obtain ⟨d, next, hstep⟩ := replaceFrom_letter pattern c text
      rw [hstep, List.infix_cons_iff, ← hstep] at h
      rcases h with h | h
      · -- the pattern stood here before, so the letter stands here now
        have hhere := List.isPrefixOf_iff_prefix.2 (prefix_of_prefix_replace hz h)
        rw [replaceFrom, if_pos hhere, List.singleton_append] at h
        obtain ⟨d, others, rfl⟩ := List.exists_cons_of_ne_nil hne
        exact hz ((List.cons_prefix_cons.1 h).1 ▸ List.mem_cons_self)
      · exact ih next h

theorem not_infix_fill_letters (hz : 'z' ∉ pattern) (h : ¬pattern <:+: text) (position k : Nat) :
    ¬pattern <:+: fill position (List.replicate k "z") text := by
  induction k generalizing position text with
  | zero => exact h
  | succ k ih => exact ih (mt (infix_of_infix_replaceFrom hz) h) (position + 1)

theorem fill_append (position : Nat) (first second : List String) (text : List Char) :
    fill position (first ++ second) text =
      fill (position + first.length) second (fill position first text) := by
  induction first generalizing position text with
  | nil => rfl
  | cons a first ih =>
    rw [List.cons_append, fill, ih, fill, List.length_cons, Nat.add_right_comm, Nat.add_assoc]

theorem letter_not_mem_placeholder (position : Nat) : 'z' ∉ placeholder position := by
  rw [placeholder, List.mem_cons, not_or]
  refine ⟨by decide, fun hmem ↦ ?_⟩
  have hdigit : ('z').isDigit = true := Nat.isDigit_of_mem_toDigits (by decide) (by decide) hmem
  contradiction

def probe (k m : Nat) (a : String) : List String :=
  List.replicate k "z" ++ a :: List.replicate (m + 1) "z"

theorem argument?_probe {digits : List Char} {k : Nat} (h : decimalFrom 0 digits = k + 1)
    (m : Nat) (a : String) : argument? (probe k m a) digits = some a := by
  simp [argument?, h, probe]

/-- The argument after the odd one leaves none of its placeholders, whatever the odd one is. -/
theorem not_infix_fill_probe (k m : Nat) (a : String) (body : List Char) :
    ¬placeholder (k + 2) <:+: fill 1 (probe k m a) body := by
  have hz := letter_not_mem_placeholder (k + 2)
  have hposition : 1 + k + 1 = k + 2 := by omega
  rw [probe, fill_append, List.length_replicate, fill, List.replicate_succ, fill, hposition]
  exact not_infix_fill_letters hz (not_infix_replaceFrom hz (List.cons_ne_nil _ _) 0) _ _

end Letters

section Necessary

variable {n : Nat} {arguments : List String} {body text : List Char}

theorem number_append (first text : List Char) :
    number (first ++ '$' :: text) = number first := by
  rw [number, List.takeWhile_append, List.takeWhile_cons_of_neg (by decide), List.append_nil]
  split
  · rename_i hall
    exact ((List.takeWhile_prefix _).eq_of_length hall).symm
  · rfl

theorem substituteFrom_append {first : List Char} {skip : Nat} (h : skip ≤ first.length) :
    substituteFrom number arguments skip (first ++ '$' :: text) =
      substituteFrom number arguments skip first ++ substitute arguments ('$' :: text) := by
  induction first generalizing skip with
  | nil =>
    obtain rfl := Nat.le_zero.1 h
    rfl
  | cons c first ih =>
    cases skip with
    | succ skip => exact ih (Nat.le_of_succ_le_succ h)
    | zero =>
      have hlength : (number first).length ≤ first.length := (List.takeWhile_prefix _).length_le
      rw [List.cons_append, substituteFrom, substituteFrom, number_append, ih hlength,
        ih (Nat.zero_le _)]
      cases argument? arguments (number first) with
      | some a => split <;> simp
      | none => split <;> simp

theorem infix_substitute {part : List Char} (h : text ∈ marks body)
    (hpart : part <:+: substitute arguments ('$' :: text)) :
    part <:+: substitute arguments body := by
  obtain ⟨first, rfl⟩ := mem_marks_iff.1 h
  rw [substitute, substituteFrom_append (Nat.zero_le _)]
  exact hpart.trans (List.suffix_append _ _).isInfix

theorem substituteFrom_eq_drop (read : List Char → List Char) (skip : Nat) :
    substituteFrom read arguments skip text = substituteFrom read arguments 0 (text.drop skip) := by
  induction skip generalizing text with
  | zero => rfl
  | succ skip ih =>
    cases text with
    | nil => rfl
    | cons c text => exact ih

theorem drop_length_number (text : List Char) :
    text.drop (number text).length = text.dropWhile Char.isDigit := by
  have hsplit : number text ++ text.dropWhile Char.isDigit = text :=
    List.takeWhile_append_dropWhile
  have hdrop : number text ++ text.drop (number text).length = text :=
    List.prefix_iff_eq_append.1 (List.takeWhile_prefix _)
  exact List.append_cancel_left (hdrop.trans hsplit.symm)

theorem eq_of_argument?_letters {digits : List Char} {a : String}
    (h : argument? (List.replicate n "z") digits = some a) : a = "z" :=
  List.eq_of_mem_replicate (mem_of_argument? h)

theorem head_substitute_letters (n : Nat) (text : List Char) {c : Char}
    (h : c ∈ (substitute (List.replicate n "z") (text.dropWhile Char.isDigit)).head?) :
    c.isDigit = false := by
  have hhead := List.head?_dropWhile_not Char.isDigit text
  cases hrest : text.dropWhile Char.isDigit with
  | nil =>
    rw [hrest] at h
    contradiction
  | cons d rest =>
    rw [hrest] at h hhead
    by_cases hd : d = '$'
    · subst hd
      cases ha : argument? (List.replicate n "z") (number rest) with
      | some a =>
        rw [substitute, substituteFrom_mark ha, eq_of_argument?_letters ha] at h
        cases h
        rfl
      | none =>
        rw [substitute, substituteFrom_mark_none ha] at h
        cases h
        rfl
    · rw [substitute, substituteFrom_cons hd] at h
      cases h
      exact hhead

theorem SingleDigits.cons_mark (hrest : SingleDigits n text)
    (hfirst : Names n (digit text) ∨ Names n (number text) → number text = digit text) :
    SingleDigits n ('$' :: text) := by
  intro other hother
  rw [marks, if_pos rfl] at hother
  rcases List.mem_cons.1 hother with rfl | hother
  · exact hfirst
  · exact hrest other hother

theorem number_eq_digit_of_letters
    (h : substituteFrom digit (List.replicate n "z") (digit text).length text =
      substituteFrom number (List.replicate n "z") (number text).length text) :
    number text = digit text := by
  obtain ⟨hnumber, hfirst⟩ | ⟨d, rest, rfl, -, hnumber, hfirst⟩ := digit_cases text
  · rw [hnumber, hfirst]
  · obtain ⟨hnil, -⟩ | ⟨e, others, rfl, he, -, -⟩ := digit_cases rest
    · rw [hnumber, hfirst, hnil]
    · -- the second digit is left over on one side, and no digit comes next on the other
      rw [hfirst, substituteFrom_eq_drop number, drop_length_number] at h
      have hnext : e ∈ (substitute (List.replicate n "z")
          ((d :: e :: others).dropWhile Char.isDigit)).head? := by
        rw [substitute, ← h]
        exact congrArg List.head? (substituteFrom_cons (ne_mark_of_isDigit he))
      rw [head_substitute_letters n _ hnext] at he
      contradiction

theorem substituteFrom_of_skipped (hsame : number text = digit text)
    (h : substituteFrom digit arguments (digit text).length text =
      substituteFrom number arguments (number text).length text) :
    substituteFrom digit arguments 0 text = substituteFrom number arguments 0 text := by
  rw [hsame] at h
  obtain ⟨-, hfirst⟩ | ⟨d, rest, rfl, hd, -, hfirst⟩ := digit_cases text
  · rwa [hfirst] at h
  · rw [hfirst] at h
    rw [substituteFrom_cons (ne_mark_of_isDigit hd), substituteFrom_cons (ne_mark_of_isDigit hd)]
    exact congrArg _ h

/-- One letter for each argument shows how many digits were taken for its number. -/
theorem singleDigits_of_letters
    (h : substituteFrom digit (List.replicate n "z") 0 body =
      substitute (List.replicate n "z") body) : SingleDigits n body := by
  induction body with
  | nil =>
    intro text ht
    contradiction
  | cons c text ih =>
    rw [substitute] at h ih
    by_cases hc : c = '$'
    · subst hc
      cases hx : argument? (List.replicate n "z") (digit text) with
      | none =>
        rw [substituteFrom_mark_none hx] at h
        cases hy : argument? (List.replicate n "z") (number text) with
        | none =>
          rw [substituteFrom_mark_none hy] at h
          rw [argument?_eq_none, List.length_replicate] at hx hy
          have hrest := ih (List.tail_eq_of_cons_eq h)
          exact hrest.cons_mark (fun hnames ↦ absurd hnames (not_or.2 ⟨hx, hy⟩))
        | some y =>
          rw [substituteFrom_mark hy, eq_of_argument?_letters hy] at h
          exact absurd (List.head_eq_of_cons_eq h) (by decide)
      | some x =>
        rw [substituteFrom_mark hx, eq_of_argument?_letters hx] at h
        cases hy : argument? (List.replicate n "z") (number text) with
        | none =>
          rw [substituteFrom_mark_none hy] at h
          exact absurd (List.head_eq_of_cons_eq h) (by decide)
        | some y =>
          rw [substituteFrom_mark hy, eq_of_argument?_letters hy] at h
          replace h := List.append_cancel_left h
          have hsame := number_eq_digit_of_letters h
          exact (ih (substituteFrom_of_skipped hsame h)).cons_mark (fun _ ↦ hsame)
    · rw [substituteFrom_cons hc, substituteFrom_cons hc] at h
      have hrest := ih (List.tail_eq_of_cons_eq h)
      intro other hother
      rw [marks, if_neg hc] at hother
      exact hrest other hother

theorem inert_letters (n : Nat) (body : List Char) : Inert (List.replicate n "z") body where
  plain _ _ a ha := by
    rw [eq_of_argument?_letters ha]
    decide
  apart _ _ _ a ha := ⟨'z', [], by rw [eq_of_argument?_letters ha]; rfl, rfl⟩

theorem singleDigits_of_fill
    (h : fill 1 (List.replicate n "z") body = substitute (List.replicate n "z") body) :
    SingleDigits n body := by
  apply singleDigits_of_letters
  rw [← h, fill_eq]
  rw [List.dropLast_replicate]
  exact inert_letters (n - 1) body

theorem SingleDigits.exists_probe (h : SingleDigits n body) (ht : text ∈ marks body)
    (hnames : Names (n - 1) (digit text)) :
    ∃ k m, (∀ a, (probe k m a).length = n) ∧
      ∀ a, argument? (probe k m a) (number text) = some a := by
  obtain ⟨hpos, hle⟩ := hnames
  have hnumber := h text ht (.inl ⟨hpos, by omega⟩)
  obtain ⟨k, hk⟩ := Nat.exists_eq_add_one.2 hpos
  refine ⟨k, n - k - 2, fun a ↦ ?_, fun a ↦ argument?_probe (hnumber ▸ hk) _ a⟩
  simp only [probe, List.length_append, List.length_replicate, List.length_cons]
  omega

theorem mark_not_mem_digits (k : Nat) : '$' ∉ Text.digits 10 k := by
  intro hmem
  exact ne_mark_of_isDigit (Nat.isDigit_of_mem_toDigits (by decide) (by decide) hmem) rfl

theorem mark_not_mem_probe {k m : Nat} {a : String} (h : '$' ∉ a.toList) :
    ∀ x ∈ probe k m a, '$' ∉ x.toList := by
  have hletter : '$' ∉ "z".toList := by decide
  intro x hx
  rcases List.mem_append.1 hx with hx | hx
  · rwa [List.eq_of_mem_replicate hx]
  · rcases List.mem_cons.1 hx with rfl | hx
    · exact h
    · rwa [List.eq_of_mem_replicate hx]

theorem SingleDigits.marksApart (hsingle : SingleDigits n body)
    (h : ∀ arguments : List String, arguments.length = n →
      (∀ a ∈ arguments, '$' ∉ a.toList) → fill 1 arguments body = substitute arguments body) :
    MarksApart n body := by
  intro text ht hhead hnames
  obtain ⟨k, m, hlength, hargument⟩ :=
    hsingle.exists_probe (tail_mem_marks ht hhead) hnames
  have hodd := hargument (String.ofList (Text.digits 10 (k + 2)))
  apply not_infix_fill_probe k m (String.ofList (Text.digits 10 (k + 2))) body
  rw [h _ (hlength _) (mark_not_mem_probe (by simp [mark_not_mem_digits]))]
  apply infix_substitute ht
  obtain ⟨rest, rfl⟩ := List.head?_eq_some_iff.1 hhead
  rw [List.tail_cons] at hodd
  rw [substitute, substituteFrom_mark_none rfl, substituteFrom_mark hodd, String.toList_ofList,
    ← List.cons_append]
  exact (List.prefix_append _ _).isInfix

theorem SingleDigits.onlyLast (hsingle : SingleDigits n body)
    (h : ∀ arguments : List String, arguments.length = n →
      fill 1 arguments body = substitute arguments body) :
    OnlyLast n body := by
  intro text ht hnames
  obtain ⟨k, m, hlength, hargument⟩ := hsingle.exists_probe ht hnames
  have hodd := hargument (String.ofList (placeholder (k + 2)))
  apply not_infix_fill_probe k m (String.ofList (placeholder (k + 2))) body
  rw [h _ (hlength _)]
  apply infix_substitute ht
  rw [substitute, substituteFrom_mark hodd, String.toList_ofList]
  exact (List.prefix_append _ _).isInfix

end Necessary

end PepAsm.Macro

namespace PepAsm.MacroRegistry

open PepAsm.Macro

variable {r : MacroRegistry} {name body : String} {arguments : List String}

theorem instantiate_eq (h : r.get? name = some ⟨arguments.length, body⟩) :
    r.instantiate name arguments = .ok (String.ofList (fill 1 arguments body.toList)) := by
  rw [instantiate, h]
  exact if_pos rfl

theorem instantiate_eq_iff (h : r.get? name = some ⟨arguments.length, body⟩) {text : List Char} :
    r.instantiate name arguments = .ok (String.ofList text) ↔
      fill 1 arguments body.toList = text := by
  rw [instantiate_eq h, Except.ok.injEq, String.ofList_inj]

/-- A macro always has a text. It is the body with the arguments put in for their placeholders
all at once, for all arguments without a `$`, exactly if each mark has one digit and no `$` stands
before the mark of an argument other than the last. It is so for all arguments whatsoever exactly
if each mark has one digit and none belongs to an argument other than the last. -/
theorem instantiate_simultaneous {n : Nat} (h : r.get? name = some ⟨n, body⟩) :
    (∀ arguments : List String, arguments.length = n →
      ∃ text, r.instantiate name arguments = .ok text) ∧
    ((∀ arguments : List String, arguments.length = n → (∀ a ∈ arguments, '$' ∉ a.toList) →
        r.instantiate name arguments = .ok (String.ofList (substitute arguments body.toList))) ↔
      SingleDigits n body.toList ∧ MarksApart n body.toList) ∧
    ((∀ arguments : List String, arguments.length = n →
        r.instantiate name arguments = .ok (String.ofList (substitute arguments body.toList))) ↔
      SingleDigits n body.toList ∧ OnlyLast n body.toList) := by
  have hletters : ∀ a ∈ List.replicate n "z", '$' ∉ a.toList := by
    intro a ha
    rw [List.eq_of_mem_replicate ha]
    decide
  refine ⟨?_, ⟨fun hall ↦ ?_, ?_⟩, ⟨fun hall ↦ ?_, ?_⟩⟩
  · rintro arguments rfl
    exact ⟨_, instantiate_eq h⟩
  · have hfill : ∀ arguments : List String, arguments.length = n →
        (∀ a ∈ arguments, '$' ∉ a.toList) →
        fill 1 arguments body.toList = substitute arguments body.toList := by
      rintro arguments rfl hplain
      exact (instantiate_eq_iff h).1 (hall arguments rfl hplain)
    have hsingle := singleDigits_of_fill (hfill _ List.length_replicate hletters)
    exact ⟨hsingle, hsingle.marksApart hfill⟩
  · rintro ⟨hsingle, hapart⟩ arguments rfl hplain
    exact (instantiate_eq_iff h).2 (fill_eq_substitute hsingle (hapart.inert hplain))
  · have hfill : ∀ arguments : List String, arguments.length = n →
        fill 1 arguments body.toList = substitute arguments body.toList := by
      rintro arguments rfl
      exact (instantiate_eq_iff h).1 (hall arguments rfl)
    have hsingle := singleDigits_of_fill (hfill _ List.length_replicate)
    exact ⟨hsingle, hsingle.onlyLast hfill⟩
  · rintro ⟨hsingle, hlast⟩ arguments rfl
    exact (instantiate_eq_iff h).2 (fill_eq_substitute hsingle hlast.inert)

theorem instantiate_simultaneous_system :
    (empty.addSystem.get? "DECI" = some ⟨(2 : Nat), "LDWA DECI,i\nSCALL $1,$2\n"⟩) ∧
    SingleDigits 2 "LDWA DECI,i\nSCALL $1,$2\n".toList ∧
    (∀ arguments : List String, arguments.length = 2 → (∀ a ∈ arguments, '$' ∉ a.toList) →
      empty.addSystem.instantiate "DECI" arguments =
        .ok (String.ofList (substitute arguments "LDWA DECI,i\nSCALL $1,$2\n".toList))) ∧
    ¬∀ arguments : List String, arguments.length = 2 →
      empty.addSystem.instantiate "DECI" arguments =
        .ok (String.ofList (substitute arguments "LDWA DECI,i\nSCALL $1,$2\n".toList)) := by
  have hget : empty.addSystem.get? "DECI" = some ⟨(2 : Nat), "LDWA DECI,i\nSCALL $1,$2\n"⟩ := by
    decide
  obtain ⟨-, hplain, hall⟩ := instantiate_simultaneous hget
  have hsingle : SingleDigits 2 "LDWA DECI,i\nSCALL $1,$2\n".toList := by decide
  refine ⟨hget, hsingle, hplain.2 ⟨hsingle, by decide⟩, fun h ↦ ?_⟩
  exact absurd (hall.1 h).2 (by decide)

/-- The mark of the tenth argument begins like that of the first, and an argument can bring a mark
of its own. -/
theorem instantiate_not_simultaneous :
    (empty.insert "M" ⟨10, "$10"⟩).instantiate "M"
        ["a", "b", "c", "d", "e", "f", "g", "h", "i", "j"] = .ok "a0" ∧
      substitute ["a", "b", "c", "d", "e", "f", "g", "h", "i", "j"] "$10".toList = "j".toList ∧
    (empty.insert "M" ⟨2, "$1"⟩).instantiate "M" ["$2", "b"] = .ok "b" ∧
      substitute ["$2", "b"] "$1".toList = "$2".toList := by
  refine ⟨rfl, rfl, rfl, rfl⟩

end PepAsm.MacroRegistry
