import PepAsm.Macro
import PepAsm.Proofs.Scan.Numeral
import Mathlib.Data.List.Infix

namespace PepAsm.Macro

open PepAsm.Scan

def number (text : List Char) : List Char :=
  text.takeWhile Char.isDigit

def digit (text : List Char) : List Char :=
  (number text).take 1

/-- A number is that of one of the first `n` arguments. The first of them is number one. -/
def Names (n : Nat) (digits : List Char) : Prop :=
  0 < decimalFrom 0 digits ∧ decimalFrom 0 digits ≤ n

instance (n : Nat) (digits : List Char) : Decidable (Names n digits) :=
  inferInstanceAs (Decidable (_ ∧ _))

def argument? (arguments : List String) (digits : List Char) : Option String :=
  match decimalFrom 0 digits with
  | 0 => none
  | k + 1 => arguments[k]?

/-- Puts arguments in for their numbers after a `$`, all of them at once. The digits of a number
are those that `read` finds in front of a text. The first `skip` characters are left out. -/
def substituteFrom (read : List Char → List Char) (arguments : List String) :
    Nat → List Char → List Char
  | _, [] => []
  | skip + 1, _ :: text => substituteFrom read arguments skip text
  | 0, c :: text =>
    if c = '$' then
      match argument? arguments (read text) with
      | some a => a.toList ++ substituteFrom read arguments (read text).length text
      | none => c :: substituteFrom read arguments 0 text
    else c :: substituteFrom read arguments 0 text

def substitute (arguments : List String) (body : List Char) : List Char :=
  substituteFrom number arguments 0 body

def marks : List Char → List (List Char)
  | [] => []
  | c :: text => if c = '$' then text :: marks text else marks text

section Marks

variable {body text : List Char}

theorem mem_marks_iff : text ∈ marks body ↔ ∃ first, body = first ++ '$' :: text := by
  induction body with
  | nil => simp [marks]
  | cons c body ih =>
    have hsplit : (∃ first, c :: body = first ++ '$' :: text) ↔
        c = '$' ∧ text = body ∨ ∃ first, body = first ++ '$' :: text := by
      constructor
      · rintro ⟨_ | ⟨d, first⟩, h⟩
        · cases h
          exact .inl ⟨rfl, rfl⟩
        · exact .inr ⟨first, List.tail_eq_of_cons_eq h⟩
      · rintro (⟨rfl, rfl⟩ | ⟨first, rfl⟩)
        · exact ⟨[], rfl⟩
        · exact ⟨c :: first, rfl⟩
    rw [hsplit, ← ih, marks]
    by_cases hc : c = '$' <;> simp [hc]

theorem mem_marks_cons {c : Char} (h : text ∈ marks body) : text ∈ marks (c :: body) := by
  obtain ⟨first, rfl⟩ := mem_marks_iff.1 h
  exact mem_marks_iff.2 ⟨c :: first, rfl⟩

theorem self_mem_marks : text ∈ marks ('$' :: text) :=
  mem_marks_iff.2 ⟨[], rfl⟩

theorem tail_mem_marks (h : text ∈ marks body) (hhead : text.head? = some '$') :
    text.tail ∈ marks body := by
  obtain ⟨first, rfl⟩ := mem_marks_iff.1 h
  obtain ⟨rest, rfl⟩ := List.head?_eq_some_iff.1 hhead
  exact mem_marks_iff.2 ⟨first ++ ['$'], by simp⟩

end Marks

section Arguments

variable {arguments more : List String} {digits : List Char} {x : String} {n : Nat}

theorem argument?_eq_none : argument? arguments digits = none ↔ ¬Names arguments.length digits := by
  unfold argument? Names
  cases decimalFrom 0 digits with
  | zero => simp
  | succ k =>
    rw [List.getElem?_eq_none_iff]
    omega

theorem argument?_append (h : argument? arguments digits = some x) :
    argument? (arguments ++ more) digits = some x := by
  unfold argument? at h ⊢
  split at h
  · contradiction
  · rename_i k hk
    obtain ⟨hlt, -⟩ := List.getElem?_eq_some_iff.1 h
    rw [List.getElem?_append_left hlt]
    exact h

theorem ne_mark_of_isDigit {c : Char} (h : c.isDigit = true) : c ≠ '$' := by
  rintro rfl
  contradiction

theorem digit_cases (text : List Char) :
    (number text = [] ∧ digit text = []) ∨
      ∃ c rest, text = c :: rest ∧ c.isDigit = true ∧ number text = c :: number rest ∧
        digit text = [c] := by
  cases text with
  | nil => exact .inl ⟨rfl, rfl⟩
  | cons c rest =>
    by_cases hc : c.isDigit = true
    · exact .inr ⟨c, rest, rfl, hc, by simp [number, hc], by simp [digit, number, hc]⟩
    · exact .inl ⟨by simp [number, hc], by simp [digit, number, hc]⟩

end Arguments

section Substitute

variable {read : List Char → List Char} {arguments : List String} {text : List Char} {c : Char}

theorem substituteFrom_cons (hc : c ≠ '$') :
    substituteFrom read arguments 0 (c :: text) = c :: substituteFrom read arguments 0 text :=
  if_neg hc

theorem substituteFrom_mark {a : String} (h : argument? arguments (read text) = some a) :
    substituteFrom read arguments 0 ('$' :: text) =
      a.toList ++ substituteFrom read arguments (read text).length text := by
  rw [substituteFrom, if_pos rfl, h]

theorem substituteFrom_mark_none (h : argument? arguments (read text) = none) :
    substituteFrom read arguments 0 ('$' :: text) = '$' :: substituteFrom read arguments 0 text := by
  rw [substituteFrom, if_pos rfl, h]

theorem substituteFrom_nil (read : List Char → List Char) (body : List Char) :
    substituteFrom read [] 0 body = body := by
  induction body with
  | nil => rfl
  | cons c text ih =>
    have hnone : argument? [] (read text) = none := by
      rw [argument?_eq_none, Names, List.length_nil]
      omega
    rw [substituteFrom, hnone, ih]
    exact ite_self _

end Substitute

section Replace

variable {pattern new text : List Char} {c : Char}

theorem replaceFrom_eq_drop (skip : Nat) :
    replaceFrom pattern new skip text = replace pattern new (text.drop skip) := by
  induction skip generalizing text with
  | zero => rfl
  | succ skip ih =>
    cases text with
    | nil => rfl
    | cons c text => exact ih

theorem replace_pattern_append (hne : pattern ≠ []) (text : List Char) :
    replace pattern new (pattern ++ text) = new ++ replace pattern new text := by
  obtain ⟨c, others, rfl⟩ := List.exists_cons_of_ne_nil hne
  have hbegins : (c :: others).isPrefixOf (c :: (others ++ text)) = true := by
    simp
  rw [replace, List.cons_append, replaceFrom, if_pos hbegins, replaceFrom_eq_drop]
  simp

theorem replace_cons (h : ¬pattern <+: c :: text) :
    replace pattern new (c :: text) = c :: replace pattern new text := by
  rw [replace, replaceFrom, if_neg (by simpa using h)]
  rfl

theorem replace_append {first : List Char} (h : '$' ∉ first) (digits text : List Char) :
    replace ('$' :: digits) new (first ++ text) = first ++ replace ('$' :: digits) new text := by
  induction first with
  | nil => rfl
  | cons c first ih =>
    rw [List.mem_cons, not_or] at h
    rw [List.cons_append, replace_cons (by simp [List.cons_prefix_cons, h.1]), ih h.2]
    rfl

end Replace

section Digits

theorem digits_digitValue {c : Char} (h : c.isDigit = true) :
    Text.digits 10 (digitValue c) = [c] := by
  obtain ⟨d, hd, rfl⟩ := exists_digitChar h
  have hvalue : digitValue (Nat.digitChar d) = d := by
    rw [digitValue, Nat.toNat_digitChar_of_lt_ten hd]
    exact Nat.add_sub_cancel_left 48 d
  rw [hvalue]
  exact Nat.toDigits_of_lt_base hd

theorem digits_eq_cons (n : Nat) :
    ∃ d ds, Text.digits 10 (n + 1) = d :: ds ∧ d.isDigit = true ∧ Names (n + 1) [d] := by
  induction n using Nat.strong_induction_on with
  | h n ih =>
    by_cases hn : n + 1 < 10
    · have hone : Text.digits 10 (n + 1) = [Nat.digitChar (n + 1)] := Nat.toDigits_of_lt_base hn
      refine ⟨_, [], hone, ?_, ?_⟩
      · exact Nat.isDigit_of_mem_toDigits (by decide) (by decide)
          (hone ▸ List.mem_singleton_self _)
      · have hvalue := decimalFrom_digits (n + 1)
        rw [hone] at hvalue
        exact ⟨by omega, by omega⟩
    · have hmore : Text.digits 10 (n + 1) =
          Text.digits 10 ((n + 1) / 10) ++ [Nat.digitChar ((n + 1) % 10)] :=
        Nat.toDigits_of_base_le (by decide) (by omega)
      obtain ⟨d, ds, hds, hdigit, hpos, hle⟩ := ih ((n + 1) / 10 - 1) (by omega)
      rw [show (n + 1) / 10 - 1 + 1 = (n + 1) / 10 by omega] at hds hle
      exact ⟨d, _, by rw [hmore, hds]; rfl, hdigit, hpos, by omega⟩

end Digits

section Step

/-- Nothing that these arguments put into a body is taken for a mark of a later one. -/
structure Inert (arguments : List String) (body : List Char) : Prop where
  plain : ∀ text ∈ marks body, ∀ a ∈ argument? arguments (digit text), '$' ∉ a.toList
  apart : ∀ text ∈ marks body, text.head? = some '$' →
    ∀ a ∈ argument? arguments (digit text.tail), ∃ c others, a.toList = c :: others ∧
      c.isDigit = false

variable {arguments more : List String} {body text : List Char} {a : String} {c : Char}

theorem Inert.tail (h : Inert arguments (c :: body)) : Inert arguments body where
  plain text ht := h.plain text (mem_marks_cons ht)
  apart text ht := h.apart text (mem_marks_cons ht)

theorem Inert.of_append (h : Inert (arguments ++ more) body) : Inert arguments body where
  plain text ht a ha := h.plain text ht a (argument?_append ha)
  apart text ht hhead a ha := h.apart text ht hhead a (argument?_append ha)

theorem argument?_concat {digits : List Char} {x : String}
    (hnone : argument? arguments digits = none)
    (hsome : argument? (arguments ++ [a]) digits = some x) :
    decimalFrom 0 digits = arguments.length + 1 ∧ x = a := by
  unfold argument? at hnone hsome
  split at hsome
  · contradiction
  · rename_i k hk
    rw [hk] at hnone
    have hlast : k = arguments.length := by
      have hge := List.getElem?_eq_none_iff.1 hnone
      obtain ⟨hlt, -⟩ := List.getElem?_eq_some_iff.1 hsome
      simp only [List.length_append, List.length_singleton] at hlt
      omega
    subst hlast
    rw [List.getElem?_concat_length] at hsome
    exact ⟨hk, (Option.some.inj hsome).symm⟩

theorem placeholder_of_argument?_concat {x : String}
    (hnone : argument? arguments (digit text) = none)
    (hsome : argument? (arguments ++ [a]) (digit text) = some x) :
    x = a ∧ ∃ d rest, text = d :: rest ∧ d.isDigit = true ∧ digit text = [d] ∧
      placeholder (arguments.length + 1) = ['$', d] := by
  obtain ⟨hvalue, hx⟩ := argument?_concat hnone hsome
  obtain ⟨-, hnil⟩ | ⟨d, rest, rfl, hd, -, hfirst⟩ := digit_cases text
  · rw [hnil] at hvalue
    contradiction
  · refine ⟨hx, d, rest, rfl, hd, hfirst, ?_⟩
    rw [hfirst, decimalFrom_cons] at hvalue
    rw [placeholder, ← hvalue]
    exact congrArg _ (digits_digitValue hd)

/-- A `$` that is no mark of the new argument is not made one by the arguments before it. -/
theorem not_digits_prefix_substituteFrom
    (hapart : text.head? = some '$' → ∀ x ∈ argument? arguments (digit text.tail),
      ∃ c others, x.toList = c :: others ∧ c.isDigit = false)
    (hnone : argument? (arguments ++ [a]) (digit text) = none) :
    ¬Text.digits 10 (arguments.length + 1) <+: substituteFrom digit arguments 0 text := by
  obtain ⟨d, ds, hds, hdigit, hnames⟩ := digits_eq_cons arguments.length
  rw [hds]
  intro hbegins
  cases text with
  | nil => simp [substituteFrom] at hbegins
  | cons c text =>
    by_cases hc : c = '$'
    · subst hc
      cases hx : argument? arguments (digit text) with
      | some x =>
        -- the text of an argument comes next, and it begins with no digit
        obtain ⟨e, others, hx', he⟩ := hapart rfl x hx
        rw [substituteFrom_mark hx, hx', List.cons_append, List.cons_prefix_cons] at hbegins
        rw [hbegins.1, he] at hdigit
        contradiction
      | none =>
        rw [substituteFrom_mark_none hx, List.cons_prefix_cons] at hbegins
        rw [hbegins.1] at hdigit
        contradiction
    · -- the next character of the body would be the first digit of the new argument's number
      rw [substituteFrom_cons hc, List.cons_prefix_cons] at hbegins
      obtain ⟨rfl, -⟩ := hbegins
      have hfirst : digit (d :: text) = [d] := by simp [digit, number, hdigit]
      rw [hfirst, argument?_eq_none, List.length_append, List.length_singleton] at hnone
      exact hnone hnames

theorem replace_substituteFrom (h : Inert arguments body) (a : String) (skip : Nat) :
    replace (placeholder (arguments.length + 1)) a.toList
        (substituteFrom digit arguments skip body) =
      substituteFrom digit (arguments ++ [a]) skip body := by
  induction body generalizing skip with
  | nil => rfl
  | cons c text ih =>
    cases skip with
    | succ skip => exact ih h.tail skip
    | zero =>
      by_cases hc : c = '$'
      · subst hc
        cases hx : argument? arguments (digit text) with
        | some x =>
          have hplain := h.plain text self_mem_marks x hx
          rw [substituteFrom_mark hx, substituteFrom_mark (argument?_append hx), ← ih h.tail]
          exact replace_append hplain _ _
        | none =>
          rw [substituteFrom_mark_none hx]
          cases hy : argument? (arguments ++ [a]) (digit text) with
          | some y =>
            -- the mark of the new argument, which then has one digit
            obtain ⟨rfl, d, rest, rfl, hd, hfirst, hmark⟩ := placeholder_of_argument?_concat hx hy
            rw [substituteFrom_mark hy, ← ih h.tail, hmark,
              substituteFrom_cons (ne_mark_of_isDigit hd), hfirst]
            exact replace_pattern_append (List.cons_ne_nil _ _) _
          | none =>
            have hnot := not_digits_prefix_substituteFrom (h.apart text self_mem_marks) hy
            rw [substituteFrom_mark_none hy, replace_cons, ih h.tail]
            simpa [placeholder, List.cons_prefix_cons] using hnot
      · rw [substituteFrom_cons hc, substituteFrom_cons hc, replace_cons, ih h.tail]
        simp [placeholder, List.cons_prefix_cons, Ne.symm hc]

theorem fill_substituteFrom (arguments : List String)
    (h : Inert (arguments ++ more.dropLast) body) :
    fill (arguments.length + 1) more (substituteFrom digit arguments 0 body) =
      substituteFrom digit (arguments ++ more) 0 body := by
  -- on the arguments to come, with those before them in the body already
  induction more generalizing arguments with
  | nil => rw [List.append_nil, fill]
  | cons a more ih =>
    have hconcat : (arguments ++ [a]).length = arguments.length + 1 := by simp
    rw [fill, replace_substituteFrom h.of_append, List.append_cons arguments a more, ← hconcat]
    cases more with
    | nil => rw [List.append_nil, fill]
    | cons b more =>
      apply ih
      rwa [← List.append_cons]

theorem fill_eq (h : Inert arguments.dropLast body) :
    fill 1 arguments body = substituteFrom digit arguments 0 body := by
  have hfill := fill_substituteFrom [] h
  rwa [substituteFrom_nil] at hfill

end Step

end PepAsm.Macro
