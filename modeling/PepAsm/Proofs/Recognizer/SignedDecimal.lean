import PepAsm.Recognizer.SignedDecimal
import PepAsm.Proofs.Text.Positional

namespace PepAsm.Recognizer.SignedDecimal

open PepAsm.Text

def firstLine (text : List Char) : List Char :=
  text.takeWhile (· != '\n')

def offender? (digits : List Char) : Option Char :=
  digits.find? fun c ↦ !isDecimal c

def decimalNumber (digits : List Char) : Nat :=
  numeral 10 (fun c ↦ (decimalValue? c).getD 0) digits

def verdict (sign : Int) (digits : List Char) : Verdict :=
  match offender? digits with
  | some c => if isDigit c then .valueless c else .rejected
  | none => if digits.isEmpty then .rejected else .accepted (sign * decimalNumber digits)

section Character

variable {c : Char} {text : List Char}

theorem firstLine_cons (hc : c ≠ '\n') : firstLine (c :: text) = c :: firstLine text := by
  rw [firstLine, List.takeWhile_cons_of_pos (by simpa using hc), firstLine]

theorem ne_break_of_isDigit (h : isDigit c = true) : c ≠ '\n' := by
  intro hc
  subst hc
  contradiction

theorem offender?_nil : offender? [] = none := by
  simp [offender?]

theorem offender?_cons_of_isDecimal (h : isDecimal c = true) :
    offender? (c :: text) = offender? text := by
  simp [offender?, h]

theorem offender?_cons_of_not (h : isDecimal c = false) : offender? (c :: text) = some c := by
  simp [offender?, h]

theorem offender?_eq_none : offender? text = none ↔ ∀ c ∈ text, isDecimal c = true := by
  simp [offender?]

theorem isDecimal_of_not_isDigit (h : ¬isDigit c = true) : isDecimal c = false := by
  rw [← Bool.not_eq_true]
  intro hc
  exact h (isDigit_of_isDecimal hc)

end Character

/-- The digits of the line go on with the number so far, up to the first that has no value. -/
theorem magnitude_eq (sign : Int) (m : Nat) (text : List Char) :
    magnitude sign m text =
      match offender? (firstLine text) with
      | some c => if isDigit c then .valueless c else .rejected
      | none => .accepted (sign *
          ((firstLine text).foldl (fun n c ↦ 10 * n + (decimalValue? c).getD 0) m : Nat)) := by
  fun_induction magnitude sign m text with
  | case1 m => rfl
  | case2 m c cs hdigit d hd ih =>
    have hdecimal : isDecimal c = true := by simp [isDecimal, hd]
    rw [firstLine_cons (ne_break_of_isDigit hdigit), offender?_cons_of_isDecimal hdecimal,
      List.foldl_cons, hd]
    exact ih
  | case3 m c cs hdigit hd =>
    have hdecimal : isDecimal c = false := by simp [isDecimal, hd]
    rw [firstLine_cons (ne_break_of_isDigit hdigit), offender?_cons_of_not hdecimal]
    exact (if_pos hdigit).symm
  | case4 m cs hdigit => rfl
  | case5 m c cs hdigit hc =>
    rw [firstLine_cons hc, offender?_cons_of_not (isDecimal_of_not_isDigit hdigit)]
    exact (if_neg hdigit).symm

theorem firstDigit_eq (sign : Int) (text : List Char) :
    firstDigit sign text =
      if (firstLine text).isEmpty then .rejected else magnitude sign 0 text := by
  cases text with
  | nil => rfl
  | cons c cs =>
    by_cases hc : c = '\n'
    · subst hc
      rfl
    · rw [firstLine_cons hc, firstDigit, magnitude]
      simp [hc]

theorem firstDigit_eq_verdict (sign : Int) (text : List Char) :
    firstDigit sign text = verdict sign (firstLine text) := by
  rw [firstDigit_eq, magnitude_eq, verdict, decimalNumber, numeral_eq_foldl]
  cases hline : firstLine text with
  | nil => rfl
  | cons c line => rfl

theorem run_eq_firstDigit (text : List Char) :
    run text = firstDigit (splitSign text).1 (splitSign text).2 := by
  fun_cases splitSign text with
  | case1 text => rw [run]
  | case2 text => rw [run]
  | case3 text hplus hminus => rw [run.eq_3 text hplus hminus]

theorem splitSign_firstLine (text : List Char) :
    splitSign (firstLine text) = ((splitSign text).1, firstLine (splitSign text).2) := by
  cases text with
  | nil => rfl
  | cons c text =>
    by_cases hbreak : c = '\n'
    · subst hbreak
      rfl
    · rw [firstLine_cons hbreak]
      by_cases hplus : c = '+'
      · subst hplus
        rfl
      by_cases hminus : c = '-'
      · subst hminus
        rfl
      rw [splitSign_of_ne hplus hminus, splitSign_of_ne hplus hminus, firstLine_cons hbreak]

theorem recognize_eq_verdict (text : String) :
    recognize text =
      verdict (splitSign (firstLine text.toList)).1 (splitSign (firstLine text.toList)).2 := by
  rw [recognize, run_eq_firstDigit, firstDigit_eq_verdict, splitSign_firstLine]

section Verdict

variable {sign v : Int} {c : Char} {digits : List Char}

theorem verdict_of_offender (h : offender? digits = some c) :
    verdict sign digits = if isDigit c then .valueless c else .rejected := by
  rw [verdict, h]

theorem verdict_of_decimals (hne : digits ≠ []) (h : offender? digits = none) :
    verdict sign digits = .accepted (sign * decimalNumber digits) := by
  rw [verdict, h]
  simp [hne]

theorem verdict_eq_accepted : verdict sign digits = .accepted v ↔
    digits ≠ [] ∧ (∀ c ∈ digits, isDecimal c = true) ∧ v = sign * decimalNumber digits := by
  rw [← offender?_eq_none]
  constructor
  · intro h
    cases hoff : offender? digits with
    | some c =>
      rw [verdict_of_offender hoff] at h
      split at h
      · contradiction
      · contradiction
    | none =>
      have hne : digits ≠ [] := by
        intro hnil
        simp [hnil, verdict, offender?_nil] at h
      rw [verdict_of_decimals hne hoff] at h
      exact ⟨hne, rfl, (Verdict.accepted.inj h).symm⟩
  · intro h
    obtain ⟨hne, hoff, hv⟩ := h
    rw [verdict_of_decimals hne hoff, hv]

theorem verdict_eq_valueless : verdict sign digits = .valueless c ↔
    offender? digits = some c ∧ isDigit c = true := by
  cases hoff : offender? digits with
  | some d =>
    rw [verdict_of_offender hoff]
    by_cases hd : isDigit d
    · rw [if_pos hd]
      grind
    · rw [if_neg hd]
      grind
  | none =>
    by_cases hne : digits = []
    · simp [hne, verdict, offender?_nil]
    · simp [verdict_of_decimals hne hoff]

theorem verdict_eq_rejected : verdict sign digits = .rejected ↔
    digits = [] ∨ ∃ c, offender? digits = some c ∧ isDigit c = false := by
  cases hoff : offender? digits with
  | some c =>
    have hne : digits ≠ [] := by
      intro hnil
      simp [hnil, offender?_nil] at hoff
    simp [verdict_of_offender hoff, hne]
  | none =>
    by_cases hne : digits = []
    · simp [hne, verdict, offender?_nil]
    · simp [verdict_of_decimals hne hoff, hne]

end Verdict

theorem recognize_eq_accepted {text : String} {v : Int} :
    recognize text = .accepted v ↔
      signedNotation? decimalValue? (firstLine text.toList) = some v := by
  rw [recognize_eq_verdict, verdict_eq_accepted, signedNotation?_eq_some]
  constructor
  · intro h
    obtain ⟨hne, hdecimal, hv⟩ := h
    exact ⟨_, positional?_eq_some.2 ⟨hne, hdecimal, rfl⟩, hv.symm⟩
  · intro h
    obtain ⟨n, hn, hv⟩ := h
    obtain ⟨hne, hdecimal, hvalue⟩ := positional?_eq_some.1 hn
    exact ⟨hne, hdecimal, by rw [← hv, ← hvalue, decimalNumber]⟩

inductive State
  | start
  | signed (sign : Int)
  | digits (sign : Int) (number : Nat)

inductive Turn
  | goOn (q : State)
  | halt (verdict : Verdict)

def Turn.digit (c : Char) (next : Nat → State) : Turn :=
  match decimalValue? c with
  | some d => .goOn (next d)
  | none => .halt (.valueless c)

def State.turn (c : Char) : State → Turn
  | .start =>
    if c = '+' then .goOn (.signed 1)
    else if c = '-' then .goOn (.signed (-1))
    else if isDigit c then .digit c (.digits 1)
    else .halt .rejected
  | .signed sign => if isDigit c then .digit c (.digits sign) else .halt .rejected
  | .digits sign m =>
    if isDigit c then .digit c fun d ↦ .digits sign (10 * m + d)
    else if c = '\n' then .halt (.accepted (sign * m))
    else .halt .rejected

/-- The automaton takes one character a turn. It has no verdict on a text if it asks for a character
after the end of the text. -/
def State.scan : State → List Char → Option Verdict
  | _, [] => none
  | q, c :: text =>
    match q.turn c with
    | .goOn next => next.scan text
    | .halt verdict => some verdict

theorem scan_digits (sign : Int) (m : Nat) (text more : List Char) :
    (State.digits sign m).scan (text ++ '\n' :: more) = some (magnitude sign m text) := by
  fun_induction magnitude sign m text with
  | case1 m => rfl
  | case2 m c cs hdigit d hd ih => simpa [State.scan, State.turn, Turn.digit, hdigit, hd] using ih
  | case3 m c cs hdigit hd => simp [State.scan, State.turn, Turn.digit, hdigit, hd]
  | case4 m cs hdigit => rfl
  | case5 m c cs hdigit hc => simp [State.scan, State.turn, hdigit, hc]

theorem scan_signed (sign : Int) (text more : List Char) :
    (State.signed sign).scan (text ++ '\n' :: more) = some (firstDigit sign text) := by
  fun_cases firstDigit sign text with
  | case1 => rfl
  | case2 c cs hdigit d hd =>
    simpa [State.scan, State.turn, Turn.digit, hdigit, hd] using scan_digits sign d cs more
  | case3 c cs hdigit hd => simp [State.scan, State.turn, Turn.digit, hdigit, hd]
  | case4 c cs hdigit => simp [State.scan, State.turn, hdigit]

/-- Without a sign the automaton starts as if it had read a plus. -/
theorem turn_start {c : Char} (hplus : c ≠ '+') (hminus : c ≠ '-') :
    State.start.turn c = (State.signed 1).turn c := by
  simp [State.turn, hplus, hminus]

theorem scan_start (text more : List Char) :
    State.start.scan (text ++ '\n' :: more) = some (run text) := by
  fun_cases run text with
  | case1 cs => exact scan_signed 1 cs more
  | case2 cs => exact scan_signed (-1) cs more
  | case3 _ hplus hminus =>
    rw [← scan_signed 1 text more]
    cases text with
    | nil => rfl
    | cons c cs =>
      have hturn : State.start.turn c = (State.signed 1).turn c := by
        apply turn_start
        · intro hc
          exact hplus cs (by rw [hc])
        · intro hc
          exact hminus cs (by rw [hc])
      rw [List.cons_append, State.scan, State.scan, hturn]

/-- A text is judged by its first line: after the sign there have to be digits and nothing else, each
of them with a value. The automaton comes to this verdict with the break that ends the line, or
before. -/
theorem recognize_first_line (text : String) :
    ∃ sign digits, splitSign (firstLine text.toList) = (sign, digits) ∧
      (∀ v, recognize text = .accepted v ↔
        digits ≠ [] ∧ (∀ c ∈ digits, isDecimal c = true) ∧ v = sign * decimalNumber digits) ∧
      (∀ c, recognize text = .valueless c ↔ offender? digits = some c ∧ isDigit c = true) ∧
      (recognize text = .rejected ↔
        digits = [] ∨ ∃ c, offender? digits = some c ∧ isDigit c = false) ∧
      ∀ more, State.start.scan (text.toList ++ '\n' :: more) = some (recognize text) := by
  rw [recognize_eq_verdict]
  refine ⟨_, _, rfl, ?_, ?_, verdict_eq_rejected, ?_⟩
  · intro v
    exact verdict_eq_accepted
  · intro c
    exact verdict_eq_valueless
  · intro more
    rw [scan_start, ← recognize_eq_verdict, recognize]

example : splitSign (firstLine "10".toList) = (1, ['1', '0']) ∧
    decimalNumber ['1', '0'] = 10 ∧ recognize "10" = .accepted 10 := by
  decide

end PepAsm.Recognizer.SignedDecimal
