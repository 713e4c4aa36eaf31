import PepAsm.Proofs.Assembly.Encoding
import PepAsm.Proofs.Assembly.Printing

namespace PepAsm

namespace Text

open PepAsm.Scan

theorem toUpper_ne_space {c : Char} (h : isHexDigit c = true) : c.toUpper ≠ ' ' := by
  have hall : ∀ n < 128, isHexDigit (Char.ofNat n) = true → (Char.ofNat n).toUpper ≠ ' ' := by
    decide
  have hc := hall c.toNat (toNat_lt_of_isHexDigit h)
  rw [Char.ofNat_toNat] at hc
  exact hc h

theorem isHexDigit_of_mem_leftpad {width n : Nat} {c : Char}
    (h : c ∈ (digits 16 n).leftpad width '0') : isHexDigit c = true := by
  rcases List.mem_append.1 h with h | h
  · rw [List.eq_of_mem_replicate h]
    decide
  · exact (hexadecimalOf_digits n).1 c h

theorem space_not_mem_hexadecimal (width : Nat) (n : Int) :
    ' ' ∉ (hexadecimal width n).map Char.toUpper := by
  rw [List.mem_map]
  rintro ⟨c, hc, hspace⟩
  refine toUpper_ne_space ?_ hspace
  unfold hexadecimal at hc
  split at hc
  · rcases List.mem_cons.1 hc with rfl | hc
    · contradiction
    · exact isHexDigit_of_mem_leftpad hc
  · exact isHexDigit_of_mem_leftpad hc

theorem le_length_hexadecimal (width : Nat) (n : Int) :
    width ≤ ((hexadecimal width n).map Char.toUpper).length := by
  unfold hexadecimal
  split
  · simp only [List.length_map, List.length_cons, List.length_leftpad]
    omega
  · simp only [List.length_map, List.length_leftpad]
    omega

theorem length_hexBytes (bytes : List UInt8) :
    (hexBytes bytes).toList.length = 2 * bytes.length := by
  have hbyte (b : UInt8) : ((hexadecimal 2 b.toNat).map Char.toUpper).length = 2 := by
    have hdigits : (digits 16 b.toNat).length ≤ 2 :=
      (Nat.length_toDigits_le_iff (by decide) (by decide)).2 b.toNat_lt
    simp only [hexadecimal, List.length_map, if_neg (Int.not_lt.2 (Int.natCast_nonneg _)),
      List.length_leftpad, Int.natAbs_natCast]
    omega
  simp [hexBytes, List.length_flatMap, hbyte, Nat.mul_comm]

theorem space_not_mem_hexBytes (bytes : List UInt8) : ' ' ∉ (hexBytes bytes).toList := by
  rw [hexBytes, String.toList_ofList, List.mem_flatMap]
  rintro ⟨b, -, hspace⟩
  exact space_not_mem_hexadecimal 2 b.toNat hspace

end Text

namespace Assembly

open PepAsm.Text

/-- The object code that a line of a listing shows. It stands in six columns after the address,
which takes up four columns at least and has no space in it. -/
def objectColumn (line : String) : List Char :=
  let width := max 4 (line.toList.takeWhile (· != ' ')).length
  ((line.toList.drop (width + 1)).take 6).filter (· != ' ')

def addressText : Option Int → List Char
  | some n => (hexadecimal 4 n).map Char.toUpper
  | none => List.replicate 4 ' '

theorem width_addressText (address : Option Int) (rest : List Char) :
    max 4 ((addressText address ++ ' ' :: rest).takeWhile (· != ' ')).length =
      (addressText address).length := by
  cases address with
  | none => rfl
  | some n =>
    have hrun : ∀ c ∈ addressText (some n), (c != ' ') = true := by
      intro c hc
      rw [bne_iff_ne]
      rintro rfl
      exact space_not_mem_hexadecimal 4 n hc
    rw [(Scan.span_run hrun rfl rest).1]
    exact max_eq_right (le_length_hexadecimal 4 n)

theorem objectColumn_listingText (address : Option Int) {bytes : List UInt8}
    (h : bytes.length ≤ 3) (source : String) :
    objectColumn (listingText address bytes source) = (hexBytes bytes).toList := by
  have htext : (listingText address bytes source).toList =
      addressText address ++ ' ' :: ((column 6 (hexBytes bytes)).toList ++ ' ' :: source.toList) := by
    cases address <;> simp [listingText, addressText]
  have hcolumn : (column 6 (hexBytes bytes)).toList.length = 6 := by
    rw [toList_column, List.length_append, List.length_replicate, length_hexBytes]
    omega
  have hdigits : ∀ c ∈ (hexBytes bytes).toList, (c != ' ') = true := by
    intro c hc
    rw [bne_iff_ne]
    rintro rfl
    exact space_not_mem_hexBytes bytes hc
  rw [objectColumn, htext, width_addressText, List.drop_length_add_append, List.drop_one,
    List.tail_cons, List.take_left' hcolumn, toList_column, List.filter_append,
    List.filter_eq_self.2 hdigits, List.filter_replicate, if_neg (by decide), List.append_nil]

section Overflow

variable {bytes : List UInt8}

theorem batches_ne_nil (h : bytes ≠ []) : batches bytes ≠ [] := by
  fun_cases batches bytes with
  | case1 => contradiction
  | case2 => exact List.cons_ne_nil _ _
  | case3 => exact List.cons_ne_nil _ _

theorem listingTexts_of_le (h : bytes.length ≤ 3) (address : Option Int) (source : String) :
    listingTexts address bytes source = .ok [listingText address bytes source] := by
  rw [listingTexts, splitCode, if_pos h]
  rfl

/-- The lines below the source cannot be formatted, so whatever is left over for them fails. -/
theorem listingTexts_of_lt (h : 3 < bytes.length) (address : Option Int) (source : String) :
    listingTexts address bytes source = .error .spaceForSign := by
  have hbelow : bytes.drop 3 ≠ [] := by
    rw [← List.length_pos_iff, List.length_drop]
    omega
  obtain ⟨batch, rest, hbatches⟩ := List.exists_cons_of_ne_nil (batches_ne_nil hbelow)
  rw [listingTexts, splitCode, if_neg (by omega)]
  dsimp only
  rw [hbatches, List.mapM_cons]
  rfl

end Overflow

namespace CodeLine

def isListed (symbols : SymbolTable) (line : CodeLine) : Bool :=
  match line.bytes symbols with
  | .ok bytes => bytes.length ≤ 3
  | .error _ => false

variable {t : SymbolTable} {line : CodeLine} {own : List UInt8}

theorem listing_of_isListed (hown : line.bytes t = .ok own) (h : line.isListed t) :
    (Line.code line).listing t = .ok [listingText line.address own line.source] ∧
      own.length ≤ 3 := by
  have hlength : own.length ≤ 3 := by simpa [isListed, hown] using h
  simp [Line.listing, hown, listingTexts_of_le hlength, hlength]

theorem listing_of_not_isListed (hown : line.bytes t = .ok own) (h : ¬line.isListed t) :
    (Line.code line).listing t = .error .spaceForSign := by
  have hlength : 3 < own.length := by simpa [isListed, hown] using h
  simp [Line.listing, hown, listingTexts_of_lt hlength]

theorem isListed_of_isInstruction (hi : line.isInstruction) (hown : line.bytes t = .ok own) :
    line.isListed t := by
  have hlength := length_bytes hi hown
  have hsize : line.size ≤ 3 := by
    cases hb : line.body with
    | dyadic m o mode => simp [size, hb]
    | monadic m => simp [size, hb]
    | given bytes size source argument => simp [isInstruction, hb] at hi
  simp only [isListed, hown, decide_eq_true_eq]
  omega

end CodeLine

theorem Line.eq_code {line : Line} {code : CodeLine} (h : line.code? = some code) :
    line = .code code := by
  cases line with
  | code line => exact congrArg Line.code (Option.some.inj h)
  | _ => contradiction

theorem Line.listing_of_no_code {line : Line} (h : line.code? = none) (t : SymbolTable) :
    line.listing t = .ok [listingText none [] line.source] := by
  cases line with
  | code line => contradiction
  | _ => rfl

section Lines

variable {t : SymbolTable} {lines : List Line} {code : List UInt8}

theorem exists_listing (h : emit t (lines.filterMap Line.code?) = .ok code)
    (hlisted : ∀ line ∈ lines.filterMap Line.code?, line.isListed t) :
    ∃ text, collect (Line.listing t) lines = .ok text ∧
      text.flatMap objectColumn = (hexBytes code).toList := by
  induction lines generalizing code with
  | nil =>
    cases h
    exact ⟨[], rfl, rfl⟩
  | cons line lines ih =>
    cases hline : line.code? with
    | none =>
      rw [List.filterMap_cons_none hline] at h hlisted
      obtain ⟨text, htext, hshown⟩ := ih h hlisted
      refine ⟨listingText none [] line.source :: text, ?_, ?_⟩
      · exact collect_cons.2 ⟨_, text, Line.listing_of_no_code hline t, htext, rfl⟩
      · have hempty : ([] : List UInt8).length ≤ 3 := Nat.zero_le 3
        rw [List.flatMap_cons, objectColumn_listingText none hempty, hshown]
        rfl
    | some line' =>
      rw [List.filterMap_cons_some hline] at h hlisted
      rw [List.forall_mem_cons] at hlisted
      obtain ⟨own, rest, hown, hrest, rfl⟩ := emit_cons.1 h
      obtain ⟨text, htext, hshown⟩ := ih hrest hlisted.2
      obtain ⟨hlisting, hlength⟩ := CodeLine.listing_of_isListed hown hlisted.1
      refine ⟨listingText line'.address own line'.source :: text, ?_, ?_⟩
      · rw [Line.eq_code hline]
        exact collect_cons.2 ⟨_, text, hlisting, htext, rfl⟩
      · rw [List.flatMap_cons, objectColumn_listingText _ hlength, hshown]
        simp [hexBytes]

theorem listing_eq_error (h : emit t (lines.filterMap Line.code?) = .ok code)
    (hlong : ∃ line ∈ lines.filterMap Line.code?, ¬line.isListed t) :
    collect (Line.listing t) lines = .error .spaceForSign := by
  have hcases : ∀ line ∈ lines, line.listing t = .error .spaceForSign ∨
      ∃ own, line.listing t = .ok own := by
    intro line hmem
    cases hline : line.code? with
    | none => exact .inr ⟨_, Line.listing_of_no_code hline t⟩
    | some line' =>
      obtain ⟨own, hown⟩ := bytes_of_emit h (List.mem_filterMap.2 ⟨line, hmem, hline⟩)
      rw [Line.eq_code hline]
      by_cases hlisted : line'.isListed t
      · exact .inr ⟨_, (CodeLine.listing_of_isListed hown hlisted).1⟩
      · exact .inl (CodeLine.listing_of_not_isListed hown hlisted)
  obtain ⟨line', hmem', hlong⟩ := hlong
  obtain ⟨own, hown⟩ := bytes_of_emit h hmem'
  obtain ⟨line, hmem, hline⟩ := List.mem_filterMap.1 hmem'
  apply collect_eq_error hcases hmem
  rw [Line.eq_code hline]
  exact CodeLine.listing_of_not_isListed hown hlong

end Lines

/-- A program whose lines all have object code has a listing exactly if no line has more than
three bytes, and then the listing shows every byte. A longer line fails in the format of what is
left over; an instruction never is one. -/
theorem Image.listing_shows_code (i : Image)
    (h : ∀ line ∈ i.codeLines, (line.bytes i.symbols).isOk) :
    ∃ code, i.objectCode = .ok code ∧
      ((∀ line ∈ i.codeLines, line.isListed i.symbols) →
        ∃ text, i.listing = .ok text ∧ text.flatMap objectColumn = (hexBytes code).toList) ∧
      ((∃ line ∈ i.codeLines, ¬line.isListed i.symbols) → i.listing = .error .spaceForSign) ∧
      ∀ line ∈ i.codeLines, line.isInstruction → line.isListed i.symbols := by
  have hbytes : ∀ line ∈ i.codeLines, ∃ own, True ∧ line.bytes i.symbols = .ok own := by
    intro line hline
    have hok := h line hline
    cases hown : line.bytes i.symbols with
    | ok own => exact ⟨own, trivial, rfl⟩
    | error e => simp [hown, Except.isOk, Except.toBool] at hok
  obtain ⟨parts, -, hcode⟩ := exists_emit hbytes
  refine ⟨parts.flatten, hcode, exists_listing hcode, listing_eq_error hcode, ?_⟩
  intro line hline hi
  obtain ⟨own, -, hown⟩ := hbytes line hline
  exact CodeLine.isListed_of_isInstruction hi hown

theorem Image.listing_shows_code_instructions :
    let i : Image := {
      lines := [.comment "start",
        .code { body := .dyadic .ldwa (.hexadecimal 0x1A2B) .direct, address := some 0 },
        .code { body := .monadic .ret, address := some 0x10003 },
        .code { body := .given [0xFF, 0x00] 2 "word" none }]
      symbols := .empty
      faults := [] }
    (∀ line ∈ i.codeLines, (line.bytes i.symbols).isOk) ∧
      (∀ line ∈ i.codeLines, line.isListed i.symbols) ∧
      ∃ code, i.objectCode = .ok code ∧
        ∃ text, i.listing = .ok text ∧ text.flatMap objectColumn = (hexBytes code).toList := by
  intro i
  have hok : ∀ line ∈ i.codeLines, (line.bytes i.symbols).isOk := by decide
  have hlisted : ∀ line ∈ i.codeLines, line.isListed i.symbols := by decide
  obtain ⟨code, hcode, hshown, -, -⟩ := i.listing_shows_code hok
  exact ⟨hok, hlisted, code, hcode, hshown hlisted⟩

/-- Four bytes on one line are object code, but have no place in a listing. -/
theorem Image.listing_refuses_long_line :
    let i : Image := {
      lines := [.code { body := .given [0x01, 0x02, 0x03, 0x04] 4 "four" none, address := some 0 }]
      symbols := .empty
      faults := [] }
    i.objectCode = .ok [0x01, 0x02, 0x03, 0x04] ∧ i.listing = .error .spaceForSign := by
  exact ⟨rfl, rfl⟩

end Assembly

end PepAsm
