import PepAsm.Assembly.Operand
import PepAsm.Proofs.Text.Positional

namespace PepAsm

namespace Text

def namedByte? : Char → Option UInt8
  | '\x5c' => some 0x5C
  | '\x27' => some 0x27
  | '\x22' => some 0x22
  | 't' => some 0x09
  | 'n' => some 0x0A
  | 'r' => some 0x0D
  | _ => none

def isPlain (c : Char) : Bool :=
  decide (0x20 ≤ c.toNat) && decide (c.toNat ≤ 0x7E) && c != backslash && c != doubleQuote

def escapedByte? : List Char → Option UInt8
  | [c] => if isPlain c then some (UInt8.ofNat c.toNat) else none
  | ['\x5c', c] => namedByte? c
  | ['\x5c', 'x', high, low] => (positional? 16 hexValue? [high, low]).map UInt8.ofNat
  | _ => none

def unescape : List Char → Option (List UInt8)
  | [] => some []
  | '\x5c' :: 'x' :: high :: low :: text =>
    (escapedByte? ['\x5c', 'x', high, low]).bind fun b ↦ (unescape text).map (b :: ·)
  | '\x5c' :: c :: text =>
    (escapedByte? ['\x5c', c]).bind fun b ↦ (unescape text).map (b :: ·)
  | c :: text => (escapedByte? [c]).bind fun b ↦ (unescape text).map (b :: ·)

theorem unescape_piece {piece : List Char} {b : UInt8} (h : escapedByte? piece = some b)
    (text : List Char) : unescape (piece ++ text) = (unescape text).map (b :: ·) := by
  have hpiece : unescape (piece ++ text) =
      (escapedByte? piece).bind fun b ↦ (unescape text).map (b :: ·) := by
    unfold escapedByte? at h
    split at h
    · rename_i c
      have hc : c ≠ '\x5c' := by
        rintro rfl
        contradiction
      simp [unescape, hc]
    · rename_i c
      have hc : c ≠ 'x' := by
        rintro rfl
        contradiction
      simp [unescape, hc]
    · rfl
    · contradiction
  rw [hpiece, h, Option.bind_some]

theorem unescape_flatMap {f : UInt8 → List Char} {bytes : List UInt8}
    (h : ∀ b ∈ bytes, escapedByte? (f b) = some b) (text : List Char) :
    unescape (bytes.flatMap f ++ text) = (unescape text).map (bytes ++ ·) := by
  induction bytes with
  | nil => simp
  | cons b bytes ih =>
    rw [List.forall_mem_cons] at h
    rw [List.flatMap_cons, List.append_assoc, unescape_piece h.1, ih h.2, Option.map_map]
    rfl

end Text

namespace Assembly.Operand

open PepAsm.Text

theorem escapedByte?_single (b : UInt8) :
    escapedByte? (protectQuotes (escapeByte singleQuote b)) = some b := by
  have hall : ∀ n < 256, escapedByte? (protectQuotes (escapeByte singleQuote (UInt8.ofNat n))) =
      some (UInt8.ofNat n) := by decide +kernel
  have hb := hall b.toNat b.toNat_lt
  rwa [UInt8.ofNat_toNat] at hb

/-- The mark around the bytes matters to the byte that is this mark only. -/
theorem escapeByte_double {b : UInt8} (h : b ≠ 0x22) :
    escapeByte doubleQuote b = escapeByte singleQuote b := by
  have hall : ∀ n < 256, Char.ofNat n = doubleQuote → n = 0x22 := by decide +kernel
  have hdouble : Char.ofNat b.toNat ≠ doubleQuote := by
    intro hb
    have hvalue : b.toNat = (0x22 : UInt8).toNat := hall b.toNat b.toNat_lt hb
    exact h (UInt8.toNat_inj.1 hvalue)
  unfold escapeByte
  by_cases hsingle : Char.ofNat b.toNat = singleQuote
  · simp [hsingle]
  · simp [hsingle, escape, hdouble]

theorem escapedByte?_of_mem {bytes : List UInt8} {b : UInt8} (h : b ∈ bytes) :
    escapedByte? (protectQuotes (escapeByte (quoteMark (ofBytes bytes)) b)) = some b := by
  unfold quoteMark
  split
  · rename_i hmark
    have hne : b ≠ 0x22 := by
      rintro rfl
      have hdouble : doubleQuote ∈ ofBytes bytes := List.mem_map.2 ⟨0x22, h, rfl⟩
      simp [hdouble] at hmark
    rw [escapeByte_double hne]
    exact escapedByte?_single b
  · exact escapedByte?_single b

def markByte (bytes : List UInt8) : UInt8 :=
  UInt8.ofNat (quoteMark (ofBytes bytes)).toNat

theorem escapedByte?_mark (bytes : List UInt8) :
    escapedByte? (protectQuotes [quoteMark (ofBytes bytes)]) = some (markByte bytes) := by
  unfold markByte quoteMark
  split
  · decide
  · decide

/-- What the cut leaves of the word before the quoted bytes, as bytes. -/
def wordBefore : List UInt8 :=
  (bytesOpening.drop 2).map fun c ↦ UInt8.ofNat c.toNat

theorem escapedByte?_of_mem_wordBefore :
    ∀ b ∈ wordBefore, escapedByte? [Char.ofNat b.toNat] = some b := by
  decide +kernel

/-- The cut takes away the closing parenthesis and two letters of the opening word. -/
theorem cut_shownBytes (bytes : List UInt8) :
    ((shownBytes bytes).drop 2).dropLast = bytesOpening.drop 2 ++ quotedBytes bytes := by
  have hopening : 2 ≤ bytesOpening.length := by decide
  rw [shownBytes, List.append_assoc, List.drop_append_of_le_length hopening, ← List.append_assoc,
    List.dropLast_concat]

theorem protectQuotes_append (first second : List Char) :
    protectQuotes (first ++ second) = protectQuotes first ++ protectQuotes second :=
  List.flatMap_append

theorem unescape_quotedBytes (bytes : List UInt8) :
    unescape (protectQuotes (quotedBytes bytes)) =
      some (markByte bytes :: bytes ++ [markByte bytes]) := by
  have hparts : protectQuotes (quotedBytes bytes) =
      protectQuotes [quoteMark (ofBytes bytes)] ++
        (bytes.flatMap (fun b ↦ protectQuotes (escapeByte (quoteMark (ofBytes bytes)) b)) ++
          (protectQuotes [quoteMark (ofBytes bytes)] ++ [])) := by
    simp [protectQuotes, quotedBytes, List.flatMap_assoc]
  rw [hparts, unescape_piece (escapedByte?_mark bytes),
    unescape_flatMap fun b hb ↦ escapedByte?_of_mem hb, unescape_piece (escapedByte?_mark bytes)]
  rfl

/-- A string operand stands between double quotes with its bytes escaped, but they are not all
that stands there: with the escapes undone, the bytes come between quote marks and after a word. -/
theorem text_string (bytes : List UInt8) :
    ∃ body, (Operand.string bytes).text.toList = doubleQuote :: body ++ [doubleQuote] ∧
      unescape body = some (wordBefore ++ markByte bytes :: bytes ++ [markByte bytes]) ∧
      unescape body ≠ some bytes := by
  refine ⟨protectQuotes ((shownBytes bytes).drop 2).dropLast, ?_, ?_⟩
  · simp [text, doubleQuote]
  · have hword : protectQuotes (bytesOpening.drop 2) =
        wordBefore.flatMap fun b ↦ [Char.ofNat b.toNat] := by decide
    have hbody : unescape (protectQuotes ((shownBytes bytes).drop 2).dropLast) =
        some (wordBefore ++ markByte bytes :: bytes ++ [markByte bytes]) := by
      rw [cut_shownBytes, protectQuotes_append, hword,
        unescape_flatMap escapedByte?_of_mem_wordBefore, unescape_quotedBytes, Option.map_some]
      simp
    refine ⟨hbody, ?_⟩
    rw [hbody]
    intro heq
    have hlength := congrArg List.length (Option.some.inj heq)
    simp at hlength
    omega

theorem text_string_wrapped :
    (Operand.string [0x68, 0x69]).text = "\"tearray(b\x27hi\x27\"" ∧
      unescape "tearray(b\x27hi\x27".toList ≠ some [0x68, 0x69] := by
  decide

end Assembly.Operand

end PepAsm
