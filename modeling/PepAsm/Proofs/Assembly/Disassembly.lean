import PepAsm.Proofs.Assembly.Encoding

namespace PepAsm.Instruction

namespace Mode

def ofField? (field : UInt8) : Option Mode :=
  all.find? (·.field == field)

def ofShortField? (field : UInt8) : Option Mode :=
  all.find? (·.shortField? == some field)

theorem ofField?_field (mode : Mode) : ofField? mode.field = some mode := by
  cases mode with
  | _ => rfl

theorem ofShortField?_eq {mode : Mode} {field : UInt8} (h : mode.shortField? = some field) :
    ofShortField? field = some mode := by
  cases mode with
  | immediate | indexed =>
    cases h
    rfl
  | _ => contradiction

end Mode

namespace Mnemonic

def ofOpcode? (opcode : UInt8) : Option Mnemonic :=
  all.find? (·.opcode == opcode)

theorem ofOpcode?_opcode (m : Mnemonic) : ofOpcode? m.opcode = some m := by
  have hall : ∀ m ∈ all, ofOpcode? m.opcode = some m := by decide +kernel
  exact hall m (mem_all m)

/-- The instruction and the mode that a first byte holds. Opcodes without an operand come first,
then those with a mode field of one bit, and last those with one of three bits. -/
def decode? (first : UInt8) : Option (Mnemonic × Option Mode) :=
  if first < 0x24 then (ofOpcode? first).map (·, none)
  else if first < 0x38 then do
    return (← ofOpcode? (first &&& 0xFE), some (← Mode.ofShortField? (first &&& 1)))
  else do
    return (← ofOpcode? (first &&& 0xF8), some (← Mode.ofField? (first &&& 7)))

def isUnary (m : Mnemonic) : Bool :=
  m.format == .monadic || m.format == .register

variable {m : Mnemonic}

theorem opcode_lt_of_isUnary (h : m.isUnary) : m.opcode < 0x24 := by
  have hall : ∀ m ∈ all, m.isUnary → m.opcode < 0x24 := by decide +kernel
  exact hall m (mem_all m) h

theorem opcode_or_shortField (hf : m.format = .branch) {mode : Mode} {field : UInt8}
    (h : mode.shortField? = some field) :
    ¬ m.opcode ||| field < 0x24 ∧ m.opcode ||| field < 0x38 ∧
      (m.opcode ||| field) &&& 0xFE = m.opcode ∧ (m.opcode ||| field) &&& 1 = field := by
  have hall : ∀ m ∈ all, m.format = .branch → ∀ mode ∈ Mode.all, ∀ field ∈ mode.shortField?,
      ¬ m.opcode ||| field < 0x24 ∧ m.opcode ||| field < 0x38 ∧
        (m.opcode ||| field) &&& 0xFE = m.opcode ∧ (m.opcode ||| field) &&& 1 = field := by
    decide +kernel
  exact hall m (mem_all m) hf mode (Mode.mem_all mode) field h

theorem opcode_or_field (hu : m.isUnary = false) (hf : m.format ≠ .branch) (mode : Mode) :
    ¬ m.opcode ||| mode.field < 0x24 ∧ ¬ m.opcode ||| mode.field < 0x38 ∧
      (m.opcode ||| mode.field) &&& 0xF8 = m.opcode ∧
      (m.opcode ||| mode.field) &&& 7 = mode.field := by
  have hall : ∀ m ∈ all, m.isUnary = false → m.format ≠ .branch → ∀ mode ∈ Mode.all,
      ¬ m.opcode ||| mode.field < 0x24 ∧ ¬ m.opcode ||| mode.field < 0x38 ∧
        (m.opcode ||| mode.field) &&& 0xF8 = m.opcode ∧
        (m.opcode ||| mode.field) &&& 7 = mode.field := by decide +kernel
  exact hall m (mem_all m) hu hf mode (Mode.mem_all mode)

theorem decode?_of_isUnary (h : m.isUnary) :
    m.encode none = .ok m.opcode ∧ decode? m.opcode = some (m, none) := by
  constructor
  · unfold encode
    cases m.format with
    | _ => rfl
  · rw [decode?, if_pos (opcode_lt_of_isUnary h), ofOpcode?_opcode]
    rfl

theorem decode?_encode {mode : Mode} {first : UInt8} (h : m.format.allows mode)
    (he : m.encode (some mode) = .ok first) : decode? first = some (m, some mode) := by
  have hwide (hu : m.isUnary = false) (hf : m.format ≠ .branch) :
      decode? (m.opcode ||| mode.field) = some (m, some mode) := by
    obtain ⟨h24, h38, hopcode, hfield⟩ := opcode_or_field hu hf mode
    rw [decode?, if_neg h24, if_neg h38, hopcode, hfield, ofOpcode?_opcode, Mode.ofField?_field]
    rfl
  unfold encode at he
  unfold isUnary at hwide
  cases hf : m.format with
  | monadic | register =>
    rw [hf] at h
    contradiction
  | branch =>
    rw [hf] at he
    cases hs : mode.shortField? with
    | none =>
      simp only [hs] at he
      contradiction
    | some field =>
      simp only [hs] at he
      cases he
      obtain ⟨h24, h38, hopcode, hfield⟩ := opcode_or_shortField hf hs
      rw [decode?, if_neg h24, if_pos h38, hopcode, hfield, ofOpcode?_opcode,
        Mode.ofShortField?_eq hs]
      rfl
  | anyMode | immediateOnly | registerAnyMode | registerStore =>
    rw [hf] at he hwide
    cases he
    exact hwide rfl nofun

end Mnemonic

end PepAsm.Instruction

namespace PepAsm.Assembly

open PepAsm.Instruction

inductive StoredInstruction
  | dyadic (mnemonic : Mnemonic) (mode : Mode) (operand : Int)
  | monadic (mnemonic : Mnemonic)
deriving Repr, DecidableEq

def disassemble : List UInt8 → Option (List StoredInstruction)
  | [] => some []
  | first :: rest =>
    match Mnemonic.decode? first, rest with
    | some (m, none), rest => (disassemble rest).map (.monadic m :: ·)
    | some (m, some mode), high :: low :: rest =>
      (disassemble rest).map (.dyadic m mode (256 * high.toNat + low.toNat) :: ·)
    | _, _ => none

namespace CodeLine

def stored? (symbols : SymbolTable) (line : CodeLine) : Option StoredInstruction :=
  match line.body with
  | .dyadic m o mode => some (.dyadic m mode (o.value symbols))
  | .monadic m => some (.monadic m)
  | .given .. => none

/-- An instruction that has the operand and the mode it needs, if it needs any. -/
def isEncodable (symbols : SymbolTable) (line : CodeLine) : Bool :=
  match line.body with
  | .dyadic m o mode =>
    m.format.allows mode && decide (0 ≤ o.value symbols ∧ o.value symbols ≤ 0xFFFF)
  | .monadic m => m.isUnary
  | .given .. => false

end CodeLine

namespace Line

def stored? (symbols : SymbolTable) : Line → Option StoredInstruction
  | .code line => line.stored? symbols
  | _ => none

def isEncodable (symbols : SymbolTable) : Line → Bool
  | .code line => line.isEncodable symbols
  | _ => false

end Line

variable {t : SymbolTable} {line : CodeLine}

section Instruction

variable {m : Mnemonic} {first : UInt8}

theorem disassemble_monadic (h : Mnemonic.decode? first = some (m, none)) (rest : List UInt8) :
    disassemble (first :: rest) = (disassemble rest).map (.monadic m :: ·) := by
  rw [disassemble.eq_def]
  simp only [h]

theorem disassemble_dyadic {mode : Mode} (h : Mnemonic.decode? first = some (m, some mode))
    (high low : UInt8) (rest : List UInt8) :
    disassemble (first :: high :: low :: rest) =
      (disassemble rest).map (.dyadic m mode (256 * high.toNat + low.toNat) :: ·) := by
  rw [disassemble.eq_def]
  simp only [h]

end Instruction

theorem word_toNat {n : Int} (hlo : 0 ≤ n) (hhi : n ≤ 0xFFFF) :
    256 * ((UInt8.ofNat (n.toNat / 256)).toNat : Int) + (UInt8.ofNat (n.toNat % 256)).toNat = n := by
  rw [UInt8.toNat_ofNat', UInt8.toNat_ofNat']
  omega

theorem disassemble_bytes (h : line.isEncodable t) :
    ∃ own stored, line.bytes t = .ok own ∧ line.stored? t = some stored ∧
      ∀ rest, disassemble (own ++ rest) = (disassemble rest).map (stored :: ·) := by
  cases hb : line.body with
  | dyadic m o mode =>
    simp only [CodeLine.isEncodable, hb, Bool.and_eq_true, decide_eq_true_eq] at h
    obtain ⟨hallows, hlo, hhi⟩ := h
    obtain ⟨first, hfirst⟩ := Mnemonic.encode_of_allows hallows
    have hdecode := Mnemonic.decode?_encode hallows hfirst
    have hword := wordBytes_eq_ok.2 ⟨hlo, Int.lt_add_one_of_le hhi, rfl⟩
    refine ⟨_, .dyadic m mode (o.value t), (bytes_dyadic hb).2 ⟨first, _, hfirst, hword, rfl⟩,
      by simp only [CodeLine.stored?, hb], fun rest ↦ ?_⟩
    rw [List.cons_append, List.cons_append, List.cons_append, List.nil_append,
      disassemble_dyadic hdecode, word_toNat hlo hhi]
  | monadic m =>
    simp only [CodeLine.isEncodable, hb] at h
    obtain ⟨hencode, hdecode⟩ := Mnemonic.decode?_of_isUnary h
    refine ⟨[m.opcode], .monadic m, by simp only [CodeLine.bytes, hb, hencode],
      by simp only [CodeLine.stored?, hb], fun rest ↦ ?_⟩
    rw [List.cons_append, List.nil_append, disassemble_monadic hdecode]
  | given bytes size source argument =>
    simp only [CodeLine.isEncodable, hb] at h
    contradiction

theorem disassemble_emit {code : List CodeLine} (h : ∀ line ∈ code, line.isEncodable t) :
    ∃ bytes stored, emit t code = .ok bytes ∧ disassemble bytes = some stored ∧
      code.map (CodeLine.stored? t) = stored.map some := by
  induction code with
  | nil => exact ⟨[], [], rfl, rfl, rfl⟩
  | cons line code ih =>
    obtain ⟨hline, hcode⟩ := List.forall_mem_cons.1 h
    obtain ⟨own, first, hown, hfirst, hread⟩ := disassemble_bytes hline
    obtain ⟨rest, stored, hrest, hstored, hmap⟩ := ih hcode
    refine ⟨own ++ rest, first :: stored, emit_cons.2 ⟨own, rest, hown, hrest, rfl⟩, ?_, ?_⟩
    · rw [hread, hstored]
      rfl
    · rw [List.map_cons, List.map_cons, hfirst, hmap]

theorem Image.lines_eq_codeLines {image : Image}
    (h : ∀ line ∈ image.lines, line.isEncodable image.symbols) :
    image.lines = image.codeLines.map .code := by
  unfold codeLines
  generalize image.lines = lines at h
  induction lines with
  | nil => rfl
  | cons line lines ih =>
    obtain ⟨hline, hlines⟩ := List.forall_mem_cons.1 h
    cases line with
    | code line =>
      have hcode : (Line.code line).code? = some line := rfl
      rw [List.filterMap_cons_some hcode, List.map_cons, ← ih hlines]
    | _ => contradiction

theorem Image.disassemble_objectCode {image : Image}
    (h : ∀ line ∈ image.lines, line.isEncodable image.symbols) :
    ∃ bytes stored, image.objectCode = .ok bytes ∧ disassemble bytes = some stored ∧
      image.lines.map (Line.stored? image.symbols) = stored.map some := by
  have hlines := lines_eq_codeLines h
  have hcode : ∀ line ∈ image.codeLines, line.isEncodable image.symbols := by
    intro line hl
    refine h (.code line) ?_
    rw [hlines]
    exact List.mem_map_of_mem hl
  obtain ⟨bytes, stored, hbytes, hstored, hmap⟩ := disassemble_emit hcode
  refine ⟨bytes, stored, hbytes, hstored, ?_⟩
  rw [hlines, List.map_map]
  exact hmap

/-- Object code can be taken apart again: two programs with the same object code have the same
instructions, one by one, with the same modes and operands. -/
theorem Image.objectCode_determines (i j : Image)
    (hi : ∀ line ∈ i.lines, line.isEncodable i.symbols)
    (hj : ∀ line ∈ j.lines, line.isEncodable j.symbols) :
    (∃ bytes stored, i.objectCode = .ok bytes ∧ disassemble bytes = some stored ∧
      i.lines.map (Line.stored? i.symbols) = stored.map some) ∧
    (i.objectCode = j.objectCode →
      i.lines.length = j.lines.length ∧
        i.lines.map (Line.stored? i.symbols) = j.lines.map (Line.stored? j.symbols)) := by
  refine ⟨disassemble_objectCode hi, fun heq ↦ ?_⟩
  obtain ⟨bytes, stored, hbytes, hstored, hmap⟩ := disassemble_objectCode hi
  obtain ⟨bytes', stored', hbytes', hstored', hmap'⟩ := disassemble_objectCode hj
  have hsame : bytes = bytes' := by
    rw [hbytes, hbytes'] at heq
    exact Except.ok.inj heq
  have hagree : stored = stored' := by
    rw [hsame, hstored'] at hstored
    exact (Option.some.inj hstored).symm
  have hlines : i.lines.map (Line.stored? i.symbols) = j.lines.map (Line.stored? j.symbols) := by
    rw [hmap, hmap', hagree]
  exact ⟨by simpa only [List.length_map] using congrArg List.length hlines, hlines⟩

/-- A jump to a label and one to the number it stands for are the same object code. -/
theorem Image.objectCode_determines_jump :
    let p := Program.ofCode [{ body := .dyadic .breq (.symbol "end") .indexed },
      { body := .monadic .asrx, symbol := some "end" }]
    let q := Program.ofCode [{ body := .dyadic .breq (.hexadecimal 3) .indexed },
      { body := .monadic .asrx }]
    let i := p.image 0
    let j := q.image 0
    (∀ line ∈ i.lines, line.isEncodable i.symbols) ∧
      (∀ line ∈ j.lines, line.isEncodable j.symbols) ∧
      i.objectCode = .ok [0x2B, 0, 3, 0x1D] ∧ i.objectCode = j.objectCode ∧
      i.lines.map (Line.stored? i.symbols) = j.lines.map (Line.stored? j.symbols) := by
  intro p q i j
  have hi : ∀ line ∈ i.lines, line.isEncodable i.symbols := by decide +kernel
  have hj : ∀ line ∈ j.lines, line.isEncodable j.symbols := by decide +kernel
  have hcode : i.objectCode = .ok [0x2B, 0, 3, 0x1D] := by decide +kernel
  have hsame : i.objectCode = j.objectCode := by decide +kernel
  exact ⟨hi, hj, hcode, hsame, ((objectCode_determines i j hi hj).2 hsame).2⟩

end PepAsm.Assembly
