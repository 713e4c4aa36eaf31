import PepAsm.Instruction.Mode
import PepAsm.Text.Capital

namespace PepAsm.Instruction

/-- How an instruction uses its operand and which addressing modes it knows. -/
inductive Format
  | monadic
  | register
  /-- An operand with a one-bit mode field. -/
  | branch
  | anyMode
  | immediateOnly
  | registerAnyMode
  /-- A register in the opcode and an operand in any mode but immediate. -/
  | registerStore
deriving Repr, DecidableEq

namespace Format

def all : List Format :=
  [monadic, register, branch, anyMode, immediateOnly, registerAnyMode, registerStore]

def name : Format → String
  | monadic => "M"
  | register => "R"
  | branch => "A_ix"
  | anyMode => "AAA_all"
  | immediateOnly => "AAA_i"
  | registerAnyMode => "RAAA_all"
  | registerStore => "RAAA_noi"

def ofName? (s : String) : Option Format :=
  all.find? (·.name == s)

def allows : Format → Mode → Bool
  | monadic, _ | register, _ => false
  | branch, m => m == .immediate || m == .indexed
  | anyMode, _ | registerAnyMode, _ => true
  | immediateOnly, m => m == .immediate
  | registerStore, m => m != .immediate

end Format

inductive Mnemonic
  | ret | sret | movflga | movaflg | movspa | movasp | nop | nega | negx | asla | aslx | asra
  | asrx | nota | notx | rola | rolx | rora | rorx | br | brle | brlt | breq | brne | brge | brgt
  | brv | brc | call | scall | addsp | subsp | adda | addx | suba | subx | anda | andx | ora
  | orx | xora | xorx | cpwa | cpwx | cpba | cpbx | ldwa | ldwx | ldba | ldbx | stwa | stwx
  | stba | stbx
deriving Repr, DecidableEq

namespace Mnemonic

def all : List Mnemonic :=
  [ret, sret, movflga, movaflg, movspa, movasp, nop, nega, negx, asla, aslx, asra, asrx, nota,
   notx, rola, rolx, rora, rorx, br, brle, brlt, breq, brne, brge, brgt, brv, brc, call, scall,
   addsp, subsp, adda, addx, suba, subx, anda, andx, ora, orx, xora, xorx, cpwa, cpwx, cpba,
   cpbx, ldwa, ldwx, ldba, ldbx, stwa, stwx, stba, stbx]

def name : Mnemonic → String
  | ret => "RET" | sret => "SRET" | movflga => "MOVFLGA" | movaflg => "MOVAFLG"
  | movspa => "MOVSPA" | movasp => "MOVASP" | nop => "NOP" | nega => "NEGA"
  | negx => "NEGX" | asla => "ASLA" | aslx => "ASLX" | asra => "ASRA"
  | asrx => "ASRX" | nota => "NOTA" | notx => "NOTX" | rola => "ROLA"
  | rolx => "ROLX" | rora => "RORA" | rorx => "RORX" | br => "BR"
  | brle => "BRLE" | brlt => "BRLT" | breq => "BREQ" | brne => "BRNE"
  | brge => "BRGE" | brgt => "BRGT" | brv => "BRV" | brc => "BRC"
  | call => "CALL" | scall => "SCALL" | addsp => "ADDSP" | subsp => "SUBSP"
  | adda => "ADDA" | addx => "ADDX" | suba => "SUBA" | subx => "SUBX"
  | anda => "ANDA" | andx => "ANDX" | ora => "ORA" | orx => "ORX"
  | xora => "XORA" | xorx => "XORX" | cpwa => "CPWA" | cpwx => "CPWX"
  | cpba => "CPBA" | cpbx => "CPBX" | ldwa => "LDWA" | ldwx => "LDWX"
  | ldba => "LDBA" | ldbx => "LDBX" | stwa => "STWA" | stwx => "STWX"
  | stba => "STBA" | stbx => "STBX"

/-- The first byte of an instruction with a mode field of zero. -/
def opcode : Mnemonic → UInt8
  | ret => 0x01 | sret => 0x02 | movflga => 0x03 | movaflg => 0x04
  | movspa => 0x05 | movasp => 0x06 | nop => 0x07 | nega => 0x18
  | negx => 0x19 | asla => 0x1A | aslx => 0x1B | asra => 0x1C
  | asrx => 0x1D | nota => 0x1E | notx => 0x1F | rola => 0x20
  | rolx => 0x21 | rora => 0x22 | rorx => 0x23 | br => 0x24
  | brle => 0x26 | brlt => 0x28 | breq => 0x2A | brne => 0x2C
  | brge => 0x2E | brgt => 0x30 | brv => 0x32 | brc => 0x34
  | call => 0x36 | scall => 0x38 | addsp => 0x40 | subsp => 0x48
  | adda => 0x50 | addx => 0x58 | suba => 0x60 | subx => 0x68
  | anda => 0x70 | andx => 0x78 | ora => 0x80 | orx => 0x88
  | xora => 0x90 | xorx => 0x98 | cpwa => 0xA0 | cpwx => 0xA8
  | cpba => 0xB0 | cpbx => 0xB8 | ldwa => 0xC0 | ldwx => 0xC8
  | ldba => 0xD0 | ldbx => 0xD8 | stwa => 0xE0 | stwx => 0xE8
  | stba => 0xF0 | stbx => 0xF8

def format : Mnemonic → Format
  | ret | nop | sret | movflga | movaflg | movspa | movasp => .monadic
  | nota | nega | asla | asra | rola | rora | notx | negx | aslx | asrx | rolx | rorx => .register
  | br | brle | brlt | breq | brne | brge | brgt | brv | brc | call => .branch
  | scall | addsp | subsp => .anyMode
  | adda | suba | anda | ora | xora | cpwa | cpba | ldwa | ldba | addx | subx | andx | orx | xorx
  | cpwx | cpbx | ldwx | ldbx => .registerAnyMode
  | stwa | stwx | stba | stbx => .registerStore

def defaultMode? (m : Mnemonic) : Option Mode :=
  if m.format = .branch then some .immediate else none

def ofName? (s : String) : Option Mnemonic :=
  all.find? (·.name == s)

def ofWord? (s : String) : Option Mnemonic :=
  ofName? (Text.upper s)

theorem mem_all (m : Mnemonic) : m ∈ all := by
  cases m <;> simp [all]

theorem ofName?_name (m : Mnemonic) : ofName? m.name = some m := by
  cases m <;> decide

end Mnemonic

structure ModeError where
  mode : Mode
deriving Repr, DecidableEq

def ModeError.message (e : ModeError) : String :=
  "Invalid addressing mode for A type: " ++ e.mode.name

namespace Mnemonic

/-- The first byte of an instruction. Without a mode its field is zero, and instructions without
an operand have no such field. -/
def encode (m : Mnemonic) (mode : Option Mode) : Except ModeError UInt8 :=
  match m.format, mode with
  | .monadic, _ | .register, _ | _, none => .ok m.opcode
  | .branch, some mode =>
    match mode.shortField? with
    | some field => .ok (m.opcode ||| field)
    | none => .error ⟨mode⟩
  | _, some mode => .ok (m.opcode ||| mode.field)

end Mnemonic

end PepAsm.Instruction
