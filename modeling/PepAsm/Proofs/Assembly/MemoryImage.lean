import PepAsm.Proofs.Assembly.Placement
import Mathlib.Data.List.Basic

namespace PepAsm.Assembly

open PepAsm.Instruction

namespace CodeLine

def isInstruction (line : CodeLine) : Bool :=
  match line.body with
  | .given .. => false
  | _ => true

def mention (symbols : SymbolTable) (line : CodeLine) : SymbolTable :=
  let mentioned := match line.body with
    | .dyadic _ (.symbol name) _ => symbols.reference name
    | _ => symbols
  match line.symbol with
  | some name => mentioned.define name
  | none => mentioned

end CodeLine

/-- The program that has the given lines and the symbols they name. -/
def Program.ofCode (code : List CodeLine) : Program :=
  ⟨code.map .code, code.foldl CodeLine.mention .empty⟩

theorem wordBytes_eq_ok {n : Int} {word : List UInt8} :
    wordBytes n = .ok word ↔
      0 ≤ n ∧ n < 0x10000 ∧
        word = [UInt8.ofNat (n.toNat / 256), UInt8.ofNat (n.toNat % 256)] := by
  unfold wordBytes
  split
  · simp only [reduceCtorEq, false_iff]
    omega
  · split
    · simp only [reduceCtorEq, false_iff]
      omega
    · rw [Except.ok.injEq, eq_comm]
      constructor
      · exact fun h ↦ ⟨by omega, by omega, h⟩
      · exact fun h ↦ h.2.2

variable {t : SymbolTable} {line : CodeLine}

theorem bytes_dyadic {m : Mnemonic} {o : Operand} {mode : Mode} {own : List UInt8}
    (hb : line.body = .dyadic m o mode) :
    line.bytes t = .ok own ↔
      ∃ first word, m.encode (some mode) = .ok first ∧ wordBytes (o.value t) = .ok word ∧
        own = first :: word := by
  unfold CodeLine.bytes
  rw [hb]
  dsimp only
  cases m.encode (some mode) with
  | error e => simp
  | ok first =>
    cases wordBytes (o.value t) with
    | error e => simp [Except.map]
    | ok word => simp [Except.map, eq_comm]

theorem length_bytes (hi : line.isInstruction) {own : List UInt8} (h : line.bytes t = .ok own) :
    own.length = line.size := by
  cases hb : line.body with
  | dyadic m o mode =>
    obtain ⟨first, word, -, hw, rfl⟩ := (bytes_dyadic hb).1 h
    obtain ⟨-, -, rfl⟩ := wordBytes_eq_ok.1 hw
    simp [CodeLine.size, hb]
  | monadic m =>
    unfold CodeLine.bytes at h
    rw [hb] at h
    dsimp only at h
    split at h
    · contradiction
    · cases h
      simp [CodeLine.size, hb]
  | given bytes size source argument => simp [CodeLine.isInstruction, hb] at hi

section Collect

variable {α β ε : Type} {f : α → Except ε (List β)} {item : α} {items : List α}

theorem collect_cons {all : List β} :
    collect f (item :: items) = .ok all ↔
      ∃ own rest, f item = .ok own ∧ collect f items = .ok rest ∧ all = own ++ rest := by
  unfold collect
  rw [List.mapM_cons]
  cases f item with
  | error e => simp [bind, Except.bind, Except.map]
  | ok own =>
    cases items.mapM f with
    | error e => simp [bind, Except.bind, Except.map]
    | ok parts => simp [bind, Except.bind, Except.map, pure, Except.pure, eq_comm]

/-- Where items can fail in one way only, the list fails in that way if one of them does. -/
theorem collect_eq_error {e : ε} (h : ∀ item ∈ items, f item = .error e ∨ ∃ own, f item = .ok own)
    (hitem : item ∈ items) (he : f item = .error e) : collect f items = .error e := by
  induction items with
  | nil => contradiction
  | cons first items ih =>
    have ih' := ih fun item hitem ↦ h item (List.mem_cons_of_mem _ hitem)
    unfold collect at ih' ⊢
    rw [List.mapM_cons]
    rcases h first List.mem_cons_self with hfirst | ⟨own, hfirst⟩
    · rw [hfirst]
      rfl
    · rw [hfirst]
      rcases List.mem_cons.1 hitem with rfl | hitem
      · rw [he] at hfirst
        contradiction
      · have hitems := ih' hitem
        cases hm : items.mapM f with
        | error e' =>
          rw [hm] at hitems
          exact hitems
        | ok parts =>
          rw [hm] at hitems
          contradiction

end Collect

def emit (t : SymbolTable) (code : List CodeLine) : Except EncodeError (List UInt8) :=
  collect (CodeLine.bytes t) code

theorem emit_cons {code : List CodeLine} {bytes : List UInt8} :
    emit t (line :: code) = .ok bytes ↔
      ∃ own rest, line.bytes t = .ok own ∧ emit t code = .ok rest ∧ bytes = own ++ rest :=
  collect_cons

theorem bytes_of_emit {code : List CodeLine} {bytes : List UInt8} (h : emit t code = .ok bytes)
    (hl : line ∈ code) : ∃ own, line.bytes t = .ok own := by
  induction code generalizing bytes with
  | nil => contradiction
  | cons first code ih =>
    obtain ⟨own, rest, hown, hrest, -⟩ := emit_cons.1 h
    rcases List.mem_cons.1 hl with rfl | hl
    · exact ⟨own, hown⟩
    · exact ih hrest hl

section Slices

variable {symbols : SymbolTable} {base : Int} {lines : List Line}

/-- The bytes of a line stand in the memory image where its address says. The bytes are those for
the symbols `t` of the whole image, which lines further down have yet to give their values. -/
theorem slice_place {bytes : List UInt8}
    (hp : ∀ line, Line.code line ∈ lines → line.isInstruction)
    (h : emit t (place symbols base lines).codeLines = .ok bytes) :
    bytes.length = extent lines ∧
      ∀ line ∈ (place symbols base lines).codeLines, ∃ offset : Nat,
        line.address = some (base + offset) ∧
          line.bytes t = .ok ((bytes.drop offset).take line.size) := by
  induction lines generalizing symbols base bytes with
  | nil =>
    cases h
    exact ⟨rfl, fun line hl ↦ by contradiction⟩
  | cons line lines ih =>
    have hp' : ∀ line, Line.code line ∈ lines → line.isInstruction :=
      fun line hl ↦ hp line (List.mem_cons_of_mem _ hl)
    rw [extent_cons]
    cases line with
    | error reason => simpa only [Line.size, Nat.zero_add, codeLines_error] using ih hp' h
    | empty => simpa only [Line.size, Nat.zero_add, codeLines_empty] using ih hp' h
    | comment text => simpa only [Line.size, Nat.zero_add, codeLines_comment] using ih hp' h
    | code line =>
      rw [codeLines_code] at h ⊢
      obtain ⟨own, rest, hown, hrest, rfl⟩ := emit_cons.1 h
      have hlen : own.length = line.size := length_bytes (hp line List.mem_cons_self) hown
      obtain ⟨hsize, hslices⟩ := ih hp' hrest
      refine ⟨by rw [List.length_append, hlen, hsize]; rfl, fun l hl ↦ ?_⟩
      rcases List.mem_cons.1 hl with rfl | hl
      · refine ⟨0, by simp, hown.trans ?_⟩
        rw [List.drop_zero]
        exact congrArg Except.ok (List.take_left' hlen).symm
      · obtain ⟨offset, ha, hb⟩ := hslices l hl
        refine ⟨line.size + offset, by rw [ha]; push_cast; rw [Int.add_assoc], ?_⟩
        rw [hb, ← hlen, List.drop_length_add_append]

end Slices

namespace Line

/-- The texts that report what is wrong with a line that could not be read or that declares a
symbol which has more than one definition. -/
def complaints (symbols : SymbolTable) : Line → List String
  | .error reason => [Line.source (.error reason)]
  | .code line =>
    match line.symbol with
    | some name =>
      if 1 < (symbols.symbol name).definitions then ["Multiply defined symbol: " ++ name] else []
    | none => []
  | _ => []

end Line

theorem undefined_of_isInstruction (hi : line.isInstruction) : line.undefined t = [] := by
  cases hb : line.body with
  | dyadic m o mode => simp [CodeLine.undefined, CodeLine.argument?, hb]
  | monadic m => simp [CodeLine.undefined, CodeLine.argument?, hb]
  | given bytes size source argument => simp [CodeLine.isInstruction, hb] at hi

theorem faults_of_isInstruction (hi : line.isInstruction) :
    (Line.code line).faults t =
      match line.symbol with
      | some name => if 1 < (t.symbol name).definitions then [.multiplyDefined name] else []
      | none => [] := by
  rw [Line.faults, undefined_of_isInstruction hi, List.append_nil, CodeLine.declare]
  cases line.symbol with
  | none => rfl
  | some name =>
    dsimp only
    rw [t.isMultiplyDefined_eq]
    by_cases hd : 1 < (t.symbol name).definitions
    · simp [hd]
    · simp [hd]

theorem message_faults {line : Line} (hi : ∀ code, line = .code code → code.isInstruction) :
    (line.faults t).map Fault.message = line.complaints t := by
  cases line with
  | error reason => rfl
  | empty => rfl
  | comment text => rfl
  | code line =>
    rw [faults_of_isInstruction (hi line rfl), Line.complaints]
    cases line.symbol with
    | none => rfl
    | some name =>
      dsimp only
      split
      · rfl
      · rfl

/-- The address map of a program, its faults and its bytes in memory fit together: each line that
could be read stands behind the code before it, a symbol that is defined at most once stands for
the last line that declares it, and memory holds the bytes of each line at its address. -/
theorem Program.image_consistent (p : Program) (base : Int)
    (hp : ∀ line, Line.code line ∈ p.lines → line.isInstruction) :
    let image := p.image base
    let kept := readable p.lines
    image.lines = (kept.mapIdx fun k line ↦ line.moveTo (base + extent (kept.take k))) ∧
    (∀ name, (image.symbols.symbol name).definitions = (p.symbols.symbol name).definitions ∧
      (image.symbols.symbol name).value =
        if (p.symbols.symbol name).definitions ≤ 1 then
          match image.declaration? name with
          | some line => line.address
          | none => (p.symbols.symbol name).value
        else (p.symbols.symbol name).value) ∧
    image.faults.map Fault.message = p.lines.flatMap (Line.complaints p.symbols) ∧
    ∀ bytes, image.objectCode = .ok bytes →
      bytes.length = extent p.lines ∧
      (∀ line ∈ image.codeLines, ∃ offset : Nat, line.address = some (base + offset) ∧
        line.bytes image.symbols = .ok ((bytes.drop offset).take line.size)) ∧
      ∀ line ∈ image.codeLines, ∀ m name mode target,
        line.body = .dyadic m (.symbol name) mode →
        (p.symbols.symbol name).definitions ≤ 1 → image.declaration? name = some target →
        ∃ first address, target.address = some address ∧ 0 ≤ address ∧ address < 0x10000 ∧
          line.bytes image.symbols =
            .ok [first, UInt8.ofNat (address.toNat / 256), UInt8.ofNat (address.toNat % 256)] := by
  dsimp only
  refine ⟨lines_place .., fun name ↦ ⟨definitions_place .., value_place ..⟩, ?_, ?_⟩
  · rw [Program.image, faults_place, List.map_flatMap]
    refine List.flatMap_congr fun line hl ↦ message_faults ?_
    rintro code rfl
    exact hp code hl
  · intro bytes h
    obtain ⟨hlen, hslices⟩ := slice_place hp h
    refine ⟨hlen, hslices, fun line hl m name mode target hb hd ht ↦ ?_⟩
    obtain ⟨own, hown⟩ := bytes_of_emit h hl
    obtain ⟨first, word, -, hw, rfl⟩ := (bytes_dyadic hb).1 hown
    obtain ⟨hlo, hhi, rfl⟩ := wordBytes_eq_ok.1 hw
    obtain ⟨offset, ha, -⟩ := hslices target (mem_of_declaration? ht)
    have hv : (Operand.symbol name).value (p.image base).symbols = base + offset := by
      rw [Operand.value, SymbolTable.number_eq, Program.image, value_of_declaration? hd ht, ha,
        Option.getD_some]
    rw [hv] at hlo hhi hown
    exact ⟨first, base + offset, ha, hlo, hhi, hown⟩

theorem Program.image_consistent_forward_branch :
    let p := Program.ofCode [{ body := .dyadic .br (.symbol "end") .immediate },
      { body := .monadic .ret, symbol := some "end" }]
    (∀ line, Line.code line ∈ p.lines → line.isInstruction) ∧
      (p.image 16).objectCode = .ok [0x24, 0, 19, 1] ∧
      ∀ line ∈ (p.image 16).codeLines, ∃ offset : Nat,
        line.address = some ((16 : Int) + offset) ∧
          line.bytes (p.image 16).symbols = .ok (([0x24, 0, 19, 1].drop offset).take line.size) := by
  intro p
  have hp : ∀ line, Line.code line ∈ p.lines → line.isInstruction := by
    intro line hl
    simp only [p, Program.ofCode, List.map_cons, List.map_nil, List.mem_cons, Line.code.injEq,
      List.not_mem_nil, or_false] at hl
    rcases hl with rfl | rfl
    · rfl
    · rfl
  have hcode : (p.image 16).objectCode = .ok [0x24, 0, 19, 1] := by
    dsimp only [p]
    rfl
  exact ⟨hp, hcode, ((p.image_consistent 16 hp).2.2.2 _ hcode).2.1⟩

end PepAsm.Assembly
