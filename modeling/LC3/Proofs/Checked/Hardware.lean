import LC3.Proofs.Checked.Field
import LC3.Trap

/-!
# Instructions with every step checked

Registers are selected by bytes and memory cells by numbers, so there are selectors without a
register and numbers without a cell. Here the instructions are executed with both of them checked,
on top of the checked fields, and so are the other uses of memory: the status register, and the
strings of the output routines.

Each function has one lemma, which says that its checks all succeed and that it comes to what the
unchecked function does. None of them needs a hypothesis about registers, memory or the word that is
executed: a field of three bits always selects a register, and an address is always that of a cell.

* `describe_eq` — the line of a trace, for every word.
* `read_eq`, `string_eq` — memory, and strings of any length.
* `execute_eq` — the thirteen operations for registers and memory.
-/

namespace LC3.Checked

/-! ### The fields of an instruction -/

section Instruction

variable (i : Instruction)

def opcode : Except Panic Byte := byteRange i.word 12 15

def dr : Except Panic Byte := byteRange i.word 9 11

def sr1 : Except Panic Byte := byteRange i.word 6 8

def sr2 : Except Panic Byte := byteRange i.word 0 2

def nzp : Except Panic Word := range i.word 9 11

def isImmediate : Except Panic Bool := bit i.word 5

def callsByOffset : Except Panic Bool := bit i.word 11

def immediate : Except Panic Word := do
  signExtend (← range i.word 0 4) 5

def trapVector : Except Panic Byte := byteRange i.word 0 7

/-- The operation of an instruction, if its opcode is one. -/
def operation? : Except Panic (Option Operation) := do
  return Operation.ofNat? (← opcode i).toNat

/-- The line that a trace shows for an instruction. -/
def describe : Except Panic String := do
  let operation ← operation? i
  let register ← dr i
  let distance ← offset i.word 9
  match operation with
  | some o =>
    return s!"{i.word.hex} Op: Some({o.name}), DR: {Numeral.binary 3 register.toNat}, " ++
      s!"PC_Off: {distance.toInt}"
  | none =>
    return s!"{i.word.hex} Op: None, DR: {Numeral.binary 3 register.toNat}, " ++
      s!"PC_Off: {distance.toInt}"

theorem opcode_eq : opcode i = .ok (i.opcode.setWidth 8) :=
  byteRange_of_ok (by decide) (by decide) (by decide) i.word

theorem dr_eq : dr i = .ok (i.dr.setWidth 8) :=
  byteRange_of_ok (by decide) (by decide) (by decide) i.word

theorem sr1_eq : sr1 i = .ok (i.sr1.setWidth 8) :=
  byteRange_of_ok (by decide) (by decide) (by decide) i.word

theorem sr2_eq : sr2 i = .ok (i.sr2.setWidth 8) :=
  byteRange_of_ok (by decide) (by decide) (by decide) i.word

theorem nzp_eq : nzp i = .ok (i.nzp.setWidth 16) :=
  range_of_ok (by decide) (by decide) i.word

theorem isImmediate_eq : isImmediate i = .ok i.isImmediate :=
  bit_of_ok (by decide) i.word

theorem callsByOffset_eq : callsByOffset i = .ok i.callsByOffset :=
  bit_of_ok (by decide) i.word

theorem immediate_eq : immediate i = .ok i.immediate := by
  -- the number of five bits, whose last position is written out here
  have hsame : immediate i = offset i.word 5 := rfl
  rw [hsame]
  exact offset_of_ok (by decide) (by decide) i.word

theorem offset_eq_instruction {width : ℕ} (hpos : 0 < width) (hle : width ≤ 16) :
    offset i.word width = .ok (i.offset width) :=
  offset_of_ok hpos hle i.word

theorem trapVector_eq : trapVector i = .ok i.trapVector := by
  have hfield : trapVector i = .ok ((i.word.extractLsb' 0 8).setWidth 8) :=
    byteRange_of_ok (by decide) (by decide) (by decide) i.word
  have hshort : 8 ≤ 16 := by decide
  rw [hfield, BitVec.setWidth_eq, ← BitVec.setWidth_eq_extractLsb' hshort]
  rfl

/-- Four bits are always an opcode. -/
theorem operation?_eq : operation? i = .ok (some i.operation) := by
  have hlt : i.opcode.toNat < 16 := i.opcode.isLt
  have hnat : (i.opcode.setWidth 8).toNat = i.opcode.toNat := by
    rw [BitVec.toNat_setWidth]
    exact Nat.mod_eq_of_lt (by omega)
  unfold operation?
  rw [opcode_eq, ok_bind, hnat]
  unfold Operation.ofNat?
  rw [if_pos hlt, BitVec.ofNat_toNat, BitVec.setWidth_eq]
  rfl

/-- **The line of a trace**, for every word. -/
theorem describe_eq : describe i = .ok i.describe := by
  have hnat : (i.dr.setWidth 8).toNat = i.dr.toNat := by
    have hlt := i.dr.isLt
    rw [BitVec.toNat_setWidth]
    exact Nat.mod_eq_of_lt (by omega)
  have hoffset : offset i.word 9 = .ok (i.offset 9) :=
    offset_eq_instruction i (by decide) (by decide)
  unfold describe
  rw [operation?_eq, ok_bind, dr_eq, ok_bind, hoffset, ok_bind, hnat]
  rfl

end Instruction

/-! ### Registers -/

/-- The sign class of a word, by its highest bit. -/
def condition (value : Word) : Except Panic Condition := do
  if value = 0 then return .zero
  if (← shiftRight value 15) = 1 then return .negative
  return .positive

/-- The content of the register that a byte selects. -/
def get (regs : Registers) (number : Byte) : Except Panic Word :=
  (regs.get? number.toNat).mapError .register

/-- Writes the register that a byte selects. -/
def set (regs : Registers) (number : Byte) (value : Word) : Except Panic Registers := do
  let written ← (regs.set? number.toNat value).mapError .register
  return { written with condition := ← condition value }

theorem condition_eq (value : Word) : condition value = .ok (.ofWord value) := by
  -- the highest bit is all that is left of the word
  have hsign : value >>> 15 = 1 ↔ value.msb = true := by
    have hlt := value.isLt
    rw [BitVec.msb_eq_true_iff_two_mul_ge, ← BitVec.toNat_inj, BitVec.toNat_ushiftRight,
      Nat.shiftRight_eq_div_pow]
    show value.toNat / 2 ^ 15 = 1 ↔ _
    omega
  unfold condition Condition.ofWord
  by_cases hzero : value = 0
  · rw [if_pos hzero, if_pos hzero]
    rfl
  · rw [if_neg hzero, if_neg hzero, shiftRight_of_lt (by decide), ok_bind]
    by_cases hmsb : value.msb = true
    · rw [if_pos (hsign.2 hmsb), if_pos hmsb]
      rfl
    · rw [if_neg (mt hsign.1 hmsb), if_neg hmsb]
      rfl

/-- A selector of three bits is a number below eight, and is the same again. -/
theorem selector_eq (r : BitVec 3) :
    (r.setWidth 8).toNat < 8 ∧ BitVec.ofNat 3 (r.setWidth 8).toNat = r := by
  have hlt : r.toNat < 8 := r.isLt
  have hnat : (r.setWidth 8).toNat = r.toNat := by
    rw [BitVec.toNat_setWidth]
    exact Nat.mod_eq_of_lt (by omega)
  rw [hnat]
  exact ⟨hlt, by rw [BitVec.ofNat_toNat, BitVec.setWidth_eq]⟩

/-- **A field of three bits selects a register.** -/
theorem get_eq (regs : Registers) (r : BitVec 3) : get regs (r.setWidth 8) = .ok (regs.get r) := by
  obtain ⟨hlt, hback⟩ := selector_eq r
  unfold get Registers.get?
  rw [if_pos hlt, hback]
  rfl

-- other bytes do not
example : get .initial 8 = .error (.register (.read 8)) := rfl

theorem set_eq (regs : Registers) (r : BitVec 3) (value : Word) :
    set regs (r.setWidth 8) value = .ok (regs.set r value) := by
  obtain ⟨hlt, hback⟩ := selector_eq r
  unfold set Registers.set?
  rw [if_pos hlt, hback, condition_eq]
  rfl

/-! ### Memory -/

/-- The word in the cell with a number. -/
def peek (m : Memory) (index : ℕ) : Except Panic Word := do
  require (index < 65536) (.index index 65536)
  return m.peek (.ofNat 16 index)

/-- Writes the cell with a number. -/
def poke (m : Memory) (index : ℕ) (value : Word) : Except Panic Memory := do
  require (index < 65536) (.index index 65536)
  return m.write (.ofNat 16 index) value

/-- Reads a word. If it is the status register, the character that is found is taken first. -/
def read (m : Memory) (a : Word) : Except Panic (Word × Memory) := do
  let m ←
    if a = Memory.statusAddress then
      match m.keyboard.poll.take with
      | (some c, rest) => do
        poke (← poke (m.connect rest) Memory.dataAddress.toNat c) a.toNat Memory.readyStatus
      | (none, rest) => poke (m.connect rest) a.toNat 0
    else
      pure m
  return (← peek m a.toNat, m)

/-- **An address is the number of a cell.** -/
theorem peek_eq (m : Memory) (a : Word) : peek m a.toNat = .ok (m.peek a) := by
  unfold peek
  rw [require_bind a.isLt, BitVec.ofNat_toNat, BitVec.setWidth_eq]
  rfl

theorem poke_eq (m : Memory) (a value : Word) : poke m a.toNat value = .ok (m.write a value) := by
  unfold poke
  rw [require_bind a.isLt, BitVec.ofNat_toNat, BitVec.setWidth_eq]
  rfl

theorem read_eq (m : Memory) (a : Word) : read m a = .ok (m.read a) := by
  unfold read
  by_cases ha : a = Memory.statusAddress
  · -- the addresses of the two device registers are those of cells as well
    subst ha
    rw [if_pos rfl, Keyboard.take_poll, Memory.read_statusAddress]
    unfold Memory.refresh
    cases m.keyboard.next? with
    | some next =>
      obtain ⟨c, rest⟩ := next
      show ((poke (m.connect rest) Memory.dataAddress.toNat c >>= fun m =>
        poke m Memory.statusAddress.toNat Memory.readyStatus) >>= fun m =>
        peek m Memory.statusAddress.toNat >>= fun w => .ok (w, m)) = _
      rw [poke_eq, ok_bind, poke_eq, ok_bind, peek_eq, ok_bind]
      rfl
    | none =>
      show (poke m Memory.statusAddress.toNat 0 >>= fun m =>
        peek m Memory.statusAddress.toNat >>= fun w => .ok (w, m)) = _
      rw [poke_eq, ok_bind, peek_eq, ok_bind]
  · rw [if_neg ha, Memory.read_of_ne m ha]
    show (peek m a.toNat >>= fun w => .ok (w, m)) = _
    rw [peek_eq, ok_bind]

/-! ### Strings -/

/-- The byte of a word of a plain string. -/
def plainBytes (w : Word) : Except Panic (List Byte) :=
  .ok [w.low]

/-- The bytes of a word of a packed string, the high one by a shift. -/
def packedBytes (w : Word) : Except Panic (List Byte) := do
  let high := Word.low (← shiftRight w 8)
  return if high = 0 then [w.low] else [w.low, high]

theorem packedBytes_eq (w : Word) : packedBytes w = .ok (TrapRoutine.packedBytes w) := by
  -- shifted down, the high byte is the low one
  have hhigh : Word.low (w >>> 8) = w.high := by
    have hlt := w.isLt
    apply BitVec.eq_of_toNat_eq
    rw [Word.toNat_low, Word.toNat_high, BitVec.toNat_ushiftRight, Nat.shiftRight_eq_div_pow]
    show w.toNat / 256 % 256 = w.toNat / 256
    omega
  unfold packedBytes
  rw [shiftRight_of_lt (by decide), ok_bind, hhigh]
  rfl

/-- Collects the bytes of a string behind those already collected. -/
def string (bytesOf : Word → Except Panic (List Byte)) (m : Memory) (a : Word)
    (collected : List Byte) : Except Panic (List Byte × Memory) :=
  match _hread : read m a with
  | .error panic => .error panic
  | .ok (word, m') =>
    if _hword : word = 0 then .ok (collected, m')
    else bytesOf word >>= fun bytes => string bytesOf m' (a + 1) (collected ++ bytes)
termination_by m.stringBound a
decreasing_by
  rw [read_eq] at _hread
  have hpair : m.read a = (word, m') := Except.ok.inj _hread
  have hlt := m.stringBound_read_lt a (by rw [hpair]; exact _hword)
  rw [hpair] at hlt
  exact hlt

/-- One word more in front of a string, whatever has been read behind it. -/
theorem collect_cons (bytes : Word → List Byte) (collected : List Byte) (word : Word)
    (rest : List Word × Memory) :
    (collected ++ bytes word ++ rest.1.flatMap bytes, rest.2) =
      (collected ++ (word :: rest.1, rest.2).1.flatMap bytes, (word :: rest.1, rest.2).2) := by
  rw [List.append_assoc, List.flatMap_cons]

/-- **Strings of any length**, wherever they lie. -/
theorem string_eq {bytesOf : Word → Except Panic (List Byte)} {bytes : Word → List Byte}
    (hbytes : ∀ w, bytesOf w = .ok (bytes w)) (m : Memory) (a : Word) (collected : List Byte) :
    string bytesOf m a collected =
      .ok (collected ++ (m.readString a).1.flatMap bytes, (m.readString a).2) := by
  -- by the number of words that the string can still have
  induction hn : m.stringBound a using Nat.strongRecOn generalizing m a collected with
  | ind n ih =>
    unfold string
    split
    · next panic hread =>
      -- no word stops it
      rw [read_eq] at hread
      cases hread
    · next word m' hread =>
      rw [read_eq] at hread
      have hpair : m.read a = (word, m') := Except.ok.inj hread
      have hfirst : (m.read a).1 = word := congrArg Prod.fst hpair
      have hrest : (m.read a).2 = m' := congrArg Prod.snd hpair
      rw [m.readString_eq a, hfirst, hrest]
      by_cases hword : word = 0
      · rw [dif_pos hword, if_pos hword, List.flatMap_nil, List.append_nil]
      · -- behind this word the string can only be shorter
        have hlt := m.stringBound_read_lt a (by rw [hfirst]; exact hword)
        rw [hrest, hn] at hlt
        rw [dif_neg hword, if_neg hword, hbytes, ok_bind, ih _ hlt m' (a + 1) _ rfl]
        exact congrArg Except.ok (collect_cons bytes collected word _)

/-! ### Operands and addresses -/

section Hardware

variable (i : Instruction) (h : Hardware)

def firstOperand : Except Panic Word := do
  get h.registers (← sr1 i)

def secondOperand : Except Panic Word := do
  if ← isImmediate i then immediate i else get h.registers (← sr2 i)

def relativeAddress (width : ℕ) : Except Panic Word := do
  return h.registers.pc + (← offset i.word width)

def baseAddress : Except Panic Word := do
  return (← firstOperand i h) + (← offset i.word 6)

def deliver (value : Word) : Except Panic Hardware := do
  return { h with registers := ← set h.registers (← dr i) value }

def deliverFrom (a : Word) : Except Panic Hardware := do
  let found ← read h.memory a
  deliver i { h with memory := found.2 } found.1

def storeTo (a : Word) : Except Panic Hardware := do
  let value ← get h.registers (← dr i)
  return { h with memory := ← poke h.memory a.toNat value }

theorem firstOperand_eq : firstOperand i h = .ok (h.firstOperand i) := by
  unfold firstOperand
  rw [sr1_eq, ok_bind, get_eq]
  rfl

theorem secondOperand_eq : secondOperand i h = .ok (h.secondOperand i) := by
  unfold secondOperand Hardware.secondOperand
  rw [isImmediate_eq, ok_bind]
  cases i.isImmediate with
  | true => exact immediate_eq i
  | false =>
    show (sr2 i >>= fun r => get h.registers r) = .ok (h.registers.get i.sr2)
    rw [sr2_eq, ok_bind, get_eq]

theorem relativeAddress_eq {width : ℕ} (hpos : 0 < width) (hle : width ≤ 16) :
    relativeAddress i h width = .ok (h.relativeAddress i width) := by
  unfold relativeAddress
  rw [offset_eq_instruction i hpos hle, ok_bind]
  rfl

theorem baseAddress_eq : baseAddress i h = .ok (h.baseAddress i) := by
  unfold baseAddress
  rw [firstOperand_eq, ok_bind, offset_eq_instruction i (by decide) (by decide), ok_bind]
  rfl

theorem deliver_eq (value : Word) : deliver i h value = .ok (h.deliver i value) := by
  unfold deliver
  rw [dr_eq, ok_bind, set_eq, ok_bind]
  rfl

theorem deliverFrom_eq (a : Word) : deliverFrom i h a = .ok (h.deliverFrom i a) := by
  unfold deliverFrom
  rw [read_eq, ok_bind, deliver_eq]
  rfl

theorem storeTo_eq (a : Word) : storeTo i h a = .ok (h.storeTo i a) := by
  unfold storeTo
  rw [dr_eq, ok_bind, get_eq, ok_bind, poke_eq, ok_bind]
  rfl

/-! ### Operations -/

/-- Executes an operation for registers and memory. -/
def execute : Operation → Option (Except Panic Hardware)
  | .add => some do
    let operand ← secondOperand i h
    deliver i h ((← firstOperand i h) + operand)
  | .and => some do
    let operand ← secondOperand i h
    deliver i h ((← firstOperand i h) &&& operand)
  | .not => some do
    deliver i h (~~~(← firstOperand i h))
  | .br => some do
    if (← nzp i) &&& h.registers.condition.bits.setWidth 16 ≠ 0 then
      return { h with registers := h.registers.jump (← relativeAddress i h 9) }
    return h
  | .jsr => some do
    let target ← if ← callsByOffset i then relativeAddress i h 11 else firstOperand i h
    return { h with registers := (← set h.registers 7 h.registers.pc).jump target }
  | .jmp => some do
    return { h with registers := h.registers.jump (← firstOperand i h) }
  | .ld => some do
    deliverFrom i h (← relativeAddress i h 9)
  | .ldi => some do
    let pointer ← read h.memory (← relativeAddress i h 9)
    deliverFrom i { h with memory := pointer.2 } pointer.1
  | .ldr => some do
    deliverFrom i h (← baseAddress i h)
  | .lea => some do
    deliver i h (← relativeAddress i h 9)
  | .st => some do
    storeTo i h (← relativeAddress i h 9)
  | .sti => some do
    let pointer ← read h.memory (← relativeAddress i h 9)
    storeTo i { h with memory := pointer.2 } pointer.1
  | .str => some do
    storeTo i h (← baseAddress i h)
  | .rti | .res | .trap => none

theorem asks_iff (c : Condition) :
    i.nzp.setWidth 16 &&& c.bits.setWidth 16 ≠ (0 : Word) ↔ i.nzp &&& c.bits ≠ 0 := by
  -- of a word that is made from three bits, no other bit can differ from zero
  have hall : ∀ b : BitVec 3, b.setWidth 16 = (0 : Word) ↔ b = 0 := by decide
  rw [← BitVec.setWidth_and]
  exact not_congr (hall _)

/-- **Every instruction for registers and memory**, on all registers and all memories. -/
theorem execute_eq : execute i h i.operation = (h.execute? i).map .ok := by
  have hrelative : relativeAddress i h 9 = .ok (h.relativeAddress i 9) :=
    relativeAddress_eq i h (by decide) (by decide)
  have hfar : relativeAddress i h 11 = .ok (h.relativeAddress i 11) :=
    relativeAddress_eq i h (by decide) (by decide)
  unfold Hardware.execute?
  cases i.operation with
  | rti | res | trap => rfl
  | add =>
    refine congrArg some ?_
    rw [secondOperand_eq, ok_bind, firstOperand_eq, ok_bind, deliver_eq]
    rfl
  | and =>
    refine congrArg some ?_
    rw [secondOperand_eq, ok_bind, firstOperand_eq, ok_bind, deliver_eq]
    rfl
  | not =>
    refine congrArg some ?_
    rw [firstOperand_eq, ok_bind, deliver_eq]
    rfl
  | br =>
    refine congrArg some ?_
    rw [nzp_eq, ok_bind, hrelative, ok_bind]
    unfold Hardware.br
    by_cases hasks : i.nzp &&& h.registers.condition.bits ≠ 0
    · rw [if_pos hasks, if_pos ((asks_iff i _).2 hasks)]
      rfl
    · rw [if_neg hasks, if_neg (mt (asks_iff i _).1 hasks)]
      rfl
  | jsr =>
    refine congrArg some ?_
    -- the number of the link register is a constant, but a byte like any other
    have hseven := set_eq h.registers 7 h.registers.pc
    rw [callsByOffset_eq, ok_bind, hfar, firstOperand_eq]
    unfold Hardware.jsr
    cases i.callsByOffset with
    | true =>
      show ((set h.registers ((7 : BitVec 3).setWidth 8) h.registers.pc) >>= _) = _
      rw [hseven]
      rfl
    | false =>
      show ((set h.registers ((7 : BitVec 3).setWidth 8) h.registers.pc) >>= _) = _
      rw [hseven]
      rfl
  | jmp =>
    refine congrArg some ?_
    rw [firstOperand_eq, ok_bind]
    rfl
  | ld =>
    refine congrArg some ?_
    rw [hrelative, ok_bind, deliverFrom_eq]
    rfl
  | ldi =>
    refine congrArg some ?_
    rw [hrelative, ok_bind, read_eq, ok_bind, deliverFrom_eq]
    rfl
  | ldr =>
    refine congrArg some ?_
    rw [baseAddress_eq, ok_bind, deliverFrom_eq]
    rfl
  | lea =>
    refine congrArg some ?_
    rw [hrelative, ok_bind, deliver_eq]
    rfl
  | st =>
    refine congrArg some ?_
    rw [hrelative, ok_bind, storeTo_eq]
    rfl
  | sti =>
    refine congrArg some ?_
    rw [hrelative, ok_bind, read_eq, ok_bind, storeTo_eq]
    rfl
  | str =>
    refine congrArg some ?_
    rw [baseAddress_eq, ok_bind, storeTo_eq]
    rfl

end Hardware

end LC3.Checked
