import LC3.Hardware
import Mathlib.Data.Int.Notation
import Mathlib.Data.Nat.Notation
import Mathlib.Logic.Function.Basic
import Mathlib.Tactic.IntervalCases

/-!
# The instruction set in plain numbers

The instruction set is a table: what an instruction reads, what it computes, and where the result
goes. This file writes the table down a second time, with numbers in place of bit vectors. A word is
a natural number, its fields are quotients and remainders by powers of two, an offset is an integer
that may be negative, and every result is an integer that is brought back below `2 ^ 16` by `wrap`.

* `decode` — the instruction that a word stands for; a word of one of the opcodes 8, 13 and 15
  stands for none of them (`decode_eq_none_iff`).
* `State.execute` — the table, with one line for each instruction.
* `State.cycle` — fetch, decode, execute; the program counter is behind the instruction when it is
  executed.
* `State.ofHardware` — hardware, read as numbers. Nothing is lost by reading
  (`ofHardware_injective`), so that a statement about the numbers is one about the hardware.

The only effect beyond registers and cells is that of reading the keyboard's status register, which
takes a character if there is one. It is the reason why `State.read` gives back a state, and why the
order of the reads of an indirect access matters.
-/

namespace LC3.Isa

/-- A number of sixteen bits. -/
abbrev Number := Fin (2 ^ 16)

/-- The integer modulo `2 ^ 16`. -/
def wrap (x : ℤ) : Number :=
  ⟨(x % 2 ^ 16).toNat, by omega⟩

/-! ### Fields -/

/-- The three bits of a word from bit `k` on, which select a register. -/
def selector (k w : ℕ) : Fin 8 :=
  ⟨w / 2 ^ k % 8, Nat.mod_lt _ (by decide)⟩

/-- Bit `k` of a word. -/
def bit (k w : ℕ) : Bool :=
  w / 2 ^ k % 2 = 1

/-- The lowest `n` bits of a word in two's complement. -/
def signed (n w : ℕ) : ℤ :=
  if 2 * (w % 2 ^ n) < 2 ^ n then w % 2 ^ n else w % 2 ^ n - 2 ^ n

/-! ### Instructions -/

/-- The second operand of an addition or conjunction. -/
inductive Operand
  | register (r : Fin 8)
  | immediate (x : ℤ)
deriving DecidableEq

/-- An instruction that concerns registers and memory alone. -/
inductive Instr
  | add (dst src : Fin 8) (operand : Operand)
  | and (dst src : Fin 8) (operand : Operand)
  | not (dst src : Fin 8)
  | br (negative zero positive : Bool) (offset : ℤ)
  | jmp (base : Fin 8)
  | jsr (offset : ℤ)
  | jsrr (base : Fin 8)
  | ld (dst : Fin 8) (offset : ℤ)
  | ldi (dst : Fin 8) (offset : ℤ)
  | ldr (dst base : Fin 8) (offset : ℤ)
  | lea (dst : Fin 8) (offset : ℤ)
  | st (src : Fin 8) (offset : ℤ)
  | sti (src : Fin 8) (offset : ℤ)
  | str (src base : Fin 8) (offset : ℤ)
deriving DecidableEq

/-- The second operand that a word names: bit 5 tells which of the two forms it has. -/
def operand (w : ℕ) : Operand :=
  if bit 5 w then .immediate (signed 5 w) else .register (selector 0 w)

/-- The instruction that a word stands for. -/
def decode (w : ℕ) : Option Instr :=
  match w / 2 ^ 12 % 16 with
  | 0 => some (.br (bit 11 w) (bit 10 w) (bit 9 w) (signed 9 w))
  | 1 => some (.add (selector 9 w) (selector 6 w) (operand w))
  | 2 => some (.ld (selector 9 w) (signed 9 w))
  | 3 => some (.st (selector 9 w) (signed 9 w))
  | 4 => some (if bit 11 w then .jsr (signed 11 w) else .jsrr (selector 6 w))
  | 5 => some (.and (selector 9 w) (selector 6 w) (operand w))
  | 6 => some (.ldr (selector 9 w) (selector 6 w) (signed 6 w))
  | 7 => some (.str (selector 9 w) (selector 6 w) (signed 6 w))
  | 9 => some (.not (selector 9 w) (selector 6 w))
  | 10 => some (.ldi (selector 9 w) (signed 9 w))
  | 11 => some (.sti (selector 9 w) (signed 9 w))
  | 12 => some (.jmp (selector 6 w))
  | 14 => some (.lea (selector 9 w) (signed 9 w))
  | _ => none

/-! ### States -/

/-- Registers and memory as numbers. -/
structure State where
  register : Fin 8 → Number
  pc : Number
  condition : Condition
  cell : Number → Number
  keyboard : Keyboard

/-- The sign class of a number in two's complement. -/
def signClass (v : Number) : Condition :=
  if v.val = 0 then .zero else if 2 ^ 15 ≤ v.val then .negative else .positive

namespace State

/-- Reads a cell. At the keyboard's status register a waiting character goes to the data register,
and the answer tells whether there was one. -/
def read (a : Number) (σ : State) : Number × State :=
  if a.val = 0xFE00 then
    match σ.keyboard.next? with
    | some (c, rest) =>
      (0x8000, { σ with
        cell := Function.update (Function.update σ.cell 0xFE02 c.toFin) 0xFE00 0x8000
        keyboard := rest })
    | none => (0, { σ with cell := Function.update σ.cell 0xFE00 0 })
  else (σ.cell a, σ)

/-- Writes a cell. -/
def write (a v : Number) (σ : State) : State :=
  { σ with cell := Function.update σ.cell a v }

/-- Puts an integer into a register and its sign class into the condition. -/
def put (r : Fin 8) (x : ℤ) (σ : State) : State :=
  { σ with register := Function.update σ.register r (wrap x), condition := signClass (wrap x) }

/-- Goes on at an address. -/
def jump (x : ℤ) (σ : State) : State :=
  { σ with pc := wrap x }

/-- The value of a second operand. -/
def value (σ : State) : Operand → Number
  | .register r => σ.register r
  | .immediate x => wrap x

/-- The condition is among those that a branch asks for. -/
def meets (σ : State) (negative zero positive : Bool) : Bool :=
  match σ.condition with
  | .negative => negative
  | .zero => zero
  | .positive => positive

/-- Reads a cell and puts its content into a register. -/
def load (r : Fin 8) (a : Number) (σ : State) : State :=
  let (v, σ') := σ.read a
  σ'.put r v.val

/-- The table of the instruction set. The program counter is behind the instruction already. -/
def execute (σ : State) : Instr → State
  | .add dst src b => σ.put dst ((σ.register src).val + (σ.value b).val)
  | .and dst src b => σ.put dst (((σ.register src).val &&& (σ.value b).val : ℕ) : ℤ)
  | .not dst src => σ.put dst (2 ^ 16 - 1 - (σ.register src).val)
  | .br n z p offset => if σ.meets n z p then σ.jump (σ.pc.val + offset) else σ
  | .jmp base => σ.jump (σ.register base).val
  | .jsr offset => (σ.put 7 σ.pc.val).jump (σ.pc.val + offset)
  | .jsrr base => (σ.put 7 σ.pc.val).jump (σ.register base).val
  | .ld dst offset => σ.load dst (wrap (σ.pc.val + offset))
  | .ldi dst offset =>
    let (a, σ') := σ.read (wrap (σ.pc.val + offset))
    σ'.load dst a
  | .ldr dst base offset => σ.load dst (wrap ((σ.register base).val + offset))
  | .lea dst offset => σ.put dst (σ.pc.val + offset)
  | .st src offset => σ.write (wrap (σ.pc.val + offset)) (σ.register src)
  | .sti src offset =>
    let (a, σ') := σ.read (wrap (σ.pc.val + offset))
    σ'.write a (σ.register src)
  | .str src base offset =>
    σ.write (wrap ((σ.register base).val + offset)) (σ.register src)

/-- Fetches the word at the program counter, which then points behind it. -/
def fetch (σ : State) : ℕ × State :=
  let (w, σ') := σ.read σ.pc
  (w.val, σ'.jump (σ.pc.val + 1))

/-- Fetches, decodes and executes one instruction, if the word that was fetched stands for one. -/
def cycle (σ : State) : Option State :=
  let (w, σ') := σ.fetch
  (decode w).map σ'.execute

/-- Hardware as numbers. -/
def ofHardware (h : Hardware) : State where
  register r := (h.registers.get (.ofFin r)).toFin
  pc := h.registers.pc.toFin
  condition := h.registers.condition
  cell a := (h.memory.peek (.ofFin a)).toFin
  keyboard := h.memory.keyboard

/-- Hardware is determined by its numbers. -/
theorem ofHardware_injective : Function.Injective ofHardware := by
  rintro ⟨⟨general, pc, condition⟩, ⟨cells, keyboard⟩⟩
    ⟨⟨general', pc', condition'⟩, ⟨cells', keyboard'⟩⟩ h
  have hreg : general = general' := by
    refine Bank.ext fun r => BitVec.eq_of_toFin_eq ?_
    exact congrFun (congrArg State.register h) r.toFin
  have hcell : cells = cells' := by
    refine Bank.ext fun a => BitVec.eq_of_toFin_eq ?_
    exact congrFun (congrArg State.cell h) a.toFin
  have hpc : pc = pc' := BitVec.eq_of_toFin_eq (congrArg State.pc h)
  have hcond : condition = condition' := congrArg State.condition h
  have hkey : keyboard = keyboard' := congrArg State.keyboard h
  rw [hreg, hcell, hpc, hcond, hkey]

end State

/-- The words without an instruction are those of the two invalid operations and of the trap
calls. -/
theorem decode_eq_none_iff (w : ℕ) :
    decode w = none ↔ w / 2 ^ 12 % 16 ∈ [8, 13, 15] := by
  have hlt : w / 2 ^ 12 % 16 < 16 := Nat.mod_lt _ (by decide)
  unfold decode
  generalize w / 2 ^ 12 % 16 = k at hlt ⊢
  interval_cases k <;> simp

end LC3.Isa
