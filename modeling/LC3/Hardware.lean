import LC3.Instruction
import LC3.Memory
import LC3.Registers

/-!
# What instructions do

The hardware is the register file together with memory. Thirteen of the sixteen operations work on
these two alone, and each of them is a function here. The program counter already points behind the
instruction when it is executed, so that addresses relative to it are relative to the next
instruction; they wrap as all addresses do. Operands are read before anything is written, and an
address that is found in memory is read before the access through it.

The remaining three are not executed by the hardware: trap calls concern the console, and two
operations are invalid (`execute?_eq_none_iff`).
-/

namespace LC3

/-- Registers and memory. -/
structure Hardware where
  /-- The register file. -/
  registers : Registers
  /-- The memory with its keyboard. -/
  memory : Memory
deriving DecidableEq

namespace Hardware

/-- Cleared registers and memory. -/
def cleared (keyboard : Keyboard) : Hardware := ⟨.initial, .cleared keyboard⟩

/-! ### Operands and addresses -/

variable (i : Instruction) (h : Hardware)

/-- The first operand, or the content of the base register. -/
def firstOperand : Word := h.registers.get i.sr1

/-- The second operand of an addition or conjunction: immediate, or a register. -/
def secondOperand : Word := if i.isImmediate then i.immediate else h.registers.get i.sr2

/-- The address at an offset of `width` bits from the next instruction. -/
def relativeAddress (width : Nat) : Word := h.registers.pc + i.offset width

/-- The address at an offset from the base register. -/
def baseAddress : Word := h.firstOperand i + i.offset 6

/-- Puts a value into the destination register. -/
def deliver (value : Word) : Hardware := { h with registers := h.registers.set i.dr value }

/-- Reads a word from memory and puts it into the destination register. -/
def deliverFrom (a : Word) : Hardware :=
  { registers := h.registers.set i.dr (h.memory.read a).1
    memory := (h.memory.read a).2 }

/-- Writes the content of the source register to memory. -/
def storeTo (a : Word) : Hardware :=
  { h with memory := h.memory.write a (h.registers.get i.dr) }

/-- Reads an address from memory. -/
def indirect (a : Word) : Word × Hardware :=
  ((h.memory.read a).1, { h with memory := (h.memory.read a).2 })

/-! ### Operations -/

/-- Addition. -/
def add : Hardware := h.deliver i (h.firstOperand i + h.secondOperand i)

/-- Bitwise conjunction. -/
def and : Hardware := h.deliver i (h.firstOperand i &&& h.secondOperand i)

/-- Bitwise complement. -/
def not : Hardware := h.deliver i (~~~ h.firstOperand i)

/-- Branch, if the condition is among those asked for. -/
def br : Hardware :=
  if i.nzp &&& h.registers.condition.bits ≠ 0 then
    { h with registers := h.registers.jump (h.relativeAddress i 9) }
  else h

/-- Jump to a subroutine. The target is found before the return address is put into R7, which as a
register written like any other determines the condition. -/
def jsr : Hardware :=
  let target := if i.callsByOffset then h.relativeAddress i 11 else h.firstOperand i
  { h with registers := (h.registers.set 7 h.registers.pc).jump target }

/-- Jump to the address in a register; through R7 this is the return from a subroutine. -/
def jmp : Hardware := { h with registers := h.registers.jump (h.firstOperand i) }

/-- Load relative to the program counter. -/
def ld : Hardware := h.deliverFrom i (h.relativeAddress i 9)

/-- Load from the address found relative to the program counter. -/
def ldi : Hardware :=
  let (a, h) := h.indirect (h.relativeAddress i 9)
  h.deliverFrom i a

/-- Load relative to a register. -/
def ldr : Hardware := h.deliverFrom i (h.baseAddress i)

/-- Load of the address itself. -/
def lea : Hardware := h.deliver i (h.relativeAddress i 9)

/-- Store relative to the program counter. -/
def st : Hardware := h.storeTo i (h.relativeAddress i 9)

/-- Store to the address found relative to the program counter. -/
def sti : Hardware :=
  let (a, h) := h.indirect (h.relativeAddress i 9)
  h.storeTo i a

/-- Store relative to a register. -/
def str : Hardware := h.storeTo i (h.baseAddress i)

/-- Executes an instruction that concerns registers and memory alone. -/
def execute? : Option Hardware :=
  match i.operation with
  | .br => some (h.br i)
  | .add => some (h.add i)
  | .ld => some (h.ld i)
  | .st => some (h.st i)
  | .jsr => some (h.jsr i)
  | .and => some (h.and i)
  | .ldr => some (h.ldr i)
  | .str => some (h.str i)
  | .not => some (h.not i)
  | .ldi => some (h.ldi i)
  | .sti => some (h.sti i)
  | .jmp => some (h.jmp i)
  | .lea => some (h.lea i)
  | .rti | .res | .trap => none

/-- The hardware executes every instruction but trap calls and those of the two invalid
operations. -/
theorem execute?_eq_none_iff :
    h.execute? i = none ↔ i.operation = .rti ∨ i.operation = .res ∨ i.operation = .trap := by
  unfold execute?
  split <;> simp_all

end Hardware

end LC3
