import LC3.Numeral

/-!
# Instructions

An **instruction** is a word read as fields. Bits 15 to 12 select one of sixteen operations, so
every word has one; which of the other fields mean something depends on the operation, but each of
them can be read off any word. Offsets and immediate operands are two's complement numbers of 5, 6,
9 or 11 bits, widened to a word so that adding them to an address wraps as all word arithmetic does.

* `Operation.ofOpcode` — the operation of each opcode, `opcode_ofOpcode` its inverse.
* `TrapRoutine.ofVector?` — the six trap vectors with a routine, and no other.
* `Instruction.describe` — the line that a trace shows for an instruction.
-/

namespace LC3

/-! ### Operations -/

/-- What an instruction asks the machine to do. -/
inductive Operation
  /-- Branch if the condition is among those asked for. -/
  | br
  /-- Add a register and a register or immediate operand. -/
  | add
  /-- Load from an address relative to the program counter. -/
  | ld
  /-- Store to an address relative to the program counter. -/
  | st
  /-- Jump to a subroutine and keep the return address. -/
  | jsr
  /-- Bitwise conjunction of a register and a register or immediate operand. -/
  | and
  /-- Load from an address relative to a register. -/
  | ldr
  /-- Store to an address relative to a register. -/
  | str
  /-- Return from interrupt, which the machine does not support. -/
  | rti
  /-- Bitwise complement of a register. -/
  | not
  /-- Load from an address found in memory. -/
  | ldi
  /-- Store to an address found in memory. -/
  | sti
  /-- Jump to the address in a register. -/
  | jmp
  /-- Reserved, never valid. -/
  | res
  /-- Put an address relative to the program counter into a register. -/
  | lea
  /-- Call a trap routine. -/
  | trap
deriving DecidableEq

namespace Operation

/-- The operation that an opcode selects; the last line is opcode 15. -/
def ofOpcode (opcode : BitVec 4) : Operation :=
  match opcode.toNat with
  | 0 => br
  | 1 => add
  | 2 => ld
  | 3 => st
  | 4 => jsr
  | 5 => and
  | 6 => ldr
  | 7 => str
  | 8 => rti
  | 9 => not
  | 10 => ldi
  | 11 => sti
  | 12 => jmp
  | 13 => res
  | 14 => lea
  | _ => trap

/-- The opcode that selects an operation. -/
def opcode : Operation → BitVec 4
  | br => 0
  | add => 1
  | ld => 2
  | st => 3
  | jsr => 4
  | and => 5
  | ldr => 6
  | str => 7
  | rti => 8
  | not => 9
  | ldi => 10
  | sti => 11
  | jmp => 12
  | res => 13
  | lea => 14
  | trap => 15

/-- The operation with the given number, if it is an opcode at all. -/
def ofNat? (number : Nat) : Option Operation :=
  if number < 16 then some (ofOpcode (BitVec.ofNat 4 number)) else none

/-- The name that a trace shows. -/
def name : Operation → String
  | br => "Br"
  | add => "Add"
  | ld => "Ld"
  | st => "St"
  | jsr => "Jsr"
  | and => "And"
  | ldr => "Ldr"
  | str => "Str"
  | rti => "Rti"
  | not => "Not"
  | ldi => "Ldi"
  | sti => "Sti"
  | jmp => "Jmp"
  | res => "Res"
  | lea => "Lea"
  | trap => "Trap"

@[simp] theorem ofOpcode_opcode (o : Operation) : ofOpcode o.opcode = o := by
  cases o <;> rfl

@[simp] theorem opcode_ofOpcode (b : BitVec 4) : (ofOpcode b).opcode = b := by
  revert b; decide

end Operation

/-! ### Trap routines -/

/-- The services that a program can call by a trap vector. -/
inductive TrapRoutine
  /-- Read a character without showing it. -/
  | getc
  /-- Write one character. -/
  | out
  /-- Write a string of one character per word. -/
  | puts
  /-- Ask for a character and show it. -/
  | input
  /-- Write a string of two characters per word. -/
  | putsp
  /-- End the program. -/
  | halt
deriving DecidableEq

namespace TrapRoutine

/-- The routine with the given number, if there is one. -/
def ofNat? : Nat → Option TrapRoutine
  | 0x20 => some getc
  | 0x21 => some out
  | 0x22 => some puts
  | 0x23 => some input
  | 0x24 => some putsp
  | 0x25 => some halt
  | _ => none

/-- The routine of a trap vector, if it has one. -/
def ofVector? (vector : Byte) : Option TrapRoutine := ofNat? vector.toNat

/-- The trap vector of a routine. -/
def vector : TrapRoutine → Byte
  | getc => 0x20
  | out => 0x21
  | puts => 0x22
  | input => 0x23
  | putsp => 0x24
  | halt => 0x25

theorem ofVector?_eq_some_iff {v : Byte} {t : TrapRoutine} :
    ofVector? v = some t ↔ v = t.vector := by
  revert v
  cases t <;> decide

end TrapRoutine

/-! ### The fields of an instruction -/

/-- A word to be executed. -/
structure Instruction where
  /-- The word as it lies in memory. -/
  word : Word
deriving DecidableEq

namespace Instruction

variable (i : Instruction)

/-- Bits 15 to 12. -/
def opcode : BitVec 4 := i.word.extractLsb' 12 4

/-- The operation that the opcode selects. -/
def operation : Operation := .ofOpcode i.opcode

/-- Bits 11 to 9: the register that is written, or whose content is stored. -/
def dr : BitVec 3 := i.word.extractLsb' 9 3

/-- Bits 8 to 6: the first operand or the base register. -/
def sr1 : BitVec 3 := i.word.extractLsb' 6 3

/-- Bits 2 to 0: the second operand. -/
def sr2 : BitVec 3 := i.word.extractLsb' 0 3

/-- Bits 11 to 9 as the conditions negative, zero and positive under which a branch is taken. -/
def nzp : BitVec 3 := i.word.extractLsb' 9 3

/-- Bit 5: the second operand is the immediate one. -/
def isImmediate : Bool := i.word.getLsbD 5

/-- Bit 11: a subroutine is called by offset and not by register. -/
def callsByOffset : Bool := i.word.getLsbD 11

/-- The lowest `width` bits as a two's complement number, widened to a word. -/
def offset (width : Nat) : Word := (i.word.setWidth width).signExtend 16

/-- The immediate operand of five bits. -/
def immediate : Word := i.offset 5

/-- Bits 7 to 0: the trap routine that is called. -/
def trapVector : Byte := i.word.setWidth 8

/-- The line that a trace shows for an instruction, whether it is valid or not. -/
def describe : String :=
  s!"{i.word.hex} Op: Some({i.operation.name}), DR: {Numeral.binary 3 i.dr.toNat}, " ++
    s!"PC_Off: {(i.offset 9).toInt}"

end Instruction

end LC3
