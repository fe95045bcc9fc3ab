import LC3.IoError
import LC3.Numeral

/-!
# Faults

A **fault** ends a program for good: the machine halts and the faulting instruction is not skipped.
Two of them come from the program (an opcode or a trap vector that means nothing) and name the
address of the instruction; two come from the console; the last one is the user's wish.
-/

namespace LC3

/-- Why a program was ended before it halted by itself. -/
inductive Fault
  /-- The instruction at an address has an opcode without an operation. -/
  | invalidOpcode (opcode : BitVec 4) (address : Word)
  /-- The instruction at an address calls a trap vector without a routine. -/
  | invalidTrap (vector : Byte) (address : Word)
  /-- A character was asked for and none can come any more. -/
  | inputClosed
  /-- The console did not take the output. -/
  | output (error : IoError)
  /-- The user asked to stop. -/
  | interrupted
deriving DecidableEq

namespace Fault

/-- The text of a fault of the console. -/
def consoleMessage (reason : String) : String :=
  "Error during reading Stdin or writing program output to Stdout: " ++ reason

/-- The text of a fault. -/
def message : Fault → String
  | invalidOpcode opcode address =>
    s!"Invalid opcode 0b{Numeral.binary 4 opcode.toNat} at address {address.hex}"
  | invalidTrap vector address => s!"Invalid trap code {vector.hex} at address {address.hex}"
  | inputClosed => consoleMessage "Keyboard input closed"
  | output error => consoleMessage error.message
  | interrupted => "Execution interrupted by user"

end Fault

end LC3
