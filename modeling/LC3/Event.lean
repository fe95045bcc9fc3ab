import LC3.Fault
import LC3.Image
import LC3.Instruction

/-!
# What is logged

Everything that the machine and its devices have to say besides program output is an **event**. Its
level tells how much a listener has to care, its text is fixed.
-/

namespace LC3

/-- How much a listener has to care about an event. -/
inductive Level
  | warn
  | info
  | debug
  | trace
deriving DecidableEq

/-- Something worth a line in the log. -/
inductive Event
  /-- The instruction at an address is about to be executed. -/
  | fetched (address : Word) (instruction : Instruction)
  /-- The program ended itself by the instruction at an address. -/
  | halted (address : Word)
  /-- The program was ended by a fault. -/
  | failed (fault : Fault)
  /-- An image was placed. -/
  | loaded (placement : Placement)
  /-- An image has a byte behind its last complete word. -/
  | oddByte (origin : Word)
  /-- An image has more words than fit between its origin and the top of memory. -/
  | cutOff (origin : Word) (available capacity : Nat)
  /-- The terminal reports no more keys. -/
  | terminalStopped (reason : String)
  /-- The input stream broke. -/
  | streamStopped (reason : String)
  /-- The terminal stays in its line mode. -/
  | rawModeRefused (reason : String)
deriving DecidableEq

namespace Event

/-- The level of an event. -/
def level : Event → Level
  | fetched _ _ => .trace
  | halted _ => .info
  | failed _ | loaded _ => .debug
  | oddByte _ | cutOff _ _ _ | terminalStopped _ | streamStopped _ | rawModeRefused _ => .warn

/-- The text of an event. -/
def text : Event → String
  | fetched address instruction => s!"{address.hex}: {instruction.describe}"
  | halted address => s!"Program halted at {address.hex}"
  | failed fault => s!"Halting after fatal error: {fault.message}"
  | loaded placement => s!"Loaded {placement.describe}"
  | oddByte origin => s!"Ignoring trailing odd byte of image loaded at {origin.hex}"
  | cutOff origin available capacity =>
    s!"Image at {origin.hex} has {available} words, " ++
      s!"only {capacity} fit below the top of memory"
  | terminalStopped reason => s!"Stopped reading keyboard events: {reason}"
  | streamStopped reason => s!"Stopped reading standard input: {reason}"
  | rawModeRefused reason => s!"Could not set terminal to raw mode: {reason}"

end Event

end LC3
