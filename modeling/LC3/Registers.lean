import LC3.Bank
import LC3.Numeral

/-!
# The register file

Eight general registers, the program counter and the **condition**, which is the sign class of the
value last written to a general register. Writing a register is the only way by which a program
changes the condition, so `set` derives it; jumps and branches leave it alone.
-/

namespace LC3

/-! ### Conditions -/

/-- The sign class of a word in two's complement. -/
inductive Condition
  | positive
  | zero
  | negative
deriving DecidableEq

namespace Condition

/-- The sign class of a word: zero, or as bit 15 says. -/
def ofWord (w : Word) : Condition :=
  if w = 0 then zero else if w.msb then negative else positive

/-- The bit that stands for a condition among those that a branch asks for. -/
def bits : Condition → BitVec 3
  | positive => 0b001
  | zero => 0b010
  | negative => 0b100

/-- The name that a description of the registers shows. -/
def name : Condition → String
  | positive => "Pos"
  | zero => "Zero"
  | negative => "Neg"

end Condition

/-! ### Registers -/

/-- The address of the first instruction of a program. -/
def programStart : Word := 0x3000

/-- A word as the content of a register, in hexadecimal and in two's complement. -/
def Word.describe (w : Word) : String := s!"{w.hex} ({w.toInt})"

/-- The general registers, the program counter and the condition. -/
structure Registers where
  /-- The registers R0 to R7. -/
  general : Bank Word 3
  /-- The address of the next instruction. -/
  pc : Word
  /-- The sign class of the value last written to a general register. -/
  condition : Condition
deriving DecidableEq

/-- The use of a register number that names no register. -/
inductive RegisterError
  | read (number : Nat)
  | write (number : Nat)
deriving DecidableEq

/-- The text of the refusal. -/
def RegisterError.message : RegisterError → String
  | read number => s!"Invalid general purpose register get: {number}"
  | write number => s!"Invalid general purpose register set: {number}"

namespace Registers

/-- Cleared registers, ready to run a program from its start. -/
def initial : Registers := ⟨.replicate 0 3, programStart, .zero⟩

/-- The content of a general register. -/
def get (regs : Registers) (r : BitVec 3) : Word := regs.general.get r

/-- Writes a general register and derives the condition from the new value. -/
def set (regs : Registers) (r : BitVec 3) (value : Word) : Registers :=
  { regs with general := regs.general.set r value, condition := .ofWord value }

/-- The content of the register with a given number, which may name none. -/
def get? (regs : Registers) (number : Nat) : Except RegisterError Word :=
  if number < 8 then .ok (regs.get (BitVec.ofNat 3 number)) else .error (.read number)

/-- Writes the register with a given number, which may name none. -/
def set? (regs : Registers) (number : Nat) (value : Word) : Except RegisterError Registers :=
  if number < 8 then .ok (regs.set (BitVec.ofNat 3 number) value) else .error (.write number)

/-- The registers with the program counter behind the current instruction. -/
def advance (regs : Registers) : Registers := { regs with pc := regs.pc + 1 }

/-- The registers with another program counter. -/
def jump (regs : Registers) (target : Word) : Registers := { regs with pc := target }

/-- The program counter, the condition and the eight registers in one line. -/
def describe (regs : Registers) : String :=
  s!"PC: {regs.pc.hex}, COND: {regs.condition.name}, R: [" ++
    String.intercalate ", " (regs.general.toList.map Word.describe) ++ "]"

/-! ### Laws -/

theorem get_set (regs : Registers) (r s : BitVec 3) (value : Word) :
    (regs.set r value).get s = if s = r then value else regs.get s :=
  regs.general.get_set r s value

@[simp] theorem get_set_self (regs : Registers) (r : BitVec 3) (value : Word) :
    (regs.set r value).get r = value := by
  simp [get_set]

@[simp] theorem pc_set (regs : Registers) (r : BitVec 3) (value : Word) :
    (regs.set r value).pc = regs.pc := rfl

@[simp] theorem condition_set (regs : Registers) (r : BitVec 3) (value : Word) :
    (regs.set r value).condition = .ofWord value := rfl

@[simp] theorem get_advance (regs : Registers) (r : BitVec 3) :
    regs.advance.get r = regs.get r := rfl

@[simp] theorem pc_advance (regs : Registers) : regs.advance.pc = regs.pc + 1 := rfl

@[simp] theorem condition_advance (regs : Registers) :
    regs.advance.condition = regs.condition := rfl

@[simp] theorem get_jump (regs : Registers) (target : Word) (r : BitVec 3) :
    (regs.jump target).get r = regs.get r := rfl

@[simp] theorem pc_jump (regs : Registers) (target : Word) : (regs.jump target).pc = target := rfl

@[simp] theorem condition_jump (regs : Registers) (target : Word) :
    (regs.jump target).condition = regs.condition := rfl

end Registers

end LC3
