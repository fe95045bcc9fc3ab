import LC3.Proofs.Cycle
import LC3.Proofs.Strings

/-!
# How a cycle uses memory

Everything that a cycle does to memory and to the keyboard behind it is a sequence of single
accesses: the instruction is fetched, operands are read and written, a routine reads a string word by
word, or it receives a key. Which accesses these are depends on what the earlier ones return, so
they are listed here from the state in which a part of a cycle begins.

* `Access.perform`, `Access.delivered` — what one access does to memory, and the characters that it
  hands out.
* `Cycle.accesses` — the accesses of the part of a cycle that comes next.
* `memory_turn` — that part changes memory as its accesses do, and in no other way.

A property of memory that every access preserves is thereby preserved by every part of every cycle.
-/

namespace LC3

/-- A use of memory, or of the near end of the keyboard behind it. -/
inductive Access
  /-- Reads a cell. -/
  | read (a : Word)
  /-- Writes a cell. -/
  | write (a value : Word)
  /-- Looks for a character. -/
  | poll
  /-- Takes the character out of the slot. -/
  | take
  /-- Waits for a character, as long as none is there. -/
  | receive
deriving DecidableEq

namespace Access

/-- The memory behind an access. -/
def perform : Access → Memory → Memory
  | read a, m => (m.read a).2
  | write a value, m => m.write a value
  | poll, m => m.connect m.keyboard.poll
  | take, m => m.connect m.keyboard.take.2
  | receive, m => m.connect m.keyboard.read.2

/-- The characters that an access hands out. A read of the status register that finds one puts it
into the data register. -/
def delivered : Access → Memory → List Word
  | read a, m =>
    if a = Memory.statusAddress ∧ (m.read a).1 = Memory.readyStatus then
      [(m.read a).2.peek Memory.dataAddress]
    else []
  | write _ _, _ => []
  | poll, _ => []
  | take, m => m.keyboard.take.1.toList
  | receive, m =>
    match m.keyboard.read.1 with
    | .character c => [c]
    | _ => []

/-- The memory behind several accesses. -/
def performAll : List Access → Memory → Memory
  | [], m => m
  | x :: xs, m => performAll xs (x.perform m)

/-- The characters that several accesses hand out. -/
def deliveredAll : List Access → Memory → List Word
  | [], _ => []
  | x :: xs, m => x.delivered m ++ deliveredAll xs (x.perform m)

theorem performAll_append (xs ys : List Access) (m : Memory) :
    performAll (xs ++ ys) m = performAll ys (performAll xs m) := by
  induction xs generalizing m with
  | nil => rfl
  | cons x xs ih => exact ih (x.perform m)

/-- Reads of a number of successive addresses. -/
def sweep (a : Word) (k : ℕ) : List Access :=
  (List.range k).map fun j => read (a + BitVec.ofNat 16 j)

theorem performAll_sweep (m : Memory) (a : Word) (k : ℕ) :
    performAll (sweep a k) m = m.sweep a k := by
  induction k with
  | zero => rfl
  | succ k ih =>
    have hlast : sweep a (k + 1) = sweep a k ++ [read (a + BitVec.ofNat 16 k)] := by
      unfold sweep
      rw [List.range_succ, List.map_append]
      rfl
    rw [hlast, performAll_append, ih]
    rfl

end Access

open Access

/-! ### Which accesses -/

/-- The accesses of an instruction for registers and memory. -/
def Hardware.accesses (i : Instruction) (h : Hardware) : List Access :=
  let relative := h.relativeAddress i 9
  let source := h.registers.get i.dr
  match i.operation with
  | .ld => [.read relative]
  | .ldi => [.read relative, .read (h.memory.read relative).1]
  | .ldr => [.read (h.baseAddress i)]
  | .st => [.write relative source]
  | .sti => [.read relative, .write (h.memory.read relative).1 source]
  | .str => [.write (h.baseAddress i) source]
  | _ => []

/-- The accesses of a routine up to the point where it needs a key. A string is read up to and
including its zero word. -/
def TrapRoutine.accesses (h : Hardware) : TrapRoutine → List Access
  | puts | putsp =>
    sweep (h.registers.get 0) ((h.memory.readString (h.registers.get 0)).1.length + 1)
  | _ => []

def Instruction.accesses (i : Instruction) (h : Hardware) : List Access :=
  match i.operation with
  | .trap => ((TrapRoutine.ofVector? i.trapVector).map fun t => t.accesses h).getD []
  | _ => h.accesses i

theorem Instruction.accesses_of_execute {i : Instruction} {h h' : Hardware}
    (hx : h.execute? i = some h') : i.accesses h = h.accesses i := by
  have hne := operation_ne_trap hx
  unfold accesses
  split
  · next ho => exact absurd ho hne
  · rfl

theorem Instruction.accesses_of_trap {i : Instruction} {t : TrapRoutine} (ho : i.operation = .trap)
    (ht : TrapRoutine.ofVector? i.trapVector = some t) (h : Hardware) :
    i.accesses h = t.accesses h := by
  unfold accesses
  rw [ho, ht]
  rfl

/-- A call without a routine ends before any access. -/
theorem Instruction.accesses_of_badTrap {i : Instruction} (ho : i.operation = .trap)
    (ht : TrapRoutine.ofVector? i.trapVector = none) (h : Hardware) : i.accesses h = [] := by
  unfold accesses
  rw [ho, ht]
  rfl

/-- So does an invalid operation. -/
theorem Instruction.accesses_of_invalid {i : Instruction}
    (ho : i.operation = .rti ∨ i.operation = .res) (h : Hardware) : i.accesses h = [] := by
  unfold accesses Hardware.accesses
  rcases ho with ho | ho <;> rw [ho]

def Machine.accesses (m : Machine) : List Access :=
  match m.status with
  | .halted => []
  | .running =>
    if m.memory.keyboard.interrupted then []
    else .read m.registers.pc :: m.fetch.1.accesses m.fetch.2

namespace Cycle

variable {σ : Type}

/-- The accesses of the part of a cycle that comes next. -/
def accesses (c : Cycle σ) : List Access :=
  match c.phase with
  | .done _ => c.machine.accesses
  | .awaitKey _ _ => [.receive]

/-- Executes the part of a cycle that comes next: the first part of a new one, or the part behind
the pause of this one. -/
def turn [ByteSink σ] (c : Cycle σ) : Cycle σ :=
  match c.phase with
  | .done _ => c.machine.begin c.sink
  | .awaitKey _ _ => c.resume

end Cycle

/-! ### They are all -/

namespace Keyboard

theorem read_of_next? {k rest : Keyboard} {c : Word} (h : k.next? = some (c, rest)) :
    k.read = (.character c, rest) := by
  unfold read
  rw [h]

theorem read_of_none {k : Keyboard} (h : k.next? = none) :
    k.read = (if k.isOpen then .waiting else .failed k.closedFault, k) := by
  unfold read
  rw [h]

/-- Whoever receives a character receives the next one. -/
theorem next?_of_read {k rest : Keyboard} {ch : Word}
    (h : k.read = (.character ch, rest)) : k.next? = some (ch, rest) := by
  unfold read at h
  cases hn : k.next? with
  | some next =>
    rw [hn] at h
    cases h
    rfl
  | none =>
    rw [hn] at h
    obtain ⟨hkey, -⟩ := Prod.mk.inj h
    split at hkey <;> cases hkey

end Keyboard

/-- An instruction for registers and memory changes memory as its accesses do. -/
theorem Hardware.memory_execute {i : Instruction} {h h' : Hardware}
    (hx : h.execute? i = some h') : h'.memory = performAll (h.accesses i) h.memory := by
  unfold execute? at hx
  unfold accesses
  cases ho : i.operation with
  | br =>
    -- taken or not, a branch changes registers alone
    rw [ho] at hx
    cases hx
    change (h.br i).memory = h.memory
    unfold br
    split <;> rfl
  | rti | res | trap =>
    -- not executed here
    rw [ho] at hx
    cases hx
  | _ =>
    -- the accesses are those of the definition, in its order
    rw [ho] at hx
    cases hx
    rfl

namespace TrapRoutine

variable {σ : Type} [ByteSink σ]

/-- A string is read by the accesses up to its zero word. -/
theorem memory_emitString (bytesOf : Word → List Byte) (h : Hardware) (s : σ) :
    (emitString bytesOf h s).hardware.memory =
      performAll (sweep (h.registers.get 0)
        ((h.memory.readString (h.registers.get 0)).1.length + 1)) h.memory := by
  obtain ⟨k, hk, -⟩ := Memory.exists_endsAt h.memory (h.registers.get 0)
  rw [emitString_eq, hardware_emit, hk.readString_eq, List.length_map, List.length_range,
    performAll_sweep]

/-- The part of a routine up to the point where it needs a key changes memory as its accesses do. -/
theorem memory_begin (t : TrapRoutine) (h : Hardware) (s : σ) :
    (t.begin h s).hardware.memory = performAll (t.accesses h) h.memory := by
  cases t with
  | getc => rfl
  | out => exact congrArg Hardware.memory (hardware_emit _ _ h s)
  | puts => exact memory_emitString plainBytes h s
  | input => exact congrArg Hardware.memory (hardware_emit _ _ h s)
  | putsp => exact memory_emitString packedBytes h s
  | halt => exact congrArg Hardware.memory (hardware_emit _ _ h s)

theorem memory_receive (echo : Bool) (h : Hardware) (s : σ) :
    (receive echo h s).hardware.memory = Access.receive.perform h.memory := by
  change _ = h.memory.connect h.memory.keyboard.read.2
  cases hn : h.memory.keyboard.next? with
  | some next =>
    -- the key is taken before it is shown, whatever becomes of the echo
    obtain ⟨c, rest⟩ := next
    have hr := Keyboard.read_of_next? hn
    rw [receive_character hr, hr]
    cases echo with
    | true => exact congrArg Hardware.memory (hardware_emit _ _ _ s)
    | false => rfl
  | none =>
    -- without a character nothing changes, whether one can still come or not
    have hr := Keyboard.read_of_none hn
    by_cases ho : h.memory.keyboard.isOpen = true
    · rw [if_pos ho] at hr
      rw [receive_waiting hr, hr]
      rfl
    · rw [if_neg ho] at hr
      rw [receive_failed hr, hr]
      rfl

end TrapRoutine

theorem Machine.memory_dispatch {σ : Type} [ByteSink σ] (address : Word) (i : Instruction)
    (h : Hardware) (s : σ) :
    (dispatch address i h s).machine.memory = performAll (i.accesses h) h.memory := by
  refine dispatch_cases (i := i) (h := h) (fun h' hx => ?_) (fun t ho ht => ?_)
    (fun ho ht => ?_) (fun ho => ?_)
  · -- one for registers and memory
    rw [dispatch_execute hx, Instruction.accesses_of_execute hx]
    exact Hardware.memory_execute hx
  · -- a routine
    rw [dispatch_trap ho ht, Instruction.accesses_of_trap ho ht, Cycle.hardware_ofTrapRun]
    exact TrapRoutine.memory_begin t h s
  · -- nothing, without a routine
    rw [dispatch_badTrap ho ht, Instruction.accesses_of_badTrap ho ht]
    rfl
  · -- and nothing, of an invalid operation
    rw [dispatch_invalid ho, Instruction.accesses_of_invalid ho]
    rfl

theorem Machine.memory_begin {σ : Type} [ByteSink σ] (m : Machine) (s : σ) :
    (m.begin s).machine.memory = performAll m.accesses m.memory := by
  unfold accesses
  -- before the fetch there is nothing, and without a fetch there is nothing at all
  cases hs : m.status with
  | halted =>
    rw [begin_halted hs]
    rfl
  | running =>
    cases hi : m.memory.keyboard.interrupted with
    | true =>
      rw [begin_interrupted hs hi]
      rfl
    | false =>
      rw [begin_running hs hi]
      exact memory_dispatch _ _ _ s

/-- **A part of a cycle changes memory as its accesses do.** -/
theorem Cycle.memory_turn {σ : Type} [ByteSink σ] (c : Cycle σ) :
    c.turn.machine.memory = performAll c.accesses c.machine.memory := by
  unfold turn accesses
  cases hp : c.phase with
  | done o => exact Machine.memory_begin c.machine c.sink
  | awaitKey address echo =>
    change c.resume.machine.memory = Access.receive.perform c.machine.memory
    rw [resume_awaitKey hp, hardware_ofTrapRun]
    exact TrapRoutine.memory_receive echo _ c.sink

end LC3
