import LC3.Event
import LC3.Trap

/-!
# The machine

A machine is running or halted, and executes one instruction per **cycle** while it runs. A cycle
ends with a machine that still runs, with one that the program halted, or with a fault, which halts
the machine too; nothing but a reset gets a halted machine going again. A cycle that calls for a key
is in two parts, with a pause between them in which the keyboard may change; if no key has come, the
pause goes on.

* `begin` — a cycle up to the point where it needs a key, or the whole of it.
* `Cycle.resume` — the cycle behind that point.
* `step` — both together: one cycle without a pause.
* `runFor` — cycles until the machine halts, a fault comes, a key is missing, or a number of cycles
  is over. `runFor_halted` and `runFor_succ` say how it proceeds.

A machine whose user asked to stop does not fetch the instruction at all.
-/

namespace LC3

/-- Whether a machine executes instructions. -/
inductive Status
  | running
  | halted
deriving DecidableEq

/-- The name that a description of the machine shows. -/
def Status.name : Status → String
  | .running => "Running"
  | .halted => "Halted"

/-- Hardware that executes instructions. -/
structure Machine extends Hardware where
  /-- Whether it does. -/
  status : Status
deriving DecidableEq

/-- How a cycle ends. -/
inductive Outcome
  /-- The machine still runs. -/
  | running
  /-- The machine has halted, by this instruction or before. -/
  | halted
  /-- A fault has halted the machine. -/
  | failed (fault : Fault)
deriving DecidableEq

/-- How far a cycle has come. -/
inductive Phase
  /-- It has ended. -/
  | done (outcome : Outcome)
  /-- The instruction at an address needs a key, which is then shown or not. -/
  | awaitKey (address : Word) (echo : Bool)
deriving DecidableEq

/-- A cycle, ended or in its pause. -/
structure Cycle (σ : Type) where
  /-- How far it has come. -/
  phase : Phase
  /-- The machine. -/
  machine : Machine
  /-- The console. -/
  sink : σ
  /-- What was logged since the cycle began. -/
  log : List Event

namespace Machine

/-- A machine with cleared registers and memory, ready to run. -/
def initial (keyboard : Keyboard) : Machine := ⟨.cleared keyboard, .running⟩

/-- The machine ready to start over: registers are cleared, memory is kept. -/
def reset (m : Machine) : Machine := { m with registers := .initial, status := .running }

/-- The machine with another memory. -/
def withMemory (m : Machine) (memory : Memory) : Machine := { m with memory }

/-- Memory, registers and status in one line. -/
def describe (m : Machine) : String :=
  "Emulator \x7b memory: " ++ m.memory.describe ++ ", registers: " ++ m.registers.describe ++
    ", state: " ++ m.status.name ++ " \x7d"

end Machine

/-! ### One cycle -/

namespace Cycle

variable {σ : Type}

/-- The end of a cycle by a fault. -/
def failed (m : Machine) (s : σ) (log : List Event) (fault : Fault) : Cycle σ :=
  ⟨.done (.failed fault), { m with status := .halted }, s, log ++ [.failed fault]⟩

/-- The cycle of a running machine at an address, behind a part of a trap routine. -/
def ofTrapRun (address : Word) (log : List Event) (r : TrapRun σ) : Cycle σ :=
  match r.flow with
  | .proceed => ⟨.done .running, ⟨r.hardware, .running⟩, r.sink, log⟩
  | .stop => ⟨.done .halted, ⟨r.hardware, .halted⟩, r.sink, log ++ [.halted address]⟩
  | .fail fault => failed ⟨r.hardware, .running⟩ r.sink log fault
  | .awaitKey echo => ⟨.awaitKey address echo, ⟨r.hardware, .running⟩, r.sink, log⟩

/-- Goes on with a cycle that is in its pause; a pause without a key goes on. -/
def resume [ByteSink σ] (c : Cycle σ) : Cycle σ :=
  match c.phase with
  | .done _ => c
  | .awaitKey address echo =>
    ofTrapRun address c.log (TrapRoutine.receive echo c.machine.toHardware c.sink)

end Cycle

namespace Machine

variable {σ : Type} [ByteSink σ]

/-- The hardware behind the fetch of an instruction, and the instruction. -/
def fetch (m : Machine) : Instruction × Hardware :=
  let (word, memory) := m.memory.read m.registers.pc
  (⟨word⟩, ⟨m.registers.advance, memory⟩)

/-- Executes the instruction that was fetched from an address, as far as it gets without a key. -/
def dispatch (address : Word) (i : Instruction) (h : Hardware) (s : σ) : Cycle σ :=
  -- a fetched instruction is logged before it turns out to be invalid
  let log := [.fetched address i]
  match i.operation with
  | .trap =>
    match TrapRoutine.ofVector? i.trapVector with
    | some routine => .ofTrapRun address log (routine.begin h s)
    | none => .failed ⟨h, .running⟩ s log (.invalidTrap i.trapVector address)
  | _ =>
    match h.execute? i with
    | some h => ⟨.done .running, ⟨h, .running⟩, s, log⟩
    | none => .failed ⟨h, .running⟩ s log (.invalidOpcode i.opcode address)

/-- Begins a cycle. -/
def begin (m : Machine) (s : σ) : Cycle σ :=
  match m.status with
  | .halted => ⟨.done .halted, m, s, []⟩
  | .running =>
    -- nothing was fetched, so the program counter stays at the instruction
    if m.memory.keyboard.interrupted then .failed m s [] .interrupted
    else
      let (i, h) := m.fetch
      dispatch m.registers.pc i h s

/-- One cycle, without a pause. -/
def step (m : Machine) (s : σ) : Cycle σ := (m.begin s).resume

end Machine

/-! ### Runs -/

/-- Why a run is over. -/
inductive Ending
  /-- The machine has halted. -/
  | halted
  /-- A fault has halted the machine. -/
  | failed (fault : Fault)
  /-- The instruction at an address needs a key that has not come. -/
  | waiting (address : Word) (echo : Bool)
  /-- The number of cycles is over. -/
  | unfinished
deriving DecidableEq

/-- A number of cycles, one after the other. -/
structure Run (σ : Type) where
  /-- Why it is over. -/
  ending : Ending
  /-- The machine. -/
  machine : Machine
  /-- The console. -/
  sink : σ
  /-- What was logged since the run began. -/
  log : List Event

namespace Machine

variable {σ : Type} [ByteSink σ]

/-- Runs a machine with something logged before, the latest first. -/
private def runBehind : Nat → Machine → σ → List Event → Run σ
  | cycles, m, s, before =>
    match m.status, cycles with
    | .halted, _ => ⟨.halted, m, s, before.reverse⟩
    | .running, 0 => ⟨.unfinished, m, s, before.reverse⟩
    | .running, cycles + 1 =>
      let c := m.step s
      let before := c.log.reverse ++ before
      match c.phase with
      | .done (.failed fault) => ⟨.failed fault, c.machine, c.sink, before.reverse⟩
      | .done _ => runBehind cycles c.machine c.sink before
      | .awaitKey address echo => ⟨.waiting address echo, c.machine, c.sink, before.reverse⟩

/-- Runs a machine for at most the given number of cycles. -/
def runFor (cycles : Nat) (m : Machine) (s : σ) : Run σ := runBehind cycles m s []

end Machine

namespace Run

variable {σ : Type}

/-- The run with something logged before it. -/
def behind (log : List Event) (r : Run σ) : Run σ := { r with log := log ++ r.log }

/-- Goes on with a run that waits for a key or whose cycles are over. -/
def goOn [ByteSink σ] (cycles : Nat) (r : Run σ) : Run σ :=
  match r.ending with
  | .waiting address echo =>
    -- the pause of the last cycle, with all that was logged up to it
    let c := (Cycle.mk (.awaitKey address echo) r.machine r.sink r.log).resume
    match c.phase with
    | .done (.failed fault) => ⟨.failed fault, c.machine, c.sink, c.log⟩
    | .done _ => (Machine.runFor cycles c.machine c.sink).behind c.log
    | .awaitKey address echo => ⟨.waiting address echo, c.machine, c.sink, c.log⟩
  | .unfinished => (Machine.runFor cycles r.machine r.sink).behind r.log
  | _ => r

end Run

/-! ### How runs proceed -/

namespace Machine

variable {σ : Type} [ByteSink σ]

private theorem runBehind_eq (cycles : Nat) (m : Machine) (s : σ) (before : List Event) :
    runBehind cycles m s before = (runBehind cycles m s []).behind before.reverse := by
  induction cycles generalizing m s before with
  | zero => unfold runBehind; cases m.status <;> simp [Run.behind]
  | succ cycles ih =>
    unfold runBehind
    cases m.status with
    | halted => simp [Run.behind]
    | running =>
      simp only
      split
      · simp [Run.behind]
      · -- both sides run on from the same cycle, so what was logged before moves to the front
        rw [ih, ih _ _ ((m.step s).log.reverse ++ [])]
        simp [Run.behind]
      · simp [Run.behind]

/-- A halted machine has nothing to run. -/
theorem runFor_halted (cycles : Nat) {m : Machine} (h : m.status = .halted) (s : σ) :
    m.runFor cycles s = ⟨.halted, m, s, []⟩ := by
  unfold runFor runBehind
  simp [h]

/-- A running machine without cycles stays where it is. -/
theorem runFor_zero {m : Machine} (h : m.status = .running) (s : σ) :
    m.runFor 0 s = ⟨.unfinished, m, s, []⟩ := by
  unfold runFor runBehind
  simp [h]

/-- A running machine executes one cycle and then runs on, unless that cycle failed or waits. -/
theorem runFor_succ (cycles : Nat) {m : Machine} (h : m.status = .running) (s : σ) :
    m.runFor (cycles + 1) s =
      let c := m.step s
      match c.phase with
      | .done (.failed fault) => ⟨.failed fault, c.machine, c.sink, c.log⟩
      | .done _ => (c.machine.runFor cycles c.sink).behind c.log
      | .awaitKey address echo => ⟨.waiting address echo, c.machine, c.sink, c.log⟩ := by
  unfold runFor
  conv => lhs; unfold runBehind
  simp only [h]
  split
  · simp
  · rw [runBehind_eq]
    simp
  · simp

end Machine

end LC3
