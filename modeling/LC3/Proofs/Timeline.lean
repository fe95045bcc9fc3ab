import LC3.Proofs.Cycle
import Mathlib.Data.Nat.Notation

/-!
# Machines and keyboards in time

A machine does not run alone: between two of its steps, and while it waits for a key, the keyboard
may change. A **timeline** puts the two together. Before step `k` the keyboard changes as `host k`
says, whatever that is; then the machine executes a cycle, or goes on with the one that is in its
pause. `Cycle.after host c k` is what `k` steps make of `c`, and `Machine.ready` is where a timeline
starts.

A cycle leaves the machine in the status that its phase speaks of (`Cycle.coherent_next`). So a
fault ends a timeline in all but name: it halts the machine (`Cycle.final_next`), and from then on
every step leaves machine and console as they are (`Cycle.after_of_over`).
-/

namespace LC3

variable {σ : Type}

/-- How a cycle has ended that left a machine in this status. -/
def Status.outcome : Status → Outcome
  | .running => .running
  | .halted => .halted

/-- The status in which a machine is left. -/
def Outcome.status : Outcome → Status
  | .running => .running
  | .halted => .halted
  | .failed _ => .halted

/-- The status of the machine so far; a pause is a part of running. -/
def Phase.status : Phase → Status
  | .done o => o.status
  | .awaitKey _ _ => .running

/-- A machine with a console, between two cycles. -/
def Machine.ready (m : Machine) (s : σ) : Cycle σ :=
  ⟨.done m.status.outcome, m, s, []⟩

namespace Cycle

/-- The keyboard changes. -/
def onKeyboard (f : Keyboard → Keyboard) (c : Cycle σ) : Cycle σ :=
  { c with machine :=
      c.machine.withMemory (c.machine.memory.connect (f c.machine.memory.keyboard)) }

variable [ByteSink σ]

/-- One step: the next cycle, or the second part of this one if it is in its pause. -/
def next (c : Cycle σ) : Cycle σ :=
  match c.phase with
  | .done _ => c.machine.step c.sink
  | .awaitKey _ _ => c.resume

/-- A number of steps, before each of which the keyboard changes. -/
def after (host : ℕ → Keyboard → Keyboard) (c : Cycle σ) : ℕ → Cycle σ
  | 0 => c
  | k + 1 => ((c.after host k).onKeyboard (host k)).next

theorem next_done {c : Cycle σ} {o : Outcome} (h : c.phase = .done o) :
    c.next = c.machine.step c.sink := by
  unfold next
  rw [h]

theorem next_awaitKey {c : Cycle σ} {address : Word} {echo : Bool}
    (h : c.phase = .awaitKey address echo) : c.next = c.resume := by
  unfold next
  rw [h]

/-! ### The status behind a cycle -/

/-- The machine is in the status that the phase speaks of. -/
def Coherent (c : Cycle σ) : Prop :=
  c.machine.status = c.phase.status

omit [ByteSink σ] in
theorem coherent_failed (m : Machine) (s : σ) (log : List Event) (fault : Fault) :
    (failed m s log fault).Coherent :=
  rfl

omit [ByteSink σ] in
theorem coherent_ofTrapRun (address : Word) (log : List Event) (r : TrapRun σ) :
    (ofTrapRun address log r).Coherent := by
  unfold ofTrapRun
  cases r.flow with
  | proceed => rfl
  | stop => rfl
  | fail fault => exact coherent_failed _ _ _ fault
  | awaitKey echo => rfl

theorem coherent_begin (m : Machine) (s : σ) : (m.begin s).Coherent := by
  refine m.begin_cases s ?halted ?interrupted ?execute ?trap ?badTrap ?invalid
  case halted => exact fun hs => hs
  case execute => exact fun _ _ _ _ => rfl
  case trap => exact fun _ _ _ _ _ => coherent_ofTrapRun _ _ _
  case interrupted => exact fun _ _ => coherent_failed _ _ _ _
  case badTrap => exact fun _ _ _ _ => coherent_failed _ _ _ _
  case invalid => exact fun _ _ _ => coherent_failed _ _ _ _

theorem coherent_resume {c : Cycle σ} (h : c.Coherent) : c.resume.Coherent := by
  cases hp : c.phase with
  | done o =>
    rw [resume_done hp]
    exact h
  | awaitKey address echo =>
    rw [resume_awaitKey hp]
    exact coherent_ofTrapRun _ _ _

/-- A step leaves the machine in the status that it answers, wherever it began. -/
theorem coherent_next (c : Cycle σ) : c.next.Coherent := by
  cases hp : c.phase with
  | done o =>
    rw [next_done hp]
    exact coherent_resume (coherent_begin c.machine c.sink)
  | awaitKey address echo =>
    rw [next_awaitKey hp, resume_awaitKey hp]
    exact coherent_ofTrapRun _ _ _

/-- A cycle that a fault has ended has halted its machine. -/
def Final (c : Cycle σ) : Prop :=
  ∀ fault, c.phase = .done (.failed fault) → c.machine.status = .halted

omit [ByteSink σ] in
theorem Coherent.final {c : Cycle σ} (h : c.Coherent) : c.Final := by
  intro fault hp
  rw [show c.machine.status = c.phase.status from h, hp]
  rfl

/-- A step that ends in a fault halts the machine. -/
theorem final_next {c : Cycle σ} : c.next.Final :=
  (coherent_next c).final

/-! ### Halted machines -/

/-- The cycle has ended and the machine is halted. -/
def Over (c : Cycle σ) : Prop :=
  (∃ o, c.phase = .done o) ∧ c.machine.status = .halted

/-- When a cycle is over, a step changes no more of it than how it has ended. -/
theorem next_of_over {c : Cycle σ} (h : c.Over) :
    c.next = ⟨.done .halted, c.machine, c.sink, []⟩ := by
  obtain ⟨⟨o, ho⟩, hs⟩ := h
  rw [next_done ho, Machine.step_halted hs]

/-- The console stays as it is once the machine is halted, and the machine stays halted. -/
theorem after_of_over (host : ℕ → Keyboard → Keyboard) {c : Cycle σ} {j : ℕ}
    (h : (c.after host j).Over) (k : ℕ) :
    (c.after host (j + k)).Over ∧ (c.after host (j + k)).sink = (c.after host j).sink := by
  induction k with
  | zero => exact ⟨h, rfl⟩
  | succ k ih =>
    -- a change of the keyboard does not start a halted machine
    obtain ⟨hover, hsink⟩ := ih
    have hkey : ((c.after host (j + k)).onKeyboard (host (j + k))).Over := hover
    change (((c.after host (j + k)).onKeyboard (host (j + k))).next).Over ∧
      (((c.after host (j + k)).onKeyboard (host (j + k))).next).sink = _
    rw [next_of_over hkey]
    exact ⟨⟨⟨_, rfl⟩, hkey.2⟩, hsink⟩

end Cycle

end LC3
