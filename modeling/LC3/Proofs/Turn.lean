import LC3.Proofs.Access
import LC3.Proofs.Timeline

/-!
# The parts of a cycle, one at a time

`Cycle.turn` executes one part of a cycle: the first one, or the one behind the pause. A cycle whose
key is late takes several turns, and the keyboard may change before each of them; a cycle on a
keyboard that is left alone takes one or two, and then the part behind the pause comes to the same
end however often it is repeated (`resume_resume`).

The two faults that have to do with input are told apart by where they come from. The first part of
a cycle asks whether the user wants to stop, and it never says that the input is closed
(`Machine.fault_begin`); behind the pause it is the keyboard that says why there is no key
(`fault_resume`).
-/

namespace LC3

variable {σ : Type} [ByteSink σ]

namespace Cycle

theorem turn_done {c : Cycle σ} {o : Outcome} (h : c.phase = .done o) :
    c.turn = c.machine.begin c.sink := by
  unfold turn
  rw [h]

theorem turn_awaitKey {c : Cycle σ} {address : Word} {echo : Bool}
    (h : c.phase = .awaitKey address echo) : c.turn = c.resume := by
  unfold turn
  rw [h]

/-- A part of a cycle leaves the machine in the status that it answers, wherever it began. -/
theorem coherent_turn (c : Cycle σ) : c.turn.Coherent := by
  cases hp : c.phase with
  | done o =>
    rw [turn_done hp]
    exact coherent_begin c.machine c.sink
  | awaitKey address echo =>
    rw [turn_awaitKey hp, resume_awaitKey hp]
    exact coherent_ofTrapRun address c.log _

theorem resume_waiting {c : Cycle σ} {address : Word} {echo : Bool} {rest : Keyboard}
    (hp : c.phase = .awaitKey address echo)
    (hr : c.machine.memory.keyboard.read = (.waiting, rest)) :
    c.resume = ⟨.awaitKey address echo, ⟨c.machine.toHardware, .running⟩, c.sink, c.log⟩ := by
  rw [resume_awaitKey hp, TrapRoutine.receive_waiting hr]
  rfl

/-- Behind the pause a cycle waits on, or it ends. -/
theorem waiting_or_ends {c : Cycle σ} {address : Word} {echo : Bool}
    (hp : c.phase = .awaitKey address echo) :
    (∃ k, c.machine.memory.keyboard.read = (.waiting, k)) ∨ ∃ o, c.resume.phase = .done o := by
  rw [resume_awaitKey hp]
  rcases hr : c.machine.memory.keyboard.read with ⟨key, rest⟩
  cases key with
  | waiting => exact .inl ⟨rest, rfl⟩
  | failed fault =>
    rw [TrapRoutine.receive_failed hr]
    exact .inr ⟨.failed fault, rfl⟩
  | character k =>
    -- the routine ends with its echo, or without one
    rw [TrapRoutine.receive_character hr]
    cases echo with
    | false => exact .inr ⟨.running, rfl⟩
    | true =>
      cases hm : (ByteSink.emit [k.low] c.sink).1 with
      | ok _ =>
        rw [if_pos rfl, TrapRoutine.emit_ok hm]
        exact .inr ⟨.running, rfl⟩
      | error e =>
        rw [if_pos rfl, TrapRoutine.emit_error hm]
        exact .inr ⟨.failed (.output e), rfl⟩

/-- Without anybody at the keyboard it is of no use to try again. -/
theorem resume_resume (c : Cycle σ) : c.resume.resume = c.resume := by
  cases hp : c.phase with
  | done o => rw [resume_done hp, resume_done hp]
  | awaitKey address echo =>
    obtain ⟨k, hr⟩ | ⟨o, ho⟩ := waiting_or_ends hp
    · -- the same question is asked of the same keyboard
      have hwait := resume_waiting hp hr
      have hp' : c.resume.phase = .awaitKey address echo := by rw [hwait]
      have hr' : c.resume.machine.memory.keyboard.read = (.waiting, k) := by rw [hwait, ← hr]
      rw [resume_waiting hp' hr', hwait]
    · exact resume_done ho

/-- A turn that leaves a cycle in its pause leaves it as it is. -/
theorem resume_eq_self {c : Cycle σ} (hc : c.Coherent) {address address' : Word} {echo echo' : Bool}
    (hp : c.phase = .awaitKey address echo) (ha : c.resume.phase = .awaitKey address' echo') :
    c.resume = c := by
  obtain ⟨k, hr⟩ | ⟨o, ho⟩ := waiting_or_ends hp
  · have hstatus : c.machine.status = c.phase.status := hc
    rw [hp] at hstatus
    rw [resume_waiting hp hr]
    obtain ⟨phase, ⟨hardware, status⟩, sink, log⟩ := c
    cases hp
    cases hstatus
    rfl
  · exact absurd (ho.symm.trans ha) Phase.noConfusion

end Cycle

/-! ### Faults of input -/

namespace TrapRoutine

/-- A message has no other fault than that of the console. -/
theorem fault_emit {message : List Byte} {next : Flow} {h : Hardware} {s : σ} {fault : Fault}
    (hf : (emit message next h s).flow = .fail fault) (hnext : next ≠ .fail fault) :
    ∃ e, fault = .output e := by
  cases hm : (ByteSink.emit message s).1 with
  | ok _ =>
    rw [emit_ok hm] at hf
    exact absurd hf hnext
  | error e =>
    rw [emit_error hm] at hf
    cases hf
    exact ⟨e, rfl⟩

theorem fault_begin {t : TrapRoutine} {h : Hardware} {s : σ} {fault : Fault}
    (hf : (t.begin h s).flow = .fail fault) : ∃ e, fault = .output e := by
  cases t with
  | getc => cases hf
  | out => exact fault_emit hf Flow.noConfusion
  | puts => exact fault_emit hf Flow.noConfusion
  | input => exact fault_emit hf Flow.noConfusion
  | putsp => exact fault_emit hf Flow.noConfusion
  | halt => exact fault_emit hf Flow.noConfusion

end TrapRoutine

omit [ByteSink σ] in
theorem Cycle.flow_of_fault {address : Word} {log : List Event} {r : TrapRun σ} {fault : Fault}
    (hf : (ofTrapRun address log r).phase = .done (.failed fault)) : r.flow = .fail fault := by
  unfold ofTrapRun at hf
  cases hflow : r.flow with
  | fail f =>
    rw [hflow] at hf
    cases hf
    rfl
  | proceed | stop | awaitKey echo =>
    rw [hflow] at hf
    cases hf

omit [ByteSink σ] in
theorem Cycle.flow_of_awaitKey {address address' : Word} {echo : Bool} {log : List Event}
    {r : TrapRun σ} (hp : (ofTrapRun address log r).phase = .awaitKey address' echo) :
    r.flow = .awaitKey echo := by
  unfold ofTrapRun at hp
  cases hflow : r.flow with
  | awaitKey e =>
    rw [hflow] at hp
    cases hp
    rfl
  | proceed | stop | fail fault =>
    rw [hflow] at hp
    cases hp

/-- **Faults of the first part of a cycle.** It fails for the user's wish if and only if the flag is
set, and then for nothing else; that the input is closed it never says. -/
theorem Machine.fault_begin {m : Machine} {s : σ} {fault : Fault}
    (hf : (m.begin s).phase = .done (.failed fault)) :
    m.memory.keyboard.interrupted = true ∧ fault = .interrupted ∨
      m.memory.keyboard.interrupted = false ∧ fault ≠ .interrupted ∧ fault ≠ .inputClosed := by
  revert hf
  refine m.begin_cases s ?halted ?interrupted ?execute ?trap ?badTrap ?invalid
  case halted =>
    intro _ hf
    cases hf
  case interrupted =>
    intro _ hi hf
    cases hf
    exact .inl ⟨hi, rfl⟩
  case execute =>
    intro _ _ h' _ hf
    cases hf
  case trap =>
    intro _ hi t _ _ hf
    obtain ⟨e, rfl⟩ := TrapRoutine.fault_begin (Cycle.flow_of_fault hf)
    exact .inr ⟨hi, Fault.noConfusion, Fault.noConfusion⟩
  case badTrap =>
    intro _ hi _ _ hf
    cases hf
    exact .inr ⟨hi, Fault.noConfusion, Fault.noConfusion⟩
  case invalid =>
    intro _ hi _ hf
    cases hf
    exact .inr ⟨hi, Fault.noConfusion, Fault.noConfusion⟩

/-- **Faults behind the pause.** Apart from the console, the keyboard alone decides. -/
theorem Cycle.fault_resume {c : Cycle σ} {address : Word} {echo : Bool} {fault : Fault}
    (hp : c.phase = .awaitKey address echo) :
    c.resume.phase = .done (.failed fault) →
      c.machine.memory.keyboard.read.1 = .failed fault ∨ ∃ e, fault = .output e := by
  intro hf
  rw [resume_awaitKey hp] at hf
  replace hf := flow_of_fault hf
  rcases hr : c.machine.memory.keyboard.read with ⟨key, rest⟩
  cases key with
  | waiting =>
    rw [TrapRoutine.receive_waiting hr] at hf
    cases hf
  | failed f =>
    rw [TrapRoutine.receive_failed hr] at hf
    cases hf
    exact .inl rfl
  | character k =>
    rw [TrapRoutine.receive_character hr] at hf
    cases echo with
    | false => cases hf
    | true => exact .inr (TrapRoutine.fault_emit hf Flow.noConfusion)

end LC3
