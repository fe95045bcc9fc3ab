import LC3.Proofs.Console.Delivery
import LC3.Proofs.Timeline

/-!
# The console does not influence execution

Two timelines of one machine run side by side, with the same changes of the keyboard. On the left the
console takes everything; on the right it is any console at all, which may take a few bytes at a
time, be interrupted, run full or fail to flush, and which may translate line ends for a raw
terminal. Up to the first failure of the right console nothing tells the two apart but the
translation, and at that failure the right one has received a prefix of what it should have
(`Lockstep`, `console_independent`).

The proof is a simulation. `Beside` relates a cycle on the left to one on the right: either they
agree (`same`), or the right one has been cut short by its console (`cut`), and then what it has
received is a prefix of the left one's output. Each part of a cycle keeps the relation:

* a message does (`beside_emit`), because a whole write arrives or leaves a prefix behind;
* the receipt of a key does (`beside_receive`), because it is the same key on both sides;
* a cycle that was cut stays as it is, while the left one may go on to write more. This is why
  `cut` speaks of a prefix from the start: the routine that asks for a key writes twice.
-/

namespace LC3

open ByteSink

/-- The console has failed in this cycle. -/
def Cycle.ConsoleFailed {σ : Type} (c : Cycle σ) : Prop :=
  ∃ e, c.phase = .done (.failed (.output e))

/-! ### A console that takes everything -/

namespace Recorded

theorem writeAll_open (bytes : List Byte) (r : Recorded OpenSink) :
    (writeAll bytes r).1 = .ok () := by
  by_cases hb : bytes = []
  · rw [hb, writeAll_nil]
  · -- the first offer is taken as a whole
    have hgo : Next.ofAnswer bytes (ByteSink.write bytes r).1 = .goOn [] :=
      ByteSink.ofAnswer_length hb
    rw [writeAll_of_ne_nil hb, hgo]
    exact congrArg Prod.fst (writeAll_nil _)

theorem emit_open (message : List Byte) (r : Recorded OpenSink) :
    (ByteSink.emit message r).1 = .ok () := by
  have hw := writeAll_open message r
  unfold ByteSink.emit
  split <;> rename_i heq <;> rw [heq] at hw
  · rfl
  · cases hw

theorem output_emit_open (message : List Byte) (r : Recorded OpenSink) :
    (ByteSink.emit message r).2.output = r.output ++ message :=
  transmits_recorded.emit_ok trivial (emit_open message r)

end Recorded

/-! ### Side by side -/

variable {τ : Type} [ByteSink τ] {I : τ → Prop} {T : List Byte → List Byte}
  {received : τ → List Byte}

/-- A part of a routine beside the same part on another console. -/
inductive TrapRun.Beside (I : τ → Prop) (T : List Byte → List Byte) (received : τ → List Byte)
    (left : TrapRun (Recorded OpenSink)) (right : TrapRun τ) : Prop
  | same (flow : right.flow = left.flow) (hardware : right.hardware = left.hardware)
      (keeps : I right.sink) (sink : received right.sink = T left.sink.output)
  | cut (e : IoError) (flow : right.flow = .fail (.output e))
      (sink : received right.sink <+: T left.sink.output)

/-- A cycle beside the same cycle on another console. -/
inductive Cycle.Beside (I : τ → Prop) (T : List Byte → List Byte) (received : τ → List Byte)
    (left : Cycle (Recorded OpenSink)) (right : Cycle τ) : Prop
  | same (phase : right.phase = left.phase) (machine : right.machine = left.machine)
      (log : right.log = left.log) (keeps : I right.sink)
      (sink : received right.sink = T left.sink.output)
  | cut (e : IoError) (phase : right.phase = .done (.failed (.output e)))
      (sink : received right.sink <+: T left.sink.output)

section Routines

variable (law : Transmits I T received) {s : Recorded OpenSink} {s' : τ}
  (hs : I s') (hsink : received s' = T s.output)

include law hs hsink

/-- A message arrives on both sides, or is cut short on the right. -/
theorem TrapRoutine.beside_emit (message : List Byte) (next : Flow) (h : Hardware) :
    TrapRun.Beside I T received (emit message next h s) (emit message next h s') := by
  rw [emit_ok (Recorded.emit_open message s)]
  have hout : T (ByteSink.emit message s).2.output = received s' ++ T message := by
    rw [Recorded.output_emit_open, law.append, hsink]
  cases hm : (ByteSink.emit message s').1 with
  | ok _ =>
    rw [emit_ok hm]
    refine .same rfl rfl (law.emit_keeps message hs) ?_
    exact (law.emit_ok hs hm).trans hout.symm
  | error e =>
    -- what the right one has not received is the end of the message
    rw [emit_error hm]
    refine .cut e rfl ?_
    obtain ⟨sent, hsent, hafter⟩ := law.emit_error hs hm
    change received (ByteSink.emit message s').2 <+: T (ByteSink.emit message s).2.output
    rw [hafter, hout]
    exact (List.prefix_append_right_inj _).2 hsent

theorem TrapRoutine.beside_begin (t : TrapRoutine) (h : Hardware) :
    TrapRun.Beside I T received (t.begin h s) (t.begin h s') := by
  cases t with
  | getc => exact .same rfl rfl hs hsink
  | out => exact beside_emit law hs hsink _ _ _
  | puts => exact beside_emit law hs hsink _ _ _
  | input => exact beside_emit law hs hsink _ _ _
  | putsp => exact beside_emit law hs hsink _ _ _
  | halt => exact beside_emit law hs hsink _ _ _

/-- The same key is received on both sides. -/
theorem TrapRoutine.beside_receive (echo : Bool) (h : Hardware) :
    TrapRun.Beside I T received (receive echo h s) (receive echo h s') := by
  rcases hr : h.memory.keyboard.read with ⟨key, rest⟩
  cases key with
  | character c =>
    rw [receive_character hr, receive_character hr]
    cases echo with
    | true => exact beside_emit law hs hsink _ _ _
    | false => exact .same rfl rfl hs hsink
  | failed fault =>
    rw [receive_failed hr, receive_failed hr]
    exact .same rfl rfl hs hsink
  | waiting =>
    rw [receive_waiting hr, receive_waiting hr]
    exact .same rfl rfl hs hsink

end Routines

namespace Cycle

omit [ByteSink τ] in
theorem beside_ofTrapRun {left : TrapRun (Recorded OpenSink)} {right : TrapRun τ}
    (h : TrapRun.Beside I T received left right) (address : Word) (log : List Event) :
    Beside I T received (ofTrapRun address log left) (ofTrapRun address log right) := by
  cases h with
  | same flow hardware keeps sink =>
    unfold ofTrapRun
    rw [flow, hardware]
    cases left.flow with
    | proceed => exact .same rfl rfl rfl keeps sink
    | stop => exact .same rfl rfl rfl keeps sink
    | fail fault => exact .same rfl rfl rfl keeps sink
    | awaitKey echo => exact .same rfl rfl rfl keeps sink
  | cut e flow sink =>
    refine .cut e ?_ ?_
    · unfold ofTrapRun
      rw [flow]
      rfl
    · -- whatever the left one goes on with, its output is what it is
      rwa [sink_ofTrapRun, sink_ofTrapRun]

/-- What was written before a pause stays in front of what is written after it. -/
theorem output_resume (c : Cycle (Recorded OpenSink)) :
    ∃ echoed, c.resume.sink.output = c.sink.output ++ echoed := by
  cases hp : c.phase with
  | done o =>
    refine ⟨[], ?_⟩
    rw [resume_done hp, List.append_nil]
  | awaitKey address echo =>
    rw [resume_awaitKey hp, sink_ofTrapRun]
    rcases hr : c.machine.toHardware.memory.keyboard.read with ⟨key, rest⟩
    cases key with
    | character k =>
      rw [TrapRoutine.receive_character hr]
      cases echo with
      | true =>
        refine ⟨[k.low], ?_⟩
        rw [if_pos rfl, TrapRoutine.emit_ok (Recorded.emit_open _ _), Recorded.output_emit_open]
      | false => exact ⟨[], (List.append_nil _).symm⟩
    | failed fault =>
      refine ⟨[], ?_⟩
      rw [TrapRoutine.receive_failed hr, List.append_nil]
    | waiting =>
      refine ⟨[], ?_⟩
      rw [TrapRoutine.receive_waiting hr, List.append_nil]

variable (law : Transmits I T received)

include law

theorem beside_begin (m : Machine) {s : Recorded OpenSink} {s' : τ} (hs : I s')
    (hsink : received s' = T s.output) :
    Beside I T received (m.begin s) (m.begin s') := by
  cases hstatus : m.status with
  | halted =>
    rw [Machine.begin_halted hstatus, Machine.begin_halted hstatus]
    exact .same rfl rfl rfl hs hsink
  | running =>
    cases hi : m.memory.keyboard.interrupted with
    | true =>
      rw [Machine.begin_interrupted hstatus hi, Machine.begin_interrupted hstatus hi]
      exact .same rfl rfl rfl hs hsink
    | false =>
      rw [Machine.begin_running hstatus hi, Machine.begin_running hstatus hi]
      refine Machine.dispatch_cases (i := m.fetch.1) (h := m.fetch.2) (fun h' hx => ?_)
        (fun t ho ht => ?_) (fun ho ht => ?_) (fun ho => ?_)
      -- what is fetched does not depend on the console, and only routines use it
      · rw [Machine.dispatch_execute hx, Machine.dispatch_execute hx]
        exact .same rfl rfl rfl hs hsink
      · rw [Machine.dispatch_trap ho ht, Machine.dispatch_trap ho ht]
        exact beside_ofTrapRun (t.beside_begin law hs hsink _) _ _
      · rw [Machine.dispatch_badTrap ho ht, Machine.dispatch_badTrap ho ht]
        exact .same rfl rfl rfl hs hsink
      · rw [Machine.dispatch_invalid ho, Machine.dispatch_invalid ho]
        exact .same rfl rfl rfl hs hsink

theorem beside_resume {left : Cycle (Recorded OpenSink)} {right : Cycle τ}
    (h : Beside I T received left right) :
    Beside I T received left.resume right.resume := by
  cases h with
  | same phase machine log keeps sink =>
    cases hp : left.phase with
    | done o =>
      rw [resume_done hp, resume_done (phase.trans hp)]
      exact .same phase machine log keeps sink
    | awaitKey address echo =>
      rw [resume_awaitKey hp, resume_awaitKey (phase.trans hp), machine, log]
      exact beside_ofTrapRun (TrapRoutine.beside_receive law keeps sink echo _) _ _
  | cut e phase sink =>
    -- the right one has stopped, while the left one may show the key that it waited for
    obtain ⟨echoed, hechoed⟩ := output_resume left
    rw [resume_done phase]
    exact .cut e phase (sink.trans (law.isPrefix ⟨echoed, hechoed.symm⟩))

theorem beside_next {left : Cycle (Recorded OpenSink)} {right : Cycle τ}
    (phase : right.phase = left.phase) (machine : right.machine = left.machine)
    (log : right.log = left.log) (keeps : I right.sink)
    (sink : received right.sink = T left.sink.output) :
    Beside I T received left.next right.next := by
  cases hp : left.phase with
  | done o =>
    rw [next_done hp, next_done (phase.trans hp), machine]
    exact beside_resume law (beside_begin law left.machine keeps sink)
  | awaitKey address echo =>
    rw [next_awaitKey hp, next_awaitKey (phase.trans hp)]
    exact beside_resume law (.same phase machine log keeps sink)

end Cycle

/-! ### Timelines -/

/-- The timeline of a machine on a console in state `d`, beside the one on a console that takes
everything: how long they agree, and what becomes of the first failure. -/
structure Lockstep (T : List Byte → List Byte) (received : τ → List Byte) (m : Machine)
    (host : ℕ → Keyboard → Keyboard) (d : τ) : Prop where
  /-- Without a failure of the console the two agree, but for the translation of the output. -/
  agree : ∀ k,
    (∀ i ≤ k, ¬ ((m.ready d).after host i).ConsoleFailed) →
      ((m.ready d).after host k).phase =
          ((m.ready (Recorded.start OpenSink.mk)).after host k).phase ∧
        ((m.ready d).after host k).machine =
          ((m.ready (Recorded.start OpenSink.mk)).after host k).machine ∧
        ((m.ready d).after host k).log =
          ((m.ready (Recorded.start OpenSink.mk)).after host k).log ∧
        received ((m.ready d).after host k).sink =
          T ((m.ready (Recorded.start OpenSink.mk)).after host k).sink.output
  /-- Up to the step in which the console fails first, the machines agree. That step leaves a prefix
  of the output and a halted machine, and nothing is written any more. -/
  cut : ∀ j,
    (∀ i ≤ j, ¬ ((m.ready d).after host i).ConsoleFailed) →
      ((m.ready d).after host (j + 1)).ConsoleFailed →
        ((m.ready d).after host j).machine =
            ((m.ready (Recorded.start OpenSink.mk)).after host j).machine ∧
          received ((m.ready d).after host (j + 1)).sink <+:
            T ((m.ready (Recorded.start OpenSink.mk)).after host (j + 1)).sink.output ∧
          ∀ k, ((m.ready d).after host (j + 1 + k)).machine.status = .halted ∧
            ((m.ready d).after host (j + 1 + k)).sink = ((m.ready d).after host (j + 1)).sink

section Lockstep

variable (law : Transmits I T received) (m : Machine) (host : ℕ → Keyboard → Keyboard) {d : τ}
  (hd : I d) (hnil : received d = T [])

include law hd hnil

/-- As long as nothing has failed the cycles are the same, and the next step puts them beside each
other. -/
theorem Transmits.beside_after (k : ℕ)
    (hno : ∀ i ≤ k, ¬ ((m.ready d).after host i).ConsoleFailed) :
    Cycle.Beside I T received ((m.ready (Recorded.start OpenSink.mk)).after host (k + 1))
      ((m.ready d).after host (k + 1)) := by
  induction k with
  | zero => exact Cycle.beside_next law rfl rfl rfl hd hnil
  | succ k ih =>
    -- a cycle that was cut would be a failure before the last step
    have hbefore := ih fun i hi => hno i (Nat.le_succ_of_le hi)
    cases hbefore with
    | same phase machine log keeps sink =>
      refine Cycle.beside_next law phase ?_ log keeps sink
      unfold Cycle.onKeyboard
      rw [machine]
    | cut e phase sink => exact absurd ⟨e, phase⟩ (hno (k + 1) (Nat.le_refl _))

/-- **Lockstep**, for every console whose whole writes arrive. -/
theorem Transmits.lockstep : Lockstep T received m host d where
  agree k hno := by
    cases k with
    | zero => exact ⟨rfl, rfl, rfl, hnil⟩
    | succ k =>
      have hbeside := law.beside_after m host hd hnil k fun i hi => hno i (Nat.le_succ_of_le hi)
      cases hbeside with
      | same phase machine log keeps sink => exact ⟨phase, machine, log, sink⟩
      | cut e phase sink => exact absurd ⟨e, phase⟩ (hno (k + 1) (Nat.le_refl _))
  cut j hno hfailed := by
    obtain ⟨e, he⟩ := hfailed
    -- the fault has halted the machine, which settles all that comes later
    have hhalted : ((m.ready d).after host (j + 1)).machine.status = .halted :=
      Cycle.final_next _ he
    have hover : ((m.ready d).after host (j + 1)).Over := ⟨⟨_, he⟩, hhalted⟩
    refine ⟨?_, ?_, fun k => ?_⟩
    · cases j with
      | zero => rfl
      | succ j =>
        have hbeside := law.beside_after m host hd hnil j fun i hi => hno i (Nat.le_succ_of_le hi)
        cases hbeside with
        | same phase machine log keeps sink => exact machine
        | cut e phase sink => exact absurd ⟨e, phase⟩ (hno (j + 1) (Nat.le_refl _))
    · have hbeside := law.beside_after m host hd hnil j hno
      cases hbeside with
      | same phase machine log keeps sink => exact ⟨[], (List.append_nil _).trans sink⟩
      | cut e phase sink => exact sink
    · obtain ⟨hoverk, hsinkk⟩ := Cycle.after_of_over host hover k
      exact ⟨hoverk.2, hsinkk⟩

end Lockstep

/-- **The console does not influence execution.** Whatever a sink does, used directly or behind a
translating one: a machine on it and one on a sink that takes everything are in lockstep. -/
theorem console_independent {σ : Type} [ByteSink σ] (m : Machine)
    (host : ℕ → Keyboard → Keyboard) (inner : σ) :
    Lockstep id Recorded.output m host (Recorded.start inner) ∧
      ∀ raw, Lockstep (Translating.translation raw) (fun d => d.inner.output) m host
        (⟨Recorded.start inner, raw⟩ : Translating (Recorded σ)) := by
  refine ⟨transmits_recorded.lockstep m host trivial rfl, fun raw => ?_⟩
  refine (transmits_translating raw).lockstep m host rfl ?_
  cases raw with
  | true => rfl
  | false => rfl

end LC3
