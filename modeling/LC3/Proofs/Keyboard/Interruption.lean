import LC3.Console.Devices
import LC3.Console.Recorded
import LC3.Keyboard.Terminal
import LC3.Proofs.Calls
import LC3.Proofs.Keyboard.Schedule

/-!
# CTRL-C and the end of input

A terminal ends in two ways. On CTRL-C it raises the flag and then closes the queue; when it cannot
be read any more it only closes the queue. Between the two actions of a CTRL-C the machine may do
anything, and likewise between its own look at the flag and its wait for a key. Still the two ends
are never mistaken for each other.

The reason is the order of the two actions. Closing is the last thing that a terminal does
(`Terminal.actions_eq_of_close_mem`), so a queue that is found closed has behind it everything that
the terminal has done: the flag, if there was a CTRL-C, and all the characters. And a fault that
speaks of a closed queue comes only from a read that has found it closed, while one that speaks of
the user's wish comes only from a flag that is set (`Move.fault?_cases`).

* `Keyboard.reads_available` — successive reads get all the characters that are there before any of
  them fails.
* `controlC_ne_closed` — the statement about every history.
-/

namespace LC3

/-! ### How a terminal ends -/

namespace Terminal

/-- Why a terminal reports no more keys. -/
inductive End
  | controlC
  | broken (reason : String)
deriving DecidableEq

/-- The end of the terminal in a script of what its reads return, if it comes to one. -/
def ending? : List (Except String Report) → Option End
  | [] => none
  | .error reason :: _ => some (.broken reason)
  | .ok report :: script => if report.response = .interrupt then some .controlC else ending? script

/-- The characters that are typed before the end. -/
def typed : List (Except String Report) → List Word
  | [] => []
  | .error _ :: _ => []
  | .ok report :: script =>
    match report.response with
    | .ignore => typed script
    | .send c => c :: typed script
    | .interrupt => []

/-- What a terminal does at its end, before it closes the queue. -/
def End.signal : End → List SourceAction
  | controlC => [.interrupt]
  | broken _ => []

/-- A terminal sends what is typed. At its end it gives a signal or none, and closes the queue. -/
theorem actions_listen (script : List (Except String Report)) :
    (listen true script).actions = (typed script).map .send ++
      match ending? script with
      | some e => e.signal ++ [.close]
      | none => [] := by
  induction script with
  | nil => rfl
  | cons read script ih =>
    cases read with
    | error reason => rfl
    | ok report =>
      unfold listen typed ending?
      cases hr : report.response with
      | ignore => exact ih
      | interrupt => rfl
      | send c => exact congrArg (.send c :: ·) ih

/-- **Closing comes last.** Whoever finds the queue closed has all of the actions behind it. -/
theorem actions_eq_of_close_mem {script : List (Except String Report)}
    {done : List SourceAction} (h : done <+: (listen true script).actions)
    (hclose : .close ∈ done) :
    ∃ e, ending? script = some e ∧ done = (typed script).map .send ++ e.signal ++ [.close] := by
  rw [actions_listen] at h
  cases he : ending? script with
  | none =>
    rw [he, List.append_nil] at h
    -- a terminal that has not ended only sends
    obtain ⟨c, -, hc⟩ := List.mem_map.1 (h.subset hclose)
    cases hc
  | some e =>
    rw [he, ← List.append_assoc] at h
    refine ⟨e, rfl, SourceAction.eq_of_close_mem ?_ h hclose⟩
    intro hmem
    obtain hmem | hmem := List.mem_append.1 hmem
    · obtain ⟨c, -, hc⟩ := List.mem_map.1 hmem
      cases hc
    · cases e <;> simp [End.signal] at hmem

theorem interrupt_mem_actions_iff (script : List (Except String Report)) :
    .interrupt ∈ (listen true script).actions ↔ ending? script = some .controlC := by
  rw [actions_listen]
  cases he : ending? script with
  | none => simp
  | some e => cases e <;> simp [End.signal]

end Terminal

/-! ### Successive reads -/

namespace Keyboard

/-- What a number of attempts to receive a character come to, one after the other. -/
def reads : ℕ → Keyboard → List KeyRead
  | 0, _ => []
  | n + 1, k => k.read.1 :: reads n k.read.2

/-- **Every character before any failure.** Successive reads get the characters that are there, in
order, and only then one of them fails, or waits if the queue is open. -/
theorem reads_available (k : Keyboard) :
    k.reads (k.available.length + 1) =
      k.available.map .character ++ [if k.isOpen then .waiting else .failed k.closedFault] := by
  induction hn : k.available.length generalizing k with
  | zero =>
    have hnil := List.length_eq_zero_iff.1 hn
    have hread := read_of_none ((next?_eq_none_iff k).2 hnil)
    change [k.read.1] = _
    rw [hnil, hread]
    rfl
  | succ n ih =>
    cases hk : k.next? with
    | none =>
      rw [(next?_eq_none_iff k).1 hk] at hn
      cases hn
    | some next =>
      obtain ⟨c, rest⟩ := next
      obtain ⟨havailable, hopen, hflag⟩ := available_of_next? hk
      have hlength : rest.available.length = n := by
        rw [havailable] at hn
        exact Nat.succ.inj hn
      have hfault : rest.closedFault = k.closedFault := by
        unfold closedFault
        rw [hflag]
      change k.read.1 :: reads (n + 1) k.read.2 = _
      rw [read_of_next? hk, ih rest hlength, havailable, hopen, hfault]
      rfl

end Keyboard

/-! ### Faults in a history -/

def KeyRead.fault? : KeyRead → Option Fault
  | failed fault => some fault
  | _ => none

namespace Move

variable {σ : Type} [ByteSink σ]

/-- The fault that a move reports: an attempt to receive a character fails, or a step does. -/
def fault? : Move → Cycle σ → Option Fault
  | access .receive, c => c.machine.memory.keyboard.read.1.fault?
  | turn, c => c.turn.phase.fault?
  | _, _ => none

/-- The faults that some moves report, in order. -/
def faults : List Move → Cycle σ → List Fault
  | [], _ => []
  | x :: xs, c => (x.fault? c).toList ++ faults xs (x.perform c)

theorem exists_of_mem_faults {moves : List Move} {c : Cycle σ} {fault : Fault}
    (h : fault ∈ faults moves c) :
    ∃ before x after, moves = before ++ x :: after ∧
      x.fault? (performAll before c) = some fault := by
  induction moves generalizing c with
  | nil => cases h
  | cons x xs ih =>
    obtain hfirst | hlater := List.mem_append.1 h
    · exact ⟨[], x, xs, rfl, Option.mem_toList.1 hfirst⟩
    · obtain ⟨before, y, after, rfl, hy⟩ := ih hlater
      exact ⟨x :: before, y, after, rfl, hy⟩

/-- **Where faults of input come from.** The user's wish comes from the flag, and a closed input
from a queue that is closed while the flag is not set. -/
theorem fault?_cases {x : Move} {c : Cycle σ} {fault : Fault} (h : x.fault? c = some fault) :
    (fault = .interrupted → c.machine.memory.keyboard.interrupted = true) ∧
      (fault = .inputClosed → c.machine.memory.keyboard.isOpen = false ∧
        c.machine.memory.keyboard.interrupted = false) := by
  have hread (hr : c.machine.memory.keyboard.read.1 = .failed fault) :
      (fault = .interrupted → c.machine.memory.keyboard.interrupted = true) ∧
        (fault = .inputClosed → c.machine.memory.keyboard.isOpen = false ∧
          c.machine.memory.keyboard.interrupted = false) := by
    obtain ⟨-, hclosed, rfl⟩ := (Keyboard.read_failed_iff _ _).1 hr
    unfold Keyboard.closedFault
    cases c.machine.memory.keyboard.interrupted with
    | true => exact ⟨fun _ => rfl, fun hne => absurd hne Fault.noConfusion⟩
    | false => exact ⟨fun hne => absurd hne Fault.noConfusion, fun _ => ⟨hclosed, rfl⟩⟩
  cases x with
  | send c | close | interrupt flag | load bytes => cases h
  | access x =>
    cases x with
    | read a | write a value | poll | take => cases h
    | receive =>
      change c.machine.memory.keyboard.read.1.fault? = some fault at h
      cases hr : c.machine.memory.keyboard.read.1 with
      | character k | waiting =>
        rw [hr] at h
        cases h
      | failed f =>
        rw [hr] at h
        cases h
        exact hread hr
  | turn =>
    have hfault : c.turn.phase = .done (.failed fault) := Phase.of_fault? h
    cases hp : c.phase with
    | done o =>
      -- the first part asks the flag and nothing else
      rw [Cycle.turn_done hp] at hfault
      obtain ⟨hflag, rfl⟩ | ⟨-, hne, hne'⟩ := Machine.fault_begin hfault
      · exact ⟨fun _ => hflag, fun hne => absurd hne Fault.noConfusion⟩
      · exact ⟨fun heq => absurd heq hne, fun heq => absurd heq hne'⟩
    | awaitKey address echo =>
      rw [Cycle.turn_awaitKey hp] at hfault
      obtain hr | ⟨e, rfl⟩ := Cycle.fault_resume hp hfault
      · exact hread hr
      · exact ⟨fun heq => absurd heq Fault.noConfusion, fun heq => absurd heq Fault.noConfusion⟩

end Move

/-! ### Every history of a terminal -/

section Terminal

variable {σ : Type} [ByteSink σ] {start : Cycle σ} {script : List (Except String Terminal.Report)}
  {moves : List Move}

/-- A history of a terminal beside a program that executes instructions and uses memory and the near
end of the keyboard. -/
abbrev Terminal.History (script : List (Except String Report)) (moves : List Move) : Prop :=
  Move.Interleaves (listen true script).actions (fun x => x = .turn ∨ ∃ a, x = .access a) moves

variable (hmoves : Terminal.History script moves)

include hmoves

/-- A flag that is set was set by CTRL-C. -/
theorem Terminal.History.controlC_of_interrupted
    (hflag : start.machine.memory.keyboard.interrupted = false)
    (hset : (Move.performAll moves start).machine.memory.keyboard.interrupted = true) :
    Terminal.ending? script = some .controlC := by
  have hmem := (hmoves.interrupted_iff hflag).1 hset
  exact (Terminal.interrupt_mem_actions_iff script).1 (hmoves.source.subset hmem)

/-- A queue that is closed has everything behind it that the terminal does. -/
theorem Terminal.History.of_closed (hopen : start.machine.memory.keyboard.isOpen = true)
    (hclosed : (Move.performAll moves start).machine.memory.keyboard.isOpen = false) :
    ∃ e, Terminal.ending? script = some e ∧
      Move.actions moves = (Terminal.typed script).map .send ++ e.signal ++ [.close] :=
  Terminal.actions_eq_of_close_mem hmoves.source (Move.close_mem_actions hopen hclosed)

/-- A queue that CTRL-C has closed is found with the flag set. -/
theorem Terminal.History.interrupted_of_closed
    (hopen : start.machine.memory.keyboard.isOpen = true)
    (hflag : start.machine.memory.keyboard.interrupted = false)
    (hend : Terminal.ending? script = some .controlC)
    (hclosed : (Move.performAll moves start).machine.memory.keyboard.isOpen = false) :
    (Move.performAll moves start).machine.memory.keyboard.interrupted = true := by
  obtain ⟨e, he, hactions⟩ := hmoves.of_closed hopen hclosed
  obtain rfl : Terminal.End.controlC = e := Option.some.inj (hend.symm.trans he)
  rw [hmoves.interrupted_iff hflag, hactions]
  simp [Terminal.End.signal]

/-- Behind a closed queue all characters that were typed have been sent. -/
theorem Terminal.History.accepted_of_closed
    (hopen : start.machine.memory.keyboard.isOpen = true)
    (hclosed : (Move.performAll moves start).machine.memory.keyboard.isOpen = false) :
    Move.accepted moves = Terminal.typed script := by
  obtain ⟨e, -, hactions⟩ := hmoves.of_closed hopen hclosed
  rw [Move.accepted_actions, hactions, List.append_assoc, SourceAction.accepted_sends]
  cases e with
  | controlC => exact List.append_nil _
  | broken reason => exact List.append_nil _

end Terminal

/-- **CTRL-C is never mistaken for a closed input**, nor the other way round. Whatever a terminal is
told to read, and however what it does comes between the parts of the cycles and the other uses of
memory and keyboard: after a CTRL-C no fault says that the input is closed, and an attempt to
receive a character from the queue once it is closed and empty says that the user wants to stop;
after a failure of the terminal no fault says so. Either way every character that was typed is
received before any attempt fails. -/
theorem controlC_ne_closed {σ : Type} [ByteSink σ] (start : Cycle σ)
    (script : List (Except String Terminal.Report)) (moves : List Move)
    (hopen : start.machine.memory.keyboard.isOpen = true)
    (hflag : start.machine.memory.keyboard.interrupted = false)
    (hmoves : Terminal.History script moves) :
    let now := Move.performAll moves start
    let k := now.machine.memory.keyboard
    (Terminal.ending? script = some .controlC →
      .inputClosed ∉ Move.faults moves start ∧
        (k.isOpen = false → k.available = [] → k.read.1 = .failed .interrupted ∧
          ∀ address echo, now.phase = .awaitKey address echo →
            now.turn.phase = .done (.failed .interrupted))) ∧
      (∀ reason, Terminal.ending? script = some (.broken reason) →
        .interrupted ∉ Move.faults moves start) ∧
      k.reads (k.available.length + 1) =
        k.available.map .character ++ [if k.isOpen then .waiting else .failed k.closedFault] ∧
      (k.isOpen = false →
        start.machine.memory.keyboard.available ++ Terminal.typed script =
          Move.deliveredAll moves start ++ k.available) := by
  intro now k
  refine ⟨?controlC, ?broken, k.reads_available, ?typed⟩
  case controlC =>
    intro hend
    constructor
    · intro hmem
      obtain ⟨before, x, after, rfl, hx⟩ := Move.exists_of_mem_faults hmem
      -- at that point the queue was closed without the flag
      obtain ⟨hclosed, hclear⟩ := (Move.fault?_cases hx).2 rfl
      have hbefore : Terminal.History script before := hmoves.left
      have hset := hbefore.interrupted_of_closed hopen hflag hend hclosed
      rw [hclear] at hset
      cases hset
    · intro hclosed hnil
      have hset := hmoves.interrupted_of_closed hopen hflag hend hclosed
      have hread : k.read = (.failed .interrupted, k) := by
        have hnone := Keyboard.read_of_none ((Keyboard.next?_eq_none_iff k).2 hnil)
        rw [hnone, hclosed]
        unfold Keyboard.closedFault
        rw [show k.interrupted = true from hset]
        rfl
      refine ⟨congrArg Prod.fst hread, ?_⟩
      intro address echo hp
      rw [Cycle.turn_awaitKey hp, Cycle.resume_awaitKey hp, TrapRoutine.receive_failed hread]
      rfl
  case broken =>
    intro reason hend hmem
    obtain ⟨before, x, after, rfl, hx⟩ := Move.exists_of_mem_faults hmem
    have hset := (Move.fault?_cases hx).1 rfl
    have hbefore : Terminal.History script before := hmoves.left
    have hcontrolC := hbefore.controlC_of_interrupted hflag hset
    exact absurd (hend.symm.trans hcontrolC) (by simp)
  case typed =>
    intro hclosed
    have hconserved := Move.deliveredAll_append moves start
    rw [if_pos hopen, hmoves.accepted_of_closed hopen hclosed] at hconserved
    exact hconserved.symm

/-- A machine that asks for a key. -/
def asksOnce : Machine :=
  (Machine.initial (.channel [] true)).withMemory
    ((Memory.cleared (.channel [] true)).write 0x3000 0xF020)

/-- A key that is not used, and then CTRL-C. -/
def stopsAtOnce : List (Except String Terminal.Report) :=
  [.ok (.key ⟨.capsLock, false, false, false, .press⟩),
    .ok (.key ⟨.char 'c', false, true, false, .press⟩)]

/-- The flag is raised when the machine has looked at it and already waits, and the queue is closed
after the machine has tried once more. -/
def stopsWhileWaiting : List Move := [.turn, .interrupt true, .turn, .close, .turn]

theorem controlC_ne_closed_stopsWhileWaiting :
    asksOnce.memory.keyboard.isOpen = true ∧ asksOnce.memory.keyboard.interrupted = false ∧
      Terminal.History stopsAtOnce stopsWhileWaiting ∧
      Terminal.ending? stopsAtOnce = some .controlC ∧
      Move.faults stopsWhileWaiting (asksOnce.ready (Recorded.start OpenSink.mk)) =
        [.interrupted] ∧
      .inputClosed ∉ Move.faults stopsWhileWaiting (asksOnce.ready (Recorded.start OpenSink.mk)) :=
  have hturns : ∀ x ∈ stopsWhileWaiting, x.action? = none → x = .turn := by decide
  have hmoves : Terminal.History stopsAtOnce stopsWhileWaiting :=
    ⟨⟨[], by decide +kernel⟩, fun x hx ha => .inl (hturns x hx ha)⟩
  have hend : Terminal.ending? stopsAtOnce = some .controlC := by decide +kernel
  ⟨rfl, rfl, hmoves, hend, by decide +kernel,
    ((controlC_ne_closed (asksOnce.ready (Recorded.start OpenSink.mk)) stopsAtOnce
      stopsWhileWaiting rfl rfl hmoves).1 hend).1⟩

end LC3
