import LC3.Console.Devices
import LC3.Proofs.Alike
import LC3.Proofs.Halting
import LC3.Proofs.Keyboard.Conservation
import Mathlib.Data.List.Forall2

/-!
# The status register keeps nothing

The status register is a cell of memory, and a program or an image can store a word there. But
reading it overwrites it first, with an answer that depends on the keyboard alone. So two machines
that are equal except for the word in this cell remain so whatever is done to both, and no answer
tells them apart: the instruction at this address, a string that runs across it, a pointer that is
read from it are all what the keyboard says.

* `EqOffStatus.refresh` — the reason for all of this: bringing the device registers up to date makes
  the two memories equal.
* `EqOffStatus.respects` — hence single accesses keep the relation, and a cycle consists of them.
* `Session.eqOffStatus` — calls return on both machines, or on neither.
* `status_cell_unobservable` — the statement as a whole.
-/

namespace LC3

/-! ### Memories -/

namespace Memory

/-- The same keyboard, and the same word in every cell but the status register. -/
structure EqOffStatus (m m' : Memory) : Prop where
  cells : ∀ a, a ≠ statusAddress → m'.peek a = m.peek a
  keyboard : m'.keyboard = m.keyboard

namespace EqOffStatus

variable {m m' : Memory}

theorem refl (m : Memory) : m.EqOffStatus m where
  cells _ _ := rfl
  keyboard := rfl

theorem symm (h : m.EqOffStatus m') : m'.EqOffStatus m where
  cells a ha := (h.cells a ha).symm
  keyboard := h.keyboard.symm

/-- Up to date the memories are equal. -/
theorem refresh (h : m.EqOffStatus m') : m'.refresh = m.refresh := by
  refine ext_peek ?_ ?_
  · intro a
    rw [peek_refresh, peek_refresh, h.keyboard]
    by_cases ha : a = statusAddress
    · -- the only cell that may differ is the one that is overwritten in any case
      simp only [if_pos ha]
    · rw [h.cells a ha]
  · rw [keyboard_refresh, keyboard_refresh, h.keyboard]

/-- What the status register held before is no part of the answer, and it is gone behind it. -/
theorem read (h : m.EqOffStatus m') (a : Word) :
    (m'.read a).1 = (m.read a).1 ∧ (m.read a).2.EqOffStatus (m'.read a).2 := by
  by_cases ha : a = statusAddress
  · subst ha
    rw [read_statusAddress, read_statusAddress, h.refresh]
    exact ⟨rfl, .refl _⟩
  · rw [read_of_ne m ha, read_of_ne m' ha]
    exact ⟨h.cells a ha, h⟩

theorem write (h : m.EqOffStatus m') (a value : Word) :
    (m.write a value).EqOffStatus (m'.write a value) where
  cells b hb := by rw [peek_write, peek_write, h.cells b hb]
  keyboard := h.keyboard

/-- A write of the status register itself may even be of two different words. -/
theorem write_status (h : m.EqOffStatus m') (v w : Word) :
    (m.write statusAddress v).EqOffStatus (m'.write statusAddress w) where
  cells b hb := by rw [peek_write, peek_write, if_neg hb, if_neg hb, h.cells b hb]
  keyboard := h.keyboard

theorem connect (h : m.EqOffStatus m') (k : Keyboard) :
    (m.connect k).EqOffStatus (m'.connect k) where
  cells := h.cells
  keyboard := rfl

theorem onKeyboard (h : m.EqOffStatus m') (f : Keyboard → Keyboard) :
    (m.connect (f m.keyboard)).EqOffStatus (m'.connect (f m'.keyboard)) := by
  rw [h.keyboard]
  exact h.connect _

/-- So may the word of an image that is placed there. -/
theorem place (h : m.EqOffStatus m') (image : Image) {i : ℕ}
    (hi : image.origin.toNat + i = statusAddress.toNat) (v : Word) :
    (m.place image).EqOffStatus (m'.place { image with words := image.words.set i v }) where
  cells b hb := by
    unfold Memory.place
    rw [peek_fill, peek_fill, h.cells b hb]
    by_cases hle : image.origin.toNat ≤ b.toNat
    · -- any other cell gets another word of the image
      have hne : i ≠ b.toNat - image.origin.toNat := by
        intro heq
        refine hb (BitVec.eq_of_toNat_eq ?_)
        rw [← hi, heq]
        exact (Nat.add_sub_cancel' hle).symm
      rw [if_pos hle, if_pos hle, List.getElem?_set_ne hne]
    · rw [if_neg hle, if_neg hle]
  keyboard := by
    unfold Memory.place
    rw [keyboard_fill, keyboard_fill, h.keyboard]

theorem fill (h : m.EqOffStatus m') (a : Word) (values : List Word) :
    (m.fill a values).EqOffStatus (m'.fill a values) where
  cells b hb := by rw [peek_fill, peek_fill, h.cells b hb]
  keyboard := by rw [keyboard_fill, keyboard_fill, h.keyboard]

/-- Single accesses keep the relation, at all addresses. -/
theorem respects : Respects EqOffStatus fun _ => True where
  read h a _ := h.read a
  write h a value := h.write a value
  interrupted h := congrArg Keyboard.interrupted h.keyboard

theorem perform (h : m.EqOffStatus m') (x : Access) :
    (x.perform m).EqOffStatus (x.perform m') := by
  cases x with
  | read a => exact (h.read a).2
  | write a value => exact h.write a value
  | poll => exact h.onKeyboard Keyboard.poll
  | take => exact h.onKeyboard fun k => k.take.2
  | receive => exact h.onKeyboard fun k => k.read.2

theorem afterLoading (h : m.EqOffStatus m') (bytes : List Byte) :
    (m.afterLoading bytes).EqOffStatus (m'.afterLoading bytes) := by
  unfold Memory.afterLoading Memory.load
  cases Image.ofBytes? bytes with
  | some image => exact h.fill image.origin image.words
  | none => exact h

end EqOffStatus

end Memory

/-! ### Machines -/

/-- The same machine, but for the word in the status register. -/
structure Machine.EqOffStatus (m m' : Machine) : Prop where
  registers : m'.registers = m.registers
  status : m'.status = m.status
  memory : m.memory.EqOffStatus m'.memory

/-- The same answers, and machines with the same property. -/
structure Return.EqOffStatus {σ : Type} (r r' : Return σ) : Prop where
  fault : r'.fault? = r.fault?
  machine : r.machine.EqOffStatus r'.machine
  sink : r'.sink = r.sink
  log : r'.log = r.log

theorem Machine.EqOffStatus.symm {m m' : Machine} (h : m.EqOffStatus m') : m'.EqOffStatus m where
  registers := h.registers.symm
  status := h.status.symm
  memory := h.memory.symm

theorem Machine.EqOffStatus.withMemory {m m' : Machine} (h : m.EqOffStatus m') {k k' : Memory}
    (hk : k.EqOffStatus k') : (m.withMemory k).EqOffStatus (m'.withMemory k') where
  registers := h.registers
  status := h.status
  memory := hk

variable {σ : Type}

namespace Cycle

abbrev EqOffStatus (c c' : Cycle σ) : Prop := c.Alike Memory.EqOffStatus c'

variable {c c' : Cycle σ}

theorem EqOffStatus.machine (h : c.EqOffStatus c') : c.machine.EqOffStatus c'.machine where
  registers := h.hardware.registers
  status := h.status
  memory := h.hardware.memory

theorem EqOffStatus.onMemory (h : c.EqOffStatus c') {f : Memory → Memory}
    (hf : (f c.machine.memory).EqOffStatus (f c'.machine.memory)) :
    (c.onMemory f).EqOffStatus (c'.onMemory f) where
  phase := h.phase
  hardware := ⟨h.hardware.registers, hf⟩
  status := h.status
  sink := h.sink
  log := h.log

theorem EqOffStatus.onKeyboard (h : c.EqOffStatus c') (f : Keyboard → Keyboard) :
    (c.onKeyboard f).EqOffStatus (c'.onKeyboard f) :=
  h.onMemory (f := fun m => m.connect (f m.keyboard)) (h.hardware.memory.onKeyboard f)

end Cycle

theorem Machine.EqOffStatus.ready {m m' : Machine} (h : m.EqOffStatus m') (s : σ) :
    (m.ready s).EqOffStatus (m'.ready s) where
  phase := by
    show Phase.done m'.status.outcome = .done m.status.outcome
    rw [h.status]
  hardware := ⟨h.registers, h.memory⟩
  status := h.status
  sink := rfl
  log := rfl

variable [ByteSink σ]

theorem TrapRoutine.eqOffStatus_receive {h h' : Hardware} (hh : h.Alike Memory.EqOffStatus h')
    (echo : Bool) (s : σ) :
    (receive echo h s).Alike Memory.EqOffStatus (receive echo h' s) := by
  -- behind the pause as well, only the keyboard counts
  rcases hr : h.memory.keyboard.read with ⟨key, rest⟩
  have hr' : h'.memory.keyboard.read = (key, rest) := by rw [hh.memory.keyboard, hr]
  cases key with
  | waiting =>
    rw [receive_waiting hr, receive_waiting hr']
    exact ⟨rfl, hh, rfl⟩
  | failed fault =>
    rw [receive_failed hr, receive_failed hr']
    exact ⟨rfl, hh, rfl⟩
  | character k =>
    have haccept : (accept h k rest).Alike Memory.EqOffStatus (accept h' k rest) :=
      ⟨congrArg (fun regs => regs.set 0 (.ofByte k.low)) hh.registers, hh.memory.connect rest⟩
    rw [receive_character hr, receive_character hr']
    cases echo with
    | true => exact alike_emit haccept _ _ s
    | false => exact ⟨rfl, haccept, rfl⟩

namespace Cycle

variable {c c' d : Cycle σ}

/-- **A part of a cycle does the same on both machines.** -/
theorem EqOffStatus.turn (h : c.EqOffStatus c') : c.turn.EqOffStatus c'.turn := by
  cases hp : c.phase with
  | done o =>
    rw [turn_done hp, turn_done (h.phase.trans hp), h.sink]
    exact Machine.alike_begin Memory.EqOffStatus.respects h.hardware h.status c.sink fun _ _ => trivial
  | awaitKey address echo =>
    have hp' := h.phase.trans hp
    rw [turn_awaitKey hp, turn_awaitKey hp', resume_awaitKey hp, resume_awaitKey hp', h.sink, h.log]
    exact alike_ofTrapRun (TrapRoutine.eqOffStatus_receive h.hardware echo c.sink) address c.log

theorem Ends.eqOffStatus {fs : Changes} (hd : c.Ends fs d) (h : c.EqOffStatus c') :
    ∃ d', c'.Ends fs d' ∧ d.EqOffStatus d' := by
  -- part by part; the phases agree, so both cycles end behind the same change
  induction hd generalizing c' with
  | done hp => exact ⟨c', .done (h.phase.trans hp), h⟩
  | @turn c d _ _ f _ hp _ ih =>
    obtain ⟨d', hd', hdd⟩ := ih (h.onKeyboard f).turn
    exact ⟨d', .turn (h.phase.trans hp) hd', hdd⟩

end Cycle

/-! ### Calls -/

namespace Machine

variable {m n : Machine} {s : σ}

theorem Steps.eqOffStatus {fs : Changes} {c : Cycle σ} (hc : m.Steps s fs c)
    (h : m.EqOffStatus n) : ∃ c', n.Steps s fs c' ∧ c.EqOffStatus c' := by
  cases hc with
  | halted hs =>
    have hs' := h.status.trans hs
    exact ⟨_, .halted hs', rfl, ⟨h.registers, h.memory⟩, h.status, rfl, rfl⟩
  | @running f _ _ hs hc =>
    obtain ⟨c', hc', hcc⟩ := hc.eqOffStatus ((h.ready s).onKeyboard f).turn
    exact ⟨c', .running (h.status.trans hs) hc', hcc⟩

theorem Executes.eqOffStatus {fs : Changes} {r : Run σ} (hr : m.Executes s fs r)
    (h : m.EqOffStatus n) :
    ∃ r', n.Executes s fs r' ∧ r'.ending = r.ending ∧ r.machine.EqOffStatus r'.machine ∧
      r'.sink = r.sink ∧ r'.log = r.log := by
  induction hr generalizing n with
  | halted hs => exact ⟨_, .halted (h.status.trans hs), rfl, h, rfl, rfl⟩
  | failed hs hc hf =>
    obtain ⟨c', hc', hcc⟩ := hc.eqOffStatus h
    have hf' := (congrArg Phase.fault? hcc.phase).trans hf
    exact ⟨_, .failed (h.status.trans hs) hc' hf', rfl, hcc.machine, hcc.sink, hcc.log⟩
  | @goesOn m s fs gs c r hs hc hf hr ih =>
    -- the first cycle is the same, and so is what comes behind it
    obtain ⟨c', hc', hcc⟩ := hc.eqOffStatus h
    have hf' := (congrArg Phase.fault? hcc.phase).trans hf
    obtain ⟨r', hr', hending, hmachine, hsink, hlog⟩ := ih hcc.machine
    rw [← hcc.sink] at hr'
    refine ⟨r'.behind c'.log, .goesOn (h.status.trans hs) hc' hf' hr', hending, hmachine, hsink, ?_⟩
    show c'.log ++ r'.log = c.log ++ r.log
    rw [hcc.log, hlog]

end Machine

omit [ByteSink σ] in
theorem Return.eqOffStatus_ofLoad {m n : Machine} (h : m.EqOffStatus n) (s : σ)
    (bytes : List Byte) :
    (ofLoad m s (m.memory.load bytes)).EqOffStatus (ofLoad n s (n.memory.load bytes)) := by
  unfold Memory.load
  cases Image.ofBytes? bytes with
  | some image => exact ⟨rfl, h.withMemory (h.memory.fill image.origin image.words), rfl, rfl⟩
  | none => exact ⟨rfl, h, rfl, rfl⟩

/-- **A call does the same on both machines.** -/
theorem Call.Returns.eqOffStatus {m n : Machine} {s : σ} {call : Call} {r : Return σ}
    (hr : call.Returns m s r) (h : m.EqOffStatus n) :
    ∃ r', call.Returns n s r' ∧ r.EqOffStatus r' := by
  cases hr with
  | step hc =>
    obtain ⟨c', hc', hcc⟩ := hc.eqOffStatus h
    exact ⟨_, .step hc', congrArg Phase.fault? hcc.phase, hcc.machine, hcc.sink, hcc.log⟩
  | execute hr =>
    obtain ⟨r', hr', hending, hmachine, hsink, hlog⟩ := hr.eqOffStatus h
    exact ⟨_, .execute hr', congrArg Ending.fault? hending, hmachine, hsink, hlog⟩
  | load bytes => exact ⟨_, .load bytes, Return.eqOffStatus_ofLoad h s bytes⟩
  | loadFile path content =>
    refine ⟨_, .loadFile path content, ?_⟩
    cases content with
    | ok bytes => exact Return.eqOffStatus_ofLoad h s bytes
    | error reason => exact ⟨rfl, h, rfl, rfl⟩
  | access x => exact ⟨_, .access x, rfl, h.withMemory (h.memory.perform x), rfl, rfl⟩
  | keyboard f => exact ⟨_, .keyboard f, rfl, h.withMemory (h.memory.onKeyboard f), rfl, rfl⟩
  | reset => exact ⟨_, .reset, rfl, ⟨rfl, rfl, h.memory⟩, rfl, rfl⟩

theorem Session.eqOffStatus {m m' n : Machine} {s s' : σ} {calls : List Call}
    {rs : List (Return σ)} (hrs : Session m s calls rs m' s') (h : m.EqOffStatus n) :
    ∃ rs' n', Session n s calls rs' n' s' ∧ List.Forall₂ Return.EqOffStatus rs rs' ∧
      m'.EqOffStatus n' := by
  induction hrs generalizing n with
  | nil => exact ⟨[], n, .nil, .nil, h⟩
  | cons hcall hrs ih =>
    -- the first calls leave machines with the same property and the same console
    obtain ⟨r', hr', hrr⟩ := hcall.eqOffStatus h
    obtain ⟨rs', n', hrs', hall, hn⟩ := ih hrr.machine
    rw [← hrr.sink] at hrs'
    exact ⟨r' :: rs', n', .cons hr' hrs', .cons hrr hall, hn⟩

/-! ### Answers -/

/-- What a call hands back to the host program, besides what a `Return` holds. -/
inductive Answer
  | none
  | word (w : Word)
  | isReady (ready : Bool)
  | taken (c : Option Word)
  | key (k : KeyRead)
  | placed (p : Except LoadError Placement)

def Access.answer : Access → Memory → Answer
  | read a, m => .word (m.read a).1
  | write _ _, _ => .none
  | poll, m => .isReady m.keyboard.poll.isReady
  | take, m => .taken m.keyboard.take.1
  | receive, m => .key m.keyboard.read.1

/-- The answer of a call that is made next. -/
def Call.answer : Call → Memory → Answer
  | load bytes, m => .placed ((m.load bytes).map Loaded.placement)
  | loadFile path content, m => .placed ((m.loadFile path content).map Loaded.placement)
  | access x, m => x.answer m
  | _, _ => .none

namespace Memory.EqOffStatus

variable {m m' : Memory}

theorem placement_load (m m' : Memory) (bytes : List Byte) :
    (m'.load bytes).map Loaded.placement = (m.load bytes).map Loaded.placement := by
  unfold load
  cases Image.ofBytes? bytes with
  | some image => rfl
  | none => rfl

/-- **No answer tells the memories apart.** -/
theorem answer (h : m.EqOffStatus m') (call : Call) : call.answer m' = call.answer m := by
  cases call with
  | load bytes => exact congrArg Answer.placed (placement_load m m' bytes)
  | loadFile path content =>
    cases content with
    | ok bytes => exact congrArg Answer.placed (placement_load m m' bytes)
    | error reason => rfl
  | access x =>
    show x.answer m' = x.answer m
    cases x with
    | read a => exact congrArg Answer.word (h.read a).1
    | write a value => rfl
    | poll => exact congrArg (fun k => Answer.isReady k.poll.isReady) h.keyboard
    | take => exact congrArg (fun k => Answer.taken k.take.1) h.keyboard
    | receive => exact congrArg (fun k => Answer.key k.read.1) h.keyboard
  | step fs | execute fs | keyboard f | reset => rfl

end Memory.EqOffStatus

/-! ### Parts of cycles -/

namespace Move

variable {c c' : Cycle σ}

theorem eqOffStatus_perform (h : c.EqOffStatus c') (x : Move) :
    (x.perform c).EqOffStatus (x.perform c') := by
  have hm := h.hardware.memory
  cases x with
  | send character => exact h.onKeyboard fun k => k.send [character]
  | close => exact h.onKeyboard Keyboard.close
  | interrupt flag => exact h.onKeyboard fun k => k.setInterrupted flag
  | access x => exact h.onMemory (hm.perform x)
  | load bytes => exact h.onMemory (f := fun m => m.afterLoading bytes) (hm.afterLoading bytes)
  | turn => exact h.turn

theorem eqOffStatus_performAll (h : c.EqOffStatus c') (moves : List Move) :
    (performAll moves c).EqOffStatus (performAll moves c') := by
  induction moves generalizing c c' with
  | nil => exact h
  | cons x xs ih => exact ih (eqOffStatus_perform h x)

end Move

/-- Whatever is done to the machines, on equal consoles, has the same effects and answers on both of
them, the word in the status register excepted. -/
structure Machine.Indistinguishable (m n : Machine) (s : σ) : Prop where
  /-- If calls return on the one machine, they return the same on the other, and leave the same
  console. -/
  calls : ∀ calls rs m' s', Session m s calls rs m' s' →
    ∃ rs' n', Session n s calls rs' n' s' ∧ List.Forall₂ Return.EqOffStatus rs rs' ∧
      m'.EqOffStatus n' ∧ ∀ call : Call, call.answer n'.memory = call.answer m'.memory
  /-- Calls that still wait, or never return, are at the same point on both machines. -/
  parts : ∀ moves, (Move.performAll moves (m.ready s)).EqOffStatus
    (Move.performAll moves (n.ready s))

theorem Machine.EqOffStatus.indistinguishable {m n : Machine} (h : m.EqOffStatus n) (s : σ) :
    m.Indistinguishable n s where
  calls calls rs m' s' hrs := by
    obtain ⟨rs', n', hrs', hall, hn⟩ := hrs.eqOffStatus h
    exact ⟨rs', n', hrs', hall, hn, fun call => hn.memory.answer call⟩
  parts moves := Move.eqOffStatus_performAll (h.ready s) moves

/-- **The word stored in the status register is unobservable.** Machines that are equal but for this
word cannot be told apart. They remain so if different words are stored there, by a write or as a
part of an image. -/
theorem status_cell_unobservable {m n : Machine} (h : m.EqOffStatus n) (s : σ) :
    m.Indistinguishable n s ∧ n.Indistinguishable m s ∧
      (∀ v w, (m.withMemory (m.memory.write 0xFE00 v)).EqOffStatus
        (n.withMemory (n.memory.write 0xFE00 w))) ∧
      ∀ (image : Image) (i : ℕ), image.origin.toNat + i = 0xFE00 →
        ∀ v, (m.withMemory (m.memory.place image)).EqOffStatus
          (n.withMemory (n.memory.place { image with words := image.words.set i v })) := by
  refine ⟨h.indistinguishable s, h.symm.indistinguishable s, ?_, ?_⟩
  · intro v w
    exact h.withMemory (h.memory.write_status v w)
  · intro image i hi v
    exact h.withMemory (h.memory.place image hi v)

/-- A machine about to execute what lies in the status register. -/
def executesStatus (stored : Word) : Machine where
  registers := Registers.initial.jump 0xFE00
  memory := (Memory.cleared (.channel [0x41] true)).write 0xFE00 stored
  status := .running

/-- The instruction to halt, or none at all: it is not what lies there that is executed. -/
theorem status_cell_unobservable_executed :
    (executesStatus 0xF025).EqOffStatus (executesStatus 0) ∧
      (executesStatus 0xF025).memory.peek 0xFE00 ≠ (executesStatus 0).memory.peek 0xFE00 ∧
      (Move.performAll [.turn] ((executesStatus 0).ready OpenSink.mk)).phase =
        .done (.failed (.invalidOpcode 8 0xFE00)) ∧
      (Move.performAll [.turn] ((executesStatus 0xF025).ready OpenSink.mk)).phase =
        .done (.failed (.invalidOpcode 8 0xFE00)) := by
  have heq : (executesStatus 0xF025).EqOffStatus (executesStatus 0) :=
    ⟨rfl, rfl, (Memory.EqOffStatus.refl _).write_status 0xF025 0⟩
  -- on one of the machines by evaluation, and hence on the other one
  have hphase : (Move.performAll [.turn] ((executesStatus 0).ready OpenSink.mk)).phase =
      .done (.failed (.invalidOpcode 8 0xFE00)) := by decide +kernel
  refine ⟨heq, by decide +kernel, hphase, ?_⟩
  exact ((status_cell_unobservable heq OpenSink.mk).1.parts [.turn]).phase.symm.trans hphase

end LC3
