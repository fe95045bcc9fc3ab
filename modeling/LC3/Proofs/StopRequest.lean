import LC3.Proofs.Course
import LC3.Proofs.Keyboard.Source

/-!
# When the user asks to stop

A flag says that the user asked to stop. It is looked at in two places: before the fetch of an
instruction, and when a routine waits for a key and the queue is found closed. Both times the
machine halts, with the fault that says why. Here the flag is one that nobody touches during the
calls in question (`Changes.Calm`), and it then decides alone:

* A flag that is clear stays clear, and nothing reports the wish of the user, not even a console
  that fails because it was interrupted (`Steps.fault_ne`, `Session.fault_ne`).
* A flag that is set stops every step before it begins (`steps_iff_of_interrupted`), so that
  whatever is called, nothing is fetched and nothing is written (`Session.stopped`).

That the flag stays as it is holds of parts of cycles (`Cycle.interrupted_through`), then of calls,
and then of sessions. Only a terminal sets it, so with the other sources it is always clear:
`interruption_exact` puts this together.
-/

namespace LC3

/-- What happens to the keyboard in the course of a call. -/
def Call.changes : Call → Changes
  | step fs | execute fs => fs
  | keyboard f => [f]
  | _ => []

/-- What happens to it in the course of several calls, one after the other. -/
def Call.changesAll (calls : List Call) : Changes := calls.flatMap changes

theorem Changes.calm_append {fs gs : Changes} :
    Calm (fs ++ gs) ↔ fs.Calm ∧ gs.Calm :=
  List.forall_mem_append

/-! ### The flag stays as it is -/

/-- Loading does not look at the keyboard. -/
theorem Memory.keyboard_load {m : Memory} {bytes : List Byte} {loaded : Loaded}
    (h : m.load bytes = .ok loaded) : loaded.memory.keyboard = m.keyboard := by
  have hafter : m.afterLoading bytes = loaded.memory := by
    unfold afterLoading
    rw [h]
  rw [← hafter, keyboard_afterLoading]

theorem Return.keyboard_ofLoad {σ : Type} {m : Machine} {s : σ}
    {loading : Except LoadError Loaded}
    (h : ∀ loaded, loading = .ok loaded → loaded.memory.keyboard = m.memory.keyboard) :
    (ofLoad m s loading).machine.memory.keyboard = m.memory.keyboard := by
  cases loading with
  | ok loaded => exact h loaded rfl
  | error e => rfl

variable {σ : Type} [ByteSink σ]

theorem Cycle.interrupted_turn (c : Cycle σ) :
    c.turn.machine.memory.keyboard.interrupted = c.machine.memory.keyboard.interrupted :=
  Move.interrupted_perform (x := .turn) (fun _ => Move.noConfusion) c

theorem Cycle.interrupted_through {fs : Changes} (hfs : fs.Calm) (c : Cycle σ) :
    (c.through fs).machine.memory.keyboard.interrupted =
      c.machine.memory.keyboard.interrupted := by
  induction fs generalizing c with
  | nil => rfl
  | cons f fs ih =>
    obtain ⟨hf, hfs⟩ := List.forall_mem_cons.1 hfs
    calc ((c.onKeyboard f).turn.through fs).machine.memory.keyboard.interrupted
        = (c.onKeyboard f).turn.machine.memory.keyboard.interrupted := ih hfs _
      _ = (c.onKeyboard f).machine.memory.keyboard.interrupted := interrupted_turn _
      _ = c.machine.memory.keyboard.interrupted := hf c.machine.memory.keyboard

/-- **A call leaves the flag alone**, if what happens during the call does. -/
theorem Call.Returns.interrupted {m : Machine} {s : σ} {call : Call} {r : Return σ}
    (h : call.Returns m s r) (hcall : call.changes.Calm) :
    r.machine.memory.keyboard.interrupted = m.memory.keyboard.interrupted := by
  cases h with
  | step h =>
    rw [h.eq_through]
    exact Cycle.interrupted_through hcall _
  | execute h =>
    rw [h.through.1]
    exact Cycle.interrupted_through hcall _
  | load bytes =>
    rw [Return.keyboard_ofLoad fun _ => Memory.keyboard_load]
  | loadFile path content =>
    refine congrArg Keyboard.interrupted (Return.keyboard_ofLoad ?_)
    intro loaded hloaded
    cases content with
    | ok bytes => exact Memory.keyboard_load hloaded
    | error reason => cases hloaded
  | access x => exact (x.source_perform m.memory).2
  | keyboard f => exact List.forall_mem_singleton.1 hcall m.memory.keyboard
  | reset => rfl

/-! ### A flag that is clear -/

/-- While the flag is clear, no part of a cycle reports the wish of the user. -/
theorem Cycle.turn_fault_ne {c : Cycle σ}
    (hclear : c.machine.memory.keyboard.interrupted = false) :
    c.turn.phase.fault? ≠ some .interrupted := by
  intro hf
  have hset := (Move.fault?_cases (x := .turn) hf).1 rfl
  rw [hclear] at hset
  cases hset

theorem Cycle.Ends.fault_ne {c d : Cycle σ} {fs : Changes} (h : c.Ends fs d) (hfs : fs.Calm)
    (hclear : c.machine.memory.keyboard.interrupted = false)
    (hc : c.phase.fault? ≠ some .interrupted) : d.phase.fault? ≠ some .interrupted := by
  induction h with
  | done hp => exact hc
  | @turn c _ _ _ f _ hp hd ih =>
    obtain ⟨hf, hfs⟩ := List.forall_mem_cons.1 hfs
    have hclear' : (c.onKeyboard f).machine.memory.keyboard.interrupted = false :=
      (hf c.machine.memory.keyboard).trans hclear
    exact ih hfs ((interrupted_turn _).trans hclear') (turn_fault_ne hclear')

namespace Machine

variable {m : Machine} {s : σ}

theorem Steps.fault_ne {fs : Changes} {c : Cycle σ} (h : m.Steps s fs c) (hfs : fs.Calm)
    (hclear : m.memory.keyboard.interrupted = false) : c.phase.fault? ≠ some .interrupted := by
  cases h with
  | halted hs => exact (Option.some_ne_none _).symm
  | @running f _ _ hs hc =>
    obtain ⟨hf, hfs⟩ := List.forall_mem_cons.1 hfs
    have hclear' : ((m.ready s).onKeyboard f).machine.memory.keyboard.interrupted = false :=
      (hf m.memory.keyboard).trans hclear
    exact hc.fault_ne hfs ((Cycle.interrupted_turn _).trans hclear')
      (Cycle.turn_fault_ne hclear')

theorem Steps.interrupted {fs : Changes} {c : Cycle σ} (h : m.Steps s fs c) (hfs : fs.Calm) :
    c.machine.memory.keyboard.interrupted = m.memory.keyboard.interrupted :=
  (Call.Returns.step h).interrupted hfs

theorem Executes.fault_ne {fs : Changes} {r : Run σ} (h : m.Executes s fs r) (hfs : fs.Calm)
    (hclear : m.memory.keyboard.interrupted = false) :
    r.ending.fault? ≠ some .interrupted := by
  induction h with
  | halted hs => exact (Option.some_ne_none _).symm
  | failed hs hc hf =>
    have hne := hc.fault_ne hfs hclear
    rwa [hf] at hne
  | goesOn hs hc hf hr ih =>
    -- the flag is as clear behind the first step as before it
    obtain ⟨hfs, hgs⟩ := Changes.calm_append.1 hfs
    exact ih hgs ((hc.interrupted hfs).trans hclear)

/-! ### A flag that is set -/

/-- **A step of a machine whose user asked to stop.** It returns at once, and all that it does is to
halt the machine. -/
theorem steps_iff_of_interrupted (hs : m.status = .running)
    (hset : m.memory.keyboard.interrupted = true) {fs : Changes} (hfs : fs.Calm) {c : Cycle σ} :
    m.Steps s fs c ↔ ∃ f, fs = [f] ∧
      c = ⟨.done (.failed .interrupted),
        ⟨⟨m.registers, m.memory.connect (f m.memory.keyboard)⟩, .halted⟩, s,
        [.failed .interrupted]⟩ := by
  have hbegin (f : Keyboard → Keyboard)
      (hf : (f m.memory.keyboard).interrupted = m.memory.keyboard.interrupted) :
      (m.onKeyboard f).begin s = ⟨.done (.failed .interrupted),
        ⟨⟨m.registers, m.memory.connect (f m.memory.keyboard)⟩, .halted⟩, s,
        [.failed .interrupted]⟩ :=
    begin_interrupted (m := m.onKeyboard f) hs (hf.trans hset) s
  constructor
  · intro h
    obtain ⟨f, gs, rfl, hends⟩ := h.of_running hs
    obtain ⟨hf, -⟩ := List.forall_mem_cons.1 hfs
    rw [hbegin f (hf _)] at hends
    -- this cycle has ended
    obtain ⟨rfl, rfl⟩ := (Cycle.ends_iff_of_done rfl).1 hends
    exact ⟨f, rfl, rfl⟩
  · rintro ⟨f, rfl, rfl⟩
    rw [steps_cons_iff hs, hbegin f (List.forall_mem_singleton.1 hfs _)]
    exact .done rfl

theorem step_of_interrupted (hs : m.status = .running)
    (hset : m.memory.keyboard.interrupted = true) :
    m.step s = ⟨.done (.failed .interrupted), { m with status := .halted }, s,
      [.failed .interrupted]⟩ := by
  have hbegin := begin_interrupted hs hset s
  rw [step_eq_begin (o := .failed .interrupted) (by rw [hbegin]; rfl), hbegin]
  rfl

/-- With the flag set a step of any machine leaves it halted and otherwise as it was. -/
theorem machine_step_of_interrupted (hset : m.memory.keyboard.interrupted = true) :
    (m.step s).machine = { m with status := .halted } := by
  cases hs : m.status with
  | halted =>
    rw [step_halted hs]
    exact congrArg (Machine.mk m.toHardware) hs
  | running => rw [step_of_interrupted hs hset]

theorem reset_iterate (m : Machine) (n : ℕ) : reset^[n + 1] m = m.reset := by
  rw [Function.iterate_succ_apply]
  exact Function.iterate_fixed rfl n

end Machine

/-- A call at which no instruction is fetched and nothing is written, and which reports no fault but
the wish of the user. -/
structure Return.Stopped (s : σ) (r : Return σ) : Prop where
  fault : r.fault? = none ∨ r.fault? = some .interrupted
  sink : r.sink = s
  fetched : ∀ address i, .fetched address i ∉ r.log

omit [ByteSink σ] in
theorem Return.stopped_nil (m : Machine) (s : σ) : Stopped s ⟨none, m, s, []⟩ where
  fault := .inl rfl
  sink := rfl
  fetched _ _ := List.not_mem_nil

omit [ByteSink σ] in
theorem Return.stopped_ofLoad (m : Machine) (s : σ) {loading : Except LoadError Loaded}
    (h : ∀ loaded, loading = .ok loaded → ∀ address i, .fetched address i ∉ loaded.log) :
    (ofLoad m s loading).Stopped s := by
  cases loading with
  | ok loaded => exact ⟨.inl rfl, rfl, h loaded rfl⟩
  | error e => exact stopped_nil m s

omit [ByteSink σ] in
/-- So is one that did nothing but to report that wish. -/
theorem Return.stopped_interrupted (m : Machine) (s : σ) :
    Stopped s ⟨some .interrupted, m, s, [.failed .interrupted]⟩ where
  fault := .inr rfl
  sink := rfl
  fetched _ _ hmem := absurd (List.mem_singleton.1 hmem) Event.noConfusion

/-- **With the flag set every call is stopped**, whether the machine runs or not. -/
theorem Call.Returns.stopped {m : Machine} {s : σ} {call : Call} {r : Return σ}
    (h : call.Returns m s r) (hcall : call.changes.Calm)
    (hset : m.memory.keyboard.interrupted = true) : r.Stopped s := by
  cases h with
  | step h =>
    cases hs : m.status with
    | halted =>
      obtain ⟨-, rfl⟩ := (Machine.steps_iff_of_halted hs).1 h
      exact Return.stopped_nil m s
    | running =>
      obtain ⟨f, -, rfl⟩ := (Machine.steps_iff_of_interrupted hs hset hcall).1 h
      exact Return.stopped_interrupted _ s
  -- an execution is at most one such step
  | execute h =>
    cases h with
    | halted hs => exact Return.stopped_nil m s
    | failed hs hc hf =>
      obtain ⟨f, -, rfl⟩ := (Machine.steps_iff_of_interrupted hs hset hcall).1 hc
      cases hf
      exact Return.stopped_interrupted _ s
    | goesOn hs hc hf hr =>
      have hfirst := (Changes.calm_append.1 hcall).1
      obtain ⟨f, -, rfl⟩ := (Machine.steps_iff_of_interrupted hs hset hfirst).1 hc
      cases hf
  | load bytes => exact Return.stopped_ofLoad m s fun _ => Memory.fetched_notMem_load
  | loadFile path content =>
    exact Return.stopped_ofLoad m s fun _ => Memory.fetched_notMem_loadFile
  | access x => exact Return.stopped_nil _ s
  | keyboard f => exact Return.stopped_nil _ s
  | reset => exact Return.stopped_nil _ s

/-- While the flag is clear no call reports the wish of the user. -/
theorem Call.Returns.fault_ne {m : Machine} {s : σ} {call : Call} {r : Return σ}
    (h : call.Returns m s r) (hcall : call.changes.Calm)
    (hclear : m.memory.keyboard.interrupted = false) : r.fault? ≠ some .interrupted := by
  cases h with
  | step h => exact h.fault_ne hcall hclear
  | execute h => exact h.fault_ne hcall hclear
  | load bytes =>
    rw [Return.fault?_ofLoad]
    exact (Option.some_ne_none _).symm
  | loadFile path content =>
    rw [Return.fault?_ofLoad]
    exact (Option.some_ne_none _).symm
  | access x | keyboard f | reset => exact (Option.some_ne_none _).symm

/-! ### Sessions -/

namespace Session

variable {m m' : Machine} {s s' : σ} {calls : List Call} {rs : List (Return σ)}

/-- What happens to the keyboard in a session is what happens to it in the first call, and then in
the others. -/
theorem calm_cons {call : Call} (h : (Call.changesAll (call :: calls)).Calm) :
    call.changes.Calm ∧ (Call.changesAll calls).Calm :=
  Changes.calm_append.1 h

theorem interrupted (h : Session m s calls rs m' s')
    (hcalls : (Call.changesAll calls).Calm) :
    m'.memory.keyboard.interrupted = m.memory.keyboard.interrupted := by
  induction h with
  | nil => rfl
  | cons hcall hrs ih =>
    obtain ⟨hfirst, hcalls⟩ := calm_cons hcalls
    exact (ih hcalls).trans (hcall.interrupted hfirst)

/-- **With the flag set nothing is executed in a session**, resets or not. -/
theorem stopped (h : Session m s calls rs m' s') (hcalls : (Call.changesAll calls).Calm)
    (hset : m.memory.keyboard.interrupted = true) : (∀ r ∈ rs, r.Stopped s) ∧ s' = s := by
  induction h with
  | nil => exact ⟨List.forall_mem_nil _, rfl⟩
  | cons hcall hrs ih =>
    obtain ⟨hfirst, hcalls⟩ := calm_cons hcalls
    have hstopped := hcall.stopped hfirst hset
    obtain ⟨hrest, hend⟩ := ih hcalls ((hcall.interrupted hfirst).trans hset)
    rw [hstopped.sink] at hrest hend
    exact ⟨List.forall_mem_cons.2 ⟨hstopped, hrest⟩, hend⟩

/-- **With the flag clear no call of a session reports the wish of the user.** -/
theorem fault_ne (h : Session m s calls rs m' s') (hcalls : (Call.changesAll calls).Calm)
    (hclear : m.memory.keyboard.interrupted = false) :
    ∀ r ∈ rs, r.fault? ≠ some .interrupted := by
  induction h with
  | nil => exact List.forall_mem_nil _
  | cons hcall hrs ih =>
    obtain ⟨hfirst, hcalls⟩ := calm_cons hcalls
    exact List.forall_mem_cons.2 ⟨hcall.fault_ne hfirst hclear,
      ih hcalls ((hcall.interrupted hfirst).trans hclear)⟩

end Session

/-- With the flag clear a read of the keyboard does not fail for the wish of the user. -/
theorem Keyboard.read_ne_interrupted {k : Keyboard} (hclear : k.interrupted = false) :
    k.read.1 ≠ .failed .interrupted := by
  intro hr
  obtain ⟨-, -, hfault⟩ := (k.read_failed_iff _).1 hr
  unfold closedFault at hfault
  rw [hclear] at hfault
  cases hfault

/-- What the wish of the user to stop means for a machine on a console. -/
structure InterruptionExact (m : Machine) (s : σ) : Prop where
  /-- Let nobody touch the flag during a step. If the step returns, it reports the wish of the user
  if and only if the machine was running and the flag was set when it began; characters that are
  there, or a console that fails, make no difference. -/
  reported : ∀ fs c, Changes.Calm fs → m.Steps s fs c →
    (c.phase = .done (.failed .interrupted) ↔
      m.status = .running ∧ m.memory.keyboard.interrupted = true)
  /-- Such a step does return, at once. It halts the machine; registers, memory and console are left
  as they are, and so is the keyboard but for what its source has done by then. -/
  intact : m.status = .running → m.memory.keyboard.interrupted = true →
    ∀ fs c, Changes.Calm fs → (m.Steps s fs c ↔ ∃ f, fs = [f] ∧
      c = ⟨.done (.failed .interrupted),
        ⟨⟨m.registers, m.memory.connect (f m.memory.keyboard)⟩, .halted⟩, s,
        [.failed .interrupted]⟩)
  /-- On a keyboard that is left alone only the status is different behind such a step. -/
  alone : m.status = .running → m.memory.keyboard.interrupted = true →
    m.step s = ⟨.done (.failed .interrupted), { m with status := .halted }, s,
      [.failed .interrupted]⟩
  /-- Until the machine starts over it stays halted, and the next step does nothing. -/
  still : m.status = .running → m.memory.keyboard.interrupted = true →
    (m.step s).machine.step s = ⟨.done .halted, { m with status := .halted }, s, []⟩
  /-- Starting over, once or several times, makes the next step report the same again. -/
  again : m.memory.keyboard.interrupted = true → ∀ n,
    (Machine.reset^[n + 1] (m.step s).machine).step s =
      ⟨.done (.failed .interrupted), { m.reset with status := .halted }, s,
        [.failed .interrupted]⟩
  /-- As long as the flag is set, whatever is called, no instruction is fetched and nothing is
  written; and a step of the machine that starts over reports the wish of the user. -/
  nothing : m.memory.keyboard.interrupted = true → ∀ calls rs m' s',
    Session m s calls rs m' s' → (Call.changesAll calls).Calm →
      (∀ r ∈ rs, r.Stopped s) ∧ s' = s ∧
        (m'.reset.step s').phase = .done (.failed .interrupted)
  /-- A machine gets a keyboard without a source or over a stream. Whatever is called then, while
  the source does what it does: no call reports the wish of the user, and no read of the keyboard.
  -/
  never : ∀ source : Source, (∀ script, source ≠ .terminal script) → ∀ calls rs m' s',
    Session (m.withMemory (m.memory.connect source.keyboard)) s calls rs m' s' →
      SourceAction.Spread source.actions (Call.changesAll calls) →
        (∀ r ∈ rs, r.fault? ≠ some .interrupted) ∧
          m'.memory.keyboard.read.1 ≠ .failed .interrupted

/-- **An interruption is exact and leaves the machine intact**, for every machine on every console.
-/
theorem interruption_exact (m : Machine) (s : σ) : InterruptionExact m s where
  reported fs c hfs hc := by
    constructor
    · intro hp
      have hf : c.phase.fault? = some .interrupted := congrArg Phase.fault? hp
      constructor
      · by_contra hs
        cases hstatus : m.status with
        | running => exact hs hstatus
        | halted =>
          obtain ⟨-, rfl⟩ := (Machine.steps_iff_of_halted hstatus).1 hc
          cases hp
      · by_contra hclear
        exact hc.fault_ne hfs (Bool.eq_false_iff.2 hclear) hf
    · rintro ⟨hs, hset⟩
      obtain ⟨f, -, rfl⟩ := (Machine.steps_iff_of_interrupted hs hset hfs).1 hc
      rfl
  intact hs hset _ _ hfs := Machine.steps_iff_of_interrupted hs hset hfs
  alone hs hset := Machine.step_of_interrupted hs hset
  still hs hset := by
    rw [Machine.step_of_interrupted hs hset]
    exact Machine.step_halted rfl s
  again hset n := by
    rw [Machine.machine_step_of_interrupted hset, Machine.reset_iterate]
    exact Machine.step_of_interrupted rfl hset
  nothing hset calls rs m' s' h hcalls := by
    obtain ⟨hstopped, hsink⟩ := h.stopped hcalls hset
    have hstill : m'.reset.memory.keyboard.interrupted = true := (h.interrupted hcalls).trans hset
    refine ⟨hstopped, hsink, ?_⟩
    rw [Machine.step_of_interrupted rfl hstill]
  never source hsource calls rs m' s' h hspread := by
    have hcalls := hspread.calm (Source.interrupt_notMem hsource)
    have hclear := source.interrupted_keyboard
    exact ⟨h.fault_ne hcalls hclear,
      Keyboard.read_ne_interrupted ((h.interrupted hcalls).trans hclear)⟩

end LC3
