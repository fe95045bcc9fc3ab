import LC3.Proofs.Turn

/-!
# Calls that return

A host program makes a machine execute one instruction, or everything up to its end. Both calls wait
for keys, and as long as they wait the keyboard may change; so whether they return depends on what
happens meanwhile. Here a call is a relation: `m.Steps s fs c` says that one instruction of `m` on
the console `s` ends as `c`, if the keyboard changes by `fs`, one change before each part of the
cycle, and `m.Executes s fs r` says the same of a whole run. A call that would still be waiting when
the changes are used up is related to nothing, and neither is a run without an end.

* `Ends.unique`, `Steps.unique` — what a call comes to, and how many changes it takes, is settled by
  the changes.
* `Executes.running_induction` — an instruction ends a run, or the run goes on behind it.
* `executes_append_iff` — a step that did not fail, and then a run: that is the run itself.
* `steps_iff_step`, `executes_iff_runFor` — on a keyboard that is left alone the two relations are
  `step` and `runFor`.
-/

namespace LC3

/-- How the keyboard changes during a call, before each part of each cycle. -/
abbrev Changes := List (Keyboard → Keyboard)

/-- The fault that an end is due to. -/
def Phase.fault? : Phase → Option Fault
  | .done (.failed fault) => some fault
  | _ => none

theorem Phase.of_fault? {p : Phase} {fault : Fault} (h : p.fault? = some fault) :
    p = .done (.failed fault) := by
  unfold fault? at h
  split at h
  · cases h
    rfl
  · cases h

def Ending.fault? : Ending → Option Fault
  | .failed fault => some fault
  | _ => none

variable {σ : Type} [ByteSink σ]

/-- A cycle comes to its end. -/
inductive Cycle.Ends : Cycle σ → Changes → Cycle σ → Prop
  | done {c : Cycle σ} {o : Outcome} (hp : c.phase = .done o) : Ends c [] c
  | turn {c d : Cycle σ} {address : Word} {echo : Bool} {f : Keyboard → Keyboard} {fs : Changes}
      (hp : c.phase = .awaitKey address echo) (hd : Ends (c.onKeyboard f).turn fs d) :
      Ends c (f :: fs) d

namespace Machine

/-- The keyboard changes. -/
def onKeyboard (f : Keyboard → Keyboard) (m : Machine) : Machine :=
  m.withMemory (m.memory.connect (f m.memory.keyboard))

/-- A call that executes one instruction returns. A halted machine has none to execute. -/
inductive Steps (m : Machine) (s : σ) : Changes → Cycle σ → Prop
  | halted (hs : m.status = .halted) : Steps m s [] ⟨.done .halted, m, s, []⟩
  | running {f : Keyboard → Keyboard} {fs : Changes} {c : Cycle σ} (hs : m.status = .running)
      (hc : (((m.ready s).onKeyboard f).turn).Ends fs c) : Steps m s (f :: fs) c

/-- A call that executes instructions as long as the machine runs returns. -/
inductive Executes : Machine → σ → Changes → Run σ → Prop
  | halted {m : Machine} {s : σ} (hs : m.status = .halted) : Executes m s [] ⟨.halted, m, s, []⟩
  | failed {m : Machine} {s : σ} {fs : Changes} {c : Cycle σ} {fault : Fault}
      (hs : m.status = .running) (hc : m.Steps s fs c) (hf : c.phase.fault? = some fault) :
      Executes m s fs ⟨.failed fault, c.machine, c.sink, c.log⟩
  | goesOn {m : Machine} {s : σ} {fs gs : Changes} {c : Cycle σ} {r : Run σ}
      (hs : m.status = .running) (hc : m.Steps s fs c) (hf : c.phase.fault? = none)
      (hr : Executes c.machine c.sink gs r) : Executes m s (fs ++ gs) (r.behind c.log)

end Machine

/-! ### What a call comes to -/

namespace Cycle

theorem Ends.phase {c d : Cycle σ} {fs : Changes} (h : c.Ends fs d) : ∃ o, d.phase = .done o := by
  induction h with
  | done hp => exact ⟨_, hp⟩
  | turn hp hd ih => exact ih

theorem Ends.coherent {c d : Cycle σ} {fs : Changes} (h : c.Ends fs d) (hc : c.Coherent) :
    d.Coherent := by
  induction h with
  | done hp => exact hc
  | turn hp hd ih => exact ih (coherent_turn _)

/-- Two ends of a cycle are the same, unless the keyboard has changed in different ways. -/
theorem Ends.unique {c d e : Cycle σ} {fs gs rest rest' : Changes} (h : c.Ends fs d)
    (h' : c.Ends gs e) (hfs : fs ++ rest = gs ++ rest') : fs = gs ∧ d = e := by
  induction h generalizing gs with
  | done hp =>
    cases h' with
    | done hp' => exact ⟨rfl, rfl⟩
    | turn hp' hd' => exact absurd (hp.symm.trans hp') Phase.noConfusion
  | turn hp hd ih =>
    cases h' with
    | done hp' => exact absurd (hp.symm.trans hp') Phase.noConfusion
    | turn hp' hd' =>
      -- the same first change, and from there on the ends of one and the same cycle
      obtain ⟨rfl, htail⟩ := List.cons.inj hfs
      obtain ⟨rfl, rfl⟩ := ih hd' htail
      exact ⟨rfl, rfl⟩

theorem ends_iff_of_done {c d : Cycle σ} {o : Outcome} (hp : c.phase = .done o) {fs : Changes} :
    c.Ends fs d ↔ fs = [] ∧ d = c := by
  constructor
  · intro h
    cases h with
    | done _ => exact ⟨rfl, rfl⟩
    | turn hp' _ => exact absurd (hp.symm.trans hp') Phase.noConfusion
  · rintro ⟨rfl, rfl⟩
    exact .done hp

/-- A cycle has not waited if it has ended as no part behind a pause ends. -/
theorem Ends.eq_of_outcome {c d : Cycle σ} {fs : Changes} (h : c.Ends fs d) {o : Outcome}
    (hd : d.phase = .done o)
    (hpause : ∀ {e : Cycle σ} {address : Word} {echo : Bool}, e.phase = .awaitKey address echo →
      e.resume.phase ≠ .done o) : fs = [] ∧ d = c := by
  induction h with
  | done hp => exact ⟨rfl, rfl⟩
  | @turn c _ address echo f _ hp _ ih =>
    obtain ⟨-, hturn⟩ := ih hd
    -- the last turn was the part behind the pause
    have hp' : (c.onKeyboard f).phase = .awaitKey address echo := hp
    rw [hturn, turn_awaitKey hp'] at hd
    exact absurd hd (hpause hp')

end Cycle

namespace Machine

variable {m : Machine} {s : σ}

/-- One instruction of a running machine begins when the keyboard has changed for the first time. -/
theorem steps_cons_iff (hs : m.status = .running) {f : Keyboard → Keyboard} {fs : Changes}
    {c : Cycle σ} : m.Steps s (f :: fs) c ↔ ((m.onKeyboard f).begin s).Ends fs c := by
  constructor
  · intro h
    cases h with
    | running _ hc => exact hc
  · intro hc
    exact .running hs hc

/-- There is at least the change before the first part of the cycle. -/
theorem Steps.of_running {fs : Changes} {c : Cycle σ} (h : m.Steps s fs c)
    (hs : m.status = .running) : ∃ f gs, fs = f :: gs ∧ ((m.onKeyboard f).begin s).Ends gs c := by
  cases h with
  | halted hs' => exact absurd (hs.symm.trans hs') Status.noConfusion
  | running _ hc => exact ⟨_, _, rfl, hc⟩

/-- A step that returns leaves the machine in the status that it answers, after a fault halted. -/
theorem Steps.status {fs : Changes} {c : Cycle σ} (h : m.Steps s fs c) :
    ∃ o, c.phase = .done o ∧ c.machine.status = o.status := by
  cases h with
  | halted hs => exact ⟨.halted, rfl, hs⟩
  | running hs hc =>
    obtain ⟨o, ho⟩ := hc.phase
    have hcoherent : c.machine.status = c.phase.status := hc.coherent (Cycle.coherent_turn _)
    rw [ho] at hcoherent
    exact ⟨o, ho, hcoherent⟩

theorem Steps.unique {c d : Cycle σ} {fs gs rest rest' : Changes} (h : m.Steps s fs c)
    (h' : m.Steps s gs d) (hfs : fs ++ rest = gs ++ rest') : fs = gs ∧ c = d := by
  cases h with
  | halted hs =>
    cases h' with
    | halted hs' => exact ⟨rfl, rfl⟩
    | running hs' hc' => exact absurd (hs.symm.trans hs') Status.noConfusion
  | running hs hc =>
    cases h' with
    | halted hs' => exact absurd (hs.symm.trans hs') Status.noConfusion
    | running hs' hc' =>
      obtain ⟨rfl, htail⟩ := List.cons.inj hfs
      obtain ⟨rfl, rfl⟩ := hc.unique hc' htail
      exact ⟨rfl, rfl⟩

/-- One instruction of a halted machine is none at all. -/
theorem steps_iff_of_halted (hs : m.status = .halted) {fs : Changes} {c : Cycle σ} :
    m.Steps s fs c ↔ fs = [] ∧ c = ⟨.done .halted, m, s, []⟩ := by
  constructor
  · intro h
    cases h with
    | halted _ => exact ⟨rfl, rfl⟩
    | running hs' _ => exact absurd (hs.symm.trans hs') Status.noConfusion
  · rintro ⟨rfl, rfl⟩
    exact .halted hs

theorem executes_iff_of_halted (hs : m.status = .halted) {fs : Changes} {r : Run σ} :
    m.Executes s fs r ↔ fs = [] ∧ r = ⟨.halted, m, s, []⟩ := by
  constructor
  · intro h
    cases h with
    | halted _ => exact ⟨rfl, rfl⟩
    | failed hs' _ _ => exact absurd (hs.symm.trans hs') Status.noConfusion
    | goesOn hs' _ _ _ => exact absurd (hs.symm.trans hs') Status.noConfusion
  · rintro ⟨rfl, rfl⟩
    exact .halted hs

/-- **A run that returns leaves a halted machine.** It was halted by the program or by a fault, and
there is no third way out. -/
theorem Executes.ended {fs : Changes} {r : Run σ} (h : m.Executes s fs r) :
    r.machine.status = .halted ∧ (r.ending = .halted ∨ ∃ fault, r.ending = .failed fault) := by
  induction h with
  | halted hs => exact ⟨hs, .inl rfl⟩
  | failed hs hc hf =>
    obtain ⟨o, ho, hstatus⟩ := hc.status
    refine ⟨hstatus.trans ?_, .inr ⟨_, rfl⟩⟩
    -- of the three outcomes only a failure is due to a fault
    rw [ho] at hf
    cases o with
    | running => cases hf
    | halted => cases hf
    | failed fault => rfl
  | goesOn hs hc hf hr ih => exact ih

/-- **Induction along a run** of a running machine: an instruction ends it, or the run goes on
behind an instruction that leaves the machine running. -/
theorem Executes.running_induction {motive : Machine → σ → Changes → Run σ → Prop}
    (halted : ∀ m s fs c, m.status = .running → m.Steps s fs c → c.phase = .done .halted →
      motive m s fs ⟨.halted, c.machine, c.sink, c.log⟩)
    (failed : ∀ m s fs c fault, m.status = .running → m.Steps s fs c →
      c.phase = .done (.failed fault) → motive m s fs ⟨.failed fault, c.machine, c.sink, c.log⟩)
    (goesOn : ∀ m s fs gs c r, m.status = .running → m.Steps s fs c → c.phase = .done .running →
      motive c.machine c.sink gs r → motive m s (fs ++ gs) (r.behind c.log))
    {fs : Changes} {r : Run σ} (h : m.Executes s fs r) (hs : m.status = .running) :
    motive m s fs r := by
  induction h with
  | halted hs' => exact absurd (hs.symm.trans hs') Status.noConfusion
  | @failed m s fs c fault _ hc hf => exact failed m s fs c fault hs hc (Phase.of_fault? hf)
  | @goesOn m s fs gs c r _ hc hf hr ih =>
    obtain ⟨o, ho, hstatus⟩ := hc.status
    cases o with
    | running => exact goesOn m s fs gs c r hs hc ho (ih hstatus)
    | halted =>
      -- there is nothing behind this instruction
      obtain ⟨rfl, rfl⟩ := (executes_iff_of_halted hstatus).1 hr
      have hlast := halted m s fs c hs hc ho
      unfold Run.behind
      rwa [List.append_nil, List.append_nil]
    | failed fault =>
      rw [ho] at hf
      cases hf

/-- **A step that did not fail, and then a run.** Nothing is different from the run alone. -/
theorem executes_append_iff {fs gs : Changes} {c : Cycle σ} {r : Run σ} (hc : m.Steps s fs c)
    (hf : c.phase.fault? = none) :
    m.Executes s (fs ++ gs) r ↔ ∃ r', c.machine.Executes c.sink gs r' ∧ r = r'.behind c.log := by
  cases hs : m.status with
  | halted =>
    -- a step of a halted machine leaves the run to do what it does
    obtain ⟨rfl, rfl⟩ := (steps_iff_of_halted hs).1 hc
    constructor
    · intro h
      exact ⟨r, h, rfl⟩
    · rintro ⟨r', h, rfl⟩
      exact h
  | running =>
    constructor
    · intro h
      generalize hall : fs ++ gs = all at h
      cases h with
      | halted hs' => exact absurd (hs'.symm.trans hs) Status.noConfusion
      | failed _ hc' hf' =>
        -- the run's first step is this one, which did not fail
        have hall' : fs ++ gs = all ++ [] := by rw [hall, List.append_nil]
        obtain ⟨-, rfl⟩ := hc.unique hc' hall'
        rw [hf] at hf'
        cases hf'
      | goesOn _ hc' hf' hr =>
        obtain ⟨rfl, rfl⟩ := hc.unique hc' hall
        obtain rfl := List.append_cancel_left hall
        exact ⟨_, hr, rfl⟩
    · rintro ⟨r', hr, rfl⟩
      exact .goesOn hs hc hf hr

end Machine

/-! ### A keyboard that is left alone -/

/-- The keyboard does not change. -/
def Changes.Idle (fs : Changes) : Prop := ∀ f ∈ fs, f = id

theorem Changes.Idle.append {fs gs : Changes} (hfs : fs.Idle) (hgs : gs.Idle) :
    Changes.Idle (fs ++ gs) :=
  List.forall_mem_append.2 ⟨hfs, hgs⟩

theorem Cycle.ends_idle_iff {c d : Cycle σ} :
    (∃ fs : Changes, fs.Idle ∧ c.Ends fs d) ↔ d = c.resume ∧ ∃ o, d.phase = .done o := by
  constructor
  · rintro ⟨fs, hidle, h⟩
    refine ⟨?_, h.phase⟩
    induction h with
    | done hp => exact (resume_done hp).symm
    | @turn c d _ _ _ _ hp hd ih =>
      obtain ⟨rfl, htail⟩ := List.forall_mem_cons.1 hidle
      -- one turn on the same keyboard, and all further ones come to the same
      have hturn : (c.onKeyboard id).turn = c.resume := turn_awaitKey hp
      calc d = (c.onKeyboard id).turn.resume := ih htail
        _ = c.resume.resume := by rw [hturn]
        _ = c.resume := resume_resume c
  · rintro ⟨rfl, o, ho⟩
    cases hp : c.phase with
    | done o' =>
      rw [resume_done hp]
      exact ⟨[], List.forall_mem_nil _, .done hp⟩
    | awaitKey address echo =>
      refine ⟨[id], List.forall_mem_singleton.2 rfl, .turn hp ?_⟩
      change c.turn.Ends [] c.resume
      rw [turn_awaitKey hp]
      exact .done ho

namespace Machine

variable {m : Machine} {s : σ}

/-- One instruction on a keyboard that is left alone. -/
theorem steps_iff_step {c : Cycle σ} :
    (∃ fs : Changes, fs.Idle ∧ m.Steps s fs c) ↔ c = m.step s ∧ ∃ o, c.phase = .done o := by
  cases hs : m.status with
  | halted =>
    rw [step_halted hs]
    constructor
    · rintro ⟨fs, -, h⟩
      obtain ⟨-, rfl⟩ := (steps_iff_of_halted hs).1 h
      exact ⟨rfl, .halted, rfl⟩
    · rintro ⟨rfl, -⟩
      exact ⟨[], List.forall_mem_nil _, .halted hs⟩
  | running =>
    refine Iff.trans ⟨?_, ?_⟩ (Cycle.ends_idle_iff (c := m.begin s))
    · rintro ⟨fs, hidle, h⟩
      obtain ⟨f, gs, rfl, hc⟩ := h.of_running hs
      obtain ⟨rfl, htail⟩ := List.forall_mem_cons.1 hidle
      exact ⟨gs, htail, hc⟩
    · rintro ⟨fs, hidle, h⟩
      exact ⟨id :: fs, List.forall_mem_cons.2 ⟨rfl, hidle⟩, .running hs h⟩

/-- **A run on a keyboard that is left alone** is one for so many cycles that it gets to its end. -/
theorem executes_iff_runFor {r : Run σ} :
    (∃ fs : Changes, fs.Idle ∧ m.Executes s fs r) ↔
      (∃ n, m.runFor n s = r) ∧ (r.ending = .halted ∨ ∃ fault, r.ending = .failed fault) := by
  constructor
  · rintro ⟨fs, hidle, h⟩
    refine ⟨?_, h.ended.2⟩
    induction h with
    | halted hs => exact ⟨0, runFor_halted 0 hs _⟩
    | failed hs hc hf =>
      -- one cycle is enough
      obtain ⟨rfl, o, ho⟩ := steps_iff_step.1 ⟨_, hidle, hc⟩
      refine ⟨1, ?_⟩
      rw [ho] at hf
      cases o with
      | running => cases hf
      | halted => cases hf
      | failed fault =>
        cases hf
        rw [runFor_succ 0 hs]
        simp only [ho]
    | goesOn hs hc hf hr ih =>
      -- one cycle more than the rest of the run takes
      obtain ⟨hfs, hgs⟩ := List.forall_mem_append.1 hidle
      obtain ⟨rfl, o, ho⟩ := steps_iff_step.1 ⟨_, hfs, hc⟩
      obtain ⟨n, rfl⟩ := ih hgs
      refine ⟨n + 1, ?_⟩
      rw [ho] at hf
      rw [runFor_succ n hs]
      cases o with
      | running => simp only [ho]
      | halted => simp only [ho]
      | failed fault => cases hf
  · rintro ⟨⟨n, rfl⟩, hend⟩
    induction n generalizing m s with
    | zero =>
      cases hs : m.status with
      | halted =>
        rw [runFor_halted 0 hs]
        exact ⟨[], List.forall_mem_nil _, .halted hs⟩
      | running =>
        -- no cycles, and so no end
        rw [runFor_zero hs] at hend
        obtain hend | ⟨fault, hend⟩ := hend <;> cases hend
    | succ n ih =>
      cases hs : m.status with
      | halted =>
        rw [runFor_halted _ hs]
        exact ⟨[], List.forall_mem_nil _, .halted hs⟩
      | running =>
        rw [runFor_succ n hs] at hend ⊢
        cases hp : (m.step s).phase with
        | awaitKey address echo =>
          simp only [hp] at hend
          obtain hend | ⟨fault, hend⟩ := hend <;> cases hend
        | done o =>
          -- the first step returns, and the rest of the run is one of fewer cycles
          obtain ⟨fs, hfs, hc⟩ := steps_iff_step.2 ⟨rfl, o, hp⟩
          have hfault : (m.step s).phase.fault? = (Phase.done o).fault? := by rw [hp]
          cases o with
          | failed fault =>
            simp only [hp]
            exact ⟨fs, hfs, .failed hs hc hfault⟩
          | running | halted =>
            simp only [hp] at hend ⊢
            obtain ⟨gs, hgs, hr⟩ := ih hend
            exact ⟨fs ++ gs, hfs.append hgs, .goesOn hs hc hfault hr⟩

end Machine

end LC3
