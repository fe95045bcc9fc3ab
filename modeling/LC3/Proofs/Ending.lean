import LC3.Proofs.Condition
import LC3.Proofs.Decoding

/-!
# Why a run ended

A run that ended says why, and its log tells the same story. What is logged are the words that the
run has **fetched**, each with its address, and behind them the end. A word is fetched at the
beginning of a cycle of a running machine, unless the user wants it to stop.

* `Cycle.fetches`, `Machine.fetchesDuring` — the words that a run fetches.
* `Steps.logs`, `Executes.log_eq` — the log of an instruction, and of a run.
* `Steps.log_of_halted` — the instruction that ends a program is the call of the routine for that
  purpose, and no other instruction.
* `Executes.halted_iff` — so the program has ended a run if and only if this call is the last that
  was logged before the end.

Behind the pause of a cycle a program is never ended (`Cycle.resume_ne_halted`), so the first part of
the cycle decides; there is one routine that stops there (`TrapRoutine.eq_halt`).
-/

namespace LC3

/-- The instruction calls the routine that ends the program. -/
def Instruction.IsHalt (i : Instruction) : Prop :=
  i.operation = .trap ∧ i.trapVector = 0x25

variable {σ : Type}

/-! ### Routines -/

section Routines

variable [ByteSink σ]

namespace TrapRoutine

theorem emit_ne_stop {message : List Byte} {next : Flow} {h : Hardware} {s : σ}
    (hnext : next ≠ .stop) : (emit message next h s).flow ≠ .stop := by
  cases hm : (ByteSink.emit message s).1 with
  | ok _ =>
    rw [emit_ok hm]
    exact hnext
  | error e =>
    rw [emit_error hm]
    exact Flow.noConfusion

/-- **One routine ends the program.** -/
theorem eq_halt {t : TrapRoutine} {h : Hardware} {s : σ} (hf : (t.begin h s).flow = .stop) :
    t = .halt := by
  cases t with
  | halt => rfl
  | getc => cases hf
  | out | puts | putsp | input => exact absurd hf (emit_ne_stop Flow.noConfusion)

theorem receive_ne_stop (echo : Bool) (h : Hardware) (s : σ) :
    (receive echo h s).flow ≠ .stop := by
  rcases hr : h.memory.keyboard.read with ⟨key, rest⟩
  cases key with
  | character c =>
    rw [receive_character hr]
    cases echo with
    | true => exact emit_ne_stop Flow.noConfusion
    | false => exact Flow.noConfusion
  | failed fault =>
    rw [receive_failed hr]
    exact Flow.noConfusion
  | waiting =>
    rw [receive_waiting hr]
    exact Flow.noConfusion

end TrapRoutine

end Routines

/-! ### Words that are fetched -/

/-- A word that was taken from memory to be executed. -/
structure Fetch (σ : Type) where
  address : Word
  word : Word
  /-- The console at that point. -/
  sink : σ

/-- What is logged about the word. -/
def Fetch.event (x : Fetch σ) : Event := .fetched x.address ⟨x.word⟩

/-- The word that the machine fetches next, if it is to fetch one. -/
def Machine.fetches (m : Machine) (s : σ) : List (Fetch σ) :=
  if m.status = .running ∧ m.memory.keyboard.interrupted = false then
    [⟨m.registers.pc, m.fetched, s⟩]
  else []

/-- The word that the next part of a cycle fetches. Behind a pause there is none. -/
def Cycle.fetches (c : Cycle σ) : List (Fetch σ) :=
  match c.phase with
  | .done _ => c.machine.fetches c.sink
  | .awaitKey _ _ => []

/-- The words that are fetched while the keyboard changes. -/
def Machine.fetchesDuring [ByteSink σ] (m : Machine) (s : σ) (fs : Changes) : List (Fetch σ) :=
  (m.ready s).course Cycle.fetches fs

namespace Machine

theorem fetches_of_fetching {m : Machine} (hs : m.status = .running)
    (hi : m.memory.keyboard.interrupted = false) (s : σ) :
    m.fetches s = [⟨m.registers.pc, m.fetched, s⟩] := if_pos ⟨hs, hi⟩

theorem fetches_of_interrupted {m : Machine} (hi : m.memory.keyboard.interrupted = true) (s : σ) :
    m.fetches s = [] := by
  refine if_neg fun h => ?_
  cases hi.symm.trans h.2

end Machine

variable [ByteSink σ]

/-- Between the first part of a cycle and its end nothing is fetched. -/
theorem Cycle.Ends.course_fetches {c d : Cycle σ} {fs : Changes} (h : c.Ends fs d) :
    c.course Cycle.fetches fs = [] := by
  induction h with
  | done hp => rfl
  | @turn c _ _ _ f _ hp _ ih =>
    have hnone : (c.onKeyboard f).fetches = [] := by
      show Cycle.fetches { c with machine := _ } = []
      unfold Cycle.fetches
      simp only [hp]
    show (c.onKeyboard f).fetches ++ _ = []
    rw [hnone, ih]
    rfl

namespace Machine

variable {m : Machine} {s : σ}

/-- An instruction fetches one word at most, when the keyboard has changed for the first time. -/
theorem fetchesDuring_cons {f : Keyboard → Keyboard} {fs : Changes} {c : Cycle σ}
    (hc : ((m.onKeyboard f).begin s).Ends fs c) :
    m.fetchesDuring s (f :: fs) = (m.onKeyboard f).fetches s := by
  show (m.onKeyboard f).fetches s ++ ((m.onKeyboard f).begin s).course Cycle.fetches fs = _
  rw [hc.course_fetches, List.append_nil]

/-- Behind an instruction the machine and the console that it has left go on. -/
theorem Steps.fetchesDuring_append {fs : Changes} {c : Cycle σ} (h : m.Steps s fs c)
    (gs : Changes) :
    m.fetchesDuring s (fs ++ gs) = m.fetchesDuring s fs ++ c.machine.fetchesDuring c.sink gs := by
  obtain ⟨o, ho, -⟩ := h.status
  have hview (f : Keyboard → Keyboard) : (c.onKeyboard f).fetches =
      ((c.machine.ready c.sink).onKeyboard f).fetches := by
    show Cycle.fetches { c with machine := _ } = _
    unfold Cycle.fetches
    simp only [ho]
    rfl
  show (m.ready s).course Cycle.fetches (fs ++ gs) = _
  rw [Cycle.course_append, ← h.eq_through, Cycle.course_ready ho hview]
  rfl

end Machine

/-! ### The log -/

/-- What is logged last: why the cycle has ended, unless the machine goes on. The program counter is
behind the instruction then. -/
def Phase.lastEvents (pc : Word) : Phase → List Event
  | .done .halted => [.halted (pc - 1)]
  | .done (.failed fault) => [.failed fault]
  | .done .running | .awaitKey _ _ => []

/-- The same for a run. -/
def Ending.lastEvents (pc : Word) : Ending → List Event
  | .halted => [.halted (pc - 1)]
  | .failed fault => [.failed fault]
  | .waiting _ _ | .unfinished => []

/-- The end is not shown as a word. -/
theorem Ending.filter_lastEvents (pc : Word) (ending : Ending) :
    (ending.lastEvents pc).filter (fun e => e.level = .trace) = [] := by
  cases ending with
  | halted | failed fault | waiting address echo | unfinished => rfl

namespace Cycle

/-- In the log of a cycle, its end stands behind what was logged before. -/
def Logs (c : Cycle σ) (before : List Event) : Prop :=
  c.log = before ++ c.phase.lastEvents c.machine.registers.pc

omit [ByteSink σ] in
theorem logs_ofTrapRun {address : Word} {log : List Event} {r : TrapRun σ}
    (hstop : r.flow = .stop → r.hardware.registers.pc - 1 = address) :
    (ofTrapRun address log r).Logs log := by
  obtain ⟨flow, hardware, sink⟩ := r
  cases flow with
  | proceed | awaitKey echo => exact (List.append_nil log).symm
  | stop =>
    show log ++ [.halted address] = log ++ [.halted (hardware.registers.pc - 1)]
    rw [hstop rfl]
  | fail fault => rfl

/-- **The log of a cycle**: the word that was fetched, and how the cycle has ended. -/
theorem logs_begin {m : Machine} (hs : m.status = .running) (s : σ) :
    (m.begin s).Logs ((m.fetches s).map Fetch.event) := by
  refine m.begin_cases s ?halted ?interrupted ?execute ?trap ?badTrap ?invalid
  case halted => exact fun hs' => absurd (hs.symm.trans hs') Status.noConfusion
  case interrupted =>
    intro _ hi
    rw [m.fetches_of_interrupted hi]
    rfl
  case execute =>
    intro _ hi h' _
    rw [Machine.fetches_of_fetching hs hi]
    rfl
  case trap =>
    intro _ hi t _ _
    rw [Machine.fetches_of_fetching hs hi]
    refine logs_ofTrapRun fun _ => ?_
    -- a routine leaves the program counter behind its call
    rw [t.registers_begin]
    exact BitVec.add_sub_cancel m.registers.pc 1
  case badTrap =>
    intro _ hi _ _
    rw [Machine.fetches_of_fetching hs hi]
    rfl
  case invalid =>
    intro _ hi _
    rw [Machine.fetches_of_fetching hs hi]
    rfl

theorem Ends.logs {c d : Cycle σ} {fs : Changes} {before : List Event} (h : c.Ends fs d)
    (hc : c.Logs before) : d.Logs before := by
  induction h with
  | done hp => exact hc
  | @turn c _ address echo f _ hp hd ih =>
    refine ih ?_
    have hp' : (c.onKeyboard f).phase = .awaitKey address echo := hp
    -- up to its pause the cycle has only logged its word
    have hlog : (c.onKeyboard f).log = before := by
      have hsofar : c.log = before ++ c.phase.lastEvents c.machine.registers.pc := hc
      rw [hp] at hsofar
      exact hsofar.trans (List.append_nil before)
    rw [turn_awaitKey hp', resume_awaitKey hp', hlog]
    exact logs_ofTrapRun fun hstop => absurd hstop (TrapRoutine.receive_ne_stop echo _ _)

end Cycle

namespace Machine

variable {m : Machine} {s : σ}

theorem Steps.logs {fs : Changes} {c : Cycle σ} (h : m.Steps s fs c) (hs : m.status = .running) :
    c.Logs ((m.fetchesDuring s fs).map Fetch.event) := by
  obtain ⟨f, gs, rfl, hends⟩ := h.of_running hs
  rw [fetchesDuring_cons hends]
  exact hends.logs (Cycle.logs_begin (m := m.onKeyboard f) hs s)

/-- **The log of a run**: the words that were fetched, in order, and why it is over. -/
theorem Executes.log_eq {fs : Changes} {r : Run σ} (h : m.Executes s fs r)
    (hs : m.status = .running) :
    r.log = (m.fetchesDuring s fs).map Fetch.event ++
      r.ending.lastEvents r.machine.registers.pc := by
  refine Executes.running_induction (motive := fun m s fs r => r.log =
    (m.fetchesDuring s fs).map Fetch.event ++ r.ending.lastEvents r.machine.registers.pc)
    ?halted ?failed ?goesOn h hs
  case halted =>
    intro m s fs c hs hc hp
    have hlog : c.log = _ := hc.logs hs
    rw [hp] at hlog
    exact hlog
  case failed =>
    intro m s fs c fault hs hc hp
    have hlog : c.log = _ := hc.logs hs
    rw [hp] at hlog
    exact hlog
  case goesOn =>
    intro m s fs gs c r hs hc hp ih
    -- an instruction that goes on logs its word alone
    have hlog : c.log = (m.fetchesDuring s fs).map Fetch.event := by
      have hlogs : c.log = _ := hc.logs hs
      rw [hp] at hlogs
      exact hlogs.trans (List.append_nil _)
    calc c.log ++ r.log
        = (m.fetchesDuring s fs).map Fetch.event ++
            ((c.machine.fetchesDuring c.sink gs).map Fetch.event ++
              r.ending.lastEvents r.machine.registers.pc) := by rw [hlog, ih]
      _ = (m.fetchesDuring s (fs ++ gs)).map Fetch.event ++
            r.ending.lastEvents r.machine.registers.pc := by
          rw [hc.fetchesDuring_append gs, List.map_append, List.append_assoc]

end Machine

/-! ### The end of a program -/

namespace Cycle

omit [ByteSink σ] in
theorem flow_of_halted {address : Word} {log : List Event} {r : TrapRun σ}
    (hp : (ofTrapRun address log r).phase = .done .halted) :
    r.flow = .stop ∧ (ofTrapRun address log r).log = log ++ [.halted address] := by
  obtain ⟨flow, hardware, sink⟩ := r
  cases flow with
  | stop => exact ⟨rfl, rfl⟩
  | proceed | awaitKey echo | fail fault => cases hp

/-- Behind its pause a cycle does not end the program. -/
theorem resume_ne_halted {c : Cycle σ} {address : Word} {echo : Bool}
    (hp : c.phase = .awaitKey address echo) : c.resume.phase ≠ .done .halted := by
  rw [resume_awaitKey hp]
  intro hhalted
  exact TrapRoutine.receive_ne_stop echo _ _ (flow_of_halted hhalted).1

/-- So a cycle that ends the program has no pause. -/
theorem Ends.eq_of_halted {c d : Cycle σ} {fs : Changes} (h : c.Ends fs d)
    (hd : d.phase = .done .halted) : d = c :=
  (h.eq_of_outcome hd resume_ne_halted).2

end Cycle

namespace Machine

variable {m : Machine} {s : σ}

theorem log_begin_of_halted (hs : m.status = .running) (hp : (m.begin s).phase = .done .halted) :
    ∃ address i, i.IsHalt ∧ (m.begin s).log = [.fetched address i, .halted address] := by
  revert hp
  refine m.begin_cases s ?halted ?interrupted ?execute ?trap ?badTrap ?invalid
  case halted => exact fun hs' => absurd (hs.symm.trans hs') Status.noConfusion
  case trap =>
    intro _ _ t ho ht hp
    obtain ⟨hstop, hlog⟩ := Cycle.flow_of_halted hp
    obtain rfl := TrapRoutine.eq_halt hstop
    exact ⟨_, _, ⟨ho, TrapRoutine.ofVector?_eq_some_iff.1 ht⟩, hlog⟩
  -- all others go on or fail
  case interrupted => exact fun _ _ => nofun
  case execute => exact fun _ _ _ _ => nofun
  case badTrap => exact fun _ _ _ _ => nofun
  case invalid => exact fun _ _ _ => nofun

/-- **The instruction that ends a program** is the call of the routine for that. -/
theorem Steps.log_of_halted {fs : Changes} {c : Cycle σ} (h : m.Steps s fs c)
    (hs : m.status = .running) (hp : c.phase = .done .halted) :
    ∃ address i, i.IsHalt ∧ c.log = [.fetched address i, .halted address] := by
  obtain ⟨f, gs, -, hends⟩ := h.of_running hs
  obtain rfl := hends.eq_of_halted hp
  exact log_begin_of_halted (m := m.onKeyboard f) hs hp

/-- **A run that the program ended** has the call of that routine behind all other instructions. -/
theorem Executes.log_of_halted {fs : Changes} {r : Run σ} (h : m.Executes s fs r)
    (hs : m.status = .running) (he : r.ending = .halted) :
    ∃ before address i, i.IsHalt ∧ r.log = before ++ [.fetched address i, .halted address] := by
  revert he
  refine Executes.running_induction (motive := fun _ _ _ r => r.ending = .halted →
    ∃ before address i, i.IsHalt ∧ r.log = before ++ [.fetched address i, .halted address])
    ?halted ?failed ?goesOn h hs
  case halted =>
    intro m s fs c hs hc hp _
    obtain ⟨address, i, hi, hlog⟩ := hc.log_of_halted hs hp
    exact ⟨[], address, i, hi, hlog⟩
  case failed =>
    intro m s fs c fault hs hc hp he
    cases he
  case goesOn =>
    intro m s fs gs c r hs hc hp ih he
    obtain ⟨before, address, i, hi, hlog⟩ := ih he
    refine ⟨c.log ++ before, address, i, hi, ?_⟩
    show c.log ++ r.log = _
    rw [hlog, List.append_assoc]

/-- **The program has ended a run** of a running machine if and only if the log ends with that. -/
theorem Executes.halted_iff {fs : Changes} {r : Run σ} (h : m.Executes s fs r)
    (hs : m.status = .running) :
    r.ending = .halted ↔
      ∃ before address i, i.IsHalt ∧ r.log = before ++ [.fetched address i, .halted address] := by
  refine ⟨h.log_of_halted hs, ?_⟩
  rintro ⟨before, address, i, -, hlog⟩
  obtain hend | ⟨fault, hend⟩ := h.ended.2
  · exact hend
  · -- the end of the log would be a fault
    have hfault := h.log_eq hs
    rw [hend] at hfault
    have hlast := congrArg List.getLast? (hlog.symm.trans hfault)
    rw [List.getLast?_append, List.getLast?_append] at hlast
    cases hlast

end Machine

end LC3
