import LC3.Proofs.Halting

/-!
# The course of a call

A call that executes instructions is a sequence of parts of cycles, with a change of the keyboard
before each of them. `Cycle.through` executes such a sequence and never asks whether it returns: it
may end in the middle of a cycle, and it may go on behind a halt or a fault. What is of interest
about each part, seen right before it is executed, is its **course** (`Cycle.course`).

* `Steps.eq_through`, `Executes.through` — a call that returns has gone through its changes.
* `Session.through_steps` — so have several calls that execute one instruction each.

Hence a statement about `through` and `course`, for all sequences, covers calls that return, calls
that fail, and calls that still wait. A call begins with a machine and a console and knows nothing
about the cycle before it; `through_ready` says that it need not.
-/

namespace LC3

variable {σ : Type} [ByteSink σ]

namespace Cycle

/-- Executes one part of a cycle behind each change of the keyboard. -/
def through : Changes → Cycle σ → Cycle σ
  | [], c => c
  | f :: fs, c => through fs (c.onKeyboard f).turn

/-- What there is to see before each of these parts. -/
def course {α : Type} (view : Cycle σ → List α) : Changes → Cycle σ → List α
  | [], _ => []
  | f :: fs, c => view (c.onKeyboard f) ++ course view fs (c.onKeyboard f).turn

theorem through_append (fs gs : Changes) (c : Cycle σ) :
    c.through (fs ++ gs) = (c.through fs).through gs := by
  induction fs generalizing c with
  | nil => rfl
  | cons f fs ih => exact ih (c.onKeyboard f).turn

theorem course_append {α : Type} (view : Cycle σ → List α) (fs gs : Changes) (c : Cycle σ) :
    c.course view (fs ++ gs) = c.course view fs ++ (c.through fs).course view gs := by
  induction fs generalizing c with
  | nil => rfl
  | cons f fs ih =>
    show view (c.onKeyboard f) ++ course view (fs ++ gs) (c.onKeyboard f).turn = _
    rw [ih, ← List.append_assoc]
    rfl

theorem coherent_through {c : Cycle σ} (hc : c.Coherent) (fs : Changes) :
    (c.through fs).Coherent := by
  induction fs generalizing c with
  | nil => exact hc
  | cons f fs ih => exact ih (coherent_turn (c.onKeyboard f))

omit [ByteSink σ] in
theorem coherent_ready (m : Machine) (s : σ) : (m.ready s).Coherent := by
  show m.status = m.status.outcome.status
  cases m.status with
  | running => rfl
  | halted => rfl

/-- When a cycle is over, nothing happens to the console, and the machine stays halted. -/
theorem through_of_over {c : Cycle σ} (h : c.Over) (fs : Changes) :
    (c.through fs).Over ∧ (c.through fs).sink = c.sink := by
  induction fs generalizing c with
  | nil => exact ⟨h, rfl⟩
  | cons f fs ih =>
    obtain ⟨⟨o, ho⟩, hs⟩ := h
    have hphase : (c.onKeyboard f).phase = .done o := ho
    have hstatus : (c.onKeyboard f).machine.status = .halted := hs
    have hturn : (c.onKeyboard f).turn = ⟨.done .halted, (c.onKeyboard f).machine, c.sink, []⟩ := by
      rw [turn_done hphase, Machine.begin_halted hstatus]
      rfl
    have hover : (c.onKeyboard f).turn.Over := by
      rw [hturn]
      exact ⟨⟨.halted, rfl⟩, hstatus⟩
    obtain ⟨hrest, hsink⟩ := ih hover
    refine ⟨hrest, hsink.trans ?_⟩
    rw [hturn]

/-! ### Between two cycles -/

/-- Behind the end of a cycle only the machine and the console count. -/
theorem turn_ready {c : Cycle σ} {o : Outcome} (hp : c.phase = .done o)
    (f : Keyboard → Keyboard) :
    (c.onKeyboard f).turn = ((c.machine.ready c.sink).onKeyboard f).turn := by
  have hp' : (c.onKeyboard f).phase = .done o := hp
  rw [turn_done hp']
  rfl

theorem through_ready {c : Cycle σ} {o : Outcome} (hp : c.phase = .done o) (fs : Changes) :
    (c.through fs).machine = ((c.machine.ready c.sink).through fs).machine ∧
      (c.through fs).sink = ((c.machine.ready c.sink).through fs).sink := by
  cases fs with
  | nil => exact ⟨rfl, rfl⟩
  | cons f fs =>
    have hsame : c.through (f :: fs) = (c.machine.ready c.sink).through (f :: fs) :=
      congrArg (through fs) (turn_ready hp f)
    rw [hsame]
    exact ⟨rfl, rfl⟩

theorem course_ready {α : Type} {view : Cycle σ → List α} {c : Cycle σ} {o : Outcome}
    (hp : c.phase = .done o)
    (hview : ∀ f, view (c.onKeyboard f) = view ((c.machine.ready c.sink).onKeyboard f))
    (fs : Changes) : c.course view fs = (c.machine.ready c.sink).course view fs := by
  cases fs with
  | nil => rfl
  | cons f fs =>
    show view (c.onKeyboard f) ++ course view fs (c.onKeyboard f).turn = _
    rw [hview, turn_ready hp]
    rfl

/-! ### Calls that return -/

theorem Ends.eq_through {c d : Cycle σ} {fs : Changes} (h : c.Ends fs d) : d = c.through fs := by
  induction h with
  | done hp => rfl
  | turn hp hd ih => exact ih

end Cycle

namespace Machine

variable {m : Machine} {s : σ}

theorem Steps.eq_through {fs : Changes} {c : Cycle σ} (h : m.Steps s fs c) :
    c = (m.ready s).through fs := by
  cases h with
  | halted hs =>
    show _ = (⟨.done m.status.outcome, m, s, []⟩ : Cycle σ)
    rw [hs]
    rfl
  | running hs hc => exact hc.eq_through

/-- **A run has gone through its changes**, cycle by cycle. -/
theorem Executes.through {fs : Changes} {r : Run σ} (h : m.Executes s fs r) :
    r.machine = ((m.ready s).through fs).machine ∧ r.sink = ((m.ready s).through fs).sink := by
  induction h with
  | halted hs => exact ⟨rfl, rfl⟩
  | failed hs hc hf =>
    rw [← hc.eq_through]
    exact ⟨rfl, rfl⟩
  | @goesOn m s fs gs c r hs hc hf hr ih =>
    -- the first cycle has ended, and the others start from its machine and its console
    obtain ⟨o, ho, -⟩ := hc.status
    obtain ⟨hmachine, hsink⟩ := Cycle.through_ready ho gs
    rw [Cycle.through_append, ← hc.eq_through, hmachine, hsink]
    exact ih

end Machine

/-- **So have steps one after the other.** -/
theorem Session.through_steps {m m' : Machine} {s s' : σ} {fss : List Changes}
    {rs : List (Return σ)} (h : Session m s (fss.map .step) rs m' s') :
    m' = ((m.ready s).through fss.flatten).machine ∧
      s' = ((m.ready s).through fss.flatten).sink := by
  induction fss generalizing m s rs with
  | nil =>
    cases h with
    | nil => exact ⟨rfl, rfl⟩
  | cons fs fss ih =>
    cases h with
    | cons hcall hrs =>
      cases hcall with
      | @step _ c hc =>
        obtain ⟨o, ho, -⟩ := hc.status
        obtain ⟨hmachine, hsink⟩ := Cycle.through_ready ho fss.flatten
        rw [List.flatten_cons, Cycle.through_append, ← hc.eq_through, hmachine, hsink]
        exact ih hrs

end LC3
