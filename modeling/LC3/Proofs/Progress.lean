import LC3.Proofs.Console.Independence
import LC3.Proofs.Turn
import Mathlib.Data.List.Infix

/-!
# Counted runs

A statement about a particular program follows its steps one after the other, and has to say how
many they are. `m.Advances s n m' s'` says that `n` cycles of `m` on the console `s` lead to `m'`
and `s'`, with the machine still running.

* `Advances.trans` — runs that go on behind each other add up.
* `Advances.unfinished`, `runFor_of_ended` — before such a run is over no shorter one has ended, and
  a run that has ended stays as it is however many more cycles are allowed.
* `output_runFor_le` — what was written stays written, whatever the console is.

What a single cycle does is known when the word at the program counter is known: `advances_execute`
for registers and memory, and `advances_getc`, `advances_out` and `runFor_getc_closed` for two
routines.
-/

namespace LC3

/-! ### Runs that go on -/

namespace Machine

section Runs

variable {σ : Type} [ByteSink σ] {m m' m'' : Machine} {s s' s'' : σ} {log : List Event}

/-- A run that goes on is one for the remaining cycles from where it has led. -/
theorem runFor_add {n : ℕ} (h : m.runFor n s = ⟨.unfinished, m', s', log⟩) (k : ℕ) :
    m.runFor (n + k) s = (m'.runFor k s').behind log := by
  induction n generalizing m s log with
  | zero =>
    cases hs : m.status with
    | halted =>
      rw [runFor_halted _ hs] at h
      cases h
    | running =>
      rw [runFor_zero hs] at h
      cases h
      rw [Nat.zero_add]
      rfl
  | succ n ih =>
    cases hs : m.status with
    | halted =>
      rw [runFor_halted _ hs] at h
      cases h
    | running =>
      rw [runFor_succ n hs] at h
      rw [Nat.succ_add, runFor_succ (n + k) hs]
      cases hp : (m.step s).phase with
      | awaitKey address echo =>
        simp only [hp] at h
        cases h
      | done o =>
        cases o with
        | failed fault =>
          simp only [hp] at h
          cases h
        | running | halted =>
          -- the first cycle is the same, and the others are fewer
          simp only [hp] at h ⊢
          rcases hr : (m.step s).machine.runFor n (m.step s).sink with ⟨ending, m₁, s₁, log₁⟩
          rw [hr] at h
          cases h
          rw [ih hr]
          unfold Run.behind
          rw [List.append_assoc]

/-- More cycles do not change a run that has ended. -/
theorem runFor_of_ended {n : ℕ} (h : (m.runFor n s).ending ≠ .unfinished) (k : ℕ) :
    m.runFor (n + k) s = m.runFor n s := by
  induction n generalizing m s with
  | zero =>
    cases hs : m.status with
    | halted => rw [runFor_halted _ hs, runFor_halted _ hs]
    | running =>
      rw [runFor_zero hs] at h
      exact absurd rfl h
  | succ n ih =>
    cases hs : m.status with
    | halted => rw [runFor_halted _ hs, runFor_halted _ hs]
    | running =>
      rw [runFor_succ n hs] at h
      rw [Nat.succ_add, runFor_succ (n + k) hs, runFor_succ n hs]
      cases hp : (m.step s).phase with
      | awaitKey address echo => simp only [hp]
      | done o =>
        cases o with
        | failed fault => simp only [hp]
        | running | halted =>
          simp only [hp] at h ⊢
          rw [ih h]

/-- A number of cycles leads to a machine that still runs. -/
def Advances (m : Machine) (s : σ) (n : ℕ) (m' : Machine) (s' : σ) : Prop :=
  ∃ log, m.runFor n s = ⟨.unfinished, m', s', log⟩

theorem Advances.refl (hs : m.status = .running) : m.Advances s 0 m s :=
  ⟨[], runFor_zero hs s⟩

theorem Advances.trans {a b : ℕ} (h : m.Advances s a m' s') (h' : m'.Advances s' b m'' s'') :
    m.Advances s (a + b) m'' s'' := by
  obtain ⟨log, h⟩ := h
  obtain ⟨log', h'⟩ := h'
  exact ⟨log ++ log', by rw [runFor_add h, h']; rfl⟩

/-- A cycle that ends with the machine running is a run of one cycle. -/
theorem advances_one (h : m.step s = ⟨.done .running, m', s', log⟩) : m.Advances s 1 m' s' := by
  have hcoherent : (m.step s).Coherent := Cycle.coherent_resume (Cycle.coherent_begin m s)
  rw [h] at hcoherent
  cases hs : m.status with
  | halted =>
    rw [step_halted hs] at h
    cases h
  | running =>
    refine ⟨log, ?_⟩
    rw [runFor_succ 0 hs, h]
    simp only [runFor_zero (show m'.status = .running from hcoherent)]
    unfold Run.behind
    rw [List.append_nil]

theorem Advances.sink {n : ℕ} (h : m.Advances s n m' s') : (m.runFor n s).sink = s' := by
  obtain ⟨log, h⟩ := h
  rw [h]

/-- Until a run is over that leaves the machine running, nothing has ended it. -/
theorem Advances.unfinished {n k : ℕ} (h : m.Advances s n m' s') (hk : k ≤ n) :
    (m.runFor k s).ending = .unfinished := by
  obtain ⟨log, h⟩ := h
  by_cases hgoes : (m.runFor k s).ending = .unfinished
  · exact hgoes
  · -- otherwise the longer run would have ended as well
    have hsame := runFor_of_ended hgoes (n - k)
    rw [Nat.add_sub_cancel' hk, h] at hsame
    rw [← hsame]

end Runs

end Machine

/-! ### What was written stays written -/

section Output

variable {σ : Type} [ByteSink σ]

theorem Recorded.output_emit (message : List Byte) (s : Recorded σ) :
    s.output <+: (ByteSink.emit message s).2.output := by
  cases hm : (ByteSink.emit message s).1 with
  | ok _ => exact ⟨message, (transmits_recorded.emit_ok trivial hm).symm⟩
  | error e =>
    obtain ⟨sent, -, hsent⟩ := transmits_recorded.emit_error trivial hm
    exact ⟨sent, hsent.symm⟩

namespace TrapRoutine

theorem output_emit (message : List Byte) (next : Flow) (h : Hardware) (s : Recorded σ) :
    s.output <+: (emit message next h s).sink.output := by
  have hgrows := Recorded.output_emit message s
  cases hm : (ByteSink.emit message s).1 with
  | ok _ => rwa [emit_ok hm]
  | error e => rwa [emit_error hm]

theorem output_begin (t : TrapRoutine) (h : Hardware) (s : Recorded σ) :
    s.output <+: (t.begin h s).sink.output := by
  cases t with
  | getc => exact List.prefix_refl _
  | out | puts | input | putsp | halt => exact output_emit _ _ _ s

theorem output_receive (echo : Bool) (h : Hardware) (s : Recorded σ) :
    s.output <+: (receive echo h s).sink.output := by
  rcases hr : h.memory.keyboard.read with ⟨key, rest⟩
  cases key with
  | character c =>
    rw [receive_character hr]
    cases echo with
    | true => exact output_emit _ _ _ s
    | false => exact List.prefix_refl _
  | failed fault =>
    rw [receive_failed hr]
  | waiting =>
    rw [receive_waiting hr]

end TrapRoutine

namespace Machine

theorem output_begin (m : Machine) (s : Recorded σ) :
    s.output <+: (m.begin s).sink.output := by
  refine m.begin_cases s ?halted ?interrupted ?execute ?trap ?badTrap ?invalid
  case trap =>
    intro _ _ t _ _
    rw [Cycle.sink_ofTrapRun]
    exact t.output_begin _ s
  -- only routines use the console
  case halted => exact fun _ => List.prefix_refl _
  case interrupted => exact fun _ _ => List.prefix_refl _
  case execute => exact fun _ _ _ _ => List.prefix_refl _
  case badTrap => exact fun _ _ _ _ => List.prefix_refl _
  case invalid => exact fun _ _ _ => List.prefix_refl _

theorem output_step (m : Machine) (s : Recorded σ) :
    s.output <+: (m.step s).sink.output := by
  refine (m.output_begin s).trans ?_
  unfold step
  cases hp : (m.begin s).phase with
  | done o =>
    rw [Cycle.resume_done hp]
  | awaitKey address echo =>
    rw [Cycle.resume_awaitKey hp, Cycle.sink_ofTrapRun]
    exact TrapRoutine.output_receive echo _ _

theorem output_runFor (m : Machine) (s : Recorded σ) (n : ℕ) :
    s.output <+: (m.runFor n s).sink.output := by
  induction n generalizing m s with
  | zero =>
    cases hs : m.status with
    | halted =>
      rw [runFor_halted _ hs]
    | running =>
      rw [runFor_zero hs]
  | succ n ih =>
    cases hs : m.status with
    | halted =>
      rw [runFor_halted _ hs]
    | running =>
      rw [runFor_succ n hs]
      have hstep := m.output_step s
      cases hp : (m.step s).phase with
      | awaitKey address echo =>
        simp only [hp]
        exact hstep
      | done o =>
        cases o with
        | failed fault =>
          simp only [hp]
          exact hstep
        | running | halted =>
          simp only [hp]
          exact hstep.trans (ih _ _)

/-- **A shorter run has written a part of what a longer one has written.** -/
theorem output_runFor_le (m : Machine) (s : Recorded σ) {k n : ℕ} (hk : k ≤ n) :
    (m.runFor k s).sink.output <+: (m.runFor n s).sink.output := by
  obtain ⟨j, rfl⟩ := Nat.exists_eq_add_of_le hk
  by_cases hended : (m.runFor k s).ending = .unfinished
  · rcases hr : m.runFor k s with ⟨ending, m', s', log⟩
    rw [hr] at hended
    cases hended
    rw [runFor_add hr]
    exact m'.output_runFor s' j
  · rw [runFor_of_ended hended]

end Machine

end Output

/-! ### Single cycles -/

namespace Machine

variable {σ : Type} [ByteSink σ] {m : Machine} {s : σ} {w : Word}

/-- A machine that is about to execute a word: nobody wants to stop it, and the word lies at the
program counter, which is not at the status register. -/
structure About (m : Machine) (w : Word) : Prop where
  status : m.status = .running
  clear : m.memory.keyboard.interrupted = false
  word : m.memory.peek m.registers.pc = w
  plain : m.registers.pc ≠ Memory.statusAddress

theorem About.begin_eq (h : m.About w) :
    m.begin s = dispatch m.registers.pc ⟨w⟩ ⟨m.registers.advance, m.memory⟩ s := by
  have hfetch : m.fetch = (⟨w⟩, ⟨m.registers.advance, m.memory⟩) := by
    unfold fetch
    rw [Memory.read_of_ne _ h.plain, h.word]
  rw [begin_running h.status h.clear, hfetch]

/-- An instruction for registers and memory. -/
theorem advances_execute (h : m.About w) {h' : Hardware}
    (hx : (Hardware.mk m.registers.advance m.memory).execute? ⟨w⟩ = some h') :
    m.Advances s 1 ⟨h', .running⟩ s := by
  have hbegin : m.begin s = ⟨.done .running, ⟨h', .running⟩, s, _⟩ :=
    h.begin_eq.trans (dispatch_execute hx _ s)
  have hstep : m.step s =
      ⟨.done .running, ⟨h', .running⟩, s, [.fetched m.registers.pc ⟨w⟩]⟩ := by
    rw [step_eq_begin (o := .running) (by rw [hbegin]), hbegin]
  exact advances_one hstep

/-- The call of a routine that does not wait for a key and goes on behind its message. -/
theorem advances_out (h : m.About 0xF021)
    (hok : (ByteSink.emit [(m.registers.get 0).low] s).1 = .ok ()) :
    m.Advances s 1 ⟨⟨m.registers.advance, m.memory⟩, .running⟩
      (ByteSink.emit [(m.registers.get 0).low] s).2 := by
  have hrun : TrapRoutine.out.begin ⟨m.registers.advance, m.memory⟩ s =
      ⟨.proceed, ⟨m.registers.advance, m.memory⟩,
        (ByteSink.emit [(m.registers.get 0).low] s).2⟩ :=
    TrapRoutine.emit_ok hok .proceed _
  have hbegin : m.begin s = _ :=
    h.begin_eq.trans (dispatch_trap (t := .out) (by decide) (by decide) _ _ s)
  rw [hrun] at hbegin
  have hstep : m.step s = ⟨.done .running, ⟨⟨m.registers.advance, m.memory⟩, .running⟩,
      (ByteSink.emit [(m.registers.get 0).low] s).2, [.fetched m.registers.pc ⟨0xF021⟩]⟩ := by
    rw [step_eq_begin (o := .running) (by rw [hbegin]; rfl), hbegin]
    rfl
  exact advances_one hstep

/-- The call of the routine that waits for a key leads into a pause. -/
theorem About.step_getc (h : m.About 0xF020) :
    m.step s = .ofTrapRun m.registers.pc [.fetched m.registers.pc ⟨0xF020⟩]
      (TrapRoutine.receive false ⟨m.registers.advance, m.memory⟩ s) := by
  have hbegin : m.begin s = _ :=
    h.begin_eq.trans (dispatch_trap (t := .getc) (by decide) (by decide) _ _ s)
  unfold step
  rw [hbegin]
  exact Cycle.resume_awaitKey rfl

theorem advances_getc (h : m.About 0xF020) {c : Word} {rest : Keyboard}
    (hn : m.memory.keyboard.next? = some (c, rest)) :
    m.Advances s 1 ⟨TrapRoutine.accept ⟨m.registers.advance, m.memory⟩ c rest, .running⟩ s := by
  have hstep : m.step s =
      ⟨.done .running, ⟨TrapRoutine.accept ⟨m.registers.advance, m.memory⟩ c rest, .running⟩, s,
        [.fetched m.registers.pc ⟨0xF020⟩]⟩ := by
    rw [h.step_getc, TrapRoutine.receive_character
      (h := ⟨m.registers.advance, m.memory⟩) (Keyboard.read_of_next? hn)]
    rfl
  exact advances_one hstep

/-- Behind the end of the input it fails. -/
theorem runFor_getc_closed (h : m.About 0xF020) (hn : m.memory.keyboard.next? = none)
    (hclosed : m.memory.keyboard.isOpen = false) :
    ∃ m' log, m.runFor 1 s = ⟨.failed .inputClosed, m', s, log⟩ := by
  have hread : m.memory.keyboard.read = (.failed .inputClosed, m.memory.keyboard) := by
    rw [Keyboard.read_of_none hn, hclosed]
    unfold Keyboard.closedFault
    rw [h.clear]
    rfl
  have hstep := h.step_getc (s := s)
  rw [TrapRoutine.receive_failed (h := ⟨m.registers.advance, m.memory⟩) hread] at hstep
  rw [runFor_succ 0 h.status, hstep]
  exact ⟨_, _, rfl⟩

end Machine

end LC3
