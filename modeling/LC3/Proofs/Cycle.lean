import LC3.Machine

/-!
# What a cycle can do

A cycle has few shapes, and every statement about runs goes through them. A halted machine does
nothing. A running one whose user asked to stop fails at once. Otherwise a word is fetched, and what
it is decides the rest:

* `dispatch_execute` — an instruction for registers and memory is executed, and the console is left
  alone;
* `dispatch_trap` — a trap call with a routine hands over to that routine;
* `dispatch_badTrap` — one without a routine is a fault;
* `dispatch_invalid` — so is an instruction of the two invalid operations.

`dispatch_cases` says that there is no fifth possibility; a statement about all words is proved by
these four. `begin_cases` says the same of the first part of a cycle as a whole. What follows them is
the second part of the cycle, which concerns only trap calls that wait for a key: `resume_done` and
`resume_awaitKey`. Trap routines themselves are made of two things, messages (`emit_ok`,
`emit_error`) and the receipt of a key (`receive_character`, `receive_failed`, `receive_waiting`).
-/

namespace LC3

/-! ### Parts of routines -/

namespace TrapRoutine

variable {σ : Type} [ByteSink σ]

theorem emit_ok {message : List Byte} {s : σ} (hm : (ByteSink.emit message s).1 = .ok ())
    (next : Flow) (h : Hardware) :
    emit message next h s = ⟨next, h, (ByteSink.emit message s).2⟩ := by
  unfold emit
  split <;> rename_i heq <;> rw [heq] at hm ⊢
  cases hm

theorem emit_error {message : List Byte} {s : σ} {e : IoError}
    (hm : (ByteSink.emit message s).1 = .error e) (next : Flow) (h : Hardware) :
    emit message next h s = ⟨.fail (.output e), h, (ByteSink.emit message s).2⟩ := by
  unfold emit
  split <;> rename_i heq <;> rw [heq] at hm ⊢
  · cases hm
  · cases hm
    rfl

/-- A message leaves registers and memory alone. -/
theorem hardware_emit (message : List Byte) (next : Flow) (h : Hardware) (s : σ) :
    (emit message next h s).hardware = h := by
  cases hm : (ByteSink.emit message s).1 with
  | ok _ => rw [emit_ok hm]
  | error e => rw [emit_error hm]

/-- A string is one message. -/
theorem emitString_eq (bytesOf : Word → List Byte) (h : Hardware) (s : σ) :
    emitString bytesOf h s =
      emit ((h.memory.readString (h.registers.get 0)).1.flatMap bytesOf) .proceed
        { h with memory := (h.memory.readString (h.registers.get 0)).2 } s :=
  rfl

theorem receive_character {h : Hardware} {c : Word} {rest : Keyboard}
    (hr : h.memory.keyboard.read = (.character c, rest)) (echo : Bool) (s : σ) :
    receive echo h s =
      if echo then emit [c.low] .proceed (accept h c rest) s
      else ⟨.proceed, accept h c rest, s⟩ := by
  unfold receive
  rw [hr]

theorem receive_failed {h : Hardware} {fault : Fault} {rest : Keyboard}
    (hr : h.memory.keyboard.read = (.failed fault, rest)) (echo : Bool) (s : σ) :
    receive echo h s = ⟨.fail fault, h, s⟩ := by
  unfold receive
  rw [hr]

theorem receive_waiting {h : Hardware} {rest : Keyboard}
    (hr : h.memory.keyboard.read = (.waiting, rest)) (echo : Bool) (s : σ) :
    receive echo h s = ⟨.awaitKey echo, h, s⟩ := by
  unfold receive
  rw [hr]

end TrapRoutine

/-! ### The word that was fetched -/

namespace Instruction

/-- An instruction is one for registers and memory, a trap call, or of an invalid operation. -/
theorem kinds (i : Instruction) (h : Hardware) :
    (∃ h', h.execute? i = some h') ∨ i.operation = .trap ∨
      i.operation = .rti ∨ i.operation = .res := by
  cases hx : h.execute? i with
  | some h' => exact .inl ⟨h', rfl⟩
  | none =>
    -- the hardware refuses three operations
    rcases (h.execute?_eq_none_iff i).1 hx with ho | ho | ho
    · exact .inr (.inr (.inl ho))
    · exact .inr (.inr (.inr ho))
    · exact .inr (.inl ho)

/-- What the hardware executes is no trap call. -/
theorem operation_ne_trap {i : Instruction} {h h' : Hardware} (hx : h.execute? i = some h') :
    i.operation ≠ .trap := by
  intro ho
  rw [(h.execute?_eq_none_iff i).2 (.inr (.inr ho))] at hx
  cases hx

end Instruction

namespace Machine

variable {σ : Type} [ByteSink σ]

theorem dispatch_execute {i : Instruction} {h h' : Hardware} (hx : h.execute? i = some h')
    (address : Word) (s : σ) :
    dispatch address i h s = ⟨.done .running, ⟨h', .running⟩, s, [.fetched address i]⟩ := by
  have hne := Instruction.operation_ne_trap hx
  unfold dispatch
  split
  · next ho => exact absurd ho hne
  · rw [hx]

theorem dispatch_trap {i : Instruction} {t : TrapRoutine} (ho : i.operation = .trap)
    (ht : TrapRoutine.ofVector? i.trapVector = some t) (address : Word) (h : Hardware) (s : σ) :
    dispatch address i h s = .ofTrapRun address [.fetched address i] (t.begin h s) := by
  unfold dispatch
  rw [ho]
  simp only [ht]

theorem dispatch_badTrap {i : Instruction} (ho : i.operation = .trap)
    (ht : TrapRoutine.ofVector? i.trapVector = none) (address : Word) (h : Hardware) (s : σ) :
    dispatch address i h s =
      .failed ⟨h, .running⟩ s [.fetched address i] (.invalidTrap i.trapVector address) := by
  unfold dispatch
  rw [ho]
  simp only [ht]

theorem dispatch_invalid {i : Instruction} (ho : i.operation = .rti ∨ i.operation = .res)
    (address : Word) (h : Hardware) (s : σ) :
    dispatch address i h s =
      .failed ⟨h, .running⟩ s [.fetched address i] (.invalidOpcode i.opcode address) := by
  -- an invalid operation is neither a trap call nor executed by the hardware
  have hne : i.operation ≠ .trap := by
    rcases ho with ho | ho <;> rw [ho] <;> decide
  have hx : h.execute? i = none := (h.execute?_eq_none_iff i).2 (ho.imp_right .inl)
  unfold dispatch
  split
  · next ho => exact absurd ho hne
  · rw [hx]

/-- **The four possibilities.** What holds of each of them holds of every instruction. -/
theorem dispatch_cases {i : Instruction} {h : Hardware} {motive : Prop}
    (execute : ∀ h', h.execute? i = some h' → motive)
    (trap : ∀ t, i.operation = .trap → TrapRoutine.ofVector? i.trapVector = some t → motive)
    (badTrap : i.operation = .trap → TrapRoutine.ofVector? i.trapVector = none → motive)
    (invalid : i.operation = .rti ∨ i.operation = .res → motive) : motive := by
  rcases i.kinds h with ⟨h', hx⟩ | ho | ho
  · exact execute h' hx
  · cases ht : TrapRoutine.ofVector? i.trapVector with
    | some t => exact trap t ho ht
    | none => exact badTrap ho ht
  · exact invalid ho

/-! ### The first part of a cycle -/

theorem begin_halted {m : Machine} (h : m.status = .halted) (s : σ) :
    m.begin s = ⟨.done .halted, m, s, []⟩ := by
  unfold begin
  rw [h]

theorem begin_interrupted {m : Machine} (h : m.status = .running)
    (hi : m.memory.keyboard.interrupted = true) (s : σ) :
    m.begin s = .failed m s [] .interrupted := by
  unfold begin
  rw [h]
  exact if_pos hi

theorem begin_running {m : Machine} (h : m.status = .running)
    (hi : m.memory.keyboard.interrupted = false) (s : σ) :
    m.begin s = dispatch m.registers.pc m.fetch.1 m.fetch.2 s := by
  unfold begin
  rw [h]
  exact if_neg (by rw [hi]; exact Bool.false_ne_true)

/-- **The first part of a cycle is one of six.** What holds of each of them holds of every one. -/
@[elab_as_elim]
theorem begin_cases (m : Machine) (s : σ) {motive : Cycle σ → Prop}
    (halted : m.status = .halted → motive ⟨.done .halted, m, s, []⟩)
    (interrupted : m.status = .running → m.memory.keyboard.interrupted = true →
      motive (.failed m s [] .interrupted))
    (execute : m.status = .running → m.memory.keyboard.interrupted = false → ∀ h,
      m.fetch.2.execute? m.fetch.1 = some h →
      motive ⟨.done .running, ⟨h, .running⟩, s, [.fetched m.registers.pc m.fetch.1]⟩)
    (trap : m.status = .running → m.memory.keyboard.interrupted = false → ∀ t,
      m.fetch.1.operation = .trap → TrapRoutine.ofVector? m.fetch.1.trapVector = some t →
      motive (.ofTrapRun m.registers.pc [.fetched m.registers.pc m.fetch.1]
        (t.begin m.fetch.2 s)))
    (badTrap : m.status = .running → m.memory.keyboard.interrupted = false →
      m.fetch.1.operation = .trap → TrapRoutine.ofVector? m.fetch.1.trapVector = none →
      motive (.failed ⟨m.fetch.2, .running⟩ s [.fetched m.registers.pc m.fetch.1]
        (.invalidTrap m.fetch.1.trapVector m.registers.pc)))
    (invalid : m.status = .running → m.memory.keyboard.interrupted = false →
      m.fetch.1.operation = .rti ∨ m.fetch.1.operation = .res →
      motive (.failed ⟨m.fetch.2, .running⟩ s [.fetched m.registers.pc m.fetch.1]
        (.invalidOpcode m.fetch.1.opcode m.registers.pc))) : motive (m.begin s) := by
  cases hs : m.status with
  | halted =>
    rw [begin_halted hs]
    exact halted hs
  | running =>
    cases hi : m.memory.keyboard.interrupted with
    | true =>
      rw [begin_interrupted hs hi]
      exact interrupted hs hi
    | false =>
      rw [begin_running hs hi]
      refine dispatch_cases (i := m.fetch.1) (h := m.fetch.2) (fun h hx => ?_)
        (fun t ho ht => ?_) (fun ho ht => ?_) (fun ho => ?_)
      · rw [dispatch_execute hx]
        exact execute hs hi h hx
      · rw [dispatch_trap ho ht]
        exact trap hs hi t ho ht
      · rw [dispatch_badTrap ho ht]
        exact badTrap hs hi ho ht
      · rw [dispatch_invalid ho]
        exact invalid hs hi ho

end Machine

/-! ### The second part -/

namespace Cycle

variable {σ : Type} [ByteSink σ]

omit [ByteSink σ] in
/-- Whatever a part of a routine has decided, what it has written is written. -/
theorem sink_ofTrapRun (address : Word) (log : List Event) (r : TrapRun σ) :
    (ofTrapRun address log r).sink = r.sink := by
  unfold ofTrapRun
  cases r.flow with
  | proceed => rfl
  | stop => rfl
  | fail fault => rfl
  | awaitKey echo => rfl

omit [ByteSink σ] in
/-- Whatever it has decided, registers and memory are what it has left. -/
theorem hardware_ofTrapRun (address : Word) (log : List Event) (r : TrapRun σ) :
    (ofTrapRun address log r).machine.toHardware = r.hardware := by
  unfold ofTrapRun
  cases r.flow with
  | proceed => rfl
  | stop => rfl
  | fail fault => rfl
  | awaitKey echo => rfl

/-- A cycle that has ended is not gone on with. -/
theorem resume_done {c : Cycle σ} {o : Outcome} (h : c.phase = .done o) : c.resume = c := by
  unfold resume
  rw [h]

theorem resume_awaitKey {c : Cycle σ} {address : Word} {echo : Bool}
    (h : c.phase = .awaitKey address echo) :
    c.resume =
      ofTrapRun address c.log (TrapRoutine.receive echo c.machine.toHardware c.sink) := by
  unfold resume
  rw [h]

end Cycle

namespace Machine

variable {σ : Type} [ByteSink σ]

theorem step_eq_begin {m : Machine} {s : σ} {o : Outcome} (h : (m.begin s).phase = .done o) :
    m.step s = m.begin s :=
  Cycle.resume_done h

theorem step_halted {m : Machine} (h : m.status = .halted) (s : σ) :
    m.step s = ⟨.done .halted, m, s, []⟩ := by
  have hb := begin_halted h s
  rw [step_eq_begin (o := .halted) (by rw [hb]), hb]

end Machine

end LC3
