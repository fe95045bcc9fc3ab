import LC3.Proofs.Condition
import LC3.Proofs.Console.Delivery
import LC3.Proofs.Decoding
import LC3.Proofs.Footprint

/-!
# What a failed trap call leaves behind

A trap call can fail in three ways, and which of its effects have happened by then depends on their
order (`TrapRoutine.Failure`). The console may refuse the first message of the routine: then nothing
was asked of the keyboard, except by a string that lies across the status register. The input may
have ended while the routine waited for a key: then there is no key to take. And the console may
refuse the echo of a key: only then has the routine changed anything, for it puts the key into R0
before it shows it.

A routine waits between its two parts, and meanwhile the keyboard may change. All the changes together
are one, because a routine that still waits has done nothing (`Cycle.Ends.of_pause`); so a call is
described by the keyboard as it was for the message and as it was in the end.

* `Machine.Calls` — the machine is about to call a routine, said of the word as a number.
* `Machine.Steps.of_calls` — what a call comes to.
* `TrapRoutine.failure` — the three ways to fail.
* `failed_calls` — the statement as a whole, with the calls that succeed where they are to be told
  from those that fail.
-/

namespace LC3

/-- What several changes of the keyboard come to. -/
def Changes.apply (fs : Changes) (k : Keyboard) : Keyboard := fs.foldl (fun k f => f k) k

/-- The keyboard changes. -/
def Hardware.onKeyboard (g : Keyboard → Keyboard) (h : Hardware) : Hardware :=
  { h with memory := h.memory.connect (g h.memory.keyboard) }

/-- The keyboard changes between the two parts of a routine. -/
def TrapRun.onKeyboard {σ : Type} (g : Keyboard → Keyboard) (r : TrapRun σ) : TrapRun σ :=
  { r with hardware := r.hardware.onKeyboard g }

/-! ### The pause of a call -/

/-- Only a routine that asks for a key is gone on with. -/
theorem TrapRun.resume_of_ne {σ : Type} [ByteSink σ] {r : TrapRun σ}
    (h : ∀ echo, r.flow ≠ .awaitKey echo) : r.resume = r := by
  unfold resume
  cases hflow : r.flow with
  | awaitKey echo => exact absurd hflow (h echo)
  | proceed | stop | fail fault => rfl

namespace Cycle

variable {σ : Type} [ByteSink σ]

/-- **A pause is one pause**, however often the keyboard changes before it ends. -/
theorem Ends.of_pause {c d : Cycle σ} {fs : Changes} (h : c.Ends fs d) (hc : c.Coherent)
    {address : Word} {echo : Bool} (hp : c.phase = .awaitKey address echo) :
    d = (c.onKeyboard fs.apply).resume := by
  induction h with
  | done hp' => exact absurd (hp.symm.trans hp') Phase.noConfusion
  | @turn c d _ _ f fs _ hd ih =>
    have hp' : (c.onKeyboard f).phase = .awaitKey address echo := hp
    have hturn : (c.onKeyboard f).turn = (c.onKeyboard f).resume := turn_awaitKey hp'
    cases hnext : (c.onKeyboard f).turn.phase with
    | done o =>
      -- the key has come, so this was the last change
      obtain ⟨rfl, rfl⟩ := (ends_iff_of_done hnext).1 hd
      exact hturn
    | awaitKey address' echo' =>
      -- nothing has happened, and the other changes find the cycle as this one has left it
      have hsame : (c.onKeyboard f).turn = c.onKeyboard f := by
        rw [hturn] at hnext ⊢
        exact resume_eq_self hc hp' hnext
      have hpause : (c.onKeyboard f).turn.phase = .awaitKey address echo := by
        rw [hsame]
        exact hp'
      have hd' : d = ((c.onKeyboard f).turn.onKeyboard fs.apply).resume :=
        ih (coherent_turn _) hpause
      rw [hsame] at hd'
      exact hd'

/-- A call behind its first part: without a pause it has ended, and otherwise the second part is
executed on the keyboard as it has become. -/
theorem Ends.of_trapRun {address : Word} {log : List Event} {r : TrapRun σ} {fs : Changes}
    {c : Cycle σ} (h : (ofTrapRun address log r).Ends fs c) :
    c = ofTrapRun address log (r.onKeyboard fs.apply).resume ∧
      (fs = [] ∨ ∃ echo, r.flow = .awaitKey echo) := by
  obtain ⟨flow, hardware, sink⟩ := r
  cases flow with
  | awaitKey echo =>
    refine ⟨?_, .inr ⟨echo, rfl⟩⟩
    have hresume := h.of_pause (coherent_ofTrapRun address log _) rfl
    rw [hresume]
    exact resume_awaitKey rfl
  | proceed | stop | fail fault =>
    obtain ⟨rfl, rfl⟩ := (ends_iff_of_done rfl).1 h
    exact ⟨rfl, .inl rfl⟩

end Cycle

/-! ### Calls -/

namespace Machine

/-- The machine is about to call a routine, and nobody wants it to stop. -/
structure Calls (m : Machine) (t : TrapRoutine) : Prop where
  status : m.status = .running
  clear : m.memory.keyboard.interrupted = false
  opcode : m.fetched.toNat / 2 ^ 12 = 15
  vector : m.fetched.toNat % 2 ^ 8 = t.vector.toNat

variable {σ : Type} [ByteSink σ] {m : Machine} {t : TrapRoutine} {s : σ}

/-- The word of a call does not come from the status register, which answers `0x8000` or zero. -/
theorem Calls.plain (h : m.Calls t) : m.registers.pc ≠ Memory.statusAddress := by
  intro hpc
  have hopcode := h.opcode
  cases hn : m.memory.keyboard.next? with
  | some next =>
    have hready : m.fetched = Memory.readyStatus := (Memory.read_status_of_next? hpc hn).1
    rw [hready] at hopcode
    exact absurd hopcode (by decide)
  | none =>
    have hzero : m.fetched = 0 := (Memory.read_status_of_none hpc hn).1
    rw [hzero] at hopcode
    exact absurd hopcode (by decide)

/-- The first part of a call is that of its routine. -/
theorem Calls.begin_eq (h : m.Calls t) (s : σ) :
    m.begin s = .ofTrapRun m.registers.pc [.fetched m.registers.pc ⟨m.fetched⟩]
      (t.begin ⟨m.registers.advance, m.memory⟩ s) := by
  have htrap : (Instruction.mk m.fetched).operation = .trap :=
    ((Instruction.mk m.fetched).operation_eq_iff .trap).2 h.opcode
  have hvector : (Instruction.mk m.fetched).trapVector = t.vector := by
    rw [← BitVec.toNat_inj, Instruction.toNat_trapVector]
    exact h.vector
  have hroutine := TrapRoutine.ofVector?_eq_some_iff.2 hvector
  have hmemory : (m.memory.read m.registers.pc).2 = m.memory := by
    rw [m.memory.read_of_ne h.plain]
  have hfetch : m.fetch = (⟨m.fetched⟩, ⟨m.registers.advance, m.memory⟩) := by
    calc m.fetch = (⟨m.fetched⟩, ⟨m.registers.advance, (m.memory.read m.registers.pc).2⟩) := rfl
      _ = (⟨m.fetched⟩, ⟨m.registers.advance, m.memory⟩) := by rw [hmemory]
  rw [begin_running h.status h.clear, hfetch]
  exact dispatch_trap htrap hroutine m.registers.pc _ s

/-- The hardware on which a routine begins: the program counter is behind the call, and the keyboard
has changed. -/
def calling (m : Machine) (f : Keyboard → Keyboard) : Hardware :=
  ⟨m.registers.advance, m.memory.connect (f m.memory.keyboard)⟩

/-- **What a call comes to**, if it returns. -/
theorem Steps.of_calls {f : Keyboard → Keyboard} {fs : Changes} {c : Cycle σ}
    (h : m.Steps s (f :: fs) c) (ht : (m.onKeyboard f).Calls t) :
    c = .ofTrapRun m.registers.pc [.fetched m.registers.pc ⟨(m.onKeyboard f).fetched⟩]
        ((t.begin (m.calling f) s).onKeyboard fs.apply).resume ∧
      (fs = [] ∨ ∃ echo, (t.begin (m.calling f) s).flow = .awaitKey echo) := by
  have hs : m.status = .running := ht.status
  have hends := (steps_cons_iff hs).1 h
  rw [ht.begin_eq s] at hends
  exact hends.of_trapRun

/-- A call of a routine that asks for no key returns at once. -/
theorem steps_iff_of_calls {f : Keyboard → Keyboard} (ht : (m.onKeyboard f).Calls t)
    (hkey : ∀ echo, (t.begin (m.calling f) s).flow ≠ .awaitKey echo) {fs : Changes} {c : Cycle σ} :
    m.Steps s (f :: fs) c ↔ fs = [] ∧
      c = .ofTrapRun m.registers.pc [.fetched m.registers.pc ⟨(m.onKeyboard f).fetched⟩]
        (t.begin (m.calling f) s) := by
  have hs : m.status = .running := ht.status
  have hbegin : (m.onKeyboard f).begin s = .ofTrapRun m.registers.pc
      [.fetched m.registers.pc ⟨(m.onKeyboard f).fetched⟩] (t.begin (m.calling f) s) :=
    ht.begin_eq s
  have hdone : ∃ o, ((m.onKeyboard f).begin s).phase = .done o := by
    rw [hbegin]
    unfold Cycle.ofTrapRun
    cases hflow : (t.begin (m.calling f) s).flow with
    | proceed => exact ⟨.running, rfl⟩
    | stop => exact ⟨.halted, rfl⟩
    | fail fault => exact ⟨.failed fault, rfl⟩
    | awaitKey echo => exact absurd hflow (hkey echo)
  obtain ⟨o, ho⟩ := hdone
  rw [steps_cons_iff hs, Cycle.ends_iff_of_done ho, hbegin]

end Machine

/-! ### Routines -/

namespace TrapRoutine

variable {σ : Type} [ByteSink σ] {t : TrapRoutine} {h : Hardware} {s : σ}

/-- Two routines ask for a key, and one of them only when its prompt is visible. -/
theorem of_awaitKey {echo : Bool} (hflow : (t.begin h s).flow = .awaitKey echo) :
    t = .getc ∧ echo = false ∧ t.begin h s = ⟨.awaitKey false, h, s⟩ ∨
      t = .input ∧ echo = true ∧ (ByteSink.emit prompt s).1 = .ok () ∧
        t.begin h s = ⟨.awaitKey true, h, (ByteSink.emit prompt s).2⟩ := by
  -- a message leads where it is meant to lead, or to a failure
  have hemit {message : List Byte} {next : Flow} {h' : Hardware}
      (hf : (emit message next h' s).flow = .awaitKey echo) :
      (ByteSink.emit message s).1 = .ok () ∧ next = .awaitKey echo := by
    cases hm : (ByteSink.emit message s).1 with
    | ok _ =>
      rw [emit_ok hm] at hf
      exact ⟨rfl, hf⟩
    | error e =>
      rw [emit_error hm] at hf
      cases hf
  cases t with
  | getc =>
    cases hflow
    exact .inl ⟨rfl, rfl, rfl⟩
  | input =>
    obtain ⟨hm, hnext⟩ := hemit hflow
    cases hnext
    exact .inr ⟨rfl, rfl, hm, emit_ok hm (.awaitKey true) h⟩
  | out | puts | putsp | halt =>
    obtain ⟨-, hnext⟩ := hemit hflow
    cases hnext

theorem memory_begin_of_ne (hputs : t ≠ .puts) (hputsp : t ≠ .putsp) (h : Hardware) (s : σ) :
    (t.begin h s).hardware.memory = h.memory := by
  rw [memory_begin]
  cases t with
  | puts => exact absurd rfl hputs
  | putsp => exact absurd rfl hputsp
  | getc | out | input | halt => rfl

/-- A string is read up to its end. -/
theorem memory_begin_string (ht : t = .puts ∨ t = .putsp) (h : Hardware) (s : σ) :
    ∃ n, h.memory.EndsAt (h.registers.get 0) n ∧
      (t.begin h s).hardware.memory = h.memory.sweep (h.registers.get 0) (n + 1) := by
  obtain ⟨n, hn, -⟩ := Memory.exists_endsAt h.memory (h.registers.get 0)
  have hlength : (h.memory.readString (h.registers.get 0)).1.length = n := by
    rw [hn.readString_eq, List.length_map, List.length_range]
  have haccesses : t.accesses h = Access.sweep (h.registers.get 0) (n + 1) := by
    rw [← hlength]
    rcases ht with rfl | rfl <;> rfl
  refine ⟨n, hn, ?_⟩
  rw [memory_begin, haccesses, Access.performAll_sweep]

/-- Whatever a routine reads before it asks for a key, ordinary cells stay as they are. -/
theorem peek_begin (t : TrapRoutine) (h : Hardware) (s : σ) {a : Word}
    (hs : a ≠ Memory.statusAddress) (hd : a ≠ Memory.dataAddress) :
    (t.begin h s).hardware.memory.peek a = h.memory.peek a := by
  rw [memory_begin, Access.peek_performAll]
  unfold Effect.settle
  rw [Effect.filterMap_leaves? hs hd, t.stored_accesses h h.memory]
  rfl

/-- The ways in which a routine fails whose keyboard changes by `g` while it waits. -/
inductive Failure (t : TrapRoutine) (h : Hardware) (g : Keyboard → Keyboard) (s : σ) :
    Fault → TrapRun σ → Prop
  /-- The console has refused the message of the first part. -/
  | message {e : IoError} (hflow : (t.begin h s).flow = .fail (.output e)) :
      Failure t h g s (.output e) ((t.begin h s).onKeyboard g)
  /-- There is no key, and none can come. -/
  | noKey {echo : Bool} {fault : Fault} (hflow : (t.begin h s).flow = .awaitKey echo)
      (hread : (g h.memory.keyboard).read.1 = .failed fault) :
      Failure t h g s fault ⟨.fail fault, h.onKeyboard g, (t.begin h s).sink⟩
  /-- The console has refused the echo of a key. -/
  | echo {ch : Word} {rest : Keyboard} {e : IoError}
      (hflow : (t.begin h s).flow = .awaitKey true)
      (hread : (g h.memory.keyboard).read = (.character ch, rest))
      (hecho : (ByteSink.emit [ch.low] (t.begin h s).sink).1 = .error e) :
      Failure t h g s (.output e) ⟨.fail (.output e), accept h ch rest,
        (ByteSink.emit [ch.low] (t.begin h s).sink).2⟩

/-- **There are no other ways to fail.** -/
theorem failure {g : Keyboard → Keyboard} {fault : Fault}
    (hf : ((t.begin h s).onKeyboard g).resume.flow = .fail fault) :
    t.Failure h g s fault ((t.begin h s).onKeyboard g).resume := by
  cases hflow : (t.begin h s).flow with
  | proceed | stop | fail _ =>
    -- the routine has ended with its first part
    have hresume : ((t.begin h s).onKeyboard g).resume = (t.begin h s).onKeyboard g := by
      refine TrapRun.resume_of_ne fun echo hwait => ?_
      exact absurd (hflow.symm.trans hwait) Flow.noConfusion
    rw [hresume] at hf ⊢
    obtain ⟨e, rfl⟩ := fault_begin hf
    exact .message hf
  | awaitKey echo =>
    have hhardware : (t.begin h s).hardware = h := by
      rcases of_awaitKey hflow with ⟨-, -, hbegin⟩ | ⟨-, -, -, hbegin⟩
      · rw [hbegin]
      · rw [hbegin]
    have hresume : ((t.begin h s).onKeyboard g).resume =
        receive echo (h.onKeyboard g) (t.begin h s).sink := by
      unfold TrapRun.resume TrapRun.onKeyboard
      rw [hflow, hhardware]
    rw [hresume] at hf ⊢
    rcases hr : (g h.memory.keyboard).read with ⟨key, rest⟩
    have hr' : (h.onKeyboard g).memory.keyboard.read = (key, rest) := hr
    cases key with
    | waiting =>
      rw [receive_waiting hr'] at hf
      cases hf
    | failed fault' =>
      rw [receive_failed hr'] at hf ⊢
      obtain rfl : fault' = fault := Flow.fail.inj hf
      exact .noKey hflow (congrArg Prod.fst hr)
    | character ch =>
      rw [receive_character hr'] at hf ⊢
      cases echo with
      | false => cases hf
      | true =>
        cases hm : (ByteSink.emit [ch.low] (t.begin h s).sink).1 with
        | ok _ =>
          rw [if_pos rfl, emit_ok hm] at hf
          cases hf
        | error e =>
          rw [if_pos rfl, emit_error hm] at hf ⊢
          obtain rfl : Fault.output e = fault := Flow.fail.inj hf
          exact .echo hflow hr hm

/-- The prompt of a routine is visible and a key is there, but the console refuses its echo. -/
structure EchoFails (s : σ) (k : Keyboard) (ch : Word) (rest : Keyboard) (e : IoError) : Prop where
  prompt : (ByteSink.emit TrapRoutine.prompt s).1 = .ok ()
  key : k.next? = some (ch, rest)
  echo : (ByteSink.emit [ch.low] (ByteSink.emit TrapRoutine.prompt s).2).1 = .error e

/-- **A routine that fails has done nothing**, unless it has read a string or its echo has failed. -/
theorem Failure.hardware_eq {g : Keyboard → Keyboard} {fault : Fault} {r : TrapRun σ}
    (hfail : t.Failure h g s fault r) (hputs : t ≠ .puts) (hputsp : t ≠ .putsp) :
    r.hardware = h.onKeyboard g ∨
      t = .input ∧ ∃ ch rest e, EchoFails s (g h.memory.keyboard) ch rest e := by
  cases hfail with
  | message hflow =>
    have hbegin : (t.begin h s).hardware = h := by
      calc (t.begin h s).hardware
          = ⟨(t.begin h s).hardware.registers, (t.begin h s).hardware.memory⟩ := rfl
        _ = ⟨h.registers, h.memory⟩ := by
          rw [registers_begin, memory_begin_of_ne hputs hputsp]
    exact .inl (congrArg (Hardware.onKeyboard g) hbegin)
  | noKey _ _ => exact .inl rfl
  | @echo ch rest e hflow hread hecho =>
    rcases of_awaitKey hflow with ⟨-, hfalse, -⟩ | ⟨rfl, -, hprompt, hbegin⟩
    · cases hfalse
    · rw [hbegin] at hecho
      exact .inr ⟨rfl, ch, rest, e, hprompt, Keyboard.next?_of_read hread, hecho⟩

/-- A key that is to be shown is taken before it is shown. -/
theorem resume_input {g : Keyboard → Keyboard} {ch : Word} {rest : Keyboard}
    (hprompt : (ByteSink.emit prompt s).1 = .ok ())
    (hn : (g h.memory.keyboard).next? = some (ch, rest)) :
    ((input.begin h s).onKeyboard g).resume =
      emit [ch.low] .proceed (accept h ch rest) (ByteSink.emit prompt s).2 := by
  have hbegin : input.begin h s = ⟨.awaitKey true, h, (ByteSink.emit prompt s).2⟩ :=
    emit_ok hprompt (.awaitKey true) h
  have hread : (h.onKeyboard g).memory.keyboard.read = (.character ch, rest) :=
    Keyboard.read_of_next? hn
  calc ((input.begin h s).onKeyboard g).resume
      = receive true (h.onKeyboard g) (ByteSink.emit prompt s).2 := by rw [hbegin]; rfl
    _ = emit [ch.low] .proceed (accept h ch rest) (ByteSink.emit prompt s).2 := by
      rw [receive_character hread]
      rfl

/-- A routine that shows a key has shown one, or it has failed or waits. -/
theorem input_cases (g : Keyboard → Keyboard) (h : Hardware) (s : σ) :
    (∃ ch rest, (g h.memory.keyboard).next? = some (ch, rest) ∧
      (ByteSink.emit prompt s).1 = .ok () ∧
      (ByteSink.emit [ch.low] (ByteSink.emit prompt s).2).1 = .ok () ∧
      ((input.begin h s).onKeyboard g).resume =
        ⟨.proceed, accept h ch rest, (ByteSink.emit [ch.low] (ByteSink.emit prompt s).2).2⟩) ∨
      (∃ fault, ((input.begin h s).onKeyboard g).resume.flow = .fail fault) ∨
      ∃ echo, ((input.begin h s).onKeyboard g).resume.flow = .awaitKey echo := by
  cases hprompt : (ByteSink.emit prompt s).1 with
  | error e =>
    have hbegin : input.begin h s = ⟨.fail (.output e), h, (ByteSink.emit prompt s).2⟩ :=
      emit_error hprompt (.awaitKey true) h
    rw [hbegin]
    exact .inr (.inl ⟨.output e, rfl⟩)
  | ok _ =>
    have hbegin : input.begin h s = ⟨.awaitKey true, h, (ByteSink.emit prompt s).2⟩ :=
      emit_ok hprompt (.awaitKey true) h
    have hresume : ((input.begin h s).onKeyboard g).resume =
        receive true (h.onKeyboard g) (ByteSink.emit prompt s).2 := by
      rw [hbegin]
      rfl
    rcases hr : (h.onKeyboard g).memory.keyboard.read with ⟨key, rest⟩
    cases key with
    | waiting =>
      rw [hresume, receive_waiting hr]
      exact .inr (.inr ⟨true, rfl⟩)
    | failed fault =>
      rw [hresume, receive_failed hr]
      exact .inr (.inl ⟨fault, rfl⟩)
    | character ch =>
      have hn : (g h.memory.keyboard).next? = some (ch, rest) := Keyboard.next?_of_read hr
      rw [resume_input hprompt hn]
      cases hecho : (ByteSink.emit [ch.low] (ByteSink.emit prompt s).2).1 with
      | ok _ => exact .inl ⟨ch, rest, hn, rfl, hecho, emit_ok hecho .proceed _⟩
      | error e =>
        rw [emit_error hecho]
        exact .inr (.inl ⟨.output e, rfl⟩)

/-- The character in R0 is one of eight bits. -/
theorem toNat_get_accept (h : Hardware) (ch : Word) (rest : Keyboard) :
    ((accept h ch rest).registers.get 0).toNat = ch.toNat % 256 := by
  change ((h.registers.set 0 (.ofByte ch.low)).get 0).toNat = _
  rw [Registers.get_set_self, Word.toNat_ofByte, Word.toNat_low]

/-- A routine that shows no key does not use the console. -/
theorem sink_getc (g : Keyboard → Keyboard) (h : Hardware) (s : σ) :
    ((getc.begin h s).onKeyboard g).resume.sink = s := by
  change (receive false (h.onKeyboard g) s).sink = s
  rcases hr : (h.onKeyboard g).memory.keyboard.read with ⟨key, rest⟩
  cases key with
  | waiting => rw [receive_waiting hr]
  | failed fault => rw [receive_failed hr]
  | character ch =>
    rw [receive_character hr]
    rfl

end TrapRoutine

namespace Machine

variable {σ : Type} [ByteSink σ] {m : Machine} {t : TrapRoutine} {s : σ}

/-- **A call that fails** leaves behind what its routine has left, on a machine that is halted. -/
theorem Steps.failed_call {f : Keyboard → Keyboard} {fs : Changes} {c : Cycle σ} {fault : Fault}
    (h : m.Steps s (f :: fs) c) (ht : (m.onKeyboard f).Calls t)
    (hp : c.phase = .done (.failed fault)) :
    ∃ r, t.Failure (m.calling f) fs.apply s fault r ∧ c.machine = ⟨r.hardware, .halted⟩ := by
  obtain ⟨rfl, -⟩ := h.of_calls ht
  have hflow := Cycle.flow_of_fault hp
  refine ⟨_, TrapRoutine.failure hflow, ?_⟩
  unfold Cycle.ofTrapRun
  rw [hflow]
  rfl

/-- A call whose first message the console refuses fails at once, whatever it would have led to. -/
theorem steps_iff_of_refused {f : Keyboard → Keyboard} (ht : (m.onKeyboard f).Calls t)
    {message : List Byte} {next : Flow}
    (hbegin : t.begin (m.calling f) s = TrapRoutine.emit message next (m.calling f) s) {e : IoError}
    (he : (ByteSink.emit message s).1 = .error e) {fs : Changes} {c : Cycle σ} :
    m.Steps s (f :: fs) c ↔ fs = [] ∧
      c = .failed ⟨m.calling f, .running⟩ (ByteSink.emit message s).2
        [.fetched m.registers.pc ⟨(m.onKeyboard f).fetched⟩] (.output e) := by
  have hrun : t.begin (m.calling f) s =
      ⟨.fail (.output e), m.calling f, (ByteSink.emit message s).2⟩ :=
    hbegin.trans (TrapRoutine.emit_error he next (m.calling f))
  have hkey (echo : Bool) : (t.begin (m.calling f) s).flow ≠ .awaitKey echo := by
    rw [hrun]
    exact Flow.noConfusion
  have hcycle : Cycle.ofTrapRun m.registers.pc
      [.fetched m.registers.pc ⟨(m.onKeyboard f).fetched⟩] (t.begin (m.calling f) s) =
      .failed ⟨m.calling f, .running⟩ (ByteSink.emit message s).2
        [.fetched m.registers.pc ⟨(m.onKeyboard f).fetched⟩] (.output e) := by
    rw [hrun]
    rfl
  rw [steps_iff_of_calls ht hkey, hcycle]

/-- A call whose echo the console refuses. -/
theorem Steps.echo_failed {f : Keyboard → Keyboard} {fs : Changes} {c : Cycle σ}
    (h : m.Steps s (f :: fs) c) (ht : (m.onKeyboard f).Calls .input) {ch : Word} {rest : Keyboard}
    {e : IoError}
    (hfails : TrapRoutine.EchoFails s (Changes.apply (f :: fs) m.memory.keyboard) ch rest e) :
    c.phase = .done (.failed (.output e)) ∧
      c.machine = ⟨TrapRoutine.accept (m.calling f) ch rest, .halted⟩ := by
  obtain ⟨rfl, -⟩ := h.of_calls ht
  have hresume := TrapRoutine.resume_input (h := m.calling f) (g := Changes.apply fs)
    hfails.prompt hfails.key
  rw [hresume, TrapRoutine.emit_error hfails.echo]
  exact ⟨rfl, rfl⟩

/-- A call that has shown its key. -/
theorem Steps.echoed {f : Keyboard → Keyboard} {fs : Changes} {c : Cycle σ}
    (h : m.Steps s (f :: fs) c) (ht : (m.onKeyboard f).Calls .input)
    (hok : c.phase.fault? = none) :
    ∃ ch rest, (Changes.apply (f :: fs) m.memory.keyboard).next? = some (ch, rest) ∧
      (ByteSink.emit TrapRoutine.prompt s).1 = .ok () ∧
      (ByteSink.emit [ch.low] (ByteSink.emit TrapRoutine.prompt s).2).1 = .ok () ∧
      c.machine.toHardware = TrapRoutine.accept (m.calling f) ch rest ∧
      c.sink = (ByteSink.emit [ch.low] (ByteSink.emit TrapRoutine.prompt s).2).2 := by
  obtain ⟨o, ho, -⟩ := h.status
  obtain ⟨rfl, -⟩ := h.of_calls ht
  rcases TrapRoutine.input_cases (Changes.apply fs) (m.calling f) s with
    ⟨ch, rest, hn, hprompt, hecho, hresume⟩ | ⟨fault, hflow⟩ | ⟨echo, hflow⟩
  · rw [hresume]
    exact ⟨ch, rest, hn, hprompt, hecho, rfl, rfl⟩
  · -- a failure has a fault
    unfold Cycle.ofTrapRun at hok
    rw [hflow] at hok
    cases hok
  · -- and a call that waits has not returned
    unfold Cycle.ofTrapRun at ho
    rw [hflow] at ho
    cases ho

end Machine

/-! ### The statement -/

section Statement

variable {σ : Type} [ByteSink σ]

/-- What is left of the trap calls of a machine. The keyboard is `f` of what it was when the call
begins, and `Changes.apply (f :: fs)` of it when the call returns. -/
structure FailedCalls (m : Machine) (s : Recorded σ) : Prop where
  /-- Whatever has failed, the machine is halted, behind the call. -/
  halted : ∀ t f fs (c : Cycle (Recorded σ)) fault, (m.onKeyboard f).Calls t →
    m.Steps s (f :: fs) c → c.phase = .done (.failed fault) →
      c.machine.status = .halted ∧ c.machine.registers.pc = m.registers.pc + 1
  /-- Nothing else has happened to registers, memory and keyboard, unless the call has read a string
  or the echo of a key has failed. -/
  untouched : ∀ t f fs (c : Cycle (Recorded σ)) fault, (m.onKeyboard f).Calls t →
    m.Steps s (f :: fs) c → c.phase = .done (.failed fault) → t ≠ .puts → t ≠ .putsp →
      ((∀ r, c.machine.registers.get r = m.registers.get r) ∧
        c.machine.registers.condition = m.registers.condition ∧
        (∀ a, c.machine.memory.peek a = m.memory.peek a) ∧
        c.machine.memory.keyboard = Changes.apply (f :: fs) m.memory.keyboard) ∨
      t = .input ∧ ∃ ch rest e,
        TrapRoutine.EchoFails s (Changes.apply (f :: fs) m.memory.keyboard) ch rest e
  /-- A call for a string changes memory by the reads of the string, whether it fails or not, and
  registers not at all. -/
  strings : ∀ t f fs (c : Cycle (Recorded σ)), (m.onKeyboard f).Calls t →
    m.Steps s (f :: fs) c → t = .puts ∨ t = .putsp →
      (∀ r, c.machine.registers.get r = m.registers.get r) ∧
      c.machine.registers.condition = m.registers.condition ∧
      (∃ n, (m.onKeyboard f).memory.EndsAt (m.registers.get 0) n ∧
        c.machine.memory = (m.onKeyboard f).memory.sweep (m.registers.get 0) (n + 1)) ∧
      ∀ a, a ≠ 0xFE00 → a ≠ 0xFE02 → c.machine.memory.peek a = m.memory.peek a
  /-- If the echo fails, its key is gone, and R0 and the condition are as if it had not. -/
  echo : ∀ f fs (c : Cycle (Recorded σ)) ch rest e, (m.onKeyboard f).Calls .input →
    m.Steps s (f :: fs) c →
    TrapRoutine.EchoFails s (Changes.apply (f :: fs) m.memory.keyboard) ch rest e →
      c.phase = .done (.failed (.output e)) ∧
      (c.machine.registers.get 0).toNat = ch.toNat % 256 ∧
      c.machine.registers.condition = .ofWord (c.machine.registers.get 0) ∧
      (∀ r, r ≠ 0 → c.machine.registers.get r = m.registers.get r) ∧
      (∀ a, c.machine.memory.peek a = m.memory.peek a) ∧ c.machine.memory.keyboard = rest
  /-- If the prompt fails, nobody has asked for a key. -/
  prompt : ∀ f e, (m.onKeyboard f).Calls .input →
    (ByteSink.emit TrapRoutine.prompt s).1 = .error e →
      ∃ c : Cycle (Recorded σ), (∀ fs d, m.Steps s (f :: fs) d ↔ fs = [] ∧ d = c) ∧
        c.phase = .done (.failed (.output e)) ∧
        c.machine.memory.keyboard = f m.memory.keyboard
  /-- If the input has ended, there was no key to take. -/
  closed : ∀ t f fs (c : Cycle (Recorded σ)) fault, (m.onKeyboard f).Calls t →
    m.Steps s (f :: fs) c → c.phase = .done (.failed fault) →
    fault = .inputClosed ∨ fault = .interrupted →
      (t = .getc ∨ t = .input) ∧
      c.machine.memory.keyboard = Changes.apply (f :: fs) m.memory.keyboard ∧
      c.machine.memory.keyboard.available = [] ∧ c.machine.memory.keyboard.isOpen = false
  /-- A key that is not shown leaves no trace on the console. -/
  getc : ∀ f fs (c : Cycle (Recorded σ)), (m.onKeyboard f).Calls .getc →
    m.Steps s (f :: fs) c → c.sink = s
  /-- A program ends itself only if the console takes its message. -/
  halt : ∀ f, (m.onKeyboard f).Calls .halt →
    ∃ c : Cycle (Recorded σ), (∀ fs d, m.Steps s (f :: fs) d ↔ fs = [] ∧ d = c) ∧
      c.phase = .done (match (ByteSink.emit TrapRoutine.farewell s).1 with
        | .ok () => .halted
        | .error e => .failed (.output e))
  /-- A key that is shown is one key. -/
  input : ∀ f fs (c : Cycle (Recorded σ)), (m.onKeyboard f).Calls .input →
    m.Steps s (f :: fs) c → c.phase.fault? = none →
      ∃ ch rest, (Changes.apply (f :: fs) m.memory.keyboard).next? = some (ch, rest) ∧
        c.machine.memory.keyboard = rest ∧
        c.sink.output = s.output ++ TrapRoutine.prompt ++ [BitVec.ofNat 8 (ch.toNat % 256)] ∧
        (c.machine.registers.get 0).toNat = ch.toNat % 256

/-- **What failed trap calls leave behind**, for every machine and every console. -/
theorem failed_calls (m : Machine) (s : Recorded σ) : FailedCalls m s where
  halted t f fs c fault ht h hp := by
    obtain ⟨r, hfail, hmachine⟩ := h.failed_call ht hp
    have hpc : r.hardware.registers.pc = m.registers.pc + 1 := by
      cases hfail with
      | message _ => exact congrArg Registers.pc (TrapRoutine.registers_begin t (m.calling f) s)
      | noKey _ _ => rfl
      | echo _ _ _ => rfl
    rw [hmachine]
    exact ⟨rfl, hpc⟩
  untouched t f fs c fault ht h hp hputs hputsp := by
    obtain ⟨r, hfail, hmachine⟩ := h.failed_call ht hp
    rw [hmachine]
    refine (hfail.hardware_eq hputs hputsp).imp_left fun hhardware => ?_
    rw [hhardware]
    exact ⟨fun r => rfl, rfl, fun a => rfl, rfl⟩
  strings t f fs c ht h hstring := by
    have hkey (echo : Bool) : (t.begin (m.calling f) s).flow ≠ .awaitKey echo := by
      intro hflow
      rcases TrapRoutine.of_awaitKey hflow with ⟨rfl, -⟩ | ⟨rfl, -⟩
      · rcases hstring with ht | ht <;> cases ht
      · rcases hstring with ht | ht <;> cases ht
    obtain ⟨-, rfl⟩ := (Machine.steps_iff_of_calls ht hkey).1 h
    have hregisters := TrapRoutine.registers_begin t (m.calling f) s
    rw [Cycle.hardware_ofTrapRun, hregisters]
    refine ⟨fun r => rfl, rfl, TrapRoutine.memory_begin_string hstring (m.calling f) s, ?_⟩
    intro a hs hd
    exact TrapRoutine.peek_begin t (m.calling f) s hs hd
  echo f fs c ch rest e ht h hfails := by
    obtain ⟨hphase, hmachine⟩ := h.echo_failed ht hfails
    rw [hmachine]
    refine ⟨hphase, TrapRoutine.toNat_get_accept _ ch rest, ?_, ?_, fun a => rfl, rfl⟩
    · change Condition.ofWord _ = Condition.ofWord ((m.registers.advance.set 0 _).get 0)
      rw [Registers.get_set_self]
    · intro r hr
      exact (Registers.get_set _ 0 r _).trans (if_neg hr)
  prompt f e ht he := ⟨_, fun fs d => Machine.steps_iff_of_refused ht rfl he, rfl, rfl⟩
  closed t f fs c fault ht h hp hfault := by
    obtain ⟨r, hfail, hmachine⟩ := h.failed_call ht hp
    rw [hmachine]
    cases hfail with
    | message _ => rcases hfault with hfault | hfault <;> cases hfault
    | echo _ _ _ => rcases hfault with hfault | hfault <;> cases hfault
    | noKey hflow hread =>
      obtain ⟨hnone, hclosed, -⟩ := (Keyboard.read_failed_iff _ _).1 hread
      refine ⟨?_, rfl, hnone, hclosed⟩
      rcases TrapRoutine.of_awaitKey hflow with ⟨rfl, -⟩ | ⟨rfl, -⟩
      · exact .inl rfl
      · exact .inr rfl
  getc f fs c ht h := by
    obtain ⟨rfl, -⟩ := h.of_calls ht
    rw [Cycle.sink_ofTrapRun]
    exact TrapRoutine.sink_getc (Changes.apply fs) (m.calling f) s
  halt f ht := by
    cases hm : (ByteSink.emit TrapRoutine.farewell s).1 with
    | error e => exact ⟨_, fun fs d => Machine.steps_iff_of_refused ht rfl hm, rfl⟩
    | ok _ =>
      have hbegin : TrapRoutine.halt.begin (m.calling f) s =
          ⟨.stop, m.calling f, (ByteSink.emit TrapRoutine.farewell s).2⟩ :=
        TrapRoutine.emit_ok hm .stop (m.calling f)
      refine ⟨_, fun fs d => Machine.steps_iff_of_calls ht (fun echo => ?_), ?_⟩
      · rw [hbegin]
        exact Flow.noConfusion
      · rw [hbegin]
        rfl
  input f fs c ht h hok := by
    obtain ⟨ch, rest, hn, hprompt, hecho, hhardware, hsink⟩ := h.echoed ht hok
    have hbyte : ch.low = BitVec.ofNat 8 (ch.toNat % 256) := by
      rw [← Word.toNat_low, BitVec.ofNat_toNat, BitVec.setWidth_eq]
    have houtput : c.sink.output =
        s.output ++ TrapRoutine.prompt ++ [BitVec.ofNat 8 (ch.toNat % 256)] := by
      calc c.sink.output
          = (ByteSink.emit TrapRoutine.prompt s).2.output ++ [ch.low] := by
            rw [hsink]
            exact transmits_recorded.emit_ok trivial hecho
        _ = s.output ++ TrapRoutine.prompt ++ [BitVec.ofNat 8 (ch.toNat % 256)] := by
            rw [transmits_recorded.emit_ok trivial hprompt, hbyte]
            rfl
    rw [hhardware]
    exact ⟨ch, rest, hn, rfl, houtput, TrapRoutine.toNat_get_accept _ ch rest⟩

end Statement

/-- A machine that is to show a key, and the key is there. -/
def echoesOnce : Machine :=
  (Machine.initial (.channel [0x0141] false)).withMemory
    ((Memory.cleared (.channel [0x0141] false)).write 0x3000 0xF823)

-- the console has room for the prompt and for nothing else, and yet the key has got into R0
example :
    let c := echoesOnce.step (Recorded.start (⟨0, none, some 19, true, false⟩ : LimitedSink))
    c.phase = .done (.failed (.output ⟨.brokenPipe, "sink full"⟩)) ∧
      c.machine.registers.get 0 = 0x41 ∧ c.machine.registers.condition = .positive ∧
      c.machine.memory.keyboard = .channel [] false ∧ c.sink.output = TrapRoutine.prompt := by
  decide +kernel

end LC3
