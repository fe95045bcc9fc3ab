import LC3.Proofs.Console.Visibility
import LC3.Proofs.Ending

/-!
# What a run reports

Two things tell why a run is over: its result and its log. Both are measured here by the words that
the run has fetched, each with the console as it was then.

* `Fetch.EndsProgram` — the word is the call of the routine that ends the program, and its message
  has arrived and can be seen.
* `Displays.executes_halted_iff` — the program has ended a run if and only if the last word of the
  run is such a call.
* `ending_reported` — the statement as a whole.

A call of this routine never goes on: either its message is shown, or the console fails
(`Steps.of_halt`). So no such call stands before the last word of a run.
-/

namespace LC3

variable {τ : Type} [ByteSink τ]

/-! ### The word that ends a program -/

/-- The word calls the routine that ends the program. -/
def Fetch.IsHalt (x : Fetch τ) : Prop :=
  x.word.toNat / 2 ^ 12 = 15 ∧ x.word.toNat % 2 ^ 8 = 0x25

omit [ByteSink τ] in
theorem Fetch.isHalt_iff (x : Fetch τ) : x.IsHalt ↔ (Instruction.mk x.word).IsHalt := by
  have hvector : (Instruction.mk x.word).trapVector = 0x25 ↔ x.word.toNat % 2 ^ 8 = 0x25 := by
    rw [← BitVec.toNat_inj, Instruction.toNat_trapVector]
    rfl
  unfold IsHalt Instruction.IsHalt
  rw [hvector, Instruction.operation_eq_iff]
  rfl

/-- The word has ended a program, which has left a program counter and a console: it stands right
before the program counter, and its whole message has arrived and can be seen. -/
structure Fetch.EndsProgram (message : List Byte) (received unseen : τ → List Byte) (x : Fetch τ)
    (pc : Word) (s : τ) : Prop where
  address : x.address = pc - 1
  halt : x.IsHalt
  arrived : received s = received x.sink ++ message
  seen : unseen s = []

namespace Machine

variable {m : Machine} {s : τ}

/-- **What the call of this routine comes to**: it prints the message and stops. -/
theorem Steps.of_halt {fs : Changes} {c : Cycle τ} (h : m.Steps s fs c) {x : Fetch τ}
    (hx : x ∈ m.fetchesDuring s fs) (hhalt : x.IsHalt) :
    m.fetchesDuring s fs = [x] ∧ x.sink = s ∧ ∃ hardware : Hardware,
      x.address = hardware.registers.pc - 1 ∧
        c = .ofTrapRun x.address [x.event]
          (TrapRoutine.emit TrapRoutine.farewell .stop hardware s) := by
  cases h with
  | halted hs =>
    -- nothing is fetched where the keyboard does not change
    cases hx
  | @running f fs c hs hc =>
    have hends : ((m.onKeyboard f).begin s).Ends fs c := hc
    rw [fetchesDuring_cons hends] at hx ⊢
    cases hi : (m.onKeyboard f).memory.keyboard.interrupted with
    | true =>
      rw [fetches_of_interrupted hi] at hx
      cases hx
    | false =>
      rw [fetches_of_fetching (m := m.onKeyboard f) hs hi] at hx ⊢
      obtain rfl := List.mem_singleton.1 hx
      have hcalls : (m.onKeyboard f).Calls .halt := ⟨hs, hi, hhalt.1, hhalt.2⟩
      have hkey (echo : Bool) :
          (TrapRoutine.halt.begin (m.calling f) s).flow ≠ .awaitKey echo := by
        intro hflow
        rcases TrapRoutine.of_awaitKey hflow with ⟨ht, -⟩ | ⟨ht, -⟩
        · cases ht
        · cases ht
      obtain ⟨-, hcycle⟩ := (steps_iff_of_calls hcalls hkey).1 (.running hs hc)
      refine ⟨rfl, rfl, m.calling f, ?_, hcycle⟩
      exact (BitVec.add_sub_cancel m.registers.pc 1).symm

/-- Behind an instruction that has ended the program stands such a call. -/
theorem Steps.exists_isHalt {fs : Changes} {c : Cycle τ} (h : m.Steps s fs c)
    (hs : m.status = .running) (hp : c.phase = .done .halted) :
    ∃ x ∈ m.fetchesDuring s fs, x.IsHalt := by
  obtain ⟨address, i, hi, hlog⟩ := h.log_of_halted hs hp
  have hlogs : c.log = _ := h.logs hs
  rw [hp, hlog] at hlogs
  -- both logs are words and the end of the program
  have hboth : [Event.fetched address i] ++ [.halted address] =
      (m.fetchesDuring s fs).map Fetch.event ++ [.halted (c.machine.registers.pc - 1)] := hlogs
  obtain ⟨hword, -⟩ := List.append_inj' hboth rfl
  obtain ⟨x, hx, hevent⟩ := List.map_eq_singleton_iff.1 hword.symm
  refine ⟨x, ?_, ?_⟩
  · rw [hx]
    exact List.mem_singleton_self x
  · rw [x.isHalt_iff]
    cases hevent
    exact hi

end Machine

namespace Displays

open Machine

variable {I : τ → Prop} {T : List Byte → List Byte} {received unseen : τ → List Byte}
  (law : Displays I T received unseen) (hne : T TrapRoutine.farewell ≠ [])
  {m : Machine} {s : τ}

include law hne

/-- Whether such a call has ended the program can be told from the console. -/
theorem of_halt {fs : Changes} {c : Cycle τ} (h : m.Steps s fs c) (hI : I s) {x : Fetch τ}
    (hx : x ∈ m.fetchesDuring s fs) (hhalt : x.IsHalt) :
    m.fetchesDuring s fs = [x] ∧ c.phase ≠ .done .running ∧
      (c.phase = .done .halted ↔
        x.EndsProgram (T TrapRoutine.farewell) received unseen c.machine.registers.pc c.sink) := by
  obtain ⟨hall, rfl, hardware, haddress, hcycle⟩ := h.of_halt hx hhalt
  refine ⟨hall, ?_⟩
  have hshown := law.emit_ok_iff hI hne
  cases hm : (ByteSink.emit TrapRoutine.farewell x.sink).1 with
  | ok _ =>
    obtain ⟨harrived, hseen⟩ := hshown.1 hm
    rw [hcycle, TrapRoutine.emit_ok hm]
    refine ⟨nofun, fun _ => ⟨haddress, hhalt, harrived, hseen⟩, fun _ => rfl⟩
  | error e =>
    rw [hcycle, TrapRoutine.emit_error hm]
    refine ⟨nofun, nofun, fun hends => ?_⟩
    -- a message that has arrived and can be seen was sent
    have hok := hshown.2 ⟨hends.arrived, hends.seen⟩
    cases hok.symm.trans hm

/-- **An instruction ends the program** if and only if it is such a call. -/
theorem steps_halted_iff {fs : Changes} {c : Cycle τ} (h : m.Steps s fs c)
    (hs : m.status = .running) (hI : I s) :
    c.phase = .done .halted ↔ ∃ x, m.fetchesDuring s fs = [x] ∧
      x.EndsProgram (T TrapRoutine.farewell) received unseen c.machine.registers.pc c.sink := by
  constructor
  · intro hp
    obtain ⟨x, hx, hhalt⟩ := h.exists_isHalt hs hp
    obtain ⟨hall, -, hiff⟩ := law.of_halt hne h hI hx hhalt
    exact ⟨x, hall, hiff.1 hp⟩
  · rintro ⟨x, hall, hends⟩
    have hx : x ∈ m.fetchesDuring s fs := hall ▸ List.mem_singleton_self x
    obtain ⟨-, -, hiff⟩ := law.of_halt hne h hI hx hends.halt
    exact hiff.2 hends

/-- **The program has ended a run** if and only if the last word of the run is such a call. -/
theorem executes_halted_iff {fs : Changes} {r : Run τ} (h : m.Executes s fs r)
    (hs : m.status = .running) (hI : I s) :
    r.ending = .halted ↔ ∃ x, (m.fetchesDuring s fs).getLast? = some x ∧
      x.EndsProgram (T TrapRoutine.farewell) received unseen r.machine.registers.pc r.sink := by
  revert hI
  refine Executes.running_induction (motive := fun m s fs r => I s → (r.ending = .halted ↔
    ∃ x, (m.fetchesDuring s fs).getLast? = some x ∧
      x.EndsProgram (T TrapRoutine.farewell) received unseen r.machine.registers.pc r.sink))
    ?halted ?failed ?goesOn h hs
  case halted =>
    intro m s fs c hs hc hp hI
    obtain ⟨x, hall, hends⟩ := (law.steps_halted_iff hne hc hs hI).1 hp
    refine ⟨fun _ => ⟨x, ?_, hends⟩, fun _ => rfl⟩
    rw [hall]
    rfl
  case failed =>
    intro m s fs c fault hs hc hp hI
    refine ⟨nofun, ?_⟩
    rintro ⟨x, hlast, hends⟩
    -- the instruction would have ended the program
    obtain ⟨-, -, hiff⟩ := law.of_halt hne hc hI (List.mem_of_getLast? hlast) hends.halt
    cases hp.symm.trans (hiff.2 hends)
  case goesOn =>
    intro m s fs gs c r hs hc hp ih hI
    rw [hc.fetchesDuring_append gs, List.getLast?_append]
    show r.ending = .halted ↔ _
    rw [ih (law.keeps_steps hc hI)]
    cases hlast : (c.machine.fetchesDuring c.sink gs).getLast? with
    | some y => rfl
    | none =>
      -- the run was ended without another word, and this one is not such a call
      refine ⟨fun ⟨x, hx, _⟩ => (by cases hx), ?_⟩
      rintro ⟨x, hx, hends⟩
      have hmem : x ∈ m.fetchesDuring s fs := List.mem_of_getLast? hx
      obtain ⟨-, hgoes, -⟩ := law.of_halt hne hc hI hmem hends.halt
      exact absurd hp hgoes

end Displays

/-! ### The statement -/

/-- A line of the log, as a listener gets it. -/
def Event.line (e : Event) : Level × String := (e.level, e.text)

/-- The line that shows a word. -/
def Fetch.line (x : Fetch τ) : Level × String :=
  (.trace, s!"{x.address.hex}: {(Instruction.mk x.word).describe}")

/-- The result of a run that has fetched the given words, its log and its console agree. -/
structure Run.Reported (message : List Byte) (received unseen : τ → List Byte)
    (words : List (Fetch τ)) (r : Run τ) : Prop where
  /-- The program has ended the run if and only if there is a last word and this word has. -/
  halted_iff : r.ending = .halted ↔ ∃ x, words.getLast? = some x ∧
    x.EndsProgram message received unseen r.machine.registers.pc r.sink
  /-- Then its message is the last that has arrived, and the log says where, behind the words. -/
  halted : r.ending = .halted → message <:+ received r.sink ∧ r.log.map Event.line =
    words.map Fetch.line ++
      [(.info, s!"Program halted at {(r.machine.registers.pc - 1).hex}")]
  /-- Otherwise the run has failed, and the log says why, behind the words. -/
  failed : r.ending ≠ .halted → ∃ fault, r.ending = .failed fault ∧ r.log.map Event.line =
    words.map Fetch.line ++ [(.debug, s!"Halting after fatal error: {fault.message}")]
  /-- In both cases what was logged before is the words in order, each with its address. -/
  traces : r.log.filter (fun e => e.level = .trace) = words.map Fetch.event

/-- **Why a run ended is reported truthfully**, on every console that displays what it receives. -/
theorem Displays.reported {I : τ → Prop} {T : List Byte → List Byte}
    {received unseen : τ → List Byte} (law : Displays I T received unseen)
    (hne : T TrapRoutine.farewell ≠ []) {m : Machine} {s : τ} {fs : Changes} {r : Run τ}
    (h : m.Executes s fs r) (hs : m.status = .running) (hI : I s) :
    r.Reported (T TrapRoutine.farewell) received unseen (m.fetchesDuring s fs) := by
  have hlog := h.log_eq hs
  have hlines : ((m.fetchesDuring s fs).map Fetch.event).map Event.line =
      (m.fetchesDuring s fs).map Fetch.line := List.map_map
  have hiff := law.executes_halted_iff hne h hs hI
  refine ⟨hiff, ?halted, ?failed, ?traces⟩
  case halted =>
    intro hend
    obtain ⟨x, -, hends⟩ := hiff.1 hend
    constructor
    · rw [hends.arrived]
      exact List.suffix_append _ _
    · rw [hlog, hend, List.map_append, hlines]
      rfl
  case failed =>
    intro hend
    obtain ⟨fault, hfault⟩ := h.ended.2.resolve_left hend
    refine ⟨fault, hfault, ?_⟩
    rw [hlog, hfault, List.map_append, hlines]
    rfl
  case traces =>
    have hwords : ∀ e ∈ (m.fetchesDuring s fs).map Fetch.event, decide (e.level = .trace) :=
      List.forall_mem_map.2 fun x _ => rfl
    rw [hlog, List.filter_append, List.filter_eq_self.2 hwords, r.ending.filter_lastEvents,
      List.append_nil]

/-- **Why a run ended is reported truthfully**, for every machine that runs and every sink, used
directly or behind a translating one. -/
theorem ending_reported {σ : Type} [ByteSink σ] (m : Machine) (hs : m.status = .running)
    (inner : σ) :
    (∀ fs r, m.Executes (Recorded.start inner) fs r →
      r.Reported (asciiBytes "\nHALT\n") Recorded.output Recorded.unflushed
        (m.fetchesDuring (Recorded.start inner) fs)) ∧
    ∀ raw fs r, m.Executes (⟨Recorded.start inner, raw⟩ : Translating (Recorded σ)) fs r →
      r.Reported (if raw then asciiBytes "\r\nHALT\r\n" else asciiBytes "\nHALT\n")
        (fun d => d.inner.output) (fun d => d.inner.unflushed)
        (m.fetchesDuring ⟨Recorded.start inner, raw⟩ fs) := by
  constructor
  · intro fs r h
    exact displays_recorded.reported (by decide) h hs trivial
  · intro raw fs r h
    cases raw with
    | true => exact (displays_translating true).reported (by decide) h hs rfl
    | false => exact (displays_translating false).reported (by decide) h hs rfl

/-- A machine that is about to call the routine that ends the program. -/
def aboutToHalt : Machine :=
  (Machine.initial (.channel [] true)).withMemory
    ((Memory.cleared (.channel [] true)).write 0x3000 0xF025)

/-- The console takes the whole message in pieces but cannot make it visible. So the program has not
ended by itself. -/
theorem ending_reported_unflushed :
    let s : Translating (Recorded LimitedSink) :=
      ⟨Recorded.start ⟨1, some 3, none, true, true⟩, true⟩
    let c := aboutToHalt.begin s
    let r : Run _ := ⟨.failed (.output ⟨.other, "flush failed"⟩), c.machine, c.sink, c.log⟩
    (aboutToHalt.status = .running ∧ aboutToHalt.Executes s [id] r) ∧
      r.sink.inner.output = asciiBytes "\r\nHALT\r\n" ∧
      r.Reported (asciiBytes "\r\nHALT\r\n") (fun d => d.inner.output)
        (fun d => d.inner.unflushed) (aboutToHalt.fetchesDuring s [id]) := by
  intro s c r
  have hphase : c.phase = .done (.failed (.output ⟨.other, "flush failed"⟩)) := by decide +kernel
  have hsteps : aboutToHalt.Steps s [id] c := .running rfl (.done hphase)
  have hexecutes : aboutToHalt.Executes s [id] r :=
    .failed rfl hsteps (congrArg Phase.fault? hphase)
  exact ⟨⟨rfl, hexecutes⟩, by decide +kernel,
    (ending_reported aboutToHalt rfl _).2 true [id] r hexecutes⟩

end LC3
