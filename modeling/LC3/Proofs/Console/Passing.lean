import LC3.Proofs.Calls
import LC3.Proofs.Console.Delivery

/-!
# Consoles that pass everything on

A console may do nothing but to pass messages on to another one: a function `f` embeds the states of
the other console into its own, and a message has the same answer on both (`Passes`). A machine
cannot tell the two apart. What it does on `f s` is what it does on `s`, with `f` applied to the
console (`Cycle.mapSink`, `Run.mapSink`):

* for routines and for the parts of a cycle this is an equation (`Cycle.turn_mapSink`);
* for calls that return it is an equivalence, by induction along the call (`steps_mapSink_iff`,
  `executes_mapSink_iff`).

The example is a translating console whose translation is off (`Translating.passes`).
-/

namespace LC3

variable {σ τ : Type}

/-- The part of a routine on another console. -/
def TrapRun.mapSink (f : σ → τ) (r : TrapRun σ) : TrapRun τ := ⟨r.flow, r.hardware, f r.sink⟩

/-- The cycle on another console. -/
def Cycle.mapSink (f : σ → τ) (c : Cycle σ) : Cycle τ := ⟨c.phase, c.machine, f c.sink, c.log⟩

/-- The run on another console. -/
def Run.mapSink (f : σ → τ) (r : Run σ) : Run τ := ⟨r.ending, r.machine, f r.sink, r.log⟩

variable [ByteSink σ] [ByteSink τ]

/-- Messages have the same answers on both consoles, and lead to states that belong together. -/
def Passes (f : σ → τ) : Prop :=
  ∀ message s, ByteSink.emit message (f s) =
    ((ByteSink.emit message s).1, f (ByteSink.emit message s).2)

variable {f : σ → τ} (hf : Passes f)

include hf

/-! ### Routines -/

namespace TrapRoutine

theorem emit_mapSink (message : List Byte) (next : Flow) (h : Hardware) (s : σ) :
    emit message next h (f s) = (emit message next h s).mapSink f := by
  have hpass := hf message s
  cases hm : (ByteSink.emit message s).1 with
  | ok _ =>
    rw [emit_ok hm, emit_ok (by rw [hpass, hm]), hpass]
    rfl
  | error e =>
    rw [emit_error hm, emit_error (e := e) (by rw [hpass, hm]), hpass]
    rfl

theorem begin_mapSink (t : TrapRoutine) (h : Hardware) (s : σ) :
    t.begin h (f s) = (t.begin h s).mapSink f := by
  cases t with
  | getc => rfl
  | out | puts | input | putsp | halt => exact emit_mapSink hf _ _ _ s

theorem receive_mapSink (echo : Bool) (h : Hardware) (s : σ) :
    receive echo h (f s) = (receive echo h s).mapSink f := by
  rcases hr : h.memory.keyboard.read with ⟨key, rest⟩
  cases key with
  | character c =>
    rw [receive_character hr, receive_character hr]
    cases echo with
    | true => exact emit_mapSink hf _ _ _ s
    | false => rfl
  | failed fault =>
    rw [receive_failed hr, receive_failed hr]
    rfl
  | waiting =>
    rw [receive_waiting hr, receive_waiting hr]
    rfl

end TrapRoutine

/-! ### Parts of cycles -/

omit [ByteSink σ] [ByteSink τ] hf in
theorem Cycle.ofTrapRun_mapSink (f : σ → τ) (address : Word) (log : List Event) (r : TrapRun σ) :
    ofTrapRun address log (r.mapSink f) = (ofTrapRun address log r).mapSink f := by
  obtain ⟨flow, hardware, sink⟩ := r
  cases flow <;> rfl

theorem Machine.begin_mapSink (m : Machine) (s : σ) : m.begin (f s) = (m.begin s).mapSink f := by
  cases hs : m.status with
  | halted =>
    rw [begin_halted hs, begin_halted hs]
    rfl
  | running =>
    cases hi : m.memory.keyboard.interrupted with
    | true =>
      rw [begin_interrupted hs hi, begin_interrupted hs hi]
      rfl
    | false =>
      rw [begin_running hs hi, begin_running hs hi]
      refine dispatch_cases (i := m.fetch.1) (h := m.fetch.2) ?execute ?trap ?badTrap ?invalid
      case execute =>
        intro h' hx
        rw [dispatch_execute hx, dispatch_execute hx]
        rfl
      case trap =>
        intro t ho ht
        rw [dispatch_trap ho ht, dispatch_trap ho ht, t.begin_mapSink hf,
          Cycle.ofTrapRun_mapSink]
      case badTrap =>
        intro ho ht
        rw [dispatch_badTrap ho ht, dispatch_badTrap ho ht]
        rfl
      case invalid =>
        intro ho
        rw [dispatch_invalid ho, dispatch_invalid ho]
        rfl

/-- **A part of a cycle does the same on both consoles.** -/
theorem Cycle.turn_mapSink (c : Cycle σ) : (c.mapSink f).turn = c.turn.mapSink f := by
  cases hp : c.phase with
  | done o =>
    have hp' : (c.mapSink f).phase = .done o := hp
    rw [turn_done hp, turn_done hp']
    exact c.machine.begin_mapSink hf c.sink
  | awaitKey address echo =>
    have hp' : (c.mapSink f).phase = .awaitKey address echo := hp
    rw [turn_awaitKey hp, turn_awaitKey hp', resume_awaitKey hp, resume_awaitKey hp']
    change ofTrapRun address c.log
      (TrapRoutine.receive echo c.machine.toHardware (f c.sink)) = _
    rw [TrapRoutine.receive_mapSink hf, ofTrapRun_mapSink]

/-! ### Calls -/

theorem Cycle.Ends.mapSink {c d : Cycle σ} {fs : Changes} (h : c.Ends fs d) :
    (c.mapSink f).Ends fs (d.mapSink f) := by
  induction h with
  | done hp => exact .done hp
  | @turn c _ _ _ g _ hp hd ih =>
    refine .turn hp ?_
    change ((c.onKeyboard g).mapSink f).turn.Ends _ _
    rw [turn_mapSink hf]
    exact ih

/-- What a cycle comes to on the one console, it comes to on the other. -/
theorem Cycle.ends_mapSink_iff {c : Cycle σ} {d' : Cycle τ} {fs : Changes} :
    (c.mapSink f).Ends fs d' ↔ ∃ d, c.Ends fs d ∧ d' = d.mapSink f := by
  constructor
  · intro h
    induction fs generalizing c with
    | nil =>
      cases h with
      | done hp => exact ⟨c, .done hp, rfl⟩
    | cons g fs ih =>
      cases h with
      | turn hp hd =>
        change ((c.onKeyboard g).mapSink f).turn.Ends fs d' at hd
        rw [turn_mapSink hf] at hd
        obtain ⟨d, hends, rfl⟩ := ih hd
        exact ⟨d, .turn hp hends, rfl⟩
  · rintro ⟨d, hd, rfl⟩
    exact hd.mapSink hf

namespace Machine

variable {m : Machine} {s : σ}

theorem steps_mapSink_iff {c' : Cycle τ} {fs : Changes} :
    m.Steps (f s) fs c' ↔ ∃ c, m.Steps s fs c ∧ c' = c.mapSink f := by
  have hready (g : Keyboard → Keyboard) :
      ((m.ready (f s)).onKeyboard g).turn = ((m.ready s).onKeyboard g).turn.mapSink f :=
    Cycle.turn_mapSink hf ((m.ready s).onKeyboard g)
  constructor
  · intro h
    cases h with
    | halted hs => exact ⟨_, .halted hs, rfl⟩
    | @running g _ _ hs hc =>
      rw [hready g, Cycle.ends_mapSink_iff hf] at hc
      obtain ⟨c, hc, rfl⟩ := hc
      exact ⟨c, .running hs hc, rfl⟩
  · rintro ⟨c, h, rfl⟩
    cases h with
    | halted hs => exact .halted hs
    | @running g _ _ hs hc =>
      refine .running hs ?_
      rw [hready g]
      exact hc.mapSink hf

theorem Executes.mapSink {r : Run σ} {fs : Changes} (h : m.Executes s fs r) :
    m.Executes (f s) fs (r.mapSink f) := by
  induction h with
  | halted hs => exact .halted hs
  | failed hs hc hfault => exact .failed hs ((steps_mapSink_iff hf).2 ⟨_, hc, rfl⟩) hfault
  | goesOn hs hc hfault hr ih =>
    exact .goesOn hs ((steps_mapSink_iff hf).2 ⟨_, hc, rfl⟩) hfault ih

/-- **A run comes to the same on both consoles.** -/
theorem executes_mapSink_iff {r' : Run τ} {fs : Changes} :
    m.Executes (f s) fs r' ↔ ∃ r, m.Executes s fs r ∧ r' = r.mapSink f := by
  constructor
  · intro h
    -- the induction is over a run on the other console, wherever that one comes from
    generalize ht : f s = t at h
    induction h generalizing s with
    | halted hs =>
      subst ht
      exact ⟨_, .halted hs, rfl⟩
    | failed hs hc hfault =>
      subst ht
      obtain ⟨c, hsteps, rfl⟩ := (steps_mapSink_iff hf).1 hc
      exact ⟨_, .failed hs hsteps hfault, rfl⟩
    | goesOn hs hc hfault hr ih =>
      subst ht
      obtain ⟨c, hsteps, rfl⟩ := (steps_mapSink_iff hf).1 hc
      obtain ⟨r, hrest, rfl⟩ := ih rfl
      exact ⟨r.behind c.log, .goesOn hs hsteps hfault hrest, rfl⟩
  · rintro ⟨r, h, rfl⟩
    exact h.mapSink hf

end Machine

omit hf [ByteSink τ] in
/-- **Without translation a translating console passes everything on.** -/
theorem Translating.passes : Passes fun s : σ => (⟨s, false⟩ : Translating σ) := by
  intro message s
  have hwrite := writeAll_of_disabled message (⟨s, false⟩ : Translating σ) rfl
  unfold ByteSink.emit
  rw [hwrite]
  rcases hw : ByteSink.writeAll message s with ⟨answer, s'⟩
  cases answer with
  | ok _ => rfl
  | error e => rfl

end LC3
