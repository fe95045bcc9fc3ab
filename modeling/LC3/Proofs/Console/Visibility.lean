import LC3.Proofs.Console.Independence
import LC3.Proofs.Keyboard.Consumption

/-!
# Output is visible before the program goes on

A sink may keep what it has taken to itself until it is asked to flush. A program that printed
something must not go on, and above all must not wait for a key, before its user can see it. The
reason that it never does is that a part of a cycle sends one message at most, and that a message is
written as a whole and then flushed (`Says`, `Cycle.says_turn`). If both succeed, nothing is left
unseen; if one of them fails, that is the fault with which the part ends, and the machine is halted.

* `Displays` — a console of which is known what has arrived and what of it has not been seen.
* `displays_recorded`, `displays_translating` — any sink under observation, alone and behind a
  translating one.
* `Displays.emit_ok_iff` — a message was sent if and only if it has arrived and can be seen.
* `Displays.seen_through` — along the parts of cycles, by induction.
* `output_visible` — the statement as a whole. That a step returns is not enough for it, because
  it does so on a halted machine too.
-/

namespace LC3

open ByteSink

/-! ### Messages -/

variable {τ : Type} [ByteSink τ]

/-- Whole writes arrive, and what arrives is unseen until a flush succeeds. -/
structure Displays (I : τ → Prop) (T : List Byte → List Byte) (received unseen : τ → List Byte) :
    Prop extends Transmits I T received where
  adds : ∀ bytes s, I s → ∃ sent, received (ByteSink.writeAll bytes s).2 = received s ++ sent ∧
    unseen (ByteSink.writeAll bytes s).2 = unseen s ++ sent
  unseen_flush : ∀ s, I s → unseen (ByteSink.flush s).2 =
    if (ByteSink.flush s).1.isOk then [] else unseen s

namespace Displays

variable {I : τ → Prop} {T : List Byte → List Byte} {received unseen : τ → List Byte}
  (law : Displays I T received unseen) {message : List Byte} {s : τ}

include law

/-- Behind a message that was sent nothing is unseen, whatever was unseen before it. -/
theorem unseen_emit (hs : I s) (hok : (emit message s).1 = .ok ()) :
    unseen (emit message s).2 = [] := by
  have hkeep := law.writeAll_keeps message s hs
  rcases hw : ByteSink.writeAll message s with ⟨answer, s'⟩
  rw [hw] at hkeep
  cases answer with
  | error e =>
    rw [emit_of_unwritten hw] at hok
    cases hok
  | ok _ =>
    rw [emit_of_written hw] at hok ⊢
    rw [law.unseen_flush s' hkeep, hok]
    rfl

/-- **A message was sent if and only if** the whole of it has arrived and can be seen. -/
theorem emit_ok_iff (hs : I s) (hne : T message ≠ []) :
    (emit message s).1 = .ok () ↔
      received (emit message s).2 = received s ++ T message ∧ unseen (emit message s).2 = [] := by
  constructor
  · intro hok
    exact ⟨law.emit_ok hs hok, law.unseen_emit hs hok⟩
  · rintro ⟨harrived, hseen⟩
    have hkeep := law.writeAll_keeps message s hs
    have harr := law.writeAll message s hs
    obtain ⟨sent, hreceived, hunseen⟩ := law.adds message s hs
    rcases hw : ByteSink.writeAll message s with ⟨answer, s'⟩
    rw [hw] at hkeep harr hreceived hunseen
    cases answer with
    | error e =>
      -- what has arrived is too short
      rw [emit_of_unwritten hw] at harrived
      obtain ⟨part, -, hshort, hpart⟩ := harr
      rw [harrived] at hpart
      rw [List.append_cancel_left hpart] at hshort
      exact absurd hshort (Nat.lt_irrefl _)
    | ok _ =>
      rw [emit_of_written hw] at harrived hseen ⊢
      cases hflush : (ByteSink.flush s').1 with
      | ok _ => rfl
      | error e =>
        -- all of it has arrived, and all of it is still unseen
        have hall : sent = T message := by
          have hok : received s' = received s ++ T message := harr
          exact List.append_cancel_left (hreceived.symm.trans hok)
        rw [law.unseen_flush s' hkeep, hflush] at hseen
        have hnil : unseen s' = [] := hseen
        rw [hunseen, hall] at hnil
        exact absurd (List.append_eq_nil_iff.1 hnil).2 hne

end Displays

/-! ### Sinks under observation -/

namespace Recorded

variable {σ : Type} [ByteSink σ]

/-- What the sink has taken on the way from `r` to `r'` was not flushed there. -/
def Extends (r r' : Recorded σ) : Prop :=
  ∃ sent, r'.output = r.output ++ sent ∧ r'.unflushed = r.unflushed ++ sent

omit [ByteSink σ] in
theorem Extends.refl (r : Recorded σ) : Extends r r :=
  ⟨[], (List.append_nil _).symm, (List.append_nil _).symm⟩

omit [ByteSink σ] in
theorem Extends.trans {r r' r'' : Recorded σ} (h : Extends r r') (h' : Extends r' r'') :
    Extends r r'' := by
  obtain ⟨sent, houtput, hunflushed⟩ := h
  obtain ⟨rest, houtput', hunflushed'⟩ := h'
  refine ⟨sent ++ rest, ?_, ?_⟩
  · rw [houtput', houtput, List.append_assoc]
  · rw [hunflushed', hunflushed, List.append_assoc]

theorem extends_write (bytes : List Byte) (r : Recorded σ) :
    Extends r (ByteSink.write bytes r).2 :=
  ⟨_, output_write bytes r, unflushed_write bytes r⟩

theorem extends_writeAll (bytes : List Byte) (r : Recorded σ) :
    Extends r (ByteSink.writeAll bytes r).2 := by
  refine writeAll_induction (motive := fun _ (r : Recorded σ) w => Extends r w.2)
    ?nil ?fail ?goOn bytes r
  case nil => exact Extends.refl
  case fail => exact fun bytes r e _ _ => extends_write bytes r
  case goOn => exact fun bytes r rest w _ _ ih => (extends_write bytes r).trans ih

theorem extends_writeEach (buffers : List (List Byte)) (r : Recorded σ) :
    Extends r (ByteSink.writeEach buffers r).2 := by
  induction buffers generalizing r with
  | nil => exact .refl r
  | cons bytes buffers ih =>
    have hfirst := extends_writeAll bytes r
    rw [writeEach]
    split <;> rename_i r' heq <;> rw [heq] at hfirst
    · exact hfirst.trans (ih r')
    · exact hfirst

end Recorded

section Instances

variable {σ : Type} [ByteSink σ]

theorem displays_recorded :
    Displays (fun _ => True) id (Recorded.output (σ := σ)) Recorded.unflushed where
  toTransmits := transmits_recorded
  adds bytes r _ := Recorded.extends_writeAll bytes r
  unseen_flush r _ := Recorded.unflushed_flush r

theorem displays_translating (raw : Bool) :
    Displays (fun d : Translating (Recorded σ) => d.enabled = raw) (Translating.translation raw)
      (fun d => d.inner.output) (fun d => d.inner.unflushed) where
  toTransmits := transmits_translating raw
  adds bytes d hd := by
    cases raw with
    | true =>
      rw [Translating.writeAll_of_enabled bytes hd]
      exact Recorded.extends_writeEach (Newline.pieces bytes) d.inner
    | false =>
      rw [Translating.writeAll_of_disabled bytes d hd]
      exact Recorded.extends_writeAll bytes d.inner
  unseen_flush d _ := Recorded.unflushed_flush d.inner

end Instances

/-! ### What a part of a cycle says -/

/-- The fault that a routine is due to end with. -/
def Flow.fault? : Flow → Option Fault
  | .fail fault => some fault
  | _ => none

/-- On the way from `s` to `s'` one message was sent at most, and a fault is due to the console if
and only if that message was not sent. -/
inductive Says (s s' : τ) (fault? : Option Fault) : Prop
  | nothing (hsink : s' = s) (hno : ∀ e, fault? ≠ some (.output e))
  | message {message : List Byte} (hm : emit message s = (.ok (), s'))
      (hno : ∀ e, fault? ≠ some (.output e))
  | refused {message : List Byte} {e : IoError} (hm : emit message s = (.error e, s'))
      (hf : fault? = some (.output e))

namespace TrapRoutine

theorem says_emit {next : Flow} (hnext : next.fault? = none) (message : List Byte) (h : Hardware)
    (s : τ) : Says s (emit message next h s).sink (emit message next h s).flow.fault? := by
  rcases hm : ByteSink.emit message s with ⟨answer, s'⟩
  cases answer with
  | ok _ =>
    rw [emit_ok (congrArg Prod.fst hm), hm]
    refine .message hm fun e he => ?_
    cases hnext.symm.trans he
  | error e =>
    rw [emit_error (congrArg Prod.fst hm), hm]
    exact .refused hm rfl

theorem says_begin (t : TrapRoutine) (h : Hardware) (s : τ) :
    Says s (t.begin h s).sink (t.begin h s).flow.fault? := by
  cases t with
  | getc => exact .nothing rfl nofun
  | out | puts | input | putsp | halt => exact says_emit rfl _ _ s

theorem says_receive (echo : Bool) (h : Hardware) (s : τ) :
    Says s (receive echo h s).sink (receive echo h s).flow.fault? := by
  rcases hr : h.memory.keyboard.read with ⟨key, rest⟩
  cases key with
  | character c =>
    rw [receive_character hr]
    cases echo with
    | true => exact says_emit rfl _ _ s
    | false => exact .nothing rfl nofun
  | waiting =>
    rw [receive_waiting hr]
    exact .nothing rfl nofun
  | failed fault =>
    -- the keyboard has faults of its own
    have hclosed : fault = h.memory.keyboard.closedFault :=
      ((Keyboard.read_failed_iff _ _).1 (congrArg Prod.fst hr)).2.2
    rw [receive_failed hr]
    refine .nothing rfl fun e he => ?_
    have hfault : fault = .output e := Option.some.inj he
    rw [hclosed] at hfault
    unfold Keyboard.closedFault at hfault
    split at hfault <;> cases hfault

end TrapRoutine

namespace Cycle

omit [ByteSink τ] in
theorem fault?_ofTrapRun (address : Word) (log : List Event) (r : TrapRun τ) :
    (ofTrapRun address log r).phase.fault? = r.flow.fault? := by
  obtain ⟨flow, hardware, sink⟩ := r
  cases flow <;> rfl

theorem says_ofTrapRun {s : τ} {r : TrapRun τ} (h : Says s r.sink r.flow.fault?) (address : Word)
    (log : List Event) :
    Says s (ofTrapRun address log r).sink (ofTrapRun address log r).phase.fault? := by
  rwa [sink_ofTrapRun, fault?_ofTrapRun]

theorem says_begin (m : Machine) (s : τ) :
    Says s (m.begin s).sink (m.begin s).phase.fault? := by
  refine m.begin_cases s ?halted ?interrupted ?execute ?trap ?badTrap ?invalid
  case trap => exact fun _ _ t _ _ => says_ofTrapRun (t.says_begin m.fetch.2 s) _ _
  -- only routines use the console
  case halted => exact fun _ => .nothing rfl nofun
  case interrupted => exact fun _ _ => .nothing rfl nofun
  case execute => exact fun _ _ _ _ => .nothing rfl nofun
  case badTrap => exact fun _ _ _ _ => .nothing rfl nofun
  case invalid => exact fun _ _ _ => .nothing rfl nofun

/-- **A part of a cycle sends one message at most**, and ends with the fault of the console if that
one was not sent. -/
theorem says_turn (c : Cycle τ) : Says c.sink c.turn.sink c.turn.phase.fault? := by
  cases hp : c.phase with
  | done o =>
    rw [turn_done hp]
    exact says_begin c.machine c.sink
  | awaitKey address echo =>
    rw [turn_awaitKey hp, resume_awaitKey hp]
    exact says_ofTrapRun (TrapRoutine.says_receive echo c.machine.toHardware c.sink) _ _

end Cycle

/-! ### What is left unseen -/

namespace Displays

variable {I : τ → Prop} {T : List Byte → List Byte} {received unseen : τ → List Byte}
  (law : Displays I T received unseen)

include law

theorem keeps {s s' : τ} {fault? : Option Fault} (h : Says s s' fault?) (hs : I s) : I s' := by
  cases h with
  | nothing hsink _ => rwa [hsink]
  | @message message hm _ =>
    have hkeep := law.emit_keeps message hs
    rwa [hm] at hkeep
  | @refused message e hm _ =>
    have hkeep := law.emit_keeps message hs
    rwa [hm] at hkeep

/-- Unless the console has failed, nothing is unseen that was not unseen before. -/
theorem seen {s s' : τ} {fault? : Option Fault} (h : Says s s' fault?) (hs : I s)
    (hseen : unseen s = []) : unseen s' = [] ∨ ∃ e, fault? = some (.output e) := by
  cases h with
  | nothing hsink _ =>
    left
    rwa [hsink]
  | @message message hm _ =>
    left
    have hemit := law.unseen_emit hs (congrArg Prod.fst hm)
    rwa [hm] at hemit
  | refused _ hf => exact .inr ⟨_, hf⟩

theorem keeps_through {c : Cycle τ} (hs : I c.sink) (fs : Changes) : I (c.through fs).sink := by
  induction fs generalizing c with
  | nil => exact hs
  | cons f fs ih =>
    have hkey : I (c.onKeyboard f).sink := hs
    exact ih (law.keeps (c.onKeyboard f).says_turn hkey)

/-- **Along the parts of cycles** nothing is left unseen before the console fails, and from then on
nothing happens. -/
theorem seen_through {c : Cycle τ} (hs : I c.sink) (hseen : unseen c.sink = []) (fs : Changes) :
    unseen (c.through fs).sink = [] ∨ ∃ gs hs, fs = gs ++ hs ∧ (c.through gs).ConsoleFailed ∧
      (c.through fs).machine.status = .halted ∧ (c.through fs).sink = (c.through gs).sink := by
  induction fs generalizing c with
  | nil => exact .inl hseen
  | cons f fs ih =>
    have hkey : I (c.onKeyboard f).sink := hs
    obtain hturn | ⟨e, he⟩ := law.seen (c.onKeyboard f).says_turn hkey hseen
    · -- if a later part has failed, this one stands before it
      obtain hrest | ⟨gs, hs, hfs, hrest⟩ := ih (law.keeps (c.onKeyboard f).says_turn hkey) hturn
      · exact .inl hrest
      · exact .inr ⟨f :: gs, hs, congrArg (f :: ·) hfs, hrest⟩
    · -- the part that failed has halted the machine
      have hphase := Phase.of_fault? he
      have hover : (c.onKeyboard f).turn.Over :=
        ⟨⟨_, hphase⟩, (Cycle.coherent_turn _).final _ hphase⟩
      obtain ⟨hrest, hsink⟩ := Cycle.through_of_over hover fs
      exact .inr ⟨[f], fs, rfl, ⟨e, hphase⟩, hrest.2, hsink⟩

/-! ### Calls -/

theorem seen_ends {c d : Cycle τ} {fs : Changes} (h : c.Ends fs d) (hs : I c.sink)
    (hseen : unseen c.sink = [] ∨ ∃ e, c.phase.fault? = some (.output e)) :
    unseen d.sink = [] ∨ ∃ e, d.phase.fault? = some (.output e) := by
  induction h with
  | done hp => exact hseen
  | @turn c _ address echo f _ hp hd ih =>
    -- in its pause a cycle has not failed
    have hbefore : unseen c.sink = [] := by
      obtain hbefore | ⟨e, he⟩ := hseen
      · exact hbefore
      · rw [hp] at he
        cases he
    have hkey : I (c.onKeyboard f).sink := hs
    have hsays := (c.onKeyboard f).says_turn
    exact ih (law.keeps hsays hkey) (law.seen hsays hkey hbefore)

variable {m m' : Machine} {s s' : τ}

theorem keeps_steps {fs : Changes} {c : Cycle τ} (h : m.Steps s fs c) (hs : I s) : I c.sink := by
  rw [h.eq_through]
  exact law.keeps_through (c := m.ready s) hs fs

/-- **A step leaves nothing unseen**, unless the console is what it fails for. -/
theorem seen_steps {fs : Changes} {c : Cycle τ} (h : m.Steps s fs c) (hs : I s)
    (hseen : unseen s = []) : unseen c.sink = [] ∨ ∃ e, c.phase.fault? = some (.output e) := by
  cases h with
  | halted _ => exact .inl hseen
  | @running f fs c _ hc =>
    have hsays := ((m.ready s).onKeyboard f).says_turn
    exact law.seen_ends hc (law.keeps hsays hs) (law.seen hsays hs hseen)

theorem seen_executes {fs : Changes} {r : Run τ} (h : m.Executes s fs r) (hs : I s)
    (hseen : unseen s = []) : unseen r.sink = [] ∨ ∃ e, r.ending = .failed (.output e) := by
  induction h with
  | halted _ => exact .inl hseen
  | failed _ hc hf =>
    refine (law.seen_steps hc hs hseen).imp_right ?_
    rintro ⟨e, he⟩
    exact ⟨e, congrArg Ending.failed (Option.some.inj (hf.symm.trans he))⟩
  | goesOn _ hc hf _ ih =>
    obtain hfirst | ⟨e, he⟩ := law.seen_steps hc hs hseen
    · exact ih (law.keeps_steps hc hs) hfirst
    · -- behind a failure no run goes on
      cases hf.symm.trans he

/-- **What several steps leave unseen** one of them has left, which failed for that, and those
behind it have done nothing. -/
theorem seen_session {fss : List Changes} {rs : List (Return τ)}
    (h : Session m s (fss.map .step) rs m' s') (hs : I s) (hseen : unseen s = []) :
    unseen s' = [] ∨ ∃ r ∈ rs, (∃ e, r.fault? = some (.output e)) ∧
      r.machine.status = .halted ∧ m'.status = .halted ∧ r.sink = s' := by
  induction fss generalizing m s rs with
  | nil =>
    cases h with
    | nil => exact .inl hseen
  | cons fs fss ih =>
    cases h with
    | @cons _ _ _ _ _ _ r rs hcall hrs =>
      cases hcall with
      | @step _ c hc =>
        obtain hfirst | ⟨e, he⟩ := law.seen_steps hc hs hseen
        · -- nothing is unseen so far, and the others go on from there
          obtain hrest | ⟨r, hr, hrest⟩ := ih hrs (law.keeps_steps hc hs) hfirst
          · exact .inl hrest
          · exact .inr ⟨r, List.mem_cons_of_mem _ hr, hrest⟩
        · -- this step has failed, and on the machine that it has halted the others do nothing
          have hfault : c.phase.fault? ≠ none := he ▸ Option.some_ne_none _
          have hhalted := (Call.Returns.step hc).status_of_fault hfault
          have hover : (c.machine.ready c.sink).Over := ⟨⟨_, rfl⟩, hhalted⟩
          obtain ⟨hmachine, hsink⟩ := hrs.through_steps
          obtain ⟨hrest, hsame⟩ := Cycle.through_of_over hover fss.flatten
          refine .inr ⟨_, List.mem_cons_self, ⟨e, he⟩, hhalted, ?_, ?_⟩
          · rw [hmachine]
            exact hrest.2
          · exact (hsink.trans hsame).symm

end Displays

/-! ### The prompt -/

/-- A cycle in which a key is asked for and will be shown: the prompt has arrived last. -/
def Cycle.Prompted (received : τ → List Byte) (c : Cycle τ) : Prop :=
  ∀ address, c.phase = .awaitKey address true → TrapRoutine.prompt <:+ received c.sink

section Prompt

variable {I : τ → Prop} {T : List Byte → List Byte} {received unseen : τ → List Byte}
  (law : Displays I T received unseen) (hT : T TrapRoutine.prompt = TrapRoutine.prompt)

include law hT

theorem Machine.prompted_begin (m : Machine) {s : τ} (hs : I s) :
    (m.begin s).Prompted received := by
  intro address hp
  obtain ⟨hcalls | hcalls, -⟩ := begin_awaitKey hp
  · -- this routine does not show its key
    rw [hcalls.begin_eq s] at hp
    cases Cycle.flow_of_awaitKey hp
  · rw [hcalls.begin_eq s] at hp ⊢
    rw [Cycle.sink_ofTrapRun]
    rcases TrapRoutine.of_awaitKey (Cycle.flow_of_awaitKey hp) with ⟨ht, -⟩ | ⟨-, -, hok, hbegin⟩
    · cases ht
    · rw [hbegin, law.emit_ok hs hok, hT]
      exact List.suffix_append _ _

theorem Cycle.prompted_turn {c : Cycle τ} (hs : I c.sink) (hc : c.Prompted received) :
    c.turn.Prompted received := by
  cases hp : c.phase with
  | done o =>
    rw [turn_done hp]
    exact c.machine.prompted_begin law hT hs
  | awaitKey address echo =>
    rw [turn_awaitKey hp]
    intro address' hp'
    obtain ⟨k, hr⟩ | ⟨o, ho⟩ := waiting_or_ends hp
    · -- a cycle that waits on has not used the console
      rw [resume_waiting hp hr] at hp' ⊢
      cases hp'
      exact hc address hp
    · cases ho.symm.trans hp'

theorem Cycle.prompted_through {c : Cycle τ} (hs : I c.sink) (hc : c.Prompted received)
    (fs : Changes) : (c.through fs).Prompted received := by
  induction fs generalizing c with
  | nil => exact hc
  | cons f fs ih =>
    have hkey : I (c.onKeyboard f).sink := hs
    exact ih (law.keeps (c.onKeyboard f).says_turn hkey) (prompted_turn law hT hkey hc)

end Prompt

/-! ### The statement -/

/-- What can be seen of the output of a machine on a console in state `d`. -/
structure OutputVisible (received unseen : τ → List Byte) (m : Machine) (d : τ) : Prop where
  /-- Nothing is left unseen by a step of a running machine, unless it fails because of the console.
  Any number of steps may have been made before it. A step of a halted machine returns as well, but
  it does nothing, so what a failure has left unseen stays so. -/
  step : ∀ (fss : List Changes) rs m' d', Session m d (fss.map .step) rs m' d' →
    m'.status = .running → ∀ fs c, m'.Steps d' fs c →
      (∀ e, c.phase.fault? ≠ some (.output e)) → unseen c.sink = []
  /-- And nothing by a run. -/
  execute : ∀ fs r, m.Executes d fs r → (∀ e, r.ending ≠ .failed (.output e)) →
    unseen r.sink = []
  /-- When a routine is about to take a key, nothing is unseen. If it is to show the key, the prompt
  is the last that has arrived. -/
  waiting : ∀ fs address echo, ((m.ready d).through fs).phase = .awaitKey address echo →
    unseen ((m.ready d).through fs).sink = [] ∧
      (echo = true → TrapRoutine.prompt <:+ received ((m.ready d).through fs).sink)
  /-- If something is unseen at any point, be it between two steps or within one, then the console
  has failed at some point up to there. Since then the machine is halted and nothing has reached the
  console. -/
  left : ∀ fs, unseen ((m.ready d).through fs).sink ≠ [] → ∃ gs hs, fs = gs ++ hs ∧
    ((m.ready d).through gs).ConsoleFailed ∧ ((m.ready d).through fs).machine.status = .halted ∧
      ((m.ready d).through fs).sink = ((m.ready d).through gs).sink
  /-- In terms of steps: one of them has failed for this reason. It has halted the machine, which is
  still halted, and the console is what that step has left. -/
  failed : ∀ (fss : List Changes) rs m' d', Session m d (fss.map .step) rs m' d' →
    unseen d' ≠ [] → ∃ r ∈ rs, (∃ e, r.fault? = some (.output e)) ∧ r.machine.status = .halted ∧
      m'.status = .halted ∧ r.sink = d'

/-- **Output is visible before the program goes on**, on every console that displays what it
receives. -/
theorem Displays.outputVisible {I : τ → Prop} {T : List Byte → List Byte}
    {received unseen : τ → List Byte} (law : Displays I T received unseen)
    (hT : T TrapRoutine.prompt = TrapRoutine.prompt) (m : Machine) {d : τ} (hd : I d)
    (hnil : unseen d = []) : OutputVisible received unseen m d where
  step fss rs m' d' h hrunning fs c hc hno := by
    have hkeep : I d' := by
      rw [h.through_steps.2]
      exact law.keeps_through (c := m.ready d) hd fss.flatten
    -- a failure before this step would have halted the machine
    have hbefore : unseen d' = [] := by
      obtain hbefore | ⟨_, _, -, -, hhalted, -⟩ := law.seen_session h hd hnil
      · exact hbefore
      · cases hrunning.symm.trans hhalted
    obtain hseen | ⟨e, he⟩ := law.seen_steps hc hkeep hbefore
    · exact hseen
    · exact absurd he (hno e)
  execute fs r h hno := by
    obtain hseen | ⟨e, he⟩ := law.seen_executes h hd hnil
    · exact hseen
    · exact absurd he (hno e)
  waiting fs address echo hp := by
    have hrunning : ((m.ready d).through fs).machine.status = .running := by
      have hcoherent := Cycle.coherent_through (Cycle.coherent_ready m d) fs
      rw [show ((m.ready d).through fs).machine.status = _ from hcoherent, hp]
      rfl
    constructor
    · obtain hseen | ⟨_, _, -, -, hhalted, -⟩ :=
        law.seen_through (c := m.ready d) hd hnil fs
      · exact hseen
      · cases hrunning.symm.trans hhalted
    · rintro rfl
      have hstart : (m.ready d).Prompted received := fun _ hstart => by cases hstart
      exact Cycle.prompted_through law hT hd hstart fs address hp
  left fs hunseen := (law.seen_through (c := m.ready d) hd hnil fs).resolve_left hunseen
  failed fss rs m' d' h hunseen := (law.seen_session h hd hnil).resolve_left hunseen

/-- **Output is visible before the program goes on or waits**, for every machine and every sink,
used directly or behind a translating one. -/
theorem output_visible {σ : Type} [ByteSink σ] (m : Machine) (inner : σ) :
    OutputVisible Recorded.output Recorded.unflushed m (Recorded.start inner) ∧
      ∀ raw, OutputVisible (fun d => d.inner.output) (fun d => d.inner.unflushed) m
        (⟨Recorded.start inner, raw⟩ : Translating (Recorded σ)) := by
  refine ⟨displays_recorded.outputVisible rfl m trivial rfl, fun raw => ?_⟩
  refine (displays_translating raw).outputVisible ?_ m rfl rfl
  -- there is no line feed in the prompt
  cases raw with
  | true => rfl
  | false => rfl

/-- A machine that is about to ask for a key, which is there. -/
def aboutToAsk : Machine :=
  (Machine.initial (.channel [0x41] false)).withMemory
    ((Memory.cleared (.channel [0x41] false)).write 0x3000 0xF023)

/-- **It takes a running machine.** The console takes the prompt but cannot show it, so the first
step fails and halts the machine. The second one returns, as it does on any halted machine, and the
prompt is still unseen. -/
theorem unseen_behind_halted_step :
    let d : Recorded LimitedSink := .start ⟨0, none, none, true, true⟩
    ¬ ∀ (fss : List Changes) rs m' d', Session aboutToAsk d (fss.map .step) rs m' d' →
      ∀ fs c, m'.Steps d' fs c → c.phase.fault? = none → c.sink.unflushed = [] := by
  intro d hall
  let c := aboutToAsk.begin d
  have hphase : c.phase = .done (.failed (.output ⟨.other, "flush failed"⟩)) := by decide +kernel
  have hhalted : c.machine.status = .halted := by decide +kernel
  have hunseen : c.sink.unflushed = TrapRoutine.prompt := by decide +kernel
  have hfirst : aboutToAsk.Steps d [id] c := .running rfl (.done hphase)
  have hsession : Session aboutToAsk d [.step [id]] _ c.machine c.sink := .cons (.step hfirst) .nil
  have hsecond : c.machine.Steps c.sink [] ⟨.done .halted, c.machine, c.sink, []⟩ := .halted hhalted
  have hseen := hall [[id]] _ _ _ hsession [] _ hsecond rfl
  cases hunseen.symm.trans hseen

end LC3
