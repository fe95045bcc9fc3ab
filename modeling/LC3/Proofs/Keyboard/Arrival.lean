import LC3.Console.Devices
import LC3.Console.Recorded
import LC3.Proofs.Alike
import LC3.Proofs.Keyboard.Schedule
import LC3.Proofs.Turn

/-!
# It does not matter when input arrives

A program that never reads the status register cannot see whether a character has been sent yet. It
can only ask for one, and then it waits. So the machine comes to the same results in the same order,
however fast the source is; in particular to the results that it has when all input was there before
the first step.

Let the source be behind, with the actions `rest` still to be done. Then the run with early input is
the late run with these actions done at once, `c.onKeyboard (SourceAction.performAll rest)`. This is
what is preserved (`Ahead`), with one exception: while the late machine is in a pause, the early one
has not begun the step yet, because it takes a whole step at a time. The moves keep it up:

* an action of the source moves from the front of `rest` into the late keyboard, and the early run
  does not notice (`Ahead.source`);
* the first part of a cycle looks at the keyboard only by reading the status register, which it does
  not do (`turn_onKeyboard`, from `Machine.alike_begin`);
* the second part takes the first character, to which what comes later makes no difference
  (`resume_onKeyboard`), or there is none and it waits.

`arrival_irrelevant` follows by induction along the moves.
-/

namespace LC3

/-! ### Actions that are still to come -/

namespace SourceAction

variable {rest : List SourceAction}

theorem interrupted_performAll (hrest : .interrupt ∉ rest) (k : Keyboard) :
    (performAll rest k).interrupted = k.interrupted := by
  have hcontains : rest.contains interrupt = false := by simpa using hrest
  change (k.interrupted || rest.contains interrupt) = k.interrupted
  rw [hcontains, Bool.or_false]

/-- What comes later stands behind the next character. -/
theorem next?_performAll {k k' : Keyboard} {c : Word} (hn : k.next? = some (c, k'))
    (rest : List SourceAction) : (performAll rest k).next? = some (c, performAll rest k') := by
  obtain ⟨pending, queue, isOpen, interrupted⟩ := k
  cases pending with
  | some c' =>
    cases hn
    rfl
  | none =>
    cases queue with
    | nil => cases hn
    | cons c' queue =>
      cases hn
      cases isOpen <;> rfl

/-- A closed queue refuses whatever comes later. -/
theorem performAll_of_closed (hrest : .interrupt ∉ rest) {k : Keyboard} (hk : k.isOpen = false) :
    performAll rest k = k := by
  have hflag := interrupted_performAll hrest k
  obtain ⟨pending, queue, isOpen, interrupted⟩ := k
  cases hk
  exact congrArg (Keyboard.mk pending queue false) hflag

end SourceAction

/-! ### Parts of a cycle on another keyboard -/

/-- A change of the keyboard that leaves the flag alone is seen through the status register only. -/
theorem Memory.respects_connect {f : Keyboard → Keyboard}
    (hf : ∀ k, (f k).interrupted = k.interrupted) :
    Respects (fun m m' => m' = m.connect (f m.keyboard)) (· ≠ statusAddress) where
  read := by
    rintro m m' rfl a ha
    rw [read_of_ne m ha, read_of_ne _ ha]
    exact ⟨rfl, rfl⟩
  write := by
    rintro m m' rfl a value
    rfl
  interrupted := by
    rintro m m' rfl
    exact hf m.keyboard

namespace Cycle

variable {σ : Type} {f : Keyboard → Keyboard}

theorem Alike.eq_onKeyboard {c c' : Cycle σ}
    (h : c.Alike (fun m m' => m' = m.connect (f m.keyboard)) c') : c' = c.onKeyboard f := by
  obtain ⟨phase, ⟨⟨registers, memory⟩, status⟩, sink, log⟩ := c'
  obtain ⟨rfl, ⟨rfl, rfl⟩, rfl, rfl, rfl⟩ := h
  rfl

variable [ByteSink σ]

/-- The first part of a cycle without a look at the status register. -/
theorem turn_onKeyboard (hf : ∀ k, (f k).interrupted = k.interrupted) {c : Cycle σ} {o : Outcome}
    (hp : c.phase = .done o) (hpoll : .read Memory.statusAddress ∉ c.accesses) :
    (c.onKeyboard f).turn = c.turn.onKeyboard f := by
  have hp' : (c.onKeyboard f).phase = .done o := hp
  have hok : Access.ReadsOnly (· ≠ Memory.statusAddress) c.machine.accesses := by
    rintro a ha rfl
    refine hpoll ?_
    unfold accesses
    rwa [hp]
  have hh : c.machine.toHardware.Alike (fun m m' => m' = m.connect (f m.keyboard))
      (c.onKeyboard f).machine.toHardware := ⟨rfl, rfl⟩
  rw [turn_done hp, turn_done hp']
  exact (Machine.alike_begin (Memory.respects_connect hf) hh rfl c.sink hok).eq_onKeyboard

/-- The second part, unless it has to wait. -/
theorem resume_onKeyboard {c : Cycle σ} {address : Word} {echo : Bool}
    {rest : List SourceAction} (hp : c.phase = .awaitKey address echo)
    (hrest : .interrupt ∉ rest) (hkey : ∀ k, c.machine.memory.keyboard.read ≠ (.waiting, k)) :
    (c.onKeyboard (SourceAction.performAll rest)).resume =
      c.resume.onKeyboard (SourceAction.performAll rest) := by
  have hp' : (c.onKeyboard (SourceAction.performAll rest)).phase = .awaitKey address echo := hp
  rw [resume_awaitKey hp, resume_awaitKey hp']
  refine (alike_ofTrapRun ?_ address c.log).eq_onKeyboard
  cases hn : c.machine.memory.keyboard.next? with
  | some next =>
    -- the same key, with more behind it
    obtain ⟨k, kept⟩ := next
    have hn' := SourceAction.next?_performAll hn rest
    rw [TrapRoutine.receive_character (Keyboard.read_of_next? hn),
      TrapRoutine.receive_character (h := (c.onKeyboard _).machine.toHardware)
        (Keyboard.read_of_next? hn')]
    have hh : (TrapRoutine.accept c.machine.toHardware k kept).Alike
        (fun m m' => m' = m.connect (SourceAction.performAll rest m.keyboard))
        (TrapRoutine.accept (c.onKeyboard (SourceAction.performAll rest)).machine.toHardware k
          (SourceAction.performAll rest kept)) := ⟨rfl, rfl⟩
    cases echo with
    | true => exact TrapRoutine.alike_emit hh _ _ c.sink
    | false => exact ⟨rfl, hh, rfl⟩
  | none =>
    have hr := Keyboard.read_of_none hn
    cases ho : c.machine.memory.keyboard.isOpen with
    | true =>
      rw [if_pos ho] at hr
      exact absurd hr (hkey _)
    | false =>
      -- nothing is left, and nothing can come
      have hsame := SourceAction.performAll_of_closed hrest ho
      rw [if_neg (by rw [ho]; exact Bool.false_ne_true)] at hr
      have hr' : (SourceAction.performAll rest c.machine.memory.keyboard).read =
          (.failed c.machine.memory.keyboard.closedFault, c.machine.memory.keyboard) := by
        rw [hsame]
        exact hr
      rw [TrapRoutine.receive_failed hr,
        TrapRoutine.receive_failed (h := (c.onKeyboard _).machine.toHardware) hr']
      exact ⟨rfl, ⟨rfl, rfl⟩, rfl⟩

/-! ### The early run -/

/-- The run in which all input was there from the start, as `early` when it has completed the same
steps, beside the late one. -/
inductive Ahead (rest : List SourceAction) (late early : Cycle σ) : Prop
  /-- Between two steps they differ by the actions that are still to come. -/
  | between (o : Outcome) (hp : late.phase = .done o)
      (hsame : early = late.onKeyboard (SourceAction.performAll rest))
  /-- In the middle of a step, the early run has not begun it. -/
  | paused (address : Word) (echo : Bool) (hp : late.phase = .awaitKey address echo)
      (o : Outcome) (hearly : early.phase = .done o)
      (hsame : early.turn = late.onKeyboard (SourceAction.performAll rest))

variable {rest : List SourceAction} {late early : Cycle σ}

theorem next_of_turn {c d : Cycle σ} {o : Outcome} (hp : c.phase = .done o) (ht : c.turn = d) :
    c.next = d.resume := by
  rw [next_done hp, ← ht, turn_done hp]
  rfl

/-- The early run does not notice when an action is done. -/
theorem Ahead.source {a : SourceAction} (h : Ahead (a :: rest) late early) :
    Ahead rest (late.onKeyboard a.perform) early := by
  have hsame (c : Cycle σ) : c.onKeyboard (SourceAction.performAll (a :: rest)) =
      (c.onKeyboard a.perform).onKeyboard (SourceAction.performAll rest) := by
    unfold onKeyboard
    rw [SourceAction.performAll_cons]
    rfl
  cases h with
  | between o hp h =>
    rw [hsame] at h
    exact .between o hp h
  | paused address echo hp o hearly h =>
    rw [hsame] at h
    exact .paused address echo hp o hearly h

/-- A part of a cycle that completes a step completes it in the early run. -/
theorem Ahead.turn_of_done (h : Ahead rest late early) (hrest : .interrupt ∉ rest)
    (hpoll : .read Memory.statusAddress ∉ late.accesses) {o : Outcome}
    (ho : late.turn.phase = .done o) :
    early.next.phase = .done o ∧ Ahead rest late.turn early.next := by
  have hflag := SourceAction.interrupted_performAll hrest
  suffices hnext : early.next = late.turn.onKeyboard (SourceAction.performAll rest) by
    rw [hnext]
    exact ⟨ho, .between o ho rfl⟩
  cases h with
  | between o' hp hsame =>
    subst hsame
    have hp' : (late.onKeyboard (SourceAction.performAll rest)).phase = .done o' := hp
    have ho' : (late.turn.onKeyboard (SourceAction.performAll rest)).phase = .done o := ho
    rw [next_of_turn hp' (turn_onKeyboard hflag hp hpoll), resume_done ho']
  | paused address echo hp o' hearly hsame =>
    rw [turn_awaitKey hp] at ho ⊢
    rw [next_of_turn hearly hsame]
    refine resume_onKeyboard hp hrest ?_
    -- if it had waited it would still be in its pause
    intro k hr
    rw [resume_waiting hp hr] at ho
    cases ho

/-- One that leads into a pause, or stays in it, is not seen in the early run. -/
theorem Ahead.turn_of_awaitKey (h : Ahead rest late early) (hrest : .interrupt ∉ rest)
    (hpoll : .read Memory.statusAddress ∉ late.accesses) {address : Word} {echo : Bool}
    (ha : late.turn.phase = .awaitKey address echo) : Ahead rest late.turn early := by
  have hflag := SourceAction.interrupted_performAll hrest
  cases h with
  | between o hp hsame =>
    subst hsame
    exact .paused address echo ha o hp (turn_onKeyboard hflag hp hpoll)
  | paused address' echo' hp o hearly hsame =>
    -- nothing has happened at all
    have hcoherent : late.Coherent := by
      have hc := coherent_turn early
      rwa [hsame] at hc
    rw [turn_awaitKey hp] at ha ⊢
    rw [resume_eq_self hcoherent hp ha]
    exact .paused address' echo' hp o hearly hsame

/-- A number of steps on a keyboard that nobody touches. -/
def alone (c : Cycle σ) (k : ℕ) : Cycle σ := c.after (fun _ => id) k

theorem alone_succ (c : Cycle σ) (k : ℕ) : c.alone (k + 1) = c.next.alone k := by
  induction k with
  | zero => rfl
  | succ k ih =>
    change (c.alone (k + 1)).next = (c.next.alone k).next
    rw [ih]

end Cycle

/-! ### Histories -/

/-- The outcome of a cycle that has ended. -/
def Phase.outcome? : Phase → Option Outcome
  | .done o => some o
  | .awaitKey _ _ => none

namespace Move

variable {σ : Type} [ByteSink σ]

/-- The accesses of the machine during a move. -/
def accesses : Move → Cycle σ → List Access
  | turn, c => c.accesses
  | _, _ => []

def accessesAll : List Move → Cycle σ → List Access
  | [], _ => []
  | x :: xs, c => x.accesses c ++ accessesAll xs (x.perform c)

/-- The outcome of the step that a move completes. -/
def outcome? : Move → Cycle σ → Option Outcome
  | turn, c => c.turn.phase.outcome?
  | _, _ => none

/-- The outcomes of the steps that some moves complete, in order. -/
def outcomes : List Move → Cycle σ → List Outcome
  | [], _ => []
  | x :: xs, c => (x.outcome? c).toList ++ outcomes xs (x.perform c)

/-- An action of the source completes no step. -/
theorem outcomes_of_action? {x : Move} {a : SourceAction} (hx : x.action? = some a)
    (xs : List Move) (c : Cycle σ) : outcomes (x :: xs) c = outcomes xs (x.perform c) := by
  cases x with
  | turn => cases hx
  | send c | close | interrupt flag | access x | load bytes => rfl

theorem outcomes_turn {c : Cycle σ} {p : Phase} (hp : c.turn.phase = p) (xs : List Move) :
    outcomes (turn :: xs) c = p.outcome?.toList ++ outcomes xs c.turn := by
  rw [← hp]
  rfl

/-- What the early run has done when the late one has completed its steps. -/
theorem ahead_performAll {feed : List SourceAction} {moves : List Move} {late early : Cycle σ}
    (h : Interleaves feed (· = turn) moves) (hfeed : .interrupt ∉ feed)
    (hpoll : .read Memory.statusAddress ∉ accessesAll moves late)
    (ha : Cycle.Ahead feed late early) :
    (∃ rest, feed = actions moves ++ rest ∧
      Cycle.Ahead rest (performAll moves late) (early.alone (outcomes moves late).length)) ∧
      ∀ i o, (outcomes moves late)[i]? = some o → (early.alone (i + 1)).phase = .done o := by
  induction moves generalizing feed late early with
  | nil =>
    refine ⟨⟨feed, rfl, ha⟩, ?_⟩
    intro i o hi
    cases hi
  | cons x xs ih =>
    obtain ⟨-, hpolls⟩ := not_or.1 (mt List.mem_append.2 hpoll)
    obtain ⟨a, later, hx, rfl, hxs⟩ | ⟨hx, rfl, hxs⟩ := h.cons_cases
    · -- an action of the source
      have hactions : actions (x :: xs) = a :: actions xs := List.filterMap_cons_some hx
      have hnext : Cycle.Ahead later (x.perform late) early := by
        rw [perform_of_action? hx]
        exact ha.source
      obtain ⟨⟨rest, hrest, hahead⟩, hout⟩ :=
        ih hxs (not_or.1 (mt List.mem_cons.2 hfeed)).2 hpolls hnext
      rw [outcomes_of_action? hx, hactions, hrest]
      exact ⟨⟨rest, rfl, hahead⟩, hout⟩
    · -- a part of a cycle
      obtain ⟨hpoll, -⟩ := not_or.1 (mt List.mem_append.2 hpoll)
      have hactions : actions (turn :: xs) = actions xs := List.filterMap_cons_none hx
      rw [hactions]
      cases hphase : late.turn.phase with
      | awaitKey address echo =>
        -- the step is not completed yet
        rw [outcomes_turn hphase]
        exact ih hxs hfeed hpolls (ha.turn_of_awaitKey hfeed hpoll hphase)
      | done o =>
        -- the early run makes one step, and both go on from there
        obtain ⟨hdone, hnext⟩ := ha.turn_of_done hfeed hpoll hphase
        obtain ⟨⟨rest, hrest, hahead⟩, hout⟩ := ih hxs hfeed hpolls hnext
        rw [outcomes_turn hphase]
        refine ⟨⟨rest, hrest, ?_⟩, ?_⟩
        · change Cycle.Ahead rest _ (early.alone ((outcomes xs late.turn).length + 1))
          rw [Cycle.alone_succ]
          exact hahead
        · intro i o' hi
          cases i with
          | zero =>
            cases hi
            exact hdone
          | succ i =>
            rw [Cycle.alone_succ]
            exact hout i o' hi

/-- The characters that have not been consumed, with those that are still to be sent. -/
theorem exists_unsent {start : Cycle σ} {input : List Word} {moves : List Move}
    {rest : List SourceAction} (hopen : start.machine.memory.keyboard.isOpen = true)
    (hrest : input.map .send ++ [.close] = actions moves ++ rest) :
    let k := (performAll moves start).machine.memory.keyboard
    ∃ unsent, input = accepted moves ++ unsent ∧
      (SourceAction.performAll rest k).available = k.available ++ unsent ∧
      start.machine.memory.keyboard.available ++ input =
        deliveredAll moves start ++ (SourceAction.performAll rest k).available := by
  intro k
  -- closing comes last, so behind it nothing is still to be sent
  have hinput : input = accepted moves ++
      if .close ∈ actions moves then [] else SourceAction.accepted rest := by
    calc input = SourceAction.accepted (input.map .send ++ [.close]) := by
            rw [SourceAction.accepted_sends, SourceAction.accepted_close, List.append_nil]
      _ = SourceAction.accepted (actions moves ++ rest) := by rw [hrest]
      _ = _ := by rw [SourceAction.accepted_append, accepted_actions]
  have havailable : (SourceAction.performAll rest k).available =
      k.available ++ if .close ∈ actions moves then [] else SourceAction.accepted rest := by
    have hnow := isOpen_performAll moves start
    rw [SourceAction.available_performAll]
    by_cases hclose : .close ∈ actions moves
    · rw [if_pos hclose, if_neg fun h => (hnow.1 h).2 hclose]
    · rw [if_neg hclose, if_pos (hnow.2 ⟨hopen, hclose⟩)]
  have hconserved := deliveredAll_append moves start
  rw [if_pos hopen] at hconserved
  refine ⟨_, hinput, havailable, ?_⟩
  rw [havailable, ← List.append_assoc, hconserved, List.append_assoc, ← hinput]

end Move

/-- **It does not matter when input arrives.** A machine whose source sends `input`, whenever it
likes, and closes the queue in the end, and which never reads the status register: its steps have
the outcomes that they have when all of this is done before the first step, and after each of them
registers, cells, status, console and log are the same. The characters that have not been consumed
are the same as well, those that are still to be sent included. -/
theorem arrival_irrelevant {σ : Type} [ByteSink σ] (m : Machine) (s : σ) (input : List Word)
    (moves : List Move) (hopen : m.memory.keyboard.isOpen = true)
    (hmoves : Move.Interleaves (input.map .send ++ [.close]) (· = .turn) moves)
    (hpoll : .read 0xFE00 ∉ Move.accessesAll moves (m.ready s)) :
    let now := Move.performAll moves (m.ready s)
    let results := Move.outcomes moves (m.ready s)
    let early := ((m.ready s).onKeyboard
      (SourceAction.performAll (input.map .send ++ [.close]))).alone
    (∀ i o, results[i]? = some o → (early (i + 1)).phase = .done o) ∧
      ∀ o, now.phase = .done o →
        let done := early results.length
        done.phase = now.phase ∧ done.machine.registers = now.machine.registers ∧
          done.machine.memory.cells = now.machine.memory.cells ∧
          done.machine.status = now.machine.status ∧ done.sink = now.sink ∧ done.log = now.log ∧
          ∃ unsent, input = Move.accepted moves ++ unsent ∧
            done.machine.memory.keyboard.available =
              now.machine.memory.keyboard.available ++ unsent ∧
            m.memory.keyboard.available ++ input =
              Move.deliveredAll moves (m.ready s) ++ done.machine.memory.keyboard.available := by
  intro now results early
  have hfeed : SourceAction.interrupt ∉ input.map SourceAction.send ++ [.close] := by simp
  have hstart : Cycle.Ahead (input.map .send ++ [.close]) (m.ready s) (early 0) :=
    .between m.status.outcome rfl rfl
  obtain ⟨⟨rest, hrest, hahead⟩, hout⟩ := Move.ahead_performAll hmoves hfeed hpoll hstart
  refine ⟨hout, ?_⟩
  intro o ho done
  have hdone : done = now.onKeyboard (SourceAction.performAll rest) := by
    cases hahead with
    | between o' hp hsame => exact hsame
    | paused address echo hp o' hearly hsame => exact absurd (ho.symm.trans hp) Phase.noConfusion
  rw [hdone]
  exact ⟨rfl, rfl, rfl, rfl, rfl, rfl, Move.exists_unsent hopen hrest⟩

/-- A machine that asks for two keys. -/
def asksTwice : Machine :=
  (Machine.initial (.channel [] true)).withMemory
    (((Memory.cleared (.channel [] true)).write 0x3000 0xF020).write 0x3001 0xF020)

/-- A source that sends one key, when the machine already waits for it, and closes the queue while
the machine waits for another one. -/
def oneKeyLate : List Move := [.turn, .turn, .send 0x41, .turn, .turn, .close, .turn]

theorem arrival_irrelevant_oneKeyLate :
    asksTwice.memory.keyboard.isOpen = true ∧
      Move.Interleaves ([0x41].map .send ++ [.close]) (· = .turn) oneKeyLate ∧
      .read 0xFE00 ∉ Move.accessesAll oneKeyLate (asksTwice.ready (Recorded.start OpenSink.mk)) ∧
      (Move.performAll oneKeyLate (asksTwice.ready (Recorded.start OpenSink.mk))).phase =
        .done (.failed .inputClosed) ∧
      ((((asksTwice.ready (Recorded.start OpenSink.mk)).onKeyboard
        (SourceAction.performAll ([0x41].map .send ++ [.close]))).alone) 2).phase =
        .done (.failed .inputClosed) :=
  have hmoves : Move.Interleaves ([0x41].map .send ++ [.close]) (· = .turn) oneKeyLate :=
    ⟨⟨[], rfl⟩, by decide⟩
  have hpoll : .read 0xFE00 ∉
      Move.accessesAll oneKeyLate (asksTwice.ready (Recorded.start OpenSink.mk)) := by
    decide +kernel
  ⟨rfl, hmoves, hpoll, by decide +kernel,
    (arrival_irrelevant asksTwice (Recorded.start OpenSink.mk) [0x41] oneKeyLate rfl hmoves
      hpoll).1 1 (.failed .inputClosed) (by decide +kernel)⟩

end LC3
