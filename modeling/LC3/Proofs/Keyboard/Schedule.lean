import LC3.Keyboard.Feed
import LC3.Proofs.Keyboard.Conservation

/-!
# A source beside a machine

A source runs in a thread of its own. It does its actions in their order, but when each of them
happens is a matter of chance: between two instructions, or while the machine waits for a key. What
can happen is a sequence of moves in which the actions of the source come one after the other, as
many of them as have happened so far, and everything else stands between them in any way
(`Move.Interleaves`). Nothing else says how fast either side is.

What such a history has made of the far end of the keyboard is known from its actions alone
(`isOpen_performAll`, `interrupted_performAll`), and so are the characters that it has sent
(`accepted_actions`). Most sources close the queue at last, and then a queue that is found closed
tells that nothing more will come of them (`Interleaves.finished`).
-/

namespace LC3

variable {σ : Type} [ByteSink σ]

namespace SourceAction

/-- Characters that are sent later come behind those sent before, unless the queue is closed by
then. -/
theorem accepted_append (xs ys : List SourceAction) :
    accepted (xs ++ ys) = accepted xs ++ if .close ∈ xs then [] else accepted ys := by
  induction xs with
  | nil => rfl
  | cons x xs ih =>
    cases x with
    | send c =>
      change c :: accepted (xs ++ ys) = c :: accepted xs ++ _
      simp [ih]
    | interrupt =>
      change accepted (xs ++ ys) = accepted xs ++ _
      simp [ih]
    | close => simp

theorem accepted_sends (characters : List Word) (ys : List SourceAction) :
    accepted (characters.map send ++ ys) = characters ++ accepted ys := by
  induction characters with
  | nil => rfl
  | cons c characters ih => exact congrArg (c :: ·) ih

theorem available_performAll (actions : List SourceAction) (k : Keyboard) :
    (performAll actions k).available =
      k.available ++ if k.isOpen then accepted actions else [] := by
  unfold performAll Keyboard.available
  cases k.isOpen with
  | true => exact (List.append_assoc _ _ _).symm
  | false => exact (List.append_nil _).symm

/-- A source that closes the queue at last has done everything if it has closed the queue. -/
theorem eq_of_close_mem {xs done : List SourceAction} (hxs : .close ∉ xs)
    (h : done <+: xs ++ [close]) (hclose : .close ∈ done) : done = xs ++ [close] :=
  (List.prefix_concat_iff.1 h).resolve_right fun hbefore => hxs (hbefore.subset hclose)

end SourceAction

namespace Feed

variable (feed : Feed)

theorem available_keyboard : feed.keyboard.available = SourceAction.accepted feed.actions :=
  SourceAction.available_performAll feed.actions (.channel [] true)

theorem isOpen_keyboard : feed.keyboard.isOpen = false ↔ .close ∈ feed.actions := by
  change (true && !feed.actions.contains .close) = false ↔ _
  rw [Bool.true_and, Bool.not_eq_false', List.contains_iff_mem]

theorem interrupted_keyboard : feed.keyboard.interrupted = true ↔ .interrupt ∈ feed.actions := by
  change (false || feed.actions.contains .interrupt) = true ↔ _
  rw [Bool.false_or, List.contains_iff_mem]

end Feed

namespace Move

/-- The action of a source that a move is. -/
def action? : Move → Option SourceAction
  | send c => some (.send c)
  | close => some .close
  | interrupt true => some .interrupt
  | _ => none

/-- What a source has done in the course of some moves. -/
def actions (moves : List Move) : List SourceAction := moves.filterMap action?

/-- The moves are a source that has come so far with its actions, beside others of a certain kind.
-/
structure Interleaves (feed : List SourceAction) (others : Move → Prop) (moves : List Move) :
    Prop where
  source : actions moves <+: feed
  others : ∀ x ∈ moves, x.action? = none → others x

theorem perform_of_action? {x : Move} {a : SourceAction} (hx : x.action? = some a)
    (c : Cycle σ) : x.perform c = c.onKeyboard a.perform := by
  cases x with
  | send c => cases hx; rfl
  | close => cases hx; rfl
  | interrupt flag =>
    cases flag with
    | true => cases hx; rfl
    | false => cases hx
  | access x => cases hx
  | load bytes => cases hx
  | turn => cases hx

theorem performAll_append (xs ys : List Move) (c : Cycle σ) :
    performAll (xs ++ ys) c = performAll ys (performAll xs c) := by
  induction xs generalizing c with
  | nil => rfl
  | cons x xs ih => exact ih (x.perform c)

namespace Interleaves

variable {feed : List SourceAction} {others : Move → Prop} {x : Move} {xs ys : List Move}

theorem left (h : Interleaves feed others (xs ++ ys)) : Interleaves feed others xs where
  source := by
    have hall := h.source
    unfold actions at hall
    rw [List.filterMap_append] at hall
    exact (List.prefix_append _ _).trans hall
  others x hx := h.others x (List.mem_append_left ys hx)

/-- The first move is the source's next action, or a move of another kind. -/
theorem cons_cases (h : Interleaves feed others (x :: xs)) :
    (∃ a rest, x.action? = some a ∧ feed = a :: rest ∧ Interleaves rest others xs) ∨
      x.action? = none ∧ others x ∧ Interleaves feed others xs := by
  have hsource := h.source
  have hothers : ∀ y ∈ xs, y.action? = none → others y := by
    intro y hy
    exact h.others y (List.mem_cons_of_mem x hy)
  unfold actions at hsource
  cases hx : x.action? with
  | none =>
    rw [List.filterMap_cons_none hx] at hsource
    exact .inr ⟨rfl, h.others x List.mem_cons_self hx, hsource, hothers⟩
  | some a =>
    rw [List.filterMap_cons_some hx] at hsource
    obtain ⟨unsent, hunsent⟩ := hsource
    exact .inl ⟨a, _, rfl, hunsent.symm, List.prefix_append _ unsent, hothers⟩

end Interleaves

/-! ### The far end of the keyboard -/

theorem mem_actions_cons {a : SourceAction} {x : Move} {xs : List Move} :
    a ∈ actions (x :: xs) ↔ x.action? = some a ∨ a ∈ actions xs := by
  unfold actions
  simp only [List.mem_filterMap, List.mem_cons, exists_eq_or_imp]

theorem action?_eq_close_iff {x : Move} : x.action? = some .close ↔ x = close := by
  constructor
  · intro hx
    cases x with
    | close => rfl
    | interrupt flag => cases flag <;> cases hx
    | send c | access x | load bytes | turn => cases hx
  · rintro rfl
    rfl

/-- The characters that have been sent are those of the source's actions. -/
theorem accepted_actions (moves : List Move) :
    accepted moves = SourceAction.accepted (actions moves) := by
  induction moves with
  | nil => rfl
  | cons x xs ih =>
    cases x with
    | close => rfl
    | send c =>
      rw [accepted_cons Move.noConfusion, ih]
      rfl
    | interrupt flag =>
      rw [accepted_cons Move.noConfusion, ih]
      cases flag <;> rfl
    | access x | load bytes | turn =>
      rw [accepted_cons Move.noConfusion, ih]
      rfl

/-- The queue is open as long as the source has not closed it. -/
theorem isOpen_performAll (moves : List Move) (c : Cycle σ) :
    (performAll moves c).machine.memory.keyboard.isOpen = true ↔
      c.machine.memory.keyboard.isOpen = true ∧ .close ∉ actions moves := by
  induction moves generalizing c with
  | nil => exact ⟨fun h => ⟨h, List.not_mem_nil⟩, And.left⟩
  | cons x xs ih =>
    refine (ih (x.perform c)).trans ?_
    rw [mem_actions_cons, action?_eq_close_iff, not_or]
    by_cases hx : x = close
    · -- from here on it is closed
      have hclosed : (x.perform c).machine.memory.keyboard.isOpen = false := by rw [hx]; rfl
      rw [hclosed]
      exact ⟨fun h => absurd h.1 Bool.false_ne_true, fun h => absurd hx h.2.1⟩
    · rw [isOpen_perform hx]
      exact and_congr_right fun _ => (and_iff_right hx).symm

/-- Only moves that set the flag change it. -/
theorem interrupted_perform {x : Move} (hx : ∀ flag, x ≠ interrupt flag) (c : Cycle σ) :
    (x.perform c).machine.memory.keyboard.interrupted =
      c.machine.memory.keyboard.interrupted := by
  cases x with
  | send character =>
    change (c.machine.memory.keyboard.send [character]).interrupted = _
    unfold Keyboard.send
    split <;> rfl
  | close => rfl
  | interrupt flag => exact absurd rfl (hx flag)
  | access x => exact (x.source_perform c.machine.memory).2
  | load bytes => exact congrArg Keyboard.interrupted (Memory.keyboard_afterLoading _ bytes)
  | turn =>
    change c.turn.machine.memory.keyboard.interrupted = _
    rw [c.memory_turn]
    exact (Access.source_performAll _ _).2

theorem close_mem_actions {moves : List Move} {c : Cycle σ}
    (hopen : c.machine.memory.keyboard.isOpen = true)
    (hclosed : (performAll moves c).machine.memory.keyboard.isOpen = false) :
    .close ∈ actions moves := by
  by_contra hclose
  have hstill := (isOpen_performAll moves c).2 ⟨hopen, hclose⟩
  rw [hclosed] at hstill
  cases hstill

/-- If nobody takes the flag back, it is set from the moment on at which the source sets it. -/
theorem interrupted_performAll {moves : List Move} (hback : .interrupt false ∉ moves)
    (c : Cycle σ) :
    (performAll moves c).machine.memory.keyboard.interrupted = true ↔
      c.machine.memory.keyboard.interrupted = true ∨ .interrupt ∈ actions moves := by
  induction moves generalizing c with
  | nil => exact ⟨.inl, fun h => h.resolve_right List.not_mem_nil⟩
  | cons x xs ih =>
    obtain ⟨hx, hxs⟩ := not_or.1 (mt List.mem_cons.2 hback)
    refine (ih hxs (x.perform c)).trans ?_
    rw [mem_actions_cons]
    by_cases hset : x = interrupt true
    · have hflag : (x.perform c).machine.memory.keyboard.interrupted = true := by rw [hset]; rfl
      have haction : x.action? = some .interrupt := by rw [hset]; rfl
      exact ⟨fun _ => .inr (.inl haction), fun _ => .inl hflag⟩
    · have hnone : ∀ flag, x ≠ interrupt flag := by
        intro flag
        cases flag with
        | true => exact hset
        | false => exact Ne.symm hx
      have haction : x.action? ≠ some .interrupt := by
        intro ha
        cases x with
        | interrupt flag => exact hnone flag rfl
        | send c | close | access x | load bytes | turn => cases ha
      rw [interrupted_perform hnone]
      exact or_congr_right (or_iff_right haction).symm

/-- Beside a program that does not touch the flag, it says whether the source has set it. -/
theorem Interleaves.interrupted_iff {feed : List SourceAction} {moves : List Move}
    (h : Interleaves feed (fun x => x = .turn ∨ ∃ a, x = .access a) moves) {start : Cycle σ}
    (hflag : start.machine.memory.keyboard.interrupted = false) :
    (performAll moves start).machine.memory.keyboard.interrupted = true ↔
      .interrupt ∈ actions moves := by
  have hback : .interrupt false ∉ moves := by
    intro hmem
    obtain hturn | ⟨a, haccess⟩ := h.others _ hmem rfl
    · cases hturn
    · cases haccess
  rw [interrupted_performAll hback, hflag]
  exact or_iff_right Bool.false_ne_true

/-- **A closed queue has the whole source behind it**, if closing is the last thing that the source
does. Each character has been handed out or is still there, and the flag is what the source has made
of it. -/
theorem Interleaves.finished {xs : List SourceAction} {moves : List Move}
    (h : Interleaves (xs ++ [.close]) (fun x => x = .turn ∨ ∃ a, x = .access a) moves)
    (hxs : .close ∉ xs) {start : Cycle σ}
    (hfresh : start.machine.memory.keyboard = .channel [] true)
    (hclosed : (performAll moves start).machine.memory.keyboard.isOpen = false) :
    deliveredAll moves start ++ (performAll moves start).machine.memory.keyboard.available =
        SourceAction.accepted (xs ++ [.close]) ∧
      ((performAll moves start).machine.memory.keyboard.interrupted = true ↔
        .interrupt ∈ xs ++ [.close]) := by
  have hopen : start.machine.memory.keyboard.isOpen = true := by rw [hfresh]; rfl
  have hclear : start.machine.memory.keyboard.interrupted = false := by rw [hfresh]; rfl
  have hactions : actions moves = xs ++ [.close] :=
    SourceAction.eq_of_close_mem hxs h.source (close_mem_actions hopen hclosed)
  constructor
  · rw [deliveredAll_append, accepted_actions, hactions, hfresh]
    rfl
  · rw [h.interrupted_iff hclear, hactions]

end Move

end LC3
