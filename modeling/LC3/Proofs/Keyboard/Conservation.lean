import LC3.Proofs.Access
import LC3.Proofs.Placement
import LC3.Proofs.Timeline
import Mathlib.Logic.Function.Iterate

/-!
# No character is lost

Between the source that sends characters and the program there are a queue and a slot, and there are
three ways to the program: a routine waits for a key, somebody looks for one and takes it, or the
status register is read, by whatever instruction. All of this happens in any order, with the source
sending, closing and interrupting in between. Still every character that was accepted is handed out
once, in order, or is still there.

The invariant is an equation of lists, and every access and every other move keeps it:

* `Access.delivered_append` — what an access hands out is the front of what was available.
* `Move.delivered_append` — the same for a move, with what the source has sent at the back.
* `characters_conserved` — the equation after any sequence of moves, with what looking, waiting and
  the status register answer at that point.
-/

namespace LC3

/-! ### What an access hands out -/

namespace Access

section Characters

variable {m : Memory} {rest : Keyboard} {c : Word}

theorem delivered_receive_of_next? (h : m.keyboard.next? = some (c, rest)) :
    receive.delivered m = [c] := by
  unfold delivered
  simp only [Keyboard.read_of_next? h]

theorem delivered_receive_of_none (h : m.keyboard.next? = none) : receive.delivered m = [] := by
  unfold delivered
  by_cases ho : m.keyboard.isOpen = true
  · simp only [Keyboard.read_of_none h, if_pos ho]
  · simp only [Keyboard.read_of_none h, if_neg ho]

/-- The character that is found goes into the data register. -/
theorem delivered_read_of_next? (h : m.keyboard.next? = some (c, rest)) :
    (read Memory.statusAddress).delivered m = [c] := by
  obtain ⟨hanswer, hpeek, -⟩ := Memory.read_status_of_next? rfl h
  have hdata : (m.read Memory.statusAddress).2.peek Memory.dataAddress = c := by
    rw [hpeek]
    rfl
  have hfound : (read Memory.statusAddress).delivered m =
      [(m.read Memory.statusAddress).2.peek Memory.dataAddress] := if_pos ⟨rfl, hanswer⟩
  rw [hfound, hdata]

theorem delivered_read_of_none (h : m.keyboard.next? = none) :
    (read Memory.statusAddress).delivered m = [] := by
  have hanswer := (Memory.read_status_of_none rfl h).1
  exact if_neg fun hboth => absurd (hanswer.symm.trans hboth.2) (by decide)

end Characters

/-- What an access hands out is the front of what was available, and the rest is still there. -/
theorem delivered_append (x : Access) (m : Memory) :
    x.delivered m ++ (x.perform m).keyboard.available = m.keyboard.available := by
  cases x with
  | read a =>
    -- only the status register has a character to hand out
    change _ ++ (m.read a).2.keyboard.available = _
    by_cases ha : a = Memory.statusAddress
    · subst ha
      cases hn : m.keyboard.next? with
      | some next =>
        obtain ⟨c, rest⟩ := next
        rw [delivered_read_of_next? hn, (Memory.read_status_of_next? rfl hn).2.2,
          (Keyboard.available_of_next? hn).1]
        rfl
      | none =>
        rw [delivered_read_of_none hn, (Memory.read_status_of_none rfl hn).2.2]
        rfl
    · have hnone : (read a).delivered m = [] := if_neg fun hboth => ha hboth.1
      rw [hnone, Memory.read_of_ne m ha]
      rfl
  | write a value => rfl
  | poll => exact Keyboard.available_poll m.keyboard
  | take => exact (Keyboard.available_take m.keyboard).symm
  | receive =>
    change _ ++ m.keyboard.read.2.available = _
    cases hn : m.keyboard.next? with
    | some next =>
      obtain ⟨c, rest⟩ := next
      rw [delivered_receive_of_next? hn, Keyboard.read_of_next? hn,
        (Keyboard.available_of_next? hn).1]
      rfl
    | none =>
      -- whether it fails or waits, the keyboard is as before
      rw [delivered_receive_of_none hn, Keyboard.read_of_none hn]
      rfl

/-- The state of the queue and the flag belong to the source, and no access changes them. -/
theorem source_perform (x : Access) (m : Memory) :
    (x.perform m).keyboard.isOpen = m.keyboard.isOpen ∧
      (x.perform m).keyboard.interrupted = m.keyboard.interrupted := by
  cases x with
  | read a =>
    change (m.read a).2.keyboard.isOpen = _ ∧ (m.read a).2.keyboard.interrupted = _
    by_cases ha : a = Memory.statusAddress
    · subst ha
      cases hn : m.keyboard.next? with
      | some next =>
        obtain ⟨c, rest⟩ := next
        rw [(Memory.read_status_of_next? rfl hn).2.2]
        exact (Keyboard.available_of_next? hn).2
      | none =>
        rw [(Memory.read_status_of_none rfl hn).2.2]
        exact ⟨rfl, rfl⟩
    · rw [Memory.read_of_ne m ha]
      exact ⟨rfl, rfl⟩
  | write a value => exact ⟨rfl, rfl⟩
  | poll => exact ⟨Keyboard.isOpen_poll m.keyboard, Keyboard.interrupted_poll m.keyboard⟩
  | take => exact ⟨rfl, rfl⟩
  | receive =>
    change m.keyboard.read.2.isOpen = _ ∧ m.keyboard.read.2.interrupted = _
    cases hn : m.keyboard.next? with
    | some next =>
      obtain ⟨c, rest⟩ := next
      rw [Keyboard.read_of_next? hn]
      exact (Keyboard.available_of_next? hn).2
    | none =>
      rw [Keyboard.read_of_none hn]
      exact ⟨rfl, rfl⟩

theorem deliveredAll_append (xs : List Access) (m : Memory) :
    deliveredAll xs m ++ (performAll xs m).keyboard.available = m.keyboard.available := by
  induction xs generalizing m with
  | nil => rfl
  | cons x xs ih =>
    change (x.delivered m ++ deliveredAll xs (x.perform m)) ++
      (performAll xs (x.perform m)).keyboard.available = _
    rw [List.append_assoc, ih, delivered_append]

theorem source_performAll (xs : List Access) (m : Memory) :
    (performAll xs m).keyboard.isOpen = m.keyboard.isOpen ∧
      (performAll xs m).keyboard.interrupted = m.keyboard.interrupted := by
  induction xs generalizing m with
  | nil => exact ⟨rfl, rfl⟩
  | cons x xs ih =>
    obtain ⟨hopen, hflag⟩ := x.source_perform m
    obtain ⟨hopenAll, hflagAll⟩ := ih (x.perform m)
    exact ⟨hopenAll.trans hopen, hflagAll.trans hflag⟩

end Access

/-! ### Moves -/

/-- What can happen between a source, a host program and the machine. -/
inductive Move
  /-- The source sends a character. -/
  | send (c : Word)
  /-- The source closes the queue. -/
  | close
  /-- The interrupted flag is set to a value. -/
  | interrupt (flag : Bool)
  /-- The host uses memory or the near end of the keyboard. -/
  | access (x : Access)
  /-- The host loads an image. -/
  | load (bytes : List Byte)
  /-- The machine executes the next part of a cycle. -/
  | turn
deriving DecidableEq

/-- Memory changes while a cycle is between two of its parts. -/
def Cycle.onMemory {σ : Type} (f : Memory → Memory) (c : Cycle σ) : Cycle σ :=
  { c with machine := c.machine.withMemory (f c.machine.memory) }

namespace Move

variable {σ : Type} [ByteSink σ]

/-- The machine, somewhere in a cycle, behind a move. -/
def perform : Move → Cycle σ → Cycle σ
  | send c, cycle => cycle.onKeyboard fun k => k.send [c]
  | close, cycle => cycle.onKeyboard Keyboard.close
  | interrupt flag, cycle => cycle.onKeyboard fun k => k.setInterrupted flag
  | access x, cycle => cycle.onMemory x.perform
  | load bytes, cycle => cycle.onMemory fun m => m.afterLoading bytes
  | turn, cycle => cycle.turn

/-- The characters that a move hands out. -/
def delivered : Move → Cycle σ → List Word
  | access x, cycle => x.delivered cycle.machine.memory
  | turn, cycle => Access.deliveredAll cycle.accesses cycle.machine.memory
  | _, _ => []

/-- The character that a move sends. -/
def sent? : Move → Option Word
  | send c => some c
  | _ => none

def performAll : List Move → Cycle σ → Cycle σ
  | [], cycle => cycle
  | x :: xs, cycle => performAll xs (x.perform cycle)

/-- The characters that several moves hand out, in order. -/
def deliveredAll : List Move → Cycle σ → List Word
  | [], _ => []
  | x :: xs, cycle => x.delivered cycle ++ deliveredAll xs (x.perform cycle)

/-- The characters that are sent before the queue is closed. -/
def accepted (moves : List Move) : List Word :=
  (moves.takeWhile (· ≠ close)).filterMap sent?

@[simp] theorem accepted_close (moves : List Move) : accepted (close :: moves) = [] := rfl

theorem accepted_cons {x : Move} (hx : x ≠ close) (moves : List Move) :
    accepted (x :: moves) = x.sent?.toList ++ accepted moves := by
  unfold accepted
  rw [List.takeWhile_cons_of_pos (by simpa using hx), List.filterMap_cons]
  cases x.sent? with
  | none => rfl
  | some c => rfl

/-- Only the source closes the queue. -/
theorem isOpen_perform {x : Move} (hx : x ≠ close) (cycle : Cycle σ) :
    (x.perform cycle).machine.memory.keyboard.isOpen =
      cycle.machine.memory.keyboard.isOpen := by
  cases x with
  | send c =>
    change (cycle.machine.memory.keyboard.send [c]).isOpen = _
    unfold Keyboard.send
    split <;> rfl
  | close => exact absurd rfl hx
  | interrupt flag => rfl
  | access x => exact (x.source_perform cycle.machine.memory).1
  | load bytes => exact congrArg Keyboard.isOpen (Memory.keyboard_afterLoading _ bytes)
  | turn =>
    change cycle.turn.machine.memory.keyboard.isOpen = _
    rw [cycle.memory_turn]
    exact (Access.source_performAll _ _).1

private theorem delivered_append_of_sent?_eq_none {x : Move} {cycle : Cycle σ}
    (hx : x.sent? = none)
    (h : x.delivered cycle ++ (x.perform cycle).machine.memory.keyboard.available =
      cycle.machine.memory.keyboard.available) :
    x.delivered cycle ++ (x.perform cycle).machine.memory.keyboard.available =
      cycle.machine.memory.keyboard.available ++
        if cycle.machine.memory.keyboard.isOpen then x.sent?.toList else [] := by
  rw [h, hx]
  cases cycle.machine.memory.keyboard.isOpen <;> exact (List.append_nil _).symm

/-- **A move keeps the characters.** What it hands out was in front, what it sends comes to the
back if the queue is open, and everything else stays. -/
theorem delivered_append (x : Move) (cycle : Cycle σ) :
    x.delivered cycle ++ (x.perform cycle).machine.memory.keyboard.available =
      cycle.machine.memory.keyboard.available ++
        if cycle.machine.memory.keyboard.isOpen then x.sent?.toList else [] := by
  cases x with
  | send c => exact Keyboard.available_send cycle.machine.memory.keyboard [c]
  | close => exact delivered_append_of_sent?_eq_none rfl rfl
  | interrupt flag => exact delivered_append_of_sent?_eq_none rfl rfl
  | access x =>
    refine delivered_append_of_sent?_eq_none rfl ?_
    exact x.delivered_append cycle.machine.memory
  | load bytes =>
    refine delivered_append_of_sent?_eq_none rfl ?_
    exact congrArg Keyboard.available (Memory.keyboard_afterLoading _ bytes)
  | turn =>
    refine delivered_append_of_sent?_eq_none rfl ?_
    change Access.deliveredAll cycle.accesses cycle.machine.memory ++
      cycle.turn.machine.memory.keyboard.available = _
    rw [cycle.memory_turn]
    exact Access.deliveredAll_append _ _

/-- **Several moves keep the characters.** -/
theorem deliveredAll_append (moves : List Move) (cycle : Cycle σ) :
    deliveredAll moves cycle ++ (performAll moves cycle).machine.memory.keyboard.available =
      cycle.machine.memory.keyboard.available ++
        if cycle.machine.memory.keyboard.isOpen then accepted moves else [] := by
  induction moves generalizing cycle with
  | nil =>
    have hnil (ho : Bool) : (if ho then accepted [] else []) = [] := by cases ho <;> rfl
    rw [hnil, List.append_nil]
    rfl
  | cons x xs ih =>
    -- the equation of the first move, and then that of the others from where it has led
    have hstep := x.delivered_append cycle
    change (x.delivered cycle ++ deliveredAll xs (x.perform cycle)) ++
      (performAll xs (x.perform cycle)).machine.memory.keyboard.available = _
    rw [List.append_assoc, ih, ← List.append_assoc, hstep, List.append_assoc]
    congr 1
    by_cases hx : x = close
    · -- from here on the queue is closed
      subst hx
      have hclosed :
          ((close : Move).perform cycle).machine.memory.keyboard.isOpen = false := rfl
      rw [hclosed, accepted_close]
      cases cycle.machine.memory.keyboard.isOpen <;> rfl
    · rw [isOpen_perform hx, accepted_cons hx]
      cases cycle.machine.memory.keyboard.isOpen <;> rfl

end Move

/-! ### What the keyboard answers -/

namespace Keyboard

/-- Nothing is available when the slot and the queue are empty. -/
theorem available_eq_nil_iff (k : Keyboard) :
    k.available = [] ↔ k.pending = none ∧ k.queue = [] := by
  unfold available
  rw [List.append_eq_nil_iff]
  cases k.pending with
  | none => simp
  | some c => simp

/-- Looking gives the same answer however often it is repeated. -/
theorem isReady_iterate_poll (k : Keyboard) (n : ℕ) :
    (poll^[n + 1] k).isReady = true ↔ k.pending ≠ none ∨ k.queue ≠ [] := by
  -- the first look fills the slot, and the others find it filled
  have hfix : poll^[n + 1] k = k.poll := by
    rw [Function.iterate_succ_apply]
    exact Function.iterate_fixed k.poll_poll n
  rw [hfix, isReady_poll, Bool.not_eq_true', List.isEmpty_eq_false_iff]
  rw [Ne, available_eq_nil_iff, not_and_or]

end Keyboard

/-- **No character is lost, duplicated or reordered.** Whatever happens from some point of a cycle
on: what was available then, followed by what was accepted since, is what was handed out since,
followed by the slot and the queue. The answers of looking, waiting and the status register depend on
the slot and the queue alone, and a part of a cycle uses the keyboard through its accesses alone. -/
theorem characters_conserved {σ : Type} [ByteSink σ] (start : Cycle σ) (moves : List Move) :
    let before := start.machine.memory.keyboard
    let now := Move.performAll moves start
    let m := now.machine.memory
    let k := m.keyboard
    (before.pending.toList ++ before.queue) ++
          (if before.isOpen then Move.accepted moves else []) =
        Move.deliveredAll moves start ++ k.pending.toList ++ k.queue ∧
      (∀ n, (Keyboard.poll^[n + 1] k).isReady = true ↔ k.pending ≠ none ∨ k.queue ≠ []) ∧
      (∀ fault, k.read.1 = .failed fault ↔
        (k.pending = none ∧ k.queue = []) ∧ k.isOpen = false ∧
          fault = if k.interrupted then .interrupted else .inputClosed) ∧
      (∀ other : Memory, other.keyboard = k →
        (other.read 0xFE00).1 = if k.pending = none ∧ k.queue = [] then 0 else 0x8000) ∧
      now.turn.machine.memory = Access.performAll now.accesses m := by
  intro before now m k
  refine ⟨?_, k.isReady_iterate_poll, fun fault => ?_, fun other hother => ?_, now.memory_turn⟩
  · rw [List.append_assoc (Move.deliveredAll moves start)]
    exact (Move.deliveredAll_append moves start).symm
  · rw [← k.available_eq_nil_iff]
    exact k.read_failed_iff fault
  · have hanswer := other.read_status
    rw [hother] at hanswer
    refine hanswer.trans ?_
    simp only [k.available_eq_nil_iff]
    rfl

end LC3
