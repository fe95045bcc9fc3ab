import LC3.Proofs.Course

/-!
# What a run leaves in memory

Reading may write: a read of the status register overwrites that cell, and if a character is there
it overwrites the data register as well. So even a load, a fetch or the output of a string changes
memory, and the question is which cells. The accesses of a part of a cycle are known, and what each
of them leaves in which cell is an **effect**. There are only two kinds, and no cell but the two
device registers is touched by the second one.

* `Access.peek_perform` — a cell holds what the last effect on it has left there.
* `Cycle.stored_effects` — the effects of the first kind are the stores of ST, STI and STR.
* `peek_through` — the cells behind any number of parts, by induction.
* `write_footprint` — what this says about calls that execute instructions.
-/

namespace LC3

/-- What an access leaves in memory. -/
inductive Effect
  /-- A word is stored. -/
  | store (a value : Word)
  /-- The device registers are brought up to date, with the character that was found. -/
  | poll (found : Option Word)
deriving DecidableEq

namespace Effect

/-- The word that an effect leaves in a cell. -/
def leaves? (a : Word) : Effect → Option Word
  | store b value => if b = a then some value else none
  | poll (some c) =>
    if a = Memory.statusAddress then some Memory.readyStatus
    else if a = Memory.dataAddress then some c
    else none
  | poll none => if a = Memory.statusAddress then some 0 else none

/-- The address and the word of a store. -/
def stored? : Effect → Option (Word × Word)
  | store a value => some (a, value)
  | poll _ => none

/-- The word that several effects leave in a cell, given what it held before. -/
def settle (a : Word) (effects : List Effect) (before : Word) : Word :=
  (effects.filterMap (leaves? a)).getLast?.getD before

theorem settle_append (a : Word) (xs ys : List Effect) (before : Word) :
    settle a (xs ++ ys) before = settle a ys (settle a xs before) := by
  unfold settle
  rw [List.filterMap_append, List.getLast?_append]
  cases (ys.filterMap (leaves? a)).getLast? with
  | none => rfl
  | some w => rfl

/-- Only a store leaves anything in an ordinary cell. -/
theorem filterMap_leaves? {a : Word} (hs : a ≠ Memory.statusAddress) (hd : a ≠ Memory.dataAddress)
    (effects : List Effect) :
    effects.filterMap (leaves? a) =
      ((effects.filterMap stored?).filter fun store => store.1 = a).map Prod.snd := by
  -- a store counts on both sides or on neither, and a poll on neither
  induction effects with
  | nil => rfl
  | cons e effects ih =>
    cases e with
    | store b value =>
      have hstored : stored? (store b value) = some (b, value) := rfl
      rw [List.filterMap_cons_some hstored]
      by_cases hb : b = a
      · have hleft : leaves? a (store b value) = some value := if_pos hb
        rw [List.filterMap_cons_some hleft, List.filter_cons_of_pos (by simpa using hb), ih]
        rfl
      · have hleft : leaves? a (store b value) = none := if_neg hb
        rw [List.filterMap_cons_none hleft, List.filter_cons_of_neg (by simpa using hb), ih]
    | poll found =>
      have hstored : stored? (poll found) = none := rfl
      have hleft : leaves? a (poll found) = none := by
        cases found with
        | some c => exact (if_neg hs).trans (if_neg hd)
        | none => exact if_neg hs
      rw [List.filterMap_cons_none hleft, List.filterMap_cons_none hstored, ih]

end Effect

/-! ### Accesses -/

namespace Access

/-- The effects of an access. Most have none. -/
def effects : Access → Memory → List Effect
  | read a, m => if a = Memory.statusAddress then [.poll (m.keyboard.next?.map Prod.fst)] else []
  | write a value, _ => [.store a value]
  | _, _ => []

def effectsAll : List Access → Memory → List Effect
  | [], _ => []
  | x :: xs, m => x.effects m ++ effectsAll xs (x.perform m)

theorem effects_read_status (m : Memory) :
    (read Memory.statusAddress).effects m = [.poll (m.keyboard.next?.map Prod.fst)] := by
  simp [effects]

theorem effects_read_of_ne {a : Word} (ha : a ≠ Memory.statusAddress) (m : Memory) :
    (read a).effects m = [] := by
  simp [effects, ha]

/-- **What an access leaves in a cell.** -/
theorem peek_perform (x : Access) (m : Memory) (a : Word) :
    (x.perform m).peek a = Effect.settle a (x.effects m) (m.peek a) := by
  cases x with
  | read b =>
    show (m.read b).2.peek a = _
    by_cases hb : b = Memory.statusAddress
    · subst hb
      have hne : Memory.dataAddress ≠ Memory.statusAddress := by decide
      rw [m.read_statusAddress, m.peek_refresh, effects_read_status]
      unfold Effect.settle
      cases m.keyboard.next? with
      | some next =>
        -- three cases: the one register, the other one, and all the rest
        by_cases hs : a = Memory.statusAddress
        · simp [Effect.leaves?, hs]
        · by_cases hd : a = Memory.dataAddress
          · simp [Effect.leaves?, hne, hd]
          · simp [Effect.leaves?, hs, hd]
      | none =>
        by_cases hs : a = Memory.statusAddress
        · simp [Effect.leaves?, hs]
        · simp [Effect.leaves?, hs]
    · rw [m.read_of_ne hb, effects_read_of_ne hb]
      rfl
  | write b value =>
    show (m.write b value).peek a = Effect.settle a [.store b value] (m.peek a)
    rw [m.peek_write]
    by_cases hab : a = b
    · subst hab
      simp [Effect.settle, Effect.leaves?]
    · simp [Effect.settle, Effect.leaves?, hab, Ne.symm hab]
  | poll => rfl
  | take => rfl
  | receive => rfl

theorem peek_performAll (xs : List Access) (m : Memory) (a : Word) :
    (performAll xs m).peek a = Effect.settle a (effectsAll xs m) (m.peek a) := by
  induction xs generalizing m with
  | nil => rfl
  | cons x xs ih =>
    show (performAll xs (x.perform m)).peek a = Effect.settle a (x.effects m ++ _) _
    rw [ih, Effect.settle_append, ← peek_perform]

/-- Reads store nothing. -/
theorem stored_reads {xs : List Access} (h : ∀ x ∈ xs, ∃ a, x = read a) (m : Memory) :
    (effectsAll xs m).filterMap Effect.stored? = [] := by
  induction xs generalizing m with
  | nil => rfl
  | cons x xs ih =>
    obtain ⟨⟨a, rfl⟩, hxs⟩ := List.forall_mem_cons.1 h
    have hfirst : ((read a).effects m).filterMap Effect.stored? = [] := by
      by_cases ha : a = Memory.statusAddress
      · subst ha
        rw [effects_read_status]
        rfl
      · rw [effects_read_of_ne ha]
        rfl
    show ((read a).effects m ++ effectsAll xs _).filterMap Effect.stored? = []
    rw [List.filterMap_append, hfirst, ih hxs]
    rfl

theorem stored_sweep (a : Word) (k : ℕ) (m : Memory) :
    (effectsAll (sweep a k) m).filterMap Effect.stored? = [] := by
  -- a sweep is nothing but reads
  refine stored_reads ?_ m
  intro x hx
  obtain ⟨j, -, rfl⟩ := List.mem_map.1 hx
  exact ⟨_, rfl⟩

/-- An access behind a read: the read itself stores nothing. -/
theorem stored_read_cons (a : Word) (xs : List Access) (m : Memory) :
    (effectsAll (read a :: xs) m).filterMap Effect.stored? =
      (effectsAll xs (m.read a).2).filterMap Effect.stored? := by
  have hfirst : (effectsAll [read a] m).filterMap Effect.stored? = [] :=
    stored_reads (fun x hx => ⟨a, List.mem_singleton.1 hx⟩) m
  have happend : effectsAll (read a :: xs) m = effectsAll [read a] m ++ effectsAll xs (m.read a).2 := by
    show _ ++ _ = (_ ++ []) ++ _
    rw [List.append_nil]
    rfl
  rw [happend, List.filterMap_append, hfirst]
  rfl

end Access

/-! ### Stores -/

/-- The effective address and the word of a store instruction. -/
def Instruction.store? (i : Instruction) (h : Hardware) : Option (Word × Word) :=
  match i.operation with
  | .st => some (h.relativeAddress i 9, h.registers.get i.dr)
  | .sti => some ((h.memory.read (h.relativeAddress i 9)).1, h.registers.get i.dr)
  | .str => some (h.baseAddress i, h.registers.get i.dr)
  | _ => none

/-- The store of the instruction that is executed next. -/
def Machine.store? (m : Machine) : Option (Word × Word) :=
  match m.status with
  | .halted => none
  | .running => if m.memory.keyboard.interrupted then none else m.fetch.1.store? m.fetch.2

/-- A routine reads a string at most. -/
theorem TrapRoutine.stored_accesses (t : TrapRoutine) (h : Hardware) (m : Memory) :
    (Access.effectsAll (t.accesses h) m).filterMap Effect.stored? = [] := by
  cases t with
  | puts | putsp => exact Access.stored_sweep (h.registers.get 0) _ m
  | getc | out | input | halt => rfl

theorem Instruction.stored_effects (i : Instruction) (h : Hardware) :
    (Access.effectsAll (i.accesses h) h.memory).filterMap Effect.stored? =
      (i.store? h).toList := by
  unfold accesses Hardware.accesses store?
  cases ho : i.operation with
  | trap =>
    cases TrapRoutine.ofVector? i.trapVector with
    | none => rfl
    | some t => exact t.stored_accesses h h.memory
  | ld | ldr =>
    refine Access.stored_reads ?_ h.memory
    intro x hx
    exact ⟨_, List.mem_singleton.1 hx⟩
  | ldi =>
    refine Access.stored_reads ?_ h.memory
    intro x hx
    obtain rfl | hx := List.mem_cons.1 hx
    · exact ⟨_, rfl⟩
    · exact ⟨_, List.mem_singleton.1 hx⟩
  | sti =>
    -- the pointer is read, and only then something is stored
    rw [Access.stored_read_cons]
    rfl
  | st | str | br | add | jsr | and | rti | not | jmp | res | lea => rfl

namespace Cycle

variable {σ : Type}

/-- What the part of a cycle that comes next does to memory. -/
def effects (c : Cycle σ) : List Effect :=
  Access.effectsAll c.accesses c.machine.memory

/-- The store that it executes, if it is one. -/
def stores (c : Cycle σ) : List (Word × Word) :=
  match c.phase with
  | .done _ => c.machine.store?.toList
  | .awaitKey _ _ => []

/-- **Nothing is stored but by ST, STI and STR.** -/
theorem stored_effects (c : Cycle σ) : c.effects.filterMap Effect.stored? = c.stores := by
  unfold effects accesses stores
  cases c.phase with
  | awaitKey address echo => rfl
  | done o =>
    show (Access.effectsAll c.machine.accesses _).filterMap _ = c.machine.store?.toList
    unfold Machine.accesses Machine.store?
    cases c.machine.status with
    | halted => rfl
    | running =>
      cases c.machine.memory.keyboard.interrupted with
      | true => rfl
      | false =>
        -- the fetch stores nothing, and the rest is up to the instruction
        show (Access.effectsAll (.read c.machine.registers.pc :: _) _).filterMap _ = _
        rw [Access.stored_read_cons]
        exact Instruction.stored_effects c.machine.fetch.1 c.machine.fetch.2

variable [ByteSink σ]

theorem peek_turn (c : Cycle σ) (a : Word) :
    c.turn.machine.memory.peek a = Effect.settle a c.effects (c.machine.memory.peek a) := by
  rw [c.memory_turn]
  exact Access.peek_performAll c.accesses c.machine.memory a

/-- **Every cell holds what the last effect has left there**, behind any number of parts. -/
theorem peek_through (fs : Changes) (c : Cycle σ) (a : Word) :
    (c.through fs).machine.memory.peek a =
      Effect.settle a (c.course effects fs) (c.machine.memory.peek a) := by
  induction fs generalizing c with
  | nil => rfl
  | cons f fs ih =>
    -- the keyboard is none of the cells
    have hkey : (c.onKeyboard f).machine.memory.peek a = c.machine.memory.peek a := rfl
    have hfirst : (c.onKeyboard f).turn.machine.memory.peek a =
        Effect.settle a (c.onKeyboard f).effects (c.machine.memory.peek a) := by
      rw [peek_turn, hkey]
    calc (c.through (f :: fs)).machine.memory.peek a
        = Effect.settle a ((c.onKeyboard f).turn.course effects fs)
            ((c.onKeyboard f).turn.machine.memory.peek a) := ih (c.onKeyboard f).turn
      _ = Effect.settle a (c.course effects (f :: fs)) (c.machine.memory.peek a) := by
            rw [hfirst, ← Effect.settle_append]
            rfl

theorem stored_course (fs : Changes) (c : Cycle σ) :
    (c.course effects fs).filterMap Effect.stored? = c.course stores fs := by
  induction fs generalizing c with
  | nil => rfl
  | cons f fs ih =>
    show ((c.onKeyboard f).effects ++ (c.onKeyboard f).turn.course effects fs).filterMap _ = _
    rw [List.filterMap_append, stored_effects, ih]
    rfl

end Cycle

/-- **The write footprint of a run**, of any length, on any console, and with any changes of the
keyboard meanwhile. An ordinary cell holds the word that the last store to it has left there, or
what it held before the run; the two device registers change by stores and by reads of the status
register. The stores are those of ST, STI and STR. A call that executes one instruction, a call that
executes instructions up to an end, and a sequence of calls of the first kind are runs of this
kind. -/
theorem write_footprint {σ : Type} [ByteSink σ] (m : Machine) (s : σ) (fs : Changes) :
    let start := m.ready s
    let final := (start.through fs).machine.memory
    let stores := start.course Cycle.stores fs
    let effects := start.course Cycle.effects fs
    (∀ a, a ≠ 0xFE00 → a ≠ 0xFE02 →
        final.peek a =
          ((stores.filter fun store => store.1 = a).map Prod.snd).getLast?.getD (m.memory.peek a)) ∧
      (∀ a, final.peek a =
        (effects.filterMap (Effect.leaves? a)).getLast?.getD (m.memory.peek a)) ∧
      effects.filterMap Effect.stored? = stores ∧
      (∀ c, m.Steps s fs c → c.machine.memory = final) ∧
      (∀ r, m.Executes s fs r → r.machine.memory = final) ∧
      ∀ (fss : List Changes) rs m' s', fss.flatten = fs → Session m s (fss.map .step) rs m' s' →
        m'.memory = final := by
  intro start final stores effects
  have hall : ∀ a, final.peek a = Effect.settle a effects (m.memory.peek a) := by
    intro a
    exact start.peek_through fs a
  have hstores : effects.filterMap Effect.stored? = stores := start.stored_course fs
  refine ⟨?ordinary, hall, hstores, ?step, ?execute, ?steps⟩
  case ordinary =>
    -- among the effects on such a cell there are only stores
    intro a hs hd
    rw [hall, ← hstores, ← Effect.filterMap_leaves? hs hd]
    rfl
  case step =>
    intro c hc
    rw [hc.eq_through]
  case execute =>
    intro r hr
    rw [hr.through.1]
  case steps =>
    intro fss rs m' s' hfs hrs
    subst hfs
    rw [hrs.through_steps.1]

end LC3
