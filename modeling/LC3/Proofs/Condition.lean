import LC3.Proofs.Course

/-!
# The condition and the register written last

The condition is derived whenever a general register is written, and by nothing else. This module
lists, for every part of a cycle, which register is written with which word; the registers behind a
run are then those before it with these **assignments** made, one after the other, and with some
program counter. What a program can know about the condition follows from that list alone:

* `Hardware.registers_execute`, `Cycle.registers_turn` — what one instruction, or one part of a
  cycle, does to the registers.
* `Cycle.length_assigned_le_one` — the parts of one cycle write at most one register, since one that
  goes into its pause, or stays there, has not written any.
* `Session.come` — the registers behind a session come from the assignments since the last reset.
* `condition_of_last_assignment` — the condition is the sign class of the word assigned last, and
  the register still holds this word.
-/

namespace LC3

/-- A general register, and a word that is written to it. -/
abbrev Assignment := BitVec 3 × Word

namespace Registers

/-- The registers with several assignments made, in order. -/
def assign (regs : Registers) (assignments : List Assignment) : Registers :=
  assignments.foldl (fun regs w => regs.set w.1 w.2) regs

theorem assign_append (regs : Registers) (xs ys : List Assignment) :
    regs.assign (xs ++ ys) = (regs.assign xs).assign ys :=
  List.foldl_append

theorem assign_jump (regs : Registers) (target : Word) (assignments : List Assignment) :
    (regs.jump target).assign assignments = (regs.assign assignments).jump target := by
  -- no assignment touches the program counter, and a jump touches nothing else
  induction assignments generalizing regs with
  | nil => rfl
  | cons w assignments ih => exact ih (regs.set w.1 w.2)

/-- The assignment made last is still there, and it has left the condition. -/
theorem assign_getLast {assignments : List Assignment} {w : Assignment}
    (h : assignments.getLast? = some w) (regs : Registers) :
    (regs.assign assignments).condition = .ofWord w.2 ∧ (regs.assign assignments).get w.1 = w.2 := by
  obtain ⟨earlier, rfl⟩ := List.getLast?_eq_some_iff.1 h
  -- whatever those before it have done
  rw [assign_append]
  exact ⟨condition_set _ _ _, get_set_self _ _ _⟩

theorem get_assign_of_notMem {assignments : List Assignment} {r : BitVec 3}
    (h : ∀ w ∈ assignments, w.1 ≠ r) (regs : Registers) :
    (regs.assign assignments).get r = regs.get r := by
  induction assignments generalizing regs with
  | nil => rfl
  | cons w assignments ih =>
    obtain ⟨hw, hrest⟩ := List.forall_mem_cons.1 h
    have hfirst : (regs.set w.1 w.2).get r = regs.get r := by
      rw [get_set, if_neg (Ne.symm hw)]
    exact (ih hrest _).trans hfirst

theorem get_initial (r : BitVec 3) : initial.get r = 0 :=
  Bank.get_replicate 0 r

end Registers

/-! ### Instructions -/

/-- The assignment that an instruction makes, if it makes one. -/
def Instruction.assigned? (i : Instruction) (h : Hardware) : Option Assignment :=
  match i.operation with
  | .add => some (i.dr, h.firstOperand i + h.secondOperand i)
  | .and => some (i.dr, h.firstOperand i &&& h.secondOperand i)
  | .not => some (i.dr, ~~~ h.firstOperand i)
  | .ld => some (i.dr, (h.memory.read (h.relativeAddress i 9)).1)
  | .ldi =>
    let (a, h) := h.indirect (h.relativeAddress i 9)
    some (i.dr, (h.memory.read a).1)
  | .ldr => some (i.dr, (h.memory.read (h.baseAddress i)).1)
  | .lea => some (i.dr, h.relativeAddress i 9)
  | .jsr => some (7, h.registers.pc)
  | _ => none

/-- **What an instruction does to the registers.** -/
theorem Hardware.registers_execute {i : Instruction} {h h' : Hardware}
    (hx : h.execute? i = some h') :
    ∃ pc, h'.registers = (h.registers.assign (i.assigned? h).toList).jump pc := by
  unfold execute? at hx
  unfold Instruction.assigned?
  cases ho : i.operation with
  | rti | res | trap =>
    -- not executed here
    rw [ho] at hx
    cases hx
  | br =>
    rw [ho] at hx
    cases hx
    show ∃ pc, (h.br i).registers = h.registers.jump pc
    unfold br
    split
    · exact ⟨_, rfl⟩
    · exact ⟨h.registers.pc, rfl⟩
  | jsr | jmp =>
    -- these two jump
    rw [ho] at hx
    cases hx
    exact ⟨_, rfl⟩
  | add | and | not | ld | ldi | ldr | lea | st | sti | str =>
    rw [ho] at hx
    cases hx
    exact ⟨h.registers.pc, rfl⟩

/-- A call of a routine writes no register; what it reads is received later. -/
theorem Instruction.assigned?_of_trap {i : Instruction} (ho : i.operation = .trap) (h : Hardware) :
    i.assigned? h = none := by
  unfold assigned?
  rw [ho]

theorem Instruction.assigned?_of_invalid {i : Instruction}
    (ho : i.operation = .rti ∨ i.operation = .res) (h : Hardware) : i.assigned? h = none := by
  unfold assigned?
  rcases ho with ho | ho <;> rw [ho]

/-- The assignment of the instruction that is executed next. -/
def Machine.assigned? (m : Machine) : Option Assignment :=
  match m.status with
  | .halted => none
  | .running => if m.memory.keyboard.interrupted then none else m.fetch.1.assigned? m.fetch.2

/-- The assignment of a routine that has got a key, given what the keyboard says. -/
def KeyRead.assigned? : KeyRead → Option Assignment
  | .character c => some (0, .ofByte c.low)
  | _ => none

/-- The assignment that the part of a cycle makes that comes next. -/
def Cycle.assigned {σ : Type} (c : Cycle σ) : List Assignment :=
  match c.phase with
  | .done _ => c.machine.assigned?.toList
  | .awaitKey _ _ => c.machine.memory.keyboard.read.1.assigned?.toList

/-! ### Parts of cycles -/

section Parts

variable {σ : Type} [ByteSink σ]

namespace TrapRoutine

theorem registers_begin (t : TrapRoutine) (h : Hardware) (s : σ) :
    (t.begin h s).hardware.registers = h.registers := by
  cases t with
  | getc => rfl
  | out | input | halt => exact congrArg Hardware.registers (hardware_emit _ _ h s)
  | puts | putsp =>
    show (emit _ _ _ s).hardware.registers = h.registers
    rw [hardware_emit]

/-- R0 is written as soon as there is a key, even if its echo fails. -/
theorem registers_receive (echo : Bool) (h : Hardware) (s : σ) :
    (receive echo h s).hardware.registers =
      h.registers.assign h.memory.keyboard.read.1.assigned?.toList := by
  rcases hr : h.memory.keyboard.read with ⟨key, rest⟩
  cases key with
  | waiting =>
    rw [receive_waiting hr]
    rfl
  | failed fault =>
    rw [receive_failed hr]
    rfl
  | character k =>
    rw [receive_character hr]
    cases echo with
    | true => exact congrArg Hardware.registers (hardware_emit _ _ _ s)
    | false => rfl

end TrapRoutine

theorem Machine.registers_dispatch (address : Word) (i : Instruction) (h : Hardware) (s : σ) :
    ∃ pc, (dispatch address i h s).machine.registers =
      (h.registers.assign (i.assigned? h).toList).jump pc := by
  refine dispatch_cases (i := i) (h := h) ?execute ?trap ?badTrap ?invalid
  case execute =>
    intro h' hx
    rw [dispatch_execute hx]
    exact Hardware.registers_execute hx
  case trap =>
    intro t ho ht
    rw [dispatch_trap ho ht, Instruction.assigned?_of_trap ho, Cycle.hardware_ofTrapRun,
      TrapRoutine.registers_begin]
    exact ⟨h.registers.pc, rfl⟩
  case badTrap =>
    intro ho ht
    rw [dispatch_badTrap ho ht, Instruction.assigned?_of_trap ho]
    exact ⟨h.registers.pc, rfl⟩
  case invalid =>
    intro ho
    rw [dispatch_invalid ho, Instruction.assigned?_of_invalid ho]
    exact ⟨h.registers.pc, rfl⟩

theorem Machine.registers_begin (m : Machine) (s : σ) :
    ∃ pc, (m.begin s).machine.registers = (m.registers.assign m.assigned?.toList).jump pc := by
  unfold assigned?
  cases hs : m.status with
  | halted =>
    rw [begin_halted hs]
    exact ⟨m.registers.pc, rfl⟩
  | running =>
    cases hi : m.memory.keyboard.interrupted with
    | true =>
      rw [begin_interrupted hs hi]
      exact ⟨m.registers.pc, rfl⟩
    | false =>
      -- the fetch has moved the program counter, and the rest is up to the instruction
      obtain ⟨pc, hpc⟩ := registers_dispatch m.registers.pc m.fetch.1 m.fetch.2 s
      have hfetch : m.fetch.2.registers = m.registers.jump (m.registers.pc + 1) := rfl
      rw [hfetch, Registers.assign_jump] at hpc
      rw [begin_running hs hi, hpc]
      exact ⟨pc, rfl⟩

namespace Cycle

/-- **What a part of a cycle does to the registers.** -/
theorem registers_turn (c : Cycle σ) :
    ∃ pc, c.turn.machine.registers = (c.machine.registers.assign c.assigned).jump pc := by
  unfold assigned
  cases hp : c.phase with
  | done o =>
    rw [turn_done hp]
    exact Machine.registers_begin c.machine c.sink
  | awaitKey address echo =>
    rw [turn_awaitKey hp, resume_awaitKey hp, hardware_ofTrapRun, TrapRoutine.registers_receive]
    exact ⟨_, rfl⟩

/-- **The registers behind any number of parts.** -/
theorem registers_through (fs : Changes) (c : Cycle σ) :
    ∃ pc, (c.through fs).machine.registers =
      (c.machine.registers.assign (c.course assigned fs)).jump pc := by
  induction fs generalizing c with
  | nil => exact ⟨c.machine.registers.pc, rfl⟩
  | cons f fs ih =>
    obtain ⟨pc, hfirst⟩ := (c.onKeyboard f).registers_turn
    obtain ⟨pc', hrest⟩ := ih (c.onKeyboard f).turn
    refine ⟨pc', ?_⟩
    calc (c.through (f :: fs)).machine.registers
        = ((c.onKeyboard f).turn.machine.registers.assign
            ((c.onKeyboard f).turn.course assigned fs)).jump pc' := hrest
      _ = ((c.machine.registers.assign (c.onKeyboard f).assigned).assign
            ((c.onKeyboard f).turn.course assigned fs)).jump pc' := by
            rw [hfirst, Registers.assign_jump]
            rfl
      _ = (c.machine.registers.assign (c.course assigned (f :: fs))).jump pc' := by
            rw [← Registers.assign_append]
            rfl

/-! ### One cycle -/

omit [ByteSink σ] in
theorem length_assigned_le_one (c : Cycle σ) : c.assigned.length ≤ 1 := by
  have hle (w? : Option Assignment) : w?.toList.length ≤ 1 := by
    cases w? with
    | none => exact Nat.zero_le 1
    | some w => exact Nat.le_refl 1
  unfold assigned
  cases c.phase with
  | done o => exact hle _
  | awaitKey address echo => exact hle _

/-- A part of a cycle that needs a key, and has none, has written no register. -/
theorem assigned_of_awaitKey {c : Cycle σ} {address : Word} {echo : Bool}
    (ha : c.turn.phase = .awaitKey address echo) : c.assigned = [] := by
  unfold assigned
  cases hp : c.phase with
  | done o =>
    rw [turn_done hp] at ha
    show c.machine.assigned?.toList = []
    unfold Machine.assigned?
    cases hs : c.machine.status with
    | halted => rfl
    | running =>
      cases hi : c.machine.memory.keyboard.interrupted with
      | true => rfl
      | false =>
        rw [Machine.begin_running hs hi] at ha
        -- only a trap call waits for a key
        have hnone : c.machine.fetch.1.assigned? c.machine.fetch.2 = none := by
          refine Machine.dispatch_cases (i := c.machine.fetch.1) (h := c.machine.fetch.2)
            ?execute ?trap ?badTrap ?invalid
          case execute =>
            intro h' hx
            rw [Machine.dispatch_execute hx] at ha
            cases ha
          case trap =>
            intro t ho _
            exact Instruction.assigned?_of_trap ho _
          case badTrap =>
            intro ho _
            exact Instruction.assigned?_of_trap ho _
          case invalid =>
            intro ho
            exact Instruction.assigned?_of_invalid ho _
        show (c.machine.fetch.1.assigned? c.machine.fetch.2).toList = []
        rw [hnone]
        rfl
  | awaitKey address' echo' =>
    obtain ⟨k, hr⟩ | ⟨o, ho⟩ := waiting_or_ends hp
    · show c.machine.memory.keyboard.read.1.assigned?.toList = []
      rw [hr]
      rfl
    · rw [turn_awaitKey hp] at ha
      exact absurd (ho.symm.trans ha) Phase.noConfusion

/-- A part of a cycle and what comes behind it, up to the end of the cycle: either nothing comes
behind it, or it has written nothing. -/
theorem length_course_cons {c d : Cycle σ} {f : Keyboard → Keyboard} {fs : Changes}
    (hd : (c.onKeyboard f).turn.Ends fs d)
    (hrest : ((c.onKeyboard f).turn.course assigned fs).length ≤ 1) :
    (c.course assigned (f :: fs)).length ≤ 1 := by
  show ((c.onKeyboard f).assigned ++ (c.onKeyboard f).turn.course assigned fs).length ≤ 1
  cases hp : (c.onKeyboard f).turn.phase with
  | done o =>
    cases hd with
    | done _ =>
      show ((c.onKeyboard f).assigned ++ []).length ≤ 1
      rw [List.append_nil]
      exact length_assigned_le_one _
    | turn hp' _ => exact absurd (hp.symm.trans hp') Phase.noConfusion
  | awaitKey address echo =>
    rw [assigned_of_awaitKey hp]
    exact hrest

theorem Ends.length_course_le_one {c d : Cycle σ} {fs : Changes} (h : c.Ends fs d) :
    (c.course assigned fs).length ≤ 1 := by
  -- along the pause: each part in front of it adds nothing
  induction h with
  | done hp => exact Nat.zero_le 1
  | turn hp hd ih => exact length_course_cons hd ih

end Cycle

/-- **One instruction writes at most one register**, whether it fails or not. -/
theorem Machine.Steps.exists_only_register {m : Machine} {s : σ} {fs : Changes} {c : Cycle σ}
    (h : m.Steps s fs c) :
    ∃ r, ∀ r', r' ≠ r → c.machine.registers.get r' = m.registers.get r' := by
  obtain ⟨pc, hregisters⟩ := (m.ready s).registers_through fs
  have hlength : ((m.ready s).course Cycle.assigned fs).length ≤ 1 := by
    cases h with
    | halted hs => exact Nat.zero_le 1
    | running hs hc => exact Cycle.length_course_cons hc hc.length_course_le_one
  rw [← h.eq_through] at hregisters
  rw [hregisters]
  -- without an assignment any register will do
  match hall : (m.ready s).course Cycle.assigned fs, hlength with
  | [], _ => exact ⟨0, fun _ _ => rfl⟩
  | [w], _ =>
    refine ⟨w.1, ?_⟩
    intro r' hr'
    refine Registers.get_assign_of_notMem ?_ m.registers
    intro w' hw'
    rw [List.mem_singleton.1 hw']
    exact Ne.symm hr'

/-! ### Sessions -/

namespace Call

/-- The assignments since the last reset, behind a call, given those before it. -/
def assignedSince (m : Machine) (s : σ) (before : List Assignment) : Call → List Assignment
  | step fs | execute fs => before ++ (m.ready s).course Cycle.assigned fs
  | reset => []
  | load _ | loadFile _ _ | access _ | keyboard _ => before

/-- The assignments since the last reset, behind several calls. -/
def assignedSinceAll :
    Machine → σ → List Assignment → List Call → List (Return σ) → List Assignment
  | m, s, before, call :: calls, r :: rs =>
    assignedSinceAll r.machine r.sink (call.assignedSince m s before) calls rs
  | _, _, before, _, _ => before

end Call

/-- The registers that assignments have made out of the initial ones. -/
def Registers.Come (regs : Registers) (assignments : List Assignment) : Prop :=
  ∃ pc, regs = (initial.assign assignments).jump pc

theorem Cycle.come_through {c : Cycle σ} {before : List Assignment}
    (h : c.machine.registers.Come before) (fs : Changes) :
    (c.through fs).machine.registers.Come (before ++ c.course assigned fs) := by
  obtain ⟨pc, hpc⟩ := h
  obtain ⟨pc', hpc'⟩ := c.registers_through fs
  refine ⟨pc', ?_⟩
  rw [hpc', hpc, Registers.assign_jump, Registers.assign_append]
  rfl

omit [ByteSink σ] in
theorem Return.registers_ofLoad (m : Machine) (s : σ) (loading : Except LoadError Loaded) :
    (ofLoad m s loading).machine.registers = m.registers := by
  cases loading with
  | ok loaded => rfl
  | error e => rfl

/-- **The registers behind a call.** Only instructions write them. -/
theorem Call.Returns.come {m : Machine} {s : σ} {call : Call} {r : Return σ}
    {before : List Assignment} (hr : call.Returns m s r) (h : m.registers.Come before) :
    r.machine.registers.Come (call.assignedSince m s before) := by
  have hready : (m.ready s).machine.registers.Come before := h
  cases hr with
  | step hc =>
    have hthrough := Cycle.come_through hready ‹Changes›
    rw [← hc.eq_through] at hthrough
    exact hthrough
  | execute hr =>
    have hthrough := Cycle.come_through hready ‹Changes›
    rw [← hr.through.1] at hthrough
    exact hthrough
  | load bytes =>
    show (Return.ofLoad m s _).machine.registers.Come before
    rwa [Return.registers_ofLoad]
  | loadFile path content =>
    show (Return.ofLoad m s _).machine.registers.Come before
    rwa [Return.registers_ofLoad]
  | access x => exact h
  | keyboard f => exact h
  | reset => exact ⟨programStart, rfl⟩

theorem Session.come {m m' : Machine} {s s' : σ} {calls : List Call} {rs : List (Return σ)}
    {before : List Assignment} (hrs : Session m s calls rs m' s') (h : m.registers.Come before) :
    m'.registers.Come (Call.assignedSinceAll m s before calls rs) := by
  -- call by call, each with the assignments since the reset as they stand behind the one before
  induction hrs generalizing before with
  | nil => exact h
  | cons hcall hrs ih => exact ih (hcall.come h)

end Parts

/-- What the condition says about registers that have come about by assignments. -/
structure Registers.Remember (regs : Registers) (assignments : List Assignment) : Prop where
  /-- No register is written but by these assignments. -/
  made : regs.Come assignments
  /-- The condition is the sign class of the word that was assigned last, and the register that it
  was assigned to still holds this word. -/
  last : ∀ r w, assignments.getLast? = some (r, w) →
    regs.condition = .ofWord w ∧ regs.get r = w
  none : assignments = [] → regs.condition = .zero ∧ ∀ r, regs.get r = 0
  /-- So the condition is always the sign class of some register. -/
  some : ∃ r, regs.condition = .ofWord (regs.get r)

theorem Registers.Come.remember {regs : Registers} {assignments : List Assignment}
    (h : regs.Come assignments) : regs.Remember assignments := by
  have hmade := h
  obtain ⟨pc, rfl⟩ := h
  have hlast : ∀ r w, assignments.getLast? = Option.some (r, w) →
      (initial.assign assignments).condition = .ofWord w ∧
        (initial.assign assignments).get r = w := by
    intro r w hw
    exact assign_getLast hw initial
  refine ⟨hmade, hlast, ?none, ?some⟩
  case none =>
    rintro rfl
    exact ⟨rfl, get_initial⟩
  case some =>
    cases hw : assignments.getLast? with
    | none =>
      -- all registers are zero still, and any of them will do
      obtain rfl := List.getLast?_eq_none_iff.1 hw
      exact ⟨0, rfl⟩
    | some w =>
      obtain ⟨hcondition, hget⟩ := hlast w.1 w.2 hw
      refine ⟨w.1, ?_⟩
      show (initial.assign assignments).condition =
        .ofWord ((initial.assign assignments).get w.1)
      rw [hcondition, hget]

/-- **The condition belongs to the register written last.** A new machine is one that has been
reset. From a reset on, behind any calls that have returned and any parts of a further one, the
registers have come about by the assignments that executed instructions have made; the condition is
the sign class of the word assigned last, and its register still holds it. Besides, one instruction
writes at most one register, on any machine and also if it fails. -/
theorem condition_of_last_assignment {σ : Type} [ByteSink σ] (s : σ) :
    (∀ k, Machine.initial k = (Machine.initial k).reset) ∧
      (∀ (m m' : Machine) s' calls rs, Session m.reset s calls rs m' s' → ∀ fs : Changes,
        ((m'.ready s').through fs).machine.registers.Remember
          (Call.assignedSinceAll m.reset s [] calls rs ++
            (m'.ready s').course Cycle.assigned fs)) ∧
      ∀ (m : Machine) (fs : Changes) c, m.Steps s fs c →
        ∃ r, ∀ r', r' ≠ r → c.machine.registers.get r' = m.registers.get r' := by
  refine ⟨fun k => rfl, ?_, ?_⟩
  · intro m m' s' calls rs hrs fs
    have hstart : m.reset.registers.Come [] := ⟨programStart, rfl⟩
    have hend : (m'.ready s').machine.registers.Come _ := hrs.come hstart
    exact (Cycle.come_through hend fs).remember
  · intro m fs c hc
    exact hc.exists_only_register

end LC3
