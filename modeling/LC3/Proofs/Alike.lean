import LC3.Proofs.Access

/-!
# Machines that an instruction cannot tell apart

A part of a cycle uses memory only through its accesses. Hence if two memories answer every read in
the same way, and go on doing so behind every read and write, then two machines on them that agree
in everything else still do so behind the first part of a cycle. That is proved here once, for any
relation between memories that single accesses keep (`Memory.Respects`), possibly not at all
addresses; the addresses at which the cycle does read are known from `Machine.accesses`.

* `Memory.Respects.readString` — a string is the same on both sides.
* `Hardware.alike_execute`, `TrapRoutine.alike_begin` — so is what an instruction or a routine does.
* `Machine.alike_begin` — and so is the first part of a cycle.
-/

namespace LC3

/-- A relation between memories that an access keeps, at the addresses in question, and that no
answer gives away. -/
structure Memory.Respects (R : Memory → Memory → Prop) (ok : Word → Prop) : Prop where
  read : ∀ {m m' : Memory}, R m m' → ∀ a, ok a →
    (m'.read a).1 = (m.read a).1 ∧ R (m.read a).2 (m'.read a).2
  write : ∀ {m m' : Memory}, R m m' → ∀ a value, R (m.write a value) (m'.write a value)
  interrupted : ∀ {m m' : Memory}, R m m' → m'.keyboard.interrupted = m.keyboard.interrupted

/-- The same registers, over memories in the relation. -/
structure Hardware.Alike (R : Memory → Memory → Prop) (h h' : Hardware) : Prop where
  registers : h'.registers = h.registers
  memory : R h.memory h'.memory

section Relations

variable {σ : Type} (R : Memory → Memory → Prop)

/-- Parts of a routine that go on in the same way. -/
structure TrapRun.Alike (r r' : TrapRun σ) : Prop where
  flow : r'.flow = r.flow
  hardware : r.hardware.Alike R r'.hardware
  sink : r'.sink = r.sink

/-- Cycles that have come to the same point. -/
structure Cycle.Alike (c c' : Cycle σ) : Prop where
  phase : c'.phase = c.phase
  hardware : c.machine.toHardware.Alike R c'.machine.toHardware
  status : c'.machine.status = c.machine.status
  sink : c'.sink = c.sink
  log : c'.log = c.log

end Relations

/-- Every address at which something is read is all right. -/
def Access.ReadsOnly (ok : Word → Prop) (xs : List Access) : Prop :=
  ∀ a, Access.read a ∈ xs → ok a

variable {R : Memory → Memory → Prop} {ok : Word → Prop} (law : Memory.Respects R ok)

theorem Hardware.Alike.withMemory {h h' : Hardware} (hh : h.Alike R h') {m m' : Memory}
    (hm : R m m') : Hardware.Alike R { h with memory := m } { h' with memory := m' } :=
  ⟨hh.registers, hm⟩

/-! ### Strings -/

namespace Memory.Respects

variable {m m' : Memory} {a : Word}

include law

theorem sweep (hm : R m m') {k : ℕ} (hok : ∀ j < k, ok (a + BitVec.ofNat 16 j)) :
    R (m.sweep a k) (m'.sweep a k) := by
  induction k with
  | zero => exact hm
  | succ k ih =>
    have hk := ih fun j hj => hok j (Nat.lt_succ_of_lt hj)
    exact (law.read hk _ (hok k (Nat.lt_succ_self k))).2

theorem swept (hm : R m m') {k : ℕ} (hok : ∀ j ≤ k, ok (a + BitVec.ofNat 16 j)) :
    m'.swept a k = m.swept a k := by
  have hk := law.sweep hm fun j hj => hok j (Nat.le_of_lt hj)
  exact (law.read hk _ (hok k (Nat.le_refl k))).1

/-- A string has the same words on both sides, and the relation holds behind it. -/
theorem readString (hm : R m m')
    (hok : Access.ReadsOnly ok (Access.sweep a ((m.readString a).1.length + 1))) :
    (m'.readString a).1 = (m.readString a).1 ∧ R (m.readString a).2 (m'.readString a).2 := by
  obtain ⟨k, hk, -⟩ := exists_endsAt m a
  have hall : ∀ j ≤ k, ok (a + BitVec.ofNat 16 j) := by
    intro j hj
    rw [hk.readString_eq, List.length_map, List.length_range] at hok
    exact hok _ (List.mem_map_of_mem (List.mem_range.2 (Nat.lt_succ_of_le hj)))
  have hsame : ∀ j ≤ k, m'.swept a j = m.swept a j := by
    intro j hj
    exact law.swept hm fun i hi => hall i (Nat.le_trans hi hj)
  -- the first zero is read at the same place
  have hk' : m'.EndsAt a k :=
    { zero := by rw [hsame k (Nat.le_refl k), hk.zero]
      ne_zero := by
        intro j hj
        rw [hsame j (Nat.le_of_lt hj)]
        exact hk.ne_zero j hj }
  rw [hk.readString_eq, hk'.readString_eq]
  refine ⟨List.map_congr_left ?_, law.sweep hm fun j hj => hall j (Nat.le_of_lt_succ hj)⟩
  intro j hj
  exact hsame j (Nat.le_of_lt (List.mem_range.1 hj))

end Memory.Respects

/-! ### Instructions for registers and memory -/

namespace Hardware

variable {h h' : Hardware}

include law

/-- A load from the same address. -/
theorem alike_deliverFrom (hh : h.Alike R h') (i : Instruction) {a : Word} (ha : ok a) :
    (h.deliverFrom i a).Alike R (h'.deliverFrom i a) := by
  obtain ⟨hvalue, hmemory⟩ := law.read hh.memory a ha
  refine ⟨?_, hmemory⟩
  change h'.registers.set i.dr (h'.memory.read a).1 = h.registers.set i.dr (h.memory.read a).1
  rw [hh.registers, hvalue]

theorem alike_storeTo (hh : h.Alike R h') (i : Instruction) (a : Word) :
    (h.storeTo i a).Alike R (h'.storeTo i a) := by
  refine ⟨hh.registers, ?_⟩
  change R (h.memory.write a (h.registers.get i.dr)) (h'.memory.write a (h'.registers.get i.dr))
  rw [hh.registers]
  exact law.write hh.memory a _

/-- The pointer of an indirect access is the same, and behind its read all is alike. -/
theorem alike_indirect (hh : h.Alike R h') {a : Word} (ha : ok a) :
    (h'.memory.read a).1 = (h.memory.read a).1 ∧ (h.indirect a).2.Alike R (h'.indirect a).2 := by
  obtain ⟨hvalue, hmemory⟩ := law.read hh.memory a ha
  exact ⟨hvalue, hh.registers, hmemory⟩

/-- **An instruction for registers and memory does the same on both sides.** -/
theorem alike_execute (hh : h.Alike R h') {i : Instruction}
    (hok : Access.ReadsOnly ok (h.accesses i)) {g : Hardware} (hg : h.execute? i = some g) :
    ∃ g', h'.execute? i = some g' ∧ g.Alike R g' := by
  have hrelative (width : ℕ) : h'.relativeAddress i width = h.relativeAddress i width := by
    unfold relativeAddress
    rw [hh.registers]
  have hbase : h'.baseAddress i = h.baseAddress i := by
    unfold baseAddress firstOperand
    rw [hh.registers]
  have hread (a : Word) (ha : Access.read a ∈ h.accesses i) : ok a := hok a ha
  unfold accesses at hread
  unfold execute? at hg ⊢
  cases ho : i.operation with
  | rti | res | trap =>
    rw [ho] at hg
    cases hg
  | add | and | not | lea =>
    -- the result goes to a register and comes from registers
    rw [ho] at hg
    cases hg
    refine ⟨_, rfl, ?_, hh.memory⟩
    simp only [Hardware.add, Hardware.and, Hardware.not, lea, deliver, firstOperand, secondOperand,
      hrelative, hh.registers]
  | br =>
    rw [ho] at hg
    cases hg
    refine ⟨_, rfl, ?_⟩
    -- the condition is one of the registers
    unfold br
    rw [hh.registers, hrelative]
    split
    · exact ⟨rfl, hh.memory⟩
    · exact hh
  | jsr =>
    rw [ho] at hg
    cases hg
    refine ⟨_, rfl, ?_, hh.memory⟩
    simp only [jsr, firstOperand, hrelative, hh.registers]
  | jmp =>
    rw [ho] at hg
    cases hg
    refine ⟨_, rfl, ?_, hh.memory⟩
    simp only [jmp, firstOperand, hh.registers]
  | ld =>
    rw [ho] at hg hread
    cases hg
    refine ⟨_, rfl, ?_⟩
    unfold ld
    rw [hrelative]
    exact alike_deliverFrom law hh i (hread _ (List.mem_singleton_self _))
  | ldr =>
    rw [ho] at hg hread
    cases hg
    refine ⟨_, rfl, ?_⟩
    unfold ldr
    rw [hbase]
    exact alike_deliverFrom law hh i (hread _ (List.mem_singleton_self _))
  | ldi =>
    rw [ho] at hg hread
    cases hg
    refine ⟨_, rfl, ?_⟩
    -- the same pointer, and so the same address for the second read
    obtain ⟨hpointer, hbehind⟩ := alike_indirect law hh (hread _ List.mem_cons_self)
    unfold ldi
    rw [hrelative]
    change (deliverFrom i (h.indirect _).2 (h.memory.read _).1).Alike R
      (deliverFrom i (h'.indirect _).2 (h'.memory.read _).1)
    rw [hpointer]
    exact alike_deliverFrom law hbehind i
      (hread _ (List.mem_cons_of_mem _ (List.mem_singleton_self _)))
  | st =>
    rw [ho] at hg
    cases hg
    refine ⟨_, rfl, ?_⟩
    unfold st
    rw [hrelative]
    exact alike_storeTo law hh i _
  | str =>
    rw [ho] at hg
    cases hg
    refine ⟨_, rfl, ?_⟩
    unfold str
    rw [hbase]
    exact alike_storeTo law hh i _
  | sti =>
    rw [ho] at hg hread
    cases hg
    refine ⟨_, rfl, ?_⟩
    obtain ⟨hpointer, hbehind⟩ := alike_indirect law hh (hread _ List.mem_cons_self)
    unfold sti
    rw [hrelative]
    change (storeTo i (h.indirect _).2 (h.memory.read _).1).Alike R
      (storeTo i (h'.indirect _).2 (h'.memory.read _).1)
    rw [hpointer]
    exact alike_storeTo law hbehind i _

end Hardware

/-! ### Routines -/

namespace TrapRoutine

variable {σ : Type} [ByteSink σ] {h h' : Hardware}

/-- One message to one console. -/
theorem alike_emit (hh : h.Alike R h') (message : List Byte) (next : Flow) (s : σ) :
    (emit message next h s).Alike R (emit message next h' s) := by
  cases hm : (ByteSink.emit message s).1 with
  | ok _ =>
    rw [emit_ok hm, emit_ok hm]
    exact ⟨rfl, hh, rfl⟩
  | error e =>
    rw [emit_error hm, emit_error hm]
    exact ⟨rfl, hh, rfl⟩

include law

theorem alike_emitString (hh : h.Alike R h') (bytesOf : Word → List Byte) (s : σ)
    (hok : Access.ReadsOnly ok (Access.sweep (h.registers.get 0)
      ((h.memory.readString (h.registers.get 0)).1.length + 1))) :
    (emitString bytesOf h s).Alike R (emitString bytesOf h' s) := by
  obtain ⟨hwords, hmemory⟩ := law.readString hh.memory hok
  -- by the lemma, which need not look into the memories behind the strings
  have hbehind := hh.withMemory hmemory
  rw [hh.registers] at hbehind
  rw [emitString_eq bytesOf h, emitString_eq bytesOf h', hh.registers, hwords]
  exact alike_emit hbehind _ _ s

theorem alike_begin (hh : h.Alike R h') (t : TrapRoutine) (s : σ)
    (hok : Access.ReadsOnly ok (t.accesses h)) : (t.begin h s).Alike R (t.begin h' s) := by
  cases t with
  | getc => exact ⟨rfl, hh, rfl⟩
  | out =>
    change (emit _ _ h s).Alike R (emit [(h'.registers.get 0).low] _ h' s)
    rw [hh.registers]
    exact alike_emit hh _ _ s
  | puts => exact alike_emitString law hh plainBytes s hok
  | input => exact alike_emit hh prompt (.awaitKey true) s
  | putsp => exact alike_emitString law hh packedBytes s hok
  | halt => exact alike_emit hh farewell .stop s

end TrapRoutine

/-! ### The first part of a cycle -/

section Cycle

variable {σ : Type}

theorem Cycle.alike_failed {m m' : Machine} (hh : m.toHardware.Alike R m'.toHardware) (s : σ)
    (log : List Event) (fault : Fault) :
    (failed m s log fault).Alike R (failed m' s log fault) :=
  ⟨rfl, hh, rfl, rfl, rfl⟩

theorem Cycle.alike_ofTrapRun {r r' : TrapRun σ} (hr : r.Alike R r') (address : Word)
    (log : List Event) : (ofTrapRun address log r).Alike R (ofTrapRun address log r') := by
  unfold ofTrapRun
  rw [hr.flow, hr.sink]
  cases r.flow with
  | proceed => exact ⟨rfl, hr.hardware, rfl, rfl, rfl⟩
  | stop => exact ⟨rfl, hr.hardware, rfl, rfl, rfl⟩
  | fail fault => exact alike_failed hr.hardware _ _ _
  | awaitKey echo => exact ⟨rfl, hr.hardware, rfl, rfl, rfl⟩

variable [ByteSink σ]

include law

theorem Machine.alike_dispatch {h h' : Hardware} (hh : h.Alike R h') (address : Word)
    (i : Instruction) (s : σ) (hok : Access.ReadsOnly ok (i.accesses h)) :
    (dispatch address i h s).Alike R (dispatch address i h' s) := by
  refine dispatch_cases (i := i) (h := h) ?execute ?trap ?badTrap ?invalid
  case execute =>
    intro g hg
    rw [Instruction.accesses_of_execute hg] at hok
    obtain ⟨g', hg', hgg⟩ := Hardware.alike_execute law hh hok hg
    rw [dispatch_execute hg, dispatch_execute hg']
    exact ⟨rfl, hgg, rfl, rfl, rfl⟩
  case trap =>
    intro t ho ht
    rw [Instruction.accesses_of_trap ho ht] at hok
    rw [dispatch_trap ho ht, dispatch_trap ho ht]
    exact Cycle.alike_ofTrapRun (TrapRoutine.alike_begin law hh t s hok) _ _
  case badTrap =>
    intro ho ht
    rw [dispatch_badTrap ho ht, dispatch_badTrap ho ht]
    exact Cycle.alike_failed ⟨hh.registers, hh.memory⟩ _ _ _
  case invalid =>
    intro ho
    rw [dispatch_invalid ho, dispatch_invalid ho]
    exact Cycle.alike_failed ⟨hh.registers, hh.memory⟩ _ _ _

/-- **The first part of a cycle does the same on both sides**, if it reads at the addresses in
question alone. -/
theorem Machine.alike_begin {m m' : Machine} (hh : m.toHardware.Alike R m'.toHardware)
    (hstatus : m'.status = m.status) (s : σ) (hok : Access.ReadsOnly ok m.accesses) :
    (m.begin s).Alike R (m'.begin s) := by
  cases hs : m.status with
  | halted =>
    rw [begin_halted hs, begin_halted (hstatus.trans hs)]
    exact ⟨rfl, hh, hstatus, rfl, rfl⟩
  | running =>
    have hflag := law.interrupted hh.memory
    cases hi : m.memory.keyboard.interrupted with
    | true =>
      rw [begin_interrupted hs hi, begin_interrupted (hstatus.trans hs) (hflag.trans hi)]
      exact Cycle.alike_failed hh _ _ _
    | false =>
      have hacc : m.accesses = .read m.registers.pc :: m.fetch.1.accesses m.fetch.2 := by
        unfold accesses
        rw [hs, hi]
        rfl
      rw [hacc] at hok
      -- the same instruction is fetched
      obtain ⟨hword, hmemory⟩ := law.read hh.memory m.registers.pc (hok _ List.mem_cons_self)
      have hfetch : m'.fetch.1 = m.fetch.1 ∧ m.fetch.2.Alike R m'.fetch.2 := by
        unfold fetch
        rw [hh.registers]
        exact ⟨congrArg Instruction.mk hword, rfl, hmemory⟩
      rw [begin_running hs hi, begin_running (hstatus.trans hs) (hflag.trans hi), hfetch.1,
        hh.registers]
      exact alike_dispatch law hfetch.2 _ _ s fun a ha => hok a (List.mem_cons_of_mem _ ha)

end Cycle

end LC3
