import LC3.Proofs.Calls
import LC3.Proofs.Isa.Fields

/-!
# Words that the machine refuses

Two of the sixteen opcodes stand for no instruction, and of the trap vectors only six have a routine.
A machine that fetches such a word **refuses** it: `m.Refuses fault` says so of the number that the
word is, without reference to how the machine decodes it. The step then fails with that fault, and
the fault names the opcode or the vector, and the address at which the word was, although the program
counter is already behind it. No other step fails with one of these two faults: the other faults are
those of the console and of the keyboard, and no part of a cycle behind its pause decodes anything.

A refused word leaves no more behind than that it was fetched. To fetch it may be a look at the
keyboard, though, if the program counter has come to the status register. The word there is then
`0x8000`, whose opcode is refused, or zero, a branch that is never taken.

* `Machine.begin_of_refuses`, `Machine.refuses_of_begin` — the first part of a cycle.
* `Machine.Steps.refused` — a step that fails with such a fault, from beginning to end.
* `decoding_exact` — the statement as a whole.
-/

namespace LC3

/-- The fault concerns the word that was fetched. -/
inductive Fault.IsDecoding : Fault → Prop
  | opcode (o : BitVec 4) (a : Word) : IsDecoding (.invalidOpcode o a)
  | trap (t : Byte) (a : Word) : IsDecoding (.invalidTrap t a)

/-! ### Words as numbers -/

namespace Instruction

variable (i : Instruction)

/-- The opcode is what is left of the word without its lowest twelve bits. -/
theorem toNat_opcode : i.opcode.toNat = i.word.toNat / 2 ^ 12 := by
  have hlt : i.word.toNat < 2 ^ 16 := i.word.isLt
  calc i.opcode.toNat = i.word.toNat / 2 ^ 12 % 2 ^ 4 := i.word.toNat_field 12 4
    _ = i.word.toNat / 2 ^ 12 := Nat.mod_eq_of_lt (by omega)

/-- The trap vector is the lowest eight bits, whatever stands before them. -/
theorem toNat_trapVector : i.trapVector.toNat = i.word.toNat % 2 ^ 8 :=
  BitVec.toNat_setWidth 8 i.word

theorem operation_eq_iff (o : Operation) :
    i.operation = o ↔ i.word.toNat / 2 ^ 12 = o.opcode.toNat := by
  rw [← i.toNat_opcode, BitVec.toNat_inj]
  constructor
  · rintro rfl
    exact (Operation.opcode_ofOpcode i.opcode).symm
  · intro h
    calc i.operation = .ofOpcode o.opcode := congrArg Operation.ofOpcode h
      _ = o := Operation.ofOpcode_opcode o

end Instruction

/-- The vectors with a routine are six in a row. -/
theorem TrapRoutine.ofVector?_eq_none_iff (v : Byte) :
    ofVector? v = none ↔ ¬ (0x20 ≤ v.toNat ∧ v.toNat ≤ 0x25) := by
  revert v
  decide

/-! ### The first part of a cycle -/

namespace Machine

/-- The word that the machine is about to fetch. -/
def fetched (m : Machine) : Word := (m.memory.read m.registers.pc).1

/-- The word is not an instruction, and this is the fault that says so. -/
inductive Refuses (m : Machine) : Fault → Prop
  | opcode {o : BitVec 4}
      (hw : m.fetched.toNat / 2 ^ 12 = 8 ∨ m.fetched.toNat / 2 ^ 12 = 13)
      (ho : o.toNat = m.fetched.toNat / 2 ^ 12) : Refuses m (.invalidOpcode o m.registers.pc)
  | trap {t : Byte} (hw : m.fetched.toNat / 2 ^ 12 = 15)
      (hvector : ¬ (0x20 ≤ m.fetched.toNat % 2 ^ 8 ∧ m.fetched.toNat % 2 ^ 8 ≤ 0x25))
      (ht : t.toNat = m.fetched.toNat % 2 ^ 8) : Refuses m (.invalidTrap t m.registers.pc)

/-- How a cycle ends that has fetched such a word. -/
def refusal {σ : Type} (m : Machine) (s : σ) (fault : Fault) : Cycle σ :=
  ⟨.done (.failed fault),
    ⟨⟨m.registers.advance, (m.memory.read m.registers.pc).2⟩, .halted⟩, s,
    [.fetched m.registers.pc ⟨m.fetched⟩, .failed fault]⟩

theorem refuses_iff (m : Machine) : (∃ fault, m.Refuses fault) ↔
    (m.fetched.toNat / 2 ^ 12 = 8 ∨ m.fetched.toNat / 2 ^ 12 = 13) ∨
      m.fetched.toNat / 2 ^ 12 = 15 ∧
        ¬ (0x20 ≤ m.fetched.toNat % 2 ^ 8 ∧ m.fetched.toNat % 2 ^ 8 ≤ 0x25) := by
  constructor
  · rintro ⟨fault, h⟩
    cases h with
    | opcode hw ho => exact .inl hw
    | trap hw hvector ht => exact .inr ⟨hw, hvector⟩
  · rintro (hw | ⟨hw, hvector⟩)
    · exact ⟨_, .opcode hw (Instruction.toNat_opcode ⟨m.fetched⟩)⟩
    · exact ⟨_, .trap hw hvector (Instruction.toNat_trapVector ⟨m.fetched⟩)⟩

variable {σ : Type} [ByteSink σ] {m : Machine} {s : σ} {fault : Fault}

/-- A word that is refused is fetched, and that is all. -/
theorem begin_of_refuses (hs : m.status = .running) (hi : m.memory.keyboard.interrupted = false)
    (h : m.Refuses fault) : m.begin s = m.refusal s fault := by
  have hbegin := begin_running hs hi s
  cases h with
  | @opcode o hw ho =>
    have hinvalid : (Instruction.mk m.fetched).operation = .rti ∨
        (Instruction.mk m.fetched).operation = .res := by
      rw [Instruction.operation_eq_iff, Instruction.operation_eq_iff]
      exact hw
    have hopcode : (Instruction.mk m.fetched).opcode = o := by
      rw [← BitVec.toNat_inj, Instruction.toNat_opcode, ho]
    rw [hbegin, ← hopcode]
    exact dispatch_invalid hinvalid m.registers.pc m.fetch.2 s
  | @trap t hw hvector ht =>
    have htrap : (Instruction.mk m.fetched).operation = .trap := by
      rw [Instruction.operation_eq_iff]
      exact hw
    have hnumber : (Instruction.mk m.fetched).trapVector = t := by
      rw [← BitVec.toNat_inj, Instruction.toNat_trapVector, ht]
    have hnone : TrapRoutine.ofVector? (Instruction.mk m.fetched).trapVector = none := by
      rw [TrapRoutine.ofVector?_eq_none_iff, Instruction.toNat_trapVector]
      exact hvector
    rw [hbegin, ← hnumber]
    exact dispatch_badTrap htrap hnone m.registers.pc m.fetch.2 s

/-- And no other word is refused. -/
theorem refuses_of_begin (hs : m.status = .running) (hi : m.memory.keyboard.interrupted = false)
    (hp : (m.begin s).phase = .done (.failed fault)) (hf : fault.IsDecoding) :
    m.Refuses fault := by
  rw [begin_running hs hi] at hp
  refine dispatch_cases (i := m.fetch.1) (h := m.fetch.2) ?execute ?trap ?badTrap ?invalid
  case execute =>
    intro h' hx
    rw [dispatch_execute hx] at hp
    cases hp
  case trap =>
    -- a routine fails with its message, if at all
    intro t ho ht
    rw [dispatch_trap ho ht] at hp
    obtain ⟨e, rfl⟩ := TrapRoutine.fault_begin (Cycle.flow_of_fault hp)
    cases hf
  case badTrap =>
    intro ho ht
    rw [dispatch_badTrap ho ht] at hp
    cases hp
    refine .trap ((m.fetch.1.operation_eq_iff .trap).1 ho) ?_ m.fetch.1.toNat_trapVector
    rw [TrapRoutine.ofVector?_eq_none_iff, Instruction.toNat_trapVector] at ht
    exact ht
  case invalid =>
    intro ho
    rw [dispatch_invalid ho] at hp
    cases hp
    refine .opcode (ho.imp ?_ ?_) m.fetch.1.toNat_opcode
    · exact (m.fetch.1.operation_eq_iff .rti).1
    · exact (m.fetch.1.operation_eq_iff .res).1

/-- The word zero is a branch that is never taken. -/
theorem begin_of_fetched_zero (hs : m.status = .running)
    (hi : m.memory.keyboard.interrupted = false) (hw : m.fetched = 0) :
    m.begin s = ⟨.done .running,
      ⟨⟨m.registers.advance, (m.memory.read m.registers.pc).2⟩, .running⟩, s,
      [.fetched m.registers.pc ⟨0⟩]⟩ := by
  have hfetch : m.fetch = (⟨0⟩, ⟨m.registers.advance, (m.memory.read m.registers.pc).2⟩) := by
    rw [← hw]
    rfl
  -- no condition is asked for, so the branch is not taken under any
  have hexecute (h : Hardware) : h.execute? ⟨0⟩ = some h := by
    have hnobody : (Instruction.mk 0).nzp &&& h.registers.condition.bits = 0 :=
      BitVec.zero_and
    calc h.execute? ⟨0⟩ = some (h.br ⟨0⟩) := rfl
      _ = some h := congrArg some (if_neg (not_not_intro hnobody))
  rw [begin_running hs hi, hfetch]
  exact dispatch_execute (hexecute _) m.registers.pc s

end Machine

/-! ### Steps -/

section Calls

variable {σ : Type} [ByteSink σ] {fault : Fault}

/-- Behind its pause a cycle decodes nothing. -/
theorem Cycle.resume_ne_decoding {c : Cycle σ} {address : Word} {echo : Bool}
    (hp : c.phase = .awaitKey address echo) (hf : fault.IsDecoding) :
    c.resume.phase ≠ .done (.failed fault) := by
  intro hfail
  rcases Cycle.fault_resume hp hfail with hr | ⟨e, rfl⟩
  · -- a keyboard that fails is closed or was closed by the user
    obtain ⟨-, -, rfl⟩ := (Keyboard.read_failed_iff _ _).1 hr
    unfold Keyboard.closedFault at hf
    cases hi : c.machine.memory.keyboard.interrupted with
    | true =>
      rw [hi] at hf
      cases hf
    | false =>
      rw [hi] at hf
      cases hf
  · cases hf

namespace Machine

variable {m : Machine} {s : σ}

/-- **A step that fails in decoding** has fetched a word that the machine refuses, and nothing has
come of it. -/
theorem Steps.refused {fs : Changes} {c : Cycle σ} (h : m.Steps s fs c)
    (hp : c.phase = .done (.failed fault)) (hf : fault.IsDecoding) :
    m.status = .running ∧ ∃ f, fs = [f] ∧ (f m.memory.keyboard).interrupted = false ∧
      (m.onKeyboard f).Refuses fault ∧ c = (m.onKeyboard f).refusal s fault := by
  cases h with
  | halted _ => cases hp
  | @running f fs c hs hc =>
    -- the cycle ended with its first part
    obtain ⟨rfl, rfl⟩ := hc.eq_of_outcome hp fun hwait => Cycle.resume_ne_decoding hwait hf
    have hbegin : ((m.onKeyboard f).begin s).phase = .done (.failed fault) := hp
    -- and it got as far as a fetch, so nobody wanted the machine to stop
    have hclear : (f m.memory.keyboard).interrupted = false := by
      rcases Machine.fault_begin hbegin with ⟨-, rfl⟩ | ⟨hclear, -⟩
      · cases hf
      · exact hclear
    have hrefuses : (m.onKeyboard f).Refuses fault := refuses_of_begin hs hclear hbegin hf
    exact ⟨hs, f, rfl, hclear, hrefuses, begin_of_refuses hs hclear hrefuses⟩

/-- And a machine that refuses its word fails at once. -/
theorem steps_iff_of_refuses (hs : m.status = .running) {f : Keyboard → Keyboard}
    (hi : (f m.memory.keyboard).interrupted = false) (h : (m.onKeyboard f).Refuses fault)
    {fs : Changes} {c : Cycle σ} :
    m.Steps s (f :: fs) c ↔ fs = [] ∧ c = (m.onKeyboard f).refusal s fault := by
  have hbegin : (m.onKeyboard f).begin s = (m.onKeyboard f).refusal s fault :=
    begin_of_refuses hs hi h
  rw [steps_cons_iff hs, hbegin]
  exact Cycle.ends_iff_of_done rfl

end Machine

end Calls

/-! ### The statement -/

/-- What the steps of a machine have to do with the words that are not instructions. -/
structure DecodingExact {σ : Type} [ByteSink σ] (m : Machine) (s : σ) : Prop where
  /-- An opcode is refused if and only if it is 8 or 13. -/
  opcode : ∀ f fs (c : Cycle σ) o a, m.status = .running →
    (f m.memory.keyboard).interrupted = false → m.Steps s (f :: fs) c →
      (c.phase = .done (.failed (.invalidOpcode o a)) ↔
        ((m.onKeyboard f).fetched.toNat / 2 ^ 12 = 8 ∨
          (m.onKeyboard f).fetched.toNat / 2 ^ 12 = 13) ∧
        o.toNat = (m.onKeyboard f).fetched.toNat / 2 ^ 12 ∧ a = m.registers.pc)
  /-- A trap vector is refused if and only if it is not one of the six, and the other bits of a trap
  call do not matter. -/
  trap : ∀ f fs (c : Cycle σ) t a, m.status = .running →
    (f m.memory.keyboard).interrupted = false → m.Steps s (f :: fs) c →
      (c.phase = .done (.failed (.invalidTrap t a)) ↔
        (m.onKeyboard f).fetched.toNat / 2 ^ 12 = 15 ∧
        ¬ (0x20 ≤ (m.onKeyboard f).fetched.toNat % 2 ^ 8 ∧
          (m.onKeyboard f).fetched.toNat % 2 ^ 8 ≤ 0x25) ∧
        t.toNat = (m.onKeyboard f).fetched.toNat % 2 ^ 8 ∧ a = m.registers.pc)
  /-- A step that fetches such a word returns, and it does not wait for that. -/
  returns : ∀ f, m.status = .running → (f m.memory.keyboard).interrupted = false →
    ((m.onKeyboard f).fetched.toNat / 2 ^ 12 = 8 ∨
        (m.onKeyboard f).fetched.toNat / 2 ^ 12 = 13) ∨
      (m.onKeyboard f).fetched.toNat / 2 ^ 12 = 15 ∧
        ¬ (0x20 ≤ (m.onKeyboard f).fetched.toNat % 2 ^ 8 ∧
          (m.onKeyboard f).fetched.toNat % 2 ^ 8 ≤ 0x25) →
      ∃ c : Cycle σ, m.Steps s [f] c
  /-- No other step fails in this way: the machine was running, and nobody wanted it to stop. -/
  no_other : ∀ fs (c : Cycle σ) fault, m.Steps s fs c → c.phase = .done (.failed fault) →
    fault.IsDecoding →
      m.status = .running ∧ ∃ f, fs = [f] ∧ (f m.memory.keyboard).interrupted = false
  /-- The machine is halted behind the word, and nothing else has changed, unless the word was
  fetched from the status register. -/
  harmless : ∀ f fs (c : Cycle σ) fault, m.Steps s (f :: fs) c →
    c.phase = .done (.failed fault) → fault.IsDecoding →
      c.machine.registers.pc = m.registers.pc + 1 ∧ c.machine.status = .halted ∧
      (∀ r, c.machine.registers.get r = m.registers.get r) ∧
      c.machine.registers.condition = m.registers.condition ∧ c.sink = s ∧
      (m.registers.pc ≠ 0xFE00 → (∀ a, c.machine.memory.peek a = m.memory.peek a) ∧
        c.machine.memory.keyboard = f m.memory.keyboard)
  /-- At the status register a character makes an opcode that is refused. -/
  polled : ∀ f ch rest, m.status = .running → (f m.memory.keyboard).interrupted = false →
    m.registers.pc = 0xFE00 → (f m.memory.keyboard).next? = some (ch, rest) →
      ∃ c : Cycle σ, (∀ fs d, m.Steps s (f :: fs) d ↔ fs = [] ∧ d = c) ∧
        c.phase = .done (.failed (.invalidOpcode 8 0xFE00)) ∧
        (∀ a, c.machine.memory.peek a =
          if a = 0xFE00 then 0x8000 else if a = 0xFE02 then ch else m.memory.peek a) ∧
        c.machine.memory.keyboard = rest
  /-- And without a character nothing happens there. -/
  idle : ∀ f, m.status = .running → (f m.memory.keyboard).interrupted = false →
    m.registers.pc = 0xFE00 → (f m.memory.keyboard).next? = none →
      ∃ c : Cycle σ, (∀ fs d, m.Steps s (f :: fs) d ↔ fs = [] ∧ d = c) ∧
        c.phase = .done .running ∧ c.machine.status = .running ∧
        c.machine.registers = m.registers.advance ∧ c.sink = s ∧
        (∀ a, c.machine.memory.peek a = if a = 0xFE00 then 0 else m.memory.peek a) ∧
        c.machine.memory.keyboard = f m.memory.keyboard

/-- **Decoding is exact**, for every machine and every word. -/
theorem decoding_exact {σ : Type} [ByteSink σ] (m : Machine) (s : σ) : DecodingExact m s where
  opcode f fs c o a hs hi h := by
    constructor
    · intro hp
      obtain ⟨-, f', hfs, -, hrefuses, -⟩ := h.refused hp (.opcode o a)
      obtain ⟨rfl, -⟩ := List.cons.inj hfs
      cases hrefuses with
      | opcode hw ho => exact ⟨hw, ho, rfl⟩
    · rintro ⟨hw, ho, rfl⟩
      have hrefuses : (m.onKeyboard f).Refuses (.invalidOpcode o m.registers.pc) := .opcode hw ho
      obtain ⟨-, rfl⟩ := (Machine.steps_iff_of_refuses hs hi hrefuses).1 h
      rfl
  trap f fs c t a hs hi h := by
    constructor
    · intro hp
      obtain ⟨-, f', hfs, -, hrefuses, -⟩ := h.refused hp (.trap t a)
      obtain ⟨rfl, -⟩ := List.cons.inj hfs
      cases hrefuses with
      | trap hw hvector ht => exact ⟨hw, hvector, ht, rfl⟩
    · rintro ⟨hw, hvector, ht, rfl⟩
      have hrefuses : (m.onKeyboard f).Refuses (.invalidTrap t m.registers.pc) :=
        .trap hw hvector ht
      obtain ⟨-, rfl⟩ := (Machine.steps_iff_of_refuses hs hi hrefuses).1 h
      rfl
  returns f hs hi hw := by
    obtain ⟨fault, hrefuses⟩ := (m.onKeyboard f).refuses_iff.2 hw
    exact ⟨_, (Machine.steps_iff_of_refuses hs hi hrefuses).2 ⟨rfl, rfl⟩⟩
  no_other fs c fault h hp hf := by
    obtain ⟨hs, f, hfs, hi, -⟩ := h.refused hp hf
    exact ⟨hs, f, hfs, hi⟩
  harmless f fs c fault h hp hf := by
    obtain ⟨-, f', hfs, -, -, rfl⟩ := h.refused hp hf
    obtain ⟨rfl, -⟩ := List.cons.inj hfs
    refine ⟨rfl, rfl, fun r => rfl, rfl, rfl, ?_⟩
    intro hpc
    have hmemory : ((m.onKeyboard f).refusal s fault).machine.memory =
        m.memory.connect (f m.memory.keyboard) :=
      congrArg Prod.snd ((m.memory.connect (f m.memory.keyboard)).read_of_ne hpc)
    rw [hmemory]
    exact ⟨fun a => rfl, rfl⟩
  polled f ch rest hs hi hpc hn := by
    obtain ⟨hword, hpeek, hrest⟩ :=
      Memory.read_status_of_next? (m := m.memory.connect (f m.memory.keyboard)) hpc hn
    have hw : (m.onKeyboard f).fetched = Memory.readyStatus := hword
    have hrefuses : (m.onKeyboard f).Refuses (.invalidOpcode 8 m.registers.pc) := by
      refine .opcode (.inl ?_) ?_
      · rw [hw]
        rfl
      · rw [hw]
        rfl
    refine ⟨(m.onKeyboard f).refusal s (.invalidOpcode 8 m.registers.pc), fun fs d => ?_, ?_,
      hpeek, hrest⟩
    · exact Machine.steps_iff_of_refuses hs hi hrefuses
    · rw [hpc]
      rfl
  idle f hs hi hpc hn := by
    obtain ⟨hword, hpeek, hrest⟩ :=
      Memory.read_status_of_none (m := m.memory.connect (f m.memory.keyboard)) hpc hn
    have hw : (m.onKeyboard f).fetched = 0 := hword
    have hbegin := Machine.begin_of_fetched_zero (m := m.onKeyboard f) (s := s) hs hi hw
    refine ⟨(m.onKeyboard f).begin s, fun fs d => ?_, ?_⟩
    · rw [Machine.steps_cons_iff hs, hbegin]
      exact Cycle.ends_iff_of_done rfl
    · rw [hbegin]
      exact ⟨rfl, rfl, rfl, rfl, hpeek, hrest⟩

end LC3
