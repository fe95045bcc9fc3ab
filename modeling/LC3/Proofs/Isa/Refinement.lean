import LC3.Console.Devices
import LC3.Console.Recorded
import LC3.Proofs.Cycle
import LC3.Proofs.Isa.Fields

/-!
# The machine executes the instruction set

One cycle of a running machine, read as numbers, is one cycle of the table of the instruction set:
`step_refines_cycle`. It holds of all words but those of the opcodes 8, 13 and 15, of every content
of registers and memory and of every keyboard, and the console is not touched.

The proof follows the data. `State.ofHardware` commutes with the four things that an instruction
does to hardware (`ofHardware_read`, `ofHardware_write`, `ofHardware_set`, `ofHardware_jump`), and
therefore with each of the thirteen operations; `decode_refines` puts them together by the opcode.
What the order of effects comes to is settled in the lemmas for the operations: a subroutine finds
its target before R7 is overwritten, and an indirect access reads its pointer from memory before the
word behind it, out of the memory that the first read has left.
-/

namespace LC3

open Isa

namespace Isa.State

variable (h : Hardware)

/-! ### Reading, writing, setting and jumping -/

/-- Writing a cell of a bank is updating a function. -/
private theorem toFin_get_set {n : ℕ} (bank : Bank Word n) (a : BitVec n) (v : Word) :
    (fun b : Fin (2 ^ n) => ((bank.set a v).get (.ofFin b)).toFin) =
      Function.update (fun b => (bank.get (.ofFin b)).toFin) a.toFin v.toFin := by
  funext b
  rw [Bank.get_set, Function.update_apply, apply_ite BitVec.toFin]
  have hb : BitVec.ofFin b = a ↔ b = a.toFin :=
    ⟨fun hb => by rw [← hb], fun hb => by rw [hb]⟩
  exact if_congr hb rfl rfl

theorem ofHardware_write (a v : Word) :
    ofHardware { h with memory := h.memory.write a v } =
      (ofHardware h).write a.toFin v.toFin :=
  congrArg (fun cell => { ofHardware h with cell }) (toFin_get_set h.memory.cells a v)

theorem ofHardware_set {r : BitVec 3} {r' : Fin 8} (hr : r.toFin = r') {v : Word} {x : ℤ}
    (hv : v.toFin = wrap x) :
    ofHardware { h with registers := h.registers.set r v } = (ofHardware h).put r' x := by
  subst hr
  unfold put
  rw [← hv, ← Condition.ofWord_eq]
  exact congrArg (fun register => { ofHardware h with register, condition := .ofWord v })
    (toFin_get_set h.registers.general r v)

theorem ofHardware_jump {a : Word} {x : ℤ} (ha : a.toFin = wrap x) :
    ofHardware { h with registers := h.registers.jump a } = (ofHardware h).jump x := by
  unfold jump
  rw [← ha]
  rfl

/-- A read of the status register, in numbers. -/
private theorem read_statusAddress :
    (ofHardware h).read Memory.statusAddress.toFin =
      match h.memory.keyboard.next? with
      | some (c, rest) =>
        (0x8000, { ofHardware h with
          cell := Function.update (Function.update (ofHardware h).cell 0xFE02 c.toFin)
            0xFE00 0x8000
          keyboard := rest })
      | none => (0, { ofHardware h with cell := Function.update (ofHardware h).cell 0xFE00 0 }) :=
  if_pos rfl

/-- Bringing the device registers up to date is what a read of the status register does. -/
private theorem ofHardware_refresh :
    ofHardware { h with memory := h.memory.refresh } =
      ((ofHardware h).read Memory.statusAddress.toFin).2 := by
  rw [read_statusAddress]
  unfold Memory.refresh
  cases h.memory.keyboard.next? with
  | none => exact ofHardware_write h Memory.statusAddress 0
  | some next =>
    -- first the character goes to the data register, then the status register is set
    obtain ⟨c, rest⟩ := next
    have hdata := toFin_get_set h.memory.cells Memory.dataAddress c
    have hstatus := toFin_get_set (h.memory.cells.set Memory.dataAddress c) Memory.statusAddress
      Memory.readyStatus
    rw [hdata] at hstatus
    exact congrArg (fun cell => { ofHardware h with cell, keyboard := rest }) hstatus

theorem ofHardware_read (a : Word) :
    (ofHardware h).read a.toFin =
      ((h.memory.read a).1.toFin, ofHardware { h with memory := (h.memory.read a).2 }) := by
  by_cases ha : a = Memory.statusAddress
  · subst ha
    rw [Memory.read_statusAddress]
    refine Prod.ext ?_ (ofHardware_refresh h).symm
    -- the answer is the word that the status register was set to
    rw [Memory.peek_refresh, read_statusAddress]
    cases h.memory.keyboard.next? <;> rfl
  · rw [Memory.read_of_ne _ ha]
    refine if_neg fun hval => ha ?_
    exact BitVec.eq_of_toNat_eq hval

/-! ### Operands -/

variable (i : Instruction)

theorem register_firstOperand :
    (ofHardware h).register (selector 6 i.word.toNat) = (h.firstOperand i).toFin := by
  rw [← i.toFin_sr1]
  rfl

theorem register_dr :
    (ofHardware h).register (selector 9 i.word.toNat) = (h.registers.get i.dr).toFin := by
  rw [← i.toFin_dr]
  rfl

theorem value_secondOperand :
    (ofHardware h).value (operand i.word.toNat) = (h.secondOperand i).toFin := by
  unfold operand Hardware.secondOperand
  rw [← i.isImmediate_eq]
  cases i.isImmediate with
  | true => exact i.toFin_immediate.symm
  | false =>
    change (ofHardware h).register (selector 0 i.word.toNat) = _
    rw [← i.toFin_sr2]
    rfl

theorem wrap_relativeAddress (n : ℕ) :
    wrap ((ofHardware h).pc.val + signed n i.word.toNat) = (h.relativeAddress i n).toFin :=
  (i.toFin_add_offset h.registers.pc n).symm

theorem wrap_baseAddress :
    wrap (((ofHardware h).register (selector 6 i.word.toNat)).val + signed 6 i.word.toNat) =
      (h.baseAddress i).toFin := by
  rw [register_firstOperand]
  exact (i.toFin_add_offset (h.firstOperand i) 6).symm

/-! ### Operations -/

theorem ofHardware_deliver {v : Word} {x : ℤ} (hv : v.toFin = wrap x) :
    ofHardware (h.deliver i v) = (ofHardware h).put (selector 9 i.word.toNat) x :=
  ofHardware_set h i.toFin_dr hv

theorem ofHardware_deliverFrom (a : Word) :
    ofHardware (h.deliverFrom i a) =
      (ofHardware h).load (selector 9 i.word.toNat) a.toFin := by
  unfold load
  rw [ofHardware_read]
  exact ofHardware_set { h with memory := (h.memory.read a).2 } i.toFin_dr
    (Word.toFin_eq_wrap _)

theorem ofHardware_storeTo (a : Word) :
    ofHardware (h.storeTo i a) =
      (ofHardware h).write a.toFin ((ofHardware h).register (selector 9 i.word.toNat)) := by
  rw [register_dr]
  exact ofHardware_write h a _

theorem ofHardware_add :
    ofHardware (h.add i) = (ofHardware h).execute
      (.add (selector 9 i.word.toNat) (selector 6 i.word.toNat) (operand i.word.toNat)) := by
  refine ofHardware_deliver h i ?_
  rw [register_firstOperand, value_secondOperand]
  exact Word.toFin_add _ _

theorem ofHardware_and :
    ofHardware (h.and i) = (ofHardware h).execute
      (.and (selector 9 i.word.toNat) (selector 6 i.word.toNat) (operand i.word.toNat)) := by
  refine ofHardware_deliver h i ?_
  rw [register_firstOperand, value_secondOperand]
  exact Word.toFin_and _ _

theorem ofHardware_not :
    ofHardware (h.not i) = (ofHardware h).execute
      (.not (selector 9 i.word.toNat) (selector 6 i.word.toNat)) := by
  refine ofHardware_deliver h i ?_
  rw [register_firstOperand]
  exact Word.toFin_not _

/-- The branch is taken on both sides or on neither. -/
theorem ofHardware_br :
    ofHardware (h.br i) = (ofHardware h).execute
      (.br (bit 11 i.word.toNat) (bit 10 i.word.toNat) (bit 9 i.word.toNat)
        (signed 9 i.word.toNat)) := by
  have hmeets : i.nzp &&& h.registers.condition.bits ≠ 0 ↔
      (ofHardware h).meets (bit 11 i.word.toNat) (bit 10 i.word.toNat) (bit 9 i.word.toNat)
        = true := i.asksFor_iff h.registers.condition
  unfold Hardware.br
  rw [apply_ite ofHardware]
  exact if_congr hmeets (ofHardware_jump h (i.toFin_add_offset _ 9)) rfl

theorem ofHardware_jmp :
    ofHardware (h.jmp i) = (ofHardware h).execute (.jmp (selector 6 i.word.toNat)) := by
  refine ofHardware_jump h ?_
  rw [register_firstOperand]
  exact Word.toFin_eq_wrap _

/-- The target is a function of the state before R7 is written, also if R7 is the base register. -/
theorem ofHardware_jsr :
    ofHardware (h.jsr i) = (ofHardware h).execute
      (if bit 11 i.word.toNat then .jsr (signed 11 i.word.toNat)
        else .jsrr (selector 6 i.word.toNat)) := by
  -- the jump comes after the return address is in R7, but its target was found before
  have hret : ofHardware { h with registers := h.registers.set 7 h.registers.pc } =
      (ofHardware h).put 7 (ofHardware h).pc.val :=
    ofHardware_set h rfl (Word.toFin_eq_wrap _)
  unfold Hardware.jsr
  rw [← i.callsByOffset_eq]
  cases i.callsByOffset with
  | true =>
    change _ = ((ofHardware h).put 7 (ofHardware h).pc.val).jump _
    rw [← hret]
    exact ofHardware_jump { h with registers := h.registers.set 7 h.registers.pc }
      (i.toFin_add_offset _ 11)
  | false =>
    change _ = ((ofHardware h).put 7 (ofHardware h).pc.val).jump _
    rw [← hret, register_firstOperand]
    exact ofHardware_jump { h with registers := h.registers.set 7 h.registers.pc }
      (Word.toFin_eq_wrap _)

theorem ofHardware_ld :
    ofHardware (h.ld i) = (ofHardware h).execute
      (.ld (selector 9 i.word.toNat) (signed 9 i.word.toNat)) := by
  change _ = (ofHardware h).load _ (wrap ((ofHardware h).pc.val + _))
  rw [wrap_relativeAddress]
  exact ofHardware_deliverFrom h i _

/-- The word is read out of the memory that reading the pointer has left. -/
theorem ofHardware_ldi :
    ofHardware (h.ldi i) = (ofHardware h).execute
      (.ldi (selector 9 i.word.toNat) (signed 9 i.word.toNat)) := by
  change _ = State.load _ ((ofHardware h).read (wrap ((ofHardware h).pc.val + _))).1
    ((ofHardware h).read (wrap ((ofHardware h).pc.val + _))).2
  rw [wrap_relativeAddress, ofHardware_read]
  exact ofHardware_deliverFrom (h.indirect (h.relativeAddress i 9)).2 i _

theorem ofHardware_ldr :
    ofHardware (h.ldr i) = (ofHardware h).execute
      (.ldr (selector 9 i.word.toNat) (selector 6 i.word.toNat) (signed 6 i.word.toNat)) := by
  change _ = (ofHardware h).load _ (wrap (((ofHardware h).register _).val + _))
  rw [wrap_baseAddress]
  exact ofHardware_deliverFrom h i _

theorem ofHardware_lea :
    ofHardware (h.lea i) = (ofHardware h).execute
      (.lea (selector 9 i.word.toNat) (signed 9 i.word.toNat)) :=
  ofHardware_deliver h i (i.toFin_add_offset _ 9)

theorem ofHardware_st :
    ofHardware (h.st i) = (ofHardware h).execute
      (.st (selector 9 i.word.toNat) (signed 9 i.word.toNat)) := by
  change _ = (ofHardware h).write (wrap ((ofHardware h).pc.val + _)) _
  rw [wrap_relativeAddress]
  exact ofHardware_storeTo h i _

/-- The register is stored as it was before, which a read of memory does not change. -/
theorem ofHardware_sti :
    ofHardware (h.sti i) = (ofHardware h).execute
      (.sti (selector 9 i.word.toNat) (signed 9 i.word.toNat)) := by
  change _ = State.write ((ofHardware h).read (wrap ((ofHardware h).pc.val + _))).1 _
    ((ofHardware h).read (wrap ((ofHardware h).pc.val + _))).2
  rw [wrap_relativeAddress, ofHardware_read]
  exact ofHardware_storeTo (h.indirect (h.relativeAddress i 9)).2 i _

theorem ofHardware_str :
    ofHardware (h.str i) = (ofHardware h).execute
      (.str (selector 9 i.word.toNat) (selector 6 i.word.toNat) (signed 6 i.word.toNat)) := by
  change _ = (ofHardware h).write (wrap (((ofHardware h).register _).val + _)) _
  rw [wrap_baseAddress]
  exact ofHardware_storeTo h i _

/-- **Decoding refines.** The hardware executes an instruction exactly if the word stands for one,
and the result is that of the table. -/
theorem decode_refines :
    (h.execute? i).map ofHardware =
      (decode i.word.toNat).map (ofHardware h).execute := by
  have hop : i.opcode.toNat = i.word.toNat / 2 ^ 12 % 16 := i.word.toNat_field 12 4
  have hlt : i.opcode.toNat < 16 := i.opcode.isLt
  unfold Hardware.execute? decode Instruction.operation Operation.ofOpcode
  rw [← hop]
  generalize i.opcode.toNat = k at hlt
  -- the sixteen opcodes in ascending order; 8, 13 and 15 stand for nothing on either side
  interval_cases k
  · exact congrArg some (ofHardware_br h i)
  · exact congrArg some (ofHardware_add h i)
  · exact congrArg some (ofHardware_ld h i)
  · exact congrArg some (ofHardware_st h i)
  · exact congrArg some (ofHardware_jsr h i)
  · exact congrArg some (ofHardware_and h i)
  · exact congrArg some (ofHardware_ldr h i)
  · exact congrArg some (ofHardware_str h i)
  · rfl
  · exact congrArg some (ofHardware_not h i)
  · exact congrArg some (ofHardware_ldi h i)
  · exact congrArg some (ofHardware_sti h i)
  · exact congrArg some (ofHardware_jmp h i)
  · rfl
  · exact congrArg some (ofHardware_lea h i)
  · rfl

end Isa.State

/-! ### A whole cycle -/

namespace Machine

variable {σ : Type} [ByteSink σ]

/-- Fetching refines: the word is read, possibly with the effect of a read of the status register,
and the program counter points behind it. -/
theorem fetch_refines (m : Machine) :
    (State.ofHardware m.toHardware).fetch =
      (m.fetch.1.word.toNat, State.ofHardware m.fetch.2) := by
  have hpc : m.registers.advance.pc.toFin = wrap (m.registers.pc.toNat + 1) := by
    rw [Registers.pc_advance]
    exact Word.toFin_add m.registers.pc 1
  have hread := State.ofHardware_read m.toHardware m.registers.pc
  have hjump := State.ofHardware_jump
    { m.toHardware with memory := (m.memory.read m.registers.pc).2 } hpc
  unfold State.fetch
  rw [show (State.ofHardware m.toHardware).pc = m.registers.pc.toFin from rfl, hread]
  exact Prod.ext rfl hjump.symm

/-- **The machine executes the instruction set.** -/
theorem step_refines_cycle (m : Machine) (s : σ) (hrun : m.status = .running)
    (hflag : m.memory.keyboard.interrupted = false)
    (hop : (m.memory.read m.registers.pc).1.toNat / 2 ^ 12 ∉ [8, 13, 15]) :
    ∃ h : Hardware,
      m.step s = ⟨.done .running, ⟨h, .running⟩, s,
        [.fetched m.registers.pc ⟨(m.memory.read m.registers.pc).1⟩]⟩ ∧
      (State.ofHardware m.toHardware).cycle = some (State.ofHardware h) := by
  have hcycle : (State.ofHardware m.toHardware).cycle =
      (m.fetch.2.execute? m.fetch.1).map State.ofHardware := by
    unfold State.cycle
    rw [fetch_refines, State.decode_refines]
  -- a word of sixteen bits has no opcode but its highest four bits
  have hdecode : decode m.fetch.1.word.toNat ≠ none := by
    rw [Ne, decode_eq_none_iff]
    have hlt := (m.memory.read m.registers.pc).1.isLt
    rwa [show m.fetch.1.word.toNat / 2 ^ 12 % 16 =
      (m.memory.read m.registers.pc).1.toNat / 2 ^ 12 from
        Nat.mod_eq_of_lt (Nat.div_lt_of_lt_mul hlt)]
  cases hx : m.fetch.2.execute? m.fetch.1 with
  | none =>
    have hmap := State.decode_refines m.fetch.2 m.fetch.1
    rw [hx, Option.map_none, eq_comm, Option.map_eq_none_iff] at hmap
    exact absurd hmap hdecode
  | some h =>
    have hbegin : m.begin s = ⟨.done .running, ⟨h, .running⟩, s,
        [.fetched m.registers.pc ⟨(m.memory.read m.registers.pc).1⟩]⟩ := by
      rw [begin_running hrun hflag, dispatch_execute hx]
      rfl
    refine ⟨h, ?_, ?_⟩
    · rw [step_eq_begin (by rw [hbegin]), hbegin]
    · rw [hcycle, hx, Option.map_some]

/-- A machine whose next instruction loads through a pointer to the status register, with a
character waiting. -/
def aboutToPoll : Machine :=
  (initial (.channel [0x41] true)).withMemory
    (((Memory.cleared (.channel [0x41] true)).write 0x3000 0xA201).write 0x3002 0xFE00)

theorem step_refines_cycle_aboutToPoll :
    aboutToPoll.status = .running ∧ aboutToPoll.memory.keyboard.interrupted = false ∧
      (aboutToPoll.memory.read aboutToPoll.registers.pc).1.toNat / 2 ^ 12 ∉ [8, 13, 15] ∧
      ∃ h : Hardware,
        aboutToPoll.step (Recorded.start OpenSink.mk) =
          ⟨.done .running, ⟨h, .running⟩, Recorded.start OpenSink.mk, [.fetched
            aboutToPoll.registers.pc
            ⟨(aboutToPoll.memory.read aboutToPoll.registers.pc).1⟩]⟩ ∧
        (State.ofHardware aboutToPoll.toHardware).cycle = some (State.ofHardware h) :=
  ⟨rfl, rfl, by decide +kernel,
    step_refines_cycle aboutToPoll (Recorded.start OpenSink.mk) rfl rfl (by decide +kernel)⟩

end Machine

end LC3
