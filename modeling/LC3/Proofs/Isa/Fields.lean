import LC3.Proofs.Isa.Reference

/-!
# Fields as numbers

An instruction cuts its fields out of a bit vector, the table of the instruction set computes them
from a number. Here the two are the same, field by field:

* `toFin_dr`, `toFin_sr1`, `toFin_sr2` — the register selectors.
* `isImmediate_eq`, `callsByOffset_eq` — the two bits that choose between forms.
* `asksFor_iff` — a branch is taken if the bit that belongs to the condition is set.
* `toFin_add_offset` — adding an offset to a word is adding an integer modulo `2 ^ 16`.

The last one is where the work is. The bit vector is extended by its sign bit and then added with
the carry dropped; the integer is first made negative by a subtraction and the sum is reduced at the
very end. Both are the image of one integer sum under `BitVec.ofInt`, which is additive.
-/

namespace LC3

open Isa (selector bit signed wrap)

/-! ### Selectors and single bits -/

/-- A field of `n` bits as a quotient and a remainder. -/
theorem Word.toNat_field (w : Word) (k n : ℕ) :
    (w.extractLsb' k n).toNat = w.toNat / 2 ^ k % 2 ^ n := by
  rw [BitVec.extractLsb'_toNat, Nat.shiftRight_eq_div_pow]

/-- A bit as a quotient and a remainder. -/
theorem Word.getLsbD_eq_bit (w : Word) (k : ℕ) : w.getLsbD k = bit k w.toNat := by
  rw [BitVec.getLsbD, Nat.testBit_eq_decide_div_mod_eq]
  rfl

namespace Instruction

variable (i : Instruction)

theorem toFin_dr : i.dr.toFin = selector 9 i.word.toNat :=
  Fin.ext (i.word.toNat_field 9 3)

theorem toFin_sr1 : i.sr1.toFin = selector 6 i.word.toNat :=
  Fin.ext (i.word.toNat_field 6 3)

theorem toFin_sr2 : i.sr2.toFin = selector 0 i.word.toNat :=
  Fin.ext (i.word.toNat_field 0 3)

theorem isImmediate_eq : i.isImmediate = bit 5 i.word.toNat :=
  i.word.getLsbD_eq_bit 5

theorem callsByOffset_eq : i.callsByOffset = bit 11 i.word.toNat :=
  i.word.getLsbD_eq_bit 11

/-- Bit `k` of the conditions that a branch asks for. -/
theorem getLsbD_nzp {k : ℕ} (hk : k < 3) : i.nzp.getLsbD k = bit (9 + k) i.word.toNat := by
  rw [← Word.getLsbD_eq_bit]
  unfold nzp
  rw [BitVec.getLsbD_extractLsb', decide_eq_true hk, Bool.true_and]

/-- A branch asks for a condition by the bit that stands for it. -/
theorem asksFor_iff (c : Condition) :
    i.nzp &&& c.bits ≠ 0 ↔
      (match c with
        | .negative => bit 11 i.word.toNat
        | .zero => bit 10 i.word.toNat
        | .positive => bit 9 i.word.toNat) = true := by
  have single : ∀ b : BitVec 3,
      (b &&& 0b100 ≠ 0 ↔ b.getLsbD 2 = true) ∧ (b &&& 0b010 ≠ 0 ↔ b.getLsbD 1 = true) ∧
        (b &&& 0b001 ≠ 0 ↔ b.getLsbD 0 = true) := by decide
  obtain ⟨hn, hz, hp⟩ := single i.nzp
  cases c with
  | negative => exact hn.trans (by rw [i.getLsbD_nzp (k := 2) (by decide)])
  | zero => exact hz.trans (by rw [i.getLsbD_nzp (k := 1) (by decide)])
  | positive => exact hp.trans (by rw [i.getLsbD_nzp (k := 0) (by decide)])

end Instruction

/-! ### Arithmetic -/

/-- A word is the image of the integer that it counts. -/
theorem Word.ofInt_toNat (w : Word) : BitVec.ofInt 16 w.toNat = w := by
  rw [BitVec.ofInt_natCast, BitVec.ofNat_toNat, BitVec.setWidth_eq]

theorem Word.toFin_ofInt (x : ℤ) : (BitVec.ofInt 16 x).toFin = wrap x := by
  refine Fin.ext ?_
  change (BitVec.ofInt 16 x).toNat = _
  rw [BitVec.toNat_ofInt]
  rfl

theorem Word.toFin_eq_wrap (w : Word) : w.toFin = wrap w.toNat := by
  rw [← Word.toFin_ofInt, Word.ofInt_toNat]

theorem Word.toFin_add (v w : Word) : (v + w).toFin = wrap (v.toNat + w.toNat) := by
  rw [← Word.toFin_ofInt, BitVec.ofInt_add, Word.ofInt_toNat, Word.ofInt_toNat]

theorem Word.toFin_not (w : Word) : (~~~w).toFin = wrap (2 ^ 16 - 1 - w.toNat) := by
  have hlt := w.isLt
  rw [Word.toFin_eq_wrap, BitVec.toNat_not]
  congr 1
  omega

theorem Word.toFin_and (v w : Word) : (v &&& w).toFin = wrap ((v.toNat &&& w.toNat : ℕ) : ℤ) := by
  rw [Word.toFin_eq_wrap, BitVec.toNat_and]

namespace Instruction

variable (i : Instruction)

/-- The lowest bits of a word in two's complement, by way of a shorter bit vector. -/
theorem toInt_setWidth_word (n : ℕ) :
    (i.word.setWidth n).toInt = signed n i.word.toNat := by
  unfold BitVec.toInt
  rw [BitVec.toNat_setWidth]
  unfold signed
  split <;> push_cast <;> rfl

/-- An offset is the image of the integer that the lowest bits stand for. -/
theorem offset_eq_ofInt (n : ℕ) : i.offset n = BitVec.ofInt 16 (signed n i.word.toNat) := by
  rw [← i.toInt_setWidth_word]
  rfl

/-- An offset is added as an integer modulo `2 ^ 16`. -/
theorem toFin_add_offset (v : Word) (n : ℕ) :
    (v + i.offset n).toFin = wrap (v.toNat + signed n i.word.toNat) := by
  rw [← Word.toFin_ofInt, BitVec.ofInt_add, Word.ofInt_toNat, i.offset_eq_ofInt]

theorem toFin_immediate : i.immediate.toFin = wrap (signed 5 i.word.toNat) := by
  rw [← Word.toFin_ofInt, ← i.offset_eq_ofInt]
  rfl

end Instruction

/-- The condition is the sign class of the number. -/
theorem Condition.ofWord_eq (w : Word) : Condition.ofWord w = Isa.signClass w.toFin := by
  unfold Condition.ofWord Isa.signClass
  have hzero : w = 0 ↔ w.toFin.val = 0 := by
    rw [← BitVec.toNat_inj]
    rfl
  have hmsb : w.msb = true ↔ 2 ^ 15 ≤ w.toFin.val := by
    rw [BitVec.msb_eq_decide, decide_eq_true_iff]
    rfl
  exact if_congr hzero rfl (if_congr hmsb rfl rfl)

end LC3
