import LC3.Proofs.Checked.Hardware
import LC3.Proofs.Decoding
import Mathlib.Data.Int.ModEq

/-!
# Fields are exact

A field is a number between the powers of two at its ends: the word is divided by the lower one and
reduced by the upper one. A field in two's complement is the one integer near zero that the word
agrees with (`Word.Represents`). Both are what the shifts and masks of a program come to
(`Checked.range`, `Checked.offset`), for every word and all positions, and they are refused for the
stated reasons only.

* `Word.toNat_field_setWidth` — a field as a quotient and a remainder, in a longer vector.
* `Word.represents_iff` — there is one such integer, and the offset of an instruction is it.
* `Instruction.offset_emod` — from an offset the lowest bits of the word can be had back.
* `fields_exact` — the statement as a whole. Three ways to cut a word into fields lose nothing.
-/

namespace LC3

/-! ### Two's complement -/

/-- An integer that `width` bits in two's complement can hold, and that agrees with the word in its
lowest `width` bits. -/
structure Word.Represents (w : Word) (width : ℕ) (z : ℤ) : Prop where
  lower : -2 ^ (width - 1) ≤ z
  upper : z < 2 ^ (width - 1)
  congruent : z ≡ w.toNat [ZMOD 2 ^ width]

namespace Word

variable {w : Word} {width : ℕ} {z z' : ℤ}

theorem represents_toInt (w : Word) (width : ℕ) : w.Represents width (w.setWidth width).toInt where
  lower := BitVec.le_toInt _
  upper := BitVec.toInt_lt
  congruent := by
    -- a balanced remainder is a remainder
    have hmod : (w.toNat : ℤ).bmod (2 ^ width) % (2 ^ width : ℕ) = w.toNat % (2 ^ width : ℕ) :=
      Int.bmod_emod
    rw [BitVec.toInt_setWidth]
    unfold Int.ModEq
    exact_mod_cast hmod

/-- Two of them are less than a whole turn apart, so they are the same. -/
theorem Represents.unique (hpos : 0 < width) (h : w.Represents width z)
    (h' : w.Represents width z') : z = z' := by
  have hdvd : (2 ^ width : ℤ) ∣ z' - z :=
    Int.modEq_iff_dvd.1 (h.congruent.trans h'.congruent.symm)
  -- the range is from minus a half turn to a half turn
  have hhalf : (2 : ℤ) ^ (width - 1) * 2 = 2 ^ width := by
    exact_mod_cast Nat.two_pow_pred_mul_two hpos
  have hnear : |z' - z| < 2 ^ width := by
    have hlower := h.lower
    have hupper := h.upper
    have hlower' := h'.lower
    have hupper' := h'.upper
    exact abs_lt.2 ⟨by omega, by omega⟩
  have hzero : z' - z = 0 := Int.eq_zero_of_abs_lt_dvd hdvd hnear
  omega

end Word

namespace Instruction

variable (i : Instruction) {width : ℕ}

theorem toInt_offset (hle : width ≤ 16) : (i.offset width).toInt = (i.word.setWidth width).toInt :=
  BitVec.toInt_signExtend_of_le hle

/-- **The offset is the integer that the lowest bits represent**, and there is no other one. -/
theorem represents_iff (hpos : 0 < width) (hle : width ≤ 16) (z : ℤ) :
    i.word.Represents width z ↔ z = (i.offset width).toInt := by
  rw [i.toInt_offset hle]
  constructor
  · intro h
    exact h.unique hpos (i.word.represents_toInt width)
  · rintro rfl
    exact i.word.represents_toInt width

/-- From an offset the lowest bits of the word can be had back. -/
theorem offset_emod (hle : width ≤ 16) :
    (i.offset width).toInt % 2 ^ width = i.word.toNat % 2 ^ width := by
  rw [i.toInt_offset hle]
  exact (i.word.represents_toInt width).congruent

/-- The immediate operand is a word again. -/
theorem toNat_immediate : (i.immediate.toNat : ℤ) = (i.offset 5).toInt % 2 ^ 16 := by
  have hlt : (i.immediate.toNat : ℤ) < 2 ^ 16 := by exact_mod_cast i.immediate.isLt
  have hmod : (i.immediate.toNat : ℤ).bmod (2 ^ 16) % (2 ^ 16 : ℕ) =
      i.immediate.toNat % (2 ^ 16 : ℕ) := Int.bmod_emod
  have hint : (i.offset 5).toInt = (i.immediate.toNat : ℤ).bmod (2 ^ 16) :=
    BitVec.toInt_eq_toNat_bmod i.immediate
  rw [hint]
  omega

end Instruction

/-! ### Unsigned fields -/

/-- A field of `n` bits in a longer vector. -/
theorem Word.toNat_field_setWidth (w : Word) (first : ℕ) {n m : ℕ} (hn : n ≤ m) :
    ((w.extractLsb' first n).setWidth m).toNat = w.toNat / 2 ^ first % 2 ^ n := by
  have hlt : w.toNat / 2 ^ first % 2 ^ n < 2 ^ m :=
    Nat.lt_of_lt_of_le (Nat.mod_lt _ (Nat.two_pow_pos n)) (Nat.pow_le_pow_right (by decide) hn)
  rw [BitVec.toNat_setWidth, w.toNat_field, Nat.mod_eq_of_lt hlt]

namespace Instruction

variable (i : Instruction)

theorem toNat_dr : i.dr.toNat = i.word.toNat / 2 ^ 9 % 2 ^ 3 := i.word.toNat_field 9 3

theorem toNat_sr1 : i.sr1.toNat = i.word.toNat / 2 ^ 6 % 2 ^ 3 := i.word.toNat_field 6 3

theorem toNat_callsByOffset : i.callsByOffset.toNat = i.word.toNat / 2 ^ 11 % 2 :=
  Nat.toNat_testBit i.word.toNat 11

/-! ### Ways to cut a word into fields -/

/-- A register and an offset of nine bits. -/
theorem register_offset :
    4096 * (i.opcode.toNat : ℤ) + 512 * i.dr.toNat + (i.offset 9).toInt % 512 = i.word.toNat := by
  have hopcode := i.toNat_opcode
  have hdr := i.toNat_dr
  have hoffset : (i.offset 9).toInt % 2 ^ 9 = _ := i.offset_emod (by decide)
  omega

/-- Two registers and an offset of six bits. -/
theorem registers_offset :
    4096 * (i.opcode.toNat : ℤ) + 512 * i.dr.toNat + 64 * i.sr1.toNat + (i.offset 6).toInt % 64 =
      i.word.toNat := by
  have hopcode := i.toNat_opcode
  have hdr := i.toNat_dr
  have hsr1 := i.toNat_sr1
  have hoffset : (i.offset 6).toInt % 2 ^ 6 = _ := i.offset_emod (by decide)
  omega

/-- One bit and an offset of eleven bits. -/
theorem bit_offset :
    4096 * (i.opcode.toNat : ℤ) + 2048 * i.callsByOffset.toNat + (i.offset 11).toInt % 2048 =
      i.word.toNat := by
  have hopcode := i.toNat_opcode
  have hbit := i.toNat_callsByOffset
  have hoffset : (i.offset 11).toInt % 2 ^ 11 = _ := i.offset_emod (by decide)
  omega

end Instruction

/-! ### The statement -/

/-- The fields of a word are the numbers that they should be. -/
structure FieldsExact (i : Instruction) : Prop where
  /-- A field of a word is a quotient and a remainder. -/
  range : ∀ first last, first ≤ last → last ≤ 15 → ∃ v, Field.range? i.word first last = .ok v ∧
    v.toNat = i.word.toNat / 2 ^ first % 2 ^ (last - first + 1)
  /-- All other positions are refused, and their order is looked at first. -/
  range_refused : ∀ first last, (last < first →
      Field.range? i.word first last = .error (.reversed first last)) ∧
    (first ≤ last → 15 < last → Field.range? i.word first last = .error (.outside last))
  /-- A field of eight bits at most is the same number. -/
  byteRange : ∀ first last, first ≤ last → last ≤ 15 → last - first < 8 →
    ∃ v, Field.byteRange? i.word first last = .ok v ∧
      v.toNat = i.word.toNat / 2 ^ first % 2 ^ (last - first + 1)
  /-- All other positions are refused, and their difference is looked at first. -/
  byteRange_refused : ∀ first last, (last < first →
      Field.byteRange? i.word first last = .error .negative) ∧
    (first ≤ last → 8 ≤ last - first →
      Field.byteRange? i.word first last = .error (.wide first last)) ∧
    (first ≤ last → last - first < 8 → 15 < last →
      Field.byteRange? i.word first last = .error (.outside last))
  /-- The lowest bits in two's complement are the one integer that they represent. -/
  signed : ∀ width, 1 ≤ width → width ≤ 16 → ∃ z, Field.signed? i.word width = .ok z ∧
    z = (i.offset width).toInt ∧ ∀ z', i.word.Represents width z' ↔ z' = z
  /-- All other widths are refused. -/
  signed_refused : Field.signed? i.word 0 = .error .negative ∧
    ∀ width, 16 < width → Field.signed? i.word width = .error (.outside (width - 1))
  /-- The immediate operand is that integer for five bits, as a word. -/
  immediate : ∃ z, Field.signed? i.word 5 = .ok z ∧ (i.immediate.toNat : ℤ) = z % 2 ^ 16
  /-- All this is what a program computes by shifts and masks, each of which is checked. -/
  checked : (∀ first last,
      Checked.range i.word first last = (Field.range? i.word first last).mapError .field ∧
      Checked.byteRange i.word first last = (Field.byteRange? i.word first last).mapError .field) ∧
    (∀ width, Checked.offset i.word width =
      ((Field.signed? i.word width).map (BitVec.ofInt 16)).mapError .field) ∧
    Checked.immediate i = .ok i.immediate
  /-- The fields of an instruction are fields of its word. -/
  named : Field.byteRange? i.word 12 15 = .ok (i.opcode.setWidth 8) ∧
    Field.byteRange? i.word 9 11 = .ok (i.dr.setWidth 8) ∧
    Field.byteRange? i.word 6 8 = .ok (i.sr1.setWidth 8) ∧
    Field.bit? i.word 11 = .ok i.callsByOffset
  /-- And they lose nothing, in each of the three ways to cut the word. -/
  lossless :
    4096 * (i.opcode.toNat : ℤ) + 512 * i.dr.toNat + (i.offset 9).toInt % 512 = i.word.toNat ∧
    4096 * (i.opcode.toNat : ℤ) + 512 * i.dr.toNat + 64 * i.sr1.toNat +
      (i.offset 6).toInt % 64 = i.word.toNat ∧
    4096 * (i.opcode.toNat : ℤ) + 2048 * i.callsByOffset.toNat + (i.offset 11).toInt % 2048 =
      i.word.toNat

/-- **The fields of every word are exact.** -/
theorem fields_exact (i : Instruction) : FieldsExact i where
  range first last horder hlast := by
    have hn : last - first + 1 ≤ 16 := by omega
    have hinside : last < 16 := by omega
    exact ⟨_, Field.range?_of_inside i.word horder hinside,
      i.word.toNat_field_setWidth first hn⟩
  range_refused first last :=
    ⟨Field.range?_of_reversed i.word,
      fun horder hlast => Field.range?_of_outside i.word horder hlast⟩
  byteRange first last horder hlast hbyte := by
    have hn : last - first + 1 ≤ 8 := by omega
    have hinside : last < 16 := by omega
    exact ⟨_, Field.byteRange?_of_inside i.word horder hbyte hinside,
      i.word.toNat_field_setWidth first hn⟩
  byteRange_refused first last :=
    ⟨Field.byteRange?_of_reversed i.word, Field.byteRange?_of_wide i.word,
      fun horder hbyte hlast => Field.byteRange?_of_outside i.word horder hbyte hlast⟩
  signed width hpos hle := by
    refine ⟨(i.offset width).toInt, ?_, rfl, i.represents_iff hpos hle⟩
    rw [i.toInt_offset hle]
    exact Field.signed?_of_inside i.word hpos hle
  signed_refused :=
    ⟨Field.signed?_zero i.word, fun width hwide => Field.signed?_of_outside i.word hwide⟩
  immediate := by
    have hoffset : (i.offset 5).toInt = _ := i.toInt_offset (by decide)
    refine ⟨_, Field.signed?_of_inside i.word (by decide) (by decide), ?_⟩
    rw [i.toNat_immediate, hoffset]
  checked :=
    ⟨fun first last => ⟨Checked.range_eq i.word first last, Checked.byteRange_eq i.word first last⟩,
      Checked.offset_eq i.word, Checked.immediate_eq i⟩
  named := ⟨Field.byteRange?_of_inside i.word (by decide) (by decide) (by decide),
    Field.byteRange?_of_inside i.word (by decide) (by decide) (by decide),
    Field.byteRange?_of_inside i.word (by decide) (by decide) (by decide),
    Field.bit?_of_inside i.word (by decide)⟩
  lossless := ⟨i.register_offset, i.registers_offset, i.bit_offset⟩

-- the lowest nine bits with the sign bit set
example : Field.signed? 0xE1BC 9 = .ok (-68) := rfl

end LC3
