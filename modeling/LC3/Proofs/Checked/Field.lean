import LC3.Instruction
import LC3.Field
import LC3.Registers
import Mathlib.Data.Nat.Notation

/-!
# Fields with every step checked

The fields of an instruction are bit vectors of fixed widths, and nothing can go wrong with them. A
program that has no other numbers than bytes and words computes them by differences, shifts and
masks, and each of these has a condition under which it is defined. Here such a program is written
down as it stands, in `Except Panic`: it asks before every step whether its condition holds, and
stops if it does not.

* `range_eq`, `byteRange_eq`, `bit_eq` — for any positions at all, the program stops with the reason
  that `Field.range?` and its relatives give, and with no other; else it computes the same field.
* `signExtend_eq`, `offset_eq` — the same for two's complement numbers of any width.

So the conditions of the inner steps, which these functions do not mention, always hold.
-/

namespace LC3

/-- Why a step of a program is undefined. -/
inductive Panic
  /-- There is no such field, or a difference of positions is negative. -/
  | field (e : FieldError)
  /-- There is no such register. -/
  | register (e : RegisterError)
  /-- The sum of two bytes is no byte. -/
  | overflow (a b : ℕ)
  /-- A word is shifted by its width or more. -/
  | shift (amount : ℕ)
  /-- A number is to be extended from a width that no part of a word has. -/
  | width (width : ℕ)
  /-- There is nothing at this index. -/
  | index (i length : ℕ)
deriving DecidableEq

namespace Checked

/-- Goes on if a condition holds. -/
def require (p : Prop) [Decidable p] (panic : Panic) : Except Panic Unit :=
  if p then .ok () else .error panic

section Require

variable {α β : Type} {p : Prop} [Decidable p]

@[simp] theorem ok_bind (a : α) (f : α → Except Panic β) : (Except.ok a >>= f) = f a :=
  rfl

theorem require_bind (hp : p) (panic : Panic) (f : Unit → Except Panic α) :
    (require p panic >>= f) = f () := by
  unfold require
  rw [if_pos hp]
  rfl

theorem require_bind_of_not (hp : ¬ p) (panic : Panic) (f : Unit → Except Panic α) :
    (require p panic >>= f) = .error panic := by
  unfold require
  rw [if_neg hp]
  rfl

end Require

/-! ### Single steps -/

/-- A difference of positions. -/
def subtract (a b : ℕ) : Except Panic ℕ := do
  require (b ≤ a) (.field .negative)
  return a - b

/-- A sum of bytes. -/
def addBytes (a b : ℕ) : Except Panic ℕ := do
  require (a + b < 256) (.overflow a b)
  return a + b

def shiftRight (w : Word) (amount : ℕ) : Except Panic Word := do
  require (amount < 16) (.shift amount)
  return w >>> amount

def shiftLeft (w : Word) (amount : ℕ) : Except Panic Word := do
  require (amount < 16) (.shift amount)
  return w <<< amount

theorem subtract_of_le {a b : ℕ} (h : b ≤ a) : subtract a b = .ok (a - b) :=
  require_bind h _ _

theorem subtract_of_lt {a b : ℕ} (h : a < b) : subtract a b = .error (.field .negative) :=
  require_bind_of_not (Nat.not_le.2 h) _ _

theorem addBytes_of_lt {a b : ℕ} (h : a + b < 256) : addBytes a b = .ok (a + b) :=
  require_bind h _ _

theorem shiftRight_of_lt {amount : ℕ} (h : amount < 16) (w : Word) :
    shiftRight w amount = .ok (w >>> amount) :=
  require_bind h _ _

theorem shiftLeft_of_lt {amount : ℕ} (h : amount < 16) (w : Word) :
    shiftLeft w amount = .ok (w <<< amount) :=
  require_bind h _ _

/-! ### Fields -/

/-- The field from bit `first` to bit `last`, by a shift and a mask. -/
def range (w : Word) (first last : ℕ) : Except Panic Word := do
  require (first ≤ last) (.field (.reversed first last))
  require (last < 16) (.field (.outside last))
  let width ← addBytes (← subtract last first) 1
  let excess ← subtract 16 width
  -- this shift is one that may be too large, and then nothing is left
  let mask := if excess < 16 then (0xFFFF : Word) >>> excess else 0
  return (← shiftRight w first) &&& mask

/-- The same as a byte, of which no bit may be lost. -/
def byteRange (w : Word) (first last : ℕ) : Except Panic Byte := do
  require ((← subtract last first) < 8) (.field (.wide first last))
  let field ← range w first last
  require (field.toNat < 256) (.field (.wide first last))
  return field.setWidth 8

def bit (w : Word) (index : ℕ) : Except Panic Bool := do
  return (← range w index index) &&& 1 != 0

/-- What the mask leaves is the field. -/
theorem mask_eq (w : Word) {first n : ℕ} (hpos : 0 < n) (hn : n ≤ 16) :
    (w >>> first) &&& (if 16 - n < 16 then (0xFFFF : Word) >>> (16 - n) else 0) =
      (w.extractLsb' first n).setWidth 16 := by
  have hones : (0xFFFF : Word) = BitVec.allOnes 16 := rfl
  rw [if_pos (by omega), hones]
  apply BitVec.eq_of_getLsbD_eq
  intro i hi
  -- bit `i` of the mask is set if it is one of the lowest `n`
  have hmask : (16 - n + i < 16) ↔ i < n := by omega
  rw [BitVec.getLsbD_and, BitVec.getLsbD_ushiftRight, BitVec.getLsbD_ushiftRight,
    BitVec.getLsbD_allOnes, BitVec.getLsbD_setWidth, BitVec.getLsbD_extractLsb',
    decide_eq_true hi, decide_eq_decide.2 hmask, Bool.true_and, Bool.and_comm]

theorem range_of_ok {first last : ℕ} (horder : first ≤ last) (hlast : last < 16) (w : Word) :
    range w first last = .ok ((w.extractLsb' first (last - first + 1)).setWidth 16) := by
  have hwidth : last - first + 1 ≤ 16 := by omega
  -- the two conditions imply those of all further steps
  unfold range
  rw [require_bind horder, require_bind hlast, subtract_of_le horder, ok_bind,
    addBytes_of_lt (by omega), ok_bind, subtract_of_le hwidth, ok_bind, shiftRight_of_lt (by omega),
    ok_bind]
  exact congrArg Except.ok (mask_eq w (Nat.succ_pos _) hwidth)

/-- **A field stops with the reason that it does not exist**, and with no other. -/
theorem range_eq (w : Word) (first last : ℕ) :
    range w first last = (Field.range? w first last).mapError .field := by
  by_cases horder : last < first
  · rw [Field.range?_of_reversed w horder]
    exact require_bind_of_not (Nat.not_le.2 horder) _ _
  · have hle : first ≤ last := Nat.not_lt.1 horder
    by_cases hlast : 16 ≤ last
    · rw [Field.range?_of_outside w hle hlast]
      unfold range
      rw [require_bind hle]
      exact require_bind_of_not (Nat.not_lt.2 hlast) _ _
    · rw [Field.range?_of_inside w hle (Nat.not_le.1 hlast)]
      exact range_of_ok hle (Nat.not_le.1 hlast) w

/-- **So does a field of at most a byte**, of which no bit is lost. -/
theorem byteRange_eq (w : Word) (first last : ℕ) :
    byteRange w first last = (Field.byteRange? w first last).mapError .field := by
  unfold byteRange
  by_cases horder : last < first
  · -- the difference is taken first, and stops it before the order is asked for
    rw [Field.byteRange?_of_reversed w horder, subtract_of_lt horder]
    rfl
  · have hle : first ≤ last := Nat.not_lt.1 horder
    rw [subtract_of_le hle, ok_bind]
    by_cases hwide : 8 ≤ last - first
    · rw [Field.byteRange?_of_wide w hle hwide]
      exact require_bind_of_not (Nat.not_lt.2 hwide) _ _
    · have hbyte : last - first < 8 := Nat.not_le.1 hwide
      rw [Field.byteRange?_eq_map w hle hbyte, require_bind hbyte, range_eq]
      by_cases hlast : 16 ≤ last
      · rw [Field.range?_of_outside w hle hlast]
        rfl
      · rw [Field.range?_of_inside w hle (Nat.not_le.1 hlast)]
        -- eight bits are a number below 256
        have hsmall : ((w.extractLsb' first (last - first + 1)).setWidth 16).toNat < 256 := by
          have hlt := (w.extractLsb' first (last - first + 1)).isLt
          have hpow : 2 ^ (last - first + 1) ≤ 2 ^ 8 :=
            Nat.pow_le_pow_right (by decide) (by omega)
          rw [BitVec.toNat_setWidth]
          exact Nat.lt_of_le_of_lt (Nat.mod_le _ _) (Nat.lt_of_lt_of_le hlt hpow)
        exact require_bind hsmall _ _

theorem byteRange_of_ok {first last : ℕ} (horder : first ≤ last) (hbyte : last - first < 8)
    (hlast : last < 16) (w : Word) :
    byteRange w first last = .ok ((w.extractLsb' first (last - first + 1)).setWidth 8) := by
  rw [byteRange_eq, Field.byteRange?_of_inside w horder hbyte hlast]
  rfl

theorem bit_eq (w : Word) (index : ℕ) :
    bit w index = (Field.bit? w index).mapError .field := by
  have hbit : ∀ v : Word, (v &&& 1 != 0) = v.getLsbD 0 := by
    intro v
    -- the mask leaves the lowest bit, in its place
    have hone : v &&& 1 = (BitVec.ofBool (v.getLsbD 0)).setWidth 16 := by
      apply BitVec.eq_of_getLsbD_eq
      intro i hi
      cases i with
      | zero => simp
      | succ i => simp
    rw [hone]
    cases v.getLsbD 0 with
    | true => rfl
    | false => rfl
  unfold bit Field.bit?
  rw [range_eq]
  cases Field.range? w index index with
  | error e => rfl
  | ok v => exact congrArg Except.ok (hbit v)

theorem bit_of_ok {index : ℕ} (h : index < 16) (w : Word) :
    bit w index = .ok (w.getLsbD index) := by
  rw [bit_eq, Field.bit?_of_inside w h]
  rfl

/-! ### Two's complement -/

/-- The number of `width` bits that a word holds, extended to all of its bits. -/
def signExtend (bits : Word) (width : ℕ) : Except Panic Word := do
  require (0 < width ∧ width ≤ 16) (.width width)
  if width = 16 then return bits
  let sign := (← shiftRight bits (← subtract width 1)) &&& 1
  if sign = 1 then return bits ||| (← shiftLeft 0xFFFF width)
  return bits

/-- The lowest `width` bits in two's complement. -/
def offset (w : Word) (width : ℕ) : Except Panic Word := do
  signExtend (← range w 0 (← subtract width 1)) width

/-- The bit that is shifted down is the sign. -/
theorem sign_eq {n : ℕ} (hpos : 0 < n) (hn : n ≤ 16) (x : BitVec n) :
    (x.setWidth 16 >>> (n - 1)) &&& 1 = (BitVec.ofBool x.msb).setWidth 16 := by
  apply BitVec.eq_of_getLsbD_eq
  intro i hi
  cases i with
  | zero =>
    have htop : n - 1 < 16 := by omega
    simp [BitVec.msb_eq_getLsbD_last, htop]
  | succ i => simp

/-- A negative number has ones above its sign, any other number has zeros. -/
theorem extended_eq {n : ℕ} (x : BitVec n) :
    x.signExtend 16 = if x.msb then x.setWidth 16 ||| ((0xFFFF : Word) <<< n) else x.setWidth 16 := by
  have hones : (0xFFFF : Word) = BitVec.allOnes 16 := rfl
  rw [hones]
  apply BitVec.eq_of_getLsbD_eq
  intro i hi
  have hbelow : i - n < 16 := by omega
  rw [BitVec.getLsbD_signExtend]
  by_cases hin : i < n
  · -- the number itself
    cases x.msb <;> simp [hi, hin]
  · -- the bits above it, of which it has none
    have hnone := BitVec.getLsbD_of_ge x i (Nat.not_lt.1 hin)
    cases x.msb <;>
      simp only [if_true, if_false, Bool.false_eq_true, BitVec.getLsbD_or, BitVec.getLsbD_setWidth,
        BitVec.getLsbD_shiftLeft, BitVec.getLsbD_allOnes, hnone, hi, hin, hbelow, decide_true,
        decide_false, Bool.not_false, Bool.and_false, Bool.and_true, Bool.or_true]

theorem signExtend_eq {n : ℕ} (hpos : 0 < n) (hn : n ≤ 16) (x : BitVec n) :
    signExtend (x.setWidth 16) n = .ok (x.signExtend 16) := by
  unfold signExtend
  rw [require_bind ⟨hpos, hn⟩]
  by_cases hfull : n = 16
  · -- there is nothing to extend, and a shift by this width would not be allowed
    subst hfull
    rw [if_pos rfl, BitVec.setWidth_eq, BitVec.signExtend_eq]
    rfl
  · have hlt : n < 16 := Nat.lt_of_le_of_ne hn hfull
    rw [if_neg hfull, subtract_of_le hpos, ok_bind, shiftRight_of_lt (by omega), ok_bind,
      sign_eq hpos hn, shiftLeft_of_lt hlt, extended_eq]
    cases x.msb with
    | true => rfl
    | false => rfl

theorem offset_of_ok {width : ℕ} (hpos : 0 < width) (hle : width ≤ 16) (w : Word) :
    offset w width = .ok ((w.setWidth width).signExtend 16) := by
  have hlast : width - 1 < 16 := by omega
  have hwidth : width - 1 - 0 + 1 = width := by omega
  unfold offset
  rw [subtract_of_le hpos, ok_bind, range_of_ok (Nat.zero_le _) hlast, ok_bind, hwidth,
    signExtend_eq hpos hle, BitVec.setWidth_eq_extractLsb' hle]

/-- **A two's complement number stops with the reason that its field does not exist**: its width is
zero, or it is more than a word has. -/
theorem offset_eq (w : Word) (width : ℕ) :
    offset w width = ((Field.signed? w width).map (BitVec.ofInt 16)).mapError .field := by
  by_cases hzero : width = 0
  · -- the last position would be a negative number
    subst hzero
    rfl
  · have hpos : 0 < width := Nat.pos_of_ne_zero hzero
    by_cases hle : width ≤ 16
    · rw [offset_of_ok hpos hle, Field.signed?_of_inside w hpos hle]
      rfl
    · have hwide : 16 < width := Nat.not_le.1 hle
      have hlast : 16 ≤ width - 1 := by omega
      unfold offset
      rw [subtract_of_le hpos, ok_bind, range_eq, Field.range?_of_outside w (Nat.zero_le _) hlast,
        Field.signed?_of_outside w hwide]
      rfl

end Checked

end LC3
