import LC3.Word

/-!
# Fields of a word

A **field** is a run of adjacent bits of a word, named by the index of its first and its last bit.
The functions here take any pair of indices and say what is wrong with a pair that names no field;
the fixed fields of an instruction are never wrong and are given as total functions in
`LC3.Instruction`. When several things are wrong the first check decides:

* a general field asks for the order of the two indices, then for the last one to lie in the word;
* a field of at most a byte first subtracts the indices, then asks for the width, then as above;
* a signed field of the lowest bits first subtracts one from its width, then as above.

What each of them gives, by the positions that it is asked for, is said in a lemma for each case.
-/

namespace LC3

/-- Why a pair of bit indices, or a width, names no field of a word. -/
inductive FieldError
  /-- The last bit lies below the first one. -/
  | reversed (first last : Nat)
  /-- The last bit lies outside the word. -/
  | outside (last : Nat)
  /-- The field has more than eight bits and is asked for as a byte. -/
  | wide (first last : Nat)
  /-- A difference of indices is negative. -/
  | negative
deriving DecidableEq

/-- The text of the refusal. -/
def FieldError.message : FieldError → String
  | reversed first last => s!"wrong direction of from: {first} and to: {last}"
  | outside last => s!"index: {last} to u16 is greater than maximum value 15"
  | wide first last => s!"bit range {first}..={last} does not fit into u8"
  | negative => "attempt to subtract with overflow"

namespace Field

/-- The field from bit `first` to bit `last`, as a number. -/
def range? (w : Word) (first last : Nat) : Except FieldError Word :=
  if last < first then .error (.reversed first last)
  else if 16 ≤ last then .error (.outside last)
  else .ok ((w.extractLsb' first (last - first + 1)).setWidth 16)

/-- The field from bit `first` to bit `last`, which has at most eight bits. -/
def byteRange? (w : Word) (first last : Nat) : Except FieldError Byte :=
  if last < first then .error .negative
  else if 8 ≤ last - first then .error (.wide first last)
  else (range? w first last).map (·.setWidth 8)

/-- A single bit. -/
def bit? (w : Word) (index : Nat) : Except FieldError Bool :=
  (range? w index index).map (·.getLsbD 0)

/-- The lowest `width` bits in two's complement. -/
def signed? (w : Word) (width : Nat) : Except FieldError Int :=
  if width = 0 then .error .negative
  else (range? w 0 (width - 1)).map fun field => (field.setWidth width).toInt

/-! ### The cases -/

variable {first last width : Nat}

theorem range?_of_reversed (w : Word) (horder : last < first) :
    range? w first last = .error (.reversed first last) := if_pos horder

theorem range?_of_outside (w : Word) (horder : first ≤ last) (hlast : 16 ≤ last) :
    range? w first last = .error (.outside last) := by
  unfold range?
  rw [if_neg (Nat.not_lt.2 horder), if_pos hlast]

theorem range?_of_inside (w : Word) (horder : first ≤ last) (hlast : last < 16) :
    range? w first last = .ok ((w.extractLsb' first (last - first + 1)).setWidth 16) := by
  unfold range?
  rw [if_neg (Nat.not_lt.2 horder), if_neg (Nat.not_le.2 hlast)]

theorem byteRange?_of_reversed (w : Word) (horder : last < first) :
    byteRange? w first last = .error .negative := if_pos horder

theorem byteRange?_of_wide (w : Word) (horder : first ≤ last) (hwide : 8 ≤ last - first) :
    byteRange? w first last = .error (.wide first last) := by
  unfold byteRange?
  rw [if_neg (Nat.not_lt.2 horder), if_pos hwide]

/-- A field of at most a byte is a field. -/
theorem byteRange?_eq_map (w : Word) (horder : first ≤ last) (hbyte : last - first < 8) :
    byteRange? w first last = (range? w first last).map (·.setWidth 8) := by
  unfold byteRange?
  rw [if_neg (Nat.not_lt.2 horder), if_neg (Nat.not_le.2 hbyte)]

theorem byteRange?_of_outside (w : Word) (horder : first ≤ last) (hbyte : last - first < 8)
    (hlast : 16 ≤ last) : byteRange? w first last = .error (.outside last) := by
  rw [byteRange?_eq_map w horder hbyte, range?_of_outside w horder hlast]
  rfl

theorem byteRange?_of_inside (w : Word) (horder : first ≤ last) (hbyte : last - first < 8)
    (hlast : last < 16) :
    byteRange? w first last = .ok ((w.extractLsb' first (last - first + 1)).setWidth 8) := by
  have hshort : 8 ≤ 16 := by decide
  rw [byteRange?_eq_map w horder hbyte, range?_of_inside w horder hlast]
  exact congrArg Except.ok (BitVec.setWidth_setWidth_of_le _ hshort)

theorem bit?_of_inside (w : Word) (hlast : last < 16) : bit? w last = .ok (w.getLsbD last) := by
  have hwidth : last - last + 1 = 1 := by omega
  unfold bit?
  rw [range?_of_inside w (Nat.le_refl _) hlast, hwidth]
  refine congrArg Except.ok ?_
  show ((w.extractLsb' last 1).setWidth 16).getLsbD 0 = w.getLsbD last
  rw [BitVec.getLsbD_setWidth, BitVec.getLsbD_extractLsb', Nat.add_zero]
  rfl

theorem signed?_zero (w : Word) : signed? w 0 = .error .negative := rfl

theorem signed?_of_outside (w : Word) (hwide : 16 < width) :
    signed? w width = .error (.outside (width - 1)) := by
  have hpos : width ≠ 0 := by omega
  have hlast : 16 ≤ width - 1 := by omega
  unfold signed?
  rw [if_neg hpos, range?_of_outside w (Nat.zero_le _) hlast]
  rfl

theorem signed?_of_inside (w : Word) (hpos : 0 < width) (hle : width ≤ 16) :
    signed? w width = .ok (w.setWidth width).toInt := by
  have hlast : width - 1 < 16 := by omega
  have hwidth : width - 1 - 0 + 1 = width := by omega
  -- the field is the lowest bits, and a longer vector in between loses nothing
  have hback : ((w.extractLsb' 0 width).setWidth 16).setWidth width = w.setWidth width := by
    rw [BitVec.setWidth_setWidth_of_le _ hle, BitVec.setWidth_eq, BitVec.setWidth_eq_extractLsb' hle]
  unfold signed?
  rw [if_neg (Nat.ne_of_gt hpos), range?_of_inside w (Nat.zero_le _) hlast, hwidth]
  exact congrArg (fun v => Except.ok v.toInt) hback

end Field

end LC3
