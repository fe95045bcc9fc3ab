/-!
# Words and bytes

The machine knows one size of number: a **word** of 16 bits serves as register content, memory
cell, address and character. Its arithmetic wraps, so an address past the top is an address at the
bottom without further ado. **Bytes** are what images, input streams and consoles are made of; a
word is two of them, the high one first.
-/

namespace LC3

/-- A word of 16 bits: a value, an address or a character. -/
abbrev Word := BitVec 16

/-- One byte of an image, of an input stream or of console output. -/
abbrev Byte := BitVec 8

/-- Bits 15 to 8 of a word. -/
def Word.high (w : Word) : Byte := BitVec.ofNat 8 (w.toNat / 256)

/-- Bits 7 to 0 of a word, which is all that the console shows of it. -/
def Word.low (w : Word) : Byte := w.setWidth 8

/-- The word with the given high and low byte. -/
def Word.ofBytes (high low : Byte) : Word := BitVec.ofNat 16 (256 * high.toNat + low.toNat)

/-- The word whose low byte is the given one and whose high byte is zero. -/
def Word.ofByte (low : Byte) : Word := low.setWidth 16

@[simp] theorem Word.toNat_high (w : Word) : w.high.toNat = w.toNat / 256 := by
  have := w.isLt
  simp only [Word.high, BitVec.toNat_ofNat]; omega

@[simp] theorem Word.toNat_low (w : Word) : w.low.toNat = w.toNat % 256 := by
  simp [Word.low]

@[simp] theorem Word.toNat_ofBytes (high low : Byte) :
    (Word.ofBytes high low).toNat = 256 * high.toNat + low.toNat := by
  have := high.isLt; have := low.isLt
  simp only [Word.ofBytes, BitVec.toNat_ofNat]; omega

@[simp] theorem Word.toNat_ofByte (low : Byte) : (Word.ofByte low).toNat = low.toNat := by
  have := low.isLt
  simp only [Word.ofByte, BitVec.toNat_setWidth]; omega

@[simp] theorem Word.high_ofBytes (high low : Byte) : (Word.ofBytes high low).high = high := by
  have := low.isLt
  apply BitVec.eq_of_toNat_eq
  rw [Word.toNat_high, Word.toNat_ofBytes]; omega

@[simp] theorem Word.low_ofBytes (high low : Byte) : (Word.ofBytes high low).low = low := by
  have := low.isLt
  apply BitVec.eq_of_toNat_eq
  rw [Word.toNat_low, Word.toNat_ofBytes]; omega

@[simp] theorem Word.high_ofByte (b : Byte) : (Word.ofByte b).high = 0 := by
  apply BitVec.eq_of_toNat_eq
  rw [Word.toNat_high, Word.toNat_ofByte]
  exact Nat.div_eq_of_lt b.isLt

@[simp] theorem Word.low_ofByte (b : Byte) : (Word.ofByte b).low = b := by
  have := b.isLt
  apply BitVec.eq_of_toNat_eq
  rw [Word.toNat_low, Word.toNat_ofByte]; omega

@[simp] theorem Word.ofBytes_high_low (w : Word) : Word.ofBytes w.high w.low = w := by
  apply BitVec.eq_of_toNat_eq
  rw [Word.toNat_ofBytes, Word.toNat_high, Word.toNat_low]; omega

/-- The bytes of a message of ASCII characters, one byte per character. -/
def asciiBytes (message : String) : List Byte :=
  message.toList.map fun c => BitVec.ofNat 8 c.toNat

end LC3
