import LC3.Word

/-!
# Numbers as text

Messages show words, bytes and fields with a fixed number of digits: addresses and words as four
upper case hexadecimal digits behind `0x`, trap vectors as two, opcodes as four binary digits behind
`0b`. Every such number is below the base raised to the number of digits, so none is ever cut.
-/

namespace LC3.Numeral

/-- The digit of a value below 16, letters in upper case. -/
def digit (value : Nat) : Char :=
  if value < 10 then Char.ofNat (48 + value) else Char.ofNat (55 + value)

/-- The lowest `count` digits of a value in the given base, the most significant first. -/
def digits (base : Nat) : (count value : Nat) → List Char
  | 0, _ => []
  | count + 1, value => digits base count (value / base) ++ [digit (value % base)]

@[simp] theorem length_digits (base count value : Nat) :
    (digits base count value).length = count := by
  induction count generalizing value with
  | zero => rfl
  | succ n ih => simp [digits, ih]

/-- A value with `count` hexadecimal digits behind `0x`. -/
def hex (count value : Nat) : String :=
  "0x" ++ String.ofList (digits 16 count value)

/-- A value with `count` binary digits and no mark. -/
def binary (count value : Nat) : String :=
  String.ofList (digits 2 count value)

end LC3.Numeral

namespace LC3

/-- A word or address as it is shown everywhere, such as `0x3000`. -/
def Word.hex (w : Word) : String := Numeral.hex 4 w.toNat

/-- A byte as it is shown everywhere, such as `0x0F`. -/
def Byte.hex (b : Byte) : String := Numeral.hex 2 b.toNat

end LC3
