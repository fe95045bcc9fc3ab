import LC3.Word

/-!
# Program images

An **image** is a sequence of big-endian words: the first one is the origin, the address where the
program belongs, the others are its content. A byte left over at the end means nothing but is kept,
so that the one who loads the image can say so. The words are not checked for being instructions.

* `ofBytes?_eq_none_iff` — only a sequence without an origin is no image.
* `ofBytes?_toBytes` — reading gives back what was written, with or without a byte left over.
-/

namespace LC3

/-- A program with the address where it belongs. -/
structure Image where
  /-- The address of the first word. -/
  origin : Word
  /-- The content. -/
  words : List Word
  /-- The byte behind the last complete word, if there is one. -/
  trailing : Option Byte
deriving DecidableEq

/-- Where an image ended up in memory. -/
structure Placement where
  /-- The address of the first word. -/
  origin : Word
  /-- The number of words that were placed. -/
  wordCount : Nat
  /-- Words beyond the top of memory were dropped. -/
  truncated : Bool
deriving DecidableEq

/-- The line that is logged for a placement. -/
def Placement.describe (p : Placement) : String :=
  s!"LoadedImage \x7b origin: {p.origin.toNat}, word_count: {p.wordCount}, " ++
    s!"truncated: {p.truncated} \x7d"

namespace Image

/-! ### Reading and writing -/

/-- The words of a byte sequence behind those already `read`, the latest first, and the byte left
over. -/
private def pairUp : List Byte → List Word → List Word × Option Byte
  | high :: low :: rest, read => pairUp rest (.ofBytes high low :: read)
  | [last], read => (read.reverse, some last)
  | [], read => (read.reverse, none)

/-- The complete words of a byte sequence, and the byte left over. -/
def pairs (bytes : List Byte) : List Word × Option Byte := pairUp bytes []

/-- The image that a byte sequence holds. -/
def ofBytes? : List Byte → Option Image
  | high :: low :: payload =>
    let (words, trailing) := pairs payload
    some ⟨.ofBytes high low, words, trailing⟩
  | _ => none

/-- The bytes of a sequence of words. -/
def bytesOf (words : List Word) : List Byte := words.flatMap fun w => [w.high, w.low]

/-- The bytes of an image. -/
def toBytes (image : Image) : List Byte :=
  bytesOf (image.origin :: image.words) ++ image.trailing.toList

/-! ### Laws -/

private theorem pairUp_eq (bytes : List Byte) (read : List Word) :
    pairUp bytes read = (read.reverse ++ (pairs bytes).1, (pairs bytes).2) := by
  suffices h : ∀ n, ∀ bytes : List Byte, bytes.length ≤ n → ∀ read,
      pairUp bytes read = (read.reverse ++ (pairUp bytes []).1, (pairUp bytes []).2) from
    h _ bytes (Nat.le_refl _) read
  intro n
  induction n with
  | zero =>
    intro bytes h read
    have : bytes = [] := List.eq_nil_of_length_eq_zero (by omega)
    subst this
    simp [pairUp]
  | succ n ih =>
    intro bytes h read
    match bytes, h with
    | [], _ => simp [pairUp]
    | [_], _ => simp [pairUp]
    | high :: low :: rest, h =>
      have hrest : rest.length ≤ n := by simp only [List.length_cons] at h; omega
      rw [pairUp, pairUp, ih rest hrest, ih rest hrest [_]]
      simp

@[simp] theorem pairs_nil : pairs [] = ([], none) := rfl

@[simp] theorem pairs_singleton (last : Byte) : pairs [last] = ([], some last) := rfl

@[simp] theorem pairs_cons_cons (high low : Byte) (rest : List Byte) :
    pairs (high :: low :: rest) = (.ofBytes high low :: (pairs rest).1, (pairs rest).2) := by
  rw [pairs, pairUp, pairUp_eq]; rfl

theorem pairs_bytesOf_append (words : List Word) (rest : List Byte) :
    pairs (bytesOf words ++ rest) = (words ++ (pairs rest).1, (pairs rest).2) := by
  induction words with
  | nil => simp [bytesOf]
  | cons w words ih =>
    have h : bytesOf (w :: words) ++ rest = w.high :: w.low :: (bytesOf words ++ rest) := by
      simp [bytesOf]
    rw [h, pairs_cons_cons, ih, Word.ofBytes_high_low]
    rfl

/-- Only a sequence too short for an origin is no image. -/
theorem ofBytes?_eq_none_iff (bytes : List Byte) : ofBytes? bytes = none ↔ bytes.length < 2 := by
  match bytes with
  | [] => simp [ofBytes?]
  | [_] => simp [ofBytes?]
  | _ :: _ :: _ => simp [ofBytes?]

/-- Reading gives back the image that was written. -/
@[simp] theorem ofBytes?_toBytes (image : Image) : ofBytes? image.toBytes = some image := by
  obtain ⟨origin, words, trailing⟩ := image
  have h := pairs_bytesOf_append words trailing.toList
  cases trailing <;> simp_all [toBytes, bytesOf, ofBytes?]

end Image

end LC3
