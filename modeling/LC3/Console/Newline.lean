import LC3.Console.Sink

/-!
# Line ends on a raw terminal

On a raw terminal a line feed moves the cursor down and not back to the first column. A
**translating** sink therefore writes a carriage return and a line feed for every line feed. It cuts
a buffer at its line feeds into pieces and writes each of them as a whole, so it takes either the
whole buffer or fails, and it never asks to repeat a buffer of which a part was already written:
`write_ne_interrupted`. With translation switched off it passes everything on as it is.
-/

namespace LC3

/-- A sink that may write line ends in the way of a raw terminal. -/
structure Translating (σ : Type) where
  /-- The sink that receives the result. -/
  inner : σ
  /-- Line feeds are translated. -/
  enabled : Bool

namespace Newline

/-- The line feed. -/
def lineFeed : Byte := 0x0A

/-- What a raw terminal needs for a line feed. -/
def lineEnd : List Byte := [0x0D, 0x0A]

/-- The translation of bytes for a raw terminal. -/
def translate (bytes : List Byte) : List Byte :=
  bytes.flatMap fun b => if b = lineFeed then lineEnd else [b]

/-- The pieces of a buffer with one more byte in front. -/
def addByte (b : Byte) : List (List Byte) → List (List Byte)
  | line :: rest => if b = lineFeed then [] :: lineEnd :: line :: rest else (b :: line) :: rest
  | [] => [[b]]

/-- The pieces in which a buffer is written: its lines, with a line end before all but the first. -/
def pieces (bytes : List Byte) : List (List Byte) := bytes.foldr addByte [[]]

@[simp] theorem pieces_nil : pieces [] = [[]] := rfl

@[simp] theorem pieces_cons (b : Byte) (bytes : List Byte) :
    pieces (b :: bytes) = addByte b (pieces bytes) := rfl

theorem pieces_ne_nil (bytes : List Byte) : pieces bytes ≠ [] := by
  cases bytes with
  | nil => simp
  | cons b bytes => rw [pieces_cons, addByte.eq_def]; split <;> (try split) <;> simp

/-- The pieces are the translation, cut. -/
theorem flatten_pieces (bytes : List Byte) : (pieces bytes).flatten = translate bytes := by
  induction bytes with
  | nil => rfl
  | cons b bytes ih =>
    have hne := pieces_ne_nil bytes
    rw [pieces_cons]
    cases hp : pieces bytes with
    | nil => exact absurd hp hne
    | cons line rest =>
      rw [hp] at ih
      simp only [addByte, translate, List.flatMap_cons]
      by_cases hb : b = lineFeed
      · simpa [hb, translate] using ih
      · simpa [hb, translate] using ih

theorem translate_append (bytes rest : List Byte) :
    translate (bytes ++ rest) = translate bytes ++ translate rest := by
  simp [translate]

end Newline

namespace Translating

variable {σ : Type} [ByteSink σ]

/-- Offers bytes: translated and as a whole, or as they are. -/
def write (bytes : List Byte) (s : Translating σ) : Except IoError Nat × Translating σ :=
  if s.enabled then
    -- the answer counts the bytes that were offered, not those that they became
    let (answer, inner) := ByteSink.writeEach (Newline.pieces bytes) s.inner
    (answer.map fun _ => bytes.length, { s with inner })
  else
    let (answer, inner) := ByteSink.write bytes s.inner
    (answer, { s with inner })

/-- Flushes the sink that receives the result. -/
def flush (s : Translating σ) : Except IoError Unit × Translating σ :=
  let (answer, inner) := ByteSink.flush s.inner
  (answer, { s with inner })

theorem write_of_enabled (bytes : List Byte) {s : Translating σ} (h : s.enabled = true) :
    write bytes s =
      ((ByteSink.writeEach (Newline.pieces bytes) s.inner).1.map fun _ => bytes.length,
        { s with inner := (ByteSink.writeEach (Newline.pieces bytes) s.inner).2 }) := by
  simp [write, h]

theorem write_of_disabled (bytes : List Byte) {s : Translating σ} (h : s.enabled = false) :
    write bytes s =
      ((ByteSink.write bytes s.inner).1,
        { s with inner := (ByteSink.write bytes s.inner).2 }) := by
  simp [write, h]

/-- A translated buffer is never asked for again. -/
theorem write_ne_interrupted (bytes : List Byte) {s : Translating σ} (h : s.enabled = true)
    (e : IoError) (he : (write bytes s).1 = .error e) : e.isInterrupted = false := by
  rw [write_of_enabled bytes h] at he
  cases hw : (ByteSink.writeEach (Newline.pieces bytes) s.inner).1 with
  | ok _ => simp [hw, Except.map] at he
  | error e' =>
    simp only [hw, Except.map, Except.error.injEq] at he
    exact he ▸ ByteSink.writeEach_ne_interrupted _ _ _ hw

instance : ByteSink (Translating σ) where
  write := write
  flush := flush
  patience s := ByteSink.patience s.inner
  taken_le bytes s n h := by
    cases hs : s.enabled with
    | true =>
      rw [write_of_enabled bytes hs] at h
      cases hw : (ByteSink.writeEach (Newline.pieces bytes) s.inner).1 with
      | ok _ => simp only [hw, Except.map, Except.ok.injEq] at h; omega
      | error _ => simp [hw, Except.map] at h
    | false =>
      rw [write_of_disabled bytes hs] at h
      exact ByteSink.taken_le bytes s.inner n h
  patience_le bytes s := by
    cases hs : s.enabled with
    | true => rw [write_of_enabled bytes hs]; exact ByteSink.patience_writeEach_le _ _
    | false => rw [write_of_disabled bytes hs]; exact ByteSink.patience_le bytes s.inner
  patience_lt bytes s e h he := by
    cases hs : s.enabled with
    | true => exact absurd he (by simp [write_ne_interrupted bytes hs e h])
    | false =>
      rw [write_of_disabled bytes hs] at h ⊢
      exact ByteSink.patience_lt bytes s.inner e h he

end Translating

end LC3
