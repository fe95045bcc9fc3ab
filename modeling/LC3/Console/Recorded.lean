import LC3.Console.Sink

/-!
# Sinks under observation

A **recorded** sink passes everything on to another sink and keeps a history of it: for every offer
of bytes the part that was taken, which stays taken even if the sink fails later, and for every
request to flush whether it succeeded. Three views of the history matter: all bytes taken
(`output`), the number of requests to flush (`flushes`), and the bytes that no successful flush has
made visible yet (`unflushed`).

* `output_write`, `unflushed_write` — a write adds the part of the buffer that was taken.
* `unflushed_flush` — a successful flush leaves nothing unseen.
-/

namespace LC3

/-- One call of a sink. -/
inductive SinkCall
  /-- Bytes were offered, and some of them taken. -/
  | write (taken : List Byte)
  /-- A flush was asked for, and succeeded or not. -/
  | flush (succeeded : Bool)
deriving DecidableEq

namespace SinkCall

/-- The bytes that a sink took in a call. -/
def bytes : SinkCall → List Byte
  | write taken => taken
  | flush _ => []

/-- The call asked for a flush. -/
def isFlush : SinkCall → Bool
  | write _ => false
  | flush _ => true

end SinkCall

/-- A sink with the history of its calls. -/
structure Recorded (σ : Type) where
  /-- The sink under observation. -/
  inner : σ
  /-- Its calls, the latest first. -/
  history : List SinkCall
deriving DecidableEq

namespace Recorded

variable {σ : Type}

/-- A sink that was not called so far. -/
def start (inner : σ) : Recorded σ := ⟨inner, []⟩

/-- The sink with a fresh history. -/
def restart (r : Recorded σ) : Recorded σ := start r.inner

/-- All the bytes that the sink took, in order. -/
def output (r : Recorded σ) : List Byte := r.history.reverse.flatMap SinkCall.bytes

/-- How often the sink was asked to flush. -/
def flushes (r : Recorded σ) : Nat := r.history.countP SinkCall.isFlush

/-- The bytes that the sink took since its last successful flush. -/
def unflushed (r : Recorded σ) : List Byte :=
  (r.history.takeWhile (· ≠ .flush true)).reverse.flatMap SinkCall.bytes

@[simp] theorem output_start (inner : σ) : (start inner).output = [] := rfl

@[simp] theorem flushes_start (inner : σ) : (start inner).flushes = 0 := rfl

@[simp] theorem unflushed_start (inner : σ) : (start inner).unflushed = [] := rfl

variable [ByteSink σ]

/-- What a sink took of a buffer, according to its answer. -/
def partTaken (bytes : List Byte) : Except IoError Nat → List Byte
  | .ok n => bytes.take n
  | .error _ => []

/-- Offers bytes to the sink and records those that it takes. -/
def write (bytes : List Byte) (r : Recorded σ) : Except IoError Nat × Recorded σ :=
  let (answer, inner) := ByteSink.write bytes r.inner
  (answer, ⟨inner, .write (partTaken bytes answer) :: r.history⟩)

/-- Asks the sink to flush and records whether it does. -/
def flush (r : Recorded σ) : Except IoError Unit × Recorded σ :=
  let (answer, inner) := ByteSink.flush r.inner
  (answer, ⟨inner, .flush answer.isOk :: r.history⟩)

instance : ByteSink (Recorded σ) where
  write := write
  flush := flush
  patience r := ByteSink.patience r.inner
  taken_le bytes r := ByteSink.taken_le bytes r.inner
  patience_le bytes r := ByteSink.patience_le bytes r.inner
  patience_lt bytes r := ByteSink.patience_lt bytes r.inner

/-- A write adds the part of the buffer that was taken. -/
theorem output_write (bytes : List Byte) (r : Recorded σ) :
    (ByteSink.write bytes r).2.output =
      r.output ++ partTaken bytes (ByteSink.write bytes r).1 := by
  simp [ByteSink.write, write, output, SinkCall.bytes]

theorem unflushed_write (bytes : List Byte) (r : Recorded σ) :
    (ByteSink.write bytes r).2.unflushed =
      r.unflushed ++ partTaken bytes (ByteSink.write bytes r).1 := by
  simp [ByteSink.write, write, unflushed, SinkCall.bytes]

@[simp] theorem flushes_write (bytes : List Byte) (r : Recorded σ) :
    (ByteSink.write bytes r).2.flushes = r.flushes := by
  simp [ByteSink.write, write, flushes, SinkCall.isFlush]

@[simp] theorem output_flush (r : Recorded σ) : (ByteSink.flush r).2.output = r.output := by
  simp [ByteSink.flush, flush, output, SinkCall.bytes]

@[simp] theorem flushes_flush (r : Recorded σ) :
    (ByteSink.flush r).2.flushes = r.flushes + 1 := by
  simp [ByteSink.flush, flush, flushes, List.countP_cons, SinkCall.isFlush]

/-- A successful flush leaves nothing unseen, a failed one changes nothing. -/
theorem unflushed_flush (r : Recorded σ) :
    (ByteSink.flush r).2.unflushed =
      if (ByteSink.flush r).1.isOk then [] else r.unflushed := by
  cases h : (ByteSink.flush r.inner).1.isOk <;>
    simp [ByteSink.flush, flush, unflushed, SinkCall.bytes, h]

end Recorded

end LC3
