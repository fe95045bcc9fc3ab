import LC3.IoError
import LC3.Word

/-!
# Byte sinks

Program output goes to a **sink**. A sink need not take all the bytes that it is given: one write
takes the first few of them, or fails. Writing a whole buffer therefore means to write until nothing
is left, repeating writes that were only interrupted. This ends because every sink has a finite
**patience**: the number of interruptions that it may still cause, which no write increases.

* `writeAll_nil`, `writeAll_of_ne_nil` — how a buffer is written piece by piece.
* `writeAll_ne_interrupted` — a whole buffer is never left because of an interruption.
* `emit` — a buffer is made visible: written and then flushed.
-/

namespace LC3

/-- A device of state `σ` that takes bytes. -/
class ByteSink (σ : Type) where
  /-- Offers bytes; the answer is how many of them, from the first on, were taken. -/
  write : List Byte → σ → Except IoError Nat × σ
  /-- Makes all bytes taken so far visible. -/
  flush : σ → Except IoError Unit × σ
  /-- How many interruptions may still come. -/
  patience : σ → Nat
  /-- No more is taken than offered. -/
  taken_le : ∀ bytes s n, (write bytes s).1 = .ok n → n ≤ bytes.length
  /-- No write adds interruptions. -/
  patience_le : ∀ bytes s, patience (write bytes s).2 ≤ patience s
  /-- An interrupted write uses one up. -/
  patience_lt : ∀ bytes s e, (write bytes s).1 = .error e → e.isInterrupted = true →
    patience (write bytes s).2 < patience s

namespace ByteSink

variable {σ : Type} [ByteSink σ]

/-- What to do after one write of a buffer that is to be written as a whole. -/
inductive Next
  /-- The write failed for good. -/
  | fail (e : IoError)
  /-- The rest of the buffer is still to be written. -/
  | goOn (rest : List Byte)

/-- The consequence of the answer to an offer of bytes. -/
def Next.ofAnswer (bytes : List Byte) : Except IoError Nat → Next
  | .ok 0 => .fail .writeZero
  | .ok n => .goOn (bytes.drop n)
  | .error e => if e.isInterrupted then .goOn bytes else .fail e

/-- Every write that is not the last one makes the work smaller. -/
private theorem work_lt {bytes rest : List Byte} {s : σ} (hb : bytes ≠ [])
    (h : Next.ofAnswer bytes (write bytes s).1 = .goOn rest) :
    rest.length + patience (write bytes s).2 < bytes.length + patience s := by
  have hle := patience_le bytes s
  have hlen : 0 < bytes.length := List.length_pos_iff.2 hb
  revert h
  match ha : (write bytes s).1 with
  | .ok 0 => simp [Next.ofAnswer]
  | .ok (n + 1) =>
    -- at least one byte less is left, and no more interruptions
    simp only [Next.ofAnswer, Next.goOn.injEq]
    rintro rfl
    rw [List.length_drop]
    omega
  | .error e =>
    by_cases he : e.isInterrupted
    · -- the same bytes are left, and one interruption less
      simp only [Next.ofAnswer, he, if_true, Next.goOn.injEq]
      rintro rfl
      have := patience_lt bytes s e ha he
      omega
    · simp [Next.ofAnswer, he]

/-- Writes a whole buffer. -/
def writeAll (bytes : List Byte) (s : σ) : Except IoError Unit × σ :=
  if _hb : bytes = [] then (.ok (), s)
  else
    match _h : Next.ofAnswer bytes (write bytes s).1 with
    | .fail e => (.error e, (write bytes s).2)
    | .goOn rest => writeAll rest (write bytes s).2
termination_by bytes.length + patience s
decreasing_by exact work_lt _hb _h

/-- Writes several buffers, each as a whole, up to the first that fails. -/
def writeEach : List (List Byte) → σ → Except IoError Unit × σ
  | [], s => (.ok (), s)
  | bytes :: buffers, s =>
    match writeAll bytes s with
    | (.ok (), s') => writeEach buffers s'
    | (.error e, s') => (.error e, s')

/-- Makes a buffer visible: writes the whole of it and flushes. -/
def emit (bytes : List Byte) (s : σ) : Except IoError Unit × σ :=
  match writeAll bytes s with
  | (.ok (), s') => flush s'
  | (.error e, s') => (.error e, s')

/-! ### Laws -/

/-- An empty buffer is written without asking the sink. -/
@[simp] theorem writeAll_nil (s : σ) : writeAll [] s = (.ok (), s) := by
  rw [writeAll]; rfl

/-- A buffer is written by offering it and then writing what is left. -/
theorem writeAll_of_ne_nil {bytes : List Byte} (hb : bytes ≠ []) (s : σ) :
    writeAll bytes s =
      match Next.ofAnswer bytes (write bytes s).1 with
      | .fail e => (.error e, (write bytes s).2)
      | .goOn rest => writeAll rest (write bytes s).2 := by
  rw [writeAll, dif_neg hb]
  split <;> split <;> simp_all

/-- Induction along the writes of a whole buffer. -/
theorem writeAll_induction {motive : List Byte → σ → Except IoError Unit × σ → Prop}
    (nil : ∀ s, motive [] s (.ok (), s))
    (fail : ∀ bytes s e, bytes ≠ [] →
      Next.ofAnswer bytes (write bytes s).1 = .fail e →
        motive bytes s (.error e, (write bytes s).2))
    (goOn : ∀ bytes s rest r, bytes ≠ [] →
      Next.ofAnswer bytes (write bytes s).1 = .goOn rest →
        motive rest (write bytes s).2 r → motive bytes s r)
    (bytes : List Byte) (s : σ) : motive bytes s (writeAll bytes s) := by
  fun_induction writeAll bytes s with
  | case1 s => exact nil s
  | case2 bytes s hb e h => exact fail bytes s e hb h
  | case3 bytes s hb rest h ih => exact goOn bytes s rest _ hb h ih

/-- A whole buffer is never left because of an interruption. -/
theorem writeAll_ne_interrupted (bytes : List Byte) (s : σ) (e : IoError)
    (h : (writeAll bytes s).1 = .error e) : e.isInterrupted = false := by
  revert h
  refine writeAll_induction (motive := fun _ _ r => r.1 = .error e → e.isInterrupted = false)
    (fun _ h => by cases h) (fun bytes s e' _ ha h => ?_) (fun _ _ _ _ _ _ ih => ih) bytes s
  cases h
  match hw : (write bytes s).1 with
  | .ok 0 => rw [hw] at ha; cases ha; rfl
  | .ok (n + 1) => rw [hw] at ha; cases ha
  | .error e' =>
    rw [hw] at ha
    by_cases he : e'.isInterrupted <;> simp only [Next.ofAnswer, he] at ha <;> simp_all

/-- Writing a whole buffer adds no interruptions. -/
theorem patience_writeAll_le (bytes : List Byte) (s : σ) :
    patience (writeAll bytes s).2 ≤ patience s :=
  writeAll_induction (motive := fun _ s r => patience r.2 ≤ patience s)
    (fun _ => Nat.le_refl _) (fun bytes s _ _ _ => patience_le bytes s)
    (fun bytes s _ _ _ _ ih => Nat.le_trans ih (patience_le bytes s)) bytes s

/-- Writing several buffers adds no interruptions. -/
theorem patience_writeEach_le (buffers : List (List Byte)) (s : σ) :
    patience (writeEach buffers s).2 ≤ patience s := by
  induction buffers generalizing s with
  | nil => exact Nat.le_refl _
  | cons bytes buffers ih =>
    have h := patience_writeAll_le bytes s
    rw [writeEach]
    split <;> rename_i s' heq <;> rw [heq] at h
    · exact Nat.le_trans (ih s') h
    · exact h

/-- Several buffers are never left because of an interruption. -/
theorem writeEach_ne_interrupted (buffers : List (List Byte)) (s : σ) (e : IoError)
    (h : (writeEach buffers s).1 = .error e) : e.isInterrupted = false := by
  induction buffers generalizing s with
  | nil => cases h
  | cons bytes buffers ih =>
    have hw := writeAll_ne_interrupted bytes s e
    rw [writeEach] at h
    split at h <;> rename_i s' heq <;> rw [heq] at hw
    · exact ih s' h
    · exact hw h

/-- A message that was written as a whole is flushed. -/
theorem emit_of_written {message : List Byte} {s s' : σ}
    (h : writeAll message s = (.ok (), s')) : emit message s = flush s' := by
  unfold emit
  rw [h]

/-- And no other message is. -/
theorem emit_of_unwritten {message : List Byte} {s s' : σ} {e : IoError}
    (h : writeAll message s = (.error e, s')) : emit message s = (.error e, s') := by
  unfold emit
  rw [h]

end ByteSink

end LC3
