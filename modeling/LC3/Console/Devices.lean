import LC3.Console.Sink

/-!
# Sinks of their own

Two sinks that stand alone. The **open** sink takes everything at once and never fails, as a file or
a pipe does on a good day. The **limited** sink shows everything that a sink may do: it is
interrupted a number of times, takes only a few bytes at once, runs full and then either fails or
takes nothing, and it may be unable to flush.
-/

namespace LC3

/-- A sink that takes everything. -/
structure OpenSink where
deriving DecidableEq

instance : ByteSink OpenSink where
  write bytes s := (.ok bytes.length, s)
  flush s := (.ok (), s)
  patience _ := 0
  taken_le _ _ _ h := by cases h; exact Nat.le_refl _
  patience_le _ _ := Nat.le_refl _
  patience_lt _ _ _ h := by cases h

/-- A sink with limits. -/
structure LimitedSink where
  /-- The number of writes that are still interrupted. -/
  interrupts : Nat
  /-- The number of bytes that one write takes at most. -/
  chunk : Option Nat
  /-- The number of bytes that the sink can still take. -/
  room : Option Nat
  /-- A full sink fails, instead of taking nothing. -/
  failsWhenFull : Bool
  /-- Flushing fails. -/
  failsToFlush : Bool
deriving DecidableEq

namespace LimitedSink

/-- A limited sink without limits. -/
def unlimited : LimitedSink := ⟨0, none, none, true, false⟩

/-- The number of bytes that a write takes while there is room. -/
def chunkOf (s : LimitedSink) (bytes : List Byte) : Nat :=
  match s.chunk with
  | some limit => min bytes.length limit
  | none => bytes.length

/-- Offers bytes to a sink with limits: interruptions come first, then the chunk, then the room. -/
def write (bytes : List Byte) (s : LimitedSink) : Except IoError Nat × LimitedSink :=
  match s.interrupts with
  | interrupts + 1 => (.error ⟨.interrupted, "sink interrupted"⟩, { s with interrupts })
  | 0 =>
    match s.room with
    | none => (.ok (s.chunkOf bytes), s)
    | some room =>
      -- a sink that takes no bytes because of its chunk alone does not fail
      if room = 0 ∧ 0 < s.chunkOf bytes ∧ s.failsWhenFull then
        (.error ⟨.brokenPipe, "sink full"⟩, s)
      else
        (.ok (min (s.chunkOf bytes) room),
          { s with room := some (room - min (s.chunkOf bytes) room) })

/-- Makes the bytes visible, if the sink can. -/
def flush (s : LimitedSink) : Except IoError Unit × LimitedSink :=
  (if s.failsToFlush then .error ⟨.other, "flush failed"⟩ else .ok (), s)

theorem chunkOf_le (s : LimitedSink) (bytes : List Byte) : s.chunkOf bytes ≤ bytes.length := by
  unfold chunkOf
  split
  · exact Nat.min_le_left _ _
  · exact Nat.le_refl _

theorem taken_le (bytes : List Byte) (s : LimitedSink) (n : Nat)
    (h : (s.write bytes).1 = .ok n) : n ≤ bytes.length := by
  have hc := s.chunkOf_le bytes
  unfold write at h
  split at h
  · cases h
  · split at h
    · cases h; exact hc
    · split at h
      · cases h
      · cases h; exact Nat.le_trans (Nat.min_le_left _ _) hc

theorem interrupts_write (bytes : List Byte) (s : LimitedSink) :
    (s.write bytes).2.interrupts = s.interrupts - 1 := by
  unfold write
  split
  · next h => simp [h]
  · next h =>
    split
    · simp [h]
    · split <;> simp [h]

theorem interrupts_pos (bytes : List Byte) (s : LimitedSink) (e : IoError)
    (h : (s.write bytes).1 = .error e) (he : e.isInterrupted = true) : 0 < s.interrupts := by
  unfold write at h
  split at h
  · next hi => omega
  · split at h
    · cases h
    · split at h
      · cases h; cases he
      · cases h

end LimitedSink

instance : ByteSink LimitedSink where
  write := LimitedSink.write
  flush := LimitedSink.flush
  patience := LimitedSink.interrupts
  taken_le := LimitedSink.taken_le
  patience_le bytes s := by
    rw [LimitedSink.interrupts_write]; exact Nat.sub_le _ _
  patience_lt bytes s e h he := by
    have := LimitedSink.interrupts_pos bytes s e h he
    rw [LimitedSink.interrupts_write]; omega

end LC3
