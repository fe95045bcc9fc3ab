import LC3.Console.Devices
import LC3.Console.Newline
import LC3.Console.Recorded

/-!
# What arrives at a sink

A buffer is written in several offers, each of which may be answered in many ways: a part is taken,
nothing is taken, the offer is interrupted, the sink fails. Whatever the answers are, the bytes that
arrive are the buffer if the whole of it was written, and otherwise a proper prefix: `Arrived`. No
byte arrives twice, because an offer that was interrupted had taken nothing and one that took a part
is followed by an offer of the rest.

The same holds with a translating sink in between, for the translation of the buffer. Here writes
are nested: each piece of the buffer is written as a whole, in offers of its own, and only then is
the buffer itself called written. The answer to the outer offer is therefore all or nothing, and is
never an interruption, so a piece that has arrived is not offered again.

* `Arrived` — what a whole write leaves behind.
* `Transmits` — a sink is such that every whole write arrives, under a translation of buffers, and a
  flush does not change what has arrived.
* `transmits_recorded`, `transmits_translating` — any sink under observation, alone and behind a
  translating one.
* `Transmits.emit_ok`, `Transmits.emit_error` — what that means for a message.
-/

namespace LC3

open ByteSink

/-- What has arrived of a buffer when a whole write of it gives an answer: all of it, or a proper
prefix. -/
def Arrived (bytes before after : List Byte) : Except IoError Unit → Prop
  | .ok () => after = before ++ bytes
  | .error _ => ∃ sent, sent <+: bytes ∧ sent.length < bytes.length ∧ after = before ++ sent

theorem Arrived.error_append {first rest before after : List Byte} {e : IoError}
    (h : Arrived rest (before ++ first) after (.error e)) :
    Arrived (first ++ rest) before after (.error e) := by
  obtain ⟨sent, hsent, hlt, hafter⟩ := h
  refine ⟨first ++ sent, (List.prefix_append_right_inj first).2 hsent, ?_, ?_⟩
  · rw [List.length_append, List.length_append]
    exact Nat.add_lt_add_left hlt _
  · rw [hafter, List.append_assoc]

/-- A buffer may be written in two parts. -/
theorem Arrived.append {first rest before after : List Byte} {answer : Except IoError Unit}
    (h : Arrived rest (before ++ first) after answer) :
    Arrived (first ++ rest) before after answer := by
  cases answer with
  | ok _ => exact h.trans (List.append_assoc _ _ _)
  | error _ => exact h.error_append

/-- A buffer that failed in its first part has failed as a whole. -/
theorem Arrived.error_left {first before after : List Byte} {e : IoError}
    (h : Arrived first before after (.error e)) (rest : List Byte) :
    Arrived (first ++ rest) before after (.error e) := by
  obtain ⟨sent, hsent, hlt, hafter⟩ := h
  refine ⟨sent, hsent.trans (List.prefix_append first rest), ?_, hafter⟩
  rw [List.length_append]
  exact Nat.lt_of_lt_of_le hlt (Nat.le_add_right _ _)

theorem ByteSink.ofAnswer_length {bytes : List Byte} (hb : bytes ≠ []) :
    Next.ofAnswer bytes (.ok bytes.length) = .goOn [] := by
  obtain ⟨n, hn⟩ := Nat.exists_eq_succ_of_ne_zero
    (Nat.pos_iff_ne_zero.1 (List.length_pos_iff.2 hb))
  rw [← List.drop_length (l := bytes), hn]
  rfl

/-! ### A sink under observation -/

namespace Recorded

variable {σ : Type} [ByteSink σ]

/-- The part that an offer takes and the rest that is still to be written are the buffer. -/
private theorem partTaken_append {bytes rest : List Byte} {answer : Except IoError Nat}
    (h : Next.ofAnswer bytes answer = .goOn rest) : partTaken bytes answer ++ rest = bytes := by
  match answer, h with
  | .ok (n + 1), h =>
    -- a part was taken, and the rest is what was not
    obtain rfl : bytes.drop (n + 1) = rest := by injection h
    exact List.take_append_drop _ _
  | .error e, h =>
    -- only an interruption is followed by another offer, of the same bytes
    by_cases he : e.isInterrupted
    · rw [Next.ofAnswer, if_pos he] at h
      obtain rfl : bytes = rest := by injection h
      rfl
    · rw [Next.ofAnswer, if_neg he] at h
      cases h

/-- An offer that fails takes nothing. -/
private theorem partTaken_of_fail {bytes : List Byte} {answer : Except IoError Nat} {e : IoError}
    (h : Next.ofAnswer bytes answer = .fail e) : partTaken bytes answer = [] := by
  match answer, h with
  | .ok 0, _ => rfl
  | .error _, _ => rfl

/-- **A whole write arrives**, whatever the sink does. -/
theorem arrived_writeAll (bytes : List Byte) (r : Recorded σ) :
    Arrived bytes r.output (writeAll bytes r).2.output (writeAll bytes r).1 := by
  refine writeAll_induction
    (motive := fun bytes (r : Recorded σ) w => Arrived bytes r.output w.2.output w.1)
    (fun r => (List.append_nil _).symm) (fun bytes r e hb h => ?_)
    (fun bytes r rest w hb h ih => ?_) bytes r
  · -- the offer took nothing, and there was something to take
    refine ⟨[], List.nil_prefix, List.length_pos_iff.2 hb, ?_⟩
    rw [output_write, partTaken_of_fail h]
  · rw [output_write] at ih
    have happ := ih.append
    rwa [partTaken_append h] at happ

/-- Several buffers arrive as one. -/
theorem arrived_writeEach (buffers : List (List Byte)) (r : Recorded σ) :
    Arrived buffers.flatten r.output (writeEach buffers r).2.output (writeEach buffers r).1 := by
  induction buffers generalizing r with
  | nil => exact (List.append_nil _).symm
  | cons bytes buffers ih =>
    have hfirst := arrived_writeAll bytes r
    rw [List.flatten_cons, writeEach]
    split <;> rename_i r' heq <;> rw [heq] at hfirst
    · -- the first buffer is there as a whole, so the others follow it
      refine Arrived.append ?_
      rw [← show r'.output = r.output ++ bytes from hfirst]
      exact ih r'
    · exact hfirst.error_left _

end Recorded

/-! ### Any sink -/

variable {τ : Type} [ByteSink τ]

/-- In the states that satisfy `I`, whole writes arrive, translated by `T`; `received` is what has
arrived. -/
structure Transmits (I : τ → Prop) (T : List Byte → List Byte) (received : τ → List Byte) :
    Prop where
  /-- A translation does not see where a buffer is cut. -/
  append : ∀ first rest, T (first ++ rest) = T first ++ T rest
  writeAll : ∀ bytes s, I s → Arrived (T bytes) (received s)
    (received (ByteSink.writeAll bytes s).2) (ByteSink.writeAll bytes s).1
  flush : ∀ s, I s → received (ByteSink.flush s).2 = received s
  writeAll_keeps : ∀ bytes s, I s → I (ByteSink.writeAll bytes s).2
  flush_keeps : ∀ s, I s → I (ByteSink.flush s).2

namespace Transmits

variable {I : τ → Prop} {T : List Byte → List Byte} {received : τ → List Byte}
  (law : Transmits I T received)

include law

/-- What was translated stays in front when something follows. -/
theorem isPrefix {first whole : List Byte} (h : first <+: whole) : T first <+: T whole := by
  obtain ⟨rest, rfl⟩ := h
  exact ⟨T rest, (law.append first rest).symm⟩

theorem emit_keeps (message : List Byte) {s : τ} (hs : I s) : I (emit message s).2 := by
  have hkeep := law.writeAll_keeps message s hs
  unfold emit
  split <;> rename_i s' heq <;> rw [heq] at hkeep
  · exact law.flush_keeps s' hkeep
  · exact hkeep

/-- A message that was made visible has arrived. -/
theorem emit_ok {message : List Byte} {s : τ} (hs : I s) (h : (emit message s).1 = .ok ()) :
    received (emit message s).2 = received s ++ T message := by
  have harr := law.writeAll message s hs
  have hkeep := law.writeAll_keeps message s hs
  revert h
  unfold emit
  split <;> rename_i s' heq <;> rw [heq] at harr hkeep
  · intro _
    exact (law.flush s' hkeep).trans harr
  · intro h
    cases h

/-- Of a message that was not made visible a prefix has arrived. -/
theorem emit_error {message : List Byte} {s : τ} {e : IoError} (hs : I s)
    (h : (emit message s).1 = .error e) :
    ∃ sent, sent <+: T message ∧ received (emit message s).2 = received s ++ sent := by
  have harr := law.writeAll message s hs
  have hkeep := law.writeAll_keeps message s hs
  revert h
  unfold emit
  split <;> rename_i s' heq <;> rw [heq] at harr hkeep
  · -- all of it has arrived, but the flush has failed
    intro _
    exact ⟨T message, List.prefix_refl _, (law.flush s' hkeep).trans harr⟩
  · intro _
    obtain ⟨sent, hsent, -, hafter⟩ := harr
    exact ⟨sent, hsent, hafter⟩

end Transmits

variable {σ : Type} [ByteSink σ]

/-- A sink under observation receives what is written to it. -/
theorem transmits_recorded : Transmits (fun _ => True) id (Recorded.output (σ := σ)) where
  append _ _ := rfl
  writeAll bytes r _ := Recorded.arrived_writeAll bytes r
  flush r _ := Recorded.output_flush r
  writeAll_keeps _ _ _ := trivial
  flush_keeps _ _ := trivial

namespace Translating

/-- With translation the first offer of a buffer is the last one. -/
theorem writeAll_of_enabled (bytes : List Byte) {s : Translating σ} (h : s.enabled = true) :
    ByteSink.writeAll bytes s =
      ((writeEach (Newline.pieces bytes) s.inner).1,
        { s with inner := (writeEach (Newline.pieces bytes) s.inner).2 }) := by
  by_cases hb : bytes = []
  · -- the only piece of an empty buffer is empty, so the sink behind is not asked either
    subst hb
    rw [writeAll_nil, Newline.pieces_nil, writeEach, writeAll_nil]
    rfl
  · have hwrite : ByteSink.write bytes s = _ := write_of_enabled bytes h
    rw [writeAll_of_ne_nil hb, hwrite]
    cases hw : (writeEach (Newline.pieces bytes) s.inner).1 with
    | ok _ =>
      simp only [Except.map, ofAnswer_length hb, writeAll_nil]
    | error e =>
      -- the pieces were retried further in, so this failure is no interruption and is final
      have hne := writeEach_ne_interrupted _ _ _ hw
      have hfail : Next.ofAnswer bytes (.error e) = .fail e := by
        rw [Next.ofAnswer, hne]
        rfl
      simp only [Except.map, hfail]

/-- Without translation a buffer is written as if the sink behind were alone. -/
theorem writeAll_of_disabled (bytes : List Byte) (s : Translating σ)
    (h : s.enabled = false) :
    ByteSink.writeAll bytes s =
      ((ByteSink.writeAll bytes s.inner).1,
        { s with inner := (ByteSink.writeAll bytes s.inner).2 }) := by
  -- both sinks answer every offer alike, so the loops go on with the same rest
  refine writeAll_induction
    (motive := fun bytes (inner : σ) w =>
      ByteSink.writeAll bytes (⟨inner, s.enabled⟩ : Translating σ) = (w.1, ⟨w.2, s.enabled⟩))
    (fun inner => writeAll_nil _) (fun bytes inner e hb ha => ?_)
    (fun bytes inner rest w hb ha ih => ?_) bytes s.inner
  · have hwrite : ByteSink.write bytes (⟨inner, s.enabled⟩ : Translating σ) = _ :=
      write_of_disabled bytes h
    rw [writeAll_of_ne_nil hb, hwrite]
    simp only [ha]
  · have hwrite : ByteSink.write bytes (⟨inner, s.enabled⟩ : Translating σ) = _ :=
      write_of_disabled bytes h
    rw [writeAll_of_ne_nil hb, hwrite]
    simp only [ha]
    exact ih

/-- How a translating sink changes a buffer. -/
def translation (raw : Bool) : List Byte → List Byte :=
  if raw then Newline.translate else id

end Translating

/-- Behind a translating sink arrives the translation. -/
theorem transmits_translating (raw : Bool) :
    Transmits (fun d : Translating (Recorded σ) => d.enabled = raw)
      (Translating.translation raw) (fun d => d.inner.output) where
  append first rest := by
    cases raw with
    | true => exact Newline.translate_append first rest
    | false => rfl
  writeAll bytes d hd := by
    cases raw with
    | false =>
      rw [Translating.writeAll_of_disabled bytes d hd]
      exact Recorded.arrived_writeAll bytes d.inner
    | true =>
      -- the pieces of a buffer together are its translation
      rw [Translating.writeAll_of_enabled bytes hd]
      have harr := Recorded.arrived_writeEach (Newline.pieces bytes) d.inner
      rwa [Newline.flatten_pieces] at harr
  flush d _ := Recorded.output_flush d.inner
  writeAll_keeps bytes d hd := by
    cases raw with
    | false =>
      rw [Translating.writeAll_of_disabled bytes d hd]
      exact hd
    | true =>
      rw [Translating.writeAll_of_enabled bytes hd]
      exact hd
  flush_keeps _ hd := hd

end LC3
