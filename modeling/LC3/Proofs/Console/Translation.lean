import LC3.Proofs.Console.Delivery

/-!
# Translation happens once

A program that writes to a translating console makes three kinds of requests: it offers a buffer, it
asks for a whole buffer to be written, or it asks for a flush (`SinkRequest`). How its output is cut
into buffers, which of the two ways to write it chooses, and how often it flushes does not matter:
the sink behind the console receives the translation of all the bytes, each of them once, for as long
as no buffer fails. When one does, the sink has the translation of the earlier buffers and a proper
prefix of that of the one that failed.

The reason is that the two nested loops do not disturb each other. The inner one repeats offers
inside a piece, which is safe, and its failures are final. The outer one therefore never sees an
interruption or a part of a buffer, and makes a single offer (`writeAll_eq_write`).

Without translation an offer may take a part of its buffer, and then it is up to the program what
becomes of the rest. The same statement holds, but for requests to write whole buffers only.

* `output_perform` — what one request adds.
* `output_performAll` — what several requests add, by induction.
* `translates_once` — the statement as a whole.
-/

namespace LC3

open ByteSink

/-! ### Requests -/

/-- What a program may ask of a sink. -/
inductive SinkRequest
  /-- To take bytes, as many as it likes. -/
  | write (bytes : List Byte)
  /-- To take a whole buffer. -/
  | writeAll (bytes : List Byte)
  /-- To make visible what it took. -/
  | flush

namespace SinkRequest

/-- The bytes that come with a request. -/
def buffer : SinkRequest → List Byte
  | write bytes => bytes
  | writeAll bytes => bytes
  | flush => []

/-- All the bytes that come with several requests, however they are cut. -/
def data (xs : List SinkRequest) : List Byte := xs.flatMap buffer

/-- A console in raw mode, or not, takes the buffer of the request as a whole if at all. -/
def IsWhole (raw : Bool) : SinkRequest → Prop
  | write _ => raw = true
  | writeAll _ => True
  | flush => True

variable {τ : Type} [ByteSink τ]

/-- Makes a request; the answer is whether it was met. -/
def perform : SinkRequest → τ → Except IoError Unit × τ
  | write bytes, s => ((ByteSink.write bytes s).1.map fun _ => (), (ByteSink.write bytes s).2)
  | writeAll bytes, s => ByteSink.writeAll bytes s
  | flush, s => ByteSink.flush s

/-- The sink after several requests. -/
def performAll (xs : List SinkRequest) (s : τ) : τ := xs.foldl (fun s x => (x.perform s).2) s

/-- None of the buffers fails; a flush may. -/
def Written : List SinkRequest → τ → Prop
  | [], _ => True
  | x :: xs, s => (x = flush ∨ (x.perform s).1 = .ok ()) ∧ Written xs (x.perform s).2

end SinkRequest

/-! ### One offer of a buffer -/

namespace Translating

variable {σ : Type} [ByteSink σ]

/-- A new console, with the sink behind it under observation. -/
def observed (inner : σ) (raw : Bool) : Translating (Recorded σ) := ⟨.start inner, raw⟩

/-- The answer to an offer is that all was taken, or a failure that is final. -/
theorem write_answer (bytes : List Byte) {d : Translating σ} (h : d.enabled = true) :
    (ByteSink.write bytes d).1 = .ok bytes.length ∨
      ∃ e, (ByteSink.write bytes d).1 = .error e ∧ e.isInterrupted = false := by
  cases hw : (ByteSink.write bytes d).1 with
  | error e => exact .inr ⟨e, rfl, write_ne_interrupted bytes h e hw⟩
  | ok n =>
    left
    have hwrite : ByteSink.write bytes d = _ := write_of_enabled bytes h
    rw [hwrite] at hw
    cases heach : (writeEach (Newline.pieces bytes) d.inner).1 with
    | ok _ =>
      rw [heach] at hw
      exact hw.symm
    | error e =>
      rw [heach] at hw
      cases hw

/-- **A buffer is offered once**: to write it as a whole is to offer it. -/
theorem writeAll_eq_write (bytes : List Byte) {d : Translating σ} (h : d.enabled = true) :
    ByteSink.writeAll bytes d =
      ((ByteSink.write bytes d).1.map fun _ => (), (ByteSink.write bytes d).2) := by
  have hwrite : ByteSink.write bytes d = _ := write_of_enabled bytes h
  rw [writeAll_of_enabled bytes h, hwrite]
  cases (writeEach (Newline.pieces bytes) d.inner).1 with
  | ok _ => rfl
  | error e => rfl

theorem translation_append (raw : Bool) (first rest : List Byte) :
    translation raw (first ++ rest) = translation raw first ++ translation raw rest :=
  (transmits_translating (σ := OpenSink) raw).append first rest

theorem translation_nil (raw : Bool) : translation raw [] = [] := by
  cases raw with
  | true => rfl
  | false => rfl

end Translating

/-! ### Requests to a translating console -/

namespace SinkRequest

open Translating

variable {σ : Type} [ByteSink σ] {raw : Bool} {d : Translating (Recorded σ)}

/-- A buffer that is taken as a whole, if at all, arrives. -/
theorem arrived_perform (hd : d.enabled = raw) {x : SinkRequest} (hx : x.IsWhole raw)
    (hflush : x ≠ flush) : Arrived (translation raw x.buffer) d.inner.output
      (x.perform d).2.inner.output (x.perform d).1 := by
  cases x with
  | flush => exact absurd rfl hflush
  | writeAll bytes => exact (transmits_translating raw).writeAll bytes d hd
  | write bytes =>
    obtain rfl : raw = true := hx
    have harr := (transmits_translating true).writeAll bytes d hd
    rwa [writeAll_eq_write bytes hd] at harr

theorem enabled_perform (x : SinkRequest) (d : Translating (Recorded σ)) :
    (x.perform d).2.enabled = d.enabled := by
  cases x with
  | flush => rfl
  | writeAll bytes => exact (transmits_translating d.enabled).writeAll_keeps bytes d rfl
  | write bytes =>
    cases hd : d.enabled with
    | true =>
      have hwrite : ByteSink.write bytes d = _ := write_of_enabled bytes hd
      exact (congrArg (fun w => w.2.enabled) hwrite).trans hd
    | false =>
      have hwrite : ByteSink.write bytes d = _ := write_of_disabled bytes hd
      exact (congrArg (fun w => w.2.enabled) hwrite).trans hd

/-- **What a request adds** that does not fail. -/
theorem output_perform (hd : d.enabled = raw) {x : SinkRequest} (hx : x.IsWhole raw)
    (hok : x = flush ∨ (x.perform d).1 = .ok ()) :
    (x.perform d).2.inner.output = d.inner.output ++ translation raw x.buffer := by
  by_cases hflush : x = flush
  · subst hflush
    have houtput : (ByteSink.flush d).2.inner.output = d.inner.output :=
      (transmits_translating raw).flush d hd
    calc ((flush.perform d).2.inner.output : List Byte)
        = d.inner.output := houtput
      _ = d.inner.output ++ translation raw [] := by rw [translation_nil, List.append_nil]
  · have harr := arrived_perform hd hx hflush
    rw [hok.resolve_left hflush] at harr
    exact harr

/-- **What several requests add**: the translation of their bytes, as if these came at once. -/
theorem output_performAll (hd : d.enabled = raw) {xs : List SinkRequest}
    (hx : ∀ x ∈ xs, x.IsWhole raw) (hw : Written xs d) :
    (performAll xs d).inner.output = d.inner.output ++ translation raw (data xs) ∧
      (performAll xs d).enabled = raw := by
  induction xs generalizing d with
  | nil => exact ⟨by rw [data, List.flatMap_nil, translation_nil, List.append_nil]; rfl, hd⟩
  | cons x xs ih =>
    have hfirst := output_perform hd (hx x List.mem_cons_self) hw.1
    have henabled : (x.perform d).2.enabled = raw := (x.enabled_perform d).trans hd
    obtain ⟨hrest, hraw⟩ := ih henabled (fun y hy => hx y (List.mem_cons_of_mem x hy)) hw.2
    refine ⟨?_, hraw⟩
    calc (performAll (x :: xs) d).inner.output
        = (x.perform d).2.inner.output ++ translation raw (data xs) := hrest
      _ = d.inner.output ++ (translation raw x.buffer ++ translation raw (data xs)) := by
          rw [hfirst, List.append_assoc]
      _ = d.inner.output ++ translation raw (data (x :: xs)) := by
          rw [← translation_append]; rfl

end SinkRequest

/-! ### The statement -/

open SinkRequest Translating in
/-- What a sink behind a new translating console receives. -/
structure TranslatesOnce {σ : Type} [ByteSink σ] (inner : σ) (raw : Bool) : Prop where
  /-- Without a failed buffer, the translation of all the bytes. -/
  delivered : ∀ xs : List SinkRequest, (∀ x ∈ xs, x.IsWhole raw) → Written xs (observed inner raw) →
    (performAll xs (observed inner raw)).inner.output = translation raw (data xs)
  /-- So the same bytes, cut in another way and sent to another sink, arrive as the same. -/
  cuts_irrelevant : ∀ {ρ : Type} [ByteSink ρ] (other : ρ) (xs ys : List SinkRequest),
    (∀ x ∈ xs, x.IsWhole raw) → (∀ y ∈ ys, y.IsWhole raw) →
    Written xs (observed inner raw) → Written ys (observed other raw) → data xs = data ys →
      (performAll xs (observed inner raw)).inner.output =
        (performAll ys (observed other raw)).inner.output
  /-- At the first buffer that fails, the translation of the earlier ones and a proper prefix of
  its own. -/
  cut_short : ∀ (xs : List SinkRequest) (x : SinkRequest) e,
    (∀ y ∈ xs, y.IsWhole raw) → x.IsWhole raw → x ≠ .flush →
    Written xs (observed inner raw) →
    (x.perform (performAll xs (observed inner raw))).1 = .error e →
      ∃ sent, sent <+: translation raw x.buffer ∧
        sent.length < (translation raw x.buffer).length ∧
        (x.perform (performAll xs (observed inner raw))).2.inner.output =
          translation raw (data xs) ++ sent
  /-- With translation an offer is answered by the number of bytes offered or by a failure, which is
  not an interruption, and to write a whole buffer is to offer it once. -/
  offered_once : raw = true → ∀ bytes (d : Translating σ), d.enabled = raw →
    ((ByteSink.write bytes d).1 = .ok bytes.length ∨
      ∃ e, (ByteSink.write bytes d).1 = .error e ∧ e.isInterrupted = false) ∧
    ByteSink.writeAll bytes d =
      ((ByteSink.write bytes d).1.map fun _ => (), (ByteSink.write bytes d).2)

/-- **Translation happens once**, whatever the sink behind the console does. -/
theorem translates_once {σ : Type} [ByteSink σ] (inner : σ) (raw : Bool) :
    TranslatesOnce inner raw where
  delivered xs hx hw := (SinkRequest.output_performAll rfl hx hw).1
  cuts_irrelevant {_} _ other xs ys hx hy hwx hwy hdata := by
    have hxs := (SinkRequest.output_performAll rfl hx hwx).1
    have hys := (SinkRequest.output_performAll rfl hy hwy).1
    rw [hxs, hys, hdata]
    rfl
  cut_short xs x e hxs hx hflush hw he := by
    obtain ⟨houtput, hraw⟩ := SinkRequest.output_performAll rfl hxs hw
    have harr := SinkRequest.arrived_perform hraw hx hflush
    rw [he] at harr
    obtain ⟨sent, hsent, hproper, hafter⟩ := harr
    refine ⟨sent, hsent, hproper, ?_⟩
    rw [hafter, houtput]
    rfl
  offered_once hraw bytes d hd :=
    ⟨Translating.write_answer bytes (hd.trans hraw),
      Translating.writeAll_eq_write bytes (hd.trans hraw)⟩

end LC3
