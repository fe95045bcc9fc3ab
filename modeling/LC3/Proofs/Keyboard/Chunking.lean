import LC3.Proofs.Keyboard.Source

/-!
# Redirected input does not depend on its chunks

A stream is read chunk by chunk, and how many bytes a read returns is up to whoever is at the other
end of it; some reads return nothing but that they were interrupted. None of this reaches the
program. The bytes that it gets are those of the chunks before the end, put together
(`deliveredBytes`), where the end is an empty chunk, an error other than an interruption, or the end
of the script, for behind it a read finds nothing any more. Two streams that deliver the same bytes
make their sources do the same (`Chunking.same`), and so a program has the same possible histories
with either of them.

A reader that buffers its input may serve a chunk in several pieces, if it is larger than the
buffer. `Recut` says that a script has come from another in this way; it delivers the same bytes and
ends in the same way.

* `bytes_eq` — the bytes that a source sends are those that are delivered.
* `warning_drain` — a source warns about the error that ends it, and about nothing else.
* `chunking_irrelevant` — the statement as a whole.
-/

namespace LC3.Stream

/-! ### What a stream delivers -/

/-- The chunk is the end of the stream: nothing, or an error other than an interruption. -/
def endsStream : Chunk → Bool
  | .ok bytes => bytes.isEmpty
  | .error e => e.kind ≠ .interrupted

/-- The source on a script behind which a read finds nothing any more. -/
def drainAll (script : List Chunk) : Feed := drain true (script ++ [.ok []])

/-- The bytes of a chunk; an error has none. -/
def dataOf : Chunk → List Byte
  | .ok bytes => bytes
  | .error _ => []

/-- The bytes of the chunks before the end. -/
def deliveredBytes (script : List Chunk) : List Byte :=
  (script.takeWhile fun c => !endsStream c).flatMap dataOf

variable {c : Chunk} {script served : List Chunk}

theorem endsStream_error (e : IoError) : endsStream (.error e) = !e.isInterrupted := decide_not

theorem deliveredBytes_of_end (hc : endsStream c = true) (script : List Chunk) :
    deliveredBytes (c :: script) = [] := by
  unfold deliveredBytes
  rw [List.takeWhile_cons_of_neg (by rw [hc]; decide)]
  rfl

theorem deliveredBytes_cons (hc : endsStream c = false) (script : List Chunk) :
    deliveredBytes (c :: script) = dataOf c ++ deliveredBytes script := by
  unfold deliveredBytes
  rw [List.takeWhile_cons_of_pos (by rw [hc]; rfl), List.flatMap_cons]

/-- **The bytes that a source sends** before it closes the queue. -/
theorem bytes_eq (script : List Chunk) : bytes script = deliveredBytes script := by
  induction script with
  | nil => rfl
  | cons c script ih =>
    match c with
    | .ok [] => exact (deliveredBytes_of_end rfl script).symm
    | .ok (b :: chunk) =>
      rw [deliveredBytes_cons rfl, ← ih]
      rfl
    | .error e =>
      cases he : e.isInterrupted with
      | true =>
        have hgoesOn : endsStream (.error e) = false := by rw [endsStream_error, he]; rfl
        have hbytes : bytes (.error e :: script) = bytes script := if_pos he
        rw [deliveredBytes_cons hgoesOn, hbytes, ih]
        rfl
      | false =>
        have hends : endsStream (.error e) = true := by rw [endsStream_error, he]; rfl
        have hbytes : bytes (.error e :: script) = [] := if_neg (by rw [he]; decide)
        rw [deliveredBytes_of_end hends, hbytes]

/-- What a source has to warn about at its end. -/
def warningOf : Option Chunk → Option Event
  | some (.error e) => some (.streamStopped e.message)
  | _ => none

/-- **A source warns about the error that ends it.** -/
theorem warning_drain (script : List Chunk) :
    (drainAll script).warning = warningOf (script.find? endsStream) := by
  induction script with
  | nil => rfl
  | cons c script ih =>
    match c with
    | .ok [] => rfl
    | .ok (b :: chunk) => exact ih
    | .error e =>
      unfold drainAll
      rw [List.cons_append]
      unfold drain
      cases he : e.isInterrupted with
      | true =>
        have hgoesOn : endsStream (.error e) = false := by rw [endsStream_error, he]; rfl
        rw [if_pos rfl, List.find?_cons_of_neg (by rw [hgoesOn]; decide)]
        exact ih
      | false =>
        have hends : endsStream (.error e) = true := by rw [endsStream_error, he]; rfl
        rw [if_neg Bool.false_ne_true, List.find?_cons_of_pos hends]
        rfl

/-- What a source does is settled by the bytes that it delivers. -/
theorem actions_drainAll (script : List Chunk) :
    (drainAll script).actions = sends (deliveredBytes script) ++ [.close] := by
  rw [← bytes_eq]
  exact actions_drain script

theorem accepted_drainAll (script : List Chunk) :
    SourceAction.accepted (drainAll script).actions = (deliveredBytes script).map .ofByte := by
  rw [← bytes_eq]
  exact accepted_drain script

theorem keyboard_drainAll (script : List Chunk) :
    (drainAll script).keyboard = .channel ((deliveredBytes script).map .ofByte) false := by
  rw [← bytes_eq]
  exact keyboard_drain script

/-- Other bytes are other actions. -/
theorem sends_eq_iff {bytes bytes' : List Byte} : sends bytes = sends bytes' ↔ bytes = bytes' := by
  refine List.map_inj_right fun b b' h => ?_
  have hword : Word.ofByte b = Word.ofByte b' := SourceAction.send.inj h
  calc b = (Word.ofByte b).low := (Word.low_ofByte b).symm
    _ = (Word.ofByte b').low := by rw [hword]
    _ = b' := Word.low_ofByte b'

/-! ### Readers with a buffer -/

/-- A reader serves the chunks of a script, some of them in several pieces. -/
inductive Recut : List Chunk → List Chunk → Prop
  | nil : Recut [] []
  | whole {script served : List Chunk} (c : Chunk) (h : Recut script served) :
      Recut (c :: script) (c :: served)
  | piece {script served : List Chunk} {first rest : List Byte} (hfirst : first ≠ [])
      (hrest : rest ≠ []) (h : Recut (.ok rest :: script) served) :
      Recut (.ok (first ++ rest) :: script) (.ok first :: served)

/-- **It delivers the same bytes, up to the same end.** -/
theorem Recut.delivers (h : Recut script served) :
    deliveredBytes served = deliveredBytes script ∧
      served.find? endsStream = script.find? endsStream := by
  have hdata {data : List Byte} (hd : data ≠ []) : endsStream (.ok data) = false :=
    List.isEmpty_eq_false_iff.2 hd
  induction h with
  | nil => exact ⟨rfl, rfl⟩
  | whole c _ ih =>
    obtain ⟨hbytes, hend⟩ := ih
    cases hc : endsStream c with
    | true =>
      rw [deliveredBytes_of_end hc, deliveredBytes_of_end hc, List.find?_cons_of_pos hc,
        List.find?_cons_of_pos hc]
      exact ⟨rfl, rfl⟩
    | false =>
      have hneg : ¬ endsStream c = true := by rw [hc]; decide
      rw [deliveredBytes_cons hc, deliveredBytes_cons hc, hbytes, List.find?_cons_of_neg hneg,
        List.find?_cons_of_neg hneg, hend]
      exact ⟨rfl, rfl⟩
  | @piece script served first rest hfirst hrest _ ih =>
    -- the rest of the chunk is served as if it were a chunk of its own
    have hall : first ++ rest ≠ [] := List.append_ne_nil_of_left_ne_nil hfirst rest
    obtain ⟨hbytes, hend⟩ := ih
    have hneg {data : List Byte} (hd : data ≠ []) : ¬ endsStream (.ok data) = true := by
      rw [hdata hd]
      decide
    rw [deliveredBytes_cons (hdata hrest)] at hbytes
    rw [List.find?_cons_of_neg (hneg hrest)] at hend
    rw [deliveredBytes_cons (hdata hfirst), deliveredBytes_cons (hdata hall), hbytes,
      List.find?_cons_of_neg (hneg hfirst), List.find?_cons_of_neg (hneg hall), hend]
    exact ⟨(List.append_assoc first rest _).symm, rfl⟩

/-! ### The statement -/

/-- What a stream comes to, in terms of the bytes that it delivers. -/
structure Chunking (script : List Chunk) : Prop where
  /-- Each byte is a character of the same value. -/
  available : (drainAll script).keyboard.available.map BitVec.toNat =
    (deliveredBytes script).map BitVec.toNat
  /-- The characters are read in order, and then the input is closed. -/
  reads : (drainAll script).keyboard.reads ((deliveredBytes script).length + 1) =
    ((deliveredBytes script).map Word.ofByte).map .character ++ [.failed .inputClosed]
  closed : (drainAll script).keyboard.isOpen = false
  flag : (drainAll script).keyboard.interrupted = false
  /-- An error is warned about if it ended the stream. -/
  warning : ∀ level text,
    (drainAll script).warning.map (fun e => (e.level, e.text)) = some (level, text) ↔
      ∃ e, script.find? endsStream = some (.error e) ∧ level = .warn ∧
        text = "Stopped reading standard input: " ++ e.message
  /-- Beside a program that uses the keyboard meanwhile, each character has been handed out by the
  time the queue is closed, or is still there, and the flag is not set. -/
  history : ∀ {σ : Type} [ByteSink σ] (start : Cycle σ) (moves : List Move),
    start.machine.memory.keyboard = .channel [] true →
    Move.Interleaves (drainAll script).actions (fun x => x = .turn ∨ ∃ a, x = .access a) moves →
    (Move.performAll moves start).machine.memory.keyboard.isOpen = false →
      Move.deliveredAll moves start ++
          (Move.performAll moves start).machine.memory.keyboard.available =
        (deliveredBytes script).map .ofByte ∧
      (Move.performAll moves start).machine.memory.keyboard.interrupted = false
  /-- Of two streams the sources do the same if and only if they deliver the same bytes. -/
  same : ∀ other, (drainAll other).actions = (drainAll script).actions ↔
    deliveredBytes other = deliveredBytes script
  /-- Then whatever can happen with the one can happen with the other. -/
  histories : ∀ other, deliveredBytes other = deliveredBytes script →
    ∀ others moves, Move.Interleaves (drainAll other).actions others moves ↔
      Move.Interleaves (drainAll script).actions others moves
  /-- And every run on their keyboards is the same. -/
  runs : ∀ other, deliveredBytes other = deliveredBytes script →
    ∀ {σ : Type} [ByteSink σ] (m : Machine) (n : ℕ) (s : σ),
      (m.withMemory (m.memory.connect (drainAll other).keyboard)).runFor n s =
        (m.withMemory (m.memory.connect (drainAll script).keyboard)).runFor n s
  /-- A reader that serves chunks in pieces makes no difference, to the warning neither. -/
  buffered : ∀ served, Recut script served → (drainAll served).actions = (drainAll script).actions ∧
    (drainAll served).warning = (drainAll script).warning

/-- **Redirected input does not depend on its chunks**, for every sequence of reads. -/
theorem chunking_irrelevant (script : List Chunk) : Chunking script := by
  have hsame (other : List Chunk) : (drainAll other).actions = (drainAll script).actions ↔
      deliveredBytes other = deliveredBytes script := by
    rw [actions_drainAll, actions_drainAll, List.append_cancel_right_eq]
    exact sends_eq_iff
  constructor
  case available =>
    have hvalue (b : Byte) : (Word.ofByte b).toNat = b.toNat := Word.toNat_ofByte b
    rw [keyboard_drainAll, Keyboard.available_channel, List.map_map]
    exact List.map_congr_left fun b _ => hvalue b
  case reads =>
    have hreads := (drainAll script).keyboard.reads_available
    rw [keyboard_drainAll, Keyboard.available_channel, List.length_map] at hreads
    rw [keyboard_drainAll]
    exact hreads
  case closed =>
    rw [keyboard_drainAll]
    rfl
  case flag =>
    rw [keyboard_drainAll]
    rfl
  case warning =>
    intro level text
    rw [warning_drain]
    constructor
    · intro h
      match hfind : script.find? endsStream with
      | none | some (.ok _) =>
        rw [hfind] at h
        cases h
      | some (.error e) =>
        rw [hfind] at h
        cases h
        exact ⟨e, rfl, rfl, rfl⟩
    · rintro ⟨e, hfind, rfl, rfl⟩
      rw [hfind]
      rfl
  case history =>
    intro σ _ start moves hfresh hmoves hclosed
    have hclose : .close ∉ sends (deliveredBytes script) := by
      intro hmem
      obtain ⟨b, hb⟩ := mem_sends hmem
      cases hb
    rw [actions_drainAll] at hmoves
    have hfinished := hmoves.finished hclose hfresh hclosed
    rw [← actions_drainAll, accepted_drainAll] at hfinished
    refine hfinished.imp_right fun hflag => ?_
    rw [← Bool.not_eq_true, hflag]
    exact interrupt_notMem_drain _
  case same => exact hsame
  case histories =>
    intro other hbytes others moves
    rw [(hsame other).2 hbytes]
  case runs =>
    intro other hbytes σ _ m n s
    rw [keyboard_drainAll, keyboard_drainAll, hbytes]
  case buffered =>
    intro served hserved
    obtain ⟨hbytes, hend⟩ := hserved.delivers
    refine ⟨(hsame served).2 hbytes, ?_⟩
    rw [warning_drain, warning_drain, hend]

end LC3.Stream
