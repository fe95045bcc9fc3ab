import LC3.Keyboard.Stream
import LC3.Keyboard.Terminal
import LC3.Proofs.Halting
import LC3.Proofs.Keyboard.Arrival
import LC3.Proofs.Keyboard.Interruption

/-!
# What a keyboard is made over

A keyboard is made without a source, over an input stream, or over a terminal. What its source does
is settled by what the reads of the stream or of the terminal return (`Source.actions`); when it
does so is a matter of chance. During calls the source does some of its actions before each part of
a cycle, in order and as many as have happened so far (`SourceAction.Spread`).

Two facts about these actions are all that later statements need of them:

* only a terminal ever sets the flag that says whether the user asked to stop
  (`Source.interrupt_notMem`), so with the other two the flag stays as it is (`Spread.calm`);
* a stream sends bytes and a terminal sends ASCII characters (`Source.toNat_lt_of_send_mem`).

A stream that comes to its end has sent the bytes of its chunks, however it was cut into chunks, and
has closed the queue (`Stream.keyboard_drain`).
-/

namespace LC3

/-! ### Sources -/

/-- What a keyboard is made over. -/
inductive Source
  /-- Nothing, so that no character ever comes. -/
  | nothing
  /-- An input stream, given what its reads return. -/
  | stream (script : List Stream.Chunk)
  /-- A terminal, given what its reads return. -/
  | terminal (script : List (Except String Terminal.Report))

namespace Source

/-- The keyboard before its source has done anything. -/
def keyboard : Source → Keyboard
  | nothing => .disconnected
  | stream _ | terminal _ => .channel [] true

/-- What the source does, in order. -/
def actions : Source → List SourceAction
  | nothing => []
  | stream script => (Stream.drain true script).actions
  | terminal script => (Terminal.listen true script).actions

/-- No character that the source sends reaches this number. -/
def limit : Source → ℕ
  | nothing => 0
  | stream _ => 256
  | terminal _ => 128

theorem interrupted_keyboard (source : Source) : source.keyboard.interrupted = false := by
  cases source <;> rfl

theorem available_keyboard (source : Source) : source.keyboard.available = [] := by
  cases source <;> rfl

end Source

/-! ### Streams -/

namespace Stream

theorem mem_sends {a : SourceAction} {bytes : List Byte} (h : a ∈ sends bytes) :
    ∃ b, a = .send (.ofByte b) := by
  obtain ⟨b, -, rfl⟩ := List.mem_map.1 h
  exact ⟨b, rfl⟩

/-- A stream does no more than to send bytes, and to close the queue. -/
theorem mem_actions_drain {a : SourceAction} {script : List Chunk}
    (h : a ∈ (drain true script).actions) : a = .close ∨ ∃ b, a = .send (.ofByte b) := by
  induction script with
  | nil => cases h
  | cons chunk script ih =>
    match chunk with
    | .ok [] => exact .inl (List.mem_singleton.1 h)
    | .ok (b :: bytes) =>
      obtain hnow | hlater := List.mem_append.1 h
      · exact .inr (mem_sends hnow)
      · exact ih hlater
    | .error e =>
      unfold drain at h
      split at h
      · exact ih h
      · exact .inl (List.mem_singleton.1 h)

/-- The bytes that come before the end of a stream: those of its chunks up to an empty one or an
error, except that a read which was only interrupted does not count. -/
def bytes : List Chunk → List Byte
  | [] => []
  | .ok [] :: _ => []
  | .ok (b :: chunk) :: script => (b :: chunk) ++ bytes script
  | .error e :: script => if e.isInterrupted then bytes script else []

/-- A stream that comes to its end sends its bytes, and then closes the queue. -/
theorem actions_drain (script : List Chunk) :
    (drain true (script ++ [.ok []])).actions = sends (bytes script) ++ [.close] := by
  induction script with
  | nil => rfl
  | cons chunk script ih =>
    match chunk with
    | .ok [] => rfl
    | .ok (b :: chunk) =>
      have hsends : sends (bytes (.ok (b :: chunk) :: script)) =
          sends (b :: chunk) ++ sends (bytes script) := List.map_append
      rw [hsends, List.append_assoc, ← ih]
      rfl
    | .error e =>
      rw [List.cons_append]
      unfold drain bytes
      split
      · exact ih
      · rfl

/-- A stream that comes to its end has sent its bytes, each as a character. -/
theorem accepted_drain (script : List Chunk) :
    SourceAction.accepted (drain true (script ++ [.ok []])).actions =
      (bytes script).map Word.ofByte := by
  have hsends : sends (bytes script) = ((bytes script).map Word.ofByte).map .send :=
    List.map_map.symm
  rw [actions_drain, hsends, SourceAction.accepted_sends]
  exact List.append_nil _

theorem interrupt_notMem_drain (script : List Chunk) :
    .interrupt ∉ (drain true script).actions := by
  intro h
  obtain h | ⟨b, h⟩ := mem_actions_drain h <;> cases h

/-- **How a stream is cut into chunks does not matter**: when it has come to its end its bytes are
there, and nothing can come any more. -/
theorem keyboard_drain (script : List Chunk) :
    (drain true (script ++ [.ok []])).keyboard =
      .channel ((bytes script).map Word.ofByte) false := by
  have hclose : (drain true (script ++ [.ok []])).actions.contains .close = true := by
    rw [actions_drain]
    simp
  have hflag : (drain true (script ++ [.ok []])).actions.contains .interrupt = false := by
    rw [List.contains_eq_mem, decide_eq_false_iff_not]
    exact interrupt_notMem_drain _
  change Keyboard.mk none ([] ++ SourceAction.accepted _) (true && !_) (false || _) = _
  rw [accepted_drain, hclose, hflag]
  rfl

end Stream

/-! ### Terminals -/

namespace Terminal

theorem Key.toNat_lt_of_character? {key : Key} {c : Word} (h : key.character? = some c) :
    c.toNat < 128 := by
  cases key with
  | char char =>
    -- a key with a character sends it if it is one of ASCII
    obtain ⟨hlt, hsome⟩ := Option.ite_none_right_eq_some.1 h
    cases hsome
    rw [BitVec.toNat_ofNat]
    exact Nat.lt_of_le_of_lt (Nat.mod_le _ _) hlt
  | enter | backspace | tab | escape =>
    cases h
    decide
  | _ => cases h

theorem Report.toNat_lt_of_response {report : Report} {c : Word}
    (h : report.response = .send c) : c.toNat < 128 := by
  unfold response at h
  split at h
  case h_1 e =>
    split at h
    · cases h
    · split at h
      · cases h
      · cases hc : e.key.character? with
        | none =>
          rw [hc] at h
          cases h
        | some c' =>
          rw [hc] at h
          cases h
          exact Key.toNat_lt_of_character? hc
  case h_2 => cases h

/-- What is typed on a terminal is ASCII. -/
theorem toNat_lt_of_mem_typed {c : Word} {script : List (Except String Report)}
    (h : c ∈ typed script) : c.toNat < 128 := by
  induction script with
  | nil => cases h
  | cons read script ih =>
    cases read with
    | error reason => cases h
    | ok report =>
      unfold typed at h
      cases hr : report.response with
      | ignore =>
        rw [hr] at h
        exact ih h
      | interrupt =>
        rw [hr] at h
        cases h
      | send c' =>
        rw [hr] at h
        obtain rfl | h := List.mem_cons.1 h
        · exact report.toNat_lt_of_response hr
        · exact ih h

end Terminal

/-! ### What a source can do -/

namespace Source

variable {source : Source}

/-- **No character reaches the limit of its source.** -/
theorem toNat_lt_of_send_mem {c : Word} (h : .send c ∈ source.actions) :
    c.toNat < source.limit := by
  cases source with
  | nothing => cases h
  | stream script =>
    obtain h | ⟨b, h⟩ := Stream.mem_actions_drain h
    · cases h
    · cases h
      rw [Word.toNat_ofByte]
      exact b.isLt
  | terminal script =>
    change .send c ∈ (Terminal.listen true script).actions at h
    rw [Terminal.actions_listen] at h
    obtain h | h := List.mem_append.1 h
    · obtain ⟨c', hc, heq⟩ := List.mem_map.1 h
      cases heq
      exact Terminal.toNat_lt_of_mem_typed hc
    · -- at its end a terminal sends nothing
      cases he : Terminal.ending? script with
      | none =>
        rw [he] at h
        cases h
      | some e =>
        rw [he] at h
        cases e <;> simp [Terminal.End.signal] at h

/-- **Without a terminal nobody asks to stop.** -/
theorem interrupt_notMem (h : ∀ script, source ≠ .terminal script) :
    .interrupt ∉ source.actions := by
  cases source with
  | nothing => exact List.not_mem_nil
  | stream script => exact Stream.interrupt_notMem_drain script
  | terminal script => exact absurd rfl (h script)

end Source

/-! ### A source during calls -/

/-- No change of the keyboard touches the flag that says whether the user asked to stop. -/
def Changes.Calm (fs : Changes) : Prop :=
  ∀ f ∈ fs, ∀ k : Keyboard, (f k).interrupted = k.interrupted

/-- The changes are those of a source that has come so far with its actions, some of them before
each part of a cycle. -/
def SourceAction.Spread (feed : List SourceAction) (fs : Changes) : Prop :=
  ∃ batches : List (List SourceAction), fs = batches.map performAll ∧ batches.flatten <+: feed

/-- A source that never sets the flag leaves it alone. -/
theorem SourceAction.Spread.calm {feed : List SourceAction} {fs : Changes} (h : Spread feed fs)
    (hfeed : .interrupt ∉ feed) : fs.Calm := by
  obtain ⟨batches, rfl, hsource⟩ := h
  intro f hf k
  obtain ⟨batch, hbatch, rfl⟩ := List.mem_map.1 hf
  refine interrupted_performAll ?_ k
  intro hmem
  exact hfeed (hsource.subset (List.mem_flatten.2 ⟨batch, hbatch, hmem⟩))

end LC3
