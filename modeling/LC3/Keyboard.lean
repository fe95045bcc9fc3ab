import LC3.Fault

/-!
# The keyboard

Characters reach the program through a queue. Its far end belongs to a **source** (a terminal, an
input stream, a host program) that sends characters, may close the queue, and may raise the
interrupted flag; its near end is used in two ways. The program can look whether a character is
there without waiting, which moves it into a one-character **slot** where it stays until it is
taken, or it can wait for one. Whoever takes a character takes the slot's first, so the characters
still to come are always `available = pending ++ queue`, in order:

* `available_poll`, `available_take`, `available_send` — what each operation does to them.
* `available_of_next?` — the next character is the first available one.
* `read_failed_iff` — waiting fails exactly when nothing is available and nothing can come.
-/

namespace LC3

/-- The input side of the console. -/
structure Keyboard where
  /-- The slot: a character that was found by looking and not yet taken. -/
  pending : Option Word
  /-- Characters that were sent and not yet received. -/
  queue : List Word
  /-- The source can still send. -/
  isOpen : Bool
  /-- The user asked to stop. -/
  interrupted : Bool
deriving DecidableEq

/-- What an attempt to receive a character comes to. -/
inductive KeyRead
  /-- The next character. -/
  | character (c : Word)
  /-- No character can come any more. -/
  | failed (fault : Fault)
  /-- A character may still come. -/
  | waiting
deriving DecidableEq

namespace Keyboard

/-- A keyboard with characters already sent, over a queue that is open or closed. -/
def channel (queue : List Word) (isOpen : Bool) : Keyboard := ⟨none, queue, isOpen, false⟩

/-- A keyboard without any source. -/
def disconnected : Keyboard := channel [] false

/-- The characters still to come, in order. -/
def available (k : Keyboard) : List Word := k.pending.toList ++ k.queue

/-! ### The near end -/

/-- Looks for a character: an empty slot is filled from the queue. -/
def poll (k : Keyboard) : Keyboard :=
  match k.pending, k.queue with
  | none, c :: rest => { k with pending := some c, queue := rest }
  | _, _ => k

/-- The slot holds a character. -/
def isReady (k : Keyboard) : Bool := k.pending.isSome

/-- Takes the character out of the slot, if there is one. -/
def take (k : Keyboard) : Option Word × Keyboard := (k.pending, { k with pending := none })

/-- The next character with the keyboard that is left, if one is there. -/
def next? (k : Keyboard) : Option (Word × Keyboard) :=
  match k.pending, k.queue with
  | some c, _ => some (c, { k with pending := none })
  | none, c :: rest => some (c, { k with queue := rest })
  | none, [] => none

/-- Why no character can come from a closed keyboard. -/
def closedFault (k : Keyboard) : Fault := if k.interrupted then .interrupted else .inputClosed

/-- Receives a character, as far as that is possible without waiting. -/
def read (k : Keyboard) : KeyRead × Keyboard :=
  match k.next? with
  | some (c, rest) => (.character c, rest)
  | none => (if k.isOpen then .waiting else .failed k.closedFault, k)

/-! ### The far end -/

/-- Sends characters; a closed queue refuses them. -/
def send (k : Keyboard) (characters : List Word) : Keyboard :=
  if k.isOpen then { k with queue := k.queue ++ characters } else k

/-- Ends the sending of characters; those already sent can still be received. -/
def close (k : Keyboard) : Keyboard := { k with isOpen := false }

/-- Sets the flag that says whether the user asked to stop. -/
def setInterrupted (k : Keyboard) (flag : Bool) : Keyboard := { k with interrupted := flag }

/-! ### Laws -/

@[simp] theorem available_channel (queue : List Word) (isOpen : Bool) :
    (channel queue isOpen).available = queue := rfl

@[simp] theorem available_poll (k : Keyboard) : k.poll.available = k.available := by
  obtain ⟨pending, queue, _, _⟩ := k
  cases pending <;> cases queue <;> rfl

@[simp] theorem isOpen_poll (k : Keyboard) : k.poll.isOpen = k.isOpen := by
  obtain ⟨pending, queue, _, _⟩ := k
  cases pending <;> cases queue <;> rfl

@[simp] theorem interrupted_poll (k : Keyboard) : k.poll.interrupted = k.interrupted := by
  obtain ⟨pending, queue, _, _⟩ := k
  cases pending <;> cases queue <;> rfl

/-- Looking finds a character exactly if one is available. -/
theorem isReady_poll (k : Keyboard) : k.poll.isReady = !k.available.isEmpty := by
  obtain ⟨pending, queue, _, _⟩ := k
  cases pending <;> cases queue <;> rfl

/-- Looking twice is looking once. -/
@[simp] theorem poll_poll (k : Keyboard) : k.poll.poll = k.poll := by
  obtain ⟨pending, queue, _, _⟩ := k
  cases pending <;> cases queue <;> rfl

/-- Taking removes the character that it returns, and nothing else. -/
theorem available_take (k : Keyboard) : k.available = k.take.1.toList ++ k.take.2.available := by
  obtain ⟨pending, queue, _, _⟩ := k
  cases pending <;> rfl

@[simp] theorem available_send (k : Keyboard) (characters : List Word) :
    (k.send characters).available = k.available ++ if k.isOpen then characters else [] := by
  by_cases h : k.isOpen <;> simp [send, available, h]

@[simp] theorem available_close (k : Keyboard) : k.close.available = k.available := rfl

@[simp] theorem available_setInterrupted (k : Keyboard) (flag : Bool) :
    (k.setInterrupted flag).available = k.available := rfl

/-- The next character is the first available one, and taking it changes nothing else. -/
theorem available_of_next? {k rest : Keyboard} {c : Word} (h : k.next? = some (c, rest)) :
    k.available = c :: rest.available ∧ rest.isOpen = k.isOpen ∧
      rest.interrupted = k.interrupted := by
  obtain ⟨pending, queue, _, _⟩ := k
  cases pending <;> cases queue <;> simp_all [next?, available] <;>
    (obtain ⟨rfl, rfl⟩ := h; simp)

@[simp] theorem next?_eq_none_iff (k : Keyboard) : k.next? = none ↔ k.available = [] := by
  obtain ⟨pending, queue, _, _⟩ := k
  cases pending <;> cases queue <;> simp [next?, available]

/-- The next character comes from the slot after looking as well. -/
theorem take_poll (k : Keyboard) :
    k.poll.take = match k.next? with
      | some (c, rest) => (some c, rest)
      | none => (none, k) := by
  obtain ⟨pending, queue, _, _⟩ := k
  cases pending <;> cases queue <;> rfl

/-- Waiting fails exactly when nothing is available and nothing can come. -/
theorem read_failed_iff (k : Keyboard) (fault : Fault) :
    k.read.1 = .failed fault ↔
      k.available = [] ∧ k.isOpen = false ∧ fault = k.closedFault := by
  unfold read
  cases h : k.next? with
  | some next =>
    have hne : k.available ≠ [] := fun hn => by simp [(next?_eq_none_iff k).2 hn] at h
    simp [hne]
  | none =>
    have hnil := (next?_eq_none_iff k).1 h
    cases k.isOpen <;> simp [hnil, eq_comm]

end Keyboard

end LC3
