import LC3.Event
import LC3.Keyboard

/-!
# What a source does to its keyboard

A source runs beside the program. Seen from the keyboard it is a sequence of **actions** that happen
one at a time, in order, at moments of their own choosing: sending a character, raising the
interrupted flag, closing the queue. A **feed** is the outcome of running a source on a script of
things it reads: its actions, how much of the script it read, and what it had to warn about.

* `performAll_cons` — a sequence of actions is its first action and then the others.
-/

namespace LC3

/-- One indivisible thing that a source does to its keyboard. -/
inductive SourceAction
  /-- Sends a character, which a closed queue refuses. -/
  | send (c : Word)
  /-- Tells that the user asked to stop. -/
  | interrupt
  /-- Ends the sending of characters. -/
  | close
deriving DecidableEq

namespace SourceAction

/-- The character that an action sends. -/
def character? : SourceAction → Option Word
  | send c => some c
  | _ => none

/-- The keyboard after an action. -/
def perform : SourceAction → Keyboard → Keyboard
  | send c, k => k.send [c]
  | interrupt, k => k.setInterrupted true
  | close, k => k.close

/-- The characters that an open queue accepts from a sequence of actions. -/
def accepted (actions : List SourceAction) : List Word :=
  (actions.takeWhile (· ≠ close)).filterMap character?

/-- The keyboard after a sequence of actions. -/
def performAll (actions : List SourceAction) (k : Keyboard) : Keyboard :=
  { k with
    queue := if k.isOpen then k.queue ++ accepted actions else k.queue
    isOpen := k.isOpen && !actions.contains close
    interrupted := k.interrupted || actions.contains interrupt }

@[simp] theorem accepted_nil : accepted [] = [] := rfl

@[simp] theorem accepted_send (c : Word) (actions : List SourceAction) :
    accepted (send c :: actions) = c :: accepted actions := rfl

@[simp] theorem accepted_interrupt (actions : List SourceAction) :
    accepted (interrupt :: actions) = accepted actions := rfl

@[simp] theorem accepted_close (actions : List SourceAction) :
    accepted (close :: actions) = [] := rfl

@[simp] theorem performAll_nil (k : Keyboard) : performAll [] k = k := by
  obtain ⟨_, _, isOpen, interrupted⟩ := k
  cases isOpen <;> cases interrupted <;> simp [performAll]

/-- A sequence of actions is its first action and then the others. -/
theorem performAll_cons (action : SourceAction) (actions : List SourceAction) (k : Keyboard) :
    performAll (action :: actions) k = performAll actions (action.perform k) := by
  obtain ⟨_, _, isOpen, interrupted⟩ := k
  cases action <;> cases isOpen <;>
    simp [performAll, perform, Keyboard.send, Keyboard.close, Keyboard.setInterrupted]

end SourceAction

/-- What a source came to on a script of things to read. -/
structure Feed where
  /-- What it did to the keyboard, in order. -/
  actions : List SourceAction
  /-- How many elements of the script it read. -/
  reads : Nat
  /-- What it warned about when it ended. -/
  warning : Option Event
deriving DecidableEq

namespace Feed

/-- A source that waits for something to read. -/
def idle : Feed := ⟨[], 0, none⟩

/-- The feed behind one more element of the script, at which the source did something. -/
def after (actions : List SourceAction) (feed : Feed) : Feed :=
  ⟨actions ++ feed.actions, feed.reads + 1, feed.warning⟩

/-- A source that ends at an element of the script. -/
def last (actions : List SourceAction) (warning : Option Event) : Feed := ⟨actions, 1, warning⟩

/-- The keyboard of a source that has done all that it does. -/
def keyboard (feed : Feed) : Keyboard :=
  SourceAction.performAll feed.actions (Keyboard.channel [] true)

end Feed

end LC3
