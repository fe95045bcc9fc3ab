import LC3.Keyboard.Feed

/-!
# Keys of a terminal

A terminal in raw mode reports events. Only **presses** of keys matter: CTRL-C asks to stop and ends
the source, and a key that stands for an ASCII character sends that character, whatever modifiers
are held. The flag is raised before the queue is closed, so whoever finds the queue closed by CTRL-C
also finds the flag. A terminal that cannot be read any more ends the source with a warning. When
nobody listens any more, the source ends at the first character it cannot send.
-/

namespace LC3.Terminal

/-- The keys of a keyboard. -/
inductive Key
  /-- A key with a character. -/
  | char (c : Char)
  | enter
  | backspace
  | tab
  | escape
  | backTab
  | left
  | right
  | up
  | down
  | home
  | last
  | pageUp
  | pageDown
  | insert
  | delete
  | capsLock
  | null
  /-- A function key. -/
  | function (number : Nat)
  /-- A key that only some terminals report, such as a lock, a media key or a modifier. -/
  | other (name : String)
deriving DecidableEq

/-- What happens to a key. -/
inductive Stroke
  | press
  | hold
  | release
deriving DecidableEq

/-- An event of a key. -/
structure KeyEvent where
  /-- The key. -/
  key : Key
  /-- The shift key is held. -/
  shift : Bool
  /-- The control key is held. -/
  control : Bool
  /-- The alt key is held, or a modifier that only some terminals report. -/
  alt : Bool
  /-- What happens to the key. -/
  stroke : Stroke
deriving DecidableEq

/-- What a terminal reports. -/
inductive Report
  | key (event : KeyEvent)
  | resize
  | focusGained
  | focusLost
  | paste (text : String)
  /-- What is reported of other devices, such as a mouse. -/
  | other (description : String)
deriving DecidableEq

/-- The character that a key sends, if it sends any. -/
def Key.character? : Key → Option Word
  | char c => if c.toNat < 128 then some (BitVec.ofNat 16 c.toNat) else none
  | enter => some 10
  | backspace => some 8
  | tab => some 9
  | escape => some 27
  | _ => none

/-- The key event that asks to stop, apart from what happens to the key. -/
def KeyEvent.isControlC (e : KeyEvent) : Bool := e.key = .char 'c' && e.control

/-- What a source does about a report. -/
inductive Response
  /-- Nothing. -/
  | ignore
  /-- It sends a character. -/
  | send (c : Word)
  /-- It tells that the user asked to stop, and ends. -/
  | interrupt
deriving DecidableEq

/-- What a source does about a report. -/
def Report.response : Report → Response
  | key e =>
    if e.stroke ≠ .press then .ignore
    else if e.isControlC then .interrupt
    else match e.key.character? with
      | some c => .send c
      | none => .ignore
  | _ => .ignore

/-- Runs the source on what its reads return, with somebody listening or not. At the end of the
script the source waits. -/
def listen (listening : Bool) : List (Except String Report) → Feed
  | [] => .idle
  | .error reason :: _ => .last [.close] (some (.terminalStopped reason))
  | .ok report :: script =>
    match report.response with
    | .ignore => (listen listening script).after []
    -- whether somebody listens is only noticed when a character is sent
    | .interrupt => .last [.interrupt, .close] none
    | .send c => if listening then (listen listening script).after [.send c] else .last [] none

end LC3.Terminal
