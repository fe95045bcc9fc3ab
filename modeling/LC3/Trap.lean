import LC3.Console.Sink
import LC3.Hardware

/-!
# Trap routines

Trap calls are how a program uses the console. Every message is written as a whole and then flushed,
so that what a user reads is complete before the program goes on or waits. Reading a character takes
two parts: a routine **begins**, possibly with a prompt, and asks for a key; then it **receives** it
and may show it. Between the two parts the keyboard may change, as its source likes.

* `begin` — the part of a routine up to the point where it needs a key, or the whole of it.
* `receive` — the part behind that point.
-/

namespace LC3

/-- How the program goes on after a part of a trap routine. -/
inductive Flow
  /-- With the next instruction. -/
  | proceed
  /-- Not at all: the program has ended itself. -/
  | stop
  /-- Not at all: a fault has ended it. -/
  | fail (fault : Fault)
  /-- With a key, which is shown or not. -/
  | awaitKey (echo : Bool)
deriving DecidableEq

/-- What a part of a trap routine comes to. -/
structure TrapRun (σ : Type) where
  /-- How the program goes on. -/
  flow : Flow
  /-- Registers and memory. -/
  hardware : Hardware
  /-- The console. -/
  sink : σ
deriving DecidableEq

namespace TrapRoutine

/-- What the routine that asks for a character writes first. -/
def prompt : List Byte := asciiBytes "Enter a character: "

/-- What the routine that ends the program writes. -/
def farewell : List Byte := asciiBytes "\nHALT\n"

/-- The byte of a word of a plain string. -/
def plainBytes (w : Word) : List Byte := [w.low]

/-- The bytes of a word of a packed string: the low one, and the high one unless it is zero. -/
def packedBytes (w : Word) : List Byte := if w.high = 0 then [w.low] else [w.low, w.high]

variable {σ : Type} [ByteSink σ]

/-- Makes a message visible and goes on, unless the console fails. -/
def emit (message : List Byte) (next : Flow) (h : Hardware) (s : σ) : TrapRun σ :=
  match ByteSink.emit message s with
  | (.ok (), s) => ⟨next, h, s⟩
  | (.error e, s) => ⟨.fail (.output e), h, s⟩

/-- Collects the string that R0 points to and then makes the whole of it visible. -/
def emitString (bytesOf : Word → List Byte) (h : Hardware) (s : σ) : TrapRun σ :=
  -- the string may take characters from the keyboard, even if it cannot be written then
  let string := h.memory.readString (h.registers.get 0)
  emit (string.1.flatMap bytesOf) .proceed { h with memory := string.2 } s

/-- The part of a routine up to the point where it needs a key, or the whole of it. -/
def begin : TrapRoutine → Hardware → σ → TrapRun σ
  | getc, h, s => ⟨.awaitKey false, h, s⟩
  | out, h, s => emit [(h.registers.get 0).low] .proceed h s
  | puts, h, s => emitString plainBytes h s
  | input, h, s => emit prompt (.awaitKey true) h s
  | putsp, h, s => emitString packedBytes h s
  | halt, h, s => emit farewell .stop h s

/-- The hardware with a character in R0, whose high byte is cleared. -/
def accept (h : Hardware) (c : Word) (rest : Keyboard) : Hardware :=
  ⟨h.registers.set 0 (.ofByte c.low), h.memory.connect rest⟩

/-- The part of a routine behind the point where it needs a key. Without a key it stays there. -/
def receive (echo : Bool) (h : Hardware) (s : σ) : TrapRun σ :=
  match h.memory.keyboard.read with
  | (.character c, rest) =>
    if echo then emit [c.low] .proceed (accept h c rest) s else ⟨.proceed, accept h c rest, s⟩
  | (.failed fault, _) => ⟨.fail fault, h, s⟩
  | (.waiting, _) => ⟨.awaitKey echo, h, s⟩

end TrapRoutine

/-- Goes on with a routine that needs a key. -/
def TrapRun.resume {σ : Type} [ByteSink σ] (r : TrapRun σ) : TrapRun σ :=
  match r.flow with
  | .awaitKey echo => TrapRoutine.receive echo r.hardware r.sink
  | _ => r

/-- A routine from its beginning, as far as it gets without waiting. -/
def TrapRoutine.run {σ : Type} [ByteSink σ] (t : TrapRoutine) (h : Hardware) (s : σ) : TrapRun σ :=
  (t.begin h s).resume

end LC3
