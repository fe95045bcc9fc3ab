import LC3.Event

/-!
# Raw mode

In **raw mode** a terminal delivers single key strokes and no longer turns line feeds into line
ends. A program holds raw mode from `enter` to `leave`. A terminal that refuses raw mode is used as
it is, with a warning; leaving then does nothing, and a failure to leave is told to the user but
cannot be mended.
-/

namespace LC3

/-- The hold of a program on raw mode. -/
structure RawMode where
  /-- The terminal is in raw mode. -/
  enabled : Bool
deriving DecidableEq

/-- What happens at the end of a hold on raw mode. -/
structure RawMode.Release where
  /-- How often the terminal is asked to return to its former mode. -/
  requests : Nat
  /-- What the user is told. -/
  notice : Option String
deriving DecidableEq

namespace RawMode

/-- Takes hold of raw mode, given what the terminal answers. -/
def enter : Except String Unit → RawMode × List Event
  | .ok () => (⟨true⟩, [])
  | .error reason => (⟨false⟩, [.rawModeRefused reason])

/-- Lets go of raw mode, given what the terminal would answer. -/
def leave (mode : RawMode) (answer : Except String Unit) : Release :=
  if mode.enabled then
    match answer with
    | .ok () => ⟨1, none⟩
    | .error reason => ⟨1, some s!"Error resetting terminal {reason}"⟩
  else ⟨0, none⟩

end RawMode

end LC3
