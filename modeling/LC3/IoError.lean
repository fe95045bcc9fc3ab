/-!
# Errors of devices

What a console or an input stream reports when it cannot do what it is asked for: a **kind**, by
which callers decide whether to try again, and a message, which is all that is shown.
-/

namespace LC3

/-- What went wrong, as far as a caller can act on it. -/
inductive IoErrorKind
  /-- Nothing was done yet and the call may be repeated. -/
  | interrupted
  /-- The other side is gone. -/
  | brokenPipe
  /-- A device took none of the bytes it was given. -/
  | writeZero
  /-- The call would have to wait. -/
  | wouldBlock
  /-- Input ended too early. -/
  | unexpectedEnd
  /-- Anything else. -/
  | other
deriving DecidableEq

/-- An error of a device. -/
structure IoError where
  /-- What went wrong. -/
  kind : IoErrorKind
  /-- What is shown. -/
  message : String
deriving DecidableEq

namespace IoError

/-- The error is no more than a request to repeat the call. -/
def isInterrupted (e : IoError) : Bool := e.kind = .interrupted

/-- The error of writing to a device that takes no bytes. -/
def writeZero : IoError := ⟨.writeZero, "failed to write whole buffer"⟩

@[simp] theorem isInterrupted_writeZero : writeZero.isInterrupted = false := rfl

end IoError

end LC3
