import LC3.Keyboard.Feed

/-!
# Bytes of a stream

Redirected input is read in chunks, and every byte is sent as a character of its own, so how the
stream is cut into chunks does not matter. An empty chunk is the end of the stream. A read that was
only interrupted is repeated; any other error ends the source with a warning. When nobody listens
any more, the source ends at the first byte it cannot send, having read that byte's whole chunk.
-/

namespace LC3.Stream

/-- What one read of a stream returns. -/
abbrev Chunk := Except IoError (List Byte)

/-- The actions that send the bytes of a chunk. -/
def sends (bytes : List Byte) : List SourceAction :=
  bytes.map fun b => .send (.ofByte b)

/-- Runs the source on what its reads return, with somebody listening or not. At the end of the
script the source waits. -/
def drain (listening : Bool) : List Chunk → Feed
  | [] => .idle
  | .ok [] :: _ => .last [.close] none
  | .ok (b :: bytes) :: script =>
    -- the chunk was read before its first byte is refused, so it counts
    if listening then (drain listening script).after (sends (b :: bytes)) else .last [] none
  | .error e :: script =>
    if e.isInterrupted then (drain listening script).after []
    else .last [.close] (some (.streamStopped e.message))

end LC3.Stream
