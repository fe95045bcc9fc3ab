import LC3.CommandLine

/-!
# The program

The outer layer: it reads the files that the command line names, feeds the keyboard from standard
input as bytes arrive, and passes program output on after every few cycles. Everything that is
decided is decided by `LC3.CommandLine` and `LC3.Machine`.
-/

namespace LC3.Program

open CommandLine

/-- Why a file could not be read, as the system tells it. -/
def readFailure : IO.Error → ReadFailure
  | .noFileOrDirectory .. => .notFound
  | .inappropriateType _ 21 _ => .isDirectory
  | .inappropriateType _ 20 _ => .notDirectory
  | .invalidArgument _ 36 _ => .nameTooLong
  | e => .other (toString e)

/-- The bytes of a byte array. -/
def bytesOf (bytes : ByteArray) : List Byte := bytes.toList.map UInt8.toBitVec

/-- The byte array of bytes. -/
def arrayOf (bytes : List Byte) : ByteArray := ⟨(bytes.map UInt8.ofBitVec).toArray⟩

/-- Reads the file at a path. -/
def readImage (path : String) : IO (Except ReadFailure (List Byte)) := do
  if path.toList.contains '\x00' then return .error .zeroInName
  try
    return .ok (bytesOf (← IO.FS.readBinFile path))
  catch e => return .error (readFailure e)

/-- Reads the files at some paths. -/
def readImages (paths : List String) : IO (List (String × Except ReadFailure (List Byte))) :=
  paths.mapM fun path => do return (path, ← readImage path)

/-- What was read of a path. -/
def lookup (contents : List (String × Except ReadFailure (List Byte))) (path : String) :
    Except ReadFailure (List Byte) :=
  (contents.lookup path).getD (.error .notFound)

/-- How many cycles are run before the next look at standard input. -/
def slice : Nat := 4096

/-- The kind of an error that the system reports. The source of the keyboard tells interruptions
apart from all others, because after them it reads again. -/
def kindOf : IO.Error → IoErrorKind
  | .interrupted .. => .interrupted
  | _ => .other

/-- The result of one read of standard input, as the keyboard's source sees it. -/
def chunkOf : Except IO.Error ByteArray → Stream.Chunk
  | .ok bytes => .ok (bytesOf bytes)
  | .error e => .error ⟨kindOf e, toString e⟩

/-- Starts a read of standard input beside the machine. -/
def startRead : IO (Task (Except IO.Error ByteArray)) := do
  let stdin ← IO.getStdin
  IO.asTask (stdin.read 4096) .dedicated

/-- Feeds one chunk to a machine's keyboard. -/
def feed (chunk : Stream.Chunk) (run : Run Output) : Run Output :=
  let keyboard := SourceAction.performAll (Stream.drain true [chunk]).actions
    run.machine.memory.keyboard
  { run with machine := run.machine.withMemory (run.machine.memory.connect keyboard) }

/-- Writes what the machine has written since the last time. -/
def drainOutput (run : Run Output) : IO (Run Output) := do
  let bytes := run.sink.inner.output
  if bytes.isEmpty then return { run with log := [] }
  let stdout ← IO.getStdout
  stdout.write (arrayOf bytes)
  stdout.flush
  return { run with sink := { run.sink with inner := run.sink.inner.restart }, log := [] }

/-- Runs slices of cycles until the machine is done. While it waits for a key, so does this. -/
partial def loop (run : Run Output) (reading : Task (Except IO.Error ByteArray)) : IO Exit := do
  let run ← drainOutput run
  match Exit.ofEnding? [] run.ending with
  | some ending => return ending
  | none =>
    let waiting := match run.ending with
      | .waiting _ _ => true
      | _ => false
    -- a machine that needs a key waits for input here, any other only takes what has come
    if run.machine.memory.keyboard.isOpen && (waiting || (← IO.hasFinished reading)) then
      let run := feed (chunkOf reading.get) run
      let reading ← if run.machine.memory.keyboard.isOpen then startRead else pure reading
      loop (run.goOn slice) reading
    else loop (run.goOn slice) reading

/-- Runs the images of a request. -/
def runImages (images : List String) : IO Exit := do
  let contents ← readImages images
  match loadImages (lookup contents) images with
  | .error e => return .ofLoadError e
  | .ok memory =>
    loop ((machine memory (.channel [] true)).runFor 0 freshOutput) (← startRead)

/-- Does what the arguments ask for. -/
def perform (arguments : List String) : IO Exit :=
  match Request.ofArguments arguments with
  | .run images => runImages images
  | _ => return (execute? 0 arguments (lookup []) []).getD ⟨2, [], complaint⟩

end LC3.Program

/-- Runs program images with redirected input. -/
def main (arguments : List String) : IO UInt32 := do
  let ending ← LC3.Program.perform arguments
  let stdout ← IO.getStdout
  stdout.write (LC3.Program.arrayOf ending.stdout)
  stdout.flush
  (← IO.getStderr).putStr ending.stderr
  return UInt32.ofNat ending.status
