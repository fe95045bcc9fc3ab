import LC3.Console.Devices
import LC3.Console.Newline
import LC3.Console.Recorded
import LC3.Keyboard.Stream
import LC3.Loading
import LC3.Machine

/-!
# The command line

The program is called with paths of images. They are loaded in the order given; the first that
cannot be loaded ends the program before anything is executed. Then the machine runs, with the
keyboard fed from standard input, until it halts or a fault ends it. The exit status tells which:
zero after a regular end, one after a failure, two for arguments that ask for nothing sensible, and
one of its own after an interruption by the user.

Arguments are read from left to right, and the first that decides does: an option that shows
something, an unknown option, or an empty argument. `--` ends the options.
-/

namespace LC3.CommandLine

/-- What the arguments ask for. -/
inductive Request
  /-- To run the images at some paths. -/
  | run (images : List String)
  /-- To show the version. -/
  | showVersion
  /-- To show how the program is used. -/
  | showHelp
  /-- Nothing sensible. -/
  | misuse
deriving DecidableEq

namespace Request

/-- The request to run images, of which there has to be at least one. -/
def ofImages (images : List String) : Request := if images.isEmpty then misuse else run images

/-- What an argument that begins with a dash and is more than that asks for. -/
def ofOption (option : String) : Request :=
  if option = "--version" then showVersion
  else if option = "--help" then showHelp
  else
    match option.toList with
    | '-' :: 'V' :: _ => showVersion
    | '-' :: 'h' :: _ => showHelp
    | _ => misuse

/-- The argument is an option and not a path. -/
def isOption (argument : String) : Bool :=
  argument.toList.head? = some '-' && argument ≠ "-"

/-- Reads arguments that follow some paths. -/
def ofRest (images : List String) : List String → Request
  | [] => ofImages images
  | argument :: rest =>
    -- behind the end of options only an empty argument is refused
    if argument = "--" then if rest.contains "" then misuse else ofImages (images ++ rest)
    else if argument = "" then misuse
    else if isOption argument then ofOption argument
    else ofRest (images ++ [argument]) rest

/-- Reads the arguments. -/
def ofArguments (arguments : List String) : Request := ofRest [] arguments

end Request

/-! ### What the program says of itself -/

/-- The answer to the question for the version. -/
def version : String := "lc3-vm 0.1.0\n"

/-- How the program is called. -/
def usage : String := "Usage: lc3-vm <IMAGE>...\n"

/-- The answer to the question for help. -/
def help : String :=
  "Run LC-3 program images\n\n" ++ usage ++
    "\nArguments:\n  <IMAGE>...  Program images, loaded in the given order\n" ++
    "\nOptions:\n  -h, --help     Print help\n  -V, --version  Print version\n"

/-- What is said about arguments that ask for nothing sensible. -/
def complaint : String :=
  "error: invalid arguments\n\n" ++ usage ++ "\nFor more information, try '--help'.\n"

/-! ### Running -/

/-- How the program ends. -/
structure Exit where
  /-- The exit status. -/
  status : Nat
  /-- What it wrote to standard output. -/
  stdout : List Byte
  /-- What it wrote to standard error. -/
  stderr : String
deriving DecidableEq

/-- The exit status after an interruption by the user. -/
def interruptedStatus : Nat := 254

/-- The end of a program whose machine got no image. -/
def Exit.ofLoadError (e : LoadError) : Exit := ⟨1, [], s!"Failed to load image: {e.message}\n"⟩

/-- The end of a program whose machine is done, if it is. -/
def Exit.ofEnding? (stdout : List Byte) : Ending → Option Exit
  | .halted => some ⟨0, stdout, ""⟩
  | .failed .interrupted => some ⟨interruptedStatus, stdout, "Interrupted\n"⟩
  | .failed fault => some ⟨1, stdout, s!"Aborted: {fault.message}\n"⟩
  | .waiting _ _ | .unfinished => none

/-- Loads images in order into cleared memory, given what reading each file comes to. -/
def loadImages (read : String → Except ReadFailure (List Byte)) (paths : List String) :
    Except LoadError Memory :=
  paths.foldlM (fun memory path => (memory.loadFile path (read path)).map (·.memory))
    (.cleared .disconnected)

/-- The machine that runs loaded memory with a keyboard. -/
def machine (memory : Memory) (keyboard : Keyboard) : Machine :=
  (Machine.initial keyboard).withMemory (memory.connect keyboard)

/-- The console of redirected output: line ends stay as they are. -/
abbrev Output := Translating (Recorded OpenSink)

/-- Redirected output to which nothing was written so far. -/
def freshOutput : Output := ⟨.start ⟨⟩, false⟩

/-- The program with redirected input, which is read in chunks up to its end. There is no answer if
the machine is not done after the given number of cycles. -/
def execute? (cycles : Nat) (arguments : List String)
    (read : String → Except ReadFailure (List Byte)) (input : List Stream.Chunk) : Option Exit :=
  match Request.ofArguments arguments with
  | .showVersion => some ⟨0, asciiBytes version, ""⟩
  | .showHelp => some ⟨0, asciiBytes help, ""⟩
  | .misuse => some ⟨2, [], complaint⟩
  | .run images =>
    match loadImages read images with
    | .error e => some (.ofLoadError e)
    | .ok memory =>
      let keyboard := (Stream.drain true (input ++ [.ok []])).keyboard
      let run := (machine memory keyboard).runFor cycles freshOutput
      Exit.ofEnding? run.sink.inner.output run.ending

end LC3.CommandLine
