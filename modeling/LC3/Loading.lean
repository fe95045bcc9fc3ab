import LC3.Event
import LC3.FileTree
import LC3.Memory
import LC3.Text.Quoted

/-!
# Loading programs

An image is placed at its origin, as far as there is room below the top of memory, and nothing else
changes: words never wrap to the bottom, and the keyboard is not looked at even if the image covers
its registers. Several images may be loaded one after the other; where they overlap the last one
counts. What is left over of an image, a byte or words without room, is worth a warning.
-/

namespace LC3

/-- Why a program did not get into memory. -/
inductive LoadError
  /-- The file with the image has no content. -/
  | unreadable (path : String) (reason : ReadFailure)
  /-- The content is too short for an image. -/
  | missingOrigin
deriving DecidableEq

/-- The text of the error. -/
def LoadError.message : LoadError → String
  | unreadable path reason =>
    s!"Could not read program image {Text.quoted path}: {reason.message}"
  | missingOrigin => "Program is missing valid .ORIG header"

namespace Image

/-- Where an image ends up in memory. -/
def placement (image : Image) : Placement where
  origin := image.origin
  wordCount := min image.words.length (Memory.capacityFrom image.origin)
  truncated := Memory.capacityFrom image.origin < image.words.length

/-- What there is to say about placing an image. -/
def placingLog (image : Image) : List Event :=
  (if image.trailing.isSome then [.oddByte image.origin] else []) ++
    (if image.placement.truncated then
      [.cutOff image.origin image.words.length (Memory.capacityFrom image.origin)]
    else []) ++
    [.loaded image.placement]

end Image

/-- An image that was loaded. -/
structure Loaded where
  /-- Where it ended up. -/
  placement : Placement
  /-- The memory that holds it. -/
  memory : Memory
  /-- What there was to say about it. -/
  log : List Event

namespace Memory

/-- Places an image at its origin. -/
def place (m : Memory) (image : Image) : Memory := m.fill image.origin image.words

/-- Loads the image that a byte sequence holds. -/
def load (m : Memory) (bytes : List Byte) : Except LoadError Loaded :=
  match Image.ofBytes? bytes with
  | some image => .ok ⟨image.placement, m.place image, image.placingLog⟩
  | none => .error .missingOrigin

/-- Loads the image that a file holds, given what reading the file comes to. -/
def loadFile (m : Memory) (path : String) (content : Except ReadFailure (List Byte)) :
    Except LoadError Loaded :=
  match content with
  | .ok bytes => m.load bytes
  | .error reason => .error (.unreadable path reason)

end Memory

end LC3
