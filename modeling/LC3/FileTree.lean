import LC3.Word

/-!
# Files by path

A **file tree** is what a program finds in the directory where it runs: files and directories, named
by the components of their paths. `read` follows a path component by component and says why it leads
to no file. The order of the reasons is that of the walk: a path that cannot be a path at all, then
for each component whether there is a directory to look in, whether the name is too long, and
whether it is there; a path that leads to a directory fails last of all.
-/

namespace LC3

/-- Why a path leads to no content. -/
inductive ReadFailure
  /-- The path holds a zero character. -/
  | zeroInName
  /-- A component, or the path as a whole, is too long. -/
  | nameTooLong
  /-- Something on the way is a file. -/
  | notDirectory
  /-- Nothing is there. -/
  | notFound
  /-- The path leads to a directory. -/
  | isDirectory
  /-- The system has another reason. -/
  | other (reason : String)
deriving DecidableEq

/-- The text of a reason. -/
def ReadFailure.message : ReadFailure → String
  | zeroInName => "file name contained an unexpected NUL byte"
  | nameTooLong => "File name too long (os error 36)"
  | notDirectory => "Not a directory (os error 20)"
  | notFound => "No such file or directory (os error 2)"
  | isDirectory => "Is a directory (os error 21)"
  | other reason => reason

/-- Files and directories below the directory where a program runs. The directories on the way to a
file or directory exist without being listed. -/
structure FileTree where
  /-- Every file with the components of its path. -/
  files : List (List String × List Byte)
  /-- The components of the path of every directory. -/
  directories : List (List String)

namespace FileTree

/-- Where a walk along a path has come to. -/
inductive Place
  /-- Below the directory where the program runs. -/
  | inside (components : List String)
  /-- Above that directory, where nothing else is known. -/
  | outside

/-- The components of a path. -/
def components (path : String) : List String := path.splitOn "/"

/-- The greatest number of bytes in a component. -/
def componentLimit : Nat := 255

/-- The number of bytes that a path must stay below. -/
def pathLimit : Nat := 4096

variable (t : FileTree)

/-- The content of the file at a place. -/
def content? (components : List String) : Option (List Byte) :=
  (t.files.find? fun file => file.1 = components).map (·.2)

/-- There is a directory at a place, listed or on the way to something. -/
def isDirectory (components : List String) : Bool :=
  components.isEmpty || t.directories.any (components.isPrefixOf ·) ||
    t.files.any fun file => components.isPrefixOf file.1 && file.1 ≠ components

/-- The walk may look for further components at a place. -/
def canEnter : Place → Bool
  | .inside components => t.isDirectory components
  | .outside => true

/-- One step along a path. -/
def enter (place : Place) (name : String) : Except ReadFailure Place :=
  -- even an empty name, such as the one behind a final slash, asks for a directory before it
  if !t.canEnter place then .error .notDirectory
  else if name = "" ∨ name = "." then .ok place
  else if name = ".." then
    match place with
    | .inside (c :: components) => .ok (.inside (c :: components).dropLast)
    -- above the top there is still the top
    | _ => .ok .outside
  else if componentLimit < name.utf8ByteSize then .error .nameTooLong
  else
    match place with
    | .outside => .error .notFound
    | .inside components =>
      let next := components ++ [name]
      if t.isDirectory next || (t.content? next).isSome then .ok (.inside next)
      else .error .notFound

/-- What is found at the end of a walk. -/
def contentAt : Place → Except ReadFailure (List Byte)
  | .outside => .error .isDirectory
  | .inside components =>
    match t.content? components with
    | some content => .ok content
    | none => .error .isDirectory

/-- The content of the file that a path leads to. -/
def read (path : String) : Except ReadFailure (List Byte) :=
  if path.toList.contains '\x00' then .error .zeroInName
  else if path = "" then .error .notFound
  else if pathLimit ≤ path.utf8ByteSize then .error .nameTooLong
  else do
    let start := if path.toList.head? = some '/' then Place.outside else .inside []
    let place ← (components path).foldlM t.enter start
    t.contentAt place

end FileTree

end LC3
