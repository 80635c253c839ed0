import BuildLauncher.SystemError
import BuildLauncher.Text.Utf8

/-!
# Paths and file trees

Paths are byte strings, which are joined but never normalised.  Directories, files and symbolic
links stand at places, and a path leads to one.  A place is the list of names from the root; the
root itself is always a directory.  A path is followed name by name: a link is replaced by its
target, at most forty times, and `..` leads to the parent of the place reached so far.
-/

namespace BuildLauncher

namespace Path

/-- The byte between the names of a path. -/
def slash : UInt8 := 0x2F

/-- Whether a path starts at the root of the file tree. -/
def isAbsolute (path : Bytes) : Bool := path.head? = some slash

/-- A path as seen from a directory: itself when it is absolute, else behind the directory and one
slash, if the directory does not end with one. -/
def join (dir path : Bytes) : Bytes :=
  if isAbsolute path then path
  else if dir = [] ∨ dir.getLast? = some slash then dir ++ path
  else dir ++ slash :: path

/-- The home directory in place of a tilde that is the whole path or comes right before its first
slash.  Without a home directory the tilde stays. -/
def expandHome (home : Option String) (path : String) : String :=
  match home, path.toList with
  | some home, '~' :: rest =>
    if rest = [] ∨ rest.head? = some '/' then home ++ String.ofList rest else path
  | _, _ => path

end Path

/-- The names from the root down to a place. -/
abbrev Place := List Bytes

/-- What stands at a place. -/
inductive Entry where
  | directory
  | file (content : Bytes) (isProgram : Bool)
  | link (target : Bytes)
  deriving DecidableEq

/-- Entries by their place. -/
structure FileTree where
  entries : List (Place × Entry) := []
  deriving DecidableEq

namespace FileTree

/-- What stands at a place, if anything. -/
def get? (t : FileTree) (place : Place) : Option Entry :=
  if place = [] then some .directory else (t.entries.find? (·.1 = place)).map (·.2)

/-- Puts an entry at a place, instead of the one there. -/
def set (t : FileTree) (place : Place) (e : Entry) : FileTree :=
  ⟨(place, e) :: t.entries.filter (·.1 ≠ place)⟩

/-! ## Paths -/

/-- The name of a directory within itself. -/
def hereName : Bytes := [0x2E]

/-- The name of the parent of a directory within it. -/
def parentName : Bytes := [0x2E, 0x2E]

/-- The longest name. -/
def maxName : Nat := 255

/-- Paths are shorter than this. -/
def maxPath : Nat := 4096

/-- The most links that are followed on the way to one place. -/
def maxLinks : Nat := 40

/-- The names of a path.  A slash at its end asks for a directory, as the name `.` does. -/
def names (path : Bytes) : List Bytes :=
  let parts := (path.splitOn Path.slash).filter (· ≠ [])
  if parts ≠ [] ∧ path.getLast? = some Path.slash then parts ++ [hereName] else parts

/-- The place where the names of a path start. -/
def start (here : Place) (path : Bytes) : Place := if Path.isAbsolute path then [] else here

/-- Follows names from a directory.  `jump` says where a link and the names behind it lead.  With
`mayMiss` the last name need not be there. -/
def advance (t : FileTree) (mayMiss : Bool)
    (jump : Place → List Bytes → Except SystemError Place) :
    Place → List Bytes → Except SystemError Place
  | here, [] => .ok here
  | here, name :: rest =>
    if name = hereName then advance t mayMiss jump here rest
    else if name = parentName then advance t mayMiss jump here.dropLast rest
    else if maxName < name.length then .error .nameTooLong
    else
      match t.get? (here ++ [name]) with
      | none =>
        if mayMiss = true ∧ rest = [] ∧ t.get? here = some .directory then .ok (here ++ [name])
        else .error .notFound
      | some .directory => advance t mayMiss jump (here ++ [name]) rest
      | some (.file _ _) => if rest = [] then .ok (here ++ [name]) else .error .notADirectory
      | some (.link target) =>
        if target = [] then .error .notFound else jump (start here target) (names target ++ rest)

/-- Follows names from a directory, and so many links on the way. -/
def walk (t : FileTree) (mayMiss : Bool) : Nat → Place → List Bytes → Except SystemError Place
  | 0 => advance t mayMiss fun _ _ => .error .tooManyLinks
  | links + 1 => advance t mayMiss (walk t mayMiss links)

/-- Refuses the paths that name nothing, whatever the tree. -/
def checkPath (path : Bytes) : Except FileError Unit :=
  if (0 : UInt8) ∈ path then .error .nulInPath
  else if path = [] then .error (.system .notFound)
  else if maxPath ≤ path.length then .error (.system .nameTooLong)
  else .ok ()

/-- The place that a path leads to, as seen from a directory. -/
def resolve (t : FileTree) (here : Place) (path : Bytes) : Except FileError Place := do
  checkPath path
  (t.walk false maxLinks (start here path) (names path)).mapError .system

/-- Whether a path leads to anything. -/
def pathExists (t : FileTree) (here : Place) (path : Bytes) : Bool :=
  (t.resolve here path).isOk

/-! ## Reading -/

/-- The content of the file that a path leads to. -/
def read (t : FileTree) (here : Place) (path : Bytes) : Except FileError Bytes := do
  match t.get? (← t.resolve here path) with
  | some (.file content _) => .ok content
  | some .directory => .error (.system .isADirectory)
  | some (.link _) | none => .error (.system .notFound)

/-- The text in the file that a path leads to. -/
def readText (t : FileTree) (here : Place) (path : Bytes) : Except FileError String := do
  match Utf8.decode? (← t.read here path) with
  | some text => .ok text
  | none => .error .notUtf8

/-! ## Writing new files -/

/-- The place of a new entry: its name in the directory that the rest of the path leads to, where
nothing may stand yet, not even a link. -/
def newPlace (t : FileTree) (here : Place) (path : Bytes) : Except FileError Place := do
  checkPath path
  let parts := (path.splitOn Path.slash).filter (· ≠ [])
  let parent ← (t.walk false maxLinks (start here path) (parts.dropLast ++ [hereName])).mapError
    .system
  match parts.getLast? with
  | none => .error (.system .alreadyExists)
  | some name =>
    if t.get? parent ≠ some .directory then .error (.system .notFound)
    else if name = hereName ∨ name = parentName then .error (.system .alreadyExists)
    else if path.getLast? = some Path.slash then .error (.system .isADirectory)
    else if maxName < name.length then .error (.system .nameTooLong)
    else if (t.get? (parent ++ [name])).isSome then .error (.system .alreadyExists)
    else .ok (parent ++ [name])

/-- Opens a new file, empty at first, and gives its place. -/
def createNew (t : FileTree) (here : Place) (path : Bytes) :
    Except FileError (Place × FileTree) := do
  let place ← t.newPlace here path
  .ok (place, t.set place (.file [] false))

/-- Writes at the end of an open file. -/
def append (t : FileTree) (place : Place) (bytes : Bytes) : FileTree :=
  match t.get? place with
  | some (.file content isProgram) => t.set place (.file (content ++ bytes) isProgram)
  | _ => t

/-- How far writing to a new file gets. -/
inductive Writing where
  /-- To the end. -/
  | complete
  /-- So many bytes, and then an error, unless there are no more bytes than that. -/
  | cutOff (written : Nat) (e : SystemError)

/-- The bytes that are written, and the error that stops the writing short of the end. -/
def Writing.perform (w : Writing) (bytes : Bytes) : Bytes × Option SystemError :=
  match w with
  | .complete => (bytes, none)
  | .cutOff written e =>
    if bytes.length ≤ written then (bytes, none) else (bytes.take written, some e)

end FileTree

end BuildLauncher
