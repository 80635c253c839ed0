import BuildLauncher.FileTree

/-!
# Changing file trees

What programs other than the launcher do to a tree: overwriting files, making directories and
removing entries; and the listing of everything below a directory.
-/

namespace BuildLauncher.FileTree

/-- The place that writing to a path reaches: links are followed, and the last name need not be
there yet. -/
def writePlace (t : FileTree) (here : Place) (path : Bytes) : Except FileError Place := do
  checkPath path
  (t.walk true maxLinks (start here path) (names path)).mapError .system

/-- Gives a file new content, whether it is there or not. -/
def write (t : FileTree) (here : Place) (path content : Bytes) : Except FileError FileTree := do
  let place ← t.writePlace here path
  match t.get? place with
  | some .directory => .error (.system .isADirectory)
  | some (.file _ isProgram) => .ok (t.set place (.file content isProgram))
  | some (.link _) | none => .ok (t.set place (.file content false))

/-- Makes the directories with the given names, one within the other, where they are not there yet.
A link that leads nowhere is in the way. -/
def makeFrom (t : FileTree) : Place → List Bytes → Except FileError FileTree
  | _, [] => .ok t
  | here, name :: rest =>
    match t.walk false maxLinks here [name] with
    | .ok place =>
      if t.get? place = some .directory then makeFrom t place rest
      else .error (.system .alreadyExists)
    | .error .notFound =>
      if (t.get? (here ++ [name])).isSome then .error (.system .alreadyExists)
      else makeFrom (t.set (here ++ [name]) .directory) (here ++ [name]) rest
    | .error e => .error (.system e)

/-- Makes a directory and those on the way to it. -/
def makeDirectories (t : FileTree) (here : Place) (path : Bytes) : Except FileError FileTree := do
  checkPath path
  t.makeFrom (start here path) (names path)

/-- The place that a path names, which is that of the link if its last name is one. -/
def ownPlace (t : FileTree) (here : Place) (path : Bytes) : Except FileError Place := do
  checkPath path
  let parts := (path.splitOn Path.slash).filter (· ≠ [])
  let parent ← (t.walk false maxLinks (start here path) (parts.dropLast ++ [hereName])).mapError
    .system
  let place := parent ++ parts.getLast?.toList
  match t.get? place with
  | some _ => .ok place
  | none => .error (.system .notFound)

/-- Takes away an entry and everything below it. -/
def removeAll (t : FileTree) (place : Place) : FileTree :=
  ⟨t.entries.filter fun e => !place.isPrefixOf e.1⟩

/-- Takes away what a path names and everything below it. -/
def remove (t : FileTree) (here : Place) (path : Bytes) : Except FileError FileTree := do
  .ok (t.removeAll (← t.ownPlace here path))

/-- Everything below a directory, by the names from there; in the order of the names, a directory
before what it holds. -/
def below (t : FileTree) (place : Place) : List (List Bytes × Entry) :=
  (t.entries.filterMap fun (p, e) =>
    match place.isPrefixOf? p with
    | some [] | none => none
    | some rest => some (rest, e)).mergeSort fun a b => a.1 ≤ b.1

/-- The names within a directory, in order. -/
def namesWithin (t : FileTree) (place : Place) : List Bytes :=
  (t.below place).filterMap fun (names, _) =>
    match names with
    | [name] => some name
    | _ => none

end BuildLauncher.FileTree
