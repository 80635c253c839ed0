import BuildLauncher.Configuration
import BuildLauncher.Failure

/-!
# The configuration file

Files are read and created with failures that say what was being done.  The configuration file is
created once: whatever exists at its path, even through a link, is left alone.
-/

namespace BuildLauncher

namespace FileTree

/-- The text of a file. -/
def readFor (t : FileTree) (here : Place) (path : Bytes) (context : String) :
    Except Failure String :=
  (t.readText here path).mapError fun e => .ofSystem e.message (some context)

/-- Opens a new file and writes its whole content.  An error between the two leaves what has been
written so far. -/
def writeNew (t : FileTree) (w : Writing) (here : Place) (path content : Bytes)
    (context : String) : Except Failure Unit × FileTree :=
  match t.createNew here path with
  | .error e => (.error (.ofSystem e.message (some context)), t)
  | .ok (place, t) =>
    match w.perform content with
    | (written, none) => (.ok (), t.append place written)
    | (written, some e) =>
      (.error (.ofSystem e.message (some (context ++ " (write)"))), t.append place written)

end FileTree

namespace Configuration

/-- How configuring ends when nothing fails. -/
inductive Configured where
  | created (path : Bytes)
  | alreadyExists (path : Bytes)
  deriving DecidableEq

/-- Creates the configuration file of a directory, unless there is one. -/
def configure (t : FileTree) (w : FileTree.Writing) (here : Place) (root : Bytes) :
    Except Failure Configured × FileTree :=
  let path := Configuration.path root
  if t.pathExists here path then (.ok (.alreadyExists path), t)
  else
    match t.writeNew w here path (Utf8.ofString template) "create build configuration" with
    | (.ok (), t) => (.ok (.created path), t)
    | (.error f, t) => (.error f, t)

/-- The configuration of the file at a path; the default one if there is no such text. -/
def load (t : FileTree) (here : Place) (path : Bytes) : Configuration :=
  match t.readFor here path "read build configuration" with
  | .ok text => parse text
  | .error _ => {}

end Configuration

end BuildLauncher
