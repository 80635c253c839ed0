import BuildLauncher.Launch
import BuildLauncher.Shell.Run

/-!
# A machine with a shell

The children of a machine whose programs are the tools and the scripts of its file tree.
-/

namespace BuildLauncher.Shell

/-- Where the children of a launcher start, and the input that they read. -/
structure Machine where
  here : Place
  input : Bytes := []

namespace Machine

/-- How long a child runs at most. -/
def patience : Nat := 1000000

/-- The directories that hold the tools. -/
def toolDirectories : List Place :=
  [["bin"], ["usr", "bin"]].map fun names => names.map Utf8.ofString

/-- Files that every system has, besides the tools. -/
def systemFiles : List Place :=
  [["dev", "null"], ["etc", "passwd"]].map fun names => names.map Utf8.ofString

/-- The tree with one more file, and the directories on the way to it. -/
def withFile (t : FileTree) (place : Place) (content : Bytes) (isProgram : Bool) : FileTree :=
  ((List.range (place.length - 1)).foldl (fun t n => t.set (place.take (n + 1)) .directory) t).set
    place (.file content isProgram)

/-- A file tree with the tools and the files of the system. -/
def systemTree : FileTree :=
  let t := systemFiles.foldl (fun t place => withFile t place [] false) {}
  toolDirectories.foldl (fun t directory =>
    toolNames.foldl (fun t tool =>
      withFile t (directory ++ [Utf8.ofString tool]) (Program.image tool) true) t) t

/-- The directory that a child starts in. -/
def startPlace (m : Machine) (t : FileTree) (l : Launch) : Except SystemError Place :=
  match l.directory with
  | none => .ok m.here
  | some path =>
    match t.resolve m.here path with
    | .ok place => if t.get? place = some .directory then .ok place else .error .notADirectory
    | .error (.system e) => .error e
    | .error _ => .error .notFound

/-- The program that a launch starts and the directory it starts in.  A step whose program has no
slash in its name may be a script without an interpreter. -/
def programOf (m : Machine) (t : FileTree) (l : Launch) : Except SystemError (Program × Place) := do
  let place ← m.startPlace t l
  let path := (l.environment.get? (Utf8.ofString "PATH")).map rawOfBytes
  let argv := l.argv.map fun word => rawOfBytes (Utf8.ofString word)
  let leniency := if l.role = .step then Program.Leniency.searched else .none
  .ok (← Program.find t place path leniency argv, place)

/-- How a launch ends on a machine. -/
def children (m : Machine) : Children := fun t l =>
  match m.programOf t l with
  | .error e => ({ ending := .notStarted e.message }, t)
  | .ok (program, place) =>
    let environment := l.entries.map rawOfBytes
    let input := if l.role = .step then rawOfBytes m.input else []
    let (exit, world) := runProgram patience program environment
      { here := place, environment } { tree := t, input }
    let ending : Ending := match exit with
      | .code n => .exited (UInt8.ofNat n)
      | .signal n => .signalled n
    ({ ending, output := world.output.map fun (stream, text) => (stream, bytesOfRaw text) },
      world.tree)

end Machine

end BuildLauncher.Shell
