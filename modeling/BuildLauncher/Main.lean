import BuildLauncher.Launcher
import BuildLauncher.Shell.Machine

/-!
# The program

Reads what the launcher needs of the real system into a file tree, runs it there with the machine's
own shell for its children, and carries its output and the files that are new or changed back.
-/

namespace BuildLauncher.Main

/-- The variables that the launcher and its children get. -/
def passedKeys : List String :=
  ["PATH", "HOME", "CARGO", Environment.isStableKey, Environment.versionKey,
    Environment.targetDirKey, Toolchain.ignoreToolchainKey, Toolchain.ignorePythonKey]

/-- The programs that the launcher starts. -/
def programs : List String := ["git", "cargo"]

/-- The environment, as far as it is known. -/
def readEnvironment : IO Environment := do
  let mut env := Environment.empty
  for key in passedKeys do
    if let some value ← IO.getEnv key then
      env := env.setText key value
  return env

/-- The content of a file, if there is one. -/
def readIfThere (path : String) : IO (Option Bytes) := do
  try
    return some (← IO.FS.readBinFile path).toList
  catch _ => return none

/-- The fields of every line of a table. -/
def fieldsOfLines (separator : UInt8) (table : Bytes) : List (List Bytes) :=
  (table.splitOn 0x0A).map (·.splitOn separator)

/-- The home directory on record for the user of a process, by what the system tells about the
process and its table of users. -/
def recordedHome? (status users : Bytes) : Option Bytes := do
  let user ← (fieldsOfLines 0x09 status).findSome? fun
    | key :: user :: _ => if key = Utf8.ofString "Uid:" then some user else none
    | _ => none
  (fieldsOfLines 0x3A users).findSome? fun
    | [_, _, number, _, _, home, _] => if number = user then some home else none
    | _ => none

/-- The home directory on record for the user of the launcher. -/
def readRecordedHome : IO (Option Bytes) := do
  let some status ← readIfThere "/proc/self/status" | return none
  let some users ← readIfThere "/etc/passwd" | return none
  return recordedHome? status users

/-- The tree with one more file at a path, and the directories on the way to it. -/
def withFile (t : FileTree) (path : String) (content : Bytes) (isProgram : Bool) : FileTree :=
  let place := FileTree.names (Utf8.ofString path)
  match t.makeFrom [] place.dropLast with
  | .ok t => t.set place (.file content isProgram)
  | .error _ => t

/-- The tools, the configuration file of a directory, and the programs of a search path. -/
def readTree (root search : String) : IO FileTree := do
  let mut t := Shell.Machine.systemTree
  if let .ok made := t.makeFrom [] (FileTree.names (Utf8.ofString root)) then
    t := made
  let configuration := root ++ "/" ++ Configuration.fileName
  if let some content ← readIfThere configuration then
    t := withFile t configuration content false
  for directory in search.splitOn ":" do
    for program in programs do
      let path := (if directory.isEmpty then root else directory) ++ "/" ++ program
      if let some content ← readIfThere path then
        t := withFile t path content true
  return t

/-- Writes the files that a session has made or changed. -/
def writeChanges (before after : FileTree) : IO Unit := do
  for (names, e) in after.below [] do
    if before.get? names ≠ some e then
      let path := Utf8.lossy (Shell.bytesOfRaw (Shell.pathOf names))
      match e with
      | .directory => IO.FS.createDirAll path
      | .file content _ => IO.FS.writeBinFile path ⟨content.toArray⟩
      | .link _ => pure ()

end BuildLauncher.Main

open BuildLauncher in
/-- Runs the launcher in the working directory. -/
def main (args : List String) : IO UInt32 := do
  let out ← IO.getStdout
  let err ← IO.getStderr
  let root := toString (← IO.currentDir)
  let environment ← Main.readEnvironment
  let search := (environment.getText? (Utf8.ofString "PATH")).getD ""
  let tree ← Main.readTree root search
  let here := FileTree.names (Utf8.ofString root)
  let host : Host :=
    { environment
      recordedHome := ← Main.readRecordedHome
      workingDirectory := .ok (Utf8.ofString root)
      terminals := { out := ← out.isTty, err := ← err.isTty }
      children := (Shell.Machine.mk here []).children }
  let words := (CommandLine.programName :: args).map Utf8.ofString
  let (status, session) := (Launcher.main host words).run { tree }
  for (stream, bytes) in session.output do
    (if stream = .out then out else err).write ⟨bytes.toArray⟩
  Main.writeChanges tree session.tree
  return status.toUInt32
