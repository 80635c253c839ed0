import BuildLauncher.Environment
import BuildLauncher.FileTree
import BuildLauncher.Report
import BuildLauncher.Text.Characters

/-!
# Launching programs

What a child process is given and how it ends.  How children behave is a parameter everywhere: a
function of the file tree and the launch.
-/

namespace BuildLauncher

/-- What a child is launched for. -/
inductive Launch.Role where
  /-- To answer a question: its output is collected. -/
  | query
  /-- To do a step: it shares the streams of the launcher. -/
  | step
  deriving DecidableEq

/-- What a child is given.  The first word names the program. -/
structure Launch where
  argv : List String
  environment : Environment
  /-- The directory it starts in, unless it is that of the launcher. -/
  directory : Option Bytes := none
  role : Launch.Role
  deriving DecidableEq

/-- How a child ends. -/
inductive Ending where
  | exited (code : UInt8)
  | signalled (signal : Nat)
  | notStarted (reason : String)
  deriving DecidableEq

/-- What is seen of a child: how it ends, and what it writes on either stream, in order. -/
structure Outcome where
  ending : Ending
  output : List (Stream × Bytes) := []

/-- How every launch ends, and the file tree afterwards. -/
abbrev Children := FileTree → Launch → Outcome × FileTree

namespace Launch

/-- The command line as it is shown. -/
def commandLine (argv : List String) : String := " ".intercalate argv

/-- A program's name with a suffix, unless it ends with it already. -/
def withSuffix (program suffix : String) : String :=
  if suffix.toList.isSuffixOf program.toList then program else program ++ suffix

/-- The environment as a child gets it: one entry `key=value` for each variable. -/
def entries (l : Launch) : List Bytes := l.environment.toList.map fun e => e.1 ++ 0x3D :: e.2

/-- Whether anything that is passed on has a NUL byte in it. -/
def hasNul (l : Launch) : Bool :=
  l.argv.any (fun word => (Utf8.ofString word).contains 0) ||
    l.environment.toList.any (fun e => e.1.contains 0 || e.2.contains 0) ||
    (l.directory.getD []).contains 0

/-- Launches a child.  One that would be passed a NUL byte does not start. -/
def perform (children : Children) (t : FileTree) (l : Launch) : Outcome × FileTree :=
  if l.hasNul then ({ ending := .notStarted nulInLaunch }, t) else children t l

end Launch

namespace Outcome

/-- What a child wrote on one stream. -/
def written (o : Outcome) (stream : Stream) : Bytes :=
  (o.output.filter (·.1 = stream)).flatMap (·.2)

/-- The answer to a query: what a child that exits with success writes on its standard output,
unless that is white space alone. -/
def answer? (o : Outcome) : Option String :=
  if o.ending = .exited 0 then
    let chars := Text.trim (Utf8.lossyChars (o.written .out))
    if chars = [] then none else some (String.ofList chars)
  else none

/-- What is wrong with the way a command ended, if anything. -/
def failure? (o : Outcome) (command : String) : Option Failure.CommandDetails :=
  match o.ending with
  | .exited code =>
    if code = 0 then none else some { command, exitCode := some (Int32.ofNat code.toNat) }
  | .signalled _ => some { command }
  | .notStarted reason => some { command, launchError := some reason }

end Outcome

end BuildLauncher
