import BuildLauncher.FileTree.Change
import BuildLauncher.Report
import BuildLauncher.Shell.Script

/-!
# The world of a program

What a running program can reach: the file tree, its input, and the places that its two output
streams lead to.
-/

namespace BuildLauncher.Shell

/-- Where an output stream leads. -/
inductive Sink where
  | stream (s : Stream)
  | file (place : Place)
  /-- Into a text that is being collected. -/
  | collected
  | nowhere

/-- What programs share while they run. -/
structure World where
  tree : FileTree
  /-- What has been written on the streams that the first program was given. -/
  output : List (Stream × Raw) := []
  /-- What is left of the input. -/
  input : Raw := []
  /-- The text that is being collected. -/
  collected : Raw := []

/-- What a program is started with. -/
structure Setting where
  here : Place
  environment : List Raw
  out : Sink := .stream .out
  err : Sink := .stream .err

/-- How a program ends. -/
inductive Exit where
  | code (code : Nat)
  | signal (signal : Nat)
  deriving DecidableEq

namespace World

/-- Writes to a sink. -/
def write (w : World) (sink : Sink) (text : Raw) : World :=
  if text.isEmpty then w
  else
    match sink with
    | .stream s => { w with output := w.output ++ [(s, text)] }
    | .file place => { w with tree := w.tree.append place (bytesOfRaw text) }
    | .collected => { w with collected := w.collected ++ text }
    | .nowhere => w

/-- Takes a line off the input, without its end, and whether it had one. -/
def readLine (w : World) : Raw × Bool × World :=
  let line := w.input.takeWhile (· ≠ '\n')
  match w.input.dropWhile (· ≠ '\n') with
  | _ :: rest => (line, true, { w with input := rest })
  | [] => (line, false, { w with input := [] })

/-- Takes all the input. -/
def readAll (w : World) : Raw × World := (w.input, { w with input := [] })

end World

/-- A line of output. -/
def lineOf (text : String) : Raw := rawOfBytes (Utf8.ofString text) ++ ['\n']

/-- The value of an entry `name=value` of an environment. -/
def valueIn? (environment : List Raw) (name : String) : Option Raw :=
  environment.findSome? fun entry => (name.toList ++ ['=']).isPrefixOf? entry

/-- A place as an absolute path. -/
def pathOf (place : Place) : Raw :=
  if place.isEmpty then ['/'] else place.flatMap fun name => '/' :: rawOfBytes name

end BuildLauncher.Shell
