import BuildLauncher.Shell.Printf
import BuildLauncher.Shell.World

/-!
# Tools

The small programs of the system that scripts use.  Each reads its words and works on the world.
-/

namespace BuildLauncher.Shell

/-! ## Tests -/

/-- The number that a text spells. -/
def integer? (cs : Raw) : Option Int := (String.ofList cs).toInt?

/-- A test of one operand. -/
def testUnary (w : World) (here : Place) (op : String) (operand : Raw) : Option Bool :=
  let standing : Option Entry :=
    match w.tree.resolve here (bytesOfRaw operand) with
    | .ok place => w.tree.get? place
    | .error _ => none
  match op with
  | "-n" => some !operand.isEmpty
  | "-z" => some operand.isEmpty
  | "-e" | "-r" | "-w" => some standing.isSome
  | "-f" => some (match standing with
    | some (.file _ _) => true
    | _ => false)
  | "-d" => some (standing = some .directory)
  | "-x" => some (match standing with
    | some (.file _ isProgram) => isProgram
    | some .directory => true
    | _ => false)
  | "-s" => some (match standing with
    | some (.file content _) => !content.isEmpty
    | some _ => true
    | none => false)
  | "-h" | "-L" =>
    some (match w.tree.ownPlace here (bytesOfRaw operand) with
    | .ok place => match w.tree.get? place with
      | some (.link _) => true
      | _ => false
    | .error _ => false)
  | "-t" => some false
  | _ => none

/-- A test of two operands. -/
def testBinary (left : Raw) (op : String) (right : Raw) : Option Bool :=
  match op with
  | "=" | "==" => some (left == right)
  | "!=" => some (left != right)
  | "<" => some (left < right)
  | ">" => some (right < left)
  | _ => do
    let compare ← match op with
      | "-eq" => some fun (a b : Int) => a == b
      | "-ne" => some fun a b => a != b
      | "-lt" => some fun a b => a < b
      | "-le" => some fun a b => a ≤ b
      | "-gt" => some fun a b => b < a
      | "-ge" => some fun a b => b ≤ a
      | _ => none
    some (compare (← integer? left) (← integer? right))

/-- The value of a test, by the number of its words; `none` when they are no test. -/
def testWords (w : World) (here : Place) : Nat → List Raw → Option Bool
  | 0, _ => none
  | fuel + 1, words =>
    match words with
    | [] => some false
    | [operand] => some !operand.isEmpty
    | [op, operand] =>
      if op = ['!'] then (testWords w here fuel [operand]).map (!·)
      else testUnary w here (String.ofList op) operand
    | [left, op, right] =>
      match testBinary left (String.ofList op) right with
      | some b => some b
      | none => if left = ['!'] then (testWords w here fuel [op, right]).map (!·) else none
    | word :: rest => if word = ['!'] then (testWords w here fuel rest).map (!·) else none

/-- The exit code of a test. -/
def testCode (w : World) (here : Place) (words : List Raw) : Nat :=
  match testWords w here (words.length + 2) words with
  | some true => 0
  | some false => 1
  | none => 2

/-! ## Files -/

namespace World

/-- Reports an error of a tool with a file; `about` says what the tool was doing with it. -/
def complain (w : World) (s : Setting) (tool about : Raw) (e : FileError) : World :=
  let text := match e with
    | .system e => e.text
    | e => e.message
  w.write s.err (tool ++ ": ".toList ++ about ++ ": ".toList ++ lineOf text)

/-- A path between quotes, behind what is done with it. -/
def quoting (doing : String) (path : Raw) : Raw := doing.toList ++ '\x27' :: path ++ ['\x27']

/-- Does something to the tree for every path, and reports the errors. -/
def forPaths (w : World) (s : Setting) (tool : Raw) (doing : String) (paths : List Raw)
    (change : FileTree → Bytes → Except FileError FileTree) : Exit × World :=
  paths.foldl (fun (exit, w) path =>
    match change w.tree (bytesOfRaw path) with
    | .ok tree => (exit, { w with tree })
    | .error e => (.code 1, w.complain s tool (quoting doing path) e)) (.code 0, w)

/-- Writes the content of every file, or the input for a hyphen. -/
def concatenate (w : World) (s : Setting) (paths : List Raw) : Exit × World :=
  paths.foldl (fun (exit, w) path =>
    if path = ['-'] then
      let (text, w) := w.readAll
      (exit, w.write s.out text)
    else
      match w.tree.read s.here (bytesOfRaw path) with
      | .ok content => (exit, w.write s.out (rawOfBytes content))
      | .error e => (.code 1, w.complain s "cat".toList path e)) (.code 0, w)

/-- Writes the names in a directory, or the path of anything else. -/
def list (w : World) (s : Setting) (hidden : Bool) (path : Raw) : Exit × World :=
  match w.tree.resolve s.here (bytesOfRaw path) with
  | .error e => (.code 2, w.complain s "ls".toList (quoting "cannot access " path) e)
  | .ok place =>
    if w.tree.get? place = some .directory then
      let names := (w.tree.namesWithin place).map rawOfBytes
      let names := if hidden then names else names.filter (·.head? ≠ some '.')
      (.code 0, w.write s.out (names.flatMap (· ++ ['\n'])))
    else (.code 0, w.write s.out (path ++ ['\n']))

/-- Makes a file that is not there yet. -/
def touch (t : FileTree) (here : Place) (path : Bytes) : Except FileError FileTree :=
  if t.pathExists here path then .ok t else t.write here path []

end World

/-! ## All of them -/

/-- Words that start with a hyphen, and the others. -/
def options (words : List Raw) : List Raw × List Raw :=
  words.partition fun word => word.head? = some '-' ∧ word ≠ ['-']

/-- Runs a tool that starts no other program; `none` if there is no such tool. -/
def runTool (w : World) (s : Setting) (tool : Raw) (words : List Raw) : Option (Exit × World) :=
  let done (w : World) : Option (Exit × World) := some (.code 0, w)
  match String.ofList tool with
  | "true" => done w
  | "false" => some (.code 1, w)
  | "echo" =>
    let (lineEnd, words) := match words with
      | ['-', 'n'] :: words => ([], words)
      | words => (['\n'], words)
    done (w.write s.out ([' '].intercalate words ++ lineEnd))
  | "printf" =>
    match words with
    | format :: arguments => done (w.write s.out (printf (arguments.length + 1) format arguments))
    | [] => some (.code 2, w)
  | "test" => some (.code (testCode w s.here words), w)
  | "[" =>
    if words.getLast? = some [']'] then some (.code (testCode w s.here words.dropLast), w)
    else some (.code 2, w)
  | "pwd" => done (w.write s.out (pathOf s.here ++ ['\n']))
  | "cat" =>
    let paths := (options words).2
    some (w.concatenate s (if paths.isEmpty then [['-']] else paths))
  | "ls" =>
    let (flags, paths) := options words
    let hidden := flags.any (·.contains 'a') || flags.any (·.contains 'A')
    some ((if paths.isEmpty then [['.']] else paths).foldl (fun (exit, w) path =>
      let (next, w) := w.list s hidden path
      (if next = .code 0 then exit else next, w)) (.code 0, w))
  | "mkdir" =>
    some (w.forPaths s tool "cannot create directory " (options words).2 fun t path =>
      t.makeDirectories s.here path)
  | "touch" =>
    some (w.forPaths s tool "cannot touch " (options words).2 fun t path =>
      World.touch t s.here path)
  | "rm" =>
    let (flags, paths) := options words
    let (exit, w') := w.forPaths s tool "cannot remove " paths fun t path =>
      t.remove s.here path
    if flags.any (·.contains 'f') then
      done { w' with output := w.output, collected := w.collected }
    else some (exit, w')
  | _ => none

/-- The tools that a system has, the shell included. -/
def toolNames : List String :=
  ["sh", "dash", "env", "true", "false", "echo", "printf", "test", "[", "pwd", "cat", "ls",
    "mkdir", "touch", "rm"]

end BuildLauncher.Shell
