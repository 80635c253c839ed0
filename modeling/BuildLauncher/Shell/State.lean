import BuildLauncher.Shell.Tool

/-!
# The state of a shell

Variables, positional parameters and the way out of the commands that are running; the patterns of
file names and of choices; and the splitting of expanded words into fields.
-/

namespace BuildLauncher.Shell

/-- What keeps the commands that follow from being carried out. -/
inductive Flow where
  | exit (code : Nat)
  | killed (signal : Nat)

/-- A variable. -/
structure Variable where
  value : Raw
  exported : Bool

/-- A running shell. -/
structure State where
  world : World
  setting : Setting
  bindings : List (Raw × Variable) := []
  /-- What the shell is called. -/
  name : Raw
  parameters : List Raw := []
  /-- The exit code of the last command. -/
  status : Nat := 0
  flow : Option Flow := none

namespace State

/-- The value of a variable. -/
def value? (s : State) (name : Raw) : Option Raw :=
  (s.bindings.find? (·.1 = name)).map (·.2.value)

/-- Gives a variable a value; an exported one stays exported. -/
def set (s : State) (name value : Raw) : State :=
  match s.bindings.find? (·.1 = name) with
  | some (_, v) =>
    { s with bindings := s.bindings.map fun e =>
        if e.1 = name then (name, { v with value }) else e }
  | none => { s with bindings := s.bindings ++ [(name, { value, exported := false })] }

/-- Exports a variable. -/
def exportVariable (s : State) (name : Raw) : State :=
  match s.bindings.find? (·.1 = name) with
  | some _ =>
    { s with bindings := s.bindings.map fun e =>
        if e.1 = name then (name, { e.2 with exported := true }) else e }
  | none => { s with bindings := s.bindings ++ [(name, { value := [], exported := true })] }

/-- Takes a variable away. -/
def unset (s : State) (name : Raw) : State :=
  { s with bindings := s.bindings.filter (·.1 ≠ name) }

/-- The environment that programs get. -/
def exportedEnvironment (s : State) : List Raw :=
  s.bindings.filterMap fun (name, v) => if v.exported then some (name ++ '=' :: v.value) else none

/-- Writes to the standard output. -/
def write (s : State) (text : Raw) : State :=
  { s with world := s.world.write s.setting.out text }

/-- Reports an error. -/
def complain (s : State) (text : Raw) : State :=
  { s with world := s.world.write s.setting.err (s.name ++ ": 1: ".toList ++ text ++ ['\n']) }

/-- Where a shell looks for programs that was not told where. -/
def defaultPath : Raw := "/usr/local/sbin:/usr/local/bin:/usr/sbin:/usr/bin:/sbin:/bin".toList

/-- A shell that starts with an environment. -/
def start (world : World) (setting : Setting) (name : Raw) (parameters : List Raw) : State :=
  let s : State := { world, setting, name, parameters }
  let s := setting.environment.foldl (fun s entry =>
    let name := entry.takeWhile (· ≠ '=')
    if isName name ∧ name.length < entry.length then
      (s.set name (entry.drop (name.length + 1))).exportVariable name
    else s) s
  let s := if (s.value? "PATH".toList).isNone then s.set "PATH".toList defaultPath else s
  (s.set "PWD".toList (pathOf setting.here)).exportVariable "PWD".toList

/-- The number of the process of the shell. -/
def processNumber : Raw := "4242".toList

/-- The value of a parameter that stands for one text. -/
def parameter? (s : State) (name : Raw) : Option Raw :=
  match name with
  | ['#'] => some (Nat.toDigits 10 s.parameters.length)
  | ['?'] => some (Nat.toDigits 10 s.status)
  | ['$'] => some processNumber
  | ['!'] => none
  | ['-'] => some []
  | ['*'] | ['@'] => if s.parameters.isEmpty then none else some ([' '].intercalate s.parameters)
  | c :: _ =>
    if c.isDigit then
      let n := Nat.ofDigitChars 10 name 0
      if n = 0 then some s.name else s.parameters[n - 1]?
    else s.value? name
  | [] => none

end State

/-! ## Patterns -/

/-- A character of a word that has been expanded, and whether it stands for itself alone. -/
abbrev Marked := Char × Bool

/-- Whether some end of a text satisfies a test, the whole text included. -/
def anyEnd (test : Raw → Bool) : Raw → Bool
  | [] => test []
  | c :: rest => test (c :: rest) || anyEnd test rest

/-- Whether a marked text, as a pattern, matches a whole text. -/
def matchesPattern : List Marked → Raw → Bool
  | [], cs => cs.isEmpty
  | ('*', false) :: pattern, cs => anyEnd (matchesPattern pattern) cs
  | ('?', false) :: pattern, _ :: rest => matchesPattern pattern rest
  | (c, _) :: pattern, d :: rest => c == d && matchesPattern pattern rest
  | _ :: _, [] => false

/-- Whether a marked text has a character that makes it a pattern. -/
def isPattern (cs : List Marked) : Bool :=
  cs.any fun (c, quoted) => !quoted && (c == '*' || c == '?')

/-! ## Fields -/

/-- An element of an expanded word. -/
inductive Piece where
  /-- A character; `quoted` ones are not part of a pattern, `split` ones may separate fields. -/
  | char (c : Char) (quoted split : Bool)
  /-- A mark that keeps an empty field. -/
  | keep
  /-- The end of a field. -/
  | cut

/-- The characters that separate fields. -/
def isSeparator (c : Char) : Bool := c == ' ' || c == '\t' || c == '\n'

/-- The fields of an expanded word; `field` holds the one that has begun, if any, backwards. -/
def fieldsFrom (field : Option (List Marked)) : List Piece → List (List Marked)
  | [] => (field.map List.reverse).toList
  | .keep :: rest => fieldsFrom (some (field.getD [])) rest
  | .cut :: rest => (field.map List.reverse).toList ++ fieldsFrom none rest
  | .char c quoted split :: rest =>
    if split ∧ isSeparator c then (field.map List.reverse).toList ++ fieldsFrom none rest
    else fieldsFrom (some ((c, quoted) :: field.getD [])) rest

/-- The characters of an expanded word that is not split. -/
def joined (pieces : List Piece) : List Marked :=
  pieces.filterMap fun
    | .char c quoted _ => some (c, quoted)
    | .keep => none
    | .cut => some (' ', true)

/-- The paths that a pattern matches, name by name; `done` is the path so far with its slash. -/
def matchingPaths (t : FileTree) (here : Place) : Raw → List (List Marked) → List Raw
  | _, [] => []
  | done, segment :: rest =>
    let text := segment.map (·.1)
    let found : List Raw :=
      if isPattern segment then
        let directory := if done.isEmpty then ['.'] else done
        match t.resolve here (bytesOfRaw directory) with
        | .ok place =>
          ((t.namesWithin place).map rawOfBytes).filter fun name =>
            (name.head? ≠ some '.' ∨ text.head? = some '.') ∧ matchesPattern segment name
        | .error _ => []
      else [text]
    match rest with
    | [] => (found.map (done ++ ·)).filter fun path =>
        isPattern segment || t.pathExists here (bytesOfRaw path)
    | rest => found.flatMap fun name => matchingPaths t here (done ++ name ++ ['/']) rest

/-- A field as the words it stands for: the paths that it matches as a pattern, or else itself. -/
def wordsOf (t : FileTree) (here : Place) (field : List Marked) : List Raw :=
  let text := field.map (·.1)
  if isPattern field then
    let found := matchingPaths t here [] (field.splitOnP (·.1 = '/'))
    if found.isEmpty then [text] else found
  else [text]

end BuildLauncher.Shell
