import BuildLauncher.Shell.State

/-!
# Commands of the shell itself

Those that change the shell or end it, and those that every shell has built in for speed.
-/

namespace BuildLauncher.Shell

/-- The signals by name. -/
def signalNames : List (String × Nat) :=
  [("HUP", 1), ("INT", 2), ("QUIT", 3), ("ILL", 4), ("TRAP", 5), ("ABRT", 6), ("BUS", 7),
    ("FPE", 8), ("KILL", 9), ("USR1", 10), ("SEGV", 11), ("USR2", 12), ("PIPE", 13), ("ALRM", 14),
    ("TERM", 15), ("CHLD", 17), ("CONT", 18), ("STOP", 19), ("URG", 23), ("WINCH", 28)]

/-- The signals that do not end a process. -/
def harmlessSignals : List Nat := [0, 17, 18, 23, 28]

/-- The number of a signal, given by number or name. -/
def signal? (cs : Raw) : Option Nat :=
  match (String.ofList cs).toNat? with
  | some n => some n
  | none =>
    let name := String.ofList cs
    let name := if name.startsWith "SIG" then (name.drop 3).toString else name
    (signalNames.find? (·.1 = name)).map (·.2)

namespace State

/-- The shell after a command with the given exit code. -/
def ended (s : State) (code : Nat) : State := { s with status := code }

/-- Sends a signal to processes, of which only the shell itself is known. -/
def kill (s : State) (words : List Raw) : State :=
  let (number, targets) :=
    match words with
    | ['-', 's'] :: name :: rest => (signal? name, rest)
    | ('-' :: name) :: rest => (signal? name, rest)
    | rest => (some 15, rest)
  match number with
  | none => s.ended 2
  | some n =>
    if targets.contains processNumber then
      if harmlessSignals.contains n then s.ended 0 else { s with flow := some (.killed n) }
    else (s.complain "kill: No such process\n".toList).ended 1

/-- The fields of a line, of which the last takes what is left. -/
def lineFields : Nat → Raw → List Raw
  | 0, _ => []
  | 1, line =>
    [((line.dropWhile isSeparator).reverse.dropWhile isSeparator).reverse]
  | n + 2, line =>
    let line := line.dropWhile isSeparator
    line.takeWhile (!isSeparator ·) ::
      lineFields (n + 1) (line.dropWhile (!isSeparator ·))

/-- A line with its backslashes carried out. -/
def unslashed : Raw → Raw
  | '\\' :: c :: rest => c :: unslashed rest
  | c :: rest => c :: unslashed rest
  | [] => []

/-- Reads a line into variables. -/
def read (s : State) (words : List Raw) : State :=
  let (plain, names) := words.partition (·.head? = some '-')
  let names := if names.isEmpty then ["REPLY".toList] else names
  let (line, whole, world) := s.world.readLine
  let line := if plain.any (·.contains 'r') then line else unslashed line
  let s := { s with world }
  let s := (names.zip (lineFields names.length line)).foldl (fun s (name, value) =>
    s.set name value) s
  s.ended (if whole then 0 else 1)

/-- Goes to another directory. -/
def changeDirectory (s : State) (words : List Raw) : State :=
  let path := words.headD ((s.value? "HOME".toList).getD [])
  match s.world.tree.resolve s.setting.here (bytesOfRaw path) with
  | .ok place =>
    if s.world.tree.get? place = some .directory then
      let old := (s.value? "PWD".toList).getD []
      let s := { s with setting := { s.setting with here := place } }
      ((s.set "OLDPWD".toList old).set "PWD".toList (pathOf place)).ended 0
    else (s.complain ("cd: can't cd to ".toList ++ path)).ended 2
  | .error _ => (s.complain ("cd: can't cd to ".toList ++ path)).ended 2

/-- Exports variables, each perhaps with a value. -/
def exportAll (s : State) (words : List Raw) : State :=
  (words.foldl (fun s word =>
    let name := word.takeWhile (· ≠ '=')
    let s := if name.length < word.length then s.set name (word.drop (name.length + 1)) else s
    s.exportVariable name) s).ended 0

/-- The exit code that a word gives, and whether it is a number. -/
def exitCode (s : State) (words : List Raw) : Option Nat :=
  match words with
  | [] => some s.status
  | word :: _ => if word.all Char.isDigit ∧ word ≠ [] then
      some (Nat.ofDigitChars 10 word 0 % 256) else none

/-- Leaves the shell with the exit code that a word gives. -/
def leave (s : State) (words : List Raw) : State :=
  match s.exitCode words with
  | some code => { s.ended code with flow := some (.exit code) }
  | none =>
    { (s.complain ("exit: Illegal number: ".toList ++ words.headD [])).ended 2 with
      flow := some (.exit 2) }

/-- Carries out a command of the shell itself that runs no other commands; `none` if there is no
such command. -/
def builtin? (s : State) (name : Raw) (words : List Raw) : Option State :=
  let done (s : State) : Option State := some (s.ended 0)
  match String.ofList name with
  | ":" | "true" => done s
  | "false" => some (s.ended 1)
  | "echo" => done (s.write (echo words))
  | "printf" =>
    match words with
    | format :: arguments => done (s.write (printf (arguments.length + 1) format arguments))
    | [] => some ((s.complain "printf: usage: printf format [arg ...]".toList).ended 2)
  | "test" => some (s.ended (testCode s.world s.setting.here words))
  | "[" =>
    if words.getLast? = some [']'] then
      some (s.ended (testCode s.world s.setting.here words.dropLast))
    else some ((s.complain "[: missing ]".toList).ended 2)
  | "pwd" => done (s.write (pathOf s.setting.here ++ ['\n']))
  | "cd" => some (s.changeDirectory words)
  | "exit" => some (s.leave words)
  | "kill" => some (s.kill words)
  | "read" => some (s.read words)
  | "export" => some (s.exportAll (words.filter (·.head? ≠ some '-')))
  | "unset" => done ((words.filter (·.head? ≠ some '-')).foldl (·.unset ·) s)
  | _ => none

end State

end BuildLauncher.Shell
