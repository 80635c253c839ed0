import BuildLauncher.Shell.World

/-!
# Programs

What a file must be to be started, and where programs are looked for.  A file is a program of the
system, or names on its first line the program that interprets it, or is none.
-/

namespace BuildLauncher.Shell

/-- What starts. -/
structure Program where
  /-- The name of the program of the system. -/
  tool : Raw
  /-- Its words, its own name first. -/
  argv : List Raw

namespace Program

/-- What the content of a program of the system starts with; its name follows. -/
def magic : Bytes := [0x7F, 0x45, 0x4C, 0x46]

/-- The content of a program of the system. -/
def image (tool : String) : Bytes := magic ++ Utf8.ofString tool

/-- The most files that interpret one another. -/
def maxInterpreters : Nat := 5

/-- The interpreter that the first line of a content names, and its argument if there is one. -/
def interpreter? (content : Raw) : Option (Raw × Option Raw) :=
  match content with
  | '#' :: '!' :: rest =>
    let isBlank (c : Char) : Bool := c == ' ' || c == '\t'
    let line := (rest.takeWhile (· ≠ '\n')).take 253
    let line := ((line.dropWhile isBlank).reverse.dropWhile isBlank).reverse
    let name := line.takeWhile (!isBlank ·)
    let argument := (line.dropWhile (!isBlank ·)).dropWhile isBlank
    if name.isEmpty then none else some (name, if argument.isEmpty then none else some argument)
  | _ => none

/-- The program that a path leads to, with its words; the path stands for the first of the given
ones where an interpreter gets it. -/
def load (t : FileTree) (here : Place) : Nat → Raw → List Raw → Except SystemError Program
  | 0, _, _ => .error .tooManyLinks
  | fuel + 1, path, argv => do
    let place ←
      match t.resolve here (bytesOfRaw path) with
      | .ok place => .ok place
      | .error (.system e) => .error e
      | .error _ => .error .notFound
    match t.get? place with
    | some (.file content true) =>
      match magic.isPrefixOf? content with
      | some tool => .ok { tool := rawOfBytes tool, argv }
      | none =>
        match interpreter? (rawOfBytes content) with
        | none => .error .notAProgram
        | some (name, argument) =>
          load t here fuel name (name :: argument.toList ++ path :: argv.drop 1)
    | _ => .error .permissionDenied

/-- The directories that programs are looked for in, when no variable says so. -/
def defaultSearch : Raw := "/bin:/usr/bin".toList

/-- Starts a file that is no program as a script of the shell. -/
def loadAsScript (t : FileTree) (here : Place) (path : Raw) (argv : List Raw) :
    Except SystemError Program :=
  load t here maxInterpreters "/bin/sh".toList ("/bin/sh".toList :: path :: argv.drop 1)

/-- Looks for a program in one directory after the other.  A file that may not be started is
remembered, and the search goes on; so it does when there is nothing.  A directory with a path that
is too long is left out. -/
def search (t : FileTree) (here : Place) (asScript : Bool) (argv : List Raw) (name : Raw)
    (refused : Bool) (last : SystemError) : List Raw → Except SystemError Program
  | [] => .error (if refused then .permissionDenied else last)
  | directory :: rest =>
    let path := if directory.isEmpty then name else directory ++ '/' :: name
    let found :=
      if FileTree.maxPath ≤ directory.length then .error last
      else load t here maxInterpreters path argv
    match found with
    | .ok program => .ok program
    | .error .notAProgram =>
      if asScript then loadAsScript t here path argv else .error .notAProgram
    | .error .permissionDenied => search t here asScript argv name true .permissionDenied rest
    | .error .notFound => search t here asScript argv name refused .notFound rest
    | .error .notADirectory => search t here asScript argv name refused .notADirectory rest
    | .error e => .error e

/-- Which files that are no programs are started as scripts. -/
inductive Leniency where
  | none
  /-- Those that have been looked for. -/
  | searched
  | all
  deriving DecidableEq

/-- Finds the program that words start: by its path when its name has a slash in it, else by looking
through the directories of a search path. -/
def find (t : FileTree) (here : Place) (searchPath : Option Raw) (leniency : Leniency)
    (argv : List Raw) : Except SystemError Program :=
  match argv with
  | [] => .error .notFound
  | name :: _ =>
    if name.contains '/' then
      match load t here maxInterpreters name argv with
      | .error .notAProgram =>
        if leniency = .all then loadAsScript t here name argv else .error .notAProgram
      | found => found
    else if name.isEmpty then .error .notFound
    else if FileTree.maxName < name.length then .error .nameTooLong
    else
      search t here (leniency ≠ .none) argv name false .notFound
        ((searchPath.getD defaultSearch).splitOn ':')

end Program

end BuildLauncher.Shell
