import BuildLauncher.CommandLine.Refusal
import BuildLauncher.FileTree
import BuildLauncher.Text.Similarity

/-!
# From words to an invocation

Reads the command line: a verb with its options, an unknown command with all its words, or none.
-/

namespace BuildLauncher

/-- What the user asks the launcher to do. -/
inductive Invocation where
  | configure
  | build (manifest : Option Bytes)
  | test
  | clippy
  | rustfmt
  | unknown (words : List String)
  deriving DecidableEq

namespace Invocation

/-- Whether a cargo command is launched, and a closing line printed. -/
def launchesCargo : Invocation → Bool
  | build _ | test | clippy | rustfmt => true
  | configure | unknown _ => false

end Invocation

namespace CommandLine

/-! ## Words

A word is a long option, a short one, the mark that ends the options, or anything else. -/

/-- The hyphen that options start with. -/
def hyphen : UInt8 := 0x2D

/-- The sign between a long option and its value. -/
def equalsSign : UInt8 := 0x3D

/-- The kinds of word. -/
inductive Word where
  /-- Two hyphens alone. -/
  | separator
  /-- `--name` or `--name=value`. -/
  | long (name : Bytes) (value : Option Bytes)
  /-- A hyphen and then letters that stand for options. -/
  | short (letters : Bytes)
  /-- Anything else, a lone hyphen included. -/
  | plain

/-- What stands behind the first equals sign, if there is one. -/
def valueOf? (text : Bytes) : Option Bytes :=
  match text.dropWhile (· ≠ equalsSign) with
  | _ :: value => some value
  | [] => none

/-- The kind of a word. -/
def Word.ofBytes : Bytes → Word
  | a :: b :: rest =>
    if a = hyphen then
      if b = hyphen then
        if rest = [] then .separator
        else .long (rest.takeWhile (· ≠ equalsSign)) (valueOf? rest)
      else .short (b :: rest)
    else .plain
  | _ => .plain

/-! ## Options -/

/-- What an option word asks for on a page. -/
inductive Request where
  | help
  | version
  /-- The path of a manifest, if it is in the same word. -/
  | manifest (path : Option Bytes)
  /-- A value for an option that takes none. -/
  | surplus (value : Bytes) (flag : Flag)
  /-- A long option that the page does not have. -/
  | unknownLong (name : String)
  /-- A short option that the page does not have, as it is shown. -/
  | unknownShort (shown : String)

/-- What an option without a value in its word asks for. -/
def Request.ofFlag : Flag → Request
  | .help => .help
  | .version => .version
  | .manifestPath => .manifest none

/-- What a long option asks for. -/
def Request.ofLong (page : Page) (name : Bytes) (value : Option Bytes) : Request :=
  match (Utf8.decode? name).bind page.flagNamed? with
  | none => .unknownLong (Utf8.lossy name)
  | some flag =>
    match flag, value with
    | .manifestPath, some path => .manifest (some path)
    | flag, some value => .surplus value flag
    | flag, none => .ofFlag flag

/-- What short options ask for.  The first one decides, because none of them takes a value and all
of them end the reading. -/
def Request.ofShort (page : Page) (letters : Bytes) : Request :=
  match Utf8.pieces letters with
  | some letter :: _ =>
    match page.flagLettered? letter with
    | some flag => .ofFlag flag
    | none => .unknownShort (String.ofList ['-', letter])
  | _ => .unknownShort ("-" ++ Utf8.lossy letters)

/-! ## Suggestions -/

/-- The option that a wrong long option may have been meant for: one of the page; or, from the
launcher's own page, the manifest path, if its verb follows. -/
def suggestion (page : Page) (name : String) (following : List Bytes) : Option Tip :=
  match Text.mostSimilar name.toList (·.long.toList) page.flags with
  | some flag => some (.flag flag)
  | none =>
    if page = .launcher ∧ Utf8.ofString Verb.build.name ∈ following ∧
        Text.isSimilar name.toList Flag.manifestPath.long.toList = true then
      some (.verbFlag .build .manifestPath)
    else none

/-- The refusal of a long option that the page does not have.  The usage shows the options that have
been given and the suggested one. -/
def unknownOption (page : Page) (used : List Flag) (name : String) (following : List Bytes) :
    Refusal :=
  let tip := suggestion page name following
  { cause := .unexpectedWord ("--" ++ name) tip
    page
    used :=
      match tip with
      | some (.flag flag) => if flag ∈ used then used else used ++ [flag]
      | _ => used }

/-! ## The words of a verb -/

/-- What is known of the manifest path. -/
structure Progress where
  /-- The path that has been accepted. -/
  path : Option Bytes := none
  /-- Whether the option counts as given. -/
  isGiven : Bool := false
  /-- The option whose value is not settled: `some none` while the value is still to come. -/
  pending : Option (Option Bytes) := none

namespace Progress

/-- The options that count as given. -/
def used (p : Progress) : List Flag := if p.isGiven then [.manifestPath] else []

/-- Settles the pending option: what is wrong with it, if anything, and what is known afterwards.
An option that comes twice counts as not given. -/
def settle (p : Progress) : Option Cause × Progress :=
  match p.pending with
  | none => (none, p)
  | some none => (some (.missingValue .manifestPath), { p with pending := none })
  | some (some path) =>
    if p.isGiven then (some (.repeated .manifestPath), {})
    else if path = [] then (some (.missingValue .manifestPath), { isGiven := true })
    else (none, { path, isGiven := true })

end Progress

/-- Settles the pending option and goes on, unless something is wrong with it. -/
def settled {α : Type} (page : Page) (p : Progress) (next : Progress → Except Refusal α) :
    Except Refusal α :=
  match p.settle with
  | (some cause, _) => .error { cause, page }
  | (none, p) => next p

/-- The refusal of a word that is no option. -/
def unexpected (page : Page) (word : String) : Refusal :=
  { cause := .unexpectedWord word none, page }

/-- Reads the words behind a verb and gives the manifest path. -/
def readOptions (page : Page) (p : Progress) : List Bytes → Except Refusal (Option Bytes)
  | [] => settled page p fun p => .ok p.path
  | word :: rest =>
    let request? : Option Request :=
      match Word.ofBytes word with
      | .long name value => some (.ofLong page name value)
      | .short letters => some (.ofShort page letters)
      | .separator | .plain => none
    match request? with
    | some .help => settled page p fun _ => .error { cause := .help, page }
    | some .version => settled page p fun _ => .error { cause := .version, page }
    | some (.manifest none) =>
      settled page p fun p => readOptions page { p with pending := some none } rest
    | some (.manifest (some path)) =>
      settled page p fun p =>
        settled page { p with pending := some (some path) } fun p => readOptions page p rest
    | some (.surplus value flag) =>
      .error { cause := .unexpectedValue (Utf8.lossy value) flag, page, used := p.used ++ [flag] }
    | some (.unknownLong name) => .error (unknownOption page p.settle.2.used name rest)
    | some (.unknownShort shown) => .error (unexpected page shown)
    | none =>
      match Word.ofBytes word with
      | .separator =>
        match rest with
        | [] => settled page p fun p => .ok p.path
        | word :: _ => .error (unexpected page (Utf8.lossy word))
      | _ =>
        if p.pending = some none then readOptions page { p with pending := some (some word) } rest
        else .error (unexpected page (Utf8.lossy word))

/-! ## The whole command line -/

/-- A command that the launcher does not know, with all its words. -/
def unknownCommand (words : List Bytes) : Except Refusal (Option Invocation) :=
  match words.mapM Utf8.decode? with
  | some words => .ok (some (.unknown words))
  | none => .error { cause := .notUtf8, page := .launcher }

/-- The invocation that a verb and the words behind it spell. -/
def readVerb (v : Verb) (words : List Bytes) : Except Refusal (Option Invocation) :=
  (readOptions (.verb v) {} words).map fun manifest =>
    some (match v with
      | .configure => .configure
      | .build => .build manifest
      | .test => .test
      | .clippy => .clippy
      | .rustfmt => .rustfmt)

/-- Reads the words behind the program's name.  The first one decides what the others mean. -/
def readWords : List Bytes → Except Refusal (Option Invocation)
  | [] => .ok none
  | word :: rest =>
    match Word.ofBytes word with
    | .separator => if rest = [] then .ok none else unknownCommand rest
    | .plain =>
      match Verb.ofWord? word with
      | some v => readVerb v rest
      | none => unknownCommand (word :: rest)
    | .long _ _ | .short _ => (readOptions .launcher {} (word :: rest)).map fun _ => none

/-- The verb that asks for the help of the launcher, whatever follows it. -/
def helpWord : Bytes := Utf8.ofString "help"

/-- The option that asks for help. -/
def helpOption : Bytes := Utf8.ofString "--help"

/-- Puts the option in place of the verb that asks for help. -/
def normalize (args : List Bytes) : List Bytes :=
  match args with
  | program :: word :: _ => if word = helpWord then [program, helpOption] else args
  | _ => args

/-- Reads a whole command line, the program's name first. -/
def read (args : List Bytes) : Except Refusal (Option Invocation) := readWords (normalize args).tail

/-! ## The program's name -/

/-- The last name of a path, leaving out slashes and names of the directory itself at its end. -/
def lastName? (path : Bytes) : Option Bytes :=
  let names := (path.splitOn Path.slash).filter fun name => name ≠ [] ∧ name ≠ [0x2E]
  match names.getLast? with
  | some name => if name = [0x2E, 0x2E] then none else some name
  | none => none

/-- The name that the program was called by, if it has one in UTF-8. -/
def binName? (args : List Bytes) : Option String :=
  (args.head?.bind lastName?).bind Utf8.decode?

end CommandLine

end BuildLauncher
