import BuildLauncher.Report
import BuildLauncher.Text.Characters
import BuildLauncher.Text.Utf8

/-!
# Pages of the command line

The launcher's own command line and that of each of its verbs: which options it has, what its help
says and how its usage is written.
-/

namespace BuildLauncher.CommandLine

/-- The name of the program, for a caller who does not give one. -/
def programName : String := "x"

/-- The version of the program. -/
def programVersion : String := "0.3.0"

/-- The verbs that the launcher knows. -/
inductive Verb where
  | configure
  | build
  | test
  | clippy
  | rustfmt
  deriving DecidableEq

/-- The name of a verb. -/
def Verb.name : Verb → String
  | configure => "configure"
  | build => "build"
  | test => "test"
  | clippy => "clippy"
  | rustfmt => "rustfmt"

/-- What a verb does. -/
def Verb.about : Verb → String
  | configure => "Create buildconf.toml with the default configuration"
  | build => "Compile everything in release mode"
  | test => "Run the test suite"
  | clippy => "Run clippy over the workspace"
  | rustfmt => "Check formatting with rustfmt"

/-- The verb that a word names. -/
def Verb.ofWord? (word : Bytes) : Option Verb :=
  match Utf8.decode? word with
  | some "configure" => some configure
  | some "build" | some "make" => some build
  | some "test" => some test
  | some "clippy" => some clippy
  | some "rustfmt" => some rustfmt
  | _ => none

/-- The options. -/
inductive Flag where
  | help
  | version
  | manifestPath
  deriving DecidableEq

/-- The long name of an option, behind its two hyphens. -/
def Flag.long : Flag → String
  | help => "help"
  | version => "version"
  | manifestPath => "manifest-path"

/-- The one letter that stands for an option, if there is one. -/
def Flag.letter? : Flag → Option Char
  | help => some 'h'
  | version => some 'V'
  | manifestPath => none

/-- How an option is written in a usage, its value included. -/
def Flag.written (flag : Flag) : String :=
  "--" ++ flag.long ++ (if flag = manifestPath then " <PATH>" else "")

/-- A page: the launcher's own, or that of a verb. -/
inductive Page where
  | launcher
  | verb (v : Verb)
  deriving DecidableEq

namespace Page

/-- The options of a page. -/
def flags : Page → List Flag
  | launcher => [.help, .version]
  | verb .build => [.manifestPath, .help]
  | verb _ => [.help]

/-- The option of a page that has the given long name. -/
def flagNamed? (page : Page) (long : String) : Option Flag :=
  page.flags.find? (·.long = long)

/-- The option of a page that the given letter stands for. -/
def flagLettered? (page : Page) (letter : Char) : Option Flag :=
  page.flags.find? (·.letter? = some letter)

/-- What comes before the options in a usage: the name that the program was called by, as far as it
is known, and the verb. -/
def caller (bin : Option String) : Page → String
  | launcher => bin.getD programName
  | verb v =>
    match bin with
    | some bin => bin ++ " " ++ v.name
    | none => v.name

/-- What stands for everything that may follow. -/
def operands : Page → List String
  | launcher => ["[COMMAND]"]
  | verb .build => ["[OPTIONS]"]
  | verb _ => []

/-- The usage of a page: with the given options, or else with what stands for all of them. -/
def usage (bin : Option String) (page : Page) (used : List Flag) : String :=
  let rest := if used = [] then page.operands else used.map Flag.written
  "Usage: " ++ " ".intercalate (Text.printable (page.caller bin) :: rest)

/-- What the help of a page says besides its usage, before and behind it. -/
def helpParts : Page → String × String
  | launcher =>
    ("Bootstrap launcher for the HarTex build",
      "Commands:\n" ++
      "  configure  Create buildconf.toml with the default configuration\n" ++
      "  build      Compile everything in release mode [alias: make]\n" ++
      "  test       Run the test suite\n" ++
      "  clippy     Run clippy over the workspace\n" ++
      "  rustfmt    Check formatting with rustfmt\n" ++
      "  help       Print this message or the help of the given subcommand(s)\n\n" ++
      "Options:\n" ++
      "  -h, --help     Print help\n" ++
      "  -V, --version  Print version\n")
  | verb .build =>
    (Verb.build.about,
      "Options:\n" ++
      "      --manifest-path <PATH>  " ++
      "Build the bootstrap tooling from this manifest instead of the project\n" ++
      "  -h, --help                  Print help\n")
  | verb v => (v.about, "Options:\n  -h, --help  Print help\n")

/-- The help of a page, without the emphasis that a stream may get on top of it. -/
def help (bin : Option String) (page : Page) : String :=
  page.helpParts.1 ++ "\n\n" ++ page.usage bin [] ++ "\n\n" ++ page.helpParts.2

end Page

end BuildLauncher.CommandLine
