import BuildLauncher.FileTree
import BuildLauncher.Toml.Document

/-!
# The build configuration

Of the configuration file only the output directory is read, which is the text at the key
`output-dir` of the value `build`.  A file that cannot be read as a whole counts as an empty one.
-/

namespace BuildLauncher

/-- What the configuration file says: nothing about `build`, or perhaps an output directory. -/
structure Configuration where
  build : Option (Option String) := none
  deriving DecidableEq

namespace Configuration

/-- The name of the configuration file. -/
def fileName : String := "buildconf.toml"

/-- The output directory of a build without a configured one. -/
def defaultOutputDir : String := "build"

/-- The content of a new configuration file. -/
def template : String :=
  "[cache]\nbackend = \"postgres\"\n\n[loadbal]\nservers = [\n    \x7b type = \"rest\", " ++
    "address = \"127.0.0.1:8000\" \x7d\n]\n"

/-- The path of the configuration file of a directory. -/
def path (root : Bytes) : Bytes := Path.join root (Utf8.ofString fileName)

/-! ## Reading -/

/-- The key of the section that is read. -/
def sectionKey : Toml.Key := "build".toList

/-- The key of the output directory. -/
def outputDirKey : Toml.Key := "output-dir".toList

/-- A value that has to be a text. -/
def textOf? : Toml.Node → Option String
  | .text chars => some (String.ofList chars)
  | _ => none

/-- The output directory that a section gives, if any.  A section is a table; an array stands for
the list of its fields, and a moment for a table without any of them.  Of an array only the first
element is looked at, of a table everything. -/
def sectionOf? : Toml.Node → Option (Option String)
  | .table _ entries =>
    if Toml.entriesReadable entries then
      match Toml.Entries.get? entries outputDirKey with
      | none => some none
      | some node => (textOf? node).map some
    else none
  | .array [] => some none
  | .array (node :: _) => (textOf? node).map some
  | .moment _ => some none
  | _ => none

/-- The configuration that a table describes. -/
def ofEntries? (entries : Toml.Entries) : Option Configuration :=
  if Toml.entriesReadable (entries.filter (·.1 ≠ sectionKey)) then
    match Toml.Entries.get? entries sectionKey with
    | none => some {}
    | some node => (sectionOf? node).map fun outputDir => { build := some outputDir }
  else none

/-- The configuration that a text describes, if the text can be read. -/
def read? (text : String) : Option Configuration :=
  (Toml.entriesOf? text.toList).bind ofEntries?

/-- The configuration that a text describes; the default one if the text cannot be read. -/
def parse (text : String) : Configuration := (read? text).getD {}

/-! ## The output directory -/

/-- The output directory as configured, or the default one. -/
def outputDir (conf : Configuration) : String := (conf.build.getD none).getD defaultOutputDir

/-- The output directory as seen from a directory, with the home directory in place of a tilde. -/
def outputPath (conf : Configuration) (home : Option String) (root : Bytes) : Bytes :=
  Path.join root (Utf8.ofString (Path.expandHome home conf.outputDir))

end Configuration

end BuildLauncher
