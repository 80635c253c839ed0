import BuildLauncher.Environment
import BuildLauncher.Text.Characters
import BuildLauncher.Version
import BuildLauncher.Version.Reader

/-!
# The installed toolchain

Reads what `cargo --version` prints and warns about a version that is too old.
-/

namespace BuildLauncher.Toolchain

/-- The oldest version that the build is known to work with. -/
def minimum : Version := { major := 1, minor := 74, patch := 0 }

/-- Either of these variables with the value `1` silences the warning. -/
def ignoreToolchainKey : String := "HARTEX_IGNORE_OLD_TOOLCHAIN"

/-- Either of these variables with the value `1` silences the warning. -/
def ignorePythonKey : String := "HARTEX_IGNORE_OLD_PYTHON"

/-! ## Reading the report -/

/-- A run of decimal digits of any script, at least one, and what follows it. -/
def digitRun (cs : List Char) : Option (List Char × List Char) :=
  let digits := cs.takeWhile Text.isDecimalDigit
  if digits = [] then none else some (digits, cs.dropWhile Text.isDecimalDigit)

/-- A hyphen with the pre-release behind it, if at least one character of one follows. -/
def preRun : List Char → List Char
  | '-' :: cs =>
    let pre := cs.takeWhile Version.isDottedChar
    if pre = [] then [] else '-' :: pre
  | _ => []

/-- The characters at the front that look like a version: three runs of digits with dots between
them, and a pre-release. -/
def versionRun (cs : List Char) : Option (List Char) := do
  let (major, cs) ← digitRun cs
  let (minor, cs) ← digitRun (← Version.afterDot cs)
  let (patch, cs) ← digitRun (← Version.afterDot cs)
  some (major ++ '.' :: minor ++ '.' :: patch ++ preRun cs)

/-- What a report of the version starts with. -/
def reportStart : List Char := "cargo ".toList

/-- The version that a report names. -/
def versionOf? (report : String) : Option Version := do
  let cs ← reportStart.isPrefixOf? (Text.trim report.toList)
  Version.ofChars? (← versionRun cs)

/-! ## The warning -/

/-- Whether a version, taken without its pre-release, comes before the minimum.  So a pre-release of
the minimum is not too old. -/
def isOutdated (v : Version) : Bool := v.release < minimum

/-- The warning about a version that is too old. -/
def warning? (v : Version) : Option String :=
  if isOutdated v then
    some ("x: warning: cargo " ++ toString v ++ " is older than the minimum supported version " ++
      toString minimum ++ ". set " ++ ignoreToolchainKey ++ "=1 to silence this warning.")
  else none

/-- Whether a variable silences the warning. -/
def isSilenced (env : Environment) : Bool :=
  [ignoreToolchainKey, ignorePythonKey].any fun key =>
    env.getText? (Utf8.ofString key) = some "1"

end BuildLauncher.Toolchain
