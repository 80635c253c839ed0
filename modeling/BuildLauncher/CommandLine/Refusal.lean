import BuildLauncher.CommandLine.Page

/-!
# Why no command comes out of a command line

Either the help or the version was asked for, or the words do not fit.  Both end the program with a
text; only the latter is an error.
-/

namespace BuildLauncher.CommandLine

/-- What the user may have meant instead. -/
inductive Tip where
  /-- An option of this page. -/
  | flag (flag : Flag)
  /-- An option of a verb. -/
  | verbFlag (v : Verb) (flag : Flag)

/-- The causes.  Words are given as they are shown. -/
inductive Cause where
  | help
  | version
  /-- A word that means nothing where it stands. -/
  | unexpectedWord (word : String) (tip : Option Tip)
  /-- A value for an option that takes none. -/
  | unexpectedValue (value : String) (flag : Flag)
  /-- An option without the value that it needs. -/
  | missingValue (flag : Flag)
  /-- An option given twice. -/
  | repeated (flag : Flag)
  /-- A word of an unknown command that is not UTF-8. -/
  | notUtf8
  deriving Inhabited

/-- A cause with the page that it arose on and the options that its usage shows. -/
structure Refusal where
  cause : Cause
  page : Page
  used : List Flag := []

namespace Tip

/-- A tip as it is shown. -/
def text : Tip → String
  | flag f => "a similar argument exists: '--" ++ f.long ++ "'"
  | verbFlag v f => "'" ++ v.name ++ " --" ++ f.long ++ "' exists"

end Tip

namespace Cause

/-- What is wrong. -/
def text : Cause → String
  | help | version => ""
  | unexpectedWord word _ => "unexpected argument '" ++ Text.printable word ++ "' found"
  | unexpectedValue value flag =>
    "unexpected value '" ++ Text.printable value ++ "' for '--" ++ flag.long ++
      "' found; no more were expected"
  | missingValue flag =>
    "a value is required for '" ++ flag.written ++ "' but none was supplied"
  | repeated flag => "the argument '" ++ flag.written ++ "' cannot be used multiple times"
  | notUtf8 => "invalid UTF-8 was detected in one or more arguments"

/-- What the user may have meant instead. -/
def tip? : Cause → Option Tip
  | unexpectedWord _ tip => tip
  | _ => none

/-- Whether the usage belongs to the message. -/
def showsUsage : Cause → Bool
  | missingValue _ => false
  | _ => true

/-- Whether the user asked for what is shown. -/
def isRequested : Cause → Bool
  | help | version => true
  | _ => false

end Cause

namespace Refusal

/-- The exit status: success when the user asked for what is shown. -/
def exitCode (r : Refusal) : Int32 := if r.cause.isRequested then 0 else 2

/-- The stream that the text goes to. -/
def stream (r : Refusal) : Stream := if r.cause.isRequested then .out else .err

/-- The whole text, without the emphasis that a stream may get on top of it. -/
def message (bin : Option String) (r : Refusal) : String :=
  match r.cause with
  | .help => r.page.help bin
  | .version => programName ++ " " ++ programVersion ++ "\n"
  | cause =>
    "error: " ++ cause.text ++ "\n\n" ++
      (match cause.tip? with
        | some tip => "  tip: " ++ tip.text ++ "\n\n"
        | none => "") ++
      (if cause.showsUsage then r.page.usage bin r.used ++ "\n\n" else "") ++
      "For more information, try '--help'.\n"

end Refusal

end BuildLauncher.CommandLine
