/-!
# Failures

What went wrong, as a code, a message, data about it, and hints for the user.
-/

namespace BuildLauncher

/-! ## Structured data

The data that goes with a failure.  A number is an integer when it was written as one, and then
exact; any other number is never taken for an integer, whatever its value. -/

/-- Structured data. -/
inductive Json where
  | null
  | boolean (b : Bool)
  | integer (n : Int)
  | real (mantissa exponent : Int)
  | text (s : String)
  | list (elements : List Json)
  | object (fields : List (String × Json))
  deriving Inhabited

namespace Json

/-- The value of a field, if there is one of that name. -/
def field? (fields : List (String × Json)) (name : String) : Option Json :=
  (fields.find? (·.1 = name)).map (·.2)

/-- A text. -/
def asText? : Json → Option String
  | text s => some s
  | _ => none

/-- An integer of 32 bits. -/
def asInt32? : Json → Option Int32
  | integer n =>
    if Int32.minValue.toInt ≤ n ∧ n ≤ Int32.maxValue.toInt then some (Int32.ofInt n) else none
  | _ => none

/-- A value that may be `null`, read by the given function when it is not. -/
def asNullable? {α : Type} (f : Json → Option α) : Json → Option (Option α)
  | null => some none
  | json => (f json).map some

end Json

/-! ## What went wrong -/

/-- The kinds of failure. -/
inductive Failure.Code where
  | invalidArgument
  | command
  | bootstrap
  | io
  deriving DecidableEq

/-- A failure with the hints that go with it. -/
structure Failure where
  code : Failure.Code
  message : String
  details : Json
  hints : List String := []

namespace Failure

/-- The name of a kind of failure. -/
def Code.name : Code → String
  | invalidArgument => "validation.invalid_argument"
  | command => "command.failed"
  | bootstrap => "command.bootstrap_failed"
  | io => "internal.io_error"

/-- The exit status that a failure leads to.  The exit status of a failed command never shows. -/
def Code.exitCode : Code → Int32
  | invalidArgument => 2
  | command | bootstrap | io => 1

/-- The failure with one more hint, behind those it has. -/
def withHint (f : Failure) (hint : String) : Failure := { f with hints := f.hints ++ [hint] }

/-! ## Failed commands -/

/-- How a command failed: with an exit code, without starting, or, having neither, by a signal. -/
structure CommandDetails where
  command : String
  exitCode : Option Int32 := none
  launchError : Option String := none
  deriving DecidableEq

namespace CommandDetails

/-- A field, unless its value is missing. -/
def optional (name : String) : Option Json → List (String × Json)
  | none => []
  | some json => [(name, json)]

/-- The details as data; what is missing is left out. -/
def toJson (d : CommandDetails) : Json :=
  .object (("command", .text d.command) ::
    (optional "exitCode" (d.exitCode.map fun n => .integer n.toInt) ++
      optional "launchError" (d.launchError.map .text)))

/-- The details that a list of fields holds.  Other fields do not matter; a field that may be
missing may also be `null`. -/
def ofFields? (fields : List (String × Json)) : Option CommandDetails := do
  let command ← (← Json.field? fields "command").asText?
  let exitCode ← ((Json.field? fields "exitCode").getD .null).asNullable? Json.asInt32?
  let launchError ← ((Json.field? fields "launchError").getD .null).asNullable? Json.asText?
  some { command, exitCode, launchError }

/-- The details that data holds: as fields, or as the list of the three values in their order. -/
def ofJson? : Json → Option CommandDetails
  | .object fields => ofFields? fields
  | .list [command, exitCode, launchError] =>
    ofFields? [("command", command), ("exitCode", exitCode), ("launchError", launchError)]
  | _ => none

/-- What the user reads about a failed command. -/
def message (d : CommandDetails) : String :=
  "command did not execute successfully: " ++ d.command ++
    match d.launchError, d.exitCode with
    | some reason, _ => "\nfailed to start: " ++ reason
    | none, some code => "\nexpected success, got exit code: " ++ toString code.toInt
    | none, none => "\nprocess terminated without an exit code"

end CommandDetails

/-! ## The four kinds -/

/-- A failed command. -/
def ofCommand (d : CommandDetails) : Failure where
  code := .command
  message := d.message
  details := d.toJson

/-- A failed build of the build tooling.  The message says no more than that; the details do. -/
def ofBootstrap (d : CommandDetails) : Failure where
  code := .bootstrap
  message := "bootstrap build failed"
  details := d.toJson

/-- An argument that cannot be used. -/
def ofArgument (argument problem : String) : Failure where
  code := .invalidArgument
  message := "Invalid argument: " ++ problem
  details := .object [("field", .text argument), ("problem", .text problem)]

/-- A failure of the system, perhaps with what was being done. -/
def ofSystem (error : String) (context : Option String) : Failure where
  code := .io
  message :=
    match context with
    | some context => "IO error (" ++ context ++ "): " ++ error
    | none => "IO error: " ++ error
  details := .object (("error", .text error) ::
    CommandDetails.optional "context" (context.map .text))

/-- The details of the command that failed, if the failure is of a command and has them. -/
def commandDetails? (f : Failure) : Option CommandDetails :=
  match f.code with
  | .command | .bootstrap => CommandDetails.ofJson? f.details
  | .invalidArgument | .io => none

end Failure

end BuildLauncher
