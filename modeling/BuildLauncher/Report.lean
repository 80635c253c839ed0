import BuildLauncher.Failure

/-!
# What the user reads

Labels, failures and the closing line of a build, as they appear on the two output streams.  A
stream that is a terminal may get emphasis and lines of progress.
-/

namespace BuildLauncher

/-! ## Durations

How long a build took, counted in whole seconds and written as hours, minutes and seconds. -/

/-- A length of time: whole seconds, and the nanoseconds beyond them. -/
structure Duration where
  seconds : UInt64
  nanos : Fin 1000000000 := 0
  deriving DecidableEq

namespace Duration

/-- No time at all. -/
def zero : Duration := { seconds := 0 }

/-- The whole length in nanoseconds. -/
def totalNanos (d : Duration) : Nat := d.seconds.toNat * 1000000000 + d.nanos.val

/-- The longest length that counts, in nanoseconds: so many milliseconds as a signed word of 64 bits
holds. -/
def maxNanos : Nat := 9223372036854775807 * 1000000

/-- The whole seconds that count.  A length beyond the longest one counts as none. -/
def countedSeconds (d : Duration) : Nat :=
  if d.totalNanos ≤ maxNanos then d.seconds.toNat else 0

/-- A number below 100 in two digits. -/
def twoDigits (n : Nat) : List Char :=
  if n < 10 then '0' :: Nat.toDigits 10 n else Nat.toDigits 10 n

/-- Seconds as `H:MM:SS`. -/
def clockChars (seconds : Nat) : List Char :=
  Nat.toDigits 10 (seconds / 3600) ++ ':' :: twoDigits (seconds % 3600 / 60) ++
    ':' :: twoDigits (seconds % 60)

/-- The whole seconds of a duration as `H:MM:SS`. -/
def clock (d : Duration) : String := String.ofList (clockChars d.countedSeconds)

end Duration

/-! ## Lines of output -/

/-- The two output streams. -/
inductive Stream where
  | out
  | err
  deriving DecidableEq

/-- Which of the two output streams are terminals. -/
structure Terminals where
  out : Bool := false
  err : Bool := false
  deriving DecidableEq

/-- A text written to a stream. -/
abbrev Said := Stream × String

namespace Report

/-- One line of output. -/
def line (stream : Stream) (text : String) : Said := (stream, text ++ "\n")

/-- The text, with a mode of the terminal switched on before it and off after it. -/
def emphasised (mode text : String) : String := "\x1b[" ++ mode ++ "m" ++ text ++ "\x1b[0m"

/-- What stands before an error.  The label is in colour when the standard output is a terminal,
whichever stream it is written to. -/
def errorLabel (t : Terminals) : String :=
  if t.out then emphasised "1;31" "error: " else "error: "

/-- What stands before a note; in colour under the same condition. -/
def noteLabel (t : Terminals) : String :=
  if t.out then emphasised "1;33" "note: " else "note: "

/-- A heading, bold when the standard output is a terminal. -/
def bold (t : Terminals) (text : String) : String :=
  if t.out then emphasised "1" text else text

/-- A line of progress, which only a terminal gets. -/
def progress (t : Terminals) (text : String) : List Said :=
  if t.err then [line .err text] else []

/-- A line of progress that says which part of the launcher it comes from. -/
def status (t : Terminals) (source text : String) : List Said :=
  progress t ("[" ++ source ++ "] " ++ text)

/-- A failure with its hints.  Of a failed bootstrap step only a terminal gets a line: the command
has already said what was wrong. -/
def failure (t : Terminals) (f : Failure) : List Said :=
  if f.code = .bootstrap then
    match f.commandDetails? with
    | some d => status t "bootstrap" ("failed: " ++ d.command)
    | none => []
  else
    line .err ("x: " ++ errorLabel t ++ f.message) ::
      f.hints.map fun hint => line .err ("x: " ++ noteLabel t ++ hint)

/-- The closing line of a build. -/
def summary (exitCode : Int32) (took : Duration) : String :=
  "Build completed " ++ (if exitCode = 0 then "successfully" else "unsuccessfully") ++ " in " ++
    took.clock ++ ". Exit code: " ++ toString exitCode.toInt

/-- The exit status of the process for an exit code: the nearest number of 8 bits. -/
def exitStatus (code : Int32) : UInt8 := UInt8.ofNat (min code.toInt.toNat 255)

end Report

end BuildLauncher
