/-!
# Errors of the system

The errors that the operating system reports by number, and those that arise before or after it is
asked.
-/

namespace BuildLauncher

/-- An error with a number. -/
inductive SystemError where
  | notFound
  | notAProgram
  | permissionDenied
  | alreadyExists
  | notADirectory
  | isADirectory
  | nameTooLong
  | tooManyLinks
  | other (number : Nat) (text : String)
  deriving DecidableEq

namespace SystemError

/-- There is no room for more content. -/
def noSpace : SystemError := .other 28 "No space left on device"

/-- The number of an error. -/
def number : SystemError → Nat
  | notFound => 2
  | notAProgram => 8
  | permissionDenied => 13
  | alreadyExists => 17
  | notADirectory => 20
  | isADirectory => 21
  | nameTooLong => 36
  | tooManyLinks => 40
  | other number _ => number

/-- What an error says, without its number. -/
def text : SystemError → String
  | notFound => "No such file or directory"
  | notAProgram => "Exec format error"
  | permissionDenied => "Permission denied"
  | alreadyExists => "File exists"
  | notADirectory => "Not a directory"
  | isADirectory => "Is a directory"
  | nameTooLong => "File name too long"
  | tooManyLinks => "Too many levels of symbolic links"
  | other _ text => text

/-- What an error says. -/
def message (e : SystemError) : String := e.text ++ " (os error " ++ toString e.number ++ ")"

end SystemError

/-- Why a file could not be read or written. -/
inductive FileError where
  /-- A path with a NUL byte names nothing. -/
  | nulInPath
  /-- The content of a file is not text. -/
  | notUtf8
  | system (e : SystemError)
  deriving DecidableEq

/-- What an error says. -/
def FileError.message : FileError → String
  | nulInPath => "file name contained an unexpected NUL byte"
  | notUtf8 => "stream did not contain valid UTF-8"
  | system e => e.message

/-- A program, an argument or a variable with a NUL byte cannot be passed on. -/
def nulInLaunch : String := "nul byte found in provided data"

end BuildLauncher
