import BuildLauncher.Shell.Script

/-!
# Formatted output

The escapes of `echo` and the formats of `printf`.
-/

namespace BuildLauncher.Shell

/-- The character that a letter stands for behind a backslash. -/
def letterEscape? : Char → Option Char
  | 'a' => some '\x07'
  | 'b' => some '\x08'
  | 'f' => some '\x0c'
  | 'n' => some '\n'
  | 'r' => some '\r'
  | 't' => some '\t'
  | 'v' => some '\x0b'
  | '\\' => some '\\'
  | _ => none

/-- An octal digit. -/
def isOctal (c : Char) : Bool := '0' ≤ c && c ≤ '7'

/-- The byte with up to so many octal digits, and what follows them. -/
def octal (most : Nat) (cs : Raw) : Char × Raw :=
  let digits := (cs.take most).takeWhile isOctal
  (Char.ofNat (Nat.ofDigitChars 8 digits 0 % 256), cs.drop digits.length)

/-- A text with its escapes carried out, and whether it was cut short by one.  An octal escape
starts with a zero. -/
def unescape : Nat → Raw → Raw × Bool
  | 0, _ | _, [] => ([], false)
  | fuel + 1, c :: rest =>
    let continued (d : Char) (rest : Raw) : Raw × Bool :=
      let (text, cut) := unescape fuel rest
      (d :: text, cut)
    if c ≠ '\\' then continued c rest
    else
      match rest with
      | 'c' :: _ => ([], true)
      | '0' :: rest => continued (octal 3 rest).1 (octal 3 rest).2
      | d :: rest' =>
        match letterEscape? d with
        | some e => continued e rest'
        | none => continued c rest
      | [] => (['\\'], false)

/-- What `echo` writes. -/
def echo (words : List Raw) : Raw :=
  let (lineEnd, words) :=
    match words with
    | ['-', 'n'] :: words => ([], words)
    | words => (['\n'], words)
  let text := [' '].intercalate words
  match unescape (text.length + 1) text with
  | (text, false) => text ++ lineEnd
  | (text, true) => text

/-- One argument in one format; `none` for a letter that is no format.  The flag tells whether the
output ends here. -/
def formatted (letter : Char) (argument : Raw) : Option (Raw × Bool) :=
  match letter with
  | 's' => some (argument, false)
  | 'b' => some (unescape (argument.length + 1) argument)
  | 'd' => some ((toString (((String.ofList argument).toInt?).getD 0)).toList, false)
  | _ => none

/-- One pass over a format: the output, the arguments that are left, and whether the output ends
here. -/
def formatOnce : Nat → Raw → List Raw → Raw × List Raw × Bool
  | 0, _, arguments | _, [], arguments => ([], arguments, false)
  | fuel + 1, c :: rest, arguments =>
    let continued (text rest : Raw) (arguments : List Raw) : Raw × List Raw × Bool :=
      let (more, arguments, ended) := formatOnce fuel rest arguments
      (text ++ more, arguments, ended)
    if c = '\\' then
      match rest with
      | d :: rest' =>
        if isOctal d then continued [(octal 3 rest).1] (octal 3 rest).2 arguments
        else
          match letterEscape? d with
          | some e => continued [e] rest' arguments
          | none => continued ['\\', d] rest' arguments
      | [] => (['\\'], arguments, false)
    else if c = '%' then
      match rest with
      | '%' :: rest => continued ['%'] rest arguments
      | letter :: rest =>
        match formatted letter (arguments.headD []) with
        | some (text, false) => continued text rest (arguments.drop 1)
        | some (text, true) => (text, arguments.drop 1, true)
        | none => ([], arguments, true)
      | [] => ([], arguments, true)
    else continued [c] rest arguments

/-- What `printf` writes.  The format is used again while it takes up arguments and some are
left. -/
def printf : Nat → Raw → List Raw → Raw
  | 0, _, _ => []
  | fuel + 1, format, arguments =>
    let (text, rest, ended) := formatOnce (format.length + 1) format arguments
    if ended ∨ rest.isEmpty ∨ rest.length = arguments.length then text
    else text ++ printf fuel format rest

end BuildLauncher.Shell
