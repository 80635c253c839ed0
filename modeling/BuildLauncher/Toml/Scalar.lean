import BuildLauncher.Toml.Node

/-!
# Numbers, truth values and moments

A value without quotes or brackets is one run of characters, read as a whole.
-/

namespace BuildLauncher.Toml

/-- A character of an unquoted value. -/
def isScalarChar (c : Char) : Bool :=
  c.isAlphanum || c == '+' || c == '-' || c == '.' || c == ':' || c == '_'

/-! ## Digits -/

/-- The digits of a run in which single underscores may stand between two digits. -/
def groupedDigits? (isDigit : Char → Bool) : List Char → Option (List Char)
  | [] => none
  | c :: rest =>
    if isDigit c then
      match rest with
      | [] => some [c]
      | '_' :: rest => (groupedDigits? isDigit rest).map (c :: ·)
      | rest => (groupedDigits? isDigit rest).map (c :: ·)
    else none

/-- The value of a digit in any base up to sixteen. -/
def digitValue (c : Char) : Nat :=
  if c.isDigit then c.toNat - '0'.toNat
  else if 'a' ≤ c then c.toNat - 'a'.toNat + 10
  else c.toNat - 'A'.toNat + 10

/-- The number with the given digits. -/
def valueOf (base : Nat) (digits : List Char) : Nat :=
  digits.foldl (fun n c => n * base + digitValue c) 0

/-- Whether a digit belongs to a base up to sixteen. -/
def isDigitOf (base : Nat) (c : Char) : Bool :=
  (c.isDigit || ('a' ≤ c && c ≤ 'f') || ('A' ≤ c && c ≤ 'F')) && digitValue c < base

/-- Decimal digits without a superfluous zero in front. -/
def decimal? (cs : List Char) : Option (List Char) :=
  (groupedDigits? Char.isDigit cs).bind fun digits =>
    if digits.head? = some '0' ∧ digits.length ≠ 1 then none else some digits

/-- A sign, and whether it is a minus. -/
def sign : List Char → Bool × List Char
  | '+' :: rest => (false, rest)
  | '-' :: rest => (true, rest)
  | cs => (false, cs)

/-! ## Numbers -/

/-- An integer: decimal with an optional sign, or in base 16, 8 or 2 without one. -/
def integer? (cs : List Char) : Option Int :=
  match cs with
  | '0' :: 'x' :: digits => based 16 digits
  | '0' :: 'o' :: digits => based 8 digits
  | '0' :: 'b' :: digits => based 2 digits
  | cs =>
    let (negative, cs) := sign cs
    (decimal? cs).map fun digits =>
      if negative then -(valueOf 10 digits : Int) else valueOf 10 digits
where
  based (base : Nat) (digits : List Char) : Option Int :=
    (groupedDigits? (isDigitOf base) digits).map fun digits => valueOf base digits

/-- The part of a number behind its decimal point, if there is a point. -/
def fraction? : List Char → Option (List Char)
  | [] => some []
  | '.' :: cs => groupedDigits? Char.isDigit cs
  | _ => none

/-- The exponent of a number, zero if there is none. -/
def exponent? : List Char → Option Int
  | [] => some 0
  | c :: cs =>
    if c = 'e' ∨ c = 'E' then
      let (negative, cs) := sign cs
      (groupedDigits? Char.isDigit cs).map fun digits =>
        if negative then -(valueOf 10 digits : Int) else valueOf 10 digits
    else none

/-- A number with a decimal point, an exponent or both; or infinity, or no number. -/
def real? (cs : List Char) : Option Real :=
  let (negative, cs) := sign cs
  if cs = ['i', 'n', 'f'] then some (.infinite negative)
  else if cs = ['n', 'a', 'n'] then some .undefined
  else do
    let isMark (c : Char) : Bool := c == '.' || c == 'e' || c == 'E'
    let whole ← decimal? (cs.takeWhile (!isMark ·))
    let cs := cs.dropWhile (!isMark ·)
    let fraction ← fraction? (cs.takeWhile fun c => c != 'e' && c != 'E')
    let exponent ← exponent? (cs.dropWhile fun c => c != 'e' && c != 'E')
    if cs = [] then none
    else some (.decimal negative (valueOf 10 (whole ++ fraction)) (exponent - fraction.length))

/-- The numbers whose nearest double is infinite start here. -/
def realLimit : Nat := Nat.pow 2 1024 - Nat.pow 2 970

/-- Whether a number has a finite double next to it, or is itself no finite number.  Numbers whose
size the count of digits already settles are not computed. -/
def Real.isReadable : Real → Bool
  | .decimal _ 0 _ => true
  | .decimal _ mantissa exponent =>
    let size := (Nat.toDigits 10 mantissa).length + exponent
    if size ≤ 300 then true
    else if 320 < size then false
    else if 0 ≤ exponent then mantissa * Nat.pow 10 exponent.toNat < realLimit
    else mantissa < realLimit * Nat.pow 10 (-exponent).toNat
  | _ => true

/-! ## Moments -/

/-- So many decimal digits, their value and what follows them. -/
def fixedDigits (count : Nat) (cs : List Char) : Option (Nat × List Char) :=
  let digits := cs.take count
  if digits.length = count ∧ digits.all Char.isDigit = true then
    some (valueOf 10 digits, cs.drop count)
  else none

/-- What follows the given character. -/
def after (mark : Char) : List Char → Option (List Char)
  | c :: rest => if c = mark then some rest else none
  | [] => none

/-- The number of days of a month. -/
def daysOfMonth (year month : Nat) : Nat :=
  if month = 2 then
    if year % 4 = 0 ∧ (year % 100 ≠ 0 ∨ year % 400 = 0) then 29 else 28
  else if month = 4 ∨ month = 6 ∨ month = 9 ∨ month = 11 then 30
  else 31

/-- A date `YYYY-MM-DD`, and what follows it. -/
def date (cs : List Char) : Option (Date × List Char) := do
  let (year, cs) ← fixedDigits 4 cs
  let (month, cs) ← fixedDigits 2 (← after '-' cs)
  let (day, cs) ← fixedDigits 2 (← after '-' cs)
  if 1 ≤ month ∧ month ≤ 12 ∧ 1 ≤ day ∧ day ≤ daysOfMonth year month then
    some ({ year, month, day }, cs)
  else none

/-- The digits behind the point of a second, if there is a point. -/
def secondFraction (cs : List Char) : Option (List Char × List Char) :=
  match cs with
  | '.' :: rest =>
    let digits := rest.takeWhile Char.isDigit
    if digits = [] then none else some (digits, rest.dropWhile Char.isDigit)
  | cs => some ([], cs)

/-- A time `HH:MM`, `HH:MM:SS` or `HH:MM:SS.fraction`, and what follows it.  The sixtieth second is
a leap second. -/
def time (cs : List Char) : Option (Time × List Char) := do
  let (hour, cs) ← fixedDigits 2 cs
  let (minute, cs) ← fixedDigits 2 (← after ':' cs)
  if 24 ≤ hour ∨ 60 ≤ minute then none
  else
    match cs with
    | ':' :: cs =>
      let (second, cs) ← fixedDigits 2 cs
      let (fraction, cs) ← secondFraction cs
      if 60 < second then none else some ({ hour, minute, second, fraction }, cs)
    | cs => some ({ hour, minute, second := none, fraction := [] }, cs)

/-- An offset that takes up all the given characters; none where there are none. -/
def offset? : List Char → Option (Option Offset)
  | [] => some none
  | ['Z'] | ['z'] => some (some .universal)
  | c :: cs =>
    if c = '+' ∨ c = '-' then do
      let (hours, cs) ← fixedDigits 2 cs
      let (minutes, cs) ← fixedDigits 2 (← after ':' cs)
      if 24 ≤ hours ∨ 60 ≤ minutes ∨ cs ≠ [] then none
      else if c = '+' then some (some (.ahead hours minutes))
      else some (some (.behind hours minutes))
    else none

/-- The moment that the given characters spell. -/
def moment? (cs : List Char) : Option Moment :=
  match date cs with
  | some (day, []) => some (.day day)
  | some (day, c :: rest) =>
    if c = 'T' ∨ c = 't' ∨ c = ' ' then do
      let (clock, rest) ← time rest
      let offset ← offset? rest
      some (.both day clock offset)
    else none
  | none =>
    match time cs with
    | some (clock, []) => some (.time clock)
    | _ => none

/-! ## Any of them -/

/-- The value that a whole run of characters spells. -/
def scalarOf? (cs : List Char) : Option Node :=
  if cs = ['t', 'r', 'u', 'e'] then some (.boolean true)
  else if cs = ['f', 'a', 'l', 's', 'e'] then some (.boolean false)
  else
    match integer? cs with
    | some n => some (.integer n)
    | none =>
      match real? cs with
      | some x => some (.real x)
      | none => (moment? cs).map .moment

/-- The run of characters of an unquoted value and what follows it.  A space within a moment is part
of it: one that stands between a whole date and a digit. -/
def scalarRun (cs : List Char) : List Char × List Char :=
  let run := cs.takeWhile isScalarChar
  match date run, cs.dropWhile isScalarChar with
  | some (_, []), ' ' :: c :: rest =>
    if c.isDigit then
      (run ++ ' ' :: (c :: rest).takeWhile isScalarChar, (c :: rest).dropWhile isScalarChar)
    else (run, ' ' :: c :: rest)
  | _, rest => (run, rest)

/-- An unquoted value at the front of the given characters, and what follows it. -/
def scalar (cs : List Char) : Option (Node × List Char) :=
  (scalarOf? (scalarRun cs).1).map fun node => (node, (scalarRun cs).2)

/-! ## Readable values

A number can be written that no word of the machine holds.  A value is readable when no such number
occurs in it. -/

/-- Whether an integer fits 128 bits, signed or unsigned. -/
def isReadableInteger (n : Int) : Bool :=
  -Int.ofNat (Nat.pow 2 127) ≤ n && n < Int.ofNat (Nat.pow 2 128)

mutual

/-- Whether every number in a value can be held. -/
def Node.isReadable : Node → Bool
  | .integer n => isReadableInteger n
  | .real x => x.isReadable
  | .array elements => allReadable elements
  | .table _ entries => entriesReadable entries
  | .tables elements => tablesReadable elements
  | .text _ | .boolean _ | .moment _ => true

/-- Whether every element of an array is readable. -/
def allReadable : List Node → Bool
  | [] => true
  | node :: rest => node.isReadable && allReadable rest

/-- Whether every value of a table is readable. -/
def entriesReadable : List (Key × Node) → Bool
  | [] => true
  | (_, node) :: rest => node.isReadable && entriesReadable rest

/-- Whether every table of an array is readable. -/
def tablesReadable : List (List (Key × Node)) → Bool
  | [] => true
  | entries :: rest => entriesReadable entries && tablesReadable rest

end

end BuildLauncher.Toml
