import BuildLauncher.Version

/-!
# Reading semantic versions

The whole text must be a version.  Numbers have no leading zeros and fit 64 bits; the numbers among
the identifiers of a pre-release have none either, at any size; no identifier and no label is empty.
-/

namespace BuildLauncher.Version

/-- The value of a run of decimal digits without a superfluous zero in front. -/
def numberOf? (digits : List Char) : Option Nat :=
  if digits = [] then none
  else if digits.head? = some '0' ∧ digits.length ≠ 1 then none
  else some (Nat.ofDigitChars 10 digits 0)

/-- A 64-bit number at the front of a text, and what follows its digits. -/
def readNumber (cs : List Char) : Option (UInt64 × List Char) := do
  let n ← numberOf? (cs.takeWhile Char.isDigit)
  if n < UInt64.size then some (UInt64.ofNat n, cs.dropWhile Char.isDigit) else none

/-- What follows a dot. -/
def afterDot : List Char → Option (List Char)
  | '.' :: rest => some rest
  | _ => none

/-- The identifier that is written as the given characters. -/
def Identifier.ofChars? (cs : List Char) : Option Identifier :=
  if cs.all Char.isDigit = true then (numberOf? cs).map .number
  else if h : cs.all isIdentifierChar = true ∧ cs.all Char.isDigit = false then some (.word cs h)
  else none

/-- The label that is written as the given characters. -/
def Label.ofChars? (cs : List Char) : Option Label :=
  if h : cs.all isIdentifierChar = true ∧ cs ≠ [] then some ⟨cs, h⟩ else none

/-- A character of a dotted list of identifiers. -/
def isDottedChar (c : Char) : Bool := isIdentifierChar c || c == '.'

/-- A mark and then a dotted list, read segment by segment; nothing when the mark is absent. -/
def readDotted {α : Type} (mark : Char) (segment : List Char → Option α) (cs : List Char) :
    Option (List α × List Char) :=
  match cs with
  | c :: rest =>
    if c = mark then do
      let segments ← ((rest.takeWhile isDottedChar).splitOn '.').mapM segment
      some (segments, rest.dropWhile isDottedChar)
    else some ([], cs)
  | [] => some ([], [])

/-- The version that the given characters spell. -/
def ofChars? (cs : List Char) : Option Version := do
  let (major, cs) ← readNumber cs
  let (minor, cs) ← readNumber (← afterDot cs)
  let (patch, cs) ← readNumber (← afterDot cs)
  let (pre, cs) ← readDotted '-' Identifier.ofChars? cs
  let (build, cs) ← readDotted '+' Label.ofChars? cs
  if cs = [] then some { major, minor, patch, pre, build } else none

end BuildLauncher.Version
