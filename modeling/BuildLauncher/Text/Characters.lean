/-!
# Characters

Which characters are white space, which are decimal digits, and which ones are left of a text for a
terminal that does nothing else with it.
-/

namespace BuildLauncher.Text

/-! ## White space -/

/-- The property `White_Space`. -/
def isBlank (c : Char) : Bool :=
  let n := c.toNat
  (9 ≤ n && n ≤ 13) || n == 0x20 || n == 0x85 || n == 0xA0 || n == 0x1680 ||
    (0x2000 ≤ n && n ≤ 0x200A) || n == 0x2028 || n == 0x2029 || n == 0x202F || n == 0x205F ||
    n == 0x3000

/-- Characters without the white space at the end. -/
def trimEnd (cs : List Char) : List Char := (cs.reverse.dropWhile isBlank).reverse

/-- Characters without the white space at both ends. -/
def trim (cs : List Char) : List Char := trimEnd (cs.dropWhile isBlank)

/-! ## Decimal digits

The characters with the Unicode general category `Nd`.  Every script with decimal digits has them as
ten characters in a row, so a table of the zeros is enough. -/

/-- The zero of each run of ten decimal digits. -/
def zeros : List Nat :=
  [0x0030, 0x0660, 0x06F0, 0x07C0, 0x0966, 0x09E6, 0x0A66, 0x0AE6, 0x0B66, 0x0BE6, 0x0C66,
   0x0CE6, 0x0D66, 0x0DE6, 0x0E50, 0x0ED0, 0x0F20, 0x1040, 0x1090, 0x17E0, 0x1810, 0x1946,
   0x19D0, 0x1A80, 0x1A90, 0x1B50, 0x1BB0, 0x1C40, 0x1C50, 0xA620, 0xA8D0, 0xA900, 0xA9D0,
   0xA9F0, 0xAA50, 0xABF0, 0xFF10, 0x104A0, 0x10D30, 0x10D40, 0x11066, 0x110F0, 0x11136,
   0x111D0, 0x112F0, 0x11450, 0x114D0, 0x11650, 0x116C0, 0x116D0, 0x116DA, 0x11730, 0x118E0,
   0x11950, 0x11BF0, 0x11C50, 0x11D50, 0x11DA0, 0x11F50, 0x16130, 0x16A60, 0x16AC0, 0x16B50,
   0x16D70, 0x1CCF0, 0x1D7CE, 0x1D7D8, 0x1D7E2, 0x1D7EC, 0x1D7F6, 0x1E140, 0x1E2F0, 0x1E4F0,
   0x1E5F1, 0x1E950, 0x1FBF0]

/-- A decimal digit of any script. -/
def isDecimalDigit (c : Char) : Bool :=
  c.isDigit || (0x7F < c.toNat && zeros.any fun z => z ≤ c.toNat && c.toNat < z + 10)

/-! ## What is printable

Messages that repeat a user's words leave out what a terminal would obey: control sequences and
control characters.  White space stays, except the vertical tab. -/

/-- Where a reader of control sequences stands. -/
inductive ControlPlace where
  /-- Between sequences. -/
  | between
  /-- Behind an escape character. -/
  | escape
  /-- Behind an escape character and the marks that may follow it. -/
  | marked
  /-- Within the parameters of a sequence. -/
  | parameters
  /-- Within a sequence that holds a text; a bell may end it. -/
  | text (untilBell : Bool)
  deriving DecidableEq

/-- A control character that counts as white space. -/
def isBlankControl (c : Char) : Bool := c == '\t' || c == '\n' || c == '\x0c' || c == '\r'

/-- Where a sequence stands behind one more character, `none` standing for a character that is no
part of it and is kept. -/
def ControlPlace.next? (place : ControlPlace) (c : Char) : Option ControlPlace :=
  let n := c.toNat
  if n = 0x1B then some .escape
  else if n = 0x18 ∨ n = 0x1A then some .between
  else if 0x7F < n then none
  else
    match place with
    | .between => if isBlankControl c ∨ (0x20 ≤ n ∧ n ≠ 0x7F) then none else some .between
    | .text untilBell => some (if untilBell = true ∧ n = 7 then .between else .text untilBell)
    | place =>
      if isBlankControl c then none
      else if n < 0x20 ∨ n = 0x7F then some place
      else if place = .parameters then some (if n < 0x40 then .parameters else .between)
      else if n < 0x30 then some .marked
      else if place = .marked then some .between
      else
        match c with
        | '[' => some .parameters
        | ']' => some (.text true)
        | 'P' | 'X' | '^' | '_' => some (.text false)
        | _ => some .between

/-- The characters that are kept, from a given place on. -/
def printableFrom : ControlPlace → List Char → List Char
  | _, [] => []
  | place, c :: rest =>
    match place.next? c with
    | some place => printableFrom place rest
    | none => c :: printableFrom .between rest

/-- A text without control sequences and control characters. -/
def printable (s : String) : String := String.ofList (printableFrom .between s.toList)

end BuildLauncher.Text
