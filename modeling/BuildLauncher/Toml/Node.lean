/-!
# The values of a document

A document is a table, and a table is a list of entries in the order in which they were first
written.  Every table remembers how it came to be, because that decides what may still be added to
it.
-/

namespace BuildLauncher.Toml

/-- A key, as the characters it stands for. -/
abbrev Key := List Char

/-- How a table came to be. -/
inductive Origin where
  /-- Written in braces: complete. -/
  | inline
  /-- A parent that only the headers of its children name. -/
  | implied
  /-- Named by a header of its own. -/
  | header
  /-- Made by the dots of a key. -/
  | dotted
  deriving DecidableEq

/-- A number with a decimal point or an exponent, exactly as written. -/
inductive Real where
  | decimal (negative : Bool) (mantissa : Nat) (exponent : Int)
  | infinite (negative : Bool)
  | undefined
  deriving DecidableEq

/-- A day of the calendar. -/
structure Date where
  year : Nat
  month : Nat
  day : Nat
  deriving DecidableEq

/-- A time of day; the fraction of the second as its digits. -/
structure Time where
  hour : Nat
  minute : Nat
  second : Option Nat
  fraction : List Char
  deriving DecidableEq

/-- A distance from universal time: none, or hours and minutes to one side. -/
inductive Offset where
  | universal
  | ahead (hours minutes : Nat)
  | behind (hours minutes : Nat)
  deriving DecidableEq

/-- A date, a time, or both, then perhaps with an offset. -/
inductive Moment where
  | day (d : Date)
  | time (t : Time)
  | both (d : Date) (t : Time) (offset : Option Offset)
  deriving DecidableEq

/-- A value of a document. -/
inductive Node where
  | text (chars : List Char)
  | integer (n : Int)
  | real (x : Real)
  | boolean (b : Bool)
  | moment (m : Moment)
  | array (elements : List Node)
  | table (origin : Origin) (entries : List (Key × Node))
  /-- An array whose elements are tables with headers of their own. -/
  | tables (elements : List (List (Key × Node)))

/-- The entries of a table. -/
abbrev Entries := List (Key × Node)

/-- The value at a key. -/
def Entries.get? (entries : Entries) (key : Key) : Option Node :=
  (entries.find? (·.1 = key)).map (·.2)

/-- Changes the value at a key.  The function sees the value there, if any; a new key goes to the
end. -/
def Entries.alter? (key : Key) (f : Option Node → Option Node) : Entries → Option Entries
  | [] => (f none).map fun node => [(key, node)]
  | (k, node) :: rest =>
    if k = key then (f (some node)).map fun node => (k, node) :: rest
    else (alter? key f rest).map ((k, node) :: ·)

end BuildLauncher.Toml
