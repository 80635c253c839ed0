import BuildLauncher.Toml.Value

/-!
# Documents

A text is read as a list of statements, and the statements are then carried out one after the other
on an empty table.  A document is readable when, besides, every number in it has a value.
-/

namespace BuildLauncher.Toml

/-- One statement of a document. -/
inductive Statement where
  /-- `[path]`: what follows belongs to this table. -/
  | header (path : List Key)
  /-- `[[path]]`: what follows belongs to a new last element of this array. -/
  | element (path : List Key)
  /-- `path = value`. -/
  | assignment (path : List Key) (value : Node)

/-! ## From text to statements -/

/-- What follows the end of a line, perhaps behind spaces and a comment. -/
def endOfLine (cs : List Char) : Option (List Char) :=
  let cs := skipSpaces cs
  let cs := match cs with
    | '#' :: rest => rest.dropWhile isPlain
    | cs => cs
  match cs with
  | [] => some []
  | '\n' :: rest => some rest
  | '\r' :: '\n' :: rest => some rest
  | _ => none

/-- The statement at the front of the given characters, and what follows it on its line. -/
def statement (cs : List Char) : Option (Statement × List Char) :=
  match cs with
  | '[' :: '[' :: cs => do
    let (path, cs) ← keyPath maxKeyParts cs
    let cs ← after ']' (← after ']' cs)
    some (.element path, cs)
  | '[' :: cs => do
    let (path, cs) ← keyPath maxKeyParts cs
    some (.header path, ← after ']' cs)
  | cs => do
    let (path, cs) ← keyPath maxKeyParts cs
    let (node, cs) ← value maxDepth (skipSpaces (← after '=' cs))
    some (.assignment path node, cs)

/-- The statements of a text, which number at most `fuel`. -/
def statementsFrom : Nat → List Char → Option (List Statement)
  | 0, _ => none
  | fuel + 1, cs => do
    match ← skipBlank cs with
    | [] => some []
    | cs =>
      let (first, cs) ← statement cs
      let rest ← statementsFrom fuel (← endOfLine cs)
      some (first :: rest)

/-- The mark of byte order that may stand at the start of a text. -/
def byteOrderMark : Char := '\uFEFF'

/-- The text without a mark of byte order. -/
def dropByteOrderMark : List Char → List Char
  | c :: cs => if c = byteOrderMark then cs else c :: cs
  | [] => []

/-- The statements of a text. -/
def statements (cs : List Char) : Option (List Statement) :=
  let cs := dropByteOrderMark cs
  statementsFrom (cs.length + 1) cs

/-! ## From statements to a table -/

/-- Carries out one statement: on the whole table, and the path of the table that is open. -/
def Statement.perform (entries : Entries) (here : List Key) :
    Statement → Option (Entries × List Key)
  | .header path => do
    let key ← path.getLast?
    some (← entries.alterAt? (Entries.openTable key) path.dropLast, path)
  | .element path => do
    let key ← path.getLast?
    some (← entries.alterAt? (Entries.openElement key) path.dropLast, path)
  | .assignment path node => do
    some (← entries.alterAt? (·.assign path node) here, here)

/-- Carries out statements in order. -/
def performAll (entries : Entries) (here : List Key) : List Statement → Option Entries
  | [] => some entries
  | s :: rest => do
    let (entries, here) ← s.perform entries here
    performAll entries here rest

/-- The table that a text describes. -/
def entriesOf? (cs : List Char) : Option Entries := do
  performAll [] [] (← statements cs)

end BuildLauncher.Toml
