import BuildLauncher.Toml.Quoted
import BuildLauncher.Toml.Scalar
import BuildLauncher.Toml.Table

/-!
# Reading values

Keys, and values of every form.  Each reader takes the characters from where it starts and gives
what it read with what follows.  `Nat` arguments bound the two things that a document may not
exceed, the parts of a key and the depth of brackets, or count down the characters that are left.
-/

namespace BuildLauncher.Toml

/-! ## Blanks -/

/-- What follows the spaces and tabs. -/
def skipSpaces (cs : List Char) : List Char := cs.dropWhile isSpace

/-- Where a reader of blanks stands. -/
inductive BlankPlace where
  | between
  | comment
  | lineEnd

/-- What follows the spaces, line ends and comments. -/
def skipBlankFrom : BlankPlace → List Char → Option (List Char)
  | .lineEnd, [] => none
  | _, [] => some []
  | .between, c :: rest =>
    if isSpace c ∨ c = '\n' then skipBlankFrom .between rest
    else if c = '\r' then skipBlankFrom .lineEnd rest
    else if c = '#' then skipBlankFrom .comment rest
    else some (c :: rest)
  | .comment, c :: rest =>
    if c = '\n' then skipBlankFrom .between rest
    else if c = '\r' then skipBlankFrom .lineEnd rest
    else if isPlain c then skipBlankFrom .comment rest
    else none
  | .lineEnd, c :: rest => if c = '\n' then skipBlankFrom .between rest else none

/-- What follows the spaces, line ends and comments. -/
def skipBlank (cs : List Char) : Option (List Char) := skipBlankFrom .between cs

/-! ## Keys -/

/-- A character of a key without quotes. -/
def isBareKeyChar (c : Char) : Bool := c.isAlphanum || c == '_' || c == '-'

/-- One part of a key. -/
def keyPart (cs : List Char) : Option (Key × List Char) :=
  match quoted false cs with
  | some r => some r
  | none =>
    let bare := cs.takeWhile isBareKeyChar
    if bare = [] then none else some (bare, cs.dropWhile isBareKeyChar)

/-- The most parts that a dotted key has. -/
def maxKeyParts : Nat := 80

/-- A dotted key of at most so many parts, its blanks included. -/
def keyPath : Nat → List Char → Option (List Key × List Char)
  | 0, _ => none
  | parts + 1, cs => do
    let (key, cs) ← keyPart (skipSpaces cs)
    match skipSpaces cs with
    | '.' :: cs =>
      let (keys, cs) ← keyPath parts cs
      some (key :: keys, cs)
    | cs => some ([key], cs)

/-! ## Values -/

/-- The deepest nesting of brackets and braces. -/
def maxDepth : Nat := 80

/-- The elements of an array behind its bracket, up to the closing one.  A comma may follow the last
element. -/
def arrayElements (value : List Char → Option (Node × List Char)) :
    Nat → List Char → Option (List Node × List Char)
  | 0, _ => none
  | fuel + 1, cs => do
    match ← skipBlank cs with
    | ']' :: rest => some ([], rest)
    | cs =>
      let (node, cs) ← value cs
      match ← skipBlank cs with
      | ']' :: rest => some ([node], rest)
      | ',' :: rest =>
        let (nodes, rest) ← arrayElements value fuel rest
        some (node :: nodes, rest)
      | _ => none

/-- The assignments of an inline table behind its brace, up to the closing one, added to those
already read.  A comma may follow the last one. -/
def inlineEntries (value : List Char → Option (Node × List Char)) :
    Nat → Entries → List Char → Option (Entries × List Char)
  | 0, _, _ => none
  | fuel + 1, entries, cs => do
    match ← skipBlank cs with
    | '}' :: rest => some (entries, rest)
    | cs =>
      let (path, cs) ← keyPath maxKeyParts cs
      let cs ← after '=' (← skipBlank cs)
      let (node, cs) ← value (← skipBlank cs)
      let entries ← entries.assign path node
      match ← skipBlank cs with
      | '}' :: rest => some (entries, rest)
      | ',' :: rest => inlineEntries value fuel entries rest
      | _ => none

/-- A value with at most so many brackets and braces around any of its parts. -/
def value : Nat → List Char → Option (Node × List Char)
  | depth, '[' :: rest =>
    match depth with
    | 0 => none
    | depth + 1 =>
      (arrayElements (value depth) (rest.length + 1) rest).map fun (nodes, rest) =>
        (.array nodes, rest)
  | depth, '\x7b' :: rest =>
    match depth with
    | 0 => none
    | depth + 1 =>
      (inlineEntries (value depth) (rest.length + 1) [] rest).map fun (entries, rest) =>
        (.table .inline entries, rest)
  | _, cs =>
    match cs.head? with
    | some '"' | some '\x27' => (quoted true cs).map fun (text, rest) => (.text text, rest)
    | _ => scalar cs

end BuildLauncher.Toml
