/-!
# Scripts

The commands of a small shell, as they are read from a text.  Texts of the shell are lists with one
character for each byte.
-/

namespace BuildLauncher.Shell

/-- A text of the shell, one character for each byte. -/
abbrev Raw := List Char

/-- What a parameter stands for when it has no value. -/
inductive Operator where
  /-- The value as it is. -/
  | plain
  /-- The argument in place of a missing value; `orEmpty` counts an empty value as missing. -/
  | default (orEmpty : Bool)
  /-- The argument, unless the value is missing. -/
  | alternative (orEmpty : Bool)

/-- Where a redirection leads. -/
inductive Redirection.Kind where
  | input
  | truncate
  | append
  | duplicate

mutual

/-- A part of a word.  Within quotes nothing is split or taken for a pattern. -/
inductive Part where
  | text (quoted : Bool) (chars : Raw)
  | parameter (quoted : Bool) (name : Raw) (op : Operator) (argument : List Part)
  | output (quoted : Bool) (script : List Command)

/-- A command. -/
inductive Command where
  | simple (assignments : List (Raw × List Part)) (words : List (List Part))
      (redirections : List Redirection)
  | pipeline (negated : Bool) (commands : List Command)
  | and (left right : Command)
  | or (left right : Command)
  | branch (clauses : List (List Command × List Command)) (otherwise : List Command)
  | each (name : Raw) (words : Option (List (List Part))) (body : List Command)
  | choose (word : List Part) (clauses : List (List (List Part) × List Command))
  | group (body : List Command)
  | nested (body : List Command)
  | redirect (command : Command) (redirections : List Redirection)

/-- A redirection of one of the numbered streams. -/
inductive Redirection where
  | mk (number : Nat) (kind : Redirection.Kind) (target : List Part)

end

instance : Inhabited Command := ⟨.group []⟩

/-- A word of a script. -/
abbrev Word := List Part

/-- The commands of a script. -/
abbrev Script := List Command

/-- A character of a name. -/
def isNameChar (c : Char) : Bool := c.isAlphanum || c == '_'

/-- Whether a text is the name of a variable. -/
def isName (cs : Raw) : Bool :=
  match cs with
  | [] => false
  | c :: rest => (c.isAlpha || c == '_') && rest.all isNameChar

/-- The text of a byte string. -/
def rawOfBytes (bs : List UInt8) : Raw := bs.map fun b => Char.ofNat b.toNat

/-- The byte string of a text. -/
def bytesOfRaw (cs : Raw) : List UInt8 := cs.map fun c => UInt8.ofNat c.toNat

end BuildLauncher.Shell
