import BuildLauncher.Toml.Node

/-!
# Quoted text

The four ways to quote a text: basic and literal, on one line and over several.  Each reader starts
behind the opening quotes and gives the text together with what follows the closing ones.  All read
one character at a time, so that what they say of a text they say by recursion on it.
-/

namespace BuildLauncher.Toml

/-- A blank within a line. -/
def isSpace (c : Char) : Bool := c == ' ' || c == '\t'

/-- A character that a quoted text or a comment holds as it stands: a tab or no control
character. -/
def isPlain (c : Char) : Bool := c == '\t' || (0x20 ≤ c.toNat && c.toNat != 0x7F)

/-! ## Escapes -/

/-- What the character after a backslash announces: a character, or the number of further
hexadecimal digits after the first one. -/
inductive Escape where
  | char (c : Char)
  | hex (further : Nat)

/-- The escapes. -/
def Escape.ofChar? : Char → Option Escape
  | 'b' => some (.char '\x08')
  | 't' => some (.char '\t')
  | 'n' => some (.char '\n')
  | 'f' => some (.char '\x0c')
  | 'r' => some (.char '\r')
  | 'e' => some (.char '\x1b')
  | '"' => some (.char '"')
  | '\\' => some (.char '\\')
  | 'x' => some (.hex 1)
  | 'u' => some (.hex 3)
  | 'U' => some (.hex 7)
  | _ => none

/-- The value of a hexadecimal digit. -/
def hexValue? (c : Char) : Option Nat :=
  if '0' ≤ c ∧ c ≤ '9' then some (c.toNat - '0'.toNat)
  else if 'a' ≤ c ∧ c ≤ 'f' then some (c.toNat - 'a'.toNat + 10)
  else if 'A' ≤ c ∧ c ≤ 'F' then some (c.toNat - 'A'.toNat + 10)
  else none

/-- The character with a given number, if the number is one of a character. -/
def charOfNat? (n : Nat) : Option Char := if n.isValidChar then some (Char.ofNat n) else none

/-- Puts a character in front of a text that was read behind it. -/
def pushFront (c : Char) : List Char × List Char → List Char × List Char
  | (text, rest) => (c :: text, rest)

/-! ## On one line -/

/-- Where a reader of basic text stands: between characters, behind a backslash, or within the
digits of a character's number. -/
inductive Place where
  | between
  | escape
  | digits (further value : Nat)

/-- A basic text on one line, up to its closing quote. -/
def basicFrom : Place → List Char → Option (List Char × List Char)
  | _, [] => none
  | .between, c :: rest =>
    if c = '"' then some ([], rest)
    else if c = '\\' then basicFrom .escape rest
    else if isPlain c then (basicFrom .between rest).map (pushFront c)
    else none
  | .escape, c :: rest =>
    match Escape.ofChar? c with
    | some (.char d) => (basicFrom .between rest).map (pushFront d)
    | some (.hex further) => basicFrom (.digits further 0) rest
    | none => none
  | .digits further value, c :: rest =>
    match hexValue? c with
    | none => none
    | some digit =>
      match further with
      | k + 1 => basicFrom (.digits k (value * 16 + digit)) rest
      | 0 =>
        match charOfNat? (value * 16 + digit) with
        | some d => (basicFrom .between rest).map (pushFront d)
        | none => none

/-- The quote of literal text. -/
def literalQuote : Char := '\x27'

/-- A literal text on one line, up to its closing quote. -/
def literalFrom : List Char → Option (List Char × List Char)
  | [] => none
  | c :: rest =>
    if c = literalQuote then some ([], rest)
    else if isPlain c then (literalFrom rest).map (pushFront c)
    else none

/-! ## Over several lines -/

/-- Where a reader of text over several lines stands. -/
inductive BlockPlace where
  /-- Between characters. -/
  | between
  /-- Behind a backslash. -/
  | escape
  /-- Within the digits of a character's number. -/
  | digits (further value : Nat)
  /-- Behind a carriage return, which only a line feed may follow. -/
  | lineEnd
  /-- Behind a backslash and blanks, before the end of the line. -/
  | gap
  /-- Behind the carriage return that ends such a line. -/
  | gapEnd
  /-- Behind the end of such a line: blanks and line ends are dropped up to the next text. -/
  | margin
  /-- Behind a carriage return of such a margin. -/
  | marginEnd
  /-- Behind so many quotes. -/
  | quotes (count : Nat)

/-- What one character does between characters: the text it gives and the place after it.  `quote`
is the quote of the text; only basic text has escapes. -/
def blockStep (quote : Char) (c : Char) : Option (List Char × BlockPlace) :=
  if c = quote then some ([], .quotes 1)
  else if c = '\\' ∧ quote ≠ literalQuote then some ([], .escape)
  else if c = '\r' then some ([c], .lineEnd)
  else if c = '\n' ∨ isPlain c then some ([c], .between)
  else none

/-- What one character does behind a backslash and the blanks after it. -/
def gapStep (c : Char) : Option BlockPlace :=
  if isSpace c then some .gap
  else if c = '\n' then some .margin
  else if c = '\r' then some .gapEnd
  else none

/-- What one character does at any place but behind three closing quotes. -/
def blockPlaceStep (quote : Char) (place : BlockPlace) (c : Char) :
    Option (List Char × BlockPlace) :=
  match place with
  | .between => blockStep quote c
  | .escape =>
    match Escape.ofChar? c with
    | some (.char d) => some ([d], .between)
    | some (.hex further) => some ([], .digits further 0)
    | none => (gapStep c).map fun next => ([], next)
  | .digits further value =>
    (hexValue? c).bind fun digit =>
      match further with
      | k + 1 => some ([], .digits k (value * 16 + digit))
      | 0 => (charOfNat? (value * 16 + digit)).map fun d => ([d], .between)
  | .lineEnd => if c = '\n' then some ([c], .between) else none
  | .gap => (gapStep c).map fun next => ([], next)
  | .gapEnd => if c = '\n' then some ([], .margin) else none
  | .margin =>
    if isSpace c ∨ c = '\n' then some ([], .margin)
    else if c = '\r' then some ([], .marginEnd)
    else blockStep quote c
  | .marginEnd => if c = '\n' then some ([], .margin) else none
  | .quotes count =>
    if c = quote then some ([], .quotes (count + 1))
    else (blockStep quote c).map fun (text, next) => (List.replicate count quote ++ text, next)

/-- A text over several lines, up to its three closing quotes; one or two further quotes right
before those belong to the text. -/
def blockFrom (quote : Char) : BlockPlace → List Char → Option (List Char × List Char)
  | .quotes (k + 3), [] => some (List.replicate k quote, [])
  | _, [] => none
  | place, c :: rest =>
    match place with
    | .quotes 5 => some (List.replicate 2 quote, c :: rest)
    | .quotes (k + 3) =>
      if c = quote then blockFrom quote (.quotes (k + 4)) rest
      else some (List.replicate k quote, c :: rest)
    | place =>
      (blockPlaceStep quote place c).bind fun (text, next) =>
        (blockFrom quote next rest).map fun (more, rest) => (text ++ more, rest)

/-- A line end right behind the opening quotes is not part of the text. -/
def dropFirstLineEnd : List Char → List Char
  | '\n' :: rest => rest
  | '\r' :: '\n' :: rest => rest
  | cs => cs

/-- A text in any of the four quotations, at the front of the given characters; `block` admits the
two that may run over several lines. -/
def quoted (block : Bool) : List Char → Option (List Char × List Char)
  | [] => none
  | c :: rest =>
    if c = '"' ∨ c = literalQuote then
      match rest with
      | d :: e :: rest' =>
        if block ∧ d = c ∧ e = c then blockFrom c .between (dropFirstLineEnd rest')
        else if c = '"' then basicFrom .between rest else literalFrom rest
      | _ => if c = '"' then basicFrom .between rest else literalFrom rest
    else none

end BuildLauncher.Toml
