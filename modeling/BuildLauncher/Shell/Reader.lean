import BuildLauncher.Shell.Script

/-!
# Reading scripts

A reader of the language of the shell: words with their quotes and parameters, simple commands with
assignments and redirections, pipelines, and the compound commands.  The first argument of every
reader counts down; a script of a given length never uses it up.
-/

namespace BuildLauncher.Shell

/-! ## Characters -/

/-- A blank within a line. -/
def isBlank (c : Char) : Bool := c == ' ' || c == '\t'

/-- A character that ends a word, unless it is quoted. -/
def isMeta (c : Char) : Bool :=
  isBlank c || c == '\n' || c == ';' || c == '&' || c == '|' || c == '<' || c == '>' || c == '(' ||
    c == ')'

/-- What follows blanks and the ends of continued lines. -/
def skipBlanks : Raw → Raw
  | '\\' :: '\n' :: rest => skipBlanks rest
  | c :: rest => if isBlank c then skipBlanks rest else c :: rest
  | [] => []

/-- What follows blanks and a comment. -/
def skipComment (cs : Raw) : Raw :=
  match skipBlanks cs with
  | '#' :: rest => rest.dropWhile (· ≠ '\n')
  | cs => cs

/-- What follows blanks, comments and line ends. -/
def skipLines : Nat → Raw → Raw
  | 0, cs => cs
  | fuel + 1, cs =>
    match skipComment cs with
    | '\n' :: rest => skipLines fuel rest
    | cs => cs

/-- What follows all the lines that hold nothing. -/
def skipEmptyLines (cs : Raw) : Raw := skipLines (cs.length + 1) cs

/-- The characters up to the next one that ends a word. -/
def nextWord (cs : Raw) : Raw := cs.takeWhile (!isMeta ·)

/-- What follows a given word. -/
def afterWord (word : String) (cs : Raw) : Option Raw :=
  if nextWord cs = word.toList then some (cs.drop word.length) else none

/-- The words that end the commands before them. -/
def closers : List Raw :=
  ["then", "else", "elif", "fi", "do", "done", "esac", "\x7d"].map String.toList

/-- Whether no command starts here. -/
def isClosed (cs : Raw) : Bool :=
  match cs with
  | [] => true
  | ')' :: _ => true
  | ';' :: ';' :: _ => true
  | cs => closers.contains (nextWord cs)

/-- The parameters whose names are one sign. -/
def isSpecialParameter (c : Char) : Bool :=
  c == '*' || c == '@' || c == '#' || c == '?' || c == '$' || c == '!' || c == '-' || c.isDigit

/-- A number in front of a redirection. -/
def streamNumber (cs : Raw) : Option Nat × Raw :=
  match cs with
  | d :: c :: rest =>
    if d.isDigit ∧ (c = '<' ∨ c = '>') then (some (d.toNat - '0'.toNat), c :: rest) else (none, cs)
  | cs => (none, cs)

/-- The operator of a parameter in braces, and what follows it. -/
def readOperator (cs : Raw) : Option (Operator × Raw) :=
  match cs with
  | ':' :: '-' :: rest => some (.default true, rest)
  | ':' :: '+' :: rest => some (.alternative true, rest)
  | '-' :: rest => some (.default false, rest)
  | '+' :: rest => some (.alternative false, rest)
  | '}' :: _ => some (.plain, cs)
  | _ => none

/-- The name of a parameter, and what follows it. -/
def parameterName (cs : Raw) : Option (Raw × Raw) :=
  match cs with
  | [] => none
  | c :: rest =>
    if c.isAlpha ∨ c = '_' then some (cs.takeWhile isNameChar, cs.dropWhile isNameChar)
    else if c.isDigit then some (cs.takeWhile Char.isDigit, cs.dropWhile Char.isDigit)
    else if isSpecialParameter c then some ([c], rest)
    else none

/-! ## Words and commands -/

/-- Puts a part in front of those that were read behind it. -/
def consPart (part : Part) : Option (List Part × Raw) → Option (List Part × Raw)
  | none => none
  | some (parts, rest) => some (part :: parts, rest)

mutual

/-- The parts of a word, up to a character that ends it. -/
def readParts : Nat → Bool → (Char → Bool) → Raw → Option (List Part × Raw)
  | 0, _, _, _ => none
  | fuel + 1, quoted, stop, cs =>
    match cs with
    | [] => some ([], [])
    | c :: rest =>
      if stop c then some ([], cs)
      else if c = '\\' then
        match rest with
        | '\n' :: rest => readParts fuel quoted stop rest
        | d :: rest =>
          let kept := quoted && !(d == '$' || d == '\x60' || d == '"' || d == '\\')
          consPart (.text true (if kept then ['\\', d] else [d])) (readParts fuel quoted stop rest)
        | [] => some ([.text true ['\\']], [])
      else if c = '\x27' ∧ quoted = false then
        match rest.dropWhile (· ≠ '\x27') with
        | _ :: after =>
          consPart (.text true (rest.takeWhile (· ≠ '\x27'))) (readParts fuel quoted stop after)
        | [] => none
      else if c = '"' ∧ quoted = false then
        match readParts fuel true (· == '"') rest with
        | some (inner, '"' :: after) =>
          (readParts fuel quoted stop after).map fun (parts, rest) =>
            ((if inner.isEmpty then [.text true []] else inner) ++ parts, rest)
        | _ => none
      else if c = '$' then
        match readDollar fuel quoted rest with
        | some (part, rest) => consPart part (readParts fuel quoted stop rest)
        | none => none
      else consPart (.text quoted [c]) (readParts fuel quoted stop rest)

/-- What a dollar sign introduces. -/
def readDollar : Nat → Bool → Raw → Option (Part × Raw)
  | 0, _, _ => none
  | fuel + 1, quoted, cs =>
    match cs with
    | '{' :: rest => do
      let (name, rest) ← parameterName rest
      let (op, rest) ← readOperator rest
      match ← readParts fuel quoted (· == '}') rest with
      | (argument, '}' :: rest) => some (.parameter quoted name op argument, rest)
      | _ => none
    | '(' :: rest =>
      match readList fuel rest with
      | some (script, ')' :: rest) => some (.output quoted script, rest)
      | _ => none
    | c :: rest =>
      if c.isAlpha ∨ c = '_' then
        some (.parameter quoted (cs.takeWhile isNameChar) .plain [], cs.dropWhile isNameChar)
      else if isSpecialParameter c then some (.parameter quoted [c] .plain [], rest)
      else some (.text quoted ['$'], cs)
    | [] => some (.text quoted ['$'], [])

/-- Commands one after the other, up to a word that ends them. -/
def readList : Nat → Raw → Option (Script × Raw)
  | 0, _ => none
  | fuel + 1, cs =>
    let cs := skipEmptyLines cs
    if isClosed cs then some ([], cs)
    else do
      let (command, cs) ← readAndOr fuel cs
      match skipComment cs with
      | ';' :: ';' :: rest => some ([command], ';' :: ';' :: rest)
      | ';' :: rest | '\n' :: rest | '&' :: rest =>
        let (commands, rest) ← readList fuel rest
        some (command :: commands, rest)
      | cs => if isClosed cs then some ([command], cs) else none

/-- Pipelines joined by `&&` and `||`. -/
def readAndOr : Nat → Raw → Option (Command × Raw)
  | 0, _ => none
  | fuel + 1, cs => do
    let (command, cs) ← readPipeline fuel cs
    readJoined fuel command cs

/-- What `&&` and `||` add to a command. -/
def readJoined : Nat → Command → Raw → Option (Command × Raw)
  | 0, _, _ => none
  | fuel + 1, left, cs =>
    match skipBlanks cs with
    | '&' :: '&' :: rest => do
      let (right, rest) ← readPipeline fuel (skipEmptyLines rest)
      readJoined fuel (.and left right) rest
    | '|' :: '|' :: rest => do
      let (right, rest) ← readPipeline fuel (skipEmptyLines rest)
      readJoined fuel (.or left right) rest
    | cs => some (left, cs)

/-- Commands joined by bars, perhaps behind an exclamation mark. -/
def readPipeline : Nat → Raw → Option (Command × Raw)
  | 0, _ => none
  | fuel + 1, cs =>
    match afterWord "!" cs with
    | some rest => do
      let (commands, rest) ← readStages fuel (skipBlanks rest)
      some (.pipeline true commands, rest)
    | none => do
      match ← readStages fuel cs with
      | ([command], rest) => some (command, rest)
      | (commands, rest) => some (.pipeline false commands, rest)

/-- The commands between bars. -/
def readStages : Nat → Raw → Option (List Command × Raw)
  | 0, _ => none
  | fuel + 1, cs => do
    let (command, cs) ← readCommand fuel cs
    match skipBlanks cs with
    | '|' :: '|' :: rest => some ([command], '|' :: '|' :: rest)
    | '|' :: rest =>
      let (commands, rest) ← readStages fuel (skipEmptyLines rest)
      some (command :: commands, rest)
    | cs => some ([command], cs)

/-- One command. -/
def readCommand : Nat → Raw → Option (Command × Raw)
  | 0, _ => none
  | fuel + 1, cs =>
    match cs with
    | '(' :: rest =>
      match readList fuel rest with
      | some (body, ')' :: rest) => readRedirected fuel (.nested body) rest
      | _ => none
    | cs =>
      let word := nextWord cs
      let rest := cs.drop word.length
      if word = "\x7b".toList then do
        let (body, rest) ← readList fuel rest
        readRedirected fuel (.group body) (← afterWord "\x7d" rest)
      else if word = "if".toList then do
        let (command, rest) ← readBranch fuel [] rest
        readRedirected fuel command rest
      else if word = "for".toList then do
        let rest := skipBlanks rest
        let name := rest.takeWhile isNameChar
        let rest := skipEmptyLines (rest.dropWhile isNameChar)
        let (words, rest) ←
          match afterWord "in" rest with
          | some rest => (readWords fuel rest).map fun (words, rest) => (some words, rest)
          | none => some (none, rest)
        let rest :=
          match skipBlanks rest with
          | ';' :: rest => rest
          | rest => rest
        let (body, rest) ← readList fuel (← afterWord "do" (skipEmptyLines rest))
        if isName name then
          readRedirected fuel (.each name words body) (← afterWord "done" rest)
        else none
      else if word = "case".toList then do
        let (parts, rest) ← readParts fuel false isMeta (skipBlanks rest)
        let (clauses, rest) ←
          readClauses fuel (skipEmptyLines (← afterWord "in" (skipEmptyLines rest)))
        readRedirected fuel (.choose parts clauses) rest
      else readSimple fuel [] [] [] cs

/-- The clauses of a condition, behind the word that starts one. -/
def readBranch : Nat → List (Script × Script) → Raw → Option (Command × Raw)
  | 0, _, _ => none
  | fuel + 1, clauses, cs => do
    let (condition, cs) ← readList fuel cs
    let (body, cs) ← readList fuel (← afterWord "then" cs)
    let clauses := clauses ++ [(condition, body)]
    match afterWord "elif" cs with
    | some cs => readBranch fuel clauses cs
    | none =>
      match afterWord "else" cs with
      | some cs =>
        let (otherwise, cs) ← readList fuel cs
        some (.branch clauses otherwise, ← afterWord "fi" cs)
      | none => some (.branch clauses [], ← afterWord "fi" cs)

/-- The clauses of a choice, up to the word that ends it. -/
def readClauses : Nat → Raw → Option (List (List Word × Script) × Raw)
  | 0, _ => none
  | fuel + 1, cs =>
    match afterWord "esac" cs with
    | some rest => some ([], rest)
    | none => do
      let cs := match cs with
        | '(' :: rest => rest
        | cs => cs
      let (patterns, cs) ← readPatterns fuel cs
      let (body, cs) ← readList fuel cs
      match cs with
      | ';' :: ';' :: rest =>
        let (clauses, rest) ← readClauses fuel (skipEmptyLines rest)
        some ((patterns, body) :: clauses, rest)
      | cs => some ([(patterns, body)], ← afterWord "esac" cs)

/-- The patterns of a clause, their bracket included. -/
def readPatterns : Nat → Raw → Option (List Word × Raw)
  | 0, _ => none
  | fuel + 1, cs => do
    let (pattern, cs) ← readParts fuel false isMeta (skipBlanks cs)
    match skipBlanks cs with
    | ')' :: rest => some ([pattern], rest)
    | '|' :: rest =>
      let (patterns, rest) ← readPatterns fuel rest
      some (pattern :: patterns, rest)
    | _ => none

/-- Words up to the end of the line or command. -/
def readWords : Nat → Raw → Option (List Word × Raw)
  | 0, _ => none
  | fuel + 1, cs =>
    match skipComment cs with
    | [] => some ([], [])
    | c :: rest =>
      if isMeta c then some ([], c :: rest)
      else do
        let (word, rest) ← readParts fuel false isMeta (c :: rest)
        let (words, rest) ← readWords fuel rest
        some (word :: words, rest)

/-- A redirection, behind its number. -/
def readRedirection : Nat → Option Nat → Raw → Option (Redirection × Raw)
  | 0, _, _ => none
  | fuel + 1, number, cs => do
    let (number, kind, rest) ←
      match cs with
      | '>' :: '>' :: rest => some (number.getD 1, Redirection.Kind.append, rest)
      | '>' :: '&' :: rest => some (number.getD 1, .duplicate, rest)
      | '>' :: '|' :: rest => some (number.getD 1, .truncate, rest)
      | '>' :: rest => some (number.getD 1, .truncate, rest)
      | '<' :: '&' :: rest => some (number.getD 0, .duplicate, rest)
      | '<' :: '<' :: _ => none
      | '<' :: rest => some (number.getD 0, .input, rest)
      | _ => none
    let (target, rest) ← readParts fuel false isMeta (skipBlanks rest)
    if target.isEmpty then none else some (.mk number kind target, rest)

/-- The redirections behind a compound command. -/
def readRedirected : Nat → Command → Raw → Option (Command × Raw)
  | 0, _, _ => none
  | fuel + 1, command, cs =>
    let (number, rest) := streamNumber (skipBlanks cs)
    match readRedirection fuel number rest with
    | some (redirection, rest) => readRedirected fuel (.redirect command [redirection]) rest
    | none => some (command, cs)

/-- A simple command: assignments, words and redirections. -/
def readSimple : Nat → List (Raw × Word) → List Word → List Redirection → Raw →
    Option (Command × Raw)
  | 0, _, _, _, _ => none
  | fuel + 1, assignments, words, redirections, cs =>
    let cs := skipComment cs
    let (number, afterNumber) := streamNumber cs
    match readRedirection fuel number afterNumber with
    | some (redirection, rest) =>
      readSimple fuel assignments words (redirections ++ [redirection]) rest
    | none =>
      match cs with
      | [] =>
        if assignments.isEmpty ∧ words.isEmpty ∧ redirections.isEmpty then none
        else some (.simple assignments words redirections, [])
      | c :: rest =>
        if isMeta c then
          if assignments.isEmpty ∧ words.isEmpty ∧ redirections.isEmpty then none
          else some (.simple assignments words redirections, c :: rest)
        else
          let name := cs.takeWhile isNameChar
          match words, isName name, cs.drop name.length with
          | [], true, '=' :: rest => do
            let (value, rest) ← readParts fuel false isMeta rest
            readSimple fuel (assignments ++ [(name, value)]) words redirections rest
          | _, _, _ => do
            let (word, rest) ← readParts fuel false isMeta cs
            readSimple fuel assignments (words ++ [word]) redirections rest

end

/-- The script that a text spells. -/
def Script.ofRaw? (cs : Raw) : Option Script :=
  match readList (12 * cs.length + 24) cs with
  | some (script, []) => some script
  | _ => none

end BuildLauncher.Shell
