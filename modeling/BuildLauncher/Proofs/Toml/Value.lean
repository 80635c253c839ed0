import BuildLauncher.Toml.Value

/-!
# Readings of keys and values

What the readers of dotted keys, arrays and inline tables find, as derivations: one rule for each
way through a reader.  Statements about everything that can be read go by induction on these.

* `Toml.keyPath_eq_some_iff`, `Toml.arrayElements_eq_some_iff`, `Toml.inlineEntries_eq_some_iff`:
  the readers find exactly what the rules derive.
* `Toml.value_bracket`, `Toml.value_brace`, `Toml.value_quoted`, `Toml.value_other`: values by their
  first character.
-/

namespace BuildLauncher.Toml

theorem after_eq_some_iff {mark : Char} {cs rest : List Char} :
    after mark cs = some rest ↔ cs = mark :: rest := by
  cases cs with
  | nil => exact ⟨nofun, nofun⟩
  | cons c cs =>
    rw [after, Option.ite_none_right_eq_some]
    constructor
    · rintro ⟨rfl, same⟩
      rw [Option.some.inj same]
    · intro same
      obtain ⟨rfl, rfl⟩ := List.cons.inj same
      exact ⟨rfl, rfl⟩

/-! ## Dotted keys -/

/-- A dotted key of at most so many parts. -/
inductive Path : Nat → List Char → List Key → List Char → Prop
  | last {parts : Nat} {cs behind : List Char} {key : Key} :
    keyPart (skipSpaces cs) = some (key, behind) → (∀ next, skipSpaces behind ≠ '.' :: next) →
    Path (parts + 1) cs [key] (skipSpaces behind)
  | dot {parts : Nat} {cs behind next rest : List Char} {key : Key} {keys : List Key} :
    keyPart (skipSpaces cs) = some (key, behind) → skipSpaces behind = '.' :: next →
    Path parts next keys rest → Path (parts + 1) cs (key :: keys) rest

theorem keyPath_of_path {parts : Nat} {cs rest : List Char} {keys : List Key}
    (path : Path parts cs keys rest) : keyPath parts cs = some (keys, rest) := by
  induction path with
  | last part final =>
    rw [keyPath, part]
    dsimp only [Option.bind_eq_bind, Option.bind_some]
    split
    · next next same => exact absurd same (final next)
    · rfl
  | dot part dotted _ ih =>
    rw [keyPath, part]
    simp only [Option.bind_eq_bind, Option.bind_some, dotted, ih]

theorem path_of_keyPath {parts : Nat} {cs rest : List Char} {keys : List Key}
    (read : keyPath parts cs = some (keys, rest)) : Path parts cs keys rest := by
  induction parts generalizing cs keys with
  | zero => cases read
  | succ parts ih =>
    rw [keyPath, Option.bind_eq_bind, Option.bind_eq_some_iff] at read
    obtain ⟨⟨key, behind⟩, part, read⟩ := read
    dsimp only at read
    split at read
    · next next dotted =>
      rw [Option.bind_eq_bind, Option.bind_eq_some_iff] at read
      obtain ⟨⟨keys, rest⟩, more, same⟩ := read
      cases same
      exact .dot part dotted (ih more)
    · next final =>
      cases read
      exact .last part final

theorem keyPath_eq_some_iff {parts : Nat} {cs rest : List Char} {keys : List Key} :
    keyPath parts cs = some (keys, rest) ↔ Path parts cs keys rest :=
  ⟨path_of_keyPath, keyPath_of_path⟩

section Brackets

variable {read : List Char → Option (Node × List Char)}

/-! ## Arrays -/

/-- The elements of an array up to its closing bracket, with at most so many steps. -/
inductive Elements (read : List Char → Option (Node × List Char)) :
    Nat → List Char → List Node → List Char → Prop
  | close {fuel : Nat} {cs rest : List Char} :
    skipBlank cs = some (']' :: rest) → Elements read (fuel + 1) cs [] rest
  | last {fuel : Nat} {cs start behind rest : List Char} {node : Node} :
    skipBlank cs = some start → (∀ rest, start ≠ ']' :: rest) →
    read start = some (node, behind) → skipBlank behind = some (']' :: rest) →
    Elements read (fuel + 1) cs [node] rest
  | more {fuel : Nat} {cs start behind next rest : List Char} {node : Node} {nodes : List Node} :
    skipBlank cs = some start → (∀ rest, start ≠ ']' :: rest) →
    read start = some (node, behind) → skipBlank behind = some (',' :: next) →
    Elements read fuel next nodes rest → Elements read (fuel + 1) cs (node :: nodes) rest

theorem arrayElements_of_elements {fuel : Nat} {cs rest : List Char} {nodes : List Node}
    (elements : Elements read fuel cs nodes rest) :
    arrayElements read fuel cs = some (nodes, rest) := by
  induction elements with
  | close blank => simp only [arrayElements, blank, Option.bind_eq_bind, Option.bind_some]
  | last blank other one closed =>
    rw [arrayElements, blank]
    dsimp only [Option.bind_eq_bind, Option.bind_some]
    split
    · next rest => exact absurd rfl (other rest)
    · simp only [one, closed, Option.bind_some]
  | more blank other one comma _ ih =>
    rw [arrayElements, blank]
    dsimp only [Option.bind_eq_bind, Option.bind_some]
    split
    · next rest => exact absurd rfl (other rest)
    · simp only [one, comma, ih, Option.bind_some]

theorem elements_of_arrayElements {fuel : Nat} {cs rest : List Char} {nodes : List Node}
    (found : arrayElements read fuel cs = some (nodes, rest)) :
    Elements read fuel cs nodes rest := by
  induction fuel generalizing cs nodes with
  | zero => cases found
  | succ fuel ih =>
    rw [arrayElements, Option.bind_eq_bind, Option.bind_eq_some_iff] at found
    obtain ⟨start, blank, found⟩ := found
    split at found
    · cases found
      exact .close blank
    · next other =>
      simp only [Option.bind_eq_bind, Option.bind_eq_some_iff] at found
      obtain ⟨⟨node, behind⟩, one, further, ended, found⟩ := found
      split at found
      · cases found
        exact .last blank other one ended
      · rw [Option.bind_eq_some_iff] at found
        obtain ⟨⟨nodes, rest⟩, others, same⟩ := found
        cases same
        exact .more blank other one ended (ih others)
      · cases found

theorem arrayElements_eq_some_iff {fuel : Nat} {cs rest : List Char} {nodes : List Node} :
    arrayElements read fuel cs = some (nodes, rest) ↔ Elements read fuel cs nodes rest :=
  ⟨elements_of_arrayElements, arrayElements_of_elements⟩

/-! ## Inline tables -/

/-- The assignments of an inline table up to its closing brace, added to the given entries. -/
inductive Fields (read : List Char → Option (Node × List Char)) :
    Nat → Entries → List Char → Entries → List Char → Prop
  | close {fuel : Nat} {entries : Entries} {cs rest : List Char} :
    skipBlank cs = some ('}' :: rest) → Fields read (fuel + 1) entries cs entries rest
  | last {fuel : Nat} {entries entries' : Entries} {cs start named marked behind rest : List Char}
      {next : List Char} {path : List Key} {node : Node} :
    skipBlank cs = some start → (∀ rest, start ≠ '}' :: rest) →
    keyPath maxKeyParts start = some (path, named) → skipBlank named = some ('=' :: marked) →
    skipBlank marked = some next → read next = some (node, behind) →
    entries.assign path node = some entries' → skipBlank behind = some ('}' :: rest) →
    Fields read (fuel + 1) entries cs entries' rest
  | more {fuel : Nat} {entries entries' all : Entries}
      {cs start named marked behind rest next further : List Char} {path : List Key} {node : Node} :
    skipBlank cs = some start → (∀ rest, start ≠ '}' :: rest) →
    keyPath maxKeyParts start = some (path, named) → skipBlank named = some ('=' :: marked) →
    skipBlank marked = some next → read next = some (node, behind) →
    entries.assign path node = some entries' → skipBlank behind = some (',' :: further) →
    Fields read fuel entries' further all rest → Fields read (fuel + 1) entries cs all rest

theorem inlineEntries_of_fields {fuel : Nat} {entries all : Entries} {cs rest : List Char}
    (fields : Fields read fuel entries cs all rest) :
    inlineEntries read fuel entries cs = some (all, rest) := by
  induction fields with
  | close blank => simp only [inlineEntries, blank, Option.bind_eq_bind, Option.bind_some]
  | last blank other key mark spaced one added closed =>
    rw [inlineEntries, blank]
    dsimp only [Option.bind_eq_bind, Option.bind_some]
    split
    · next rest => exact absurd rfl (other rest)
    · simp only [key, mark, after, ↓reduceIte, spaced, one, added, closed, Option.bind_some]
  | more blank other key mark spaced one added comma _ ih =>
    rw [inlineEntries, blank]
    dsimp only [Option.bind_eq_bind, Option.bind_some]
    split
    · next rest => exact absurd rfl (other rest)
    · simp only [key, mark, after, ↓reduceIte, spaced, one, added, comma, ih, Option.bind_some]

theorem fields_of_inlineEntries {fuel : Nat} {entries all : Entries} {cs rest : List Char}
    (found : inlineEntries read fuel entries cs = some (all, rest)) :
    Fields read fuel entries cs all rest := by
  induction fuel generalizing entries cs with
  | zero => cases found
  | succ fuel ih =>
    rw [inlineEntries, Option.bind_eq_bind, Option.bind_eq_some_iff] at found
    obtain ⟨start, blank, found⟩ := found
    split at found
    · cases found
      exact .close blank
    · next other =>
      simp only [Option.bind_eq_bind, Option.bind_eq_some_iff, after_eq_some_iff] at found
      obtain ⟨⟨path, named⟩, key, _, mark, marked, rfl, next, spaced, ⟨node, behind⟩, one,
        entries', added, further, ended, found⟩ := found
      split at found
      · cases found
        exact .last blank other key mark spaced one added ended
      · exact .more blank other key mark spaced one added ended (ih found)
      · cases found

theorem inlineEntries_eq_some_iff {fuel : Nat} {entries all : Entries} {cs rest : List Char} :
    inlineEntries read fuel entries cs = some (all, rest) ↔
      Fields read fuel entries cs all rest :=
  ⟨fields_of_inlineEntries, inlineEntries_of_fields⟩

end Brackets

/-! ## Values -/

theorem value_bracket (depth : Nat) (cs : List Char) :
    value (depth + 1) ('[' :: cs) =
      (arrayElements (value depth) (cs.length + 1) cs).map fun (nodes, rest) =>
        (.array nodes, rest) :=
  rfl

theorem value_brace (depth : Nat) (cs : List Char) :
    value (depth + 1) ('\x7b' :: cs) =
      (inlineEntries (value depth) (cs.length + 1) [] cs).map fun (entries, rest) =>
        (.table .inline entries, rest) :=
  rfl

theorem value_quoted {depth : Nat} {quote : Char} (cs : List Char)
    (quoting : quote = '"' ∨ quote = literalQuote) :
    value depth (quote :: cs) =
      (quoted true (quote :: cs)).map fun (text, rest) => (.text text, rest) := by
  rcases quoting with rfl | rfl <;> cases depth <;> rfl

theorem value_other {depth : Nat} {c : Char} (cs : List Char) (noArray : c ≠ '[')
    (noTable : c ≠ '\x7b') (noQuote : c ≠ '"') (noLiteral : c ≠ literalQuote) :
    value depth (c :: cs) = scalar (c :: cs) := by
  unfold value
  split
  · next same => exact absurd (List.cons.inj same).1 noArray
  · next same => exact absurd (List.cons.inj same).1 noTable
  · rw [List.head?_cons]
    split
    · next same => exact absurd (Option.some.inj same) noQuote
    · next same => exact absurd (Option.some.inj same) noLiteral
    · rfl

theorem value_nil (depth : Nat) : value depth [] = none := by
  cases depth <;> rfl

end BuildLauncher.Toml
