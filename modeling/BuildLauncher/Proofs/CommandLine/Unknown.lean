import BuildLauncher.Proofs.CommandLine.Options

/-!
# Unknown verbs and the verb for help

A first word that is no verb and no option makes an unknown command.  It has all the words, and none
of them means anything, be it spelled like an option, a verb or the mark that ends the options; only
bytes that are no text are refused.  The verb for help is replaced by the option before anything is
read, and takes the words behind it away.

* `CommandLine.Verb.ofWord?_eq_none_iff`: the words that are no verb.
* `CommandLine.read_unknown`, `CommandLine.read_unknown_of_broken`: unknown commands.
* `CommandLine.normalize_of_ne`, `CommandLine.normalize_normalize`, `CommandLine.read_help`: the
  verb for help.
-/

namespace BuildLauncher.CommandLine

/-! ## Verbs -/

/-- The words that name a verb. -/
def verbWords : List String := ["configure", "build", "make", "test", "clippy", "rustfmt"]

theorem Verb.ofWord?_eq_none_iff {word : String} :
    Verb.ofWord? (Utf8.ofString word) = none ↔ word ∉ verbWords := by
  unfold Verb.ofWord? verbWords
  rw [Utf8.decode?_eq_some_iff.mpr rfl]
  split
  all_goals simp_all

/-- A text whose first byte is a hyphen starts with one. -/
theorem head?_ofString_eq_hyphen {text : String}
    (dashed : (Utf8.ofString text).head? = some hyphen) : text.toList.head? = some '-' := by
  obtain ⟨rest, bytes⟩ := List.head?_eq_some_iff.mp dashed
  have read : Utf8.pieces (hyphen :: rest) = text.toList.map some := by
    rw [← bytes]
    exact Utf8.pieces_encode text.toList
  have first : Utf8.pieces (hyphen :: rest) = some '-' :: Utf8.pieces rest := rfl
  rw [first] at read
  obtain ⟨c, cs, chars, same, -⟩ := List.map_eq_cons_iff.mp read.symm
  rw [chars, Option.some.inj same]
  rfl

/-- A text that is a hyphen alone or does not start with one is a plain word. -/
theorem ofBytes_ofString_of_plain {word : String}
    (plain : word = "-" ∨ word.toList.head? ≠ some '-') :
    Word.ofBytes (Utf8.ofString word) = .plain := by
  apply Word.ofBytes_eq_plain_iff.mpr
  rcases plain with rfl | plain
  · exact .inl rfl
  · exact .inr fun dashed => plain (head?_ofString_eq_hyphen dashed)

/-! ## Unknown commands -/

/-- All the words are kept. -/
theorem unknownCommand_of_texts (words : List String) :
    unknownCommand (words.map Utf8.ofString) = .ok (some (.unknown words)) := by
  have decoded : (words.map Utf8.ofString).mapM Utf8.decode? = some words :=
    (Text.mapM_eq_some_iff fun _ _ => Utf8.decode?_eq_some_iff).mpr rfl
  unfold unknownCommand
  rw [decoded]

/-- The refusal of a word that is no text. -/
def notText : Refusal := { cause := .notUtf8, page := .launcher }

theorem unknownCommand_of_broken {words : List Bytes}
    (broken : ∃ word ∈ words, ∀ text, word ≠ Utf8.ofString text) :
    unknownCommand words = .error notText := by
  unfold unknownCommand
  split
  · next texts decoded =>
    have spelled : words = texts.map Utf8.ofString :=
      (Text.mapM_eq_some_iff fun _ _ => Utf8.decode?_eq_some_iff).mp decoded
    obtain ⟨word, mem, other⟩ := broken
    rw [spelled] at mem
    obtain ⟨text, -, same⟩ := List.mem_map.mp mem
    exact absurd same.symm (other text)
  · rfl

/-! ## The verb for help -/

variable {args : List Bytes}

/-- Only the verb for help is replaced. -/
theorem normalize_of_ne (other : args[1]? ≠ some helpWord) : normalize args = args := by
  unfold normalize
  split
  · next program word rest =>
    have named : word ≠ helpWord := by
      rintro rfl
      exact other rfl
    rw [if_neg named]
  · rfl

theorem normalize_help (program : Bytes) (words : List Bytes) :
    normalize (program :: helpWord :: words) = [program, helpOption] := by
  unfold normalize
  exact if_pos rfl

theorem normalize_normalize (args : List Bytes) : normalize (normalize args) = normalize args := by
  have apart : helpOption ≠ helpWord := by decide
  by_cases help : args[1]? = some helpWord
  · rcases args with _ | ⟨program, _ | ⟨word, words⟩⟩
    · cases help
    · cases help
    · obtain rfl : word = helpWord := Option.some.inj help
      rw [normalize_help]
      exact normalize_of_ne fun same => apart (Option.some.inj same)
  · rw [normalize_of_ne help, normalize_of_ne help]

/-- The refusal that shows the help of the launcher. -/
def helpAsked : Refusal := { cause := .help, page := .launcher }

theorem read_help (program : Bytes) (words : List Bytes) :
    read (program :: helpWord :: words) = .error helpAsked := by
  unfold read
  rw [normalize_help]
  rfl

theorem read_helpOption (program : Bytes) : read [program, helpOption] = .error helpAsked := rfl

/-! ## The whole command line -/

/-- A word that makes the command unknown: no verb, not the one for help, and no option. -/
structure IsUnknown (word : String) : Prop where
  verb : word ∉ verbWords
  help : word ≠ "help"
  plain : word = "-" ∨ word.toList.head? ≠ some '-'

/-- A word that ends in a verb is none. -/
example : IsUnknown "reconfigure" := ⟨by decide, by decide, .inr (by decide)⟩

/-- A command line whose words behind the program's name are texts. -/
def textLine (program : Bytes) (words : List String) : List Bytes :=
  program :: words.map Utf8.ofString

theorem IsUnknown.read_eq {word : String} (unknown : IsUnknown word) (program : Bytes)
    (words : List Bytes) :
    read (program :: Utf8.ofString word :: words) =
      unknownCommand (Utf8.ofString word :: words) := by
  have other : Utf8.ofString word ≠ helpWord := fun same =>
    unknown.help (String.toList_inj.mp (Utf8.encode_injective same))
  have kept : normalize (program :: Utf8.ofString word :: words) =
      program :: Utf8.ofString word :: words :=
    normalize_of_ne fun same => other (Option.some.inj same)
  unfold read
  rw [kept, List.tail_cons]
  unfold readWords
  dsimp only
  rw [ofBytes_ofString_of_plain unknown.plain]
  dsimp only
  rw [Verb.ofWord?_eq_none_iff.mpr unknown.verb]

/-- An unknown command has all its words as they are. -/
theorem read_unknown {word : String} (unknown : IsUnknown word) (program : Bytes)
    (words : List String) :
    read (textLine program (word :: words)) = .ok (some (.unknown (word :: words))) := by
  unfold textLine
  rw [List.map_cons, unknown.read_eq]
  exact unknownCommand_of_texts (word :: words)

theorem read_unknown_of_broken {word : String} (unknown : IsUnknown word) (program : Bytes)
    {words : List Bytes} (broken : ∃ other ∈ words, ∀ text, other ≠ Utf8.ofString text) :
    read (program :: Utf8.ofString word :: words) = .error notText := by
  obtain ⟨other, mem, notText⟩ := broken
  rw [unknown.read_eq]
  exact unknownCommand_of_broken ⟨other, List.mem_cons_of_mem _ mem, notText⟩

/-- The words behind an unknown one are never read as options or verbs. -/
example : read (textLine [] ["frobnicate", "--help", "--", "build"]) =
    .ok (some (.unknown ["frobnicate", "--help", "--", "build"])) := rfl

end BuildLauncher.CommandLine
