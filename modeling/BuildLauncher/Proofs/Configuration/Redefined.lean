import BuildLauncher.Proofs.Configuration.Section
import BuildLauncher.Proofs.Configuration.Spelling
import BuildLauncher.Proofs.Toml.Extension
import BuildLauncher.Proofs.Toml.Redefinition

/-!
# Keys of a configuration that are given twice

A document that gives a key twice is refused as a whole, so that neither value counts.

* `Configuration.parse_redefined`: a second section behind an output directory, and a second value
  in front of any key.
-/

namespace BuildLauncher.Configuration

open Toml

/-- A text can be read as a table that has a value at the given key, however it got there. -/
def HasKey (text : String) (key : Key) : Prop :=
  ∃ entries, entriesOf? text.toList = some entries ∧ entries.get? key ≠ none

/-! ## A second section -/

section Behind

variable {entries : Entries} {here : List Key} {node : Node} {dir : String}

/-- A header does not open such a section again.  Only an implied table could be opened, and that
holds no text. -/
theorem opened_section (grown : Grown entries here) (found : entries.get? sectionKey = some node)
    (gives : sectionOf? node = some (some dir)) : Entries.opened (some node) = none := by
  cases holds_of_sectionOf? gives with
  | array _ => rfl
  | @table origin inner text =>
    cases origin with
    | implied => exact absurd text (grown.holdsNoText found outputDirKey dir.toList)
    | inline => rfl
    | header => rfl
    | dotted => rfl

theorem performAll_section_again (grown : Grown entries here)
    (found : entries.get? sectionKey = some node) (gives : sectionOf? node = some (some dir))
    (here' : List Key) (more : List Statement) :
    performAll entries here' (.header [sectionKey] :: more) = none := by
  have refused : entries.alter? sectionKey Entries.opened = none := by
    apply Entries.alter?_eq_none
    rw [found]
    exact opened_section grown found gives
  have acts : Acts here' (.header [sectionKey]) sectionKey Entries.opened [sectionKey] := .header
  rw [performAll, acts.perform, refused]
  rfl

/-- Behind a document that gives an output directory, a section with anything in it. -/
theorem parse_append_again {text : String} (gives : (parse text).build = some (some dir))
    (value : String) : parse (text ++ "\n[build]\noutput-dir = " ++ value ++ "\n") = {} := by
  obtain ⟨entries, node, described, found, same⟩ := exists_of_outputDir gives
  obtain ⟨sts, read, performed⟩ := Option.bind_eq_some_iff.mp described
  have written : ∀ st ∈ sts, st.IsWritten := (statements_eq_some_iff.mp read).1.isWritten
  obtain ⟨here, grown⟩ := Grown.nil.performAll written performed
  obtain ⟨here', behind⟩ := performAll_append performed
  have chars : (text ++ "\n[build]\noutput-dir = " ++ value ++ "\n").toList =
      text.toList ++ '\n' :: ("[build]\noutput-dir = ".toList ++ (value.toList ++ ['\n'])) := by
    simp only [String.toList_append, List.append_assoc]
    rfl
  apply parse_eq_default
  unfold entriesOf?
  rw [chars]
  cases read' : statements (text.toList ++
      '\n' :: ("[build]\noutput-dir = ".toList ++ (value.toList ++ ['\n']))) with
  | none => rfl
  | some all =>
    -- whatever the value is, the header in front of it is the next statement
    obtain ⟨more, rfl, reads⟩ := exists_of_statements_append read read'
    have first : Reads ("[build]\noutput-dir = ".toList ++ (value.toList ++ ['\n'])) more ↔
        ∃ others, more = .header [sectionKey] :: others ∧
          Reads ("output-dir = ".toList ++ (value.toList ++ ['\n'])) others :=
      reads_iff_of_line rfl rfl rfl
    obtain ⟨others, rfl, -⟩ := first.mp reads
    rw [Option.bind_eq_bind, Option.bind_some, behind]
    exact performAll_section_again grown found same here' others

end Behind

/-! ## A value in front -/

section InFront

variable {key : Key} {w t : List Char} {sts all : List Statement}

/-- A line that gives a quoted key the value one. -/
theorem line_of_key (spelled : Spelling key w) :
    Line (w ++ " = 1\n".toList ++ t) (.assignment [key] (.integer 1)) ('\n' :: t) := by
  have part : quoted false (w ++ (" = 1\n".toList ++ t)) = some (key, " = 1\n".toList ++ t) :=
    quoted_of_spelling spelled (by rintro c ⟨⟩; decide)
  have path : Path maxKeyParts (w ++ (" = 1\n".toList ++ t)) [key]
      (skipSpaces (" = 1\n".toList ++ t)) := by
    refine .last ?_ (fun next same => absurd (List.cons.inj same).1 (by decide))
    rw [spelled.skipSpaces_append]
    unfold keyPart
    rw [part]
  have one : value maxDepth (skipSpaces (" 1\n".toList ++ t)) = some (.integer 1, '\n' :: t) := rfl
  rw [List.append_assoc]
  refine .assignment ?_ (keyPath_eq_some_iff.mpr path) one
  obtain ⟨quote, more, rfl | rfl, rfl⟩ := spelled.exists_cons <;>
    exact fun next same => absurd (List.cons.inj same).1 (by decide)

/-- The line is the first statement of a document, and the others follow it. -/
theorem reads_behind_key (spelled : Spelling key w) :
    Reads (w ++ " = 1\n".toList ++ t) all ↔
      ∃ sts, all = .assignment [key] (.integer 1) :: sts ∧ Reads t sts := by
  have blank : skipBlank (w ++ " = 1\n".toList ++ t) = some (w ++ " = 1\n".toList ++ t) := by
    rw [List.append_assoc]
    exact spelled.skipBlank_append _
  have line := statement_eq_some_iff.mpr (line_of_key (t := t) spelled)
  obtain ⟨quote, more, -, rfl⟩ := spelled.exists_cons
  exact reads_iff_of_line blank line rfl

/-- A mark of byte order starts no statement. -/
theorem not_reads_byteOrderMark {cs : List Char} : ¬ Reads (byteOrderMark :: cs) sts := by
  intro reads
  have blank : skipBlank (byteOrderMark :: cs) = some (byteOrderMark :: cs) := rfl
  have unread : statement (byteOrderMark :: cs) = none := rfl
  cases reads with
  | nil blank' =>
    rw [blank] at blank'
    cases blank'
  | cons blank' line _ _ =>
    rw [blank] at blank'
    cases blank'
    rw [unread] at line
    cases line

/-- A text is read in one way. -/
theorem reads_unique {cs : List Char} (reads : Reads cs sts) (reads' : Reads cs all) :
    sts = all := by
  induction reads generalizing all with
  | nil blank =>
    cases reads' with
    | nil _ => rfl
    | cons blank' _ _ _ =>
      rw [blank] at blank'
      cases blank'
  | cons blank line ended _ ih =>
    obtain ⟨more, rfl, others⟩ := (reads_iff_of_line blank line ended).mp reads'
    rw [ih others]

/-- The statements of a document with the line in front. -/
theorem statements_behind_key (spelled : Spelling key w) (read : statements t = some sts)
    (read' : statements (w ++ " = 1\n".toList ++ t) = some all) :
    all = .assignment [key] (.integer 1) :: sts := by
  have unmarked : dropByteOrderMark (w ++ " = 1\n".toList ++ t) = w ++ " = 1\n".toList ++ t := by
    obtain ⟨quote, more, rfl | rfl, rfl⟩ := spelled.exists_cons <;> rfl
  have reads := (statements_eq_some_iff.mp read).1
  have reads' := (statements_eq_some_iff.mp read').1
  rw [unmarked, reads_behind_key spelled] at reads'
  obtain ⟨more, rfl, others⟩ := reads'
  have same : dropByteOrderMark t = t := by
    cases t with
    | nil => rfl
    | cons c cs =>
      by_cases marked : c = byteOrderMark
      · subst marked
        exact absurd others not_reads_byteOrderMark
      · exact if_neg marked
  rw [same] at reads
  rw [reads_unique reads others]

/-- In front of a document, the line takes a key away from it. -/
theorem parse_behind_key {text quoted : String} (present : HasKey text key)
    (spelled : Spelling key quoted.toList) : parse (quoted ++ " = 1\n" ++ text) = {} := by
  obtain ⟨entries, described, found⟩ := present
  obtain ⟨sts, read, performed⟩ := Option.bind_eq_some_iff.mp described
  have named : key ∈ topKeys [] sts :=
    ((get?_performAll_ne_none_iff performed key).mp found).resolve_left (absurd rfl)
  have chars : (quoted ++ " = 1\n" ++ text).toList =
      quoted.toList ++ " = 1\n".toList ++ text.toList := by
    rw [String.toList_append, String.toList_append]
  apply parse_eq_default
  unfold entriesOf?
  rw [chars]
  cases read' : statements (quoted.toList ++ " = 1\n".toList ++ text.toList) with
  | none => rfl
  | some all =>
    rw [statements_behind_key spelled read read', Option.bind_eq_bind, Option.bind_some]
    have first : Statement.perform [] [] (.assignment [key] (.integer 1)) =
        some ([(key, .integer 1)], []) := rfl
    rw [performAll_cons first]
    exact performAll_of_taken id performed named

end InFront

/-- **A key that is given twice never wins silently.**  Behind an output directory a further section
makes the whole document count as empty, whatever is written in it; and so does a value in front of
the document, at any key that the document defines at its top. -/
theorem parse_redefined (text : String) :
    (∀ dir, (parse text).build = some (some dir) → ∀ value : String,
      parse (text ++ "\n[build]\noutput-dir = " ++ value ++ "\n") = {}) ∧
    ∀ conf key quoted, read? text = some conf → HasKey text key → Spelling key quoted.toList →
      parse (quoted ++ " = 1\n" ++ text) = {} :=
  ⟨fun _ gives value => parse_append_again gives value,
    fun _ _ _ _ present spelled => parse_behind_key present spelled⟩

/-- A section made by a dotted key and gone on with by a header, and an array of tables in front of
which its key is written with an escape. -/
theorem parse_redefined_dotted :
    ((parse "build.output-dir = 'a'\n[build.x]\n[[c.d]]").build = some (some "a") ∧
      parse ("build.output-dir = 'a'\n[build.x]\n[[c.d]]" ++ "\n[build]\noutput-dir = " ++
        "\"b\"\n[e]" ++ "\n") = {}) ∧
    (read? "build.output-dir = 'a'\n[build.x]\n[[c.d]]" = some { build := some (some "a") } ∧
      HasKey "build.output-dir = 'a'\n[build.x]\n[[c.d]]" ['c'] ∧
      Spelling ['c'] "\"\\x63\"".toList ∧
      parse ("\"\\x63\"" ++ " = 1\n" ++ "build.output-dir = 'a'\n[build.x]\n[[c.d]]") = {}) := by
  have read : read? "build.output-dir = 'a'\n[build.x]\n[[c.d]]" =
      some { build := some (some "a") } := by
    decide +kernel
  have gives : (parse "build.output-dir = 'a'\n[build.x]\n[[c.d]]").build = some (some "a") := by
    unfold parse
    rw [read]
    rfl
  have present : HasKey "build.output-dir = 'a'\n[build.x]\n[[c.d]]" ['c'] :=
    ⟨_, rfl, nofun⟩
  have spelled : Spelling ['c'] "\"\\x63\"".toList :=
    .basic (.cons
      (@CharSpelling.number 'c' 'x' "63".toList (by decide) (List.all_eq_true.mp rfl) rfl) .nil)
  have both := parse_redefined "build.output-dir = 'a'\n[build.x]\n[[c.d]]"
  exact ⟨⟨gives, both.1 "a" gives _⟩, read, present, spelled, both.2 _ _ _ read present spelled⟩

end BuildLauncher.Configuration
