import BuildLauncher.Configuration
import BuildLauncher.Proofs.Toml.Agreement
import BuildLauncher.Proofs.Toml.Wellformed

/-!
# What a configuration depends on

Of a document that can be read, only the value at one key matters.  `Means` lists what each kind of
value stands for there.

* `Configuration.means_iff`, `Configuration.IsRead.means_iff`: the reader finds what is listed.
* `Configuration.Means.congr`: values that agree stand for the same configuration.
* `Configuration.parse_of_unreadable`: documents with values that cannot be held.
* `Configuration.parse_of_section`: what every text is read as.
-/

namespace BuildLauncher.Configuration

open Toml

/-- A text is read without an error: it is a document, and every value in it can be held. -/
def IsRead (text : String) (entries : Entries) : Prop :=
  entriesOf? text.toList = some entries ∧ entriesReadable entries = true

/-! ## The kinds of sections -/

/-- What the field of a section stands for, be it an entry of a table or the first element of an
array: a text is the output directory, and another value spoils the whole configuration. -/
inductive FieldMeans : Option Node → Configuration → Prop
  | missing : FieldMeans none { build := some none }
  | text (chars : List Char) :
    FieldMeans (some (.text chars)) { build := some (some (String.ofList chars)) }
  | other {node : Node} : (∀ chars, node ≠ .text chars) → FieldMeans (some node) {}

/-- What the value of a section stands for, if there is one. -/
inductive Means : Option Node → Configuration → Prop
  | absent : Means none {}
  | table {origin : Origin} {entries : Entries} {conf : Configuration} :
    FieldMeans (entries.get? outputDirKey) conf → Means (some (.table origin entries)) conf
  | array {node : Node} {elements : List Node} {conf : Configuration} :
    node.elements? = some elements → FieldMeans elements.head? conf → Means (some node) conf
  | moment (m : Moment) : Means (some (.moment m)) { build := some none }
  | text (chars : List Char) : Means (some (.text chars)) {}
  | integer (n : Int) : Means (some (.integer n)) {}
  | real (x : Toml.Real) : Means (some (.real x)) {}
  | boolean (b : Bool) : Means (some (.boolean b)) {}

/-- The text is in the section, as the output directory or as the first element. -/
inductive Holds (dir : String) : Node → Prop
  | table {origin : Origin} {entries : Entries} :
    entries.get? outputDirKey = some (.text dir.toList) → Holds dir (.table origin entries)
  | array (rest : List Node) : Holds dir (.array (.text dir.toList :: rest))

/-- Everything beside the section can be held, and the section is an array whose first element is
the given text: whatever stands behind that is overlooked. -/
def Overlooks (entries : Entries) (chars : List Char) : Prop :=
  entriesReadable (entries.filter (·.1 ≠ sectionKey)) = true ∧
    ∃ rest, entries.get? sectionKey = some (.array (.text chars :: rest))

/-! ## Reading a section -/

section Sections

variable {node : Node} {field value : Option Node} {conf : Configuration} {dir : String}

/-- The output directory that a field gives. -/
def fieldOf? : Option Node → Option (Option String)
  | none => some none
  | some node => (textOf? node).map some

/-- The configuration with a given section; the default one if the section cannot be read. -/
def ofSection (outputDir? : Option (Option String)) : Configuration :=
  (outputDir?.map fun outputDir => { build := some outputDir }).getD {}

/-- The configuration with a given value for its section. -/
def ofValue : Option Node → Configuration
  | none => {}
  | some node => ofSection (sectionOf? node)

theorem textOf?_eq_none (other : ∀ chars, node ≠ .text chars) : textOf? node = none := by
  unfold textOf?
  split
  · exact absurd rfl (other _)
  · rfl

theorem eq_text_of_textOf? (gives : textOf? node = some dir) : node = .text dir.toList := by
  unfold textOf? at gives
  split at gives
  · cases gives
    rw [String.toList_ofList]
  · cases gives

theorem fieldMeans_iff : FieldMeans field conf ↔ ofSection (fieldOf? field) = conf := by
  constructor
  · intro means
    cases means with
    | missing => rfl
    | text chars => rfl
    | other other =>
      rw [fieldOf?, textOf?_eq_none other]
      rfl
  · rintro rfl
    cases field with
    | none => exact .missing
    | some node =>
      by_cases text : ∃ chars, node = .text chars
      · obtain ⟨chars, rfl⟩ := text
        exact .text chars
      · have other : ∀ chars, node ≠ .text chars := fun chars same => text ⟨chars, same⟩
        rw [fieldOf?, textOf?_eq_none other]
        exact .other other

theorem sectionOf?_table {origin : Origin} {entries : Entries}
    (readable : entriesReadable entries = true) :
    sectionOf? (.table origin entries) = fieldOf? (entries.get? outputDirKey) := by
  rw [sectionOf?, if_pos readable]
  cases entries.get? outputDirKey <;> rfl

/-- An array, however it is written, gives what its first element gives. -/
theorem sectionOf?_of_elements {elements : List Node} (listed : node.elements? = some elements)
    (element : node ≠ .tables []) : sectionOf? node = fieldOf? elements.head? := by
  cases node with
  | array nodes =>
    cases listed
    cases elements <;> rfl
  | tables nodes =>
    cases listed
    cases nodes with
    | nil => exact absurd rfl element
    | cons first rest => rfl
  | _ => cases listed

theorem ofValue_of_means (readable : ∀ node, value = some node → node.isReadable = true)
    (element : value ≠ some (.tables [])) (means : Means value conf) : ofValue value = conf := by
  cases means with
  | table field =>
    rw [ofValue, sectionOf?_table (readable _ rfl)]
    exact fieldMeans_iff.mp field
  | array listed field =>
    rw [ofValue, sectionOf?_of_elements listed (mt (congrArg some) element)]
    exact fieldMeans_iff.mp field
  | _ => rfl

/-- The rules of `Means` leave no value out. -/
theorem means_ofValue (readable : ∀ node, value = some node → node.isReadable = true)
    (element : value ≠ some (.tables [])) : Means value (ofValue value) := by
  rcases value with _ | node
  · exact .absent
  have array {elements : List Node} (listed : node.elements? = some elements) :
      Means (some node) (ofValue (some node)) := by
    rw [ofValue, sectionOf?_of_elements listed (mt (congrArg some) element)]
    exact .array listed (fieldMeans_iff.mpr rfl)
  cases node with
  | text chars => exact .text chars
  | integer n => exact .integer n
  | real x => exact .real x
  | boolean b => exact .boolean b
  | moment m => exact .moment m
  | array elements => exact array rfl
  | tables elements => exact array rfl
  | table origin entries =>
    rw [ofValue, sectionOf?_table (readable _ rfl)]
    exact .table (fieldMeans_iff.mpr rfl)

/-- A value that can be read stands for what its kind stands for. -/
theorem means_iff (readable : ∀ node, value = some node → node.isReadable = true)
    (element : value ≠ some (.tables [])) : Means value conf ↔ ofValue value = conf := by
  constructor
  · exact ofValue_of_means readable element
  · intro same
    rw [← same]
    exact means_ofValue readable element

theorem eq_of_ofSection {outputDir? : Option (Option String)}
    (gives : (ofSection outputDir?).build = some (some dir)) : outputDir? = some (some dir) := by
  cases outputDir? with
  | none => cases gives
  | some outputDir => exact gives

theorem exists_of_ofValue (gives : (ofValue value).build = some (some dir)) :
    ∃ node, value = some node ∧ sectionOf? node = some (some dir) := by
  cases value with
  | none => cases gives
  | some node => exact ⟨node, rfl, eq_of_ofSection gives⟩

/-- A section with a value that cannot be held gives nothing, unless that value stands behind a
first text. -/
theorem sectionOf?_of_unreadable (unreadable : node.isReadable = false)
    (listed : ∀ chars rest, node ≠ .array (.text chars :: rest)) : sectionOf? node = none := by
  cases node with
  | text chars => cases unreadable
  | boolean b => cases unreadable
  | moment m => cases unreadable
  | integer n => rfl
  | real x => rfl
  | tables elements => rfl
  | table origin entries => exact if_neg (Bool.eq_false_iff.mp unreadable)
  | array elements =>
    rcases elements with _ | ⟨first, rest⟩
    · cases unreadable
    · have other : ∀ chars, first ≠ .text chars := by
        rintro chars rfl
        exact listed chars rest rfl
      rw [sectionOf?, textOf?_eq_none other]
      rfl

/-- A section gives only a text that it holds. -/
theorem holds_of_sectionOf? (gives : sectionOf? node = some (some dir)) : Holds dir node := by
  unfold sectionOf? at gives
  split at gives
  · split at gives
    · split at gives
      · cases gives
      · next found =>
        obtain ⟨text, same, given⟩ := Option.map_eq_some_iff.mp gives
        cases given
        rw [eq_text_of_textOf? same] at found
        exact .table found
    · cases gives
  · cases gives
  · obtain ⟨text, same, given⟩ := Option.map_eq_some_iff.mp gives
    cases given
    rw [eq_text_of_textOf? same]
    exact .array _
  · cases gives
  · cases gives

end Sections

/-! ## Values that agree -/

section Agree

variable {value value' : Option Node} {conf : Configuration}

theorem FieldMeans.congr (means : FieldMeans value conf)
    (agree : Option.Rel Node.Agree value value') : FieldMeans value' conf := by
  cases agree with
  | none => exact means
  | some agree =>
    cases means with
    | text chars =>
      rw [(agree.text_iff chars).mp rfl]
      exact .text chars
    | other other => exact .other fun chars same => other chars ((agree.text_iff chars).mpr same)

/-- Values that agree stand for the same configuration. -/
theorem Means.congr (means : Means value conf) (agree : Option.Rel Node.Agree value value') :
    Means value' conf := by
  cases agree with
  | none => exact means
  | some agree =>
    cases agree with
    | text chars => exact means
    | integer n => exact means
    | boolean b => exact means
    | real x y =>
      cases means with
      | array listed _ => cases listed
      | real _ => exact .real y
    | moment m n =>
      cases means with
      | array listed _ => cases listed
      | moment _ => exact .moment n
    | table entries =>
      cases means with
      | array listed _ => cases listed
      | table field => exact .table (field.congr (entries outputDirKey))
    | array listed listed' elements =>
      cases means with
      | array again field =>
        rw [listed] at again
        cases again
        exact .array listed' (field.congr (Node.Agree.head? elements))
      | _ => cases listed

end Agree

/-! ## Reading a text -/

section Texts

variable {text : String} {entries : Entries} {node : Node} {dir : String}

theorem parse_eq_default (refused : entriesOf? text.toList = none) : parse text = {} := by
  unfold parse read?
  rw [refused]
  rfl

/-- Of a document, everything beside the section has to be readable, and the section decides. -/
theorem parse_of_document (described : entriesOf? text.toList = some entries) :
    parse text = if entriesReadable (entries.filter (·.1 ≠ sectionKey)) then
      ofValue (entries.get? sectionKey) else {} := by
  unfold parse read? ofEntries?
  rw [described, Option.bind_some]
  split
  · cases entries.get? sectionKey <;> rfl
  · rfl

/-- The section of a text that gives an output directory. -/
theorem exists_of_outputDir (gives : (parse text).build = some (some dir)) :
    ∃ entries node, entriesOf? text.toList = some entries ∧
      entries.get? sectionKey = some node ∧ sectionOf? node = some (some dir) := by
  cases described : entriesOf? text.toList with
  | none =>
    rw [parse_eq_default described] at gives
    cases gives
  | some entries =>
    rw [parse_of_document described] at gives
    split at gives
    · obtain ⟨node, found, same⟩ := exists_of_ofValue gives
      exact ⟨entries, node, rfl, found, same⟩
    · cases gives

/-- A text that is read without an error stands for what its section stands for. -/
theorem IsRead.means_iff (read : IsRead text entries) {conf : Configuration} :
    Means (entries.get? sectionKey) conf ↔ parse text = conf := by
  obtain ⟨described, readable⟩ := read
  have wellformed := wellformed_of_entriesOf? described
  obtain ⟨others, own⟩ := (wellformed.entriesReadable_iff sectionKey).mp readable
  rw [parse_of_document described, if_pos others]
  exact Configuration.means_iff own wellformed.element

theorem parse_of_overlooks {chars : List Char} (described : entriesOf? text.toList = some entries)
    (overlooks : Overlooks entries chars) :
    parse text = { build := some (some (String.ofList chars)) } := by
  obtain ⟨others, rest, found⟩ := overlooks
  rw [parse_of_document described, if_pos others, found]
  rfl

theorem parse_of_unreadable (described : entriesOf? text.toList = some entries)
    (unreadable : entriesReadable entries = false) (seen : ∀ chars, ¬ Overlooks entries chars) :
    parse text = {} := by
  rw [parse_of_document described]
  split
  · next others =>
    cases found : entries.get? sectionKey with
    | none => rfl
    | some node =>
      have own : node.isReadable = false := by
        rw [← Bool.not_eq_true]
        intro readable
        have all := ((wellformed_of_entriesOf? described).entriesReadable_iff sectionKey).mpr
          ⟨others, fun value same => Option.some.inj (found.symm.trans same) ▸ readable⟩
        rw [unreadable] at all
        cases all
      have listed : ∀ chars rest, node ≠ .array (.text chars :: rest) := by
        rintro chars rest rfl
        exact seen chars ⟨others, rest, found⟩
      rw [ofValue, sectionOf?_of_unreadable own listed]
      rfl
  · rfl

theorem build_of_outputDir {conf : Configuration} (configured : conf.outputDir ≠ defaultOutputDir) :
    conf.build = some (some conf.outputDir) := by
  rcases conf with ⟨_ | _ | dir⟩
  · exact absurd rfl configured
  · exact absurd rfl configured
  · rfl

theorem holds_of_outputDir (configured : (parse text).outputDir ≠ defaultOutputDir) :
    ∃ entries node, entriesOf? text.toList = some entries ∧
      entries.get? sectionKey = some node ∧ Holds (parse text).outputDir node := by
  obtain ⟨entries, node, described, found, same⟩ :=
    exists_of_outputDir (build_of_outputDir configured)
  exact ⟨entries, node, described, found, holds_of_sectionOf? same⟩

end Texts

/-- **The section decides.**  Two texts that are read without an error and whose values at the key
of the section agree give the same configuration, and `Means` lists what each kind of value stands
for.  A text that is no document gives the default configuration.  So does a document with a value
that cannot be held, unless such values stand only behind the first element of an array at that key:
they are not looked at, and a text there is the output directory.  An output directory other than
the default one is a text that the section holds. -/
theorem parse_of_section :
    (∀ text text' entries entries', IsRead text entries → IsRead text' entries' →
      Option.Rel Node.Agree (entries.get? sectionKey) (entries'.get? sectionKey) →
      parse text = parse text') ∧
    (∀ text entries, IsRead text entries →
      ∀ conf, Means (entries.get? sectionKey) conf ↔ parse text = conf) ∧
    (∀ text : String, entriesOf? text.toList = none → parse text = {}) ∧
    (∀ text entries, entriesOf? text.toList = some entries → entriesReadable entries = false →
      (∀ chars, Overlooks entries chars →
        parse text = { build := some (some (String.ofList chars)) }) ∧
      ((∀ chars, ¬ Overlooks entries chars) → parse text = {})) ∧
    ∀ text, (parse text).outputDir ≠ "build" →
      ∃ entries node, entriesOf? text.toList = some entries ∧
        entries.get? sectionKey = some node ∧ Holds (parse text).outputDir node := by
  refine ⟨fun text text' entries entries' read read' agree => ?_,
    fun text entries read conf => read.means_iff, fun text refused => parse_eq_default refused,
    fun text entries described unreadable => ⟨fun chars => parse_of_overlooks described,
      parse_of_unreadable described unreadable⟩, fun text => holds_of_outputDir⟩
  have means : Means (entries.get? sectionKey) (parse text) := read.means_iff.mpr rfl
  exact (read'.means_iff.mp (means.congr agree)).symm

/-- An integer that no word holds, behind a first element that is a text. -/
theorem parse_of_oversized :
    (∀ entries, ¬ IsRead "build = [\"a\", 340282366920938463463374607431768211456]" entries) ∧
      parse "build = [\"a\", 340282366920938463463374607431768211456]" ≠ {} ∧
      (parse "build = [\"a\", 340282366920938463463374607431768211456]").outputDir = "a" := by
  have unreadable : (entriesOf?
      "build = [\"a\", 340282366920938463463374607431768211456]".toList).map entriesReadable =
      some false := by decide +kernel
  refine ⟨?_, by decide +kernel, by decide +kernel⟩
  rintro entries ⟨described, readable⟩
  rw [described, Option.map_some, readable] at unreadable
  cases unreadable

end BuildLauncher.Configuration
