import BuildLauncher.Configuration
import BuildLauncher.Proofs.Toml.Document
import BuildLauncher.Proofs.Toml.Spelling

/-!
# Spellings of the output directory

The output directory is read back from every way to write it: with any quotes and escapes, and in
any of the five forms that a document can give it.

* `Configuration.parse_of_spelling`: the configuration of such a document.
-/

namespace BuildLauncher.Configuration

open Toml

/-- The five ways to give a quoted output directory, before the end of the line. -/
def lines (quoted : String) : List String :=
  ["[build]\noutput-dir = " ++ quoted,
    "build.output-dir = " ++ quoted,
    "\"build\".\"output-dir\" = " ++ quoted,
    "build = \x7b output-dir = " ++ quoted ++ " \x7d",
    "build = [" ++ quoted ++ "]"]

/-- The ends that the last line of a document can have. -/
def lineEnds : List String := ["", "\n", "\r\n"]

theorem endOfLine_of_mem {ending : String} (mem : ending ∈ lineEnds) :
    endOfLine ending.toList = some [] ∧ Closes ending.toList := by
  unfold lineEnds at mem
  simp only [List.mem_cons, List.not_mem_nil, or_false] at mem
  rcases mem with rfl | rfl | rfl
  · exact ⟨rfl, nofun⟩
  · refine ⟨rfl, ?_⟩
    intro c head
    cases head
    decide
  · refine ⟨rfl, ?_⟩
    intro c head
    cases head
    decide

section Forms

variable {s w ending : List Char}

theorem value_array {depth : Nat} (spelled : Spelling s w) (rest : List Char) :
    value (depth + 1) ('[' :: (w ++ ']' :: rest)) = some (.array [.text s], rest) := by
  have one : value depth (w ++ ']' :: rest) = some (.text s, ']' :: rest) :=
    value_of_spelling spelled (by rintro c ⟨⟩; decide)
  have elements : Elements (value depth) ((w ++ ']' :: rest).length + 1) (w ++ ']' :: rest)
      [.text s] rest :=
    .last (spelled.skipBlank_append _) (spelled.ne_bracket _) one rfl
  rw [value_bracket, arrayElements_eq_some_iff.mpr elements]
  rfl

theorem value_inline {depth : Nat} (spelled : Spelling s w) (rest : List Char) :
    value (depth + 1) ("\x7b output-dir = ".toList ++ (w ++ (" \x7d".toList ++ rest))) =
      some (.table .inline [(outputDirKey, .text s)], rest) := by
  have one : value depth (w ++ (" \x7d".toList ++ rest)) =
      some (.text s, " \x7d".toList ++ rest) :=
    value_of_spelling spelled (by rintro c ⟨⟩; decide)
  have blank : skipBlank (' ' :: (w ++ (" \x7d".toList ++ rest))) =
      some (w ++ (" \x7d".toList ++ rest)) :=
    spelled.skipBlank_append _
  have fields (fuel : Nat) : Fields (value depth) (fuel + 1) []
      (" output-dir = ".toList ++ (w ++ (" \x7d".toList ++ rest)))
      [(outputDirKey, .text s)] rest :=
    .last rfl nofun rfl rfl blank one rfl rfl
  change value (depth + 1) ('\x7b' :: (" output-dir = ".toList ++ _)) = _
  rw [value_brace, inlineEntries_eq_some_iff.mpr (fields _)]
  rfl

/-! ## The five forms -/

/-- The statements of a document that begins with a header. -/
theorem reads_header (spelled : Spelling s w) (closes : Closes ending)
    (ended : endOfLine ending = some []) :
    Reads ("[build]\noutput-dir = ".toList ++ (w ++ ending))
      [.header [sectionKey], .assignment [outputDirKey] (.text s)] := by
  have read : value maxDepth (w ++ ending) = some (.text s, ending) :=
    value_of_spelling spelled closes
  have assigned : Reads ("output-dir = ".toList ++ (w ++ ending))
      [.assignment [outputDirKey] (.text s)] :=
    reads_assignment (by decide) rfl rfl (spelled.skipSpaces_append _) read ended
  exact .cons rfl rfl rfl assigned

theorem reads_dotted (spelled : Spelling s w) (closes : Closes ending)
    (ended : endOfLine ending = some []) :
    Reads ("build.output-dir = ".toList ++ (w ++ ending))
      [.assignment [sectionKey, outputDirKey] (.text s)] := by
  have read : value maxDepth (w ++ ending) = some (.text s, ending) :=
    value_of_spelling spelled closes
  exact reads_assignment (by decide) rfl rfl (spelled.skipSpaces_append _) read ended

theorem reads_dotted_quoted (spelled : Spelling s w) (closes : Closes ending)
    (ended : endOfLine ending = some []) :
    Reads ("\"build\".\"output-dir\" = ".toList ++ (w ++ ending))
      [.assignment [sectionKey, outputDirKey] (.text s)] := by
  have read : value maxDepth (w ++ ending) = some (.text s, ending) :=
    value_of_spelling spelled closes
  exact reads_assignment (by decide) rfl rfl (spelled.skipSpaces_append _) read ended

theorem reads_inline (spelled : Spelling s w) (ended : endOfLine ending = some []) :
    Reads ("build = \x7b output-dir = ".toList ++ (w ++ (" \x7d".toList ++ ending)))
      [.assignment [sectionKey] (.table .inline [(outputDirKey, .text s)])] := by
  have read : value maxDepth ("\x7b output-dir = ".toList ++ (w ++ (" \x7d".toList ++ ending))) =
      some (.table .inline [(outputDirKey, .text s)], ending) :=
    value_inline spelled ending
  exact reads_assignment (by decide) rfl rfl rfl read ended

theorem reads_array (spelled : Spelling s w) (ended : endOfLine ending = some []) :
    Reads ("build = [".toList ++ (w ++ ("]".toList ++ ending)))
      [.assignment [sectionKey] (.array [.text s])] := by
  have read : value maxDepth ('[' :: (w ++ ']' :: ending)) = some (.array [.text s], ending) :=
    value_array spelled ending
  exact reads_assignment (by decide) rfl rfl rfl read ended

end Forms

/-! ## The configuration -/

/-- The configuration of a document by the statements that it is read as.  They are no more than its
fixed start has characters. -/
theorem parse_of_reads {text : String} {start rest : List Char} {sts : List Statement}
    {entries : Entries} {conf : Configuration} (chars : text.toList = start ++ rest)
    (unmarked : dropByteOrderMark (start ++ rest) = start ++ rest)
    (reads : Reads (start ++ rest) sts) (short : sts.length ≤ start.length)
    (performed : performAll [] [] sts = some entries) (described : ofEntries? entries = some conf) :
    parse text = conf := by
  have read : statements text.toList = some sts := by
    rw [statements_eq_some_iff, chars, unmarked]
    refine ⟨reads, ?_⟩
    rw [List.length_append]
    omega
  unfold parse read? entriesOf?
  rw [read, Option.bind_eq_bind, Option.bind_some, performed, Option.bind_some, described]
  rfl

theorem parse_line {dir quoted line ending : String}
    (spelled : Spelling dir.toList quoted.toList) (mem : line ∈ lines quoted)
    (mem' : ending ∈ lineEnds) : parse (line ++ ending) = { build := some (some dir) } := by
  obtain ⟨ended, closes⟩ := endOfLine_of_mem mem'
  have back : String.ofList dir.toList = dir := String.ofList_toList
  rw [← back]
  unfold lines at mem
  simp only [List.mem_cons, List.not_mem_nil, or_false] at mem
  rcases mem with rfl | rfl | rfl | rfl | rfl
  · exact parse_of_reads (by simp only [String.toList_append, List.append_assoc]) rfl
      (reads_header spelled closes ended) (Nat.le_of_ble_eq_true rfl) rfl rfl
  · exact parse_of_reads (by simp only [String.toList_append, List.append_assoc]) rfl
      (reads_dotted spelled closes ended) (Nat.le_of_ble_eq_true rfl) rfl rfl
  · exact parse_of_reads (by simp only [String.toList_append, List.append_assoc]) rfl
      (reads_dotted_quoted spelled closes ended) (Nat.le_of_ble_eq_true rfl) rfl rfl
  · exact parse_of_reads (by simp only [String.toList_append, List.append_assoc]) rfl
      (reads_inline spelled ended) (Nat.le_of_ble_eq_true rfl) rfl rfl
  · exact parse_of_reads (by simp only [String.toList_append, List.append_assoc]) rfl
      (reads_array spelled ended) (Nat.le_of_ble_eq_true rfl) rfl rfl

/-- **Reading undoes writing.**  Every text can be quoted, and however it is quoted, all five forms
of a document give it back as the output directory. -/
theorem parse_of_spelling (dir : String) :
    (∃ quoted : String, Spelling dir.toList quoted.toList) ∧
      ∀ quoted : String, Spelling dir.toList quoted.toList →
        ∀ line ∈ lines quoted, ∀ ending ∈ lineEnds,
          parse (line ++ ending) = { build := some (some dir) } ∧
            (parse (line ++ ending)).outputDir = dir := by
  constructor
  · obtain ⟨w, spelled⟩ := exists_spelling dir.toList
    refine ⟨String.ofList w, ?_⟩
    rw [String.toList_ofList]
    exact spelled
  · intro quoted spelled line mem ending mem'
    have same := parse_line spelled mem mem'
    refine ⟨same, ?_⟩
    rw [same]
    rfl

/-- An umlaut by its number, a separator as it stands and an escaped quote. -/
theorem parse_of_spelling_escaped :
    Spelling "ä/\"".toList "\"\\u00e4/\\\"\"".toList ∧
      ∀ line ∈ lines "\"\\u00e4/\\\"\"", ∀ ending ∈ lineEnds,
        parse (line ++ ending) = { build := some (some "ä/\"") } ∧
          (parse (line ++ ending)).outputDir = "ä/\"" := by
  have umlaut : CharSpelling 'ä' "\\u00e4".toList :=
    @CharSpelling.number 'ä' 'u' "00e4".toList (by decide) (List.all_eq_true.mp rfl) rfl
  have separator : CharSpelling '/' ['/'] := .raw (.inr (by decide)) (by decide) (by decide)
  have quote : CharSpelling '"' "\\\"".toList := .short (by decide)
  have spelled : Spelling "ä/\"".toList "\"\\u00e4/\\\"\"".toList :=
    .basic (.cons umlaut (.cons separator (.cons quote .nil)))
  exact ⟨spelled, (parse_of_spelling _).2 _ spelled⟩

end BuildLauncher.Configuration
