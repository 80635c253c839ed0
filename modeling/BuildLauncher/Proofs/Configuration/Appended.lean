import BuildLauncher.Proofs.Configuration.Spelling
import BuildLauncher.Proofs.Toml.Extension
import BuildLauncher.Proofs.Toml.Table

/-!
# A section behind other sections

The section that is read may stand behind anything else.

* `Configuration.parse_append_section`: a document without the section, with the section behind it.
-/

namespace BuildLauncher.Configuration

open Toml

/-! ## Tables with a section at the end -/

section Fresh

variable {entries : Entries} {node : Node}

/-- The header and the assignment of a section add it to a table that has none, whichever table was
open. -/
theorem performAll_section (s : List Char) (here : List Key)
    (fresh : entries.get? sectionKey = none) :
    performAll entries here [.header [sectionKey], .assignment [outputDirKey] (.text s)] =
      some (entries ++ [(sectionKey, .table .header [(outputDirKey, .text s)])]) := by
  have opened : Statement.perform entries here (.header [sectionKey]) =
      some (entries ++ [(sectionKey, .table .header [])], [sectionKey]) := by
    change (entries.alter? sectionKey _).bind _ = _
    rw [Entries.alter?_fresh _ fresh]
    rfl
  have assigned : Statement.perform (entries ++ [(sectionKey, .table .header [])]) [sectionKey]
      (.assignment [outputDirKey] (.text s)) =
      some (entries ++ [(sectionKey, .table .header [(outputDirKey, .text s)])],
        [sectionKey]) := by
    change (Entries.alter? sectionKey _ _).bind _ = _
    rw [Entries.alter?_last _ fresh]
    rfl
  rw [performAll_cons opened, performAll_cons assigned]
  rfl

/-- A configuration without the section is read from a table without it. -/
theorem get?_eq_none_of_ofEntries? {conf : Configuration}
    (described : ofEntries? entries = some conf) (absent : conf.build = none) :
    entriesReadable (entries.filter (·.1 ≠ sectionKey)) = true ∧
      entries.get? sectionKey = none := by
  unfold ofEntries? at described
  split at described
  · next readable =>
    refine ⟨readable, ?_⟩
    split at described
    · assumption
    · obtain ⟨outputDir, -, rfl⟩ := Option.map_eq_some_iff.mp described
      cases absent
  · cases described

/-- Behind other entries that can be read, the section says what it says alone. -/
theorem ofEntries?_last (readable : entriesReadable (entries.filter (·.1 ≠ sectionKey)) = true)
    (fresh : entries.get? sectionKey = none) :
    ofEntries? (entries ++ [(sectionKey, node)]) =
      (sectionOf? node).map fun outputDir => { build := some outputDir } := by
  have others : (entries ++ [(sectionKey, node)]).filter (·.1 ≠ sectionKey) =
      entries.filter (·.1 ≠ sectionKey) := by
    have own : [(sectionKey, node)].filter (·.1 ≠ sectionKey) = [] := rfl
    rw [List.filter_append, own, List.append_nil]
  unfold ofEntries?
  rw [others, if_pos readable, Entries.get?_last fresh]

theorem sectionOf?_header (dir : String) :
    sectionOf? (.table .header [(outputDirKey, .text dir.toList)]) = some (some dir) := by
  change some (some (String.ofList dir.toList)) = _
  rw [String.ofList_toList]

end Fresh

/-- **Other sections do not disturb the key.**  Behind a document that is read without the section,
whatever else it holds and whichever table is open at its end, the section gives its output
directory. -/
theorem parse_append_section (text dir quoted : String) (conf : Configuration)
    (read : read? text = some conf) (absent : conf.build = none)
    (spelled : Spelling dir.toList quoted.toList) :
    parse (text ++ "\n[build]\noutput-dir = " ++ quoted ++ "\n") = { build := some (some dir) } ∧
      (parse (text ++ "\n[build]\noutput-dir = " ++ quoted ++ "\n")).outputDir = dir := by
  obtain ⟨entries, performed, described⟩ := Option.bind_eq_some_iff.mp read
  obtain ⟨sts, others, performed⟩ := Option.bind_eq_some_iff.mp performed
  obtain ⟨readable, fresh⟩ := get?_eq_none_of_ofEntries? described absent
  obtain ⟨here, behind⟩ := performAll_append performed
  have chars : (text ++ "\n[build]\noutput-dir = " ++ quoted ++ "\n").toList =
      text.toList ++ '\n' :: ("[build]\noutput-dir = ".toList ++ (quoted.toList ++ ['\n'])) := by
    simp only [String.toList_append, List.append_assoc]
    rfl
  have reads : Reads ("[build]\noutput-dir = ".toList ++ (quoted.toList ++ ['\n']))
      [.header [sectionKey], .assignment [outputDirKey] (.text dir.toList)] :=
    reads_header spelled (by rintro c ⟨⟩; decide) rfl
  have all := statements_append others reads (by
    rw [List.length_append]
    exact Nat.le_add_right_of_le (Nat.le_of_ble_eq_true rfl))
  have same : parse (text ++ "\n[build]\noutput-dir = " ++ quoted ++ "\n") =
      { build := some (some dir) } := by
    unfold parse read? entriesOf?
    rw [chars, all, Option.bind_eq_bind, Option.bind_some, behind, performAll_section _ here fresh,
      Option.bind_some, ofEntries?_last readable fresh, sectionOf?_header]
    rfl
  exact ⟨same, by rw [same]; rfl⟩

/-- Behind a table that a header inside an array of tables leaves open, and a comment. -/
theorem parse_append_section_nested :
    (read? "[[a.b]]\nc.d = [1, '''\n]'''] # build\n[a.b.e]" = some {} ∧
        Spelling "out".toList "\"o\\u0075t\"".toList) ∧
      parse ("[[a.b]]\nc.d = [1, '''\n]'''] # build\n[a.b.e]" ++ "\n[build]\noutput-dir = " ++
        "\"o\\u0075t\"" ++ "\n") = { build := some (some "out") } := by
  have read : read? "[[a.b]]\nc.d = [1, '''\n]'''] # build\n[a.b.e]" = some {} := by
    decide +kernel
  have raw (c : Char) (low : 0x20 ≤ c.toNat ∧ c.toNat ≠ 0x7F) : IsRaw c := .inr low
  have spelled : Spelling "out".toList "\"o\\u0075t\"".toList :=
    .basic (.cons (.raw (raw 'o' (by decide)) (by decide) (by decide))
      (.cons (@CharSpelling.number 'u' 'u' "0075".toList (by decide) (List.all_eq_true.mp rfl) rfl)
        (.cons (.raw (raw 't' (by decide)) (by decide) (by decide)) .nil)))
  exact ⟨⟨read, spelled⟩, (parse_append_section _ _ _ {} read rfl spelled).1⟩

end BuildLauncher.Configuration
