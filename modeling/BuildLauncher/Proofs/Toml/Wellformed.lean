import BuildLauncher.Proofs.Toml.Redefinition
import BuildLauncher.Toml.Scalar
import Mathlib.Data.List.Nodup

/-!
# Well-formed documents

No key of a document has two values, and no array of tables is empty.  So a document can be read
when the value at a key can be read, and everything beside that key.

* `Toml.Wellformed.alter?`, `Toml.wellformed_of_entriesOf?`: what one statement keeps, and what
  therefore holds of every document.
* `Toml.Wellformed.entriesReadable_iff`: where the unreadable values are.
-/

namespace BuildLauncher.Toml

/-- No key occurs twice, and an array of tables has an element. -/
structure Wellformed (entries : Entries) : Prop where
  nodup : (entries.map Prod.fst).Nodup
  element {key : Key} : entries.get? key ≠ some (.tables [])

namespace Entries

variable {entries entries' : Entries} {key : Key} {node : Node}
  {change : Option Node → Option Node}

/-- A change adds at most the key that it is made at. -/
theorem keys_of_alter? (altered : entries.alter? key change = some entries') :
    entries'.map Prod.fst = entries.map Prod.fst ∨
      key ∉ entries.map Prod.fst ∧ entries'.map Prod.fst = entries.map Prod.fst ++ [key] := by
  induction entries generalizing entries' with
  | nil =>
    obtain ⟨node, -, rfl⟩ := Option.map_eq_some_iff.mp altered
    exact .inr ⟨List.not_mem_nil, rfl⟩
  | cons e rest ih =>
    obtain ⟨k, old⟩ := e
    rw [alter?] at altered
    split at altered
    · obtain ⟨node, -, rfl⟩ := Option.map_eq_some_iff.mp altered
      exact .inl rfl
    · next other =>
      obtain ⟨rest', found, rfl⟩ := Option.map_eq_some_iff.mp altered
      rcases ih found with same | ⟨fresh, added⟩
      · exact .inl (congrArg (k :: ·) same)
      · refine .inr ⟨fun mem => ?_, congrArg (k :: ·) added⟩
        rcases List.mem_cons.mp mem with first | later
        · exact other first.symm
        · exact fresh later

theorem nodup_of_alter? (nodup : (entries.map Prod.fst).Nodup)
    (altered : entries.alter? key change = some entries') : (entries'.map Prod.fst).Nodup := by
  rcases keys_of_alter? altered with same | ⟨fresh, added⟩
  · rwa [same]
  · rw [added]
    rw [← List.concat_eq_append]
    exact nodup.concat fresh

theorem mem_of_get? (found : entries.get? key = some node) : (key, node) ∈ entries := by
  obtain ⟨⟨k, value⟩, first, rfl⟩ := Option.map_eq_some_iff.mp found
  have same := List.find?_some first
  rw [← of_decide_eq_true same]
  exact List.mem_of_find?_eq_some first

/-- Where no key occurs twice, every entry is found. -/
theorem get?_of_mem (nodup : (entries.map Prod.fst).Nodup) (mem : (key, node) ∈ entries) :
    entries.get? key = some node := by
  induction entries with
  | nil => cases mem
  | cons e rest ih =>
    obtain ⟨k, value⟩ := e
    obtain ⟨fresh, nodup⟩ := List.nodup_cons.mp nodup
    rw [get?_cons]
    rcases List.mem_cons.mp mem with first | later
    · cases first
      exact if_pos rfl
    · have other : k ≠ key := by
        rintro rfl
        exact fresh (List.mem_map.mpr ⟨(k, node), later, rfl⟩)
      rw [if_neg other]
      exact ih nodup later

end Entries

/-! ## Statements -/

section Statements

variable {entries entries' : Entries} {here next : List Key} {st : Statement}
  {key : Key} {change : Option Node → Option Node}

/-- No statement leaves an empty array of tables where it acts. -/
theorem Acts.ne_empty {old : Option Node} (acts : Acts here st key change next)
    (written : st.IsWritten) : change old ≠ some (.tables []) := by
  intro changed
  have filled : (Node.tables []).IsFilled := by
    cases acts with
    | header => exact Entries.isFilled_of_opened changed
    | subheader => exact Entries.isFilled_of_through changed
    | element => exact Entries.isFilled_of_furthered changed
    | subelement => exact Entries.isFilled_of_through changed
    | assignment =>
      unfold Entries.given at changed
      split at changed
      · cases changed
        cases written
      · cases changed
    | dotted => exact Entries.isFilled_of_dotted changed
    | within => exact Entries.isFilled_of_through changed
  exact filled rfl

/-- The empty table with which a document starts. -/
theorem Wellformed.nil : Wellformed [] where
  nodup := List.nodup_nil
  element := nofun

theorem Wellformed.alter? (wellformed : Wellformed entries) (acts : Acts here st key change next)
    (written : st.IsWritten) (altered : entries.alter? key change = some entries') :
    Wellformed entries' := by
  refine ⟨Entries.nodup_of_alter? wellformed.nodup altered, fun {other} empty => ?_⟩
  obtain ⟨node, changed, values⟩ := Entries.exists_of_alter? altered
  rw [values other] at empty
  split at empty
  · cases empty
    exact acts.ne_empty written changed
  · exact wellformed.element empty

theorem wellformed_of_entriesOf? {cs : List Char} (read : entriesOf? cs = some entries) :
    Wellformed entries := by
  obtain ⟨sts, others, performed⟩ := Option.bind_eq_some_iff.mp read
  have written : ∀ st ∈ sts, st.IsWritten := (statements_eq_some_iff.mp others).1.isWritten
  obtain ⟨-, kept⟩ := performAll_induction (P := fun entries _ => Wellformed entries)
    (fun wellformed acts => wellformed.alter? acts) Wellformed.nil written performed
  exact kept

end Statements

/-! ## Unreadable values -/

theorem entriesReadable_iff {entries : Entries} :
    entriesReadable entries = true ↔ ∀ e ∈ entries, e.2.isReadable = true := by
  induction entries with
  | nil => exact ⟨nofun, fun _ => rfl⟩
  | cons e rest ih =>
    obtain ⟨k, node⟩ := e
    rw [entriesReadable, Bool.and_eq_true, ih, List.forall_mem_cons]

/-- A table can be read when the value at a key can be, and all the others. -/
theorem Wellformed.entriesReadable_iff {entries : Entries} (wellformed : Wellformed entries)
    (key : Key) : entriesReadable entries = true ↔
      entriesReadable (entries.filter (·.1 ≠ key)) = true ∧
        ∀ node, entries.get? key = some node → node.isReadable = true := by
  rw [Toml.entriesReadable_iff, Toml.entriesReadable_iff]
  constructor
  · intro readable
    exact ⟨fun e mem => readable e ((List.mem_filter.mp mem).1),
      fun node found => readable (key, node) (Entries.mem_of_get? found)⟩
  · rintro ⟨others, own⟩ ⟨k, node⟩ mem
    by_cases same : k = key
    · subst same
      exact own node (Entries.get?_of_mem wellformed.nodup mem)
    · exact others (k, node) (List.mem_filter.mpr ⟨mem, decide_eq_true same⟩)

end BuildLauncher.Toml
