import BuildLauncher.Toml.Document

/-!
# Tables that grow

* `Toml.Entries.alter?_fresh`, `Toml.Entries.alter?_last`: what changes at a key that is new, and at
  the key of the last entry.
* `Toml.performAll_append`: statements are carried out one after the other.
-/

namespace BuildLauncher.Toml

namespace Entries

variable {entries : Entries} {key : Key} {node : Node}

theorem get?_cons (k : Key) (rest : Entries) :
    Entries.get? ((k, node) :: rest) key = if k = key then some node else rest.get? key := by
  unfold Entries.get?
  rw [List.find?_cons]
  by_cases same : k = key
  · rw [if_pos same, decide_eq_true same]
    rfl
  · rw [if_neg same, decide_eq_false same]

/-- A new key is not that of the first entry, nor of any other. -/
theorem get?_cons_eq_none_iff {k : Key} {rest : Entries} :
    Entries.get? ((k, node) :: rest) key = none ↔ k ≠ key ∧ rest.get? key = none := by
  rw [get?_cons]
  by_cases same : k = key
  · rw [if_pos same]
    exact ⟨nofun, fun other => absurd same other.1⟩
  · rw [if_neg same]
    exact ⟨fun rest => ⟨same, rest⟩, And.right⟩

/-- A new key goes to the end. -/
theorem alter?_fresh (f : Option Node → Option Node) (fresh : entries.get? key = none) :
    entries.alter? key f = (f none).map fun node => entries ++ [(key, node)] := by
  induction entries with
  | nil => rfl
  | cons e rest ih =>
    obtain ⟨k, node⟩ := e
    obtain ⟨other, fresh⟩ := get?_cons_eq_none_iff.mp fresh
    rw [alter?, if_neg other, ih fresh, Option.map_map]
    rfl

theorem alter?_last (f : Option Node → Option Node) (fresh : entries.get? key = none) :
    Entries.alter? key f (entries ++ [(key, node)]) =
      (f (some node)).map fun node => entries ++ [(key, node)] := by
  induction entries with
  | nil =>
    rw [List.nil_append, alter?, if_pos rfl]
    rfl
  | cons e rest ih =>
    obtain ⟨k, node⟩ := e
    obtain ⟨other, fresh⟩ := get?_cons_eq_none_iff.mp fresh
    rw [List.cons_append, alter?, if_neg other, ih fresh, Option.map_map]
    rfl

theorem get?_last (fresh : entries.get? key = none) :
    Entries.get? (entries ++ [(key, node)]) key = some node := by
  induction entries with
  | nil =>
    rw [List.nil_append, get?_cons, if_pos rfl]
  | cons e rest ih =>
    obtain ⟨k, node⟩ := e
    obtain ⟨other, fresh⟩ := get?_cons_eq_none_iff.mp fresh
    rw [List.cons_append, get?_cons, if_neg other, ih fresh]

end Entries

theorem performAll_cons {entries entries' : Entries} {here here' : List Key} {st : Statement}
    {sts : List Statement} (first : st.perform entries here = some (entries', here')) :
    performAll entries here (st :: sts) = performAll entries' here' sts := by
  rw [performAll, first]
  rfl

/-- Statements are carried out one after the other: those behind go on with the table that the first
ones come to, and with the table they leave open. -/
theorem performAll_append {entries entries' : Entries} {here : List Key} {sts : List Statement}
    (performed : performAll entries here sts = some entries') :
    ∃ here', ∀ more, performAll entries here (sts ++ more) = performAll entries' here' more := by
  induction sts generalizing entries here with
  | nil =>
    cases performed
    exact ⟨here, fun more => rfl⟩
  | cons st sts ih =>
    rw [performAll, Option.bind_eq_bind, Option.bind_eq_some_iff] at performed
    obtain ⟨⟨entries₁, here₁⟩, first, others⟩ := performed
    obtain ⟨here', behind⟩ := ih others
    refine ⟨here', fun more => ?_⟩
    rw [List.cons_append, performAll_cons first]
    exact behind more

end BuildLauncher.Toml
