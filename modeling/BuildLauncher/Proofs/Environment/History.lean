import BuildLauncher.Proofs.Environment
import Mathlib.Data.Finset.Card
import Mathlib.Data.Finset.Dedup

/-!
# Environments as finite maps

An environment that is collected from a list and then set, one variable after the other, shows the
last entry of its history for each key, and nothing of the order of the others.

* `Environment.Records.set`, `Environment.Records.setAll`: one setting, and a sequence of them.
* `Environment.Records.contains_iff`, `Environment.Records.size_eq`: what else the history decides.
* `Environment.ofList_toList`: an environment is collected again from the list of its variables.
* `Environment.refines_map`: every view of an environment, after any history.
-/

namespace BuildLauncher

namespace Environment

variable {env : Environment} {history : List (Bytes × Bytes)} {key value : Bytes}

/-- The environment after a sequence of settings. -/
def setAll (env : Environment) (entries : List (Bytes × Bytes)) : Environment :=
  entries.foldl (fun env e => env.set e.1 e.2) env

/-- The last entry of a history for a key has the given value. -/
def LastSets (history : List (Bytes × Bytes)) (key value : Bytes) : Prop :=
  ∃ before after, history = before ++ (key, value) :: after ∧ key ∉ after.map Prod.fst

/-- Every variable has the value that the last entry for it sets, and there are no others. -/
def Records (env : Environment) (history : List (Bytes × Bytes)) : Prop :=
  ∀ key value, env.get? key = some value ↔ LastSets history key value

/-! ## Histories -/

theorem not_lastSets_nil : ¬ LastSets [] key value := by
  rintro ⟨before, after, split, -⟩
  exact List.append_ne_nil_of_right_ne_nil before (List.cons_ne_nil _ after) split.symm

/-- The entry at the end is the last one for its key and changes nothing for another. -/
theorem lastSets_concat {e : Bytes × Bytes} : LastSets (history ++ [e]) key value ↔
    e = (key, value) ∨ key ≠ e.1 ∧ LastSets history key value := by
  constructor
  · rintro ⟨before, after, split, absent⟩
    rcases List.eq_nil_or_concat' after with rfl | ⟨after, last, rfl⟩
    · exact .inl (List.singleton_inj.mp (List.append_inj' split rfl).2)
    · rw [← List.cons_append, ← List.append_assoc] at split
      obtain ⟨front, same⟩ := List.append_inj' split rfl
      obtain rfl := List.singleton_inj.mp same
      rw [List.map_append, List.mem_append, not_or, List.map_singleton,
        List.mem_singleton] at absent
      exact .inr ⟨absent.2, before, after, front, absent.1⟩
  · rintro (rfl | ⟨other, before, after, rfl, absent⟩)
    · exact ⟨history, [], rfl, List.not_mem_nil⟩
    · refine ⟨before, after ++ [e], List.append_assoc .., ?_⟩
      rw [List.map_append, List.mem_append, not_or, List.map_singleton, List.mem_singleton]
      exact ⟨absent, other⟩

/-- There is a last entry for a key when there is an entry for it. -/
theorem exists_lastSets_iff : (∃ value, LastSets history key value) ↔
    key ∈ history.map Prod.fst := by
  constructor
  · rintro ⟨value, before, after, rfl, -⟩
    exact List.mem_map_of_mem (List.mem_append_right before List.mem_cons_self)
  · intro mem
    induction history using List.reverseRecOn with
    | nil => cases mem
    | append_singleton history e ih =>
      by_cases same : key = e.1
      · exact ⟨e.2, lastSets_concat.mpr (.inl (Prod.ext same.symm rfl))⟩
      · rw [List.map_append, List.mem_append, List.map_singleton, List.mem_singleton] at mem
        obtain ⟨value, last⟩ := ih (mem.resolve_right same)
        exact ⟨value, lastSets_concat.mpr (.inr ⟨same, last⟩)⟩

/-- In increasing order of the keys, every entry is the last one for its key. -/
theorem lastSets_iff_mem (sorted : Sorted history) :
    LastSets history key value ↔ (key, value) ∈ history := by
  constructor
  · rintro ⟨before, after, rfl, -⟩
    exact List.mem_append_right before List.mem_cons_self
  · intro mem
    obtain ⟨before, after, rfl⟩ := List.append_of_mem mem
    refine ⟨before, after, rfl, fun again => ?_⟩
    obtain ⟨e, behind, same⟩ := List.mem_map.mp again
    have less := (List.pairwise_cons.mp (List.pairwise_append.mp sorted).2.1).1 e behind
    rw [same] at less
    exact List.lt_irrefl key less

/-! ## Settings -/

theorem records_empty : empty.Records [] := by
  intro key value
  exact ⟨nofun, fun last => absurd last not_lastSets_nil⟩

/-- One setting is one more entry. -/
theorem Records.set (records : env.Records history) (k v : Bytes) :
    (env.set k v).Records (history ++ [(k, v)]) := by
  intro key value
  rw [get?_set, lastSets_concat, Prod.mk.injEq]
  by_cases same : key = k
  · simp [same]
  · simp [same, Ne.symm same, records key value]

theorem Records.setAll (records : env.Records history) (entries : List (Bytes × Bytes)) :
    (env.setAll entries).Records (history ++ entries) := by
  induction entries generalizing env history with
  | nil => rwa [List.append_nil]
  | cons e rest ih =>
    rw [List.append_cons]
    exact ih (records.set e.1 e.2)

theorem records_ofList (entries : List (Bytes × Bytes)) : (ofList entries).Records entries :=
  records_empty.setAll entries

/-! ## What a history decides -/

theorem Records.contains_iff (records : env.Records history) :
    env.contains key = true ↔ key ∈ history.map Prod.fst := by
  rw [contains, Option.isSome_iff_exists, ← exists_lastSets_iff]
  exact exists_congr fun value => records key value

theorem Records.size_eq (records : env.Records history) :
    env.size = (history.map Prod.fst).toFinset.card := by
  have keys : (history.map Prod.fst).toFinset = (env.toList.map Prod.fst).toFinset := by
    ext key
    rw [List.mem_toFinset, List.mem_toFinset, ← records.contains_iff, contains,
      Option.isSome_iff_exists]
    simp [get?_eq_some_iff, toList]
  rw [keys, List.toFinset_card_of_nodup (nodup_keys env), List.length_map]
  rfl

/-- An environment is collected again from the list of its variables. -/
theorem ofList_toList (env : Environment) : ofList env.toList = env := by
  refine eq_of_get? fun key => Option.ext fun value => ?_
  rw [records_ofList env.toList key value, toList, lastSets_iff_mem env.sorted,
    get?_eq_some_iff]

/-- Collected from a list of pairs and then set, one variable after the other, an environment gives
for each key the value of its last entry, whichever way it is asked; it lists each key once, in
increasing order, and is the same as any other that gives the same values. -/
theorem refines_map (pairs sets : List (Bytes × Bytes)) :
    let env := (ofList pairs).setAll sets
    let history := pairs ++ sets
    (∀ key value, env.get? key = some value ↔ LastSets history key value) ∧
    (∀ key, env.get? key = none ↔ key ∉ history.map Prod.fst) ∧
    (∀ key, env.contains key = true ↔ key ∈ history.map Prod.fst) ∧
    env.size = (history.map Prod.fst).toFinset.card ∧
    (env.isEmpty = true ↔ env.size = 0) ∧
    env.toList.Pairwise (fun a b => a.1 < b.1) ∧
    (∀ key value, (key, value) ∈ env.toList ↔ env.get? key = some value) ∧
    (∀ key text, env.getText? key = some text ↔ env.get? key = some (Utf8.ofString text)) ∧
    (∀ other, env = other ↔ ∀ key, env.get? key = other.get? key) ∧
    ofList env.toList = env := by
  intro env history
  have records : env.Records history := (records_ofList pairs).setAll sets
  refine ⟨records, fun key => ?_, fun key => records.contains_iff, records.size_eq, ?_, env.sorted,
    fun key value => get?_eq_some_iff.symm, fun key text => getText?_eq_some_iff, fun other => ?_,
    ofList_toList env⟩
  · rw [← records.contains_iff, contains, Bool.not_eq_true, Option.isSome_eq_false_iff,
      Option.isNone_iff_eq_none]
  · exact List.isEmpty_iff_length_eq_zero
  · exact ⟨fun same _ => by rw [same], eq_of_get?⟩

end Environment

end BuildLauncher
