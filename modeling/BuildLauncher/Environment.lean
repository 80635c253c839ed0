import BuildLauncher.Text.Utf8

/-!
# Environments

A finite map from byte strings to byte strings, kept as its list of entries in increasing order of
the keys.  Equal maps are therefore equal values, whatever the order in which they were filled.
-/

namespace BuildLauncher

namespace Environment

/-- The key of the first entry comes strictly before all the others, and so on down the list. -/
abbrev Sorted (entries : List (Bytes × Bytes)) : Prop :=
  entries.Pairwise fun a b => a.1 < b.1

/-- Puts an entry at its place, instead of the entry with the same key if there is one. -/
def insert (key value : Bytes) : List (Bytes × Bytes) → List (Bytes × Bytes)
  | [] => [(key, value)]
  | (k, v) :: rest =>
    if key < k then (key, value) :: (k, v) :: rest
    else if key = k then (key, value) :: rest
    else (k, v) :: insert key value rest

/-- An inserted list has no keys but the old ones and the new one. -/
theorem mem_insert_key {key value : Bytes} {entries : List (Bytes × Bytes)} {e : Bytes × Bytes}
    (h : e ∈ insert key value entries) : e.1 = key ∨ e ∈ entries := by
  induction entries with
  | nil => simp_all [insert]
  | cons x rest ih =>
    obtain ⟨k, v⟩ := x
    unfold insert at h
    split at h
    · rcases List.mem_cons.1 h with rfl | h
      · exact .inl rfl
      · exact .inr h
    · split at h
      · rcases List.mem_cons.1 h with rfl | h
        · exact .inl rfl
        · exact .inr (List.mem_cons_of_mem _ h)
      · rcases List.mem_cons.1 h with rfl | h
        · exact .inr List.mem_cons_self
        · exact (ih h).imp id (List.mem_cons_of_mem _)

theorem sorted_insert {key value : Bytes} {entries : List (Bytes × Bytes)} (h : Sorted entries) :
    Sorted (insert key value entries) := by
  induction entries with
  | nil => simp [insert]
  | cons x rest ih =>
    obtain ⟨k, v⟩ := x
    have ⟨hk, hrest⟩ := List.pairwise_cons.1 h
    unfold insert
    split
    · next hlt =>
      refine List.pairwise_cons.2 ⟨fun e he => ?_, h⟩
      rcases List.mem_cons.1 he with rfl | he
      · exact hlt
      · exact List.lt_trans hlt (hk e he)
    · next hlt =>
      split
      · next heq => exact List.pairwise_cons.2 ⟨fun e he => heq ▸ hk e he, hrest⟩
      · next hne =>
        refine List.pairwise_cons.2 ⟨fun e he => ?_, ih hrest⟩
        rcases mem_insert_key he with hkey | he
        · have hgt : k < key := Std.lt_of_le_of_ne (List.not_lt.1 hlt) (Ne.symm hne)
          exact hkey ▸ hgt
        · exact hk e he

end Environment

/-- A finite map from byte strings to byte strings. -/
structure Environment where
  entries : List (Bytes × Bytes) := []
  sorted : Environment.Sorted entries := by simp
  deriving DecidableEq

namespace Environment

/-- The environment without variables. -/
def empty : Environment := {}

instance : Inhabited Environment := ⟨empty⟩

/-- The environment with one more variable, or with another value for one that it has. -/
def set (env : Environment) (key value : Bytes) : Environment where
  entries := insert key value env.entries
  sorted := sorted_insert env.sorted

/-- The environment of a list of variables; of two with one key, the later counts. -/
def ofList (entries : List (Bytes × Bytes)) : Environment :=
  entries.foldl (fun env e => env.set e.1 e.2) empty

/-- The variables in increasing order of their keys. -/
def toList (env : Environment) : List (Bytes × Bytes) := env.entries

/-- The value of a variable. -/
def get? (env : Environment) (key : Bytes) : Option Bytes :=
  (env.entries.find? (·.1 = key)).map (·.2)

/-- The value of a variable, when it is valid UTF-8. -/
def getText? (env : Environment) (key : Bytes) : Option String :=
  (env.get? key).bind Utf8.decode?

/-- Whether there is a variable of that key. -/
def contains (env : Environment) (key : Bytes) : Bool := (env.get? key).isSome

/-- The number of variables. -/
def size (env : Environment) : Nat := env.entries.length

/-- Whether there is no variable. -/
def isEmpty (env : Environment) : Bool := env.entries.isEmpty

end Environment

end BuildLauncher
