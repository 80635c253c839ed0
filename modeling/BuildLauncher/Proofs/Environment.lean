import BuildLauncher.Proofs.Text.Utf8
import BuildLauncher.Step
import BuildLauncher.Toolchain

/-!
# What an environment holds

* `Environment.get?_set`: setting a variable changes that one and no other.
* `Environment.eq_of_get?`: an environment is determined by the values of its variables.
* `Step.get?_environment`: the environment of a step, variable by variable.
* `Toolchain.isSilenced_iff`: what silences the check of the toolchain.
-/

namespace BuildLauncher

namespace Environment

theorem find?_insert (key value name : Bytes) (entries : List (Bytes × Bytes)) :
    (insert key value entries).find? (·.1 = name) =
      if name = key then some (key, value) else entries.find? (·.1 = name) := by
  induction entries with
  | nil =>
    by_cases same : name = key
    · simp [insert, same]
    · simp [insert, same, Ne.symm same]
  | cons e rest ih =>
    obtain ⟨k, v⟩ := e
    unfold insert
    split
    · rw [List.find?_cons]
      by_cases same : name = key
      · simp [same]
      · simp [same, Ne.symm same]
    split
    · next replaced =>
      rw [List.find?_cons, List.find?_cons]
      by_cases same : name = key
      · simp [same]
      · simp [same, Ne.symm same, ← replaced]
    · next other =>
      rw [List.find?_cons, List.find?_cons, ih]
      by_cases same : name = key
      · simp [same, Ne.symm other]
      · simp [same]

/-- Setting a variable changes that one and no other. -/
theorem get?_set (env : Environment) (key value name : Bytes) :
    (env.set key value).get? name = if name = key then some value else env.get? name := by
  unfold get? set
  rw [find?_insert]
  split <;> rfl

/-- A variable has a value when the two are an entry. -/
theorem get?_eq_some_iff {env : Environment} {key value : Bytes} :
    env.get? key = some value ↔ (key, value) ∈ env.entries := by
  obtain ⟨entries, sorted⟩ := env
  change (entries.find? (·.1 = key)).map (·.2) = some value ↔ (key, value) ∈ entries
  induction entries with
  | nil => simp
  | cons e rest ih =>
    obtain ⟨before, sorted⟩ := List.pairwise_cons.mp sorted
    by_cases same : e.1 = key
    · rw [List.find?_cons_of_pos (by simpa using same), List.mem_cons]
      constructor
      · intro held
        obtain rfl : e.2 = value := Option.some.inj held
        exact .inl (Prod.ext same.symm rfl)
      · rintro (rfl | behind)
        · rfl
        · -- The key of the first entry does not come again.
          have less := before _ behind
          rw [same] at less
          exact absurd less (List.lt_irrefl key)
    · rw [List.find?_cons_of_neg (by simpa using same), ih sorted, List.mem_cons]
      constructor
      · exact .inr
      · rintro (rfl | behind)
        · exact absurd rfl same
        · exact behind

/-- No key comes twice. -/
theorem nodup_keys (env : Environment) : (env.toList.map Prod.fst).Nodup := by
  refine List.pairwise_map.mpr (env.sorted.imp fun less same => ?_)
  rw [same] at less
  exact List.lt_irrefl _ less

/-- Environments in which every variable has the same value are equal. -/
theorem eq_of_get? {env other : Environment} (same : ∀ key, env.get? key = other.get? key) :
    env = other := by
  have members (e : Bytes × Bytes) : e ∈ env.entries ↔ e ∈ other.entries := by
    rw [← get?_eq_some_iff, ← get?_eq_some_iff, same]
  have distinct (env : Environment) : env.entries.Nodup :=
    List.Pairwise.of_map Prod.fst (fun _ _ apart same => apart (congrArg Prod.fst same))
      (nodup_keys env)
  have permuted := (List.perm_ext_iff_of_nodup (distinct env) (distinct other)).mpr members
  have entries : env.entries = other.entries := by
    refine List.Perm.eq_of_pairwise ?_ env.sorted other.sorted permuted
    intro a b _ _ less greater
    exact absurd greater (List.lt_asymm less)
  obtain ⟨_, _⟩ := env
  obtain ⟨_, _⟩ := other
  cases entries
  rfl

/-- A text is the value of a variable when its bytes are. -/
theorem getText?_eq_some_iff {env : Environment} {key : Bytes} {text : String} :
    env.getText? key = some text ↔ env.get? key = some (Utf8.ofString text) := by
  unfold getText?
  rw [Option.bind_eq_some_iff]
  constructor
  · rintro ⟨bs, held, valid⟩
    rw [held, Utf8.decode?_eq_some_iff.mp valid]
  · intro held
    exact ⟨_, held, Utf8.decode?_eq_some_iff.mpr rfl⟩

/-- The two variables that carry an identity are set, and no other. -/
theorem get?_withIdentity (env : Environment) (id : Identity) (name : Bytes) :
    (env.withIdentity id).get? name =
      if name = Utf8.ofString versionKey then some (Utf8.ofString id.versionString)
      else if name = Utf8.ofString isStableKey then
        some (Utf8.ofString (if id.channel.isStable then "true" else "false"))
      else env.get? name := by
  unfold withIdentity setText
  rw [get?_set, get?_set]

end Environment

/-- The environment of a step holds the identity, for the bootstrap step the output path as well,
and otherwise what the given environment holds. -/
theorem Step.get?_environment (step : Step) (id : Identity) (base : Environment)
    (conf : Configuration) (home : Option String) (root name : Bytes) :
    (step.environment id base conf home root).get? name =
      if step.isBootstrap ∧ name = Utf8.ofString Environment.targetDirKey then
        some (conf.outputPath home root)
      else if name = Utf8.ofString Environment.versionKey then
        some (Utf8.ofString id.versionString)
      else if name = Utf8.ofString Environment.isStableKey then
        some (Utf8.ofString (if id.channel.isStable then "true" else "false"))
      else base.get? name := by
  unfold Step.environment
  cases step.isBootstrap with
  | false =>
    rw [if_neg (by decide), if_neg (by simp)]
    exact Environment.get?_withIdentity base id name
  | true =>
    rw [if_pos rfl, Environment.get?_set, Environment.get?_withIdentity]
    simp only [true_and]

/-- Either variable silences the check when its value is the one byte `1`. -/
theorem Toolchain.isSilenced_iff (env : Environment) :
    isSilenced env = true ↔
      env.get? (Utf8.ofString ignoreToolchainKey) = some [0x31] ∨
      env.get? (Utf8.ofString ignorePythonKey) = some [0x31] := by
  have one : Utf8.ofString "1" = [0x31] := by decide
  have silences (key : String) : decide (env.getText? (Utf8.ofString key) = some "1") = true ↔
      env.get? (Utf8.ofString key) = some [0x31] := by
    rw [decide_eq_true_iff, Environment.getText?_eq_some_iff, one]
  unfold isSilenced
  rw [List.any_cons, List.any_cons, List.any_nil, Bool.or_false, Bool.or_eq_true, silences,
    silences]

end BuildLauncher
