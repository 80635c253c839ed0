import BuildLauncher.Proofs.Environment
import Mathlib.Data.List.Induction

/-!
# Environments of steps, one on top of the other

The environment of a step overlays a given one, which may itself be that of a step.

* `Overlay.get?_apply`, `Overlay.get?_applyAll`: what one overlay sets, and which overlay has the
  last word among several.
* `Overlay.apply_apply`: an overlay hides an earlier one that sets no other variables.
* `Overlay.last_overlay_wins`: the three variables that overlays set, and everything that they
  leave.
-/

namespace BuildLauncher

/-- What the environment of a step is made from, besides the environment below. -/
structure Overlay where
  step : Step
  id : Identity
  conf : Configuration
  home : Option String
  root : Bytes

namespace Overlay

variable {base : Environment} {overlays : List Overlay} {o earlier later : Overlay} {key : Bytes}

/-- The environment of the step on top of a given one. -/
def apply (o : Overlay) (base : Environment) : Environment :=
  o.step.environment o.id base o.conf o.home o.root

/-- The environments of steps, each on top of the one before. -/
def applyAll (overlays : List Overlay) (base : Environment) : Environment :=
  overlays.foldl (fun env o => o.apply env) base

/-- The key of the variable that tells the build whether it is a stable one. -/
abbrev stableKey : Bytes := Utf8.ofString Environment.isStableKey

/-- The key of the variable that tells the build its version string. -/
abbrev versionKey : Bytes := Utf8.ofString Environment.versionKey

/-- The key of the variable that redirects the output. -/
abbrev targetKey : Bytes := Utf8.ofString Environment.targetDirKey

/-- Whether the build is a stable one, as the variable says it. -/
def stableValue (o : Overlay) : Bytes :=
  Utf8.ofString (if o.id.channel.isStable then "true" else "false")

/-- The version string, as the variable says it. -/
def versionValue (o : Overlay) : Bytes := Utf8.ofString o.id.versionString

/-- The output path, as the variable says it. -/
def targetValue (o : Overlay) : Bytes := o.conf.outputPath o.home o.root

/-- The value that an overlay gives a variable, if it sets that variable. -/
def value? (o : Overlay) (key : Bytes) : Option Bytes :=
  if o.step.isBootstrap ∧ key = targetKey then some o.targetValue
  else if key = versionKey then some o.versionValue
  else if key = stableKey then some o.stableValue
  else none

theorem value?_eq_none_iff : o.value? key = none ↔
    ¬ (o.step.isBootstrap ∧ key = targetKey) ∧ key ≠ versionKey ∧ key ≠ stableKey := by
  unfold value?
  split
  · next target => simp [target]
  split
  · next version => simp [version]
  split
  · next stable => simp [stable]
  · next target version stable => simp [target, version, stable]

/-- What an overlay does not set stays as it is. -/
theorem get?_apply (o : Overlay) (base : Environment) (key : Bytes) :
    (o.apply base).get? key = (o.value? key).or (base.get? key) := by
  have value := Step.get?_environment o.step o.id base o.conf o.home o.root key
  unfold apply
  rw [value, value?]
  split
  · rfl
  split
  · rfl
  split
  · rfl
  · rfl

/-- Of several overlays that set a variable, the last one counts. -/
theorem get?_applyAll (overlays : List Overlay) (base : Environment) (key : Bytes) :
    (applyAll overlays base).get? key =
      (overlays.filterMap (·.value? key)).getLast?.or (base.get? key) := by
  induction overlays using List.reverseRecOn with
  | nil => rfl
  | append_singleton overlays o ih =>
    have last : applyAll (overlays ++ [o]) base = o.apply (applyAll overlays base) :=
      List.foldl_append
    rw [last, get?_apply, ih, List.filterMap_append, List.getLast?_append, Option.or_assoc]
    cases value : o.value? key with
    | none => simp [value]
    | some bytes => simp [value]

/-- No variable is lost. -/
theorem contains_applyAll (overlays : List Overlay) (held : base.contains key) :
    (applyAll overlays base).contains key := by
  rw [Environment.contains, get?_applyAll, Option.isSome_or, Bool.or_eq_true]
  exact .inr held

/-- An overlay hides an earlier one, unless that one alone redirects the output. -/
theorem apply_apply (redirects : earlier.step.isBootstrap → later.step.isBootstrap)
    (base : Environment) : later.apply (earlier.apply base) = later.apply base := by
  refine Environment.eq_of_get? fun key => ?_
  rw [get?_apply, get?_apply, get?_apply]
  cases value : later.value? key with
  | some bytes => rfl
  | none =>
    obtain ⟨target, rest⟩ := value?_eq_none_iff.mp value
    have unset : earlier.value? key = none :=
      value?_eq_none_iff.mpr ⟨fun set => target ⟨redirects set.1, set.2⟩, rest⟩
    rw [unset, Option.none_or]

/-! ## The three variables -/

theorem value?_stableKey (o : Overlay) : o.value? stableKey = some o.stableValue := by
  have target : stableKey ≠ targetKey := by decide
  have version : stableKey ≠ versionKey := by decide
  rw [value?, if_neg fun set => target set.2, if_neg version, if_pos rfl]

theorem value?_versionKey (o : Overlay) : o.value? versionKey = some o.versionValue := by
  have target : versionKey ≠ targetKey := by decide
  rw [value?, if_neg fun set => target set.2, if_pos rfl]

theorem value?_targetKey (o : Overlay) :
    o.value? targetKey = if o.step.isBootstrap then some o.targetValue else none := by
  have version : targetKey ≠ versionKey := by decide
  have stable : targetKey ≠ stableKey := by decide
  unfold value?
  rw [if_neg version, if_neg stable]
  cases o.step.isBootstrap with
  | true => rfl
  | false => rfl

theorem get?_applyAll_stableKey (overlays : List Overlay) (base : Environment) :
    (applyAll overlays base).get? stableKey =
      (overlays.getLast?.map stableValue).or (base.get? stableKey) := by
  have set : overlays.filterMap (·.value? stableKey) = overlays.map stableValue := by
    simp only [value?_stableKey, List.filterMap_eq_map']
  rw [get?_applyAll, set, List.getLast?_map]

theorem get?_applyAll_versionKey (overlays : List Overlay) (base : Environment) :
    (applyAll overlays base).get? versionKey =
      (overlays.getLast?.map versionValue).or (base.get? versionKey) := by
  have set : overlays.filterMap (·.value? versionKey) = overlays.map versionValue := by
    simp only [value?_versionKey, List.filterMap_eq_map']
  rw [get?_applyAll, set, List.getLast?_map]

/-- Only the bootstrap steps count for the target directory. -/
theorem get?_applyAll_targetKey (overlays : List Overlay) (base : Environment) :
    (applyAll overlays base).get? targetKey =
      ((overlays.filter (·.step.isBootstrap)).getLast?.map targetValue).or
        (base.get? targetKey) := by
  have set : overlays.filterMap (·.value? targetKey) =
      (overlays.filter (·.step.isBootstrap)).map targetValue := by
    rw [← List.filterMap_eq_map, List.filterMap_filter]
    simp only [value?_targetKey, Function.comp_apply]
  rw [get?_applyAll, set, List.getLast?_map]

/-- All other variables are those of the environment below. -/
theorem get?_applyAll_of_other (stable : key ≠ stableKey) (version : key ≠ versionKey)
    (target : key ≠ targetKey) (overlays : List Overlay) (base : Environment) :
    (applyAll overlays base).get? key = base.get? key := by
  have unset : overlays.filterMap (·.value? key) = [] := by
    refine List.filterMap_eq_nil_iff.mpr fun o _ => ?_
    exact value?_eq_none_iff.mpr ⟨fun set => target set.2, version, stable⟩
  rw [get?_applyAll, unset, List.getLast?_nil, Option.none_or]

/-- **Overlays on an environment.**  However many there are, the two variables of the identity are
those of the last overlay, the output goes where the last overlay of a bootstrap step sends it, and
without such an overlay the variables are those of the given environment, as all others are.  No
variable is lost, and no more than these three are new.  The same overlay twice is that overlay
once, and of two overlays of one step the first leaves no trace. -/
theorem last_overlay_wins (overlays : List Overlay) (base : Environment) :
    (applyAll overlays base).get? (Utf8.ofString "CFG_IS_STABLE") =
      (overlays.getLast?.map fun o =>
        Utf8.ofString (if o.id.channel.isStable then "true" else "false")).or
        (base.get? (Utf8.ofString "CFG_IS_STABLE")) ∧
    (applyAll overlays base).get? (Utf8.ofString "CFG_VERSION_STR") =
      (overlays.getLast?.map fun o => Utf8.ofString o.id.versionString).or
        (base.get? (Utf8.ofString "CFG_VERSION_STR")) ∧
    (applyAll overlays base).get? (Utf8.ofString "CARGO_TARGET_DIR") =
      ((overlays.filter (·.step.isBootstrap)).getLast?.map fun o =>
        o.conf.outputPath o.home o.root).or (base.get? (Utf8.ofString "CARGO_TARGET_DIR")) ∧
    (∀ key, key ∉ ["CFG_IS_STABLE", "CFG_VERSION_STR", "CARGO_TARGET_DIR"].map Utf8.ofString →
      (applyAll overlays base).get? key = base.get? key) ∧
    (∀ key, base.contains key → (applyAll overlays base).contains key) ∧
    (∀ key, (applyAll overlays base).contains key → base.contains key ∨
      key ∈ ["CFG_IS_STABLE", "CFG_VERSION_STR", "CARGO_TARGET_DIR"].map Utf8.ofString) ∧
    (∀ o : Overlay, o.apply (o.apply base) = o.apply base) ∧
    ∀ earlier later : Overlay, earlier.step = later.step →
      later.apply (earlier.apply base) = later.apply base := by
  have other (key : Bytes) (apart : key ∉
      ["CFG_IS_STABLE", "CFG_VERSION_STR", "CARGO_TARGET_DIR"].map Utf8.ofString) :
      (applyAll overlays base).get? key = base.get? key := by
    rw [List.map_cons, List.map_cons, List.map_cons, List.map_nil, List.mem_cons, List.mem_cons,
      List.mem_singleton, not_or, not_or] at apart
    exact get?_applyAll_of_other apart.1 apart.2.1 apart.2.2 overlays base
  refine ⟨get?_applyAll_stableKey overlays base, get?_applyAll_versionKey overlays base,
    get?_applyAll_targetKey overlays base, other, fun key => contains_applyAll overlays, ?_,
    fun o => apply_apply (fun set => set) base, ?_⟩
  · intro key held
    by_cases known : key ∈
        ["CFG_IS_STABLE", "CFG_VERSION_STR", "CARGO_TARGET_DIR"].map Utf8.ofString
    · exact .inr known
    · rw [Environment.contains, other key known] at held
      exact .inl held
  · intro earlier later same
    refine apply_apply (fun redirects => ?_) base
    rw [← same]
    exact redirects

end Overlay

end BuildLauncher
