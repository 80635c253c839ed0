import BuildLauncher.Proofs.Identity
import BuildLauncher.Proofs.Launcher.Children

/-!
# The check of the toolchain

* `Version.numbers_le`, `Version.release_lt_release_iff`: the order of versions, as far as their
  numbers decide it.
* `Toolchain.isOutdated_iff`, `Toolchain.isOutdated_of_le`: which versions are too old.
* `Toolchain.check_warns`: when there is a warning, and what it says.
-/

namespace BuildLauncher

namespace Version

theorem compare_eq (v w : Version) :
    compare v w = (compare v.numbers w.numbers).then
      ((comparePre v.pre w.pre).then (compare v.build w.build)) :=
  rfl

theorem compare_eq_lt_iff {ms ns : List UInt64} : compare ms ns = .lt ↔ ms < ns := by
  induction ms generalizing ns with
  | nil =>
    cases ns with
    | nil => simp
    | cons n ns => simp
  | cons m ms ih =>
    cases ns with
    | nil => simp
    | cons n ns =>
      rw [List.compare_cons_cons, Ordering.then_eq_lt, ih, List.cons_lt_cons_iff,
        Std.compare_eq_lt, Std.compare_eq_iff_eq]

/-- A version that comes first has no larger numbers. -/
theorem numbers_le {v w : Version} (first : v ≤ w) : ¬ w.numbers < v.numbers := by
  intro larger
  change (compare v w).isLE = true at first
  rw [compare_eq, Ordering.isLE_then_iff_and] at first
  have greater : compare v.numbers w.numbers = .gt := by
    rw [Std.OrientedOrd.eq_swap, compare_eq_lt_iff.mpr larger]
    rfl
  rw [greater] at first
  cases first.1

/-- Releases are in the order of their numbers. -/
theorem release_lt_release_iff {v w : Version} :
    v.release < w.release ↔ v.numbers < w.numbers := by
  change compare v.release w.release = .lt ↔ _
  have same : (comparePre v.release.pre w.release.pre).then
      (compare v.release.build w.release.build) = .eq := rfl
  rw [compare_eq, same, Ordering.then_eq, compare_eq_lt_iff]
  rfl

end Version

namespace Toolchain

open Act
open Launcher (OptsOut)

/-- Only the numbers of a version count. -/
theorem isOutdated_iff {v : Version} : isOutdated v = true ↔ v.numbers < [1, 74, 0] := by
  unfold isOutdated
  rw [decide_eq_true_iff]
  exact Version.release_lt_release_iff (w := minimum)

/-- What comes before a version that is too old is too old itself. -/
theorem isOutdated_of_le {v w : Version} (before : v ≤ w) (outdated : isOutdated w = true) :
    isOutdated v = true := by
  rw [isOutdated_iff] at outdated ⊢
  exact List.lt_of_le_of_lt (List.not_lt.mp (Version.numbers_le before)) outdated

theorem isSome_warning?_iff {v : Version} : (warning? v).isSome ↔ isOutdated v = true := by
  unfold warning?
  split
  next outdated => simp [outdated]
  next recent => simp [recent]

theorem warning?_eq_some_iff {v : Version} {text : String} :
    warning? v = some text ↔ v.numbers < [1, 74, 0] ∧
      text = "x: warning: cargo " ++ toString v ++
        " is older than the minimum supported version " ++
        "1.74.0. set HARTEX_IGNORE_OLD_TOOLCHAIN=1 to silence this warning." := by
  have wording : "x: warning: cargo " ++ toString v ++
      " is older than the minimum supported version " ++ toString minimum ++ ". set " ++
      ignoreToolchainKey ++ "=1 to silence this warning." =
      "x: warning: cargo " ++ toString v ++ " is older than the minimum supported version " ++
        "1.74.0. set HARTEX_IGNORE_OLD_TOOLCHAIN=1 to silence this warning." := by
    have shown : toString minimum = "1.74.0" := by decide
    rw [shown, String.append_assoc, String.append_assoc, String.append_assoc]
    rfl
  rw [← isOutdated_iff, ← wording]
  unfold warning?
  split
  next outdated => simp [outdated, eq_comm]
  next recent => simp [recent]

/-- **The check of the toolchain.**  A variable that silences it keeps it from asking anything.
Without one it asks cargo for its version once, and it warns exactly when cargo exits with success
and what it prints, read as text and without white space at its ends, names a version whose numbers
come before those of 1.74.0, whatever its pre-release.  The warning shows that version.  A version
that comes before one to be warned of is to be warned of as well. -/
theorem check_warns (host : Host) (env : Environment) (t : FileTree) :
    (OptsOut env → Does (check host env) t none [] t) ∧
    (¬ OptsOut env → ∃ o t' warning,
      (Launch.query host none ["cargo", "--version"]).perform host.children t = (o, t') ∧
      Does (check host env) t warning
        [.launched (.query host none ["cargo", "--version"]) o] t' ∧
      ∀ text, warning = some text ↔ o.ending = .exited 0 ∧ ∃ v : Version,
        versionOf? (String.ofList (Text.trim (Utf8.lossyChars (o.written .out)))) = some v ∧
        v.numbers < [1, 74, 0] ∧
        text = "x: warning: cargo " ++ toString v ++
          " is older than the minimum supported version " ++
          "1.74.0. set HARTEX_IGNORE_OLD_TOOLCHAIN=1 to silence this warning.") ∧
    ∀ v w : Version, v ≤ w → (warning? w).isSome → (warning? v).isSome := by
  refine ⟨fun silenced => ?_, fun heard => ?_, fun v w before warned => ?_⟩
  · exact does_check_of_silenced ((isSilenced_iff env).mpr silenced) host t
  · rcases ended : (Launch.query host none versionQuery).perform host.children t with ⟨o, t'⟩
    refine ⟨o, t', _, ended, does_check (mt (isSilenced_iff env).mp heard) ended, fun text => ?_⟩
    simp only [Option.bind_eq_some_iff, warning?_eq_some_iff, Outcome.answer?_eq_some_iff]
    constructor
    · rintro ⟨v, ⟨report, ⟨exits, printed, -⟩, named⟩, outdated, rfl⟩
      refine ⟨exits, v, ?_, outdated, rfl⟩
      rw [printed, String.ofList_toList]
      exact named
    · rintro ⟨exits, v, named, outdated, rfl⟩
      refine ⟨v, ⟨_, ⟨exits, String.toList_ofList.symm, fun empty => ?_⟩, named⟩, outdated, rfl⟩
      rw [empty] at named
      cases named
  · rw [isSome_warning?_iff] at warned ⊢
    exact isOutdated_of_le before warned

end Toolchain

end BuildLauncher
