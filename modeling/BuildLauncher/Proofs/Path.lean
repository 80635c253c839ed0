import BuildLauncher.FileTree
import BuildLauncher.Proofs.Text.Utf8

/-!
# Where a path leads

One equation for each way in which two paths are joined and a tilde is read.

* `Path.join_of_absolute`, `Path.join_of_relative`: a path as seen from a directory.
* `Path.expandHome_of_atHome`, `Path.expandHome_of_not_atHome`: which tilde is the home directory.
-/

namespace BuildLauncher

namespace Path

variable {dir path : Bytes} {s : String} {rest : List Char}

/-! ## Joining -/

/-- A path below a directory: one slash stands between the two. -/
def below (dir path : Bytes) : Bytes :=
  if dir.getLast? = some slash then dir ++ path else dir ++ slash :: path

theorem isAbsolute_append (named : path ≠ []) (rest : Bytes) :
    isAbsolute (path ++ rest) = isAbsolute path := by
  cases path with
  | nil => exact absurd rfl named
  | cons b path => rfl

theorem ne_nil_of_absolute (absolute : isAbsolute dir = true) : dir ≠ [] := by
  rintro rfl
  exact absurd absolute (by decide)

theorem isAbsolute_below (rooted : isAbsolute dir = true) (path : Bytes) :
    isAbsolute (below dir path) = true := by
  unfold below
  split
  · rw [isAbsolute_append (ne_nil_of_absolute rooted), rooted]
  · rw [isAbsolute_append (ne_nil_of_absolute rooted), rooted]

theorem join_of_absolute (absolute : isAbsolute path = true) (dir : Bytes) :
    join dir path = path := by
  rw [join, if_pos absolute]

theorem join_of_relative (named : dir ≠ []) (relative : isAbsolute path = false) :
    join dir path = below dir path := by
  rw [join, relative, below]
  simp only [Bool.false_eq_true, if_false, named, false_or]

theorem isAbsolute_join (rooted : isAbsolute dir = true) (path : Bytes) :
    isAbsolute (join dir path) = true := by
  cases kind : isAbsolute path with
  | true => rw [join_of_absolute kind, kind]
  | false =>
    rw [join_of_relative (ne_nil_of_absolute rooted) kind]
    exact isAbsolute_below rooted path

/-! ## The home directory -/

/-- The text is a tilde, or a tilde before a slash; `rest` is what stands behind the tilde. -/
def AtHome (s : String) (rest : List Char) : Prop :=
  s.toList = '~' :: rest ∧ (rest = [] ∨ rest.head? = some '/')

theorem expandHome_of_atHome (home : String) (atHome : AtHome s rest) :
    expandHome (some home) s = home ++ String.ofList rest := by
  unfold expandHome
  rw [atHome.1]
  exact if_pos atHome.2

/-- Any other tilde stays, and so does one without a home directory. -/
theorem expandHome_of_not_atHome (home : Option String) (other : ∀ rest, ¬ AtHome s rest) :
    expandHome home s = s := by
  unfold expandHome
  split
  · next rest chars => exact if_neg fun atHome => other rest ⟨chars, atHome⟩
  · rfl

theorem not_isAbsolute_of_atHome (atHome : AtHome s rest) :
    isAbsolute (Utf8.ofString s) = false := by
  unfold Utf8.ofString
  rw [atHome.1]
  rfl

/-- An absolute path has no tilde to expand. -/
theorem expandHome_of_absolute (home : Option String)
    (absolute : isAbsolute (Utf8.ofString s) = true) : expandHome home s = s := by
  refine expandHome_of_not_atHome home fun rest atHome => ?_
  rw [not_isAbsolute_of_atHome atHome] at absolute
  cases absolute

end Path

end BuildLauncher
