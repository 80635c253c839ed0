import BuildLauncher.Configuration.File
import BuildLauncher.Proofs.FileTree

/-!
# New files

`FileTree.Designates` says which place a path has in mind for a new file: its last name in the
directory that the other names lead to, whether or not something stands there.

* `FileTree.newPlace_eq_ok_iff`: a new file goes to the place that its path designates, provided
  that it is free.
* `FileTree.Designates.mono`, `FileTree.Designates.resolves`: the path keeps designating that place
  in a tree that has more in it, and leads there once a file stands at it.
* `FileTree.writeNew_of_place`: what stands in a new file whose writing may stop short.
* `FileTree.writeNew_cases`: writing a new file adds that file and nothing else, or fails and
  changes nothing.
-/

namespace BuildLauncher.FileTree

variable {t t' : FileTree} {w : Writing} {here parent place : Place} {path name content : Bytes}
  {context : String}

/-! ## The place of a new file -/

/-- Seen from the directory `here`, a new file of that path has the name `name` in the directory
`parent`. -/
structure Designates (t : FileTree) (here : Place) (path : Bytes) (parent : Place) (name : Bytes) :
    Prop where
  checked : checkPath path = .ok ()
  noSlash : path.getLast? ≠ some Path.slash
  named : IsEntryName name
  directory : t.get? parent = some .directory
  leads : ∃ front, parts path = front ++ [name] ∧
    ∃ n ≤ maxLinks, Leads t n (start here path) (front ++ [hereName]) parent

/-- The place that a path designates is taken or free. -/
theorem newPlace_of_designates (designates : Designates t here path parent name) :
    t.newPlace here path =
      if (t.get? (parent ++ [name])).isSome then .error (.system .alreadyExists)
      else .ok (parent ++ [name]) := by
  obtain ⟨checked, noSlash, named, directory, front, same, n, few, leads⟩ := designates
  have walked := leads.walk few
  have names : (path.splitOn Path.slash).filter (· ≠ []) = front ++ [name] := same
  unfold newPlace
  dsimp only
  rw [names, List.dropLast_concat, List.getLast?_concat, checked, walked]
  dsimp only [Except.mapError, bind, Except.bind]
  rw [if_neg (not_not_intro directory), if_neg (not_or.mpr ⟨named.1, named.2.1⟩), if_neg noSlash,
    if_neg (Nat.not_lt.mpr named.2.2)]

theorem exists_designates_of_newPlace (opened : t.newPlace here path = .ok place) :
    ∃ parent name, Designates t here path parent name ∧ t.get? (parent ++ [name]) = none ∧
      place = parent ++ [name] := by
  unfold newPlace at opened
  dsimp only at opened
  cases checked : checkPath path with
  | error e =>
    rw [checked] at opened
    cases opened
  | ok done =>
    rw [checked] at opened
    cases walked : t.walk false maxLinks (start here path)
        (((path.splitOn Path.slash).filter (· ≠ [])).dropLast ++ [hereName]) with
    | error e =>
      rw [walked] at opened
      cases opened
    | ok parent =>
      rw [walked] at opened
      dsimp only [Except.mapError, bind, Except.bind] at opened
      split at opened
      · cases opened
      next name last =>
      split at opened
      · cases opened
      next directory =>
      split at opened
      · cases opened
      next ordinary =>
      split at opened
      · cases opened
      next noSlash =>
      split at opened
      · cases opened
      next short =>
      split at opened
      · cases opened
      next free =>
      obtain ⟨front, same⟩ := List.getLast?_eq_some_iff.mp last
      rw [same, List.dropLast_concat] at walked
      obtain ⟨n, few, leads⟩ := walk_eq_ok_iff.mp walked
      obtain ⟨notHere, notParent⟩ := not_or.mp ordinary
      have named : IsEntryName name := ⟨notHere, notParent, Nat.not_lt.mp short⟩
      refine ⟨parent, name, ?_, Option.not_isSome_iff_eq_none.mp free, (Except.ok.inj opened).symm⟩
      exact ⟨checked, noSlash, named, Decidable.of_not_not directory, front, same, n, few, leads⟩

theorem newPlace_eq_ok_iff : t.newPlace here path = .ok place ↔
    ∃ parent name, Designates t here path parent name ∧ t.get? (parent ++ [name]) = none ∧
      place = parent ++ [name] := by
  constructor
  · exact exists_designates_of_newPlace
  · rintro ⟨parent, name, designates, free, rfl⟩
    rw [newPlace_of_designates designates, free]
    rfl

namespace Designates

theorem mono (kept : ∀ {place e}, t.get? place = some e → t'.get? place = some e)
    (designates : Designates t here path parent name) : Designates t' here path parent name := by
  obtain ⟨checked, noSlash, named, directory, front, same, n, few, leads⟩ := designates
  exact ⟨checked, noSlash, named, kept directory, front, same, n, few, leads.mono kept⟩

/-- The path leads to the file that stands at the place it designates. -/
theorem resolves {isProgram : Bool} (designates : Designates t here path parent name)
    (stands : t.get? (parent ++ [name]) = some (.file content isProgram)) :
    Resolves t here path (parent ++ [name]) := by
  obtain ⟨checked, noSlash, named, -, front, same, n, few, leads⟩ := designates
  refine ⟨checked, n, few, ?_⟩
  rw [names_eq_parts noSlash, same]
  exact leads.join rfl (.file named stands)

/-- A path that leads somewhere leads to the place it designates only if something stands there. -/
theorem not_resolves (designates : Designates t here path parent name)
    (free : t.get? (parent ++ [name]) = none) : ¬ Resolves t here path place := by
  obtain ⟨-, noSlash, named, -, front, same, n, -, leads⟩ := designates
  rintro ⟨-, m, -, further⟩
  rw [names_eq_parts noSlash, same] at further
  obtain ⟨dir, k, l, -, before, behind⟩ := further.split rfl (List.cons_ne_nil _ _)
  obtain rfl := leads.unique before
  exact behind.get?_ne_none named free

end Designates

/-! ## Writing a new file -/

theorem createNew_of_designates (designates : Designates t here path parent name) :
    t.createNew here path =
      if (t.get? (parent ++ [name])).isSome then .error (.system .alreadyExists)
      else .ok (parent ++ [name], t.set (parent ++ [name]) (.file [] false)) := by
  unfold createNew
  rw [newPlace_of_designates designates]
  split
  · rfl
  · rfl

/-- Once there is a place for it, a new file holds as much as could be written. -/
theorem writeNew_of_place (opened : t.newPlace here path = .ok place) (w : Writing)
    (content : Bytes) (context : String) :
    ∃ t', Adds t t' place (.file (w.perform content).1 false) ∧
      t.writeNew w here path content context =
        ((match (w.perform content).2 with
          | none => .ok ()
          | some e => .error (.ofSystem e.message (some (context ++ " (write)")))), t') := by
  obtain ⟨parent, name, -, free, rfl⟩ := newPlace_eq_ok_iff.mp opened
  refine ⟨_, adds_append free _, ?_⟩
  unfold writeNew createNew
  rw [opened]
  dsimp only [bind, Except.bind]
  rcases w.perform content with ⟨written, _ | e⟩
  · rfl
  · rfl

theorem writeNew_of_designates (whole : (w.perform content).2 = none)
    (designates : Designates t here path parent name) (free : t.get? (parent ++ [name]) = none)
    (context : String) :
    ∃ t', t.writeNew w here path content context = (.ok (), t') ∧
      Adds t t' (parent ++ [name]) (.file content false) := by
  have opened := newPlace_eq_ok_iff.mpr ⟨parent, name, designates, free, rfl⟩
  obtain ⟨t', adds, written⟩ := writeNew_of_place opened w content context
  rw [Writing.perform_eq whole] at adds written
  exact ⟨t', written, adds⟩

theorem writeNew_of_error {e : FileError} (refused : t.newPlace here path = .error e)
    (w : Writing) (content : Bytes) (context : String) :
    t.writeNew w here path content context =
      (.error (.ofSystem e.message (some context)), t) := by
  unfold writeNew createNew
  rw [refused]
  rfl

/-- Writing a new file adds it at the place that its path designates, or fails and changes
nothing. -/
theorem writeNew_cases (t : FileTree) (w : Writing) (here : Place) (path content : Bytes)
    (context : String) (whole : (w.perform content).2 = none) :
    (∃ parent name t', Designates t here path parent name ∧
        t.writeNew w here path content context = (.ok (), t') ∧
        Adds t t' (parent ++ [name]) (.file content false)) ∨
      ∃ f, t.writeNew w here path content context = (.error f, t) ∧ f.code = .io := by
  cases opened : t.newPlace here path with
  | ok place =>
    obtain ⟨parent, name, designates, free, -⟩ := newPlace_eq_ok_iff.mp opened
    obtain ⟨t', written, adds⟩ := writeNew_of_designates whole designates free context
    exact .inl ⟨parent, name, t', designates, written, adds⟩
  | error e => exact .inr ⟨_, writeNew_of_error opened w content context, rfl⟩

end BuildLauncher.FileTree
