import BuildLauncher.Proofs.FileTree.NewFile

/-!
# Creating the configuration file

* `Configuration.designates_path_iff`, `Configuration.newPlace_path_eq_ok_iff`: which place the path
  of the configuration file designates, and where a new file of that path goes, by the directory
  that the root leads to.
* `Configuration.configure_creates_once`: when configuring finds something, when it creates the
  file, when it fails, and what becomes of the tree.
-/

namespace BuildLauncher

namespace Configuration

open FileTree

variable {t t' : FileTree} {w : Writing} {here dir place : Place} {root : Bytes}

/-! ## The path of the configuration file -/

/-- The name of the configuration file, as it stands in its directory. -/
def entryName : Bytes := Utf8.ofString fileName

/-- One slash stands in front of the name, be it that of the root. -/
theorem exists_path (given : root ≠ []) :
    ∃ above, path root = above ++ Path.slash :: entryName ∧
      (root = above ∨ root = above ++ [Path.slash]) := by
  have relative : ¬ Path.isAbsolute (Utf8.ofString fileName) = true := by decide
  unfold path Path.join
  rw [if_neg relative]
  split
  · next ends =>
    have slash : root.getLast? = some Path.slash := ends.resolve_left given
    obtain ⟨above, rfl⟩ := List.getLast?_eq_some_iff.mp slash
    exact ⟨above, List.append_assoc _ _ _, .inr rfl⟩
  · exact ⟨root, rfl, .inl rfl⟩

/-- What stands behind the root. -/
theorem exists_behind (given : root ≠ []) :
    ∃ behind, path root = root ++ behind ∧ (0 : UInt8) ∉ behind ∧
      entryName.length ≤ behind.length := by
  have noNul : (0 : UInt8) ∉ Path.slash :: entryName := by decide
  obtain ⟨above, same, rfl | rfl⟩ := exists_path given
  · exact ⟨_, same, noNul, Nat.le_succ _⟩
  · refine ⟨entryName, ?_, fun nul => noNul (List.mem_cons_of_mem _ nul), Nat.le_refl _⟩
    rw [same, List.append_assoc]
    rfl

theorem parts_path (given : root ≠ []) : parts (path root) = parts root ++ [entryName] := by
  have single : parts entryName = [entryName] := by decide
  obtain ⟨above, same, rfl | rfl⟩ := exists_path given
  · rw [same, parts_slash, single]
  · have nothing : parts (above ++ [Path.slash]) = parts above := by
      rw [parts_slash]
      exact List.append_nil _
    rw [same, parts_slash, single, nothing]

theorem getLast?_path_ne (given : root ≠ []) : (path root).getLast? ≠ some Path.slash := by
  obtain ⟨above, same, -⟩ := exists_path given
  have lastByte : (Path.slash :: entryName).getLast? = some 0x6C := by decide
  rw [same, List.getLast?_append, lastByte]
  intro ends
  exact absurd (Option.some.inj ends) (by decide)

theorem start_path (given : root ≠ []) : start here (path root) = start here root := by
  have same : Path.isAbsolute (path root) = Path.isAbsolute root := by
    unfold Path.isAbsolute
    obtain ⟨above, same, rfl | rfl⟩ := exists_path given
    · rw [same]
      cases root with
      | nil => exact absurd rfl given
      | cons b above => rfl
    · rw [same]
      cases above with
      | nil => rfl
      | cons b above => rfl
  unfold start
  rw [same]

theorem checkPath_path_iff (given : root ≠ []) (short : (path root).length < maxPath) :
    checkPath (path root) = .ok () ↔ checkPath root = .ok () := by
  obtain ⟨behind, same, noNul, -⟩ := exists_behind given
  rw [checkPath_eq_ok_iff, checkPath_eq_ok_iff]
  rw [same] at short ⊢
  rw [List.length_append] at short
  constructor
  · rintro ⟨clean, -, -⟩
    refine ⟨fun nul => clean (List.mem_append_left _ nul), given, ?_⟩
    omega
  · rintro ⟨clean, -, -⟩
    refine ⟨?_, fun empty => given (List.append_eq_nil_iff.mp empty).1, ?_⟩
    · intro nul
      rcases List.mem_append.mp nul with nul | nul
      · exact clean nul
      · exact noNul nul
    · rw [List.length_append]
      exact short

theorem isEntryName_entryName : IsEntryName entryName := by
  refine ⟨by decide, by decide, by decide⟩

/-- The path of the configuration file designates that name in the directory that the root leads
to. -/
theorem designates_path_iff {name : Bytes} (given : root ≠ [])
    (short : (path root).length < maxPath) :
    Designates t here (path root) dir name ↔
      name = entryName ∧ Resolves t here root dir ∧ t.get? dir = some .directory := by
  constructor
  · rintro ⟨checked, -, -, directory, front, same, n, few, leads⟩
    rw [parts_path given] at same
    obtain ⟨rfl, ⟨⟩⟩ := List.append_inj' same rfl
    rw [start_path given] at leads
    refine ⟨rfl, ⟨(checkPath_path_iff given short).mp checked, n, few, ?_⟩, directory⟩
    exact (leads_names_iff directory).mpr leads
  · rintro ⟨rfl, ⟨checked, n, few, leads⟩, directory⟩
    have further := (leads_names_iff directory).mp leads
    rw [← start_path given] at further
    exact ⟨(checkPath_path_iff given short).mpr checked, getLast?_path_ne given,
      isEntryName_entryName, directory, parts root, parts_path given, n, few, further⟩

/-! ## A directory without the file -/

/-- The root leads to the directory `dir`, in which nothing has the name of the configuration file,
not even a link. -/
structure Vacant (t : FileTree) (here : Place) (root : Bytes) (dir : Place) : Prop where
  resolves : Resolves t here root dir
  directory : t.get? dir = some .directory
  free : t.get? (dir ++ [entryName]) = none

theorem vacant_iff (given : root ≠ []) (short : (path root).length < maxPath) :
    Vacant t here root dir ↔
      Designates t here (path root) dir entryName ∧ t.get? (dir ++ [entryName]) = none := by
  rw [designates_path_iff given short]
  constructor
  · rintro ⟨resolves, directory, free⟩
    exact ⟨⟨rfl, resolves, directory⟩, free⟩
  · rintro ⟨⟨-, resolves, directory⟩, free⟩
    exact ⟨resolves, directory, free⟩

/-- A root leads to one directory only. -/
theorem Vacant.unique {other : Place} (h₁ : Vacant t here root dir)
    (h₂ : Vacant t here root other) : dir = other :=
  h₁.resolves.unique h₂.resolves

/-- Names lead over the name of the file only if something has that name. -/
theorem Vacant.not_resolves (vacant : Vacant t here root dir) (given : root ≠ [])
    (short : (path root).length < maxPath) : ¬ Resolves t here (path root) place := by
  obtain ⟨designates, free⟩ := (vacant_iff given short).mp vacant
  exact designates.not_resolves free

theorem newPlace_path_eq_ok_iff (given : root ≠ []) (short : (path root).length < maxPath) :
    t.newPlace here (path root) = .ok place ↔
      ∃ dir, Vacant t here root dir ∧ place = dir ++ [entryName] := by
  rw [newPlace_eq_ok_iff]
  constructor
  · rintro ⟨dir, name, designates, free, rfl⟩
    obtain rfl := ((designates_path_iff given short).mp designates).1
    exact ⟨dir, (vacant_iff given short).mpr ⟨designates, free⟩, rfl⟩
  · rintro ⟨dir, vacant, rfl⟩
    obtain ⟨designates, free⟩ := (vacant_iff given short).mp vacant
    exact ⟨dir, entryName, designates, free, rfl⟩

/-! ## Configuring -/

theorem configure_of_resolves (w : Writing) (resolves : Resolves t here (path root) place) :
    configure t w here root = (.ok (.alreadyExists (path root)), t) :=
  if_pos (pathExists_iff.mpr ⟨place, resolves⟩)

/-- What is created in a directory without the file. -/
theorem configure_of_vacant (given : root ≠ []) (short : (path root).length < maxPath)
    (whole : (w.perform (Utf8.ofString template)).2 = none) (vacant : Vacant t here root dir) :
    ∃ t', configure t w here root = (.ok (.created (path root)), t') ∧
      Adds t t' (dir ++ [entryName]) (.file (Utf8.ofString template) false) := by
  obtain ⟨designates, free⟩ := (vacant_iff given short).mp vacant
  obtain ⟨t', written, adds⟩ :=
    writeNew_of_designates whole designates free "create build configuration"
  refine ⟨t', ?_, adds⟩
  unfold configure
  dsimp only
  rw [if_neg (not_pathExists fun _ => designates.not_resolves free), written]

theorem configure_of_neither (w : Writing) (given : root ≠ [])
    (short : (path root).length < maxPath)
    (absent : ∀ place, ¬ Resolves t here (path root) place)
    (occupied : ∀ dir, ¬ Vacant t here root dir) :
    ∃ f, configure t w here root = (.error f, t) ∧ f.code = .io := by
  cases opened : t.newPlace here (path root) with
  | ok place =>
    obtain ⟨dir, vacant, -⟩ := (newPlace_path_eq_ok_iff given short).mp opened
    exact absurd vacant (occupied dir)
  | error e =>
    refine ⟨.ofSystem e.message (some "create build configuration"), ?_, rfl⟩
    unfold configure
    dsimp only
    rw [if_neg (not_pathExists absent), writeNew_of_error opened]

/-- The file is found where it has been created. -/
theorem resolves_of_adds {content : Bytes} (given : root ≠ [])
    (short : (path root).length < maxPath) (vacant : Vacant t here root dir)
    (adds : Adds t t' (dir ++ [entryName]) (.file content false)) :
    Resolves t' here (path root) (dir ++ [entryName]) := by
  obtain ⟨designates, -⟩ := (vacant_iff given short).mp vacant
  exact (designates.mono fun stands => adds.kept stands).resolves adds.added

/-- **Configuring.**  A file is found exactly when the path of the configuration file leads
somewhere, over links as well, and in a tree there is something at that place.  One is created
exactly when the root leads to a directory in which nothing has its name; it holds the template, and
the tree has nothing else that is new.  In all other cases there is a failure of input or output.
Without a new file the tree is what it was, and once configuring has not failed, it finds a file
from then on. -/
theorem configure_creates_once (given : root ≠ []) (short : (path root).length < maxPath)
    (whole : (w.perform (Utf8.ofString template)).2 = none) :
    ((configure t w here root).1 = .ok (.alreadyExists (path root)) ↔
      ∃ place, Resolves t here (path root) place) ∧
    (IsTree t → t.get? here = some .directory →
      ∀ place, Resolves t here (path root) place → ∃ e, t.get? place = some e) ∧
    ((configure t w here root).1 = .ok (.created (path root)) ↔
      ∃ dir, Vacant t here root dir) ∧
    (∀ dir, Vacant t here root dir →
      Adds t (configure t w here root).2 (dir ++ [entryName])
        (.file (Utf8.ofString template) false)) ∧
    ((∀ place, ¬ Resolves t here (path root) place) → (∀ dir, ¬ Vacant t here root dir) →
      ∃ f, (configure t w here root).1 = .error f ∧ f.code = .io) ∧
    ((configure t w here root).1 ≠ .ok (.created (path root)) →
      (configure t w here root).2 = t) ∧
    ∀ done, (configure t w here root).1 = .ok done →
      ∀ w', configure (configure t w here root).2 w' here root =
        (.ok (.alreadyExists (path root)), (configure t w here root).2) := by
  have entry (tree : IsTree t) (directory : t.get? here = some .directory) (place : Place)
      (resolves : Resolves t here (path root) place) : ∃ e, t.get? place = some e :=
    resolves.exists_entry tree directory
  -- The three cases exclude each other, so each of them settles every part.
  by_cases found : ∃ place, Resolves t here (path root) place
  · obtain ⟨place, resolves⟩ := found
    have none : ∀ dir, ¬ Vacant t here root dir :=
      fun dir vacant => vacant.not_resolves given short resolves
    rw [configure_of_resolves w resolves]
    refine ⟨?_, entry, ?_, ?_, ?_, ?_, ?_⟩
    · exact iff_of_true rfl ⟨place, resolves⟩
    · exact iff_of_false nofun (not_exists.mpr none)
    · exact fun dir vacant => absurd vacant (none dir)
    · exact fun absent => absurd resolves (absent place)
    · exact fun _ => rfl
    · exact fun _ _ w' => configure_of_resolves w' resolves
  have absent : ∀ place, ¬ Resolves t here (path root) place := not_exists.mp found
  by_cases empty : ∃ dir, Vacant t here root dir
  · obtain ⟨dir, vacant⟩ := empty
    obtain ⟨t', created, adds⟩ := configure_of_vacant given short whole vacant
    rw [created]
    refine ⟨?_, entry, ?_, ?_, ?_, ?_, ?_⟩
    · exact iff_of_false nofun found
    · exact iff_of_true rfl ⟨dir, vacant⟩
    · intro dir' vacant'
      obtain rfl := vacant.unique vacant'
      exact adds
    · exact fun _ occupied => absurd vacant (occupied dir)
    · exact fun other => absurd rfl other
    · exact fun _ _ w' => configure_of_resolves w' (resolves_of_adds given short vacant adds)
  · have occupied : ∀ dir, ¬ Vacant t here root dir := not_exists.mp empty
    obtain ⟨f, failed, io⟩ := configure_of_neither w given short absent occupied
    rw [failed]
    refine ⟨?_, entry, ?_, ?_, ?_, ?_, ?_⟩
    · exact iff_of_false nofun found
    · exact iff_of_false nofun empty
    · exact fun dir vacant => absurd vacant (occupied dir)
    · exact fun _ _ => ⟨f, rfl, io⟩
    · exact fun _ => rfl
    · exact fun done ok => by cases ok

/-- A directory `d` and a link `l` to it. -/
def linked : FileTree :=
  ⟨[([Utf8.ofString "d"], .directory), ([Utf8.ofString "l"], .link (Utf8.ofString "d"))]⟩

/-- The file of a root that is a link is created in the directory behind the link. -/
theorem configure_linked :
    Utf8.ofString "/l" ≠ [] ∧ (path (Utf8.ofString "/l")).length < maxPath ∧
      (Writing.complete.perform (Utf8.ofString template)).2 = none ∧
      Vacant linked [] (Utf8.ofString "/l") [Utf8.ofString "d"] ∧
      (configure linked .complete [] (Utf8.ofString "/l")).1 =
        .ok (.created (path (Utf8.ofString "/l"))) ∧
      Adds linked (configure linked .complete [] (Utf8.ofString "/l")).2
        [Utf8.ofString "d", entryName] (.file (Utf8.ofString template) false) := by
  have given : Utf8.ofString "/l" ≠ [] := by decide
  have short : (path (Utf8.ofString "/l")).length < maxPath := by decide
  have whole : (Writing.complete.perform (Utf8.ofString template)).2 = none := rfl
  obtain ⟨-, -, created, adds, -⟩ :=
    @configure_creates_once linked .complete [] (Utf8.ofString "/l") given short whole
  have vacant : Vacant linked [] (Utf8.ofString "/l") [Utf8.ofString "d"] :=
    ⟨resolve_eq_ok_iff.mp rfl, rfl, rfl⟩
  exact ⟨given, short, whole, vacant, created.mpr ⟨_, vacant⟩, adds _ vacant⟩

end Configuration

end BuildLauncher
