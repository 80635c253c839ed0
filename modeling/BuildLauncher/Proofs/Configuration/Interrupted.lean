import BuildLauncher.Proofs.Configuration.Creation

/-!
# Creation that is interrupted

A new file is opened first and written to afterwards, and nothing is taken back.  A failure to open
it changes nothing.  A failure to write to it leaves the file with what it has got so far, be it
empty, and from then on configuring finds a file.

* `FileTree.Writing.perform_eq_some_iff`: when writing stops short.
* `FileTree.NotMade`: the two ways in which making a file fails, each with the tree that it leaves.
* `FileTree.notMade_of_writeNew`, `FileTree.writeNew_of_cutOff`: making a file fails in no other
  way, and wherever the writing stops.
* `Configuration.configure_interrupted`: what is left behind when making a file or configuring
  fails.
-/

namespace BuildLauncher

namespace FileTree

variable {t t' : FileTree} {w : Writing} {here place : Place} {path content : Bytes}
  {context : String} {f : Failure}

/-- Writing stops with an error exactly when there are more bytes than it gets to. -/
theorem Writing.perform_eq_some_iff {bytes : Bytes} {e : SystemError} :
    (w.perform bytes).2 = some e ↔ ∃ n < bytes.length, w = .cutOff n e := by
  cases w with
  | complete => simp [perform]
  | cutOff n other =>
    by_cases fits : bytes.length ≤ n
    · simp only [perform, fits, if_true, reduceCtorEq, false_iff]
      rintro ⟨m, more, ⟨⟩⟩
      omega
    · simp only [perform, fits, if_false, Option.some.injEq, Writing.cutOff.injEq]
      constructor
      · intro same
        exact ⟨n, by omega, rfl, same⟩
      · rintro ⟨m, -, -, same⟩
        exact same

theorem Writing.perform_cutOff {bytes : Bytes} {n : Nat} (more : n < bytes.length)
    (e : SystemError) : (cutOff n e).perform bytes = (bytes.take n, some e) := by
  simp [perform, more]

/-- How making a file fails, and the tree that is left.  A file that cannot be opened leaves no
trace; one that cannot be written to the end keeps what it has. -/
inductive NotMade (t : FileTree) (w : Writing) (here : Place) (path content : Bytes)
    (context : String) : Failure → FileTree → Prop
  | refused {e : FileError} : t.newPlace here path = .error e →
    NotMade t w here path content context (.ofSystem e.message (some context)) t
  | cutOff {place : Place} {n : Nat} {e : SystemError} {t' : FileTree} :
    t.newPlace here path = .ok place → w = .cutOff n e → n < content.length →
    Adds t t' place (.file (content.take n) false) →
    NotMade t w here path content context
      (.ofSystem e.message (some (context ++ " (write)"))) t'

theorem notMade_of_writeNew (failed : t.writeNew w here path content context = (.error f, t')) :
    NotMade t w here path content context f t' := by
  cases opened : t.newPlace here path with
  | error e =>
    rw [writeNew_of_error opened] at failed
    cases failed
    exact .refused opened
  | ok place =>
    obtain ⟨t₁, adds, written⟩ := writeNew_of_place opened w content context
    rw [failed] at written
    cases stopped : (w.perform content).2 with
    | none =>
      rw [stopped] at written
      cases written
    | some e =>
      obtain ⟨n, more, rfl⟩ := Writing.perform_eq_some_iff.mp stopped
      rw [Writing.perform_cutOff more] at adds written
      cases written
      exact .cutOff opened rfl more adds

/-- Wherever the writing stops, the file keeps what has been written. -/
theorem writeNew_of_cutOff {n : Nat} (opened : t.newPlace here path = .ok place)
    (more : n < content.length) (e : SystemError) (context : String) :
    ∃ t', Adds t t' place (.file (content.take n) false) ∧
      t.writeNew (.cutOff n e) here path content context =
        (.error (.ofSystem e.message (some (context ++ " (write)"))), t') := by
  have written := writeNew_of_place opened (.cutOff n e) content context
  rw [Writing.perform_cutOff more] at written
  exact written

/-- A tree with a new entry is another one. -/
theorem Adds.ne {e : Entry} (adds : Adds t t' place e) : t' ≠ t := by
  rintro rfl
  have added := adds.added
  rw [adds.free] at added
  cases added

/-- The path leads to the file that has been left behind. -/
theorem resolves_of_newPlace {isProgram : Bool} (opened : t.newPlace here path = .ok place)
    (adds : Adds t t' place (.file content isProgram)) : Resolves t' here path place := by
  obtain ⟨parent, name, designates, -, rfl⟩ := newPlace_eq_ok_iff.mp opened
  exact (designates.mono fun stands => adds.kept stands).resolves adds.added

end FileTree

namespace Configuration

open FileTree

variable {t t' : FileTree} {w : Writing} {here place : Place} {root : Bytes} {f : Failure}

theorem notMade_of_configure (failed : configure t w here root = (.error f, t')) :
    NotMade t w here (path root) (Utf8.ofString template) "create build configuration" f t' := by
  unfold configure at failed
  dsimp only at failed
  split at failed
  · cases failed
  · apply notMade_of_writeNew
    split at failed
    · cases failed
    · next written =>
      cases failed
      exact written

/-- Configuring finds no file where a new one may be made. -/
theorem configure_of_newPlace (opened : t.newPlace here (path root) = .ok place)
    (made : t.writeNew w here (path root) (Utf8.ofString template) "create build configuration" =
      (.error f, t')) :
    configure t w here root = (.error f, t') := by
  obtain ⟨parent, name, designates, free, -⟩ := newPlace_eq_ok_iff.mp opened
  have absent := not_pathExists fun _ => designates.not_resolves free
  unfold configure
  dsimp only
  rw [if_neg absent, made]

/-- **What a failed creation leaves behind.**  Making a new file fails when there is no place for
it, and then the tree is what it was; or when the writing stops short, and then the tree has the new
file with exactly the bytes written so far, and nothing else is new.  The failure says which of the
two it was, and wherever the writing stops, this is what happens.  Configuring fails in the same two
ways, with the template for the content; once its writing has stopped, the file that is left counts
as the configuration file, however little is in it, and no later call touches it. -/
theorem configure_interrupted :
    (∀ t w here path content context f t',
      FileTree.writeNew t w here path content context = (.error f, t') →
        NotMade t w here path content context f t') ∧
    (∀ t here path content context place n e, FileTree.newPlace t here path = .ok place →
      n < content.length →
        ∃ t', t' ≠ t ∧ Adds t t' place (.file (content.take n) false) ∧
          t.writeNew (.cutOff n e) here path content context =
            (.error (.ofSystem e.message (some (context ++ " (write)"))), t')) ∧
    (∀ t w here root f t', configure t w here root = (.error f, t') →
      NotMade t w here (path root) (Utf8.ofString template) "create build configuration" f t' ∧
      (t' ≠ t → ∀ w', configure t' w' here root = (.ok (.alreadyExists (path root)), t'))) ∧
    ∀ t here root place n e, FileTree.newPlace t here (path root) = .ok place →
      n < (Utf8.ofString template).length →
        ∃ t', t' ≠ t ∧ Adds t t' place (.file ((Utf8.ofString template).take n) false) ∧
          configure t (.cutOff n e) here root =
            (.error (.ofSystem e.message (some "create build configuration (write)")), t') := by
  refine ⟨?_, ?_, ?_, ?_⟩
  · intro t w here path content context f t' failed
    exact notMade_of_writeNew failed
  · intro t here path content context place n e opened more
    obtain ⟨t', adds, written⟩ := writeNew_of_cutOff opened more e context
    exact ⟨t', adds.ne, adds, written⟩
  · intro t w here root f t' failed
    have notMade := notMade_of_configure failed
    refine ⟨notMade, fun differs w' => ?_⟩
    cases notMade with
    | refused => exact absurd rfl differs
    | cutOff opened _ _ adds => exact configure_of_resolves w' (resolves_of_newPlace opened adds)
  · intro t here root place n e opened more
    obtain ⟨t', adds, written⟩ := writeNew_of_cutOff opened more e "create build configuration"
    exact ⟨t', adds.ne, adds, configure_of_newPlace opened written⟩

/-- Five bytes of the template count as a configuration file. -/
theorem configure_interrupted_in_root :
    NotMade {} .complete [] [Path.slash] [0x41] "make a file"
        (.ofSystem (SystemError.message .alreadyExists) (some "make a file")) {} ∧
    (∃ t', t' ≠ {} ∧ Adds {} t' [Utf8.ofString "a"] (.file [0x41] false) ∧
      FileTree.writeNew {} (.cutOff 1 .noSpace) [] (Utf8.ofString "/a") [0x41, 0x42]
          "make a file" =
        (.error (.ofSystem (SystemError.message .noSpace) (some "make a file (write)")), t')) ∧
    ∃ t', Adds {} t' [entryName] (.file ((Utf8.ofString template).take 5) false) ∧
      configure {} (.cutOff 5 .noSpace) [] [Path.slash] =
        (.error (.ofSystem (SystemError.message .noSpace)
          (some "create build configuration (write)")), t') ∧
      configure t' .complete [] [Path.slash] = (.ok (.alreadyExists (path [Path.slash])), t') := by
  obtain ⟨fails, written, again, stopped⟩ := configure_interrupted
  refine ⟨fails {} .complete [] [Path.slash] [0x41] "make a file" _ _ rfl, ?_, ?_⟩
  · exact written {} [] (Utf8.ofString "/a") [0x41, 0x42] "make a file" [Utf8.ofString "a"] 1
      .noSpace rfl (by decide)
  · obtain ⟨t', differs, adds, failed⟩ :=
      stopped {} [] [Path.slash] [entryName] 5 .noSpace rfl (by decide)
    exact ⟨t', adds, failed, (again _ _ _ _ _ _ failed).2 differs .complete⟩

/-- A link in place of the configuration file, to a file that could be made. -/
def danglingTree : FileTree where
  entries := [
    ([entryName], .link (Utf8.ofString "conf/real.toml")),
    ([Utf8.ofString "conf"], .directory)]

/-- When not one byte can be written, an empty file stays where there was nothing, and it is found
by the next call, which could write.  A link that leads nowhere stops every call, also once there is
a directory for the file that it names. -/
theorem configure_leaves_empty_file :
    (∃ f, configure {} (.cutOff 0 .noSpace) [] [Path.slash] =
      (.error f, ⟨[([entryName], .file [] false)]⟩)) ∧
    (⟨[([entryName], .file [] false)]⟩ : FileTree) ≠ {} ∧
    configure ⟨[([entryName], .file [] false)]⟩ .complete [] [Path.slash] =
      (.ok (.alreadyExists (path [Path.slash])), ⟨[([entryName], .file [] false)]⟩) ∧
    (∃ t', configure {} .complete [] [Path.slash] = (.ok (.created (path [Path.slash])), t')) ∧
    ∃ f, configure danglingTree .complete [] [Path.slash] = (.error f, danglingTree) :=
  ⟨⟨_, rfl⟩, by decide, rfl, ⟨_, rfl⟩, _, rfl⟩

end Configuration

end BuildLauncher
