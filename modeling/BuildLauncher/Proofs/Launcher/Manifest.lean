import BuildLauncher.Proofs.CommandLine.Build
import BuildLauncher.Proofs.Launcher.ExitStatus

/-!
# The manifest of a build

The path of a manifest comes from the command line byte for byte.  The words of a command are texts,
though, so the command of the bootstrap step gets the path as it reads as a text: whatever is no
UTF-8 in it has become U+FFFD.

* `Utf8.encode_lossyChars_eq_iff`: the bytes that reading and writing leaves as they are.
* `Launcher.commands_of_manifest`: what the command of a build with a manifest gets.
* `Launcher.manifest_of_build`: which paths reach the command, and which are mixed up.
-/

namespace BuildLauncher

/-- Reading bytes as text and writing them again changes nothing exactly when they spell a text. -/
theorem Utf8.encode_lossyChars_eq_iff {bs : Bytes} :
    encode (lossyChars bs) = bs ↔ ∃ cs, bs = encode cs := by
  constructor
  · intro same
    exact ⟨_, same.symm⟩
  · rintro ⟨cs, rfl⟩
    rw [lossyChars_encode]

namespace Launcher

open Act
open CommandLine (BuildWords buildNames)

/-- The words of the commands that a run launches, as they are passed on. -/
def commands (host : Host) (args : List Bytes) (tree : FileTree) : List (List Bytes) :=
  (Event.steps (session host args tree).events).map fun child => child.1.argv.map Utf8.ofString

/-- What becomes of a path that is passed on as a word of a command. -/
def passedOn (path : Bytes) : Bytes := Utf8.ofString (Utf8.lossy path)

theorem passedOn_eq_encode (path : Bytes) :
    passedOn path = Utf8.encode (Utf8.lossyChars path) := by
  simp [passedOn, Utf8.ofString, Utf8.lossy]

/-- A path reaches the command exactly when it spells a text. -/
theorem passedOn_eq_iff {path : Bytes} :
    passedOn path = path ↔ ∃ s, path = Utf8.ofString s := by
  rw [passedOn_eq_encode, Utf8.encode_lossyChars_eq_iff]
  constructor
  · rintro ⟨cs, rfl⟩
    refine ⟨String.ofList cs, ?_⟩
    simp [Utf8.ofString]
  · rintro ⟨s, rfl⟩
    exact ⟨s.toList, rfl⟩

/-- Two paths are one for the command exactly when they read alike. -/
theorem passedOn_eq_passedOn_iff {path other : Bytes} :
    passedOn path = passedOn other ↔ Utf8.lossyChars path = Utf8.lossyChars other := by
  rw [passedOn_eq_encode, passedOn_eq_encode]
  exact Utf8.encode_injective.eq_iff

/-- A path that spells no text gets U+FFFD somewhere. -/
theorem replacement_mem_lossyChars {path : Bytes} (broken : ¬ ∃ s, path = Utf8.ofString s) :
    Utf8.replacement ∈ Utf8.lossyChars path := by
  by_contra whole
  apply broken
  rw [← passedOn_eq_iff, passedOn_eq_encode]
  exact (Utf8.eq_encode_of_lossyChars whole).symm

/-- A step that a command line asks for has one command, unless there is no working directory to
run it from. -/
theorem commands_of_step {host : Host} {root : Bytes} {args : List Bytes} {i : Invocation}
    {step : Step} (cwd : host.workingDirectory = .ok root) (tree : FileTree)
    (asked : CommandLine.read args = .ok (some i)) (stands : i.step? = some step) :
    commands host args tree = [step.argv.map Utf8.ofString] := by
  obtain ⟨r, events, t', course, ran⟩ := course_of_step host step tree
  have launched := session_of_does (does_main_of_step asked stands ran)
  rcases course.steps with ⟨e, unreadable, -, -⟩ | ⟨root', id, t₂, last, -, -, steps⟩
  · rw [cwd] at unreadable
    cases unreadable
  · rw [commands, launched, Event.steps, children_around, ← Event.steps, steps]
    rfl

/-- The words of the command of a build with a manifest. -/
theorem commands_of_manifest {host : Host} {root verb path : Bytes} {words : List Bytes}
    (cwd : host.workingDirectory = .ok root) (named : verb ∈ buildNames)
    (accepted : BuildWords words (some path)) (program : Bytes) (tree : FileTree) :
    commands host (program :: verb :: words) tree =
      [[Utf8.ofString "cargo", Utf8.ofString "build", Utf8.ofString "--manifest-path",
        passedOn path]] := by
  have asked : CommandLine.read (program :: verb :: words) = .ok (some (.build (some path))) := by
    rw [CommandLine.read_of_mem_buildNames program named]
    exact CommandLine.readVerb_build_eq_ok_iff.mpr ⟨_, rfl, accepted⟩
  rw [commands_of_step cwd tree asked rfl]
  rfl

/-- **The manifest that the command of a build gets.**  A build with a manifest, by either name of
the verb and in whichever of the accepted forms, launches one command, and its last word is the path
as it reads as a text.  These are the bytes of the path exactly when the path is UTF-8; any other
path reaches the command with U+FFFD in it.  Two builds therefore have the same command exactly when
their paths read alike, and if both paths are UTF-8, exactly when they are the same. -/
theorem manifest_of_build {host : Host} {root verb path : Bytes} {words : List Bytes}
    (cwd : host.workingDirectory = .ok root) (named : verb ∈ buildNames)
    (accepted : BuildWords words (some path)) (program : Bytes) (tree : FileTree) :
    commands host (program :: verb :: words) tree =
      [[Utf8.ofString "cargo", Utf8.ofString "build", Utf8.ofString "--manifest-path",
        passedOn path]] ∧
    (passedOn path = path ↔ ∃ s, path = Utf8.ofString s) ∧
    ((¬ ∃ s, path = Utf8.ofString s) →
      ∃ s, passedOn path = Utf8.ofString s ∧ Utf8.replacement ∈ s.toList) ∧
    ∀ (words' : List Bytes) (path' : Bytes), BuildWords words' (some path') →
      (commands host (program :: verb :: words) tree =
          commands host (program :: verb :: words') tree ↔
        Utf8.lossy path = Utf8.lossy path') ∧
      ((∃ s, path = Utf8.ofString s) → (∃ s, path' = Utf8.ofString s) →
        (commands host (program :: verb :: words) tree =
            commands host (program :: verb :: words') tree ↔ path = path')) := by
  have launched {words : List Bytes} {path : Bytes} (accepted : BuildWords words (some path)) :=
    commands_of_manifest cwd named accepted program tree
  have alike (path' : Bytes) {words' : List Bytes} (accepted' : BuildWords words' (some path')) :
      commands host (program :: verb :: words) tree =
          commands host (program :: verb :: words') tree ↔ passedOn path = passedOn path' := by
    rw [launched accepted, launched accepted']
    simp
  refine ⟨launched accepted, passedOn_eq_iff, fun broken => ?_, fun words' path' accepted' =>
    ⟨?_, fun text text' => ?_⟩⟩
  · refine ⟨Utf8.lossy path, rfl, ?_⟩
    simpa [Utf8.lossy] using replacement_mem_lossyChars broken
  · rw [alike path' accepted', passedOn_eq_passedOn_iff]
    simp [Utf8.lossy, String.ofList_inj]
  · rw [alike path' accepted', passedOn_eq_iff.mpr text, passedOn_eq_iff.mpr text']

/-- A host whose children all succeed and print nothing. -/
def idle : Host where
  environment := .empty
  workingDirectory := .ok [Path.slash]
  children := fun t _ => ({ ending := .exited 0 }, t)

/-- Two manifests in UTF-8, in both forms. -/
theorem manifest_of_build_apart :
    commands idle [Utf8.ofString "x", Utf8.ofString "build", Utf8.ofString "--manifest-path",
        Utf8.ofString "tools/Cargo.toml"] {} =
      [[Utf8.ofString "cargo", Utf8.ofString "build", Utf8.ofString "--manifest-path",
        Utf8.ofString "tools/Cargo.toml"]] ∧
    commands idle [Utf8.ofString "x", Utf8.ofString "build", Utf8.ofString "--manifest-path",
        Utf8.ofString "tools/Cargo.toml"] {} ≠
      commands idle [Utf8.ofString "x", Utf8.ofString "build",
        Utf8.ofString "--manifest-path=" ++ Utf8.ofString "Cargo.toml"] {} := by
  have named : Utf8.ofString "build" ∈ buildNames := List.mem_cons_self
  have first : BuildWords [Utf8.ofString "--manifest-path", Utf8.ofString "tools/Cargo.toml"]
      (some (Utf8.ofString "tools/Cargo.toml")) :=
    ⟨_, [], .apart (by decide) (.inr (by decide)), .inl rfl, rfl⟩
  have second : BuildWords [Utf8.ofString "--manifest-path=" ++ Utf8.ofString "Cargo.toml"]
      (some (Utf8.ofString "Cargo.toml")) :=
    ⟨_, [], .joined (by decide), .inl rfl, rfl⟩
  have cwd : idle.workingDirectory = .ok [Path.slash] := rfl
  obtain ⟨launched, passed, -, others⟩ := manifest_of_build cwd named first (Utf8.ofString "x") {}
  obtain ⟨-, apart⟩ := others _ _ second
  constructor
  · rw [launched, passed.mpr ⟨_, rfl⟩]
  · intro same
    have equal := (apart ⟨_, rfl⟩ ⟨_, rfl⟩).mp same
    exact absurd equal (by decide)

/-- Two paths of one byte each, without a NUL and neither of them UTF-8: the command gets neither,
and is the same for both. -/
theorem commands_of_broken_paths :
    ([0xFF] : Bytes) ≠ [0xFE] ∧
    BuildWords [Utf8.ofString "--manifest-path", [0xFF]] (some [0xFF]) ∧
    BuildWords [Utf8.ofString "--manifest-path", [0xFE]] (some [0xFE]) ∧
    commands idle [Utf8.ofString "x", Utf8.ofString "build", Utf8.ofString "--manifest-path",
        [0xFF]] {} =
      [[Utf8.ofString "cargo", Utf8.ofString "build", Utf8.ofString "--manifest-path",
        [0xEF, 0xBF, 0xBD]]] ∧
    commands idle [Utf8.ofString "x", Utf8.ofString "build", Utf8.ofString "--manifest-path",
        [0xFE]] {} =
      [[Utf8.ofString "cargo", Utf8.ofString "build", Utf8.ofString "--manifest-path",
        [0xEF, 0xBF, 0xBD]]] := by
  have named : Utf8.ofString "build" ∈ buildNames := List.mem_cons_self
  have accepted (b : UInt8) (plain : ([b] : Bytes).head? ≠ some CommandLine.hyphen) :
      BuildWords [Utf8.ofString "--manifest-path", [b]] (some [b]) :=
    ⟨_, [], .apart (List.cons_ne_nil _ _) (.inr plain), .inl rfl, rfl⟩
  have cwd : idle.workingDirectory = .ok [Path.slash] := rfl
  have first := accepted 0xFF (by decide)
  have second := accepted 0xFE (by decide)
  refine ⟨by decide, first, second, ?_, ?_⟩
  · exact commands_of_manifest cwd named first _ {}
  · exact commands_of_manifest cwd named second _ {}

end Launcher

end BuildLauncher
