import BuildLauncher.Launcher
import BuildLauncher.Proofs.CommandLine.Options

/-!
# The words of a build

The words behind the verb of a build are accepted in six forms, and in no other: no option or one
manifest, in one word or in two, each perhaps with the mark behind it that ends the options.

* `CommandLine.readOptions_eq_ok_iff`: these forms are what the reader of the options accepts.
* `CommandLine.read_build`: the whole command line, by either name of the verb.
-/

namespace BuildLauncher.CommandLine

/-- The mark that ends the options. -/
def separatorWord : Bytes := Utf8.ofString "--"

/-- The option of a build, and the manifest that it names.  The path has a word of its own, unless
that would be an option, or stands behind an equals sign. -/
inductive OptionWords : List Bytes → Option Bytes → Prop
  | none : OptionWords [] none
  | apart {path : Bytes} :
    path ≠ [] → (path = [hyphen] ∨ path.head? ≠ some hyphen) →
    OptionWords [Utf8.ofString "--manifest-path", path] (some path)
  | joined {path : Bytes} :
    path ≠ [] → OptionWords [Utf8.ofString "--manifest-path=" ++ path] (some path)

/-- Nothing more follows, or only the mark that ends the options. -/
def EndWords (words : List Bytes) : Prop := words = [] ∨ words = [separatorWord]

/-- The words behind the verb of a build, and the manifest that they name. -/
def BuildWords (words : List Bytes) (manifest : Option Bytes) : Prop :=
  ∃ options ending, OptionWords options manifest ∧ EndWords ending ∧ words = options ++ ending

section Options

variable {page : Page} {p q : Progress} {words : List Bytes} {path : Bytes} {r : Option Bytes}

/-! ## Only these words are accepted -/

/-- An option that is given again is not settled. -/
theorem Progress.settle_ne_of_again (given : p.isGiven = true) (again : p.pending ≠ none) :
    p.settle ≠ (none, q) := by
  intro settled
  rcases Progress.settle_eq_none settled with ⟨nothing, -⟩ | ⟨_, -, -, notGiven, -⟩
  · exact again nothing
  · rw [given] at notGiven
    cases notGiven

/-- An option that waits for its value is not settled. -/
theorem Progress.settle_ne_of_waiting (waiting : p.pending = some none) :
    p.settle ≠ (none, q) := by
  intro settled
  rcases Progress.settle_eq_none settled with ⟨nothing, -⟩ | ⟨_, -, there, -, -⟩
  · rw [waiting] at nothing
    cases nothing
  · rw [waiting] at there
    cases there

/-- A manifest that is named again is refused, whatever follows. -/
theorem readOptions_ne_ok_of_again (given : p.isGiven = true) (again : p.pending ≠ none) :
    readOptions page p words ≠ .ok r := by
  intro read
  induction words generalizing p with
  | nil =>
    obtain ⟨q, settled, -⟩ := settled_eq_ok read
    exact Progress.settle_ne_of_again given again settled
  | cons word rest ih =>
    rcases readOptions_cons_eq_ok read with ⟨-, -, q, settled, -⟩ | ⟨-, q, settled, -⟩ |
      ⟨_, q, _, -, settled, -, -⟩ | ⟨-, -, read⟩
    · exact Progress.settle_ne_of_again given again settled
    · exact Progress.settle_ne_of_again given again settled
    · exact Progress.settle_ne_of_again given again settled
    · exact ih (p := { p with pending := some (some word) }) given (Option.some_ne_none _) read

/-- Behind an accepted manifest only the end is accepted. -/
theorem endWords_of_given (given : p.isGiven = true) (settled : p.pending = none)
    (read : readOptions page p words = .ok r) : EndWords words ∧ r = p.path := by
  have same {q : Progress} (done : p.settle = (none, q)) : q = p := by
    rcases Progress.settle_eq_none done with ⟨-, same⟩ | ⟨_, -, -, notGiven, -⟩
    · exact same
    · rw [given] at notGiven
      cases notGiven
  cases words with
  | nil =>
    obtain ⟨q, done, found⟩ := settled_eq_ok read
    rw [same done] at found
    exact ⟨.inl rfl, (Except.ok.inj found).symm⟩
  | cons word rest =>
    rcases readOptions_cons_eq_ok read with ⟨rfl, rfl, q, done, rfl⟩ | ⟨-, q, done, read⟩ |
      ⟨_, q, _, -, done, done', -⟩ | ⟨-, waiting, -⟩
    · rw [same done]
      exact ⟨.inr rfl, rfl⟩
    · rw [same done] at read
      exact absurd read (readOptions_ne_ok_of_again given (Option.some_ne_none _))
    · rw [same done] at done'
      exact absurd done' (Progress.settle_ne_of_again given (Option.some_ne_none _))
    · rw [settled] at waiting
      cases waiting

/-- Behind the word of a value that is not settled yet only the end is accepted. -/
theorem endWords_of_value (read : readOptions page { pending := some (some path) } words = .ok r) :
    path ≠ [] ∧ EndWords words ∧ r = some path := by
  have same {q : Progress} (done : Progress.settle { pending := some (some path) } = (none, q)) :
      path ≠ [] ∧ q = { path := some path, isGiven := true } := by
    rcases Progress.settle_eq_none done with ⟨nothing, -⟩ | ⟨_, filled, there, -, same⟩
    · cases nothing
    · cases there
      exact ⟨filled, same⟩
  cases words with
  | nil =>
    obtain ⟨q, done, found⟩ := settled_eq_ok read
    obtain ⟨filled, rfl⟩ := same done
    exact ⟨filled, .inl rfl, (Except.ok.inj found).symm⟩
  | cons word rest =>
    rcases readOptions_cons_eq_ok read with ⟨rfl, rfl, q, done, rfl⟩ | ⟨-, q, done, read⟩ |
      ⟨_, q, _, -, done, done', -⟩ | ⟨-, waiting, -⟩
    · obtain ⟨filled, rfl⟩ := same done
      exact ⟨filled, .inr rfl, rfl⟩
    · obtain ⟨-, rfl⟩ := same done
      exact absurd read (readOptions_ne_ok_of_again rfl (Option.some_ne_none _))
    · obtain ⟨-, rfl⟩ := same done
      exact absurd done' (Progress.settle_ne_of_again rfl (Option.some_ne_none _))
    · cases waiting

/-- An option that waits for its value takes the next word, which is no option itself. -/
theorem exists_value_of_waiting (read : readOptions page { pending := some none } words = .ok r) :
    ∃ path ending, words = path :: ending ∧ (path = [hyphen] ∨ path.head? ≠ some hyphen) ∧
      path ≠ [] ∧ EndWords ending ∧ r = some path := by
  cases words with
  | nil =>
    obtain ⟨q, done, -⟩ := settled_eq_ok read
    exact absurd done (Progress.settle_ne_of_waiting rfl)
  | cons word rest =>
    rcases readOptions_cons_eq_ok read with ⟨-, -, q, done, -⟩ | ⟨-, q, done, -⟩ |
      ⟨_, q, _, -, done, -, -⟩ | ⟨plain, -, read⟩
    · exact absurd done (Progress.settle_ne_of_waiting rfl)
    · exact absurd done (Progress.settle_ne_of_waiting rfl)
    · exact absurd done (Progress.settle_ne_of_waiting rfl)
    · exact ⟨word, rest, rfl, plain, endWords_of_value read⟩

theorem buildWords_of_readOptions (read : readOptions page {} words = .ok r) :
    BuildWords words r := by
  have same {q : Progress} (done : Progress.settle {} = (none, q)) : q = {} :=
    (Prod.mk.inj done).2.symm
  cases words with
  | nil =>
    obtain ⟨q, done, found⟩ := settled_eq_ok read
    obtain rfl := same done
    cases found
    exact ⟨_, [], .none, .inl rfl, rfl⟩
  | cons word rest =>
    rcases readOptions_cons_eq_ok read with ⟨rfl, rfl, q, done, rfl⟩ | ⟨rfl, q, done, read⟩ |
      ⟨path, q, q', rfl, done, done', read⟩ | ⟨-, waiting, -⟩
    · obtain rfl := same done
      exact ⟨_, [separatorWord], .none, .inr rfl, rfl⟩
    · obtain rfl := same done
      obtain ⟨path, ending, rfl, plain, filled, ends, rfl⟩ := exists_value_of_waiting read
      exact ⟨_, ending, .apart filled plain, ends, rfl⟩
    · obtain rfl := same done
      rcases Progress.settle_eq_none done' with ⟨nothing, -⟩ | ⟨_, filled, there, -, rfl⟩
      · cases nothing
      · cases there
        obtain ⟨ends, rfl⟩ := endWords_of_given rfl rfl read
        exact ⟨_, rest, .joined filled, ends, rfl⟩
    · cases waiting

/-! ## All of these words are accepted -/

theorem readOptions_end (ends : EndWords words) (done : p.settle = (none, q)) :
    readOptions page p words = .ok q.path := by
  have settles : settled page p (fun p => .ok p.path) = .ok q.path := by
    unfold settled
    rw [done]
  rcases ends with rfl | rfl
  · exact settles
  · exact settles

theorem ofBytes_manifestWord (path : Option Bytes) :
    Word.ofBytes (manifestWord path) = .long (Utf8.ofString Flag.manifestPath.long) path := by
  cases path <;> rfl

theorem ofLong_manifestPath (path : Option Bytes) :
    Request.ofLong (.verb .build) (Utf8.ofString Flag.manifestPath.long) path = .manifest path := by
  cases path <;> rfl

theorem readOptions_manifestWord (path : Bytes) (rest : List Bytes) :
    readOptions (.verb .build) {} (manifestWord (some path) :: rest) =
      settled (.verb .build) { pending := some (some path) }
        fun p => readOptions (.verb .build) p rest := by
  rw [readOptions.eq_def]
  dsimp only
  rw [ofBytes_manifestWord]
  dsimp only
  rw [ofLong_manifestPath]
  rfl

theorem readOptions_manifestWord_apart (rest : List Bytes) :
    readOptions (.verb .build) {} (manifestWord none :: rest) =
      readOptions (.verb .build) { pending := some none } rest := by
  rw [readOptions.eq_def]
  dsimp only
  rw [ofBytes_manifestWord]
  dsimp only
  rw [ofLong_manifestPath]
  rfl

theorem readOptions_value (plain : Word.ofBytes path = .plain) (rest : List Bytes) :
    readOptions page { pending := some none } (path :: rest) =
      readOptions page { pending := some (some path) } rest := by
  rw [readOptions.eq_def]
  dsimp only
  rw [plain]
  rfl

theorem settle_value (filled : path ≠ []) :
    Progress.settle { pending := some (some path) } =
      (none, { path := some path, isGiven := true }) := by
  unfold Progress.settle
  dsimp only
  rw [if_neg filled]
  rfl

theorem readOptions_of_buildWords (accepted : BuildWords words r) :
    readOptions (.verb .build) {} words = .ok r := by
  obtain ⟨options, ending, named, ends, rfl⟩ := accepted
  cases named with
  | none => exact readOptions_end (p := {}) ends rfl
  | @apart path filled plain =>
    have value := Word.ofBytes_eq_plain_iff.mpr plain
    change readOptions _ {} (manifestWord none :: path :: ending) = _
    rw [readOptions_manifestWord_apart, readOptions_value value]
    exact readOptions_end ends (settle_value filled)
  | @joined path filled =>
    change readOptions _ {} (manifestWord (some path) :: ending) = _
    rw [readOptions_manifestWord]
    unfold settled
    rw [settle_value filled]
    exact readOptions_end (p := { path := some path, isGiven := true }) ends rfl

theorem readOptions_eq_ok_iff :
    readOptions (.verb .build) {} words = .ok r ↔ BuildWords words r :=
  ⟨buildWords_of_readOptions, readOptions_of_buildWords⟩

end Options

/-! ## The whole command line -/

/-- The two names of the verb of a build. -/
def buildNames : List Bytes := [Utf8.ofString "build", Utf8.ofString "make"]

theorem read_of_mem_buildNames {verb : Bytes} (program : Bytes) (named : verb ∈ buildNames)
    (words : List Bytes) : read (program :: verb :: words) = readVerb .build words := by
  unfold buildNames at named
  simp only [List.mem_cons, List.not_mem_nil, or_false] at named
  rcases named with rfl | rfl
  · rfl
  · rfl

theorem readVerb_build_eq_ok_iff {words : List Bytes} {found : Option Invocation} :
    readVerb .build words = .ok found ↔
      ∃ manifest, found = some (.build manifest) ∧ BuildWords words manifest := by
  have read (manifest : Option Bytes) :
      readOptions (.verb .build) {} words = .ok manifest ↔ BuildWords words manifest :=
    readOptions_eq_ok_iff
  unfold readVerb
  cases given : readOptions (.verb .build) {} words with
  | error refusal =>
    constructor
    · intro asked
      cases asked
    · rintro ⟨manifest, -, accepted⟩
      rw [(read manifest).mpr accepted] at given
      cases given
  | ok path =>
    constructor
    · intro asked
      cases asked
      exact ⟨path, rfl, (read path).mp given⟩
    · rintro ⟨manifest, rfl, accepted⟩
      rw [(read manifest).mpr accepted] at given
      cases given
      rfl

/-- A build that a command line asks for has a step. -/
theorem exists_step_of_read {args : List Bytes} {manifest : Option Bytes}
    (asked : read args = .ok (some (.build manifest))) :
    ∃ step, Launcher.buildStep manifest = .ok step := by
  rcases manifest with _ | _ | ⟨b, path⟩
  · exact ⟨.release, rfl⟩
  · exact absurd asked (read_ne_build_nil args)
  · exact ⟨.bootstrap (b :: path), rfl⟩

/-- **The words of a build.**  By either name, the verb of a build is accepted with exactly the
words of `BuildWords`, as the build with the manifest that these name, byte for byte; with any other
words the command line is refused.  Both names read all words alike.  And of no command line does a
build come out whose manifest is empty, or which has no step. -/
theorem read_build (program verb : Bytes) (named : verb ∈ buildNames) (words : List Bytes) :
    (∀ found, read (program :: verb :: words) = .ok found ↔
      ∃ manifest, found = some (.build manifest) ∧ BuildWords words manifest) ∧
    ((∀ manifest, ¬ BuildWords words manifest) →
      ∃ refusal, read (program :: verb :: words) = .error refusal) ∧
    (∀ verb' ∈ buildNames, read (program :: verb' :: words) = read (program :: verb :: words)) ∧
    ∀ args manifest, read args = .ok (some (.build manifest)) →
      manifest ≠ some [] ∧ ∃ step, Launcher.buildStep manifest = .ok step := by
  have same := read_of_mem_buildNames program named words
  refine ⟨fun found => ?_, fun other => ?_, fun verb' named' => ?_, fun args manifest asked => ?_⟩
  · rw [same]
    exact readVerb_build_eq_ok_iff
  · rw [same]
    cases read : readVerb .build words with
    | error refusal => exact ⟨refusal, rfl⟩
    | ok found =>
      obtain ⟨manifest, -, accepted⟩ := readVerb_build_eq_ok_iff.mp read
      exact absurd accepted (other manifest)
  · rw [same, read_of_mem_buildNames program named' words]
  · refine ⟨?_, exists_step_of_read asked⟩
    rintro rfl
    exact read_ne_build_nil args asked

/-- A manifest that is not UTF-8, starts with a hyphen and has an equals sign in it. -/
theorem read_build_bytes :
    Utf8.ofString "make" ∈ buildNames ∧
      BuildWords [Utf8.ofString "--manifest-path=" ++ [0x2D, 0xFF, 0x3D], separatorWord]
        (some [0x2D, 0xFF, 0x3D]) ∧
      read [Utf8.ofString "x", Utf8.ofString "make",
        Utf8.ofString "--manifest-path=" ++ [0x2D, 0xFF, 0x3D], separatorWord] =
          .ok (some (.build (some [0x2D, 0xFF, 0x3D]))) := by
  have named : Utf8.ofString "make" ∈ buildNames := List.mem_cons_of_mem _ List.mem_cons_self
  have accepted :
      BuildWords [Utf8.ofString "--manifest-path=" ++ [0x2D, 0xFF, 0x3D], separatorWord]
        (some [0x2D, 0xFF, 0x3D]) :=
    ⟨[_], [separatorWord], .joined (List.cons_ne_nil _ _), .inr rfl, rfl⟩
  have reads := (read_build (Utf8.ofString "x") (Utf8.ofString "make") named
    [Utf8.ofString "--manifest-path=" ++ [0x2D, 0xFF, 0x3D], separatorWord]).1
  exact ⟨named, accepted, (reads _).mpr ⟨_, rfl, accepted⟩⟩

end BuildLauncher.CommandLine
