import BuildLauncher.CommandLine.Invocation
import BuildLauncher.Proofs.Text.Utf8

/-!
# The options of a verb

The words behind a verb are read one by one, and an option whose value is still to come is settled
before the next one.  Settling accepts a path only when it is not empty, so no command line names an
empty manifest.

* `CommandLine.Word.ofBytes_eq_separator_iff`, `CommandLine.Word.ofBytes_eq_plain_iff`,
  `CommandLine.Word.eq_of_ofBytes_eq_long`: the words of each kind.
* `CommandLine.readOptions_cons_eq_ok`: what a word is and does that does not end the reading.
* `CommandLine.readOptions_ne_nil`, `CommandLine.read_ne_build_nil`: no empty manifest.
-/

namespace BuildLauncher.CommandLine

/-! ## Words -/

namespace Word

variable {word : Bytes}

theorem ofBytes_eq_separator_iff : ofBytes word = .separator ↔ word = [hyphen, hyphen] := by
  constructor
  · intro kind
    unfold ofBytes at kind
    split at kind
    · split at kind
      · next first =>
        split at kind
        · next second =>
          split at kind
          · next alone =>
            rw [first, second, alone]
          · cases kind
        · cases kind
      · cases kind
    · cases kind
  · rintro rfl
    rfl

/-- A plain word does not start with a hyphen, unless it is one. -/
theorem ofBytes_eq_plain_iff :
    ofBytes word = .plain ↔ word = [hyphen] ∨ word.head? ≠ some hyphen := by
  rcases word with _ | ⟨a, _ | ⟨b, rest⟩⟩
  · simp [ofBytes]
  · simp [ofBytes, Classical.em]
  · unfold ofBytes
    by_cases first : a = hyphen
    · subst first
      simp only [↓reduceIte]
      split
      · split <;> simp
      · simp
    · simp [first]

/-- A long option is its two hyphens, its name and perhaps a value. -/
theorem eq_of_ofBytes_eq_long {name : Bytes} {value : Option Bytes}
    (kind : ofBytes word = .long name value) :
    word = hyphen :: hyphen :: (name ++ (value.map (equalsSign :: ·)).getD []) := by
  unfold ofBytes at kind
  split at kind
  · next a b rest =>
    split at kind
    · next first =>
      split at kind
      · next second =>
        split at kind
        · cases kind
        · cases kind
          subst first second
          have valued : ((valueOf? rest).map (equalsSign :: ·)).getD [] =
              rest.dropWhile (· ≠ equalsSign) := by
            unfold valueOf?
            split
            · next mark value found =>
              have stop : mark = equalsSign := by
                have kept := List.head?_dropWhile_not (· ≠ equalsSign) rest
                rw [found] at kept
                simpa using kept
              rw [found, stop]
              rfl
            · next found =>
              rw [found]
              rfl
          rw [valued, List.takeWhile_append_dropWhile]
      · cases kind
    · cases kind
  · cases kind

end Word

/-- Only the option of that name asks for a manifest, with the value in its word. -/
theorem Request.eq_of_ofLong_eq_manifest {page : Page} {name : Bytes} {value path : Option Bytes}
    (asked : Request.ofLong page name value = .manifest path) :
    name = Utf8.ofString Flag.manifestPath.long ∧ value = path := by
  unfold Request.ofLong at asked
  split at asked
  · cases asked
  · next flag found =>
    obtain ⟨long, decoded, named⟩ := Option.bind_eq_some_iff.mp found
    have spelled : name = Utf8.ofString flag.long := by
      have same : flag.long = long := by
        unfold Page.flagNamed? at named
        simpa using List.find?_some named
      rw [same]
      exact Utf8.decode?_eq_some_iff.mp decoded
    split at asked
    · cases asked
      exact ⟨spelled, rfl⟩
    · cases asked
    · cases flag with
      | manifestPath =>
        cases asked
        exact ⟨spelled, rfl⟩
      | help => cases asked
      | version => cases asked

/-- No letter stands for the option of the manifest. -/
theorem Request.ofShort_ne_manifest {page : Page} {letters : Bytes} {path : Option Bytes} :
    Request.ofShort page letters ≠ .manifest path := by
  intro asked
  unfold Request.ofShort at asked
  split at asked
  · next letter _ _ =>
    split at asked
    · next flag found =>
      have lettered : flag.letter? = some letter := by
        unfold Page.flagLettered? at found
        simpa using List.find?_some found
      cases flag with
      | manifestPath => cases lettered
      | help => cases asked
      | version => cases asked
    · cases asked
  · cases asked

/-! ## Settling -/

/-- What settling accepts: nothing was pending and nothing changes, or the first value, which is not
empty. -/
theorem Progress.settle_eq_none {p q : Progress} (settled : p.settle = (none, q)) :
    (p.pending = none ∧ q = p) ∨
      ∃ path, path ≠ [] ∧ p.pending = some (some path) ∧ p.isGiven = false ∧
        q = { path := some path, isGiven := true } := by
  rcases p with ⟨accepted, given, _ | (_ | path)⟩
  · cases settled
    exact .inl ⟨rfl, rfl⟩
  · cases settled
  · unfold Progress.settle at settled
    dsimp only at settled
    split at settled
    · cases settled
    · split at settled
      · cases settled
      · next notGiven filled =>
        cases settled
        exact .inr ⟨path, filled, rfl, by simpa using notGiven, rfl⟩

theorem settled_eq_ok {α : Type} {page : Page} {p : Progress}
    {next : Progress → Except Refusal α} {a : α} (ok : settled page p next = .ok a) :
    ∃ q, p.settle = (none, q) ∧ next q = .ok a := by
  unfold settled at ok
  split at ok
  · cases ok
  · next q same => exact ⟨q, same, ok⟩

/-- The accepted path, if there is one, is not empty. -/
def Progress.Filled (p : Progress) : Prop := p.path ≠ some []

theorem Progress.Filled.settle {p q : Progress} (filled : p.Filled)
    (settled : p.settle = (none, q)) : q.Filled := by
  rcases Progress.settle_eq_none settled with ⟨-, rfl⟩ | ⟨path, ne, -, -, rfl⟩
  · exact filled
  · intro same
    exact ne (Option.some.inj same)

theorem unknownCommand_ne_build {words : List Bytes} {manifest : Option Bytes} :
    unknownCommand words ≠ .ok (some (.build manifest)) := by
  intro asked
  unfold unknownCommand at asked
  split at asked
  · cases asked
  · cases asked

/-- The word that names a manifest, in the same word or in the next one. -/
def manifestWord (path : Option Bytes) : Bytes :=
  hyphen :: hyphen ::
    (Utf8.ofString Flag.manifestPath.long ++ (path.map (equalsSign :: ·)).getD [])

section Words

variable {page : Page} {p : Progress} {word : Bytes} {rest : List Bytes} {r : Option Bytes}

/-- The mark that ends the options lets nothing follow. -/
theorem readOptions_of_separator (kind : Word.ofBytes word = .separator)
    (ok : readOptions page p (word :: rest) = .ok r) :
    rest = [] ∧ ∃ q, p.settle = (none, q) ∧ q.path = r := by
  unfold readOptions at ok
  rw [kind] at ok
  dsimp only at ok
  split at ok
  · obtain ⟨q, settled, same⟩ := settled_eq_ok ok
    exact ⟨rfl, q, settled, Except.ok.inj same⟩
  · cases ok

/-- A word that is no option is the value that an option waits for. -/
theorem readOptions_of_plain (kind : Word.ofBytes word = .plain)
    (ok : readOptions page p (word :: rest) = .ok r) :
    p.pending = some none ∧
      readOptions page { p with pending := some (some word) } rest = .ok r := by
  unfold readOptions at ok
  rw [kind] at ok
  dsimp only at ok
  split at ok
  · next waiting => exact ⟨waiting, ok⟩
  · cases ok

/-- No letter lets the reading go on. -/
theorem readOptions_ne_ok_of_short {letters : Bytes} (kind : Word.ofBytes word = .short letters) :
    readOptions page p (word :: rest) ≠ .ok r := by
  intro ok
  unfold readOptions at ok
  rw [kind] at ok
  dsimp only at ok
  split at ok
  · obtain ⟨q, -, stop⟩ := settled_eq_ok ok
    cases stop
  · obtain ⟨q, -, stop⟩ := settled_eq_ok ok
    cases stop
  · next asked => exact Request.ofShort_ne_manifest (Option.some.inj asked)
  · next asked => exact Request.ofShort_ne_manifest (Option.some.inj asked)
  · cases ok
  · cases ok
  · cases ok
  · next asked => cases asked

/-- The name of an option lets the reading go on only if it is that of the manifest. -/
theorem readOptions_of_long {name : Bytes} {value : Option Bytes}
    (kind : Word.ofBytes word = .long name value)
    (ok : readOptions page p (word :: rest) = .ok r) :
    word = manifestWord value ∧ ∃ q, p.settle = (none, q) ∧
      ((value = none ∧ readOptions page { q with pending := some none } rest = .ok r) ∨
        ∃ path q', value = some path ∧
          { q with pending := some (some path) : Progress }.settle = (none, q') ∧
          readOptions page q' rest = .ok r) := by
  unfold readOptions at ok
  rw [kind] at ok
  dsimp only at ok
  split at ok
  · obtain ⟨q, -, stop⟩ := settled_eq_ok ok
    cases stop
  · obtain ⟨q, -, stop⟩ := settled_eq_ok ok
    cases stop
  · next asked =>
    obtain ⟨rfl, rfl⟩ := Request.eq_of_ofLong_eq_manifest (Option.some.inj asked)
    obtain ⟨q, settled, ok⟩ := settled_eq_ok ok
    exact ⟨Word.eq_of_ofBytes_eq_long kind, q, settled, .inl ⟨rfl, ok⟩⟩
  · next path asked =>
    obtain ⟨rfl, rfl⟩ := Request.eq_of_ofLong_eq_manifest (Option.some.inj asked)
    obtain ⟨q, settled, ok⟩ := settled_eq_ok ok
    obtain ⟨q', settled', ok⟩ := settled_eq_ok ok
    exact ⟨Word.eq_of_ofBytes_eq_long kind, q, settled, .inr ⟨path, q', rfl, settled', ok⟩⟩
  · cases ok
  · cases ok
  · cases ok
  · next asked => cases asked

/-- The four ways in which a word lets the reading go on to a result. -/
theorem readOptions_cons_eq_ok (ok : readOptions page p (word :: rest) = .ok r) :
    (word = [hyphen, hyphen] ∧ rest = [] ∧ ∃ q, p.settle = (none, q) ∧ q.path = r) ∨
    (word = manifestWord none ∧
      ∃ q, p.settle = (none, q) ∧ readOptions page { q with pending := some none } rest = .ok r) ∨
    (∃ path q q', word = manifestWord (some path) ∧ p.settle = (none, q) ∧
      { q with pending := some (some path) : Progress }.settle = (none, q') ∧
      readOptions page q' rest = .ok r) ∨
    ((word = [hyphen] ∨ word.head? ≠ some hyphen) ∧ p.pending = some none ∧
      readOptions page { p with pending := some (some word) } rest = .ok r) := by
  cases kind : Word.ofBytes word with
  | separator =>
    exact .inl ⟨Word.ofBytes_eq_separator_iff.mp kind, readOptions_of_separator kind ok⟩
  | plain =>
    exact .inr (.inr (.inr ⟨Word.ofBytes_eq_plain_iff.mp kind, readOptions_of_plain kind ok⟩))
  | short letters => exact absurd ok (readOptions_ne_ok_of_short kind)
  | long name value =>
    obtain ⟨named, q, settled, ⟨rfl, ok⟩ | ⟨path, q', rfl, settled', ok⟩⟩ :=
      readOptions_of_long kind ok
    · exact .inr (.inl ⟨named, q, settled, ok⟩)
    · exact .inr (.inr (.inl ⟨path, q, q', named, settled, settled', ok⟩))

end Words

theorem readOptions_ne_nil {page : Page} {words : List Bytes} {p : Progress} (filled : p.Filled) :
    readOptions page p words ≠ .ok (some []) := by
  intro read
  induction words generalizing p with
  | nil =>
    obtain ⟨q, settled, same⟩ := settled_eq_ok read
    exact filled.settle settled (Except.ok.inj same)
  | cons word rest ih =>
    rcases readOptions_cons_eq_ok read with ⟨-, -, q, settled, same⟩ | ⟨-, q, settled, read⟩ |
      ⟨path, q, q', -, settled, settled', read⟩ | ⟨-, -, read⟩
    · exact filled.settle settled same
    · have kept : q.Filled := filled.settle settled
      exact ih (p := { q with pending := some none }) kept read
    · have kept : q.Filled := filled.settle settled
      have waiting : Progress.Filled { q with pending := some (some path) } := kept
      exact ih (waiting.settle settled') read
    · exact ih (p := { p with pending := some (some word) }) filled read

/-- Only the verb of that name asks for a build, with the path that its options give. -/
theorem readVerb_eq_build {v : Verb} {words : List Bytes} {manifest : Option Bytes}
    (asked : readVerb v words = .ok (some (.build manifest))) :
    readOptions (.verb v) {} words = .ok manifest := by
  unfold readVerb at asked
  cases given : readOptions (.verb v) {} words with
  | error refusal =>
    rw [given] at asked
    cases asked
  | ok path =>
    rw [given] at asked
    cases v <;> cases asked
    rfl

/-- No command line asks for a build with an empty manifest path. -/
theorem read_ne_build_nil (args : List Bytes) : read args ≠ .ok (some (.build (some []))) := by
  intro asked
  unfold read readWords at asked
  split at asked
  · cases asked
  · next word rest _ =>
    split at asked
    · split at asked
      · cases asked
      · exact unknownCommand_ne_build asked
    · split at asked
      · have empty : Progress.Filled {} := nofun
        exact readOptions_ne_nil empty (readVerb_eq_build asked)
      · exact unknownCommand_ne_build asked
    all_goals
      cases given : readOptions .launcher {} (word :: rest) with
      | error refusal =>
        rw [given] at asked
        cases asked
      | ok path =>
        rw [given] at asked
        cases asked

end BuildLauncher.CommandLine
