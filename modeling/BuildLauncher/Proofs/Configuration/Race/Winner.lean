import BuildLauncher.Proofs.Configuration.Race

/-!
# Who creates the configuration file

A race for the configuration file has two parts: before anyone has created the file nobody has
changed anything, and afterwards only the party that has created it still writes to it.

* `Configuration.Race.Untouched`, `Configuration.Race.Won`: what a race is like before and after
  the file has been created, and by whom; `Configuration.Race.untouched_or_won` says that a race is
  always in one of the two.
* `Configuration.Race.Refused`: a race for a file that cannot be opened, such as one whose path is
  too long (`Configuration.Race.refused_of_long`).
* `Configuration.race_creates_once`: who creates the file, what the processes come to, and what the
  file holds in the end.
-/

namespace BuildLauncher

namespace Configuration

open FileTree

namespace Race

variable {n : Nat} {s : Setting} {race : Race n} {t : FileTree} {dir : Place} {p q : Party n}
  {turns : List (Party n)}

/-! ## Before and after the file is created -/

/-- Nobody has created the file. -/
structure Untouched (race : Race n) (t : FileTree) : Prop where
  tree : race.tree = t
  stage : ∀ p, race.stage p = .testing ∨ race.stage p = .opening

/-- The party `p` has created the file, and the others have come too late for it. -/
structure Won (s : Setting) (race : Race n) (t : FileTree) (place : Place) (p : Party n) :
    Prop where
  own : race.stage p = .writing place ∧ Adds t race.tree place (.file [] false) ∨
    race.stage p = .ended (.ok ()) ∧ Adds t race.tree place (.file (s.contentOf p) false)
  others : ∀ q, q ≠ p → (race.stage q).Outside

theorem untouched_start (t : FileTree) : Untouched (start t : Race n) t := by
  refine ⟨rfl, fun p => ?_⟩
  cases p with
  | process i => exact .inl rfl
  | other => exact .inr rfl

theorem Won.exists_adds {place : Place} (won : Won s race t place p) :
    ∃ content, Adds t race.tree place (.file content false) := by
  rcases won.own with ⟨-, adds⟩ | ⟨-, adds⟩
  · exact ⟨_, adds⟩
  · exact ⟨_, adds⟩

section Steps

variable (designates : Designates t s.here (path s.root) dir entryName)
  (free : t.get? (dir ++ [entryName]) = none)

include designates free

/-- As long as nobody has created the file, the next turn leaves it so, or creates the file. -/
theorem Untouched.step (untouched : Untouched race t) (p : Party n) :
    Untouched (race.step s p) t ∨ Won s (race.step s p) t (dir ++ [entryName]) p := by
  obtain ⟨rfl, early⟩ := untouched
  rcases early p with testing | opening
  · have taken : (race.stage p).next s.here (path s.root) (s.contentOf p) race.tree =
        (.opening, race.tree) := by
      rw [testing, Stage.next, if_neg (not_pathExists fun _ => designates.not_resolves free)]
    refine .inl ⟨step_tree taken, fun q => ?_⟩
    by_cases same : q = p
    · subst same
      exact .inr (step_stage taken)
    · rw [step_stage_other same]
      exact early q
  · have taken : (race.stage p).next s.here (path s.root) (s.contentOf p) race.tree =
        (.writing (dir ++ [entryName]),
          race.tree.set (dir ++ [entryName]) (.file [] false)) := by
      rw [opening, Stage.next, createNew_of_designates designates, free]
      rfl
    refine .inr ⟨.inl ⟨step_stage taken, ?_⟩, fun q apart => ?_⟩
    · rw [step_tree taken]
      exact adds_set free _
    · rw [step_stage_other apart]
      rcases early q with testing | opening
      · rw [testing]
        exact .testing
      · rw [opening]
        exact .opening

omit free in
/-- A party that has come too late finds the file, or fails to open it; it does not touch it. -/
theorem exists_next_of_outside {stage : Stage} {t' : FileTree} {content : Bytes}
    (outside : stage.Outside) (adds : Adds t t' (dir ++ [entryName]) (.file content false))
    (own : Bytes) :
    ∃ stage', stage.next s.here (path s.root) own t' = (stage', t') ∧ stage'.Outside := by
  have later := designates.mono fun stands => adds.kept stands
  cases outside with
  | testing =>
    refine ⟨.found, ?_, .found⟩
    rw [Stage.next, if_pos (pathExists_iff.mpr ⟨_, later.resolves adds.added⟩)]
  | found => exact ⟨.found, rfl, .found⟩
  | opening =>
    refine ⟨_, ?_, .refused⟩
    rw [Stage.next, createNew_of_designates later, adds.added]
    rfl
  | refused => exact ⟨_, rfl, .refused⟩

omit free in
/-- Once a party has created the file, only that party touches it. -/
theorem Won.step (won : Won s race t (dir ++ [entryName]) p) (q : Party n) :
    Won s (race.step s q) t (dir ++ [entryName]) p ∧
      (q ≠ p → (race.step s q).tree = race.tree) := by
  by_cases same : q = p
  · subst same
    refine ⟨⟨.inr ?_, fun q' apart => ?_⟩, fun apart => absurd rfl apart⟩
    · rcases won.own with ⟨writing, adds⟩ | ⟨ended, adds⟩
      · have taken : (race.stage q).next s.here (path s.root) (s.contentOf q) race.tree =
            (.ended (.ok ()), race.tree.append (dir ++ [entryName]) (s.contentOf q)) := by
          rw [writing]
          rfl
        refine ⟨step_stage taken, ?_⟩
        rw [step_tree taken]
        exact adds.append _
      · have taken : (race.stage q).next s.here (path s.root) (s.contentOf q) race.tree =
            (.ended (.ok ()), race.tree) := by
          rw [ended]
          rfl
        refine ⟨step_stage taken, ?_⟩
        rw [step_tree taken]
        exact adds
    · rw [step_stage_other apart]
      exact won.others q' apart
  · obtain ⟨content, adds⟩ := won.exists_adds
    obtain ⟨stage', taken, outside⟩ :=
      exists_next_of_outside designates (won.others q same) adds (s.contentOf q)
    refine ⟨⟨?_, fun q' apart => ?_⟩, fun _ => step_tree taken⟩
    · rw [step_stage_other (Ne.symm same), step_tree taken]
      exact won.own
    · by_cases turn : q' = q
      · subst turn
        rw [step_stage taken]
        exact outside
      · rw [step_stage_other turn]
        exact won.others q' apart

/-- A race is always in one of the two: nobody has created the file, or one party has. -/
theorem untouched_or_won (turns : List (Party n)) :
    Untouched (after s t turns) t ∨
      ∃ p, Won s (after s t turns) t (dir ++ [entryName]) p ∧
        CreatedBy s t (dir ++ [entryName]) turns p := by
  induction turns using List.reverseRecOn with
  | nil => exact .inl (untouched_start t)
  | append_singleton turns q ih =>
    -- The file is created on the last turn, or it has been created before and stays with its party.
    rcases ih with untouched | ⟨p, won, created⟩
    · rcases untouched.step designates free q with still | won
      · rw [after_concat]
        exact .inl still
      · obtain ⟨content, adds⟩ := won.exists_adds
        rw [← after_concat] at won adds
        refine .inr ⟨q, won, turns, [], rfl, ?_, _, adds.added⟩
        rw [untouched.tree]
        exact free
    · refine .inr ⟨p, ?_, created.append s [q]⟩
      rw [after_concat]
      exact (won.step designates q).1

end Steps

/-! ## What a process comes to -/

theorem configured?_of_untouched (untouched : Untouched race t) (i : Fin n) :
    race.configured? s i = none := by
  unfold configured?
  rcases untouched.stage (.process i) with testing | opening
  · rw [testing]
    rfl
  · rw [opening]
    rfl

/-- A process comes to a new file exactly when it is the party that has created it; the file then
holds the template. -/
theorem Won.configured {place : Place} {i : Fin n} {r : Except Failure Configured}
    (won : Won s race t place p) (came : race.configured? s i = some r) :
    p = .process i ∧ r = .ok (.created (path s.root)) ∧
        Adds t race.tree place (.file (Utf8.ofString template) false) ∨
      p ≠ .process i ∧ (r = .ok (.alreadyExists (path s.root)) ∨ r = .error fileExists) := by
  unfold configured? at came
  by_cases own : .process i = p
  · subst own
    rcases won.own with ⟨writing, -⟩ | ⟨ended, adds⟩
    · rw [writing] at came
      cases came
    · rw [ended] at came
      exact .inl ⟨rfl, (Option.some.inj came).symm, adds⟩
  · exact .inr ⟨Ne.symm own, (won.others _ own).configured came⟩

theorem Won.of_created {place : Place} {i : Fin n} (won : Won s race t place p)
    (came : race.configured? s i = some (.ok (.created (path s.root)))) :
    p = .process i ∧ Adds t race.tree place (.file (Utf8.ofString template) false) := by
  rcases won.configured came with ⟨own, -, adds⟩ | ⟨-, late | late⟩
  · exact ⟨own, adds⟩
  · cases late
  · cases late

/-! ## What a race comes to -/

section Outcomes

variable (designates : Designates t s.here (path s.root) dir entryName)
  (free : t.get? (dir ++ [entryName]) = none) {i j : Fin n} {r : Except Failure Configured}

include designates free

/-- As soon as one process has come to something, the file has been created. -/
theorem exists_won (came : (after s t turns).configured? s i = some r) :
    ∃ p, Won s (after s t turns) t (dir ++ [entryName]) p ∧
      CreatedBy s t (dir ++ [entryName]) turns p := by
  rcases untouched_or_won designates free turns with untouched | won
  · rw [configured?_of_untouched untouched] at came
    cases came
  · exact won

/-- A process that has come to a new file is the one that has created it. -/
theorem createdBy_of_created
    (came : (after s t turns).configured? s i = some (.ok (.created (path s.root)))) :
    CreatedBy s t (dir ++ [entryName]) turns (.process i) := by
  obtain ⟨p, won, created⟩ := exists_won designates free came
  obtain ⟨rfl, -⟩ := won.of_created came
  exact created

theorem get?_of_created
    (came : (after s t turns).configured? s i = some (.ok (.created (path s.root)))) :
    (after s t turns).tree.get? (dir ++ [entryName]) =
      some (.file (Utf8.ofString template) false) := by
  obtain ⟨p, won, -⟩ := exists_won designates free came
  exact (won.of_created came).2.added

theorem eq_of_created
    (first : (after s t turns).configured? s i = some (.ok (.created (path s.root))))
    (second : (after s t turns).configured? s j = some (.ok (.created (path s.root)))) :
    i = j := by
  obtain ⟨p, won, -⟩ := exists_won designates free first
  obtain ⟨rfl, -⟩ := won.of_created first
  obtain ⟨same, -⟩ := won.of_created second
  cases same
  rfl

/-- A process does not touch the file of somebody else. -/
theorem step_tree_of_not_createdBy
    (stands : (after s t turns).tree.get? (dir ++ [entryName]) ≠ none)
    (other : ¬ CreatedBy s t (dir ++ [entryName]) turns (.process i)) :
    ((after s t turns).step s (.process i)).tree = (after s t turns).tree := by
  rcases untouched_or_won designates free turns with untouched | ⟨p, won, created⟩
  · rw [untouched.tree] at stands
    exact absurd free stands
  · refine (won.step designates (.process i)).2 ?_
    rintro rfl
    exact other created

/-- A process has no other results than these three. -/
theorem configured?_cases (came : (after s t turns).configured? s i = some r) :
    r = .ok (.created (path s.root)) ∨ r = .ok (.alreadyExists (path s.root)) ∨
      r = .error fileExists := by
  obtain ⟨p, won, -⟩ := exists_won designates free came
  rcases won.configured came with ⟨-, made, -⟩ | ⟨-, late⟩
  · exact .inl made
  · exact .inr late

/-- When all processes have ended and none has come to a new file, the file is that of the other
program. -/
theorem get?_of_none_created (i : Fin n) (done : ∀ i, (after s t turns).configured? s i ≠ none)
    (none : ∀ i, (after s t turns).configured? s i ≠ some (.ok (.created (path s.root))))
    (idle : ∀ place, (after s t turns).stage .other ≠ .writing place) :
    (after s t turns).tree.get? (dir ++ [entryName]) = some (.file s.content false) := by
  obtain ⟨r, came⟩ := Option.ne_none_iff_exists'.mp (done i)
  obtain ⟨p, won, -⟩ := exists_won designates free came
  cases p with
  | process k =>
    -- A process that has created the file would have come to it.
    obtain ⟨r, came⟩ := Option.ne_none_iff_exists'.mp (done k)
    rcases won.configured came with ⟨-, rfl, -⟩ | ⟨apart, -⟩
    · exact absurd came (none k)
    · exact absurd rfl apart
  | other =>
    rcases won.own with ⟨writing, -⟩ | ⟨-, written⟩
    · exact absurd writing (idle _)
    · exact written.added

/-- Nothing changes but the file. -/
theorem get?_after_of_ne (turns : List (Party n)) {place : Place}
    (apart : place ≠ dir ++ [entryName]) : (after s t turns).tree.get? place = t.get? place := by
  rcases untouched_or_won designates free turns with untouched | ⟨p, won, -⟩
  · rw [untouched.tree]
  · obtain ⟨content, adds⟩ := won.exists_adds
    exact adds.others place apart

end Outcomes

/-! ## A race that nobody can win -/

/-- The path of the file leads nowhere, and opening a new file there fails. -/
structure Refused (s : Setting) (t : FileTree) (e : FileError) : Prop where
  absent : ∀ place, ¬ Resolves t s.here (path s.root) place
  refused : t.newPlace s.here (path s.root) = .error e

section Refusal

variable {e : FileError} (refused : Refused s t e)

include refused

theorem Refused.step (same : race.tree = t) (p : Party n)
    (early : race.stage p = .testing ∨ race.stage p = .opening ∨
      race.stage p = .ended (.error e)) :
    (race.step s p).tree = t ∧
      ((race.step s p).stage p = .opening ∨ (race.step s p).stage p = .ended (.error e)) := by
  subst same
  rcases early with testing | opening | ended
  · have taken : (race.stage p).next s.here (path s.root) (s.contentOf p) race.tree =
        (.opening, race.tree) := by
      rw [testing, Stage.next, if_neg (not_pathExists refused.absent)]
    exact ⟨step_tree taken, .inl (step_stage taken)⟩
  · have taken : (race.stage p).next s.here (path s.root) (s.contentOf p) race.tree =
        (.ended (.error e), race.tree) := by
      rw [opening, Stage.next, createNew, refused.refused]
      rfl
    exact ⟨step_tree taken, .inr (step_stage taken)⟩
  · have taken : (race.stage p).next s.here (path s.root) (s.contentOf p) race.tree =
        (.ended (.error e), race.tree) := by
      rw [ended]
      rfl
    exact ⟨step_tree taken, .inr (step_stage taken)⟩

/-- Such a race never changes the tree, and everybody who opens a file fails. -/
theorem Refused.after (turns : List (Party n)) :
    (after s t turns).tree = t ∧ ∀ p, (after s t turns).stage p = .testing ∨
      (after s t turns).stage p = .opening ∨ (after s t turns).stage p = .ended (.error e) := by
  induction turns using List.reverseRecOn with
  | nil => exact ⟨rfl, fun p => ((untouched_start t).stage p).imp id .inl⟩
  | append_singleton turns q ih =>
    obtain ⟨tree, stages⟩ := ih
    obtain ⟨same, own⟩ := refused.step tree q (stages q)
    rw [after_concat]
    refine ⟨same, fun p => ?_⟩
    by_cases turn : p = q
    · subst turn
      exact .inr own
    · rw [step_stage_other turn]
      exact stages p

/-- After its three turns every process has come to the failure. -/
theorem Refused.configured (turns : List (Party n)) {i : Fin n}
    (enough : 3 ≤ turns.count (.process i)) :
    (Race.after s t turns).configured? s i =
      some (.error (.ofSystem e.message (some "create build configuration"))) := by
  have few := left_le (s := s) t turns i
  unfold configured?
  rcases (refused.after turns).2 (.process i) with testing | opening | ended
  · rw [testing] at few
    exact absurd few (by rw [Stage.left]; omega)
  · rw [opening] at few
    exact absurd few (by rw [Stage.left]; omega)
  · rw [ended]
    rfl

end Refusal

/-- A root may lead to a directory and leave no room for the name of the file behind it. -/
theorem refused_of_long (resolves : Resolves t s.here s.root dir)
    (long : maxPath ≤ (path s.root).length) : Refused s t (.system .nameTooLong) := by
  obtain ⟨clean, given, -⟩ := checkPath_eq_ok_iff.mp resolves.1
  have unchecked : checkPath (path s.root) = .error (.system .nameTooLong) := by
    obtain ⟨behind, same, noNul, -⟩ := exists_behind given
    have cleanPath : (0 : UInt8) ∉ path s.root := by
      rw [same, List.mem_append, not_or]
      exact ⟨clean, noNul⟩
    have givenPath : path s.root ≠ [] := by
      rw [same]
      exact List.append_ne_nil_of_left_ne_nil given behind
    rw [checkPath, if_neg cleanPath, if_neg givenPath, if_pos long]
  refine ⟨fun place found => ?_, ?_⟩
  · have checked := found.1
    rw [unchecked] at checked
    cases checked
  · rw [newPlace, unchecked]
    rfl

end Race

open Race

/-- **A race for the configuration file.**  The root leads to a directory without the file and
leaves room for its name; any number of processes configure it, and another program may create the
file by itself.  The steps of one process are those of `configure`, and three turns are enough for
it.  At any moment at most one process has come to a new file, and then the file has been created
on its turn; a process on whose turn it has not been created leaves the tree as it is once the file
is there.  The other processes find the file, or fail because it exists.  When all are done, the
file holds the template if a process has created it, and what the other program writes if not;
nothing else has changed. -/
theorem race_creates_once {n : Nat} (s : Setting) {t : FileTree} {dir : Place}
    (short : (path s.root).length < maxPath) (vacant : Vacant t s.here s.root dir)
    (turns : List (Party n)) :
    (∀ (race : Race n) (i : Fin n), race.stage (.process i) = .testing →
      (race.run s (List.replicate 3 (.process i))).configured? s i =
          some (configure race.tree .complete s.here s.root).1 ∧
        (race.run s (List.replicate 3 (.process i))).tree =
          (configure race.tree .complete s.here s.root).2) ∧
    (∀ i : Fin n, 3 ≤ turns.count (.process i) → (after s t turns).configured? s i ≠ none) ∧
    (∀ i j, (after s t turns).configured? s i = some (.ok (.created (path s.root))) →
      (after s t turns).configured? s j = some (.ok (.created (path s.root))) → i = j) ∧
    (∀ i, (after s t turns).configured? s i = some (.ok (.created (path s.root))) →
      CreatedBy s t (dir ++ [entryName]) turns (.process i)) ∧
    (∀ i, (after s t turns).tree.get? (dir ++ [entryName]) ≠ none →
      ¬ CreatedBy s t (dir ++ [entryName]) turns (.process i) →
      ((after s t turns).step s (.process i)).tree = (after s t turns).tree) ∧
    (∀ i r, (after s t turns).configured? s i = some r →
      r = .ok (.created (path s.root)) ∨ r = .ok (.alreadyExists (path s.root)) ∨
        r = .error fileExists) ∧
    (0 < n → (∀ i, (after s t turns).configured? s i ≠ none) →
      (∀ place, (after s t turns).stage .other ≠ .writing place) →
      ((∃ i, (after s t turns).configured? s i = some (.ok (.created (path s.root)))) →
        (after s t turns).tree.get? (dir ++ [entryName]) =
          some (.file (Utf8.ofString template) false)) ∧
      ((∀ i, (after s t turns).configured? s i ≠ some (.ok (.created (path s.root)))) →
        (after s t turns).tree.get? (dir ++ [entryName]) = some (.file s.content false))) ∧
    ∀ place, place ≠ dir ++ [entryName] →
      (after s t turns).tree.get? place = t.get? place := by
  have given : s.root ≠ [] := (checkPath_eq_ok_iff.mp vacant.resolves.1).2.1
  obtain ⟨designates, free⟩ := (vacant_iff given short).mp vacant
  refine ⟨fun race i => run_turns, fun i enough => ?_, fun i j => eq_of_created designates free,
    fun i => createdBy_of_created designates free,
    fun i => step_tree_of_not_createdBy designates free,
    fun i r => configured?_cases designates free, fun some done idle => ⟨?_, fun none => ?_⟩,
    fun place => get?_after_of_ne designates free turns⟩
  · refine Stage.configured?_ne_none ?_ s.root
    have few := left_le (s := s) t turns i
    omega
  · rintro ⟨i, came⟩
    exact get?_of_created designates free came
  · exact get?_of_none_created designates free ⟨0, some⟩ done none idle

/-- Two processes configure the directory behind the link `l`, and a program writes a section. -/
def rivals : Setting where
  here := []
  root := Utf8.ofString "/l"
  content := Utf8.ofString "[build]\n"

/-- Both processes miss the file before either opens it. -/
def closeTurns : List (Party 2) :=
  [.process 0, .process 1, .process 1, .process 0, .other, .process 1]

/-- The second process opens the file first; the first one and the other program come too late. -/
theorem race_of_rivals :
    (path rivals.root).length < maxPath ∧
      Vacant linked rivals.here rivals.root [Utf8.ofString "d"] ∧
      (after rivals linked closeTurns).configured? rivals 0 = some (.error fileExists) ∧
      CreatedBy rivals linked [Utf8.ofString "d", entryName] closeTurns (.process 1) ∧
      (after rivals linked closeTurns).tree.get? [Utf8.ofString "d", entryName] =
        some (.file (Utf8.ofString template) false) := by
  have short : (path rivals.root).length < maxPath := by decide
  have vacant : Vacant linked rivals.here rivals.root [Utf8.ofString "d"] :=
    ⟨resolve_eq_ok_iff.mp rfl, rfl, rfl⟩
  have stages : (after rivals linked closeTurns).stage (.process 0) =
        .ended (.error (.system .alreadyExists)) ∧
      (after rivals linked closeTurns).stage (.process 1) = .ended (.ok ()) ∧
      (after rivals linked closeTurns).stage .other =
        .ended (.error (.system .alreadyExists)) := by
    decide +kernel
  obtain ⟨stage₀, stage₁, other⟩ := stages
  have late : (after rivals linked closeTurns).configured? rivals 0 =
      some (.error fileExists) := by
    rw [configured?, stage₀, Stage.configured?_refused]
  have first : (after rivals linked closeTurns).configured? rivals 1 =
      some (.ok (.created (path rivals.root))) := by
    rw [configured?, stage₁]
    rfl
  obtain ⟨-, -, -, creates, -, -, ends, -⟩ := race_creates_once rivals short vacant closeTurns
  refine ⟨short, vacant, late, creates 1 first, (ends Nat.two_pos ?_ ?_).1 ⟨1, first⟩⟩
  · intro i
    match i with
    | 0 =>
      rw [late]
      exact Option.some_ne_none _
    | 1 =>
      rw [first]
      exact Option.some_ne_none _
  · intro place writing
    rw [other] at writing
    cases writing

/-- Slashes at the end of a root change nothing, as long as there is room for them. -/
theorem vacant_slashes {k : Nat} (room : k + 2 < maxPath) :
    Vacant linked [] (Utf8.ofString "/d" ++ List.replicate k Path.slash) [Utf8.ofString "d"] := by
  have nothing (k : Nat) : parts (List.replicate k Path.slash) = [] := by
    induction k with
    | zero => decide
    | succ k ih => exact (parts_slash [] _).trans ih
  have single : parts (Utf8.ofString "/d" ++ List.replicate k Path.slash) =
      [Utf8.ofString "d"] := by
    cases k with
    | zero => decide
    | succ k =>
      rw [List.replicate_succ, parts_slash, nothing]
      decide
  have checked : checkPath (Utf8.ofString "/d" ++ List.replicate k Path.slash) = .ok () := by
    refine checkPath_eq_ok_iff.mpr ⟨?_, List.append_ne_nil_of_left_ne_nil (by decide) _, ?_⟩
    · intro nul
      rcases List.mem_append.mp nul with nul | nul
      · exact absurd nul (by decide)
      · exact absurd (List.eq_of_mem_replicate nul) (by decide)
    · have two : (Utf8.ofString "/d").length = 2 := by decide
      rw [List.length_append, List.length_replicate, two]
      omega
  obtain ⟨n, few, leads⟩ : ∃ n ≤ maxLinks,
      Leads linked n [] ([Utf8.ofString "d"] ++ [hereName]) [Utf8.ofString "d"] :=
    walk_eq_ok_iff.mp rfl
  refine ⟨⟨checked, n, few, (leads_names_iff rfl).mpr ?_⟩, rfl, rfl⟩
  rw [single]
  exact leads

/-- The directory `d`, by a path that leaves no room for the name of the file. -/
def crowded : Setting where
  here := []
  root := Utf8.ofString "/d" ++ List.replicate 4090 Path.slash
  content := Utf8.ofString "[build]\n"

/-- The root leads to a directory without the file; still, a process by itself comes to none of the
three results, and there is no file afterwards. -/
theorem race_of_crowded :
    Vacant linked crowded.here crowded.root [Utf8.ofString "d"] ∧
      (after crowded linked (List.replicate 3 (.process 0)) : Race 1).configured? crowded 0 =
        some (.error (.ofSystem "File name too long (os error 36)"
          (some "create build configuration"))) ∧
      Failure.ofSystem "File name too long (os error 36)" (some "create build configuration") ≠
        fileExists ∧
      (after crowded linked (List.replicate 3 (.process 0)) : Race 1).tree.get?
        [Utf8.ofString "d", entryName] = none := by
  have vacant : Vacant linked crowded.here crowded.root [Utf8.ofString "d"] :=
    vacant_slashes (by decide)
  have long : maxPath ≤ (path crowded.root).length := by
    obtain ⟨-, given, -⟩ := checkPath_eq_ok_iff.mp vacant.resolves.1
    obtain ⟨behind, same, -, much⟩ := exists_behind given
    have root : crowded.root.length = 4092 := by
      rw [crowded, List.length_append, List.length_replicate]
      decide
    have name : entryName.length = 14 := by decide
    rw [same, List.length_append, root]
    exact Nat.le_trans (by decide) (Nat.add_le_add_left (name ▸ much) 4092)
  have refused := refused_of_long vacant.resolves long
  have text : SystemError.nameTooLong.message = "File name too long (os error 36)" := by decide
  refine ⟨vacant, ?_, fun same => ?_, ?_⟩
  · rw [← text]
    exact refused.configured _ (by decide)
  · exact absurd (congrArg Failure.message same) (by decide)
  · rw [(refused.after _).1]
    rfl

end Configuration

end BuildLauncher
