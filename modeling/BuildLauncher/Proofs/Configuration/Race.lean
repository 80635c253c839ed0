import BuildLauncher.Proofs.Configuration.Creation
import Mathlib.Data.List.Induction
import Mathlib.Logic.Function.Basic

/-!
# Configuring at the same time

Any number of processes configure the same root, and another program may create the configuration
file as well, with content of its own.  A process takes three steps: it tests whether the path of
the file leads anywhere, it opens a new file, and it writes the template.  Between two steps of one
party the others may take any number of theirs, so a race is run on a list that says whose turn it
is, and every such list counts.

* `Configuration.Stage.next`, `Configuration.Race.step`: the next step of a party, and what a turn
  makes of a race.
* `Configuration.Race.run_turns`: the steps of a process that is left to itself are those of
  `Configuration.configure`.
* `Configuration.Race.left_le`: three turns are enough for a process.
-/

namespace BuildLauncher

namespace Configuration

open FileTree

/-! ## One party -/

/-- How far a party has got with the file. -/
inductive Stage where
  /-- It is about to test whether the path leads anywhere. -/
  | testing
  /-- The path did lead somewhere. -/
  | found
  /-- It is about to open a new file. -/
  | opening
  /-- It has opened a new file and is about to write to it. -/
  | writing (place : Place)
  | ended (result : Except FileError Unit)
  deriving DecidableEq

/-- The failure to open a new file where something stands already. -/
def fileExists : Failure :=
  .ofSystem "File exists (os error 17)" (some "create build configuration")

namespace Stage

/-- The next step of a party that has `content` to write, on the tree of the moment. -/
def next (here : Place) (path content : Bytes) (t : FileTree) : Stage → Stage × FileTree
  | testing => (if t.pathExists here path then found else opening, t)
  | found => (found, t)
  | opening =>
    match t.createNew here path with
    | .ok (place, t) => (writing place, t)
    | .error e => (ended (.error e), t)
  | writing place => (ended (.ok ()), t.append place content)
  | ended result => (ended result, t)

/-- What configuring has come to, once it has come to something. -/
def configured? (root : Bytes) : Stage → Option (Except Failure Configured)
  | testing | opening | writing _ => none
  | found => some (.ok (.alreadyExists (path root)))
  | ended (.ok ()) => some (.ok (.created (path root)))
  | ended (.error e) => some (.error (.ofSystem e.message (some "create build configuration")))

/-- The steps that are left. -/
def left : Stage → Nat
  | testing => 3
  | opening => 2
  | writing _ => 1
  | found | ended _ => 0

/-- The party has not created a file: it has yet to try, or has come too late. -/
inductive Outside : Stage → Prop
  | testing : Outside testing
  | found : Outside found
  | opening : Outside opening
  | refused : Outside (ended (.error (.system .alreadyExists)))

theorem left_next (here : Place) (path content : Bytes) (t : FileTree) (stage : Stage) :
    (stage.next here path content t).1.left ≤ stage.left - 1 := by
  cases stage with
  | testing =>
    rw [next]
    split
    · exact Nat.zero_le _
    · exact Nat.le_refl _
  | found => exact Nat.le_refl _
  | opening =>
    rw [next]
    split
    · exact Nat.le_refl _
    · exact Nat.zero_le _
  | writing place => exact Nat.le_refl _
  | ended result => exact Nat.le_refl _

theorem configured?_ne_none {stage : Stage} (done : stage.left = 0) (root : Bytes) :
    stage.configured? root ≠ none := by
  cases stage with
  | found => exact Option.some_ne_none _
  | ended result =>
    cases result with
    | ok => exact Option.some_ne_none _
    | error e => exact Option.some_ne_none _
  | testing => cases done
  | opening => cases done
  | writing place => cases done

theorem configured?_refused (root : Bytes) :
    (ended (.error (.system .alreadyExists))).configured? root = some (.error fileExists) := by
  have text : SystemError.alreadyExists.message = "File exists (os error 17)" := by decide
  unfold fileExists
  rw [← text]
  rfl

theorem Outside.configured {stage : Stage} {root : Bytes} {r : Except Failure Configured}
    (outside : stage.Outside) (came : stage.configured? root = some r) :
    r = .ok (.alreadyExists (path root)) ∨ r = .error fileExists := by
  cases outside with
  | testing => cases came
  | opening => cases came
  | found => exact .inl (Option.some.inj came).symm
  | refused =>
    rw [configured?_refused] at came
    exact .inr (Option.some.inj came).symm

end Stage

/-! ## The race -/

/-- Those who take part in a race of `n` processes. -/
inductive Party (n : Nat) where
  | process (i : Fin n)
  /-- The program that does not configure. -/
  | other
  deriving DecidableEq

/-- What a race is about. -/
structure Race.Setting where
  /-- The directory from which the root is seen. -/
  here : Place
  root : Bytes
  /-- What the other program writes. -/
  content : Bytes

/-- The file tree of the moment, and how far everybody has got. -/
structure Race (n : Nat) where
  tree : FileTree
  stage : Party n → Stage

namespace Race

variable {n : Nat} (s : Setting) {race : Race n} {t : FileTree} {dir : Place} {p q : Party n}
  {turns later : List (Party n)}

/-- What a party writes. -/
def Setting.contentOf : Party n → Bytes
  | .process _ => Utf8.ofString template
  | .other => s.content

/-- The race before the first turn.  The other program tests nothing. -/
def start (t : FileTree) : Race n where
  tree := t
  stage
    | .process _ => .testing
    | .other => .opening

/-- A party takes its turn. -/
def step (race : Race n) (p : Party n) : Race n :=
  let (stage, tree) :=
    (race.stage p).next s.here (path s.root) (s.contentOf p) race.tree
  { tree, stage := Function.update race.stage p stage }

/-- The parties take their turns. -/
def run (race : Race n) (turns : List (Party n)) : Race n := turns.foldl (step s) race

/-- The race from the tree `t` after those turns. -/
def after (t : FileTree) (turns : List (Party n)) : Race n := (start t).run s turns

/-- What a process has come to. -/
def configured? (race : Race n) (i : Fin n) : Option (Except Failure Configured) :=
  (race.stage (.process i)).configured? s.root

/-- In a race from the tree `t` it is on a turn of `p` that something comes to stand at `place`. -/
def CreatedBy (t : FileTree) (place : Place) (turns : List (Party n)) (p : Party n) : Prop :=
  ∃ before behind, turns = before ++ p :: behind ∧ (after s t before).tree.get? place = none ∧
    ∃ e, (after s t (before ++ [p])).tree.get? place = some e

theorem after_concat : after s t (turns ++ [p]) = (after s t turns).step s p :=
  List.foldl_append

theorem CreatedBy.append (created : CreatedBy s t dir turns p) (later : List (Party n)) :
    CreatedBy s t dir (turns ++ later) p := by
  obtain ⟨before, behind, rfl, free, stands⟩ := created
  exact ⟨before, behind ++ later, List.append_assoc _ _ _, free, stands⟩

variable {s}

theorem step_tree {stage : Stage} {t' : FileTree}
    (taken : (race.stage p).next s.here (path s.root) (s.contentOf p) race.tree = (stage, t')) :
    (race.step s p).tree = t' := by
  unfold step
  rw [taken]

theorem step_stage {stage : Stage} {t' : FileTree}
    (taken : (race.stage p).next s.here (path s.root) (s.contentOf p) race.tree = (stage, t')) :
    (race.step s p).stage p = stage := by
  unfold step
  rw [taken]
  exact Function.update_self _ _ _

theorem step_stage_other (apart : q ≠ p) : (race.step s p).stage q = race.stage q :=
  Function.update_of_ne apart _ _

/-- Three turns of one process, step by step. -/
theorem run_replicate {stage₁ stage₂ stage₃ : Stage} {t₁ t₂ t₃ : FileTree}
    (first : (race.stage p).next s.here (path s.root) (s.contentOf p) race.tree = (stage₁, t₁))
    (second : stage₁.next s.here (path s.root) (s.contentOf p) t₁ = (stage₂, t₂))
    (third : stage₂.next s.here (path s.root) (s.contentOf p) t₂ = (stage₃, t₃)) :
    (race.run s (List.replicate 3 p)).stage p = stage₃ ∧
      (race.run s (List.replicate 3 p)).tree = t₃ := by
  rw [← step_tree first, ← step_stage first] at second
  rw [← step_tree second, ← step_stage second] at third
  exact ⟨step_stage third, step_tree third⟩

/-- The steps of a process that is left to itself are those of `configure`. -/
theorem run_turns {i : Fin n} (testing : race.stage (.process i) = .testing) :
    (race.run s (List.replicate 3 (.process i))).configured? s i =
        some (configure race.tree .complete s.here s.root).1 ∧
      (race.run s (List.replicate 3 (.process i))).tree =
        (configure race.tree .complete s.here s.root).2 := by
  unfold configured? configure
  dsimp only
  by_cases found : race.tree.pathExists s.here (path s.root) = true
  · have first : (race.stage (.process i)).next s.here (path s.root) (s.contentOf (.process i))
        race.tree = (.found, race.tree) := by
      rw [testing, Stage.next, if_pos found]
    obtain ⟨stage, tree⟩ := run_replicate first rfl rfl
    rw [stage, tree, if_pos found]
    exact ⟨rfl, rfl⟩
  · have first : (race.stage (.process i)).next s.here (path s.root) (s.contentOf (.process i))
        race.tree = (.opening, race.tree) := by
      rw [testing, Stage.next, if_neg found]
    rw [if_neg found]
    unfold writeNew
    cases opened : race.tree.createNew s.here (path s.root) with
    | error e =>
      have second : Stage.opening.next s.here (path s.root) (s.contentOf (.process i))
          race.tree = (.ended (.error e), race.tree) := by
        rw [Stage.next, opened]
      obtain ⟨stage, tree⟩ := run_replicate first second rfl
      rw [stage, tree]
      exact ⟨rfl, rfl⟩
    | ok created =>
      obtain ⟨place, t₂⟩ := created
      have second : Stage.opening.next s.here (path s.root) (s.contentOf (.process i))
          race.tree = (.writing place, t₂) := by
        rw [Stage.next, opened]
      obtain ⟨stage, tree⟩ := run_replicate first second rfl
      rw [stage, tree]
      exact ⟨rfl, rfl⟩

/-- A process is done after three turns, whatever the others do in between. -/
theorem left_le (t : FileTree) (turns : List (Party n)) (i : Fin n) :
    ((after s t turns).stage (.process i)).left ≤ 3 - turns.count (.process i) := by
  induction turns using List.reverseRecOn with
  | nil => exact Nat.le_refl 3
  | append_singleton turns p ih =>
    rw [after_concat, List.count_append, List.count_singleton]
    by_cases turn : p = .process i
    · subst turn
      rw [step_stage (Prod.eta _).symm, if_pos (beq_self_eq_true _)]
      have less := Stage.left_next s.here (path s.root) (s.contentOf (.process i))
        (after s t turns).tree ((after s t turns).stage (.process i))
      omega
    · rw [step_stage_other (Ne.symm turn), if_neg (by simpa using turn)]
      exact ih

end Race

end Configuration

end BuildLauncher
