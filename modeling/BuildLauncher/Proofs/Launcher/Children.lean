import BuildLauncher.Proofs.Environment
import BuildLauncher.Proofs.Launcher.ExitStatus

/-!
# The children of a run

Which programs the launcher starts, in which order, and what each of them is given.

* `Launcher.children_of_asked`, `Launcher.children_of_other`: a whole run has the children of the
  step that it is asked for, and without a step none.
* `Launcher.children_of_run`: all of it, with the children of a step one by one, whatever becomes of
  each of them.
-/

namespace BuildLauncher.Launcher

open Act

/-- The children that a step launches on a file tree. -/
def stepChildren (host : Host) (step : Step) (tree : FileTree) : List (Launch × Outcome) :=
  Event.children ((runStep host step).run.run { tree }).2.events

/-- The value of a variable in the environment of a step's command: the identity, for the bootstrap
step the output path, and otherwise what the process has. -/
def overlaid (host : Host) (step : Step) (id : Identity) (conf : Configuration) (root : Bytes)
    (key : Bytes) : Option Bytes :=
  if step.isBootstrap ∧ key = Utf8.ofString "CARGO_TARGET_DIR" then
    some (conf.outputPath host.home? root)
  else if key = Utf8.ofString "CFG_VERSION_STR" then some (Utf8.ofString id.versionString)
  else if key = Utf8.ofString "CFG_IS_STABLE" then
    some (Utf8.ofString (if id.channel.isStable then "true" else "false"))
  else host.environment.get? key

/-- A variable that silences the check of the toolchain has the value `1`. -/
def OptsOut (env : Environment) : Prop :=
  env.get? (Utf8.ofString "HARTEX_IGNORE_OLD_TOOLCHAIN") = some [0x31] ∨
    env.get? (Utf8.ofString "HARTEX_IGNORE_OLD_PYTHON") = some [0x31]

instance (env : Environment) : Decidable (OptsOut env) :=
  inferInstanceAs (Decidable (_ ∨ _))

theorem launches_check (host : Host) :
    Toolchain.launches host =
      if OptsOut host.environment then []
      else [Launch.query host none ["cargo", "--version"]] := by
  unfold Toolchain.launches
  by_cases silenced : OptsOut host.environment
  · rw [if_pos silenced, if_pos ((Toolchain.isSilenced_iff _).mpr silenced)]
  · rw [if_neg silenced, if_neg (mt (Toolchain.isSilenced_iff _).mp silenced)]
    rfl

theorem launches_commit (host : Host) (root : Bytes) :
    Identity.launches host root =
      [.query host (some root) ["git", "branch", "--show-current"],
        .query host (some root) ["git", "log", "-1", "--date=short", "--pretty=format:%cd"],
        .query host (some root) ["git", "rev-parse", "--short=9", "HEAD"]] := by
  have width : "--short=" ++ toString Identity.hashWidth = "--short=9" := by decide
  unfold Identity.launches Identity.hashQuery
  rw [width]
  rfl

theorem get?_launch (host : Host) (step : Step) (id : Identity) (root : Bytes) (t : FileTree)
    (key : Bytes) :
    (step.launch host id root t).environment.get? key =
      overlaid host step id (Configuration.load t [] (Configuration.path root)) root key :=
  Step.get?_environment step id host.environment _ host.home? root key

theorem stepChildren_of_does {host : Host} {step : Step} {t t' : FileTree}
    {r : Except Failure Unit} {events : List Event}
    (ran : Does (runStep host step).run t r events t') :
    stepChildren host step t = Event.children events :=
  congrArg (fun outcome : Except Failure Unit × Session => Event.children outcome.2.events) (ran [])

/-! ## Whole runs -/

section Run

variable (host : Host) {args : List Bytes} (tree : FileTree)

theorem children_of_asked {i : Invocation} {step : Step}
    (asked : CommandLine.read args = .ok (some i)) (stands : i.step? = some step) :
    Event.children (session host args tree).events = stepChildren host step tree := by
  obtain ⟨r, events, t', -, ran⟩ := course_of_step host step tree
  rw [session_of_does (does_main_of_step asked stands ran), stepChildren_of_does ran]
  exact children_around host i r events

/-- Only a step launches anything. -/
theorem children_of_other (other : ∀ i, CommandLine.read args = .ok (some i) → i.step? = none) :
    Event.children (session host args tree).events = [] := by
  rcases read_cases args with ⟨refusal, refused⟩ | empty | ⟨words, asked⟩ | asked |
    ⟨i, step, asked, stands⟩
  · rw [session_of_does (does_main_of_refusal host tree refused)]
    rfl
  · rw [session_of_does (does_main_of_none host tree empty)]
    rfl
  · rw [session_of_does (does_main_of_unknown host tree asked), working, Event.children_append,
      Event.children_said, Event.children_said]
    rfl
  · cases cwd : host.workingDirectory with
    | error e =>
      rw [session_of_does (does_main_of_command asked
        (does_perform_configure (does_configure_of_error tree cwd)))]
      exact children_around host .configure _ []
    | ok root =>
      rcases made : Configuration.configure tree host.writing [] root with ⟨r, t'⟩
      rw [session_of_does (does_main_of_command asked
        (does_perform_configure (does_configure cwd made)))]
      rw [children_around]
      exact Event.children_said (_ :: configured host.terminals r)
  · rw [other i asked] at stands
    cases stands

end Run

/-- **The children of a run.**  A run launches children only when it is asked for a step, and then
those of the step, at most five: the question for the toolchain unless a variable silences it, the
three questions about the commit, and the command of the step once.  No outcome of a child skips,
repeats or reorders another; only a working directory that cannot be read ends the list early.  The
home directory, which the output path of the bootstrap step may begin with, is the one that the
environment names, and without such a name the one that the system has on record. -/
theorem children_of_run (host : Host) (args : List Bytes) (tree : FileTree) :
    (∀ i step, CommandLine.read args = .ok (some i) → i.step? = some step →
      Event.children (session host args tree).events = stepChildren host step tree) ∧
    ((∀ i, CommandLine.read args = .ok (some i) → i.step? = none) →
      Event.children (session host args tree).events = []) ∧
    (∀ step, ∃ check t₁,
      check.map Prod.fst =
        (if OptsOut host.environment then []
          else [Launch.query host none ["cargo", "--version"]]) ∧
      host.children.Ran tree check t₁ ∧
      ((∃ e, host.workingDirectory = .error e ∧ stepChildren host step tree = check) ∨
        ∃ root branch date hash last t₂ t₃ command,
          host.workingDirectory = .ok root ∧
          stepChildren host step tree = check ++
            [(.query host (some root) ["git", "branch", "--show-current"], branch),
              (.query host (some root)
                ["git", "log", "-1", "--date=short", "--pretty=format:%cd"], date),
              (.query host (some root) ["git", "rev-parse", "--short=9", "HEAD"], hash),
              (command, last)] ∧
          host.children.Ran t₁
            [(.query host (some root) ["git", "branch", "--show-current"], branch),
              (.query host (some root)
                ["git", "log", "-1", "--date=short", "--pretty=format:%cd"], date),
              (.query host (some root) ["git", "rev-parse", "--short=9", "HEAD"], hash)] t₂ ∧
          host.children.Ran t₂ [(command, last)] t₃ ∧
          command.argv = step.argv ∧ command.directory = none ∧ command.role = .step ∧
          ∀ key, command.environment.get? key =
            overlaid host step (.ofOutcomes branch date hash)
              (Configuration.load t₂ [] (Configuration.path root)) root key)) ∧
    (∀ home, host.environment.get? (Utf8.ofString "HOME") = some home → home ≠ [] →
      host.home? = Utf8.decode? home) ∧
    (host.environment.get? (Utf8.ofString "HOME") = none ∨
        host.environment.get? (Utf8.ofString "HOME") = some [] →
      host.home? = host.recordedHome.bind Utf8.decode?) := by
  refine ⟨fun i step => children_of_asked host tree, children_of_other host tree, fun step => ?_,
    fun home => Host.home?_of_set, Host.home?_of_unset⟩
  obtain ⟨r, events, t', course, ran⟩ := course_of_step host step tree
  obtain ⟨check, warning, t₁, checked, behind⟩ := course.children
  refine ⟨check, t₁, ?_, checked.ran, ?_⟩
  · rw [checked.launches_eq, launches_check]
  rw [stepChildren_of_does ran]
  rcases behind with ⟨e, cwd, -, children, -⟩ |
    ⟨root, branch, date, hash, t₂, last, cwd, asked, ended, -, children⟩
  · exact .inl ⟨e, cwd, children⟩
  · rw [launches_commit] at asked children
    refine .inr ⟨root, branch, date, hash, last, t₂, t', _, cwd, ?_, asked,
      .cons ended (.nil t'), rfl, rfl, rfl, get?_launch host step _ root t₂⟩
    rw [children, List.append_assoc]
    rfl

end BuildLauncher.Launcher
