import BuildLauncher.Proofs.Environment
import BuildLauncher.Proofs.Launcher.Course

/-!
# What the configuration changes

Two runs of one step under two configurations.  Only the output path of a bootstrap step comes from
the configuration, and only one variable of its command carries it.

* `Step.does_run`: a run of a step launches its command and nothing else, and comes to what the
  child comes to.
* `Step.environment_of_regular`, `Step.environment_congr`: when two configurations give the same
  environment.
* `Step.redirects_only_bootstrap`: pairs of runs, of a regular step and of the bootstrap step.
-/

namespace BuildLauncher

namespace Step

open Act

variable {step : Step} {conf conf' : Configuration} {home home' : Option String}
  {root root' : Bytes}

/-- The command of a step, as it is launched under a configuration. -/
def command (step : Step) (id : Identity) (base : Environment) (conf : Configuration)
    (home : Option String) (root : Bytes) : Launch :=
  .command step.argv (step.environment id base conf home root)

/-- A run of a step launches its command, and comes to what becomes of that child. -/
theorem does_run {host : Host} {id : Identity} {base : Environment} {t t' : FileTree}
    {o : Outcome}
    (ended : (step.command id base conf home root).perform host.children t = (o, t')) :
    Does (step.run host id base conf home root).run t (verdict step.argv step.isBootstrap o)
      ((Report.status host.terminals "run" (Launch.commandLine step.argv)).map .said ++
        [.launched (step.command id base conf home root) o]) t' :=
  does_runCommand step.isBootstrap step.argv_ne_nil ended

/-- A regular step does not look at the configuration. -/
theorem environment_of_regular (regular : step.isBootstrap = false) (id : Identity)
    (base : Environment) (conf : Configuration) (home : Option String) (root : Bytes) :
    step.environment id base conf home root = base.withIdentity id := by
  unfold environment
  rw [regular]
  rfl

/-- Of a configuration, a home directory and a root, a step sees no more than the output path. -/
theorem environment_congr (same : conf.outputPath home root = conf'.outputPath home' root')
    (step : Step) (id : Identity) (base : Environment) :
    step.environment id base conf home root = step.environment id base conf' home' root' := by
  unfold environment
  rw [same]

/-- What a regular step is given at the key of the target directory, it passes on. -/
theorem get?_target_of_regular (regular : step.isBootstrap = false) (id : Identity)
    (base : Environment) (conf : Configuration) (home : Option String) (root : Bytes) :
    (step.environment id base conf home root).get? (Utf8.ofString Environment.targetDirKey) =
      base.get? (Utf8.ofString Environment.targetDirKey) := by
  have version : Utf8.ofString Environment.targetDirKey ≠ Utf8.ofString Environment.versionKey := by
    decide
  have stable : Utf8.ofString Environment.targetDirKey ≠ Utf8.ofString Environment.isStableKey := by
    decide
  rw [get?_environment, regular, if_neg (by simp), if_neg version, if_neg stable]

/-- The bootstrap step passes on the output path. -/
theorem get?_target_of_bootstrap (bootstrap : step.isBootstrap = true) (id : Identity)
    (base : Environment) (conf : Configuration) (home : Option String) (root : Bytes) :
    (step.environment id base conf home root).get? (Utf8.ofString Environment.targetDirKey) =
      some (conf.outputPath home root) := by
  rw [get?_environment, if_pos ⟨bootstrap, rfl⟩]

/-- The environment of the bootstrap step under another configuration is the same with the other
output path. -/
theorem set_environment_of_bootstrap (bootstrap : step.isBootstrap = true) (id : Identity)
    (base : Environment) (conf conf' : Configuration) (home home' : Option String)
    (root root' : Bytes) :
    (step.environment id base conf home root).set (Utf8.ofString Environment.targetDirKey)
        (conf'.outputPath home' root') = step.environment id base conf' home' root' := by
  refine Environment.eq_of_get? fun key => ?_
  rw [Environment.get?_set]
  by_cases target : key = Utf8.ofString Environment.targetDirKey
  · rw [if_pos target, target, get?_target_of_bootstrap bootstrap]
  · have apart : ¬ (step.isBootstrap = true ∧ key = Utf8.ofString Environment.targetDirKey) :=
      fun set => target set.2
    rw [if_neg target, get?_environment, get?_environment, if_neg apart, if_neg apart]

/-- A run sees of its configuration no more than its command does. -/
theorem run_eq_of_command {id : Identity} {base : Environment}
    (same : step.command id base conf home root = step.command id base conf' home' root')
    (host : Host) :
    step.run host id base conf home root = step.run host id base conf' home' root' := by
  have environment := congrArg Launch.environment same
  exact congrArg (runCommand host step.argv · step.isBootstrap) environment

/-- **What the configuration changes.**  A run of a step launches exactly one child, the command of
the step, and its result is that of the child.  The command of a regular step, and with it all that
a run does, is the same under any two configurations, whatever text they are read from, under any
two home directories and any two roots; a target directory of the given environment reaches it as it
is.  Under one home directory and one root, two configurations with the same output directory make
no difference to the bootstrap step either; with two output paths its commands differ in the one
variable that holds them. -/
theorem redirects_only_bootstrap (host : Host) (step : Step) (id : Identity) (base : Environment)
    (conf conf' : Configuration) (home home' : Option String) (root root' : Bytes) :
    (∀ t, ∃ o t' events,
      (step.command id base conf home root).perform host.children t = (o, t') ∧
      Does (step.run host id base conf home root).run t
        (verdict step.argv step.isBootstrap o) events t' ∧
      Event.children events = [(step.command id base conf home root, o)]) ∧
    (step.isBootstrap = false →
      step.command id base conf home root = step.command id base conf' home' root' ∧
      step.run host id base conf home root = step.run host id base conf' home' root' ∧
      (step.command id base conf home root).environment.get? (Utf8.ofString "CARGO_TARGET_DIR") =
        base.get? (Utf8.ofString "CARGO_TARGET_DIR")) ∧
    (step.isBootstrap = true →
      (conf.outputDir = conf'.outputDir →
        step.command id base conf home root = step.command id base conf' home root ∧
        step.run host id base conf home root = step.run host id base conf' home root) ∧
      (conf.outputPath home root ≠ conf'.outputPath home' root' →
        (step.command id base conf home root).environment.get? (Utf8.ofString "CARGO_TARGET_DIR") ≠
          (step.command id base conf' home' root').environment.get?
            (Utf8.ofString "CARGO_TARGET_DIR")) ∧
      step.command id base conf' home' root' =
        { step.command id base conf home root with
          environment := (step.command id base conf home root).environment.set
            (Utf8.ofString "CARGO_TARGET_DIR") (conf'.outputPath home' root') }) := by
  have regularly (regular : step.isBootstrap = false) :
      step.command id base conf home root = step.command id base conf' home' root' := by
    unfold command
    rw [environment_of_regular regular, environment_of_regular regular]
  refine ⟨fun t => ?_, fun regular => ⟨regularly regular, ?_, ?_⟩,
    fun bootstrap => ⟨fun same => ?_, fun different => ?_, ?_⟩⟩
  · refine ⟨_, _, _, rfl, does_run rfl, ?_⟩
    rw [Event.children_append, Event.children_said]
    rfl
  · exact run_eq_of_command (regularly regular) host
  · exact get?_target_of_regular regular id base conf home root
  · have path : conf.outputPath home root = conf'.outputPath home root := by
      unfold Configuration.outputPath
      rw [same]
    have command : step.command id base conf home root = step.command id base conf' home root :=
      congrArg (Launch.command step.argv) (environment_congr path step id base)
    exact ⟨command, run_eq_of_command command host⟩
  · intro same
    have first := get?_target_of_bootstrap bootstrap id base conf home root
    have second := get?_target_of_bootstrap bootstrap id base conf' home' root'
    exact different (Option.some.inj (first.symm.trans (same.trans second)))
  · exact congrArg (Launch.command step.argv)
      (set_environment_of_bootstrap bootstrap id base conf conf' home home' root root').symm

end Step

end BuildLauncher
