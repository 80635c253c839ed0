import BuildLauncher.Proofs.CommandLine.Options
import BuildLauncher.Proofs.Launcher.Course

/-!
# A whole run

What the launcher does on a command line, up to its exit status.  A command line that asks for a
step takes the course of that step; the others launch nothing.

* `Launcher.does_main_of_refusal`, `Launcher.does_main_of_none`, `Launcher.does_main_of_command`,
  `Launcher.does_main_of_unknown`, `Launcher.does_main_of_step`: the ways through a run.
* `Launcher.does_perform_step`, `Launcher.does_configure`, `Launcher.does_perform_unknown`: the
  commands.
-/

namespace BuildLauncher

open Act

/-- The step that a command stands for. -/
def Invocation.step? : Invocation → Option Step
  | .build none => some .release
  | .build (some manifest) => some (.bootstrap manifest)
  | .test => some .test
  | .clippy => some .clippy
  | .rustfmt => some .rustfmt
  | .configure | .unknown _ => none

theorem Invocation.launchesCargo_eq_isSome_step? (i : Invocation) :
    i.launchesCargo = i.step?.isSome := by
  rcases i with _ | (_ | _) | _ | _ | _ | _ <;> rfl

namespace Launcher

/-! ## Commands -/

/-- The line of progress that every command starts with. -/
def working (host : Host) : List Event :=
  (Report.progress host.terminals "x is working...").map .said

theorem does_perform_step {host : Host} {i : Invocation} {step : Step} {t t' : FileTree}
    {r : Except Failure Unit} {events : List Event} (asked : i.step? = some step)
    (named : i ≠ .build (some [])) (ran : Does (runStep host step).run t r events t') :
    Does (perform host i).run t r (working host ++ events) t' := by
  refine Does.tryBind (Does.lift (does_sayAll _)) ?_
  cases i with
  | configure => cases asked
  | unknown words => cases asked
  | test => cases asked; exact ran
  | clippy => cases asked; exact ran
  | rustfmt => cases asked; exact ran
  | build manifest =>
    rcases manifest with _ | (_ | ⟨b, path⟩)
    · cases asked
      exact Does.tryOfExcept rfl ran
    · exact (named rfl).elim
    · cases asked
      exact Does.tryOfExcept rfl ran

/-- What is said about a configuration file that exists or has been made. -/
def configured (t : Terminals) : Except Failure Configuration.Configured → List Said
  | .error _ => []
  | .ok (.alreadyExists _) =>
    [Report.line .out ("x: " ++ Report.errorLabel t ++
        "one or more configuration file(s) already exist(s). exiting."),
      Report.line .out ("x: " ++ Report.noteLabel t ++
        "if you want to reconfigure the build environment, run the \x60reconfigure\x60 command.")]
  | .ok (.created path) =>
    Report.line .out "x: creating build configuration file" ::
      (Report.status t "configure" ("wrote " ++ Utf8.lossy path) ++ templateSummary t)

theorem does_configure_of_error {host : Host} {e : SystemError} (t : FileTree)
    (cwd : host.workingDirectory = .error e) :
    Does (configure host).run t (.error (noWorkingDirectory e)) [] t := by
  refine Does.tryStopOfExcept ?_
  rw [workingDirectory, cwd]
  rfl

/-- Configuring changes the tree as the creation of the file does, and says how that ended. -/
theorem does_configure {host : Host} {root : Bytes} {t t' : FileTree}
    {r : Except Failure Configuration.Configured} (cwd : host.workingDirectory = .ok root)
    (made : Configuration.configure t host.writing [] root = (r, t')) :
    Does (configure host).run t (r.map fun _ => ())
      (.said (Report.line .out "x: checking for existing build configuration file(s)") ::
        (configured host.terminals r).map .said) t' := by
  refine Does.tryOfExcept (a := root) ?_ ?_
  · rw [workingDirectory, cwd]
    rfl
  refine Does.tryBind (Does.lift (does_say _)) ?_
  refine Does.tryModifyTree (Configuration.configure · host.writing [] root) made ?_
  rcases r with f | (path | path)
  · exact Does.tryStopOfExcept rfl
  · refine Does.tryOfExcept rfl (Does.tryBind (Does.lift (does_say _)) ?_)
    rw [List.map_append]
    refine Does.tryBind (Does.lift (does_sayAll _)) ?_
    exact Does.lift (does_sayAll _)
  · refine Does.tryOfExcept rfl (Does.tryBind (Does.lift (does_say _)) ?_)
    exact Does.lift (does_say _)

theorem does_perform_configure {host : Host} {t t' : FileTree} {r : Except Failure Unit}
    {events : List Event} (ran : Does (configure host).run t r events t') :
    Does (perform host .configure).run t r (working host ++ events) t' :=
  Does.tryBind (Does.lift (does_sayAll _)) ran

/-- The hint about an unknown command. -/
def guidance : String := "x: unknown command. run \x60python ./x.py help\x60 for help"

/-- What is said about an unknown command. -/
def unknownSaid (host : Host) (words : List String) : List Said :=
  Report.status host.terminals "dispatch" ("unknown verb: " ++ " ".intercalate words) ++
    [Report.line .out guidance]

theorem does_perform_unknown (host : Host) (words : List String) (t : FileTree) :
    Does (perform host (.unknown words)).run t (.ok ())
      (working host ++ (unknownSaid host words).map .said) t := by
  refine Does.tryBind (Does.lift (does_sayAll _)) ?_
  unfold unknownSaid
  rw [List.map_append]
  exact Does.tryBind (Does.lift (does_sayAll _)) (Does.lift (does_say _))

/-! ## Command lines -/

/-- What is said once a command has come to its result. -/
def ending (host : Host) (i : Invocation) (r : Except Failure Unit) : List Said :=
  (match r with
    | .error f => Report.failure host.terminals f
    | .ok () => []) ++
  if i.launchesCargo then
    [Report.line .out "", Report.line .out (Report.summary (exitCode r) host.duration)]
  else []

/-- What a run says before and after its command launches nothing. -/
theorem children_around (host : Host) (i : Invocation) (r : Except Failure Unit)
    (events : List Event) :
    Event.children (working host ++ events ++ (ending host i r).map .said) =
      Event.children events := by
  rw [Event.children_append, Event.children_append, working, Event.children_said,
    Event.children_said, List.nil_append, List.append_nil]

theorem does_main_of_refusal (host : Host) {args : List Bytes} {refusal : CommandLine.Refusal}
    (t : FileTree) (refused : CommandLine.read args = .error refusal) :
    Does (main host args) t (Report.exitStatus refusal.exitCode)
      [.said (refusal.stream, refusal.message (CommandLine.binName? args))] t := by
  unfold main
  rw [refused]
  refine (Does.bind (does_say _) ?_).congr (List.append_nil _)
  exact Does.pure _

theorem does_main_of_none (host : Host) {args : List Bytes} (t : FileTree)
    (empty : CommandLine.read args = .ok none) :
    Does (main host args) t 0
      [.said (.out, CommandLine.Page.launcher.help none ++ "\n")] t := by
  unfold main
  rw [empty]
  refine (Does.bind (does_say _) ?_).congr (List.append_nil _)
  exact Does.pure _

theorem does_main_of_command {host : Host} {args : List Bytes} {i : Invocation} {t t' : FileTree}
    {r : Except Failure Unit} {events : List Event}
    (asked : CommandLine.read args = .ok (some i))
    (ran : Does (perform host i).run t r events t') :
    Does (main host args) t (Report.exitStatus (exitCode r))
      (events ++ (ending host i r).map .said) t' := by
  have closed : Does (do
      if i.launchesCargo then
        say (Report.line .out "")
        say (Report.line .out (Report.summary (exitCode r) host.duration))
      pure (Report.exitStatus (exitCode r)) : Act UInt8) t' (Report.exitStatus (exitCode r))
      ((if i.launchesCargo then
          [Report.line .out "", Report.line .out (Report.summary (exitCode r) host.duration)]
        else []).map .said) t' := by
    cases i.launchesCargo with
    | true => exact Does.bind (does_say _) (Does.bind (does_say _) (Does.pure _))
    | false => exact Does.pure _
  unfold main
  rw [asked]
  refine Does.bind ran ?_
  unfold ending
  rw [List.map_append]
  cases r with
  | ok done => exact closed
  | error f => exact Does.bind (does_sayAll _) closed

/-- About an unknown command there is nothing to do but to say so. -/
theorem does_main_of_unknown (host : Host) {args : List Bytes} {words : List String} (t : FileTree)
    (asked : CommandLine.read args = .ok (some (.unknown words))) :
    Does (main host args) t 0 (working host ++ (unknownSaid host words).map .said) t :=
  (does_main_of_command asked (does_perform_unknown host words t)).congr (List.append_nil _)

/-- A command line that asks for a step takes the course of that step. -/
theorem does_main_of_step {host : Host} {args : List Bytes} {i : Invocation} {step : Step}
    {t t' : FileTree} {r : Except Failure Unit} {events : List Event}
    (asked : CommandLine.read args = .ok (some i)) (stands : i.step? = some step)
    (ran : Does (runStep host step).run t r events t') :
    Does (main host args) t (Report.exitStatus (exitCode r))
      (working host ++ events ++ (ending host i r).map .said) t' := by
  have named : i ≠ .build (some []) := by
    rintro rfl
    exact CommandLine.read_ne_build_nil args asked
  exact does_main_of_command asked (does_perform_step stands named ran)

end Launcher

end BuildLauncher
