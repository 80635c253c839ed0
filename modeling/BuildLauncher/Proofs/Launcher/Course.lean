import BuildLauncher.Launcher
import BuildLauncher.Proofs.Session

/-!
# The course of a cargo verb

Everything that happens when the launcher runs a step, in order.  `Launcher.Course` lists it: with
an unreadable working directory only the toolchain is checked; otherwise the three questions about
the commit follow, and then the one command of the step.  Which of the two it is does not depend on
any child.

* `Launcher.Course.does`, `Launcher.course_of_step`: a step takes such a course, on every file tree.
* `Act.verdict_eq_ok_iff`: the command counts as a success only when it exits with zero.
* `Launcher.Course.children`, `Launcher.Course.steps`: the children of a course, and the one among
  them that is no question.
-/

namespace BuildLauncher

open Act

/-! ## Questions -/

/-- A question to a program, as it is launched. -/
def Launch.query (host : Host) (directory : Option Bytes) (argv : List String) : Launch where
  argv := argv
  environment := host.environment
  directory := directory
  role := .query

/-- The command of a step, as it is launched. -/
def Launch.command (argv : List String) (env : Environment) : Launch where
  argv := argv
  environment := env
  role := .step

/-- A question is answered by the outcome of its child. -/
theorem Act.does_ask {host : Host} {directory : Option Bytes} {argv : List String}
    {t t' : FileTree} {o : Outcome}
    (ended : (Launch.query host directory argv).perform host.children t = (o, t')) :
    Does (ask host directory argv) t o.answer? [.launched (.query host directory argv) o] t' := by
  have launched := does_launch host (.query host directory argv) t
  rw [ended] at launched
  exact (Does.bind launched (Does.pure o.answer?)).congr (List.append_nil _)

namespace Toolchain

/-- The launches of a check of the toolchain. -/
def launches (host : Host) : List Launch :=
  if isSilenced host.environment then [] else [.query host none versionQuery]

/-- A check of the toolchain launches the given children, comes to the given warning and leaves the
tree `t'`. -/
structure Checked (host : Host) (t : FileTree) (warning : Option String)
    (children : List (Launch × Outcome)) (t' : FileTree) : Prop where
  ran : host.children.Ran t children t'
  launches_eq : children.map Prod.fst = launches host
  does : Does (check host host.environment) t warning (children.map .ofChild) t'

theorem does_check_of_silenced {env : Environment} (silenced : isSilenced env = true) (host : Host)
    (t : FileTree) : Does (check host env) t none [] t := by
  rw [check, if_pos silenced]
  exact Does.pure none

/-- Unless it is silenced, the check asks for the installed version. -/
theorem does_check {env : Environment} (silenced : ¬ isSilenced env = true) {host : Host}
    {t t' : FileTree} {o : Outcome}
    (ended : (Launch.query host none versionQuery).perform host.children t = (o, t')) :
    Does (check host env) t ((o.answer?.bind versionOf?).bind warning?)
      [.launched (.query host none versionQuery) o] t' := by
  rw [check, if_neg silenced]
  exact Does.bind (does_ask ended) (Does.pure _)

theorem exists_checked (host : Host) (t : FileTree) :
    ∃ warning children t', Checked host t warning children t' := by
  by_cases silenced : isSilenced host.environment = true
  · refine ⟨none, [], t, .nil t, ?_, does_check_of_silenced silenced host t⟩
    rw [launches, if_pos silenced]
    rfl
  · refine ⟨_, [(.query host none versionQuery, _)], _, .one _, ?_, does_check silenced rfl⟩
    rw [launches, if_neg silenced]
    rfl

/-- The check only asks questions. -/
theorem Checked.filter_step {host : Host} {t t' : FileTree} {warning : Option String}
    {children : List (Launch × Outcome)} (checked : Checked host t warning children t') :
    (children.filter fun child => child.1.role = .step) = [] := by
  have same : (children.map Prod.fst).filter (fun l => l.role = .step) = [] := by
    rw [checked.launches_eq, launches]
    split <;> rfl
  rw [List.filter_map] at same
  exact List.map_eq_nil_iff.mp same

end Toolchain

namespace Identity

/-- The launches of the questions about the commit. -/
def launches (host : Host) (root : Bytes) : List Launch :=
  [branchQuery, dateQuery, hashQuery hashWidth].map (.query host (some root))

/-- The identity that three answers give. -/
def ofOutcomes (branch date hash : Outcome) : Identity where
  channel := .ofBranch (branch.answer?.getD "")
  date := date.answer?.getD ""
  hash := hash.answer?.getD ""

/-- The line of progress about an identity. -/
def progress (host : Host) (branch : Outcome) (id : Identity) : List Said :=
  Report.status host.terminals "identity"
    ("branch '" ++ branch.answer?.getD "" ++ "' -> " ++ id.channel.name ++ " (" ++
      id.versionString ++ ")")

/-- The three questions are asked one after the other, whatever the answers. -/
theorem does_resolve {host : Host} {root : Bytes} {t t' : FileTree} {branch date hash : Outcome}
    (ran : host.children.Ran t ((launches host root).zip [branch, date, hash]) t') :
    Does (resolve host root) t (ofOutcomes branch date hash)
      (((launches host root).zip [branch, date, hash]).map .ofChild ++
        (progress host branch (ofOutcomes branch date hash)).map .said) t' := by
  obtain _ | ⟨first, _ | ⟨second, _ | ⟨third, ended⟩⟩⟩ := ran
  cases ended
  change Does _ t _ ([_] ++ ([_] ++ ([_] ++ _))) t'
  refine Does.bind (does_ask first) ?_
  refine Does.bind (does_ask second) ?_
  refine Does.bind (does_ask third) ?_
  refine (Does.bind (does_sayAll _) ?_).congr (List.append_nil _)
  exact Does.pure _

theorem exists_ran (host : Host) (root : Bytes) (t : FileTree) :
    ∃ branch date hash t',
      host.children.Ran t ((launches host root).zip [branch, date, hash]) t' := by
  let ask (argv : List String) (t : FileTree) : Outcome × FileTree :=
    (Launch.query host (some root) argv).perform host.children t
  let branch := ask branchQuery t
  let date := ask dateQuery branch.2
  let hash := ask (hashQuery hashWidth) date.2
  exact ⟨branch.1, date.1, hash.1, hash.2, .cons rfl (.cons rfl (.one _))⟩

end Identity

/-! ## The command of a step -/

namespace Act

/-- What a command comes to, by the outcome of its child. -/
def verdict (argv : List String) (bootstrap : Bool) (o : Outcome) : Except Failure Unit :=
  match o.failure? (Launch.commandLine argv) with
  | none => .ok ()
  | some details => .error (if bootstrap then .ofBootstrap details else .ofCommand details)

theorem verdict_eq_ok_iff {argv : List String} {bootstrap : Bool} {o : Outcome} :
    verdict argv bootstrap o = .ok () ↔ o.ending = .exited 0 := by
  rcases o with ⟨ending, output⟩
  cases ending with
  | exited code =>
    by_cases zero : code = 0
    · simp [verdict, Outcome.failure?, zero]
    · simp [verdict, Outcome.failure?, zero]
  | signalled signal => simp [verdict, Outcome.failure?]
  | notStarted reason => simp [verdict, Outcome.failure?]

/-- A command that fails is a failure of its kind, with the exit code one. -/
theorem exitCode_of_verdict {argv : List String} {bootstrap : Bool} {o : Outcome} {f : Failure}
    (failed : verdict argv bootstrap o = .error f) : f.code.exitCode = 1 := by
  unfold verdict at failed
  split at failed
  · cases failed
  · cases failed
    cases bootstrap <;> rfl

theorem does_runCommand {host : Host} {argv : List String} {env : Environment} (bootstrap : Bool)
    {t t' : FileTree} {o : Outcome} (named : argv ≠ [])
    (ended : (Launch.command argv env).perform host.children t = (o, t')) :
    Does (runCommand host argv env bootstrap).run t (verdict argv bootstrap o)
      ((Report.status host.terminals "run" (Launch.commandLine argv)).map .said ++
        [.launched (.command argv env) o]) t' := by
  have launched := does_launch host (.command argv env) t
  rw [ended] at launched
  unfold runCommand
  rw [if_neg named]
  refine Does.tryBind (Does.lift (does_sayAll _)) ?_
  refine (Does.tryBind (Does.lift launched) ?_).congr (List.append_nil _)
  unfold verdict
  cases o.failure? (Launch.commandLine argv) with
  | none => exact Does.tryPure ()
  | some details => exact Does.throw _

end Act

theorem Step.argv_ne_nil (step : Step) : step.argv ≠ [] := by
  cases step <;> exact List.cons_ne_nil _ _

/-- The launch of a step with an identity, from a working directory, on the tree `t`. -/
def Step.launch (host : Host) (step : Step) (id : Identity) (root : Bytes) (t : FileTree) :
    Launch :=
  .command step.argv (step.environment id host.environment
    (Configuration.load t [] (Configuration.path root)) host.home? root)

/-! ## The whole step -/

namespace Launcher

/-- The failure of a run that cannot find out its working directory. -/
def noWorkingDirectory (e : SystemError) : Failure :=
  .ofSystem e.message (some "resolve working directory")

/-- What happens before the working directory is needed. -/
def opening (check : List (Launch × Outcome)) (warning : Option String) : List Event :=
  .said (Report.line .out "stage 1: initializing build...") ::
    (check.map .ofChild ++ warning.toList.map fun text => .said (Report.line .err text))

/-- What happens from the questions about the commit up to the launch of the step. -/
def middle (host : Host) (step : Step) (id : Identity) (branch : Outcome)
    (answers : List (Launch × Outcome)) : List Event :=
  answers.map .ofChild ++ (Identity.progress host branch id).map .said ++
    .said (Report.line .out ("stage 2: " ++ step.banner)) ::
      (Report.status host.terminals "run" (Launch.commandLine step.argv)).map .said

/-- What is said once the child of a step has ended. -/
def closing : Except Failure Unit → List Event
  | .ok () => [.said (Report.line .out "done")]
  | .error _ => []

/-- The course of a step on the tree `t`: its result, what happens, and the tree afterwards. -/
inductive Course (host : Host) (step : Step) (t : FileTree) :
    Except Failure Unit → List Event → FileTree → Prop
  | unreadable {e : SystemError} {warning : Option String} {check : List (Launch × Outcome)}
      {t₁ : FileTree} :
    host.workingDirectory = .error e → Toolchain.Checked host t warning check t₁ →
    Course host step t (.error (noWorkingDirectory e)) (opening check warning) t₁
  | launched {root : Bytes} {warning : Option String} {check : List (Launch × Outcome)}
      {branch date hash last : Outcome} {t₁ t₂ t₃ : FileTree} :
    host.workingDirectory = .ok root → Toolchain.Checked host t warning check t₁ →
    host.children.Ran t₁ ((Identity.launches host root).zip [branch, date, hash]) t₂ →
    (step.launch host (.ofOutcomes branch date hash) root t₂).perform host.children t₂ =
      (last, t₃) →
    Course host step t (verdict step.argv step.isBootstrap last)
      (opening check warning ++
        middle host step (.ofOutcomes branch date hash) branch
          ((Identity.launches host root).zip [branch, date, hash]) ++
        .launched (step.launch host (.ofOutcomes branch date hash) root t₂) last ::
          closing (verdict step.argv step.isBootstrap last)) t₃

/-- What a step does once the toolchain has been checked. -/
def behindCheck (host : Host) (step : Step) : Try Unit := do
  let root ← workingDirectory host
  let id ← Identity.resolve host root
  let conf := Configuration.load (← get).tree [] (Configuration.path root)
  say (Report.line .out ("stage 2: " ++ step.banner))
  step.run host id host.environment conf host.home? root
  say (Report.line .out "done")

theorem does_runStep {host : Host} {step : Step} {t t₁ t₂ : FileTree} {warning : Option String}
    {check : List (Launch × Outcome)} {r : Except Failure Unit} {events : List Event}
    (checked : Toolchain.Checked host t warning check t₁)
    (behind : Does (behindCheck host step).run t₁ r events t₂) :
    Does (runStep host step).run t r (opening check warning ++ events) t₂ := by
  rw [opening, List.cons_append, List.append_assoc]
  refine Does.tryBind (Does.lift (does_say _)) ?_
  refine Does.tryBind (Does.lift checked.does) ?_
  cases warning with
  | none => exact behind
  | some text => exact Does.tryBind (Does.lift (does_say (Report.line .err text))) behind

/-- The command of a step, and what is said before it starts and about its success. -/
theorem does_command {host : Host} {step : Step} {id : Identity} {root : Bytes} {t t' : FileTree}
    {last : Outcome} (ended : (step.launch host id root t).perform host.children t = (last, t')) :
    Does (do
        say (Report.line .out ("stage 2: " ++ step.banner))
        step.run host id host.environment (Configuration.load t [] (Configuration.path root))
          host.home? root
        say (Report.line .out "done") : Try Unit).run t
      (verdict step.argv step.isBootstrap last)
      (.said (Report.line .out ("stage 2: " ++ step.banner)) ::
        ((Report.status host.terminals "run" (Launch.commandLine step.argv)).map .said ++
          .launched (step.launch host id root t) last ::
            closing (verdict step.argv step.isBootstrap last))) t' := by
  have ran := does_runCommand step.isBootstrap step.argv_ne_nil ended
  refine Does.tryBind (Does.lift (does_say _)) ?_
  cases result : verdict step.argv step.isBootstrap last with
  | ok done =>
    rw [result] at ran
    exact (Does.tryBind ran (Does.lift (does_say _))).congr (List.append_assoc _ _ _)
  | error f =>
    rw [result] at ran
    exact Does.tryStop ran

/-- A step that has a course takes it. -/
theorem Course.does {host : Host} {step : Step} {t t' : FileTree} {r : Except Failure Unit}
    {events : List Event} (course : Course host step t r events t') :
    Does (runStep host step).run t r events t' := by
  cases course with
  | @unreadable e warning check t₁ cwd checked =>
    refine (does_runStep checked (Does.tryStopOfExcept ?_)).congr (List.append_nil _)
    rw [workingDirectory, cwd]
    rfl
  | @launched root warning check branch date hash last t₁ t₂ t₃ cwd checked ran ended =>
    rw [List.append_assoc]
    refine does_runStep checked ?_
    rw [middle, List.append_assoc]
    refine Does.tryOfExcept (a := root) ?_ ?_
    · rw [workingDirectory, cwd]
      rfl
    · refine Does.tryBind (Does.lift (Identity.does_resolve ran)) ?_
      exact Does.tryGet (does_command ended)

theorem course_of_step (host : Host) (step : Step) (t : FileTree) :
    ∃ result events t', Course host step t result events t' ∧
      Does (runStep host step).run t result events t' := by
  obtain ⟨warning, check, t₁, checked⟩ := Toolchain.exists_checked host t
  cases cwd : host.workingDirectory with
  | error e =>
    have course : Course host step t _ _ t₁ := .unreadable cwd checked
    exact ⟨_, _, _, course, course.does⟩
  | ok root =>
    obtain ⟨branch, date, hash, t₂, ran⟩ := Identity.exists_ran host root t₁
    have course : Course host step t _ _ _ := .launched cwd checked ran rfl
    exact ⟨_, _, _, course, course.does⟩

/-! ## The children of a course -/

section Course

variable {host : Host} {step : Step} {t t' : FileTree} {r : Except Failure Unit}
  {events : List Event}

theorem children_opening (check : List (Launch × Outcome)) (warning : Option String) :
    Event.children (opening check warning) = check := by
  have said : warning.toList.map (fun text => Event.said (Report.line .err text)) =
      (warning.toList.map (Report.line .err)).map .said := by
    rw [List.map_map]
    rfl
  change Event.children (check.map .ofChild ++ _) = check
  rw [said, Event.children_append, Event.children_ofChild, Event.children_said, List.append_nil]

theorem children_middle (host : Host) (step : Step) (id : Identity) (branch : Outcome)
    (answers : List (Launch × Outcome)) :
    Event.children (middle host step id branch answers) = answers := by
  rw [middle, Event.children_append, Event.children_append, Event.children_ofChild,
    Event.children_said, List.append_nil]
  change answers ++ Event.children ((Report.status _ _ _).map .said) = answers
  rw [Event.children_said, List.append_nil]

theorem children_closing (r : Except Failure Unit) : Event.children (closing r) = [] := by
  cases r <;> rfl

/-- The children of a course: those of the check, and with a working directory the three questions
and the command of the step. -/
theorem Course.children (course : Course host step t r events t') :
    ∃ check warning t₁, Toolchain.Checked host t warning check t₁ ∧
      ((∃ e, host.workingDirectory = .error e ∧ r = .error (noWorkingDirectory e) ∧
          Event.children events = check ∧ t' = t₁) ∨
        ∃ root branch date hash t₂ last, host.workingDirectory = .ok root ∧
          host.children.Ran t₁ ((Identity.launches host root).zip [branch, date, hash]) t₂ ∧
          (step.launch host (.ofOutcomes branch date hash) root t₂).perform host.children t₂ =
            (last, t') ∧
          r = verdict step.argv step.isBootstrap last ∧
          Event.children events = check ++
            (Identity.launches host root).zip [branch, date, hash] ++
            [(step.launch host (.ofOutcomes branch date hash) root t₂, last)]) := by
  cases course with
  | @unreadable e warning check t₁ cwd checked =>
    exact ⟨check, warning, _, checked, .inl ⟨e, cwd, rfl, children_opening check warning, rfl⟩⟩
  | @launched root warning check branch date hash last t₁ t₂ t₃ cwd checked ran ended =>
    refine ⟨check, warning, t₁, checked,
      .inr ⟨root, branch, date, hash, t₂, last, cwd, ran, ended, rfl, ?_⟩⟩
    rw [Event.children_append, Event.children_append, children_opening, children_middle]
    congr 1
    exact congrArg (_ :: ·) (children_closing _)

/-- The command of a step is the only child that is no question. -/
theorem Course.steps (course : Course host step t r events t') :
    (∃ e, host.workingDirectory = .error e ∧ r = .error (noWorkingDirectory e) ∧
        Event.steps events = []) ∨
      ∃ root id t₂ last, host.workingDirectory = .ok root ∧
        r = verdict step.argv step.isBootstrap last ∧
        Event.steps events = [(step.launch host id root t₂, last)] := by
  obtain ⟨check, warning, t₁, checked, ⟨e, cwd, failed, children, -⟩ |
    ⟨root, branch, date, hash, t₂, last, cwd, -, -, ended, children⟩⟩ := course.children
  · refine .inl ⟨e, cwd, failed, ?_⟩
    rw [Event.steps, children, checked.filter_step]
  · refine .inr ⟨root, .ofOutcomes branch date hash, t₂, last, cwd, ended, ?_⟩
    rw [Event.steps, children, List.filter_append, List.filter_append, checked.filter_step]
    rfl

end Course

end Launcher

end BuildLauncher
