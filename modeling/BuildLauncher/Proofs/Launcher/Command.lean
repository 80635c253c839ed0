import BuildLauncher.Proofs.Environment
import BuildLauncher.Proofs.Failure
import BuildLauncher.Proofs.Launcher.Course

/-!
# What a command comes to

A command is launched with the environment it is given and nothing else, and reports how its child
ended.

* `Launch.hasNul_command`: what keeps a command from starting, whatever the children do.
* `Act.reports_of_verdict`: a command that does not succeed fails with the command line and the way
  its child ended, as a text and as data.
* `Act.command_reports`: what a command does, for every list of words and every environment.
-/

namespace BuildLauncher

/-! ## What a child is passed -/

namespace Launch

variable {argv : List String} {env : Environment}

/-- There is a NUL byte among what a child would be passed. -/
def CarriesNul (argv : List String) (env : Environment) : Prop :=
  (∃ word ∈ argv, 0 ∈ Utf8.ofString word) ∨
    ∃ key value, env.get? key = some value ∧ (0 ∈ key ∨ 0 ∈ value)

theorem hasNul_command : (command argv env).hasNul = true ↔ CarriesNul argv env := by
  have entry : env.toList.any (fun e => e.1.contains 0 || e.2.contains 0) = true ↔
      ∃ key value, env.get? key = some value ∧ (0 ∈ key ∨ 0 ∈ value) := by
    simp only [List.any_eq_true, Prod.exists, Bool.or_eq_true, List.contains_iff_mem,
      Environment.get?_eq_some_iff]
    rfl
  change (argv.any (fun word => (Utf8.ofString word).contains 0) ||
    env.toList.any (fun e => e.1.contains 0 || e.2.contains 0) || [].contains 0) = true ↔ _
  rw [List.contains_nil, Bool.or_false, Bool.or_eq_true, entry, List.any_eq_true]
  simp only [List.contains_iff_mem]
  rfl

/-- A launch passes on the given words and the given environment, and nothing else: it has one entry
`key=value` for each variable. -/
structure Passes (l : Launch) (argv : List String) (env : Environment) : Prop where
  argv_eq : l.argv = argv
  directory_eq : l.directory = none
  role_eq : l.role = .step
  length_entries : l.entries.length = env.size
  mem_entries (entry : Bytes) : entry ∈ l.entries ↔
    ∃ key value, env.get? key = some value ∧ entry = key ++ 0x3D :: value

theorem passes_command : (command argv env).Passes argv env := by
  refine ⟨rfl, rfl, rfl, List.length_map _, fun entry => ?_⟩
  simp only [entries, List.mem_map, Prod.exists, Environment.get?_eq_some_iff]
  exact exists₂_congr fun key value => and_congr Iff.rfl eq_comm

end Launch

/-! ## How a command failed -/

/-- The line about the way a child ended that did not succeed, with the line break before it. -/
def Ending.remark : Ending → String
  | exited code => "\nexpected success, got exit code: " ++ toString code.toNat
  | signalled _ => "\nprocess terminated without an exit code"
  | notStarted reason => "\nfailed to start: " ++ reason

/-- The details are about the given words and the given way to end: the exit code is there when the
child exited, the reason when it did not start, and neither of the two when a signal ended it. -/
structure Failure.CommandDetails.Tells (d : CommandDetails) (argv : List String)
    (ending : Ending) : Prop where
  command : d.command = " ".intercalate argv
  exitCode (n : Int32) : d.exitCode = some n ↔
    ∃ code, ending = .exited code ∧ code ≠ 0 ∧ n.toInt = code.toNat
  launchError (reason : String) : d.launchError = some reason ↔ ending = .notStarted reason
  neither : d.exitCode = none ∧ d.launchError = none ↔ ∃ signal, ending = .signalled signal

namespace Act

/-- The failure is that of a command with the given words whose child ended in the given way.  Its
message tells this too, unless it is the bootstrap command. -/
structure Reports (argv : List String) (bootstrap : Bool) (ending : Ending) (f : Failure) :
    Prop where
  code : f.code = if bootstrap then .bootstrap else .command
  message : f.message =
    if bootstrap then "bootstrap build failed"
    else "command did not execute successfully: " ++ " ".intercalate argv ++ ending.remark
  details : ∃ d, f.commandDetails? = some d ∧ d.Tells argv ending

variable {argv : List String} {bootstrap : Bool} {o : Outcome}

/-- An exit code as it stands in the details. -/
theorem toInt_exitCode (code : UInt8) : (Int32.ofNat code.toNat).toInt = code.toNat :=
  Int32.toInt_ofNat_of_lt (Nat.lt_trans code.toNat_lt (by decide))

/-- The three ways to fail. -/
theorem cases_of_failure? {command : String} {d : Failure.CommandDetails}
    (failed : o.failure? command = some d) :
    (∃ code, o.ending = .exited code ∧ code ≠ 0 ∧
        d = { command, exitCode := some (Int32.ofNat code.toNat) }) ∨
      (∃ signal, o.ending = .signalled signal ∧ d = { command }) ∨
      ∃ reason, o.ending = .notStarted reason ∧ d = { command, launchError := some reason } := by
  unfold Outcome.failure? at failed
  cases ended : o.ending with
  | exited code =>
    rw [ended] at failed
    by_cases zero : code = 0
    · simp [zero] at failed
    · simp only [zero, if_false, Option.some.injEq] at failed
      exact .inl ⟨code, rfl, zero, failed.symm⟩
  | signalled signal =>
    rw [ended] at failed
    exact .inr (.inl ⟨signal, rfl, (Option.some.inj failed).symm⟩)
  | notStarted reason =>
    rw [ended] at failed
    exact .inr (.inr ⟨reason, rfl, (Option.some.inj failed).symm⟩)

theorem tells_of_failure? {d : Failure.CommandDetails}
    (failed : o.failure? (Launch.commandLine argv) = some d) : d.Tells argv o.ending := by
  obtain ⟨code, ended, nonzero, rfl⟩ | ⟨signal, ended, rfl⟩ | ⟨reason, ended, rfl⟩ :=
    cases_of_failure? failed
  · rw [ended]
    refine ⟨rfl, fun n => ?_, by simp, by simp⟩
    constructor
    · intro same
      obtain rfl := Option.some.inj same
      exact ⟨code, rfl, nonzero, toInt_exitCode code⟩
    · rintro ⟨_, ⟨⟩, -, same⟩
      exact congrArg some (Int32.toInt_inj.mp ((toInt_exitCode code).trans same.symm))
  · rw [ended]
    exact ⟨rfl, by simp, by simp, by simp⟩
  · rw [ended]
    exact ⟨rfl, by simp, by simp, by simp⟩

theorem message_of_failure? {d : Failure.CommandDetails}
    (failed : o.failure? (Launch.commandLine argv) = some d) :
    d.message =
      "command did not execute successfully: " ++ " ".intercalate argv ++ o.ending.remark := by
  obtain ⟨code, ended, nonzero, rfl⟩ | ⟨signal, ended, rfl⟩ | ⟨reason, ended, rfl⟩ :=
    cases_of_failure? failed
  · change _ ++ ("\nexpected success, got exit code: " ++ toString (Int32.toInt _)) = _
    rw [ended, toInt_exitCode]
    rfl
  · rw [ended]
    rfl
  · rw [ended]
    rfl

theorem reports_of_verdict {f : Failure} (failed : verdict argv bootstrap o = .error f) :
    Reports argv bootstrap o.ending f := by
  unfold verdict at failed
  cases details : o.failure? (Launch.commandLine argv) with
  | none =>
    rw [details] at failed
    cases failed
  | some d =>
    rw [details] at failed
    cases failed
    have tells := tells_of_failure? details
    cases bootstrap with
    | true => exact ⟨rfl, rfl, d, Failure.commandDetails?_ofBootstrap d, tells⟩
    | false =>
      have message := message_of_failure? details
      exact ⟨rfl, message, d, Failure.commandDetails?_ofCommand d, tells⟩

/-! ## What a command does -/

/-- Without words nothing happens. -/
theorem does_runCommand_nil (host : Host) (env : Environment) (bootstrap : Bool) (t : FileTree) :
    Does (runCommand host [] env bootstrap).run t
      (.error (.ofArgument "argv" "command must name a program")) [] t :=
  Does.tryStop (Does.throw _)

theorem children_of_command (said : List Said) (l : Launch) (o : Outcome) :
    Event.children (said.map .said ++ [.launched l o]) = [(l, o)] := by
  rw [Event.children_append, Event.children_said]
  rfl

/-- A command without words fails before anything happens.  Any other launches one child, which is
passed exactly its words and its environment, and does not start when there is a NUL byte in them;
it succeeds when that child exits with zero, and otherwise fails with a report of how it ended.
The command of a step fails in no other way. -/
theorem command_reports (host : Host) (argv : List String) (env : Environment) (bootstrap : Bool)
    (t : FileTree) :
    (argv = [] → ∃ f : Failure, f.code = .invalidArgument ∧
      Does (runCommand host argv env bootstrap).run t (.error f) [] t) ∧
    (argv ≠ [] → ∃ r events l o t',
      Does (runCommand host argv env bootstrap).run t r events t' ∧
      Event.children events = [(l, o)] ∧ l.Passes argv env ∧
      (Launch.CarriesNul argv env → o.ending = .notStarted nulInLaunch ∧ t' = t) ∧
      (¬ Launch.CarriesNul argv env → host.children t l = (o, t')) ∧
      (r = .ok () ↔ o.ending = .exited 0) ∧
      ∀ f, r = .error f → Reports argv bootstrap o.ending f) ∧
    ∀ (step : Step) id conf home root, ∃ r events t',
      Does (step.run host id env conf home root).run t r events t' ∧
      ∀ f, r = .error f → f.code = if step.isBootstrap then .bootstrap else .command := by
  refine ⟨?_, ?_, ?_⟩
  · rintro rfl
    exact ⟨_, rfl, does_runCommand_nil host env bootstrap t⟩
  · intro named
    rcases ended : (Launch.command argv env).perform host.children t with ⟨o, t'⟩
    refine ⟨_, _, .command argv env, o, t', does_runCommand bootstrap named ended,
      children_of_command _ _ o, Launch.passes_command, fun nul => ?_, fun noNul => ?_,
      verdict_eq_ok_iff, fun f failed => reports_of_verdict failed⟩
    · rw [Launch.perform, if_pos (Launch.hasNul_command.mpr nul)] at ended
      cases ended
      exact ⟨rfl, rfl⟩
    · rwa [Launch.perform, if_neg (mt Launch.hasNul_command.mp noNul)] at ended
  · intro step id conf home root
    exact ⟨_, _, _, does_runCommand step.isBootstrap step.argv_ne_nil rfl,
      fun f failed => (reports_of_verdict failed).code⟩

end Act

end BuildLauncher
