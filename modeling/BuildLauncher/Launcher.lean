import BuildLauncher.CommandLine.Invocation
import BuildLauncher.Configuration.File
import BuildLauncher.Session
import BuildLauncher.Step
import BuildLauncher.Toolchain

/-!
# The launcher

What each invocation does.  A cargo verb checks the toolchain, finds out what is being built, reads
the configuration and launches one cargo command; configuring creates the configuration file; an
unknown command gets a hint.
-/

namespace BuildLauncher

/-! ## Questions -/

namespace Identity

/-- The name of the branch that is checked out. -/
def branchQuery : List String := ["git", "branch", "--show-current"]

/-- The date of the last commit. -/
def dateQuery : List String := ["git", "log", "-1", "--date=short", "--pretty=format:%cd"]

/-- The hash of the last commit, in so many digits. -/
def hashQuery (width : Nat) : List String :=
  ["git", "rev-parse", "--short=" ++ toString width, "HEAD"]

/-- Finds out what is being built in a directory.  A question without an answer leaves its field
empty. -/
def resolve (host : Host) (directory : Bytes) : Act Identity := do
  let branch := (← Act.ask host (some directory) branchQuery).getD ""
  let date := (← Act.ask host (some directory) dateQuery).getD ""
  let hash := (← Act.ask host (some directory) (hashQuery hashWidth)).getD ""
  let id : Identity := { channel := .ofBranch branch, date, hash }
  Act.sayAll (Report.status host.terminals "identity"
    ("branch '" ++ branch ++ "' -> " ++ id.channel.name ++ " (" ++ id.versionString ++ ")"))
  pure id

end Identity

namespace Toolchain

/-- The question for the installed version. -/
def versionQuery : List String := ["cargo", "--version"]

/-- The warning about an installed version that is too old, unless an environment silences it.  A
version that cannot be read is none. -/
def check (host : Host) (env : Environment) : Act (Option String) :=
  if isSilenced env then pure none
  else do
    let report? ← Act.ask host none versionQuery
    pure ((report?.bind versionOf?).bind warning?)

end Toolchain

/-! ## Commands -/

namespace Act

/-- Runs a command with exactly the given environment.  It fails unless the command exits with
success; `bootstrap` selects the kind of failure. -/
def runCommand (host : Host) (argv : List String) (environment : Environment) (bootstrap : Bool) :
    Try Unit := do
  if argv = [] then
    throw (.ofArgument "argv" "command must name a program")
  let command := Launch.commandLine argv
  sayAll (Report.status host.terminals "run" command)
  let outcome ← launch host { argv, environment, role := .step }
  match outcome.failure? command with
  | none => pure ()
  | some details =>
    throw (if bootstrap then .ofBootstrap details else .ofCommand details)

end Act

/-- Runs a step in its environment on top of a given one. -/
def Step.run (host : Host) (step : Step) (id : Identity) (base : Environment)
    (conf : Configuration) (home : Option String) (root : Bytes) : Try Unit :=
  Act.runCommand host step.argv (step.environment id base conf home root) step.isBootstrap

namespace Launcher

/-- The path of the working directory. -/
def workingDirectory (host : Host) : Except Failure Bytes :=
  host.workingDirectory.mapError fun e =>
    .ofSystem e.message (some "resolve working directory")

/-- Does everything that a cargo verb does, for the step that belongs to it. -/
def runStep (host : Host) (step : Step) : Try Unit := do
  Act.say (Report.line .out "stage 1: initializing build...")
  if let some warning ← Toolchain.check host host.environment then
    Act.say (Report.line .err warning)
  let root ← workingDirectory host
  let id ← Identity.resolve host root
  let conf := Configuration.load (← get).tree [] (Configuration.path root)
  Act.say (Report.line .out ("stage 2: " ++ step.banner))
  step.run host id host.environment conf host.home? root
  Act.say (Report.line .out "done")

/-- The step that a build stands for: the bootstrap step when it names a manifest. -/
def buildStep : Option Bytes → Except Failure Step
  | none => .ok .release
  | some [] =>
    .error ((Failure.ofArgument "manifest-path" "manifest path must not be empty").withHint
      "pass the path of the bootstrap tooling's Cargo.toml")
  | some manifest => .ok (.bootstrap manifest)

/-- What the user reads about a new configuration file. -/
def templateSummary (t : Terminals) : List Said :=
  ["", Report.bold t "default configuration", "  cache backend: postgres",
    "  load balancer: 1 server", "    - type: rest, address: 127.0.0.1:8000", ""].map
    (Report.line .out)

/-- Creates the configuration file of the working directory.  A file that exists is no failure. -/
def configure (host : Host) : Try Unit := do
  let t := host.terminals
  let root ← workingDirectory host
  Act.say (Report.line .out "x: checking for existing build configuration file(s)")
  let configured ← modifyGet fun s =>
    let (result, tree) := Configuration.configure s.tree host.writing [] root
    (result, { s with tree })
  match ← (liftExcept configured) with
  | .alreadyExists _ =>
    Act.say (Report.line .out ("x: " ++ Report.errorLabel t ++
      "one or more configuration file(s) already exist(s). exiting."))
    Act.say (Report.line .out ("x: " ++ Report.noteLabel t ++
      "if you want to reconfigure the build environment, run the \x60reconfigure\x60 command."))
  | .created path =>
    Act.say (Report.line .out "x: creating build configuration file")
    Act.sayAll (Report.status t "configure" ("wrote " ++ Utf8.lossy path))
    Act.sayAll (templateSummary t)
where
  /-- An outcome as something that may fail. -/
  liftExcept {α : Type} (e : Except Failure α) : Try α := ExceptT.mk (pure e)

/-- Does what an invocation asks for. -/
def perform (host : Host) (invocation : Invocation) : Try Unit := do
  Act.sayAll (Report.progress host.terminals "x is working...")
  match invocation with
  | .configure => configure host
  | .build manifest =>
    let step ← ExceptT.mk (pure (buildStep manifest))
    runStep host step
  | .test => runStep host .test
  | .clippy => runStep host .clippy
  | .rustfmt => runStep host .rustfmt
  | .unknown words =>
    Act.sayAll (Report.status host.terminals "dispatch" ("unknown verb: " ++ " ".intercalate words))
    Act.say (Report.line .out
      "x: unknown command. run \x60python ./x.py help\x60 for help")

/-- The exit code of a result. -/
def exitCode : Except Failure Unit → Int32
  | .ok () => 0
  | .error f => f.code.exitCode

/-- A whole run of the program on a command line, up to the exit status of its process. -/
def main (host : Host) (args : List Bytes) : Act UInt8 := do
  match CommandLine.read args with
  | .error r =>
    Act.say (r.stream, r.message (CommandLine.binName? args))
    pure (Report.exitStatus r.exitCode)
  | .ok none =>
    Act.say (.out, CommandLine.Page.launcher.help none ++ "\n")
    pure 0
  | .ok (some invocation) =>
    let result ← (perform host invocation).run
    if let .error f := result then
      Act.sayAll (Report.failure host.terminals f)
    let code := exitCode result
    if invocation.launchesCargo then
      Act.say (Report.line .out "")
      Act.say (Report.line .out (Report.summary code host.duration))
    pure (Report.exitStatus code)

end Launcher

end BuildLauncher
