import BuildLauncher.Launch

/-!
# Sessions

Everything that a run of the launcher does, in order: what it says and which children it launches,
with the file tree as it is then.
-/

namespace BuildLauncher

/-- What the launcher runs on. -/
structure Host where
  /-- The environment of the launcher. -/
  environment : Environment
  /-- The home directory that the system has on record for the user, if it has one. -/
  recordedHome : Option Bytes := none
  /-- The path of its working directory, if that can be read. -/
  workingDirectory : Except SystemError Bytes
  terminals : Terminals := {}
  children : Children
  /-- How far writing to a new file gets. -/
  writing : FileTree.Writing := .complete
  /-- How long a build takes. -/
  duration : Duration := .zero

namespace Host

/-- The variable that names the home directory. -/
def homeKey : String := "HOME"

/-- The home directory: what the variable says, unless it is missing or empty, and else what the
system has on record.  One that is no UTF-8 is none. -/
def home? (host : Host) : Option String :=
  match host.environment.get? (Utf8.ofString homeKey) with
  | some (b :: rest) => Utf8.decode? (b :: rest)
  | some [] | none => host.recordedHome.bind Utf8.decode?

end Host

/-- One thing that happens. -/
inductive Event where
  | said (said : Said)
  | launched (launch : Launch) (outcome : Outcome)

/-- What has happened so far, and the file tree. -/
structure Session where
  tree : FileTree
  events : List Event := []

namespace Session

/-- Everything that has been written on the streams of the launcher, in order.  A child that shares
them writes there too. -/
def output (s : Session) : List (Stream × Bytes) :=
  s.events.flatMap fun
    | .said (stream, text) => [(stream, Utf8.ofString text)]
    | .launched launch outcome => if launch.role = .step then outcome.output else []

/-- Everything that has been written on one of the streams. -/
def written (s : Session) (stream : Stream) : Bytes :=
  (s.output.filter (·.1 = stream)).flatMap (·.2)

/-- What the launcher itself has said on one of the streams. -/
def saidOn (s : Session) (stream : Stream) : List String :=
  s.events.filterMap fun
    | .said (other, text) => if other = stream then some text else none
    | .launched _ _ => none

end Session

/-- Something that is done in a session. -/
abbrev Act := StateM Session

/-- Something that is done in a session and may fail. -/
abbrev Try := ExceptT Failure Act

namespace Act

/-- Says something. -/
def say (said : Said) : Act Unit :=
  modify fun s => { s with events := s.events ++ [.said said] }

/-- Says several things. -/
def sayAll (said : List Said) : Act Unit :=
  modify fun s => { s with events := s.events ++ said.map .said }

/-- Launches a child. -/
def launch (host : Host) (l : Launch) : Act Outcome :=
  modifyGet fun s =>
    let (outcome, tree) := l.perform host.children s.tree
    (outcome, { tree, events := s.events ++ [.launched l outcome] })

/-- Asks a program a question. -/
def ask (host : Host) (directory : Option Bytes) (argv : List String) : Act (Option String) := do
  let outcome ← launch host { argv, environment := host.environment, directory, role := .query }
  pure outcome.answer?

end Act

end BuildLauncher
