import BuildLauncher.Configuration
import BuildLauncher.Environment
import BuildLauncher.Identity

/-!
# Build steps

The cargo commands that the launcher knows, each with its arguments, its progress line and its
environment.
-/

namespace BuildLauncher

/-- A cargo command.  The bootstrap step builds the build tooling itself, from a manifest of its
own. -/
inductive Step where
  | release
  | test
  | clippy
  | rustfmt
  | bootstrap (manifest : Bytes)
  deriving DecidableEq

namespace Step

/-- The words of the command. -/
def argv : Step → List String
  | release => ["cargo", "build", "--release"]
  | test => ["cargo", "test"]
  | clippy => ["cargo", "clippy", "--workspace"]
  | rustfmt => ["cargo", "fmt", "--all", "--", "--check"]
  | bootstrap manifest => ["cargo", "build", "--manifest-path", Utf8.lossy manifest]

/-- What is printed before the step starts. -/
def banner : Step → String
  | release => "compiling everything..."
  | test => "running tests..."
  | clippy => "running clippy..."
  | rustfmt => "running rustfmt..."
  | bootstrap _ => "building bootstrap tooling..."

/-- Whether the step builds the build tooling itself. -/
def isBootstrap : Step → Bool
  | bootstrap _ => true
  | _ => false

end Step

namespace Environment

/-- Tells the build whether it is a stable one. -/
def isStableKey : String := "CFG_IS_STABLE"

/-- Tells the build its version string. -/
def versionKey : String := "CFG_VERSION_STR"

/-- Redirects the output of a bootstrap step. -/
def targetDirKey : String := "CARGO_TARGET_DIR"

/-- Sets a variable to a text. -/
def setText (env : Environment) (key value : String) : Environment :=
  env.set (Utf8.ofString key) (Utf8.ofString value)

/-- The environment with the two variables that carry an identity. -/
def withIdentity (env : Environment) (id : Identity) : Environment :=
  (env.setText isStableKey (if id.channel.isStable then "true" else "false")).setText versionKey
    id.versionString

end Environment

/-- The environment of a step on top of a given one.  Only the bootstrap step looks at the
configuration. -/
def Step.environment (step : Step) (id : Identity) (base : Environment) (conf : Configuration)
    (home : Option String) (root : Bytes) : Environment :=
  let env := base.withIdentity id
  if step.isBootstrap then
    env.set (Utf8.ofString Environment.targetDirKey) (conf.outputPath home root)
  else env

end BuildLauncher
