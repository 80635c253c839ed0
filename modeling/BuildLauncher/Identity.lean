import BuildLauncher.Version

/-!
# What is being built

The channel that a branch is built for, and the identity of a build: its channel, the abbreviated
hash of its commit and that commit's date.  The version string carries all three to the build.
-/

namespace BuildLauncher

/-- The release track of a branch. -/
inductive Channel where
  | stable
  | nightly
  deriving DecidableEq

namespace Channel

/-- Only the branch of exactly this name is built for the stable channel. -/
def stableBranch : String := "stable"

/-- The channel that a branch is built for. -/
def ofBranch (branch : String) : Channel := if branch = stableBranch then stable else nightly

/-- The name of a channel. -/
def name : Channel → String
  | stable => "stable"
  | nightly => "nightly"

/-- Whether the channel is the stable one. -/
def isStable (channel : Channel) : Bool := channel = stable

/-- The version number released on a channel. -/
def version : Channel → Version
  | stable => { major := 1, minor := 26, patch := 0 }
  | nightly => { major := 1, minor := 27, patch := 0 }

end Channel

/-- Which commit is built, for which channel.  A commit that is not known leaves its texts empty. -/
structure Identity where
  channel : Channel
  date : String
  hash : String
  deriving DecidableEq

namespace Identity

/-- The number of digits of the abbreviated hash. -/
def hashWidth : Nat := 9

/-- `<version>-<channel> (<hash> <date>)`. -/
def versionString (id : Identity) : String :=
  toString id.channel.version ++ "-" ++ id.channel.name ++ " (" ++ id.hash ++ " " ++ id.date ++ ")"

end Identity

end BuildLauncher
