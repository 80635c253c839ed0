import BuildLauncher.Proofs.Launcher.Children
import BuildLauncher.Proofs.Path

/-!
# The output path

Where the output of a bootstrap step goes, for every output directory that a configuration may name.

* `Launcher.last_of_asked`: the last child of a run that is asked for a step.
* `Configuration.outputPath_of_absolute`, `Configuration.outputPath_of_atHome`,
  `Configuration.outputPath_of_relative`: the three kinds of output directories.
* `Configuration.outputPath_of_outputDir`: an absolute path is found again.
* `Configuration.outputPath_of_root`: all of it below an absolute root, and what a bootstrap build
  passes on.
-/

namespace BuildLauncher

/-- A run that is asked for a step, in a working directory that can be read, launches the command of
that step once, from that directory and on the tree that the questions before it leave. -/
theorem Launcher.last_of_asked {host : Host} {args : List Bytes} {i : Invocation} {step : Step}
    {root : Bytes} (asked : CommandLine.read args = .ok (some i)) (stands : i.step? = some step)
    (cwd : host.workingDirectory = .ok root) (tree : FileTree) :
    ∃ earlier t id last, host.children.Ran tree earlier t ∧
      Event.children (session host args tree).events =
        earlier ++ [(step.launch host id root t, last)] ∧
      Event.steps (session host args tree).events = [(step.launch host id root t, last)] := by
  obtain ⟨r, events, t', course, ran⟩ := course_of_step host step tree
  rw [Event.steps, children_of_asked host tree asked stands, stepChildren_of_does ran]
  obtain ⟨check, warning, t₁, checked, ⟨e, failed, -, -, -⟩ |
    ⟨root', branch, date, hash, t₂, last, cwd', answered, -, -, children⟩⟩ := course.children
  · rw [cwd] at failed
    cases failed
  · rw [cwd] at cwd'
    cases cwd'
    refine ⟨_, t₂, .ofOutcomes branch date hash, last, checked.ran.append answered, children, ?_⟩
    rw [children, List.filter_append, List.filter_append, checked.filter_step]
    rfl

namespace Configuration

variable {conf : Configuration} {home : String} {root : Bytes} {rest : List Char}

/-! ## The kinds of output directories -/

theorem outputPath_of_absolute (absolute : Path.isAbsolute (Utf8.ofString conf.outputDir) = true)
    (home : Option String) (root : Bytes) :
    conf.outputPath home root = Utf8.ofString conf.outputDir := by
  have expanded := Path.expandHome_of_absolute home absolute
  rw [outputPath, expanded, Path.join_of_absolute absolute]

/-- A relative home directory is looked for below the root. -/
theorem outputPath_of_atHome (rooted : Path.isAbsolute root = true) (named : home ≠ "")
    (atHome : Path.AtHome conf.outputDir rest) :
    conf.outputPath (some home) root =
      if Path.isAbsolute (Utf8.ofString home) then Utf8.ofString home ++ Utf8.encode rest
      else Path.below root (Utf8.ofString home ++ Utf8.encode rest) := by
  have inside : root ≠ [] := Path.ne_nil_of_absolute rooted
  have kind : Path.isAbsolute (Utf8.ofString home ++ Utf8.encode rest) =
      Path.isAbsolute (Utf8.ofString home) :=
    Path.isAbsolute_append (Utf8.ofString_ne_nil named) _
  rw [outputPath, Path.expandHome_of_atHome home atHome, Utf8.ofString_append]
  cases homed : Path.isAbsolute (Utf8.ofString home) with
  | true =>
    rw [homed] at kind
    exact Path.join_of_absolute kind root
  | false =>
    rw [homed] at kind
    exact Path.join_of_relative inside kind

theorem outputPath_of_relative (rooted : Path.isAbsolute root = true)
    (relative : Path.isAbsolute (Utf8.ofString conf.outputDir) = false)
    (other : ∀ rest, ¬ Path.AtHome conf.outputDir rest) (home : Option String) :
    conf.outputPath home root = Path.below root (Utf8.ofString conf.outputDir) := by
  have inside : root ≠ [] := Path.ne_nil_of_absolute rooted
  rw [outputPath, Path.expandHome_of_not_atHome home other, Path.join_of_relative inside relative]

theorem isAbsolute_outputPath (rooted : Path.isAbsolute root = true) (conf : Configuration)
    (home : Option String) : Path.isAbsolute (conf.outputPath home root) = true :=
  Path.isAbsolute_join rooted _

/-- An absolute path that is configured as the output directory is the output path. -/
theorem outputPath_of_outputDir {path : Bytes} {text : String}
    (absolute : Path.isAbsolute path = true) (valid : Utf8.decode? path = some text)
    (configured : conf.outputDir = text) (home : Option String) (root : Bytes) :
    conf.outputPath home root = path := by
  have spelled : path = Utf8.ofString conf.outputDir := by
    rw [Utf8.decode?_eq_some_iff.mp valid, configured]
  rw [spelled] at absolute ⊢
  exact outputPath_of_absolute absolute home root

/-! ## Below an absolute root -/

/-- The target directory that a bootstrap build passes on is the output path of the configuration
that is read behind the questions. -/
theorem exists_target_of_bootstrap {host : Host} {args : List Bytes} {manifest : Bytes}
    (asked : CommandLine.read args = .ok (some (.build (some manifest))))
    (cwd : host.workingDirectory = .ok root) (tree : FileTree) :
    ∃ earlier t command last, host.children.Ran tree earlier t ∧
      Event.children (Launcher.session host args tree).events = earlier ++ [(command, last)] ∧
      Event.steps (Launcher.session host args tree).events = [(command, last)] ∧
      command.environment.get? (Utf8.ofString "CARGO_TARGET_DIR") =
        some ((load t [] (path root)).outputPath host.home? root) := by
  obtain ⟨earlier, t, id, last, ran, children, one⟩ :=
    Launcher.last_of_asked asked rfl cwd tree
  have overlaid := Launcher.get?_launch host (.bootstrap manifest) id root t
    (Utf8.ofString "CARGO_TARGET_DIR")
  exact ⟨earlier, t, _, last, ran, children, one, overlaid.trans (if_pos ⟨rfl, rfl⟩)⟩

/-- **The output path.**  Below an absolute root the output path is absolute.  An absolute output
directory is the path itself; a tilde that is the whole output directory or comes before its first
slash is the home directory; everything else, and what a tilde comes to under a relative home
directory, is put below the root, character by character.  The path stays what it is when it is
configured as the output directory, wherever that is read.  So the target directory that a bootstrap
build passes on is absolute; and when the environment names the home directory, it is the output
path with that home directory, by the configuration that is there once the questions before the
build have been asked. -/
theorem outputPath_of_root (rooted : Path.isAbsolute root = true) (named : home ≠ "")
    (conf : Configuration) :
    Path.isAbsolute (conf.outputPath (some home) root) = true ∧
    (Path.isAbsolute (Utf8.ofString conf.outputDir) = true →
      conf.outputPath (some home) root = Utf8.ofString conf.outputDir) ∧
    (∀ rest, Path.AtHome conf.outputDir rest →
      conf.outputPath (some home) root =
        if Path.isAbsolute (Utf8.ofString home) then Utf8.ofString home ++ Utf8.encode rest
        else Path.below root (Utf8.ofString home ++ Utf8.encode rest)) ∧
    (Path.isAbsolute (Utf8.ofString conf.outputDir) = false →
      (∀ rest, ¬ Path.AtHome conf.outputDir rest) →
      conf.outputPath (some home) root = Path.below root (Utf8.ofString conf.outputDir)) ∧
    (∀ text, Utf8.decode? (conf.outputPath (some home) root) = some text →
      ∀ (conf' : Configuration) home' root', conf'.outputDir = text →
        conf'.outputPath home' root' = conf.outputPath (some home) root) ∧
    ∀ (host : Host) args manifest tree,
      CommandLine.read args = .ok (some (.build (some manifest))) →
      host.workingDirectory = .ok root →
      ∃ earlier t command last target, host.children.Ran tree earlier t ∧
        Event.children (Launcher.session host args tree).events = earlier ++ [(command, last)] ∧
        Event.steps (Launcher.session host args tree).events = [(command, last)] ∧
        command.environment.get? (Utf8.ofString "CARGO_TARGET_DIR") = some target ∧
        Path.isAbsolute target = true ∧
        (host.environment.get? (Utf8.ofString "HOME") = some (Utf8.ofString home) →
          target = (load t [] (path root)).outputPath (some home) root) := by
  have absolutely : Path.isAbsolute (conf.outputPath (some home) root) = true :=
    isAbsolute_outputPath rooted conf (some home)
  refine ⟨absolutely, fun absolute => outputPath_of_absolute absolute (some home) root,
    fun rest atHome => outputPath_of_atHome rooted named atHome,
    fun relative other => outputPath_of_relative rooted relative other (some home), ?_, ?_⟩
  · intro text valid conf' home' root' configured
    exact outputPath_of_outputDir absolutely valid configured home' root'
  · intro host args manifest tree asked cwd
    obtain ⟨earlier, t, command, last, ran, children, one, target⟩ :=
      exists_target_of_bootstrap asked cwd tree
    refine ⟨earlier, t, command, last, _, ran, children, one, target,
      isAbsolute_outputPath rooted _ _, fun set => ?_⟩
    have found : host.home? = some home := by
      rw [Host.home?_of_set set (Utf8.ofString_ne_nil named), Utf8.decode?_eq_some_iff]
    rw [found]

/-- A host whose environment names a home directory. -/
def userHost : Host where
  environment := Environment.empty.set (Utf8.ofString "HOME") (Utf8.ofString "/home/ada")
  workingDirectory := .ok (Utf8.ofString "/srv/hartex/")
  children := fun t _ => ({ ending := .exited 0 }, t)

/-- A project that is built into a directory of the user. -/
def userTree : FileTree where
  entries := [
    ([Utf8.ofString "srv"], .directory),
    ([Utf8.ofString "srv", Utf8.ofString "hartex"], .directory),
    ([Utf8.ofString "srv", Utf8.ofString "hartex", Utf8.ofString fileName],
      .file (Utf8.ofString "[build]\noutput-dir = \"~/out\"\n") false)]

theorem load_userTree :
    load userTree [] (path (Utf8.ofString "/srv/hartex/")) = { build := some (some "~/out") } := by
  decide +kernel

/-- A directory of the user, found from a project of the user, and a bootstrap build there. -/
theorem outputPath_of_user :
    Path.isAbsolute (Utf8.ofString "/srv/hartex/") = true ∧ "/home/ada" ≠ "" ∧
    ({ build := some (some "~/out") } : Configuration).outputPath (some "/home/ada")
        (Utf8.ofString "/srv/hartex/") = Utf8.ofString "/home/ada/out" ∧
    ∃ earlier command last,
      Event.children (Launcher.session userHost
        (["x", "build", "--manifest-path", "Cargo.toml"].map Utf8.ofString) userTree).events =
          earlier ++ [(command, last)] ∧
      command.environment.get? (Utf8.ofString "CARGO_TARGET_DIR") =
        some (Utf8.ofString "/home/ada/out") := by
  have rooted : Path.isAbsolute (Utf8.ofString "/srv/hartex/") = true := by decide
  have named : "/home/ada" ≠ "" := by decide
  have asked :
      CommandLine.read (["x", "build", "--manifest-path", "Cargo.toml"].map Utf8.ofString) =
        .ok (some (.build (some (Utf8.ofString "Cargo.toml")))) := rfl
  obtain ⟨-, -, atHome, -, -, bootstrap⟩ :=
    outputPath_of_root rooted named { build := some (some "~/out") }
  have out := atHome ['/', 'o', 'u', 't'] ⟨rfl, .inr rfl⟩
  refine ⟨rooted, named, out, ?_⟩
  obtain ⟨earlier, t, command, last, target, ran, children, -, passed, -, underHome⟩ :=
    bootstrap userHost _ _ userTree asked rfl
  obtain rfl : t = userTree := ran.tree_eq fun _ _ => rfl
  refine ⟨earlier, command, last, children, ?_⟩
  rw [passed, underHome rfl, load_userTree, out]
  rfl

end Configuration

end BuildLauncher
