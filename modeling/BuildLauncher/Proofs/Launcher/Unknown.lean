import BuildLauncher.Proofs.CommandLine.Unknown
import BuildLauncher.Proofs.Launcher.ExitStatus

/-!
# Runs without an effect

An unknown command gets a hint and the verb for help gets the help, and that is all that happens: no
child is launched and the file tree stays as it was.

* `Launcher.run_of_unknown`, `Launcher.run_of_refusal`: the runs of unknown commands and of refused
  command lines.
* `Launcher.main_help`: the verb for help and the option for help are the same to a run.
* `Launcher.unknown_and_help_inert`: both, for all words behind the first one.
-/

namespace BuildLauncher.Launcher

open Act
open CommandLine (IsUnknown textLine read_unknown read_unknown_of_broken read_help)

/-- The run launches no child, and leaves the file tree as it was. -/
structure Inert (host : Host) (args : List Bytes) (tree : FileTree) : Prop where
  children : Event.children (session host args tree).events = []
  tree : (session host args tree).tree = tree

variable (host : Host) {args : List Bytes} (tree : FileTree)

/-- A run that only says something has no effect. -/
theorem inert_of_said {host : Host} {tree : FileTree} {code : UInt8} (said : List Said)
    (ran : Does (main host args) tree code (said.map .said) tree) : Inert host args tree := by
  have left := session_of_does ran
  constructor
  · rw [left]
    exact Event.children_said said
  · rw [left]

/-! ## Unknown commands -/

/-- An unknown command ends with success.  The hint is all that it leaves on the standard output,
and the other stream gets nothing unless it is a terminal. -/
theorem run_of_unknown {words : List String}
    (asked : CommandLine.read args = .ok (some (.unknown words))) :
    status host args tree = 0 ∧ Inert host args tree ∧
      (session host args tree).saidOn .out = [guidance ++ "\n"] ∧
      (host.terminals.err = false → (session host args tree).saidOn .err = []) := by
  have ran := does_main_of_unknown host tree asked
  unfold working at ran
  rw [← List.map_append] at ran
  refine ⟨status_of_does ran, inert_of_said _ ran, saidOn_of_unknown host tree asked,
    fun silent => ?_⟩
  rw [session_of_does ran]
  unfold unknownSaid Report.status Report.progress
  rw [silent]
  rfl

/-! ## Refusals -/

/-- A refused command line has its text on the stream of the refusal. -/
theorem run_of_refusal {refusal : CommandLine.Refusal}
    (refused : CommandLine.read args = .error refusal) :
    status host args tree = Report.exitStatus refusal.exitCode ∧ Inert host args tree ∧
      (session host args tree).saidOn refusal.stream =
        [refusal.message (CommandLine.binName? args)] := by
  have ran := does_main_of_refusal host tree refused
  refine ⟨status_of_does ran, inert_of_said [_] ran, ?_⟩
  rw [session_of_does ran]
  simp [Session.saidOn]

/-- The verb for help, whatever follows it, does what the option for help does. -/
theorem main_help (program : Bytes) (words : List Bytes) :
    main host (program :: CommandLine.helpWord :: words) =
      main host [program, CommandLine.helpOption] := by
  unfold main
  rw [read_help, CommandLine.read_helpOption]
  rfl

/-- **Unknown verbs and help have no effect.**  An unknown verb with any texts behind it is read as
an unknown command with all these words, unchanged and in order; its run shows the hint and ends
with success.  Behind an unknown verb bytes that are no text are refused.  The verb for help does
what the option for help does, whatever bytes follow it, and shows the help with success.  None of
these runs launches a child or changes the file tree.  Nothing but the verb for help is ever
replaced, and a second replacement changes nothing. -/
theorem unknown_and_help_inert :
    (∀ (program : Bytes) (verb : String), IsUnknown verb →
      ∀ (words : List String) (host : Host) (tree : FileTree),
        CommandLine.read (textLine program (verb :: words)) =
          .ok (some (.unknown (verb :: words))) ∧
        status host (textLine program (verb :: words)) tree = 0 ∧
        Inert host (textLine program (verb :: words)) tree ∧
        (session host (textLine program (verb :: words)) tree).saidOn .out = [guidance ++ "\n"] ∧
        (host.terminals.err = false →
          (session host (textLine program (verb :: words)) tree).saidOn .err = [])) ∧
    (∀ (program : Bytes) (verb : String), IsUnknown verb →
      ∀ words : List Bytes, (∃ word ∈ words, ∀ text, word ≠ Utf8.ofString text) →
      ∀ (host : Host) (tree : FileTree),
        CommandLine.read (program :: Utf8.ofString verb :: words) =
          .error { cause := .notUtf8, page := .launcher } ∧
        status host (program :: Utf8.ofString verb :: words) tree = 2 ∧
        Inert host (program :: Utf8.ofString verb :: words) tree) ∧
    (∀ (program : Bytes) (words : List Bytes) (host : Host) (tree : FileTree),
        main host (program :: Utf8.ofString "help" :: words) =
          main host [program, Utf8.ofString "--help"] ∧
        status host (program :: Utf8.ofString "help" :: words) tree = 0 ∧
        Inert host (program :: Utf8.ofString "help" :: words) tree ∧
        (session host (program :: Utf8.ofString "help" :: words) tree).saidOn .out =
          [CommandLine.Page.launcher.help (CommandLine.binName? [program])]) ∧
    ∀ args : List Bytes,
      CommandLine.normalize (CommandLine.normalize args) = CommandLine.normalize args ∧
      (args[1]? ≠ some (Utf8.ofString "help") → CommandLine.normalize args = args) := by
  refine ⟨fun program verb unknown words host tree => ?_,
    fun program verb unknown words broken host tree => ?_, fun program words host tree => ?_,
    fun args => ⟨CommandLine.normalize_normalize args, CommandLine.normalize_of_ne⟩⟩
  · have asked := read_unknown unknown program words
    exact ⟨asked, run_of_unknown host tree asked⟩
  · have refused := read_unknown_of_broken unknown program broken
    obtain ⟨status, inert, -⟩ := run_of_refusal host tree refused
    exact ⟨refused, status, inert⟩
  · obtain ⟨status, inert, said⟩ := run_of_refusal host tree (read_help program words)
    exact ⟨main_help host program words, status, inert, said⟩

end BuildLauncher.Launcher
