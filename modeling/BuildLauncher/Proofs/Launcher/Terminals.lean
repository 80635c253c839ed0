import BuildLauncher.Proofs.Launcher.Turns
import Mathlib.Data.List.Forall2

/-!
# Runs on other terminals

Which streams are terminals makes no difference to what a run does, and little to what it says.

* `Report.Relabelled`: two texts that differ in the colour of a label.
* `Launcher.textsOn_out_congr`, `Launcher.relabelled_textsOn`: on which terminals the turns of a run
  say the same.
* `Launcher.Turn.not_isProgress`, `Launcher.Turn.isPlain_of_mem_texts_out`: what a stream that is no
  terminal does not get.
* `Launcher.terminals_of_run`: what each stream gets, by which streams are terminals.

Help, the version and refusals are texts of the argument parser, which may set them off by rules of
its own; here a run says them as plain text, and nothing is claimed about how they look.
-/

namespace BuildLauncher

namespace Report

/-- Labels are in colour only when the standard output is a terminal. -/
theorem Label.isPlain_shown {t : Terminals} (dull : t.out = false) (label : Label) :
    Text.IsPlain (label.shown t) := by
  cases label with
  | error =>
    rw [shown, errorLabel, dull]
    exact Text.isPlain_ofList (by decide)
  | note =>
    rw [shown, noteLabel, dull]
    exact Text.isPlain_ofList (by decide)

/-- Under `t` the one text is said and under `t'` the other: the same text, or the same behind the
same label, each with the label in its own colour. -/
inductive Relabelled (t t' : Terminals) : String → String → Prop
  | same (text : String) : Relabelled t t' text text
  | labelled (label : Label) (text : String) :
    Relabelled t t' ("x: " ++ label.shown t ++ text) ("x: " ++ label.shown t' ++ text)

end Report

namespace Launcher

open Act
open Report (Label IsProgress Relabelled)

/-! ## One turn -/

namespace Turn

variable {t t' : Terminals} {stream : Stream} {text : String} {host : Host} {turn : Turn}

/-- The standard output looks at itself only. -/
theorem texts_out_congr (same : t.out = t'.out) (turn : Turn) :
    turn.texts t .out = turn.texts t' .out := by
  cases turn with
  | heading text => simp [texts, Report.bold, same]
  | labelled other label text =>
    cases label <;> simp [texts, Label.shown, Report.errorLabel, Report.noteLabel, same]
  | _ => simp [texts]

/-- On the standard error only labels look at the other stream. -/
theorem relabelled_texts (same : t.err = t'.err) (turn : Turn) :
    List.Forall₂ (Relabelled t t') (turn.texts t .err) (turn.texts t' .err) := by
  have one {a b : String} (related : Relabelled t t' a b) :
      List.Forall₂ (Relabelled t t') [a] [b] :=
    .cons related .nil
  cases turn with
  | plain other text =>
    dsimp only [texts]
    split
    · exact one (.same text)
    · exact .nil
  | progress text =>
    dsimp only [texts]
    rw [same]
    split
    · exact one (.same _)
    · exact .nil
  | heading text => exact .nil
  | labelled other label text =>
    dsimp only [texts]
    split
    · exact one (.labelled label _)
    · exact .nil
  | child l o => exact .nil

/-- Only a terminal gets lines of progress, and only on the standard error. -/
theorem not_isProgress (proper : turn.Proper host) (quiet : stream = .err → t.err = false)
    (mem : text ∈ turn.texts t stream) : ¬ IsProgress text := by
  cases turn with
  | plain other said =>
    obtain ⟨-, rfl⟩ := mem_texts_plain.mp mem
    exact proper.1
  | progress said =>
    obtain ⟨⟨err, terminal⟩, -⟩ := mem_texts_progress.mp mem
    rw [quiet err] at terminal
    cases terminal
  | heading said =>
    obtain ⟨-, rfl⟩ := mem_texts_heading.mp mem
    unfold Report.bold
    split
    · unfold Report.emphasised
      simp only [String.append_assoc]
      exact Report.not_isProgress_append (by decide)
    · exact proper.1
  | labelled other label said =>
    obtain ⟨-, rfl⟩ := mem_texts_labelled.mp mem
    rw [String.append_assoc]
    exact Report.not_isProgress_append (by decide)
  | child l o => cases mem

/-- A standard output that is no terminal gets no emphasis. -/
theorem isPlain_of_mem_texts_out (proper : turn.Proper host) (dull : t.out = false)
    (mem : text ∈ turn.texts t .out) : Text.IsPlain text := by
  have newline : Text.IsPlain "\n" := Text.isPlain_ofList (by decide)
  cases turn with
  | plain other said =>
    obtain ⟨rfl, rfl⟩ := mem_texts_plain.mp mem
    exact proper.2 fun err => by cases err
  | progress said => simp [texts] at mem
  | heading said =>
    obtain ⟨-, rfl⟩ := mem_texts_heading.mp mem
    rw [Report.bold, dull, Text.isPlain_append]
    exact ⟨proper.2, newline⟩
  | labelled other label said =>
    obtain ⟨rfl, rfl⟩ := mem_texts_labelled.mp mem
    simp only [Text.isPlain_append]
    have plain : Text.IsPlain said := proper fun err => by cases err
    exact ⟨⟨Text.isPlain_ofList (by decide), label.isPlain_shown dull⟩, plain, newline⟩
  | child l o => cases mem

/-- A standard error that is no terminal gets emphasis only in labels. -/
theorem isPlain_or_labelled_of_mem_texts_err (proper : turn.Proper host) (quiet : t.err = false)
    (plain : host.IsPlain) (mem : text ∈ turn.texts t .err) :
    Text.IsPlain text ∨
      ∃ (label : Label) (rest : String),
        text = "x: " ++ label.shown t ++ rest ∧ Text.IsPlain rest := by
  have newline : Text.IsPlain "\n" := Text.isPlain_ofList (by decide)
  cases turn with
  | plain other said =>
    obtain ⟨rfl, rfl⟩ := mem_texts_plain.mp mem
    exact .inl (proper.2 fun _ => plain)
  | progress said => simp [texts, quiet] at mem
  | heading said => cases mem
  | labelled other label said =>
    obtain ⟨rfl, rfl⟩ := mem_texts_labelled.mp mem
    refine .inr ⟨label, said ++ "\n", rfl, ?_⟩
    rw [Text.isPlain_append]
    exact ⟨proper fun _ => plain, newline⟩
  | child l o => cases mem

end Turn

/-! ## Several turns -/

section Script

variable {t t' : Terminals}

theorem textsOn_out_congr (same : t.out = t'.out) (turns : List Turn) :
    Event.textsOn .out (script t turns) = Event.textsOn .out (script t' turns) := by
  rw [textsOn_script, textsOn_script]
  congr 1
  funext turn
  exact Turn.texts_out_congr same turn

theorem relabelled_textsOn (same : t.err = t'.err) (turns : List Turn) :
    List.Forall₂ (Relabelled t t') (Event.textsOn .err (script t turns))
      (Event.textsOn .err (script t' turns)) := by
  rw [textsOn_script, textsOn_script]
  induction turns with
  | nil => exact .nil
  | cons turn rest ih => exact List.rel_append (Turn.relabelled_texts same turn) ih

end Script

/-! ## Whole runs -/

/-- **Which streams are terminals.**  A run does the same whichever streams are terminals: it comes
to the same status and the same file tree over the same children.  What a run with a command says on
the standard output looks at that stream alone.  What it says on the standard error looks at that
stream, and at the other one in one respect: the labels of errors and notes are in colour when the
standard output is a terminal.  Its lines of progress go to no stream but a standard error that is a
terminal.  Its emphasis does not go to a standard output that is no terminal; to a standard error
that is none it goes in labels only, and only when the standard output is a terminal. -/
theorem terminals_of_run (host : Host) (args : List Bytes) (tree : FileTree) :
    (∀ t t' : Terminals,
      status (host.on t) args tree = status (host.on t') args tree ∧
      (session (host.on t) args tree).tree = (session (host.on t') args tree).tree ∧
      Event.children (session (host.on t) args tree).events =
        Event.children (session (host.on t') args tree).events) ∧
    ∀ i, CommandLine.read args = .ok (some i) → ∀ t : Terminals,
      (∀ t' : Terminals, t.out = t'.out →
        (session (host.on t) args tree).saidOn .out =
          (session (host.on t') args tree).saidOn .out) ∧
      (∀ t' : Terminals, t.err = t'.err →
        List.Forall₂ (Relabelled t t') ((session (host.on t) args tree).saidOn .err)
          ((session (host.on t') args tree).saidOn .err)) ∧
      (∀ text ∈ (session (host.on t) args tree).saidOn .out, ¬ IsProgress text) ∧
      (t.err = false → ∀ text ∈ (session (host.on t) args tree).saidOn .err, ¬ IsProgress text) ∧
      (t.out = false → ∀ text ∈ (session (host.on t) args tree).saidOn .out, Text.IsPlain text) ∧
      (t.err = false → host.IsPlain → ∀ text ∈ (session (host.on t) args tree).saidOn .err,
        Text.IsPlain text ∨
          t.out = true ∧ ∃ (label : Label) (rest : String),
            text = "x: " ++ label.shown t ++ rest ∧ Text.IsPlain rest) := by
  obtain ⟨turns, code, tree', takes⟩ := exists_takes host args tree
  have exists_turn {t : Terminals} {stream : Stream} {text : String}
      (mem : text ∈ (session (host.on t) args tree).saidOn stream) :
      ∃ turn : Turn, turn.Proper host ∧ text ∈ turn.texts t stream := by
    rw [takes.saidOn, textsOn_script, List.mem_flatMap] at mem
    obtain ⟨turn, listed, mem⟩ := mem
    exact ⟨turn, takes.proper turn listed, mem⟩
  refine ⟨fun t t' => ⟨?_, ?_, ?_⟩, fun _ _ t => ⟨?_, ?_, ?_, ?_, ?_, ?_⟩⟩
  · rw [status_of_does (takes.does t), status_of_does (takes.does t')]
  · rw [session_of_does (takes.does t), session_of_does (takes.does t')]
  · rw [session_of_does (takes.does t), session_of_does (takes.does t'), children_script,
      children_script]
  · intro t' same
    rw [takes.saidOn, takes.saidOn]
    exact textsOn_out_congr same turns
  · intro t' same
    rw [takes.saidOn, takes.saidOn]
    exact relabelled_textsOn same turns
  · intro text mem
    obtain ⟨turn, proper, mem⟩ := exists_turn mem
    exact Turn.not_isProgress proper (fun err => by cases err) mem
  · intro quiet text mem
    obtain ⟨turn, proper, mem⟩ := exists_turn mem
    exact Turn.not_isProgress proper (fun _ => quiet) mem
  · intro dull text mem
    obtain ⟨turn, proper, mem⟩ := exists_turn mem
    exact Turn.isPlain_of_mem_texts_out proper dull mem
  · intro quiet plain text mem
    obtain ⟨turn, proper, mem⟩ := exists_turn mem
    rcases Turn.isPlain_or_labelled_of_mem_texts_err proper quiet plain mem with
      shown | ⟨label, rest, rfl, shown⟩
    · exact .inl shown
    · cases bright : t.out with
      | true => exact .inr ⟨rfl, label, rest, rfl, shown⟩
      | false =>
        left
        simp only [Text.isPlain_append]
        exact ⟨⟨Text.isPlain_ofList (by decide), label.isPlain_shown bright⟩, shown⟩

/-- A host whose children all fail. -/
def failing : Host where
  environment := .empty
  workingDirectory := .ok [Path.slash]
  children := fun t _ => ({ ending := .exited 1 }, t)

/-- The command line of a test run. -/
def testArgs : List Bytes := [Utf8.ofString "x", Utf8.ofString "test"]

/-- A failed test run, read by no terminal, by one on the standard output and by one on the standard
error. -/
theorem terminals_of_failed_test :
    (session (failing.on { err := true }) testArgs {}).saidOn .out =
      (session (failing.on {}) testArgs {}).saidOn .out ∧
    List.Forall₂ (Relabelled { out := true } {})
      ((session (failing.on { out := true }) testArgs {}).saidOn .err)
      ((session (failing.on {}) testArgs {}).saidOn .err) ∧
    (∀ text ∈ (session (failing.on { out := true }) testArgs {}).saidOn .err,
      ¬ IsProgress text) ∧
    (∀ text ∈ (session (failing.on {}) testArgs {}).saidOn .out, Text.IsPlain text) ∧
    ∀ text ∈ (session (failing.on {}) testArgs {}).saidOn .err, Text.IsPlain text := by
  have plain : failing.IsPlain := ⟨nofun, nofun, nofun⟩
  have asked : CommandLine.read testArgs = .ok (some .test) := rfl
  obtain ⟨-, each⟩ := terminals_of_run failing testArgs {}
  obtain ⟨out, -⟩ := each .test asked { err := true }
  obtain ⟨-, err, -, quiet, -⟩ := each .test asked { out := true }
  obtain ⟨-, -, -, -, dull, faint⟩ := each .test asked {}
  refine ⟨out {} rfl, err {} rfl, quiet rfl, dull rfl, ?_⟩
  intro text mem
  rcases faint rfl plain text mem with shown | ⟨bright, -⟩
  · exact shown
  · cases bright

/-- On a standard error that is no terminal the report of a failed test run has a label in colour,
or one without, by whether the standard output is a terminal. -/
theorem saidOn_err_of_failed_test :
    (session (failing.on { out := true, err := false }) testArgs {}).saidOn .err =
      ["x: \x1b[1;31merror: \x1b[0m" ++ "command did not execute successfully: cargo test\n" ++
        "expected success, got exit code: 1\n"] ∧
    (session (failing.on { out := false, err := false }) testArgs {}).saidOn .err =
      ["x: error: " ++ "command did not execute successfully: cargo test\n" ++
        "expected success, got exit code: 1\n"] ∧
    (session (failing.on { out := true, err := false }) testArgs {}).saidOn .err ≠
      (session (failing.on { out := false, err := false }) testArgs {}).saidOn .err := by
  have coloured : (session (failing.on { out := true, err := false }) testArgs {}).saidOn .err =
      ["x: \x1b[1;31merror: \x1b[0m" ++ "command did not execute successfully: cargo test\n" ++
        "expected success, got exit code: 1\n"] := rfl
  have dull : (session (failing.on { out := false, err := false }) testArgs {}).saidOn .err =
      ["x: error: " ++ "command did not execute successfully: cargo test\n" ++
        "expected success, got exit code: 1\n"] := rfl
  refine ⟨coloured, dull, ?_⟩
  rw [coloured, dull]
  simp [String.ext_iff]

end Launcher

end BuildLauncher
