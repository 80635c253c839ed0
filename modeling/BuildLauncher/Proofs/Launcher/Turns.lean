import BuildLauncher.Proofs.Launcher.ExitStatus
import BuildLauncher.Proofs.Report.Plain

/-!
# The turns of a run

A run is a list of turns, fixed before it is known which streams are terminals.  Only then does each
turn become what is said: a line of progress or none, a heading in bold or not, a label in colour or
not.  Everything else is the same on all terminals.

* `Launcher.Turn`, `Launcher.Turn.events`: the turns, and what happens in each of them.
* `Launcher.Turn.Proper`: what a turn may say.
* `Launcher.Course.exists_turns`: the turns of a step.
* `Launcher.exists_takes`: every run takes proper turns, whatever the terminals are.
-/

namespace BuildLauncher

/-- The host, with these streams for terminals. -/
def Host.on (host : Host) (t : Terminals) : Host := { host with terminals := t }

namespace Report

/-- How the lines start that only a terminal gets. -/
def progressMarks : List String := ["[", "x is working..."]

/-- A printed text that starts as a line of progress does. -/
def IsProgress (text : String) : Prop := ∃ mark ∈ progressMarks, mark.toList <+: text.toList

/-- A text does not start so when its own start already differs. -/
theorem not_isProgress_append {start rest : String}
    (apart : ∀ mark ∈ progressMarks,
      ¬ start.toList <+: mark.toList ∧ ¬ mark.toList <+: start.toList) :
    ¬ IsProgress (start ++ rest) := by
  rintro ⟨mark, listed, starts⟩
  obtain ⟨shorter, longer⟩ := apart mark listed
  exact not_prefix_append rest shorter longer starts

/-- What may stand in front of a text. -/
inductive Label where
  | error
  | note

/-- A label as it is shown. -/
def Label.shown (t : Terminals) : Label → String
  | error => errorLabel t
  | note => noteLabel t

end Report

namespace Toolchain

variable {host : Host} {tree tree' : FileTree} {children : List (Launch × Outcome)}

/-- The check looks at no terminal. -/
theorem Checked.on {warning : Option String} (checked : Checked host tree warning children tree')
    (t : Terminals) : Checked (host.on t) tree warning children tree' :=
  ⟨checked.ran, checked.launches_eq, checked.does⟩

/-- A warning is about a version that has been read. -/
theorem Checked.exists_version {text : String}
    (checked : Checked host tree (some text) children tree') :
    ∃ report v, versionOf? report = some v ∧ warning? v = some text := by
  by_cases silenced : isSilenced host.environment = true
  · have none := checked.does.unique (does_check_of_silenced silenced host tree)
    cases none
  · have same := checked.does.unique (does_check silenced rfl)
    obtain ⟨v, read, warns⟩ := Option.bind_eq_some_iff.mp same.symm
    obtain ⟨report, -, named⟩ := Option.bind_eq_some_iff.mp read
    exact ⟨report, v, named, warns⟩

end Toolchain

namespace Launcher

open Act
open Report (Label IsProgress)

/-! ## Turns -/

/-- One thing that a run does, with the terminals left open. -/
inductive Turn where
  | plain (stream : Stream) (text : String)
  | progress (text : String)
  | heading (text : String)
  | labelled (stream : Stream) (label : Label) (text : String)
  | child (l : Launch) (o : Outcome)

namespace Turn

/-- A line without anything special about it. -/
def line (stream : Stream) (text : String) : Turn := plain stream (text ++ "\n")

/-- A line of progress that says where it comes from. -/
def status (source text : String) : Turn := progress ("[" ++ source ++ "] " ++ text)

/-- What happens in a turn. -/
def events (t : Terminals) : Turn → List Event
  | plain stream text => [.said (stream, text)]
  | progress text => (Report.progress t text).map .said
  | heading text => [.said (Report.line .out (Report.bold t text))]
  | labelled stream label text => [.said (Report.line stream ("x: " ++ label.shown t ++ text))]
  | child l o => [.launched l o]

/-- What a turn says on a stream. -/
def texts (t : Terminals) (stream : Stream) : Turn → List String
  | plain other text => if other = stream then [text] else []
  | progress text => if stream = .err ∧ t.err = true then [text ++ "\n"] else []
  | heading text => if stream = .out then [Report.bold t text ++ "\n"] else []
  | labelled other label text =>
    if other = stream then ["x: " ++ label.shown t ++ (text ++ "\n")] else []
  | child _ _ => []

section Texts

variable {t : Terminals} {stream other : Stream} {label : Label} {text said : String}

theorem mem_texts_plain :
    text ∈ (plain other said).texts t stream ↔ other = stream ∧ text = said := by
  simp [texts]

theorem mem_texts_progress :
    text ∈ (progress said).texts t stream ↔
      (stream = .err ∧ t.err = true) ∧ text = said ++ "\n" := by
  simp [texts]

theorem mem_texts_heading :
    text ∈ (heading said).texts t stream ↔
      stream = .out ∧ text = Report.bold t said ++ "\n" := by
  simp [texts]

theorem mem_texts_labelled :
    text ∈ (labelled other label said).texts t stream ↔
      other = stream ∧ text = "x: " ++ label.shown t ++ (said ++ "\n") := by
  simp [texts]

end Texts

theorem textsOn_events (t : Terminals) (stream : Stream) (turn : Turn) :
    Event.textsOn stream (turn.events t) = turn.texts t stream := by
  rcases t with ⟨out, err⟩
  cases turn with
  | plain other text => cases stream <;> cases other <;> rfl
  | progress text => cases stream <;> cases err <;> rfl
  | heading text => cases stream <;> rfl
  | labelled other label text =>
    simp only [events, texts, Report.line, String.append_assoc]
    cases stream <;> cases other <;> rfl
  | child l o => rfl

/-- The child of a turn, with its outcome. -/
def child? : Turn → Option (Launch × Outcome)
  | child l o => some (l, o)
  | _ => none

theorem children_events (t : Terminals) (turn : Turn) :
    Event.children (turn.events t) = turn.child?.toList := by
  cases turn with
  | progress text => exact Event.children_said _
  | _ => rfl

/-- The text has an escape character only if it goes to the standard error and the system on the
host has said it. -/
def Shows (host : Host) (stream : Stream) (text : String) : Prop :=
  (stream = .err → host.IsPlain) → Text.IsPlain text

/-- What a turn says does not look like progress unless it is, and shows without an effect on the
terminal unless the system says otherwise. -/
def Proper (host : Host) : Turn → Prop
  | plain stream text => ¬ IsProgress text ∧ Shows host stream text
  | progress _ => True
  | heading text => ¬ IsProgress (text ++ "\n") ∧ Text.IsPlain text
  | labelled stream _ text => Shows host stream text
  | child _ _ => True

variable {stream : Stream} {host : Host}

/-- A line that is written out. -/
theorem proper_line {cs : List Char}
    (own : Text.escape ∉ cs ∧ ∀ mark ∈ Report.progressMarks, ¬ mark.toList <+: cs ++ ['\n']) :
    (line stream (String.ofList cs)).Proper host := by
  constructor
  · rintro ⟨mark, listed, starts⟩
    apply own.2 mark listed
    simpa using starts
  · intro _
    rw [Text.isPlain_append]
    exact ⟨Text.isPlain_ofList own.1, Text.isPlain_ofList (by decide)⟩

end Turn

/-! ## Several turns -/

/-- What happens in several turns. -/
def script (t : Terminals) (turns : List Turn) : List Event := turns.flatMap (Turn.events t)

section Script

variable {t : Terminals}

theorem script_append (first second : List Turn) :
    script t (first ++ second) = script t first ++ script t second :=
  List.flatMap_append

theorem script_children (children : List (Launch × Outcome)) :
    script t (children.map fun c => .child c.1 c.2) = children.map .ofChild := by
  induction children with
  | nil => rfl
  | cons c rest ih => exact congrArg (Event.ofChild c :: ·) ih

theorem textsOn_script (t : Terminals) (stream : Stream) (turns : List Turn) :
    Event.textsOn stream (script t turns) = turns.flatMap (Turn.texts t stream) := by
  induction turns with
  | nil => rfl
  | cons turn rest ih =>
    change Event.textsOn stream (turn.events t ++ script t rest) = _
    rw [Event.textsOn_append, Turn.textsOn_events, ih, List.flatMap_cons]

/-- The children are launched whatever the terminals are. -/
theorem children_script (t : Terminals) (turns : List Turn) :
    Event.children (script t turns) = turns.filterMap Turn.child? := by
  induction turns with
  | nil => rfl
  | cons turn rest ih =>
    change Event.children (turn.events t ++ script t rest) = _
    rw [Event.children_append, Turn.children_events, ih]
    cases turn <;> rfl

end Script

/-! ## The turns of a run -/

/-- The run takes these turns, whichever streams are terminals, and comes to the same end. -/
structure Takes (host : Host) (args : List Bytes) (tree : FileTree) (turns : List Turn)
    (code : UInt8) (tree' : FileTree) : Prop where
  proper : ∀ turn ∈ turns, turn.Proper host
  does (t : Terminals) : Does (main (host.on t) args) tree code (script t turns) tree'

variable {host : Host}

theorem script_singleton (t : Terminals) (turn : Turn) : script t [turn] = turn.events t :=
  List.flatMap_singleton _ _

/-! ### Failures -/

/-- The turns of a report. -/
def reporting (f : Failure) : List Turn :=
  if f.code = .bootstrap then
    match f.commandDetails? with
    | some d => [.status "bootstrap" ("failed: " ++ d.command)]
    | none => []
  else .labelled .err .error f.message :: f.hints.map (.labelled .err .note)

theorem script_reporting (t : Terminals) (f : Failure) :
    script t (reporting f) = (Report.failure t f).map .said := by
  have notes (hints : List String) : script t (hints.map (.labelled .err .note)) =
      (hints.map fun hint => Report.line .err ("x: " ++ Report.noteLabel t ++ hint)).map .said := by
    induction hints with
    | nil => rfl
    | cons hint rest ih => exact congrArg (_ :: ·) ih
  unfold reporting Report.failure
  split
  · cases f.commandDetails? with
    | some d => exact script_singleton t _
    | none => rfl
  · exact congrArg (_ :: ·) (notes f.hints)

/-- The failure has no hints, and unless its message is left out, only the system puts an escape
character into it. -/
structure Reportable (host : Host) (f : Failure) : Prop where
  hints : f.hints = []
  message : f.code ≠ .bootstrap → host.IsPlain → Text.IsPlain f.message

theorem Reportable.proper {f : Failure} (reportable : Reportable host f) :
    ∀ turn ∈ reporting f, turn.Proper host := by
  unfold reporting
  split
  · split
    · simp [Turn.status, Turn.Proper]
    · simp
  · next other =>
    rw [reportable.hints]
    simp only [List.map_nil, List.mem_singleton, forall_eq]
    exact fun plain => reportable.message other (plain rfl)

theorem reportable_noWorkingDirectory {e : SystemError} (cwd : host.workingDirectory = .error e) :
    Reportable host (noWorkingDirectory e) where
  hints := rfl
  message _ plain := isPlain_noWorkingDirectory plain cwd

theorem reportable_of_configure {t t' : FileTree} {here : Place} {root : Bytes} {f : Failure}
    (failed : Configuration.configure t host.writing here root = (.error f, t')) :
    Reportable host f where
  hints := by
    cases Configuration.notMade_of_configure failed <;> rfl
  message _ plain := Configuration.isPlain_of_configure plain failed

theorem reportable_of_verdict {step : Step} {l : Launch} {t t' : FileTree} {last : Outcome}
    {f : Failure} (ended : l.perform host.children t = (last, t'))
    (failed : verdict step.argv step.isBootstrap last = .error f) : Reportable host f where
  hints := by
    unfold verdict at failed
    split at failed
    · cases failed
    · cases failed
      cases step.isBootstrap <;> rfl
  message other plain := by
    have code := (reports_of_verdict failed).code
    cases bootstrap : step.isBootstrap with
    | true =>
      rw [bootstrap] at code
      exact absurd code other
    | false =>
      rw [bootstrap] at failed
      have words : ∀ word ∈ step.argv, Text.IsPlain word := by
        cases step with
        | bootstrap manifest => cases bootstrap
        | _ => simp [Step.argv, Text.IsPlain, Text.escape]
      exact isPlain_of_verdict words (fun _ => Launch.isPlain_of_perform plain ended) failed

/-! ### The end of a run -/

/-- The turns behind a command that has come to its result. -/
def ended (host : Host) (i : Invocation) (r : Except Failure Unit) : List Turn :=
  (match r with
    | .error f => reporting f
    | .ok () => []) ++
  if i.launchesCargo then
    [.line .out "", .line .out (Report.summary (exitCode r) host.duration)]
  else []

theorem script_ended (t : Terminals) (i : Invocation) (r : Except Failure Unit) :
    script t (ended host i r) = (ending (host.on t) i r).map .said := by
  unfold ended ending
  rw [script_append, List.map_append]
  congr 1
  · cases r with
    | ok done => rfl
    | error f => exact script_reporting t f
  · split <;> rfl

theorem proper_ended {i : Invocation} {r : Except Failure Unit}
    (reportable : ∀ f, r = .error f → Reportable host f)
    (known : i.launchesCargo = true → exitCode r = 0 ∨ exitCode r = 1) :
    ∀ turn ∈ ended host i r, turn.Proper host := by
  intro turn mem
  rcases List.mem_append.mp mem with mem | mem
  · cases r with
    | ok done => cases mem
    | error f => exact (reportable f rfl).proper turn mem
  · split at mem
    · next cargo =>
      simp only [List.mem_cons, List.not_mem_nil, or_false] at mem
      rcases mem with rfl | rfl
      · exact Turn.proper_line (by decide)
      · refine ⟨?_, fun _ => ?_⟩
        · unfold Report.summary
          simp only [String.append_assoc]
          exact Report.not_isProgress_append (by decide)
        · rw [Text.isPlain_append]
          exact ⟨Report.isPlain_summary (known cargo) host.duration,
            Text.isPlain_ofList (by decide)⟩
    · cases mem

/-! ### Configuring -/

/-- The turns about a configuration file that exists or has been made. -/
def configuring : Except Failure Configuration.Configured → List Turn
  | .error _ => []
  | .ok (.alreadyExists _) =>
    [.labelled .out .error "one or more configuration file(s) already exist(s). exiting.",
      .labelled .out .note
        "if you want to reconfigure the build environment, run the \x60reconfigure\x60 command."]
  | .ok (.created path) =>
    [.line .out "x: creating build configuration file",
      .status "configure" ("wrote " ++ Utf8.lossy path), .line .out "",
      .heading "default configuration", .line .out "  cache backend: postgres",
      .line .out "  load balancer: 1 server",
      .line .out "    - type: rest, address: 127.0.0.1:8000", .line .out ""]

theorem script_configuring (t : Terminals) (r : Except Failure Configuration.Configured) :
    script t (configuring r) = (configured t r).map .said := by
  rcases r with f | (path | path)
  · rfl
  · unfold configured Report.status
    rw [List.map_cons, List.map_append]
    rfl
  · rfl

theorem proper_configuring (r : Except Failure Configuration.Configured) :
    ∀ turn ∈ configuring r, turn.Proper host := by
  have heading : (Turn.heading "default configuration").Proper host :=
    ⟨Report.not_isProgress_append (by decide), Text.isPlain_ofList (by decide)⟩
  intro turn mem
  rcases r with f | (path | path)
  · cases mem
  · simp only [configuring, List.mem_cons, List.not_mem_nil, or_false] at mem
    rcases mem with rfl | rfl | rfl | rfl | rfl | rfl | rfl | rfl
    · exact Turn.proper_line (by decide)
    · trivial
    · exact Turn.proper_line (by decide)
    · exact heading
    · exact Turn.proper_line (by decide)
    · exact Turn.proper_line (by decide)
    · exact Turn.proper_line (by decide)
    · exact Turn.proper_line (by decide)
  · simp only [configuring, List.mem_cons, List.not_mem_nil, or_false] at mem
    rcases mem with rfl | rfl
    · exact fun _ => Text.isPlain_ofList (by decide)
    · exact fun _ => Text.isPlain_ofList (by decide)

/-! ### Steps -/

section Course

variable {step : Step} {tree tree' : FileTree} {r : Except Failure Unit} {happened : List Event}

/-- The turns before the working directory is needed. -/
def openingTurns (check : List (Launch × Outcome)) (warning : Option String) : List Turn :=
  .line .out "stage 1: initializing build..." ::
    (check.map (fun c => .child c.1 c.2) ++ warning.toList.map (.line .err))

theorem script_openingTurns (t : Terminals) (check : List (Launch × Outcome))
    (warning : Option String) : script t (openingTurns check warning) = opening check warning := by
  have warned : script t (warning.toList.map (.line .err)) =
      warning.toList.map fun text => .said (Report.line .err text) := by
    cases warning <;> rfl
  change _ :: script t (_ ++ _) = _
  rw [script_append, script_children, warned]
  rfl

theorem proper_openingTurns {warning : Option String} {check : List (Launch × Outcome)}
    (checked : Toolchain.Checked host tree warning check tree') :
    ∀ turn ∈ openingTurns check warning, turn.Proper host := by
  intro turn mem
  simp only [openingTurns, List.mem_cons, List.mem_append, List.mem_map] at mem
  rcases mem with rfl | ⟨c, -, rfl⟩ | ⟨text, warned, rfl⟩
  · exact Turn.proper_line (by decide)
  · trivial
  · obtain rfl := Option.mem_toList.mp warned
    obtain ⟨report, v, read, warns⟩ := checked.exists_version
    constructor
    · obtain ⟨-, rfl⟩ := Toolchain.warning?_eq_some_iff.mp warns
      simp only [String.append_assoc]
      exact Report.not_isProgress_append (by decide)
    · intro _
      rw [Text.isPlain_append]
      exact ⟨Toolchain.isPlain_warning read warns, Text.isPlain_ofList (by decide)⟩

/-- The turns from the questions about the commit up to the launch of the step. -/
def middleTurns (step : Step) (id : Identity) (branch : Outcome)
    (answers : List (Launch × Outcome)) : List Turn :=
  answers.map (fun c => .child c.1 c.2) ++
    [.status "identity" ("branch '" ++ branch.answer?.getD "" ++ "' -> " ++ id.channel.name ++
        " (" ++ id.versionString ++ ")"),
      .line .out ("stage 2: " ++ step.banner),
      .status "run" (Launch.commandLine step.argv)]

theorem script_middleTurns (host : Host) (t : Terminals) (step : Step) (id : Identity)
    (branch : Outcome) (answers : List (Launch × Outcome)) :
    script t (middleTurns step id branch answers) = middle (host.on t) step id branch answers := by
  unfold middleTurns middle
  rw [script_append, script_children, List.append_assoc]
  congr 1
  simp [script, Turn.events, Turn.status, Turn.line, Identity.progress, Report.status, Report.line,
    Host.on]

theorem proper_middleTurns (step : Step) (id : Identity) (branch : Outcome)
    (answers : List (Launch × Outcome)) :
    ∀ turn ∈ middleTurns step id branch answers, turn.Proper host := by
  intro turn mem
  simp only [middleTurns, List.mem_append, List.mem_map, List.mem_cons, List.not_mem_nil,
    or_false] at mem
  rcases mem with ⟨c, -, rfl⟩ | rfl | rfl | rfl
  · trivial
  · trivial
  · constructor
    · simp only [String.append_assoc]
      exact Report.not_isProgress_append (by decide)
    · intro _
      simp only [Text.isPlain_append]
      refine ⟨⟨Text.isPlain_ofList (by decide), ?_⟩, Text.isPlain_ofList (by decide)⟩
      cases step <;> exact Text.isPlain_ofList (by decide)
  · trivial

/-- The turns once the child of a step has ended. -/
def closingTurns : Except Failure Unit → List Turn
  | .ok () => [.line .out "done"]
  | .error _ => []

theorem script_closingTurns (t : Terminals) (r : Except Failure Unit) :
    script t (closingTurns r) = closing r := by
  cases r <;> rfl

theorem proper_closingTurns (r : Except Failure Unit) :
    ∀ turn ∈ closingTurns r, turn.Proper host := by
  intro turn mem
  cases r with
  | ok done =>
    rw [List.mem_singleton.mp mem]
    exact Turn.proper_line (by decide)
  | error f => cases mem

/-- A step takes one course on all terminals. -/
theorem Course.exists_turns (course : Course host step tree r happened tree') :
    ∃ turns, (∀ turn ∈ turns, turn.Proper host) ∧
      (∀ t, Course (host.on t) step tree r (script t turns) tree') ∧
      ∀ f, r = .error f → Reportable host f := by
  cases course with
  | @unreadable e warning check t₁ cwd checked =>
    refine ⟨openingTurns check warning, proper_openingTurns checked, fun t => ?_, ?_⟩
    · rw [script_openingTurns]
      exact .unreadable cwd (checked.on t)
    · rintro f ⟨⟩
      exact reportable_noWorkingDirectory cwd
  | @launched root warning check branch date hash last t₁ t₂ t₃ cwd checked ran ended =>
    refine ⟨openingTurns check warning ++
        middleTurns step (.ofOutcomes branch date hash) branch
          ((Identity.launches host root).zip [branch, date, hash]) ++
        .child (step.launch host (.ofOutcomes branch date hash) root t₂) last ::
          closingTurns (verdict step.argv step.isBootstrap last), ?_, fun t => ?_, ?_⟩
    · intro turn mem
      simp only [List.mem_append, List.mem_cons] at mem
      rcases mem with (mem | mem) | rfl | mem
      · exact proper_openingTurns checked turn mem
      · exact proper_middleTurns step _ branch _ turn mem
      · trivial
      · exact proper_closingTurns _ turn mem
    · rw [script_append, script_append, script_openingTurns, script_middleTurns host]
      change Course (host.on t) step tree _ (_ ++ _ :: script t (closingTurns _)) _
      rw [script_closingTurns]
      exact .launched cwd (checked.on t) ran ended
    · intro f failed
      exact reportable_of_verdict ended failed

end Course

/-! ### All runs -/

/-- The turns of a command, between the first line of progress and the end. -/
theorem Takes.of_command {args : List Bytes} {i : Invocation} {tree tree' : FileTree}
    {r : Except Failure Unit} {turns : List Turn}
    (proper : ∀ turn ∈ turns, turn.Proper host)
    (reportable : ∀ f, r = .error f → Reportable host f)
    (known : i.launchesCargo = true → exitCode r = 0 ∨ exitCode r = 1)
    (ran : ∀ t, Does (main (host.on t) args) tree (Report.exitStatus (exitCode r))
      (working (host.on t) ++ script t turns ++ (ending (host.on t) i r).map .said) tree') :
    Takes host args tree (.progress "x is working..." :: turns ++ ended host i r)
      (Report.exitStatus (exitCode r)) tree' where
  proper := by
    intro turn mem
    simp only [List.cons_append, List.mem_cons, List.mem_append] at mem
    rcases mem with rfl | mem | mem
    · trivial
    · exact proper turn mem
    · exact proper_ended reportable known turn mem
  does t := by
    rw [script_append, script_ended]
    exact ran t

theorem not_isProgress_help (bin : Option String) (page : CommandLine.Page) (rest : String) :
    ¬ IsProgress (page.help bin ++ rest) := by
  unfold CommandLine.Page.help
  simp only [String.append_assoc]
  apply Report.not_isProgress_append
  rcases page with _ | (_ | _ | _ | _ | _) <;> decide

theorem not_isProgress_message (bin : Option String) (refusal : CommandLine.Refusal) :
    ¬ IsProgress (refusal.message bin) := by
  unfold CommandLine.Refusal.message
  split
  · have help := not_isProgress_help bin refusal.page ""
    rw [String.append_empty] at help
    exact help
  · exact Report.not_isProgress_append (by decide)
  · simp only [String.append_assoc]
    exact Report.not_isProgress_append (by decide)

theorem takes_of_refusal {args : List Bytes} {refusal : CommandLine.Refusal} (tree : FileTree)
    (refused : CommandLine.read args = .error refusal) :
    Takes host args tree [.plain refusal.stream (refusal.message (CommandLine.binName? args))]
      (Report.exitStatus refusal.exitCode) tree where
  proper turn mem := by
    rw [List.mem_singleton.mp mem]
    exact ⟨not_isProgress_message _ refusal, fun _ => refusal.isPlain_message _⟩
  does t := does_main_of_refusal (host.on t) tree refused

theorem takes_of_none {args : List Bytes} (tree : FileTree)
    (empty : CommandLine.read args = .ok none) :
    Takes host args tree [.line .out (CommandLine.Page.launcher.help none)] 0 tree where
  proper turn mem := by
    rw [List.mem_singleton.mp mem]
    refine ⟨not_isProgress_help none .launcher "\n", fun _ => ?_⟩
    rw [Text.isPlain_append]
    exact ⟨CommandLine.Page.launcher.isPlain_help none, Text.isPlain_ofList (by decide)⟩
  does t := does_main_of_none (host.on t) tree empty

theorem takes_of_unknown {args : List Bytes} {words : List String} (tree : FileTree)
    (asked : CommandLine.read args = .ok (some (.unknown words))) :
    Takes host args tree [.progress "x is working...",
      .status "dispatch" ("unknown verb: " ++ " ".intercalate words), .line .out guidance] 0
      tree where
  proper turn mem := by
    simp only [List.mem_cons, List.not_mem_nil, or_false] at mem
    rcases mem with rfl | rfl | rfl
    · trivial
    · trivial
    · exact Turn.proper_line (by decide)
  does t := by
    refine (does_main_of_unknown (host.on t) tree asked).congr ?_
    simp [script, working, unknownSaid, Turn.events, Turn.status, Turn.line, Report.status,
      Report.line, Host.on]

theorem exists_takes_of_configure {args : List Bytes} (tree : FileTree)
    (asked : CommandLine.read args = .ok (some .configure)) :
    ∃ turns code tree', Takes host args tree turns code tree' := by
  have quiet {r : Except Failure Unit} (cargo : Invocation.configure.launchesCargo = true) :
      exitCode r = 0 ∨ exitCode r = 1 := by
    cases cargo
  cases cwd : host.workingDirectory with
  | error e =>
    have reportable (f : Failure)
        (failed : (.error (noWorkingDirectory e) : Except Failure Unit) = .error f) :
        Reportable host f := by
      cases failed
      exact reportable_noWorkingDirectory cwd
    have nothing : ∀ turn ∈ ([] : List Turn), turn.Proper host := nofun
    refine ⟨_, _, tree, .of_command nothing reportable quiet fun t => ?_⟩
    have ran : Does (configure (host.on t)).run tree (.error (noWorkingDirectory e)) [] tree :=
      does_configure_of_error tree cwd
    exact does_main_of_command asked (does_perform_configure ran)
  | ok root =>
    rcases made : Configuration.configure tree host.writing [] root with ⟨r, tree'⟩
    have reportable : ∀ f, r.map (fun _ => ()) = .error f → Reportable host f := by
      intro f failed
      cases r with
      | ok outcome => cases failed
      | error other =>
        cases failed
        exact reportable_of_configure made
    have proper : ∀ turn ∈ Turn.line .out
        "x: checking for existing build configuration file(s)" :: configuring r,
        turn.Proper host := by
      intro turn mem
      rcases List.mem_cons.mp mem with rfl | mem
      · exact Turn.proper_line (by decide)
      · exact proper_configuring r turn mem
    refine ⟨_, _, tree', .of_command proper reportable quiet fun t => ?_⟩
    have ran := @does_configure (host.on t) root tree tree' r cwd made
    rw [← script_configuring] at ran
    exact does_main_of_command asked (does_perform_configure ran)

theorem exists_takes_of_step {args : List Bytes} {i : Invocation} {step : Step} (tree : FileTree)
    (asked : CommandLine.read args = .ok (some i)) (stands : i.step? = some step) :
    ∃ turns code tree', Takes host args tree turns code tree' := by
  obtain ⟨r, happened, tree', course, -⟩ := course_of_step host step tree
  obtain ⟨turns, proper, courses, reportable⟩ := course.exists_turns
  have known := course.exitCode_cases.imp And.right And.right
  refine ⟨_, _, tree', .of_command (i := i) proper reportable (fun _ => known) fun t => ?_⟩
  exact does_main_of_step asked stands (courses t).does

/-- A run takes its turns before it is known which streams are terminals. -/
theorem exists_takes (host : Host) (args : List Bytes) (tree : FileTree) :
    ∃ turns code tree', Takes host args tree turns code tree' := by
  rcases read_cases args with ⟨refusal, refused⟩ | empty | ⟨words, asked⟩ | asked |
    ⟨i, step, asked, stands⟩
  · exact ⟨_, _, tree, takes_of_refusal tree refused⟩
  · exact ⟨_, _, tree, takes_of_none tree empty⟩
  · exact ⟨_, _, tree, takes_of_unknown tree asked⟩
  · exact exists_takes_of_configure tree asked
  · exact exists_takes_of_step tree asked stands

/-- What a run says is what its turns say. -/
theorem Takes.saidOn {args : List Bytes} {tree tree' : FileTree} {turns : List Turn} {code : UInt8}
    (takes : Takes host args tree turns code tree') (t : Terminals) (stream : Stream) :
    (session (host.on t) args tree).saidOn stream = Event.textsOn stream (script t turns) := by
  rw [session_of_does (takes.does t)]
  rfl

end Launcher

end BuildLauncher
