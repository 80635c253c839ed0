import BuildLauncher.Proofs.Launcher.Run

/-!
# The exit status of a run

The exit status of the launcher is its own: zero, one or two, whatever its children exit with.  For
a cargo verb it is zero exactly when the command of the verb exited with zero, and the line `done`,
the closing line and the status tell the same story.

* `Launcher.Course.eq_ok_iff`, `Launcher.Course.exitStatus`, `Launcher.Course.saidOn`: how a course
  ends, which status it leads to and what it says.
* `Launcher.exitStatus_of_run`: all of it for a whole run.
-/

namespace BuildLauncher

namespace Report

theorem progress_fst {t : Terminals} {text : String} : ∀ s ∈ progress t text, s.1 = .err := by
  intro s mem
  unfold progress at mem
  split at mem
  · rw [List.mem_singleton.mp mem]
    rfl
  · cases mem

theorem status_fst {t : Terminals} {source text : String} :
    ∀ s ∈ status t source text, s.1 = .err :=
  progress_fst

theorem failure_fst {t : Terminals} {f : Failure} : ∀ s ∈ failure t f, s.1 = .err := by
  intro s mem
  unfold failure at mem
  split at mem
  · split at mem
    · exact status_fst s mem
    · cases mem
  · rcases List.mem_cons.mp mem with rfl | mem
    · rfl
    · obtain ⟨hint, -, rfl⟩ := List.mem_map.mp mem
      rfl

/-- A printed text that starts as the closing line of a build does. -/
def IsClosing (text : String) : Prop := "Build completed ".toList <+: text.toList

/-- A text does not start with a mark when its own start already differs. -/
theorem not_prefix_append {mark start : String} (rest : String)
    (shorter : ¬ start.toList <+: mark.toList) (longer : ¬ mark.toList <+: start.toList) :
    ¬ mark.toList <+: (start ++ rest).toList := by
  intro starts
  rw [String.toList_append] at starts
  rcases List.prefix_or_prefix_of_prefix starts (List.prefix_append _ _) with h | h
  · exact longer h
  · exact shorter h

theorem not_isClosing_append {start rest : String}
    (shorter : ¬ start.toList <+: "Build completed ".toList)
    (longer : ¬ "Build completed ".toList <+: start.toList) : ¬ IsClosing (start ++ rest) :=
  not_prefix_append rest shorter longer

/-- The closing line as it is printed for an exit status. -/
def closingLine (status : UInt8) (took : Duration) : String :=
  "Build completed " ++ (if status = 0 then "successfully" else "unsuccessfully") ++ " in " ++
    took.clock ++ ". Exit code: " ++ toString status.toNat ++ "\n"

theorem isClosing_closingLine (status : UInt8) (took : Duration) :
    IsClosing (closingLine status took) := by
  unfold IsClosing closingLine
  simp only [String.toList_append, List.append_assoc]
  exact List.prefix_append _ _

/-- The summary of a build as it is printed, for the two exit codes that a build has. -/
theorem summary_eq_closingLine {code : Int32} (took : Duration) (known : code = 0 ∨ code = 1) :
    summary code took ++ "\n" = closingLine (exitStatus code) took := by
  rcases known with rfl | rfl <;> rfl

end Report

namespace Configuration

/-- Configuring fails only by the system. -/
theorem code_of_configure {t t' : FileTree} {w : FileTree.Writing} {here : Place} {root : Bytes}
    {f : Failure} (failed : configure t w here root = (.error f, t')) : f.code = .io := by
  unfold configure at failed
  dsimp only at failed
  split at failed
  · cases failed
  · unfold FileTree.writeNew at failed
    split at failed
    · cases failed
    · next notWritten =>
      cases failed
      split at notWritten
      · cases notWritten
        rfl
      · split at notWritten
        · cases notWritten
        · cases notWritten
          rfl

end Configuration

namespace Launcher

open Act

/-! ## How a course ends -/

section Course

variable {host : Host} {step : Step} {t t' : FileTree} {r : Except Failure Unit}
  {events : List Event}

/-- A step succeeds when its working directory can be read and its command exits with zero. -/
theorem Course.eq_ok_iff (course : Course host step t r events t') :
    r = .ok () ↔ (∃ root, host.workingDirectory = .ok root) ∧
      ∃ l o, Event.steps events = [(l, o)] ∧ l.argv = step.argv ∧ o.ending = .exited 0 := by
  rcases course.steps with ⟨e, cwd, rfl, none⟩ | ⟨root, id, t₂, last, cwd, rfl, one⟩
  · constructor
    · intro ok
      cases ok
    · rintro ⟨⟨root, cwd'⟩, -⟩
      rw [cwd] at cwd'
      cases cwd'
  · rw [verdict_eq_ok_iff, one]
    constructor
    · intro zero
      exact ⟨⟨root, cwd⟩, _, last, rfl, rfl, zero⟩
    · rintro ⟨-, l', o, same, -, zero⟩
      cases same
      exact zero

theorem Course.exitCode_of_error {f : Failure} (course : Course host step t (.error f) events t') :
    f.code.exitCode = 1 := by
  rcases course.steps with ⟨e, -, failed, -⟩ | ⟨root, id, t₂, last, -, failed, -⟩
  · cases failed
    rfl
  · exact exitCode_of_verdict failed.symm

theorem Course.exitCode_cases (course : Course host step t r events t') :
    r = .ok () ∧ exitCode r = 0 ∨ r ≠ .ok () ∧ exitCode r = 1 := by
  cases r with
  | ok done => exact .inl ⟨rfl, rfl⟩
  | error f => exact .inr ⟨nofun, course.exitCode_of_error⟩

theorem textsOn_opening (check : List (Launch × Outcome)) (warning : Option String) :
    Event.textsOn .out (opening check warning) = ["stage 1: initializing build...\n"] := by
  have other : Event.textsOn .out
      (warning.toList.map fun text => .said (Report.line .err text)) = [] := by
    cases warning <;> rfl
  change _ :: Event.textsOn .out (check.map .ofChild ++ _) = _
  rw [Event.textsOn_append, Event.textsOn_ofChild, other]
  rfl

theorem textsOn_middle (host : Host) (step : Step) (id : Identity) (branch : Outcome)
    (answers : List (Launch × Outcome)) :
    Event.textsOn .out (middle host step id branch answers) =
      ["stage 2: " ++ step.banner ++ "\n"] := by
  rw [middle, Event.textsOn_append, Event.textsOn_append, Event.textsOn_ofChild,
    Identity.progress, Event.textsOn_out_of_err Report.status_fst]
  exact congrArg (_ :: ·) (Event.textsOn_out_of_err Report.status_fst)

/-- A stage is neither the line of success nor a closing line. -/
theorem stage_ne (rest : String) :
    "stage " ++ rest ≠ "done\n" ∧ ¬ Report.IsClosing ("stage " ++ rest) := by
  refine ⟨?_, Report.not_isClosing_append (by decide) (by decide)⟩
  intro same
  have chars := congrArg String.toList same
  rw [String.toList_append] at chars
  exact absurd (List.cons.inj chars).1 (by decide)

theorem mem_textsOn_closing {text : String} :
    text ∈ Event.textsOn .out (closing r) ↔ text = "done\n" ∧ r = .ok () := by
  cases r with
  | ok done => exact ⟨fun mem => ⟨List.mem_singleton.mp mem, rfl⟩,
      fun same => List.mem_singleton.mpr same.1⟩
  | error f => exact ⟨nofun, nofun⟩

/-- Before the closing a course says nothing on the standard output but its stages. -/
theorem Course.textsOn_out (course : Course host step t r events t') :
    ∃ stages : List String,
      (∀ text ∈ stages, text ≠ "done\n" ∧ ¬ Report.IsClosing text) ∧
      Event.textsOn .out events = stages ++ Event.textsOn .out (closing r) := by
  have first : "stage 1: initializing build...\n" = "stage " ++ "1: initializing build...\n" := by
    decide
  have second : "stage 2: " ++ step.banner ++ "\n" =
      "stage " ++ ("2: " ++ (step.banner ++ "\n")) := by
    rw [String.append_assoc, show "stage 2: " = "stage " ++ "2: " by decide, String.append_assoc]
  cases course with
  | unreadable cwd checked =>
    refine ⟨["stage 1: initializing build...\n"], ?_, ?_⟩
    · intro text mem
      rw [List.mem_singleton.mp mem, first]
      exact stage_ne _
    · rw [textsOn_opening]
      rfl
  | launched cwd checked ran ended =>
    refine ⟨["stage 1: initializing build...\n", "stage 2: " ++ step.banner ++ "\n"], ?_, ?_⟩
    · intro text mem
      rcases List.mem_cons.mp mem with rfl | mem
      · rw [first]
        exact stage_ne _
      · rw [List.mem_singleton.mp mem, second]
        exact stage_ne _
    · rw [Event.textsOn_append, Event.textsOn_append, textsOn_opening, textsOn_middle]
      rfl

end Course

/-! ## How a run ends -/

/-- The exit status of a run on a command line. -/
def status (host : Host) (args : List Bytes) (tree : FileTree) : UInt8 :=
  ((main host args).run { tree }).1

/-- The session that a run on a command line leaves. -/
def session (host : Host) (args : List Bytes) (tree : FileTree) : Session :=
  ((main host args).run { tree }).2

section Run

variable {host : Host} {args : List Bytes} {tree t' : FileTree} {code : UInt8}
  {events : List Event}

theorem status_of_does (ran : Does (main host args) tree code events t') :
    status host args tree = code :=
  congrArg Prod.fst (ran [])

theorem session_of_does (ran : Does (main host args) tree code events t') :
    session host args tree = ⟨t', events⟩ :=
  congrArg Prod.snd (ran [])

end Run

theorem textsOn_ending {host : Host} {i : Invocation} (r : Except Failure Unit)
    (cargo : i.launchesCargo = true) :
    Event.textsOn .out ((ending host i r).map .said) =
      ["\n", Report.summary (exitCode r) host.duration ++ "\n"] := by
  unfold ending
  rw [List.map_append, Event.textsOn_append, if_pos cargo]
  cases r with
  | ok done => rfl
  | error f => rw [Event.textsOn_out_of_err Report.failure_fst]; rfl

/-- The exit status that a course leads to. -/
theorem Course.exitStatus {host : Host} {step : Step} {t t' : FileTree} {r : Except Failure Unit}
    {events : List Event} (course : Course host step t r events t') :
    (Report.exitStatus (exitCode r) = 0 ↔ r = .ok ()) ∧
      (Report.exitStatus (exitCode r) = 0 ∨ Report.exitStatus (exitCode r) = 1) := by
  rcases course.exitCode_cases with ⟨ok, code⟩ | ⟨failed, code⟩
  · rw [code]
    exact ⟨⟨fun _ => ok, fun _ => rfl⟩, .inl rfl⟩
  · rw [code]
    exact ⟨⟨fun zero => absurd zero (by decide), fun ok => absurd ok failed⟩, .inr rfl⟩

/-- What a run that takes a course says on the standard output: the closing line last, and before it
`done` when the course succeeds. -/
theorem Course.saidOn {host : Host} {i : Invocation} {step : Step} {t t' : FileTree}
    {r : Except Failure Unit} {events : List Event} (course : Course host step t r events t')
    (cargo : i.launchesCargo = true) :
    ∃ earlier, Event.textsOn .out (working host ++ events ++ (ending host i r).map .said) =
        earlier ++ [Report.closingLine (Report.exitStatus (exitCode r)) host.duration] ∧
      ("done\n" ∈ earlier ↔ r = .ok ()) ∧ ∀ text ∈ earlier, ¬ Report.IsClosing text := by
  obtain ⟨stages, fresh, said⟩ := course.textsOn_out
  have known : exitCode r = 0 ∨ exitCode r = 1 := course.exitCode_cases.imp And.right And.right
  refine ⟨stages ++ Event.textsOn .out (closing r) ++ ["\n"], ?_, ?_, ?_⟩
  · rw [Event.textsOn_append, Event.textsOn_append, said, textsOn_ending r cargo, working,
      Event.textsOn_out_of_err Report.progress_fst,
      Report.summary_eq_closingLine host.duration known, List.nil_append,
      List.append_assoc (stages ++ _)]
    rfl
  · rw [List.mem_append, List.mem_append, mem_textsOn_closing]
    constructor
    · rintro ((mem | ⟨-, ok⟩) | mem)
      · exact absurd rfl (fresh _ mem).1
      · exact ok
      · exact absurd (List.mem_singleton.mp mem) (by decide)
    · exact fun ok => .inl (.inr ⟨rfl, ok⟩)
  · intro text mem
    rw [List.mem_append, List.mem_append, mem_textsOn_closing] at mem
    rcases mem with (mem | ⟨rfl, -⟩) | mem
    · exact (fresh _ mem).2
    · unfold Report.IsClosing
      decide
    · rw [List.mem_singleton.mp mem]
      unfold Report.IsClosing
      decide

/-- A run that asks for a step: its status, its command, and what it says on the standard output. -/
theorem status_of_step (host : Host) {args : List Bytes} {i : Invocation} {step : Step}
    (tree : FileTree) (asked : CommandLine.read args = .ok (some i))
    (stands : i.step? = some step) :
    (status host args tree = 0 ↔ (∃ root, host.workingDirectory = .ok root) ∧
      ∃ l o, Event.steps (session host args tree).events = [(l, o)] ∧ l.argv = step.argv ∧
        o.ending = .exited 0) ∧
    (status host args tree = 0 ∨ status host args tree = 1) ∧
    ∃ earlier, (session host args tree).saidOn .out =
        earlier ++ [Report.closingLine (status host args tree) host.duration] ∧
      ("done\n" ∈ earlier ↔ status host args tree = 0) ∧
      ∀ text ∈ earlier, ¬ Report.IsClosing text := by
  obtain ⟨r, events, t', course, run⟩ := course_of_step host step tree
  have ran := does_main_of_step asked stands run
  have cargo : i.launchesCargo = true := by
    rw [i.launchesCargo_eq_isSome_step?, stands]
    rfl
  obtain ⟨zero_iff, known⟩ := course.exitStatus
  obtain ⟨earlier, said, done, other⟩ := course.saidOn cargo
  rw [status_of_does ran, session_of_does ran, Event.steps, children_around, ← Event.steps,
    ← course.eq_ok_iff]
  exact ⟨zero_iff, known, earlier, said, done.trans zero_iff.symm, other⟩

/-! ## Runs without a step -/

theorem not_isClosing_help (bin : Option String) (page : CommandLine.Page) (rest : String) :
    ¬ Report.IsClosing (page.help bin ++ rest) := by
  unfold CommandLine.Page.help
  rw [String.append_assoc, String.append_assoc, String.append_assoc, String.append_assoc]
  apply Report.not_isClosing_append
  · rcases page with _ | (_ | _ | _ | _ | _) <;> decide
  · rcases page with _ | (_ | _ | _ | _ | _) <;> decide

/-- A refused command line: its status, and nothing like a closing line. -/
theorem status_of_refusal (host : Host) {args : List Bytes} {refusal : CommandLine.Refusal}
    (tree : FileTree) (refused : CommandLine.read args = .error refusal) :
    status host args tree = (if refusal.cause.isRequested then 0 else 2) ∧
      ∀ text ∈ (session host args tree).saidOn .out, ¬ Report.IsClosing text := by
  have ran := does_main_of_refusal host tree refused
  rw [status_of_does ran, session_of_does ran]
  rcases refusal with ⟨cause, page, used⟩
  cases cause with
  | help =>
    refine ⟨rfl, fun text mem => ?_⟩
    obtain rfl := List.mem_singleton.mp mem
    have help := not_isClosing_help (CommandLine.binName? args) page ""
    rw [String.append_empty] at help
    exact help
  | version =>
    refine ⟨rfl, fun text mem => ?_⟩
    obtain rfl := List.mem_singleton.mp mem
    change ¬ Report.IsClosing ("x" ++ " " ++ "0.3.0" ++ "\n")
    unfold Report.IsClosing
    decide
  | unexpectedWord word tip => exact ⟨rfl, nofun⟩
  | unexpectedValue value flag => exact ⟨rfl, nofun⟩
  | missingValue flag => exact ⟨rfl, nofun⟩
  | repeated flag => exact ⟨rfl, nofun⟩
  | notUtf8 => exact ⟨rfl, nofun⟩

/-- A command line without a command gets the help. -/
theorem status_of_none (host : Host) {args : List Bytes} (tree : FileTree)
    (empty : CommandLine.read args = .ok none) :
    status host args tree = 0 ∧
      ∀ text ∈ (session host args tree).saidOn .out, ¬ Report.IsClosing text := by
  have ran := does_main_of_none host tree empty
  rw [status_of_does ran, session_of_does ran]
  refine ⟨rfl, fun text mem => ?_⟩
  obtain rfl := List.mem_singleton.mp mem
  exact not_isClosing_help none .launcher "\n"

/-- Behind a command that is no step nothing more is said on the standard output. -/
theorem saidOn_of_command {host : Host} {i : Invocation} {r : Except Failure Unit}
    (events : List Event) (quiet : i.launchesCargo = false) :
    Event.textsOn .out (working host ++ events ++ (ending host i r).map .said) =
      Event.textsOn .out events := by
  have last : Event.textsOn .out ((ending host i r).map .said) = [] := by
    unfold ending
    rw [quiet]
    cases r with
    | ok done => rfl
    | error f =>
      rw [if_neg (by decide), List.append_nil]
      exact Event.textsOn_out_of_err Report.failure_fst
  rw [Event.textsOn_append, Event.textsOn_append, last, working,
    Event.textsOn_out_of_err Report.progress_fst, List.nil_append, List.append_nil]

/-- The hint is all that an unknown command leaves on the standard output. -/
theorem saidOn_of_unknown (host : Host) {args : List Bytes} {words : List String} (tree : FileTree)
    (asked : CommandLine.read args = .ok (some (.unknown words))) :
    (session host args tree).saidOn .out = [guidance ++ "\n"] := by
  rw [session_of_does (does_main_of_unknown host tree asked)]
  change Event.textsOn .out _ = _
  unfold unknownSaid working
  rw [List.map_append, Event.textsOn_append, Event.textsOn_append,
    Event.textsOn_out_of_err Report.progress_fst, Event.textsOn_out_of_err Report.status_fst]
  rfl

theorem status_of_unknown (host : Host) {args : List Bytes} {words : List String} (tree : FileTree)
    (asked : CommandLine.read args = .ok (some (.unknown words))) :
    status host args tree = 0 ∧
      ∀ text ∈ (session host args tree).saidOn .out, ¬ Report.IsClosing text := by
  refine ⟨status_of_does (does_main_of_unknown host tree asked), fun text mem => ?_⟩
  rw [saidOn_of_unknown host tree asked] at mem
  obtain rfl := List.mem_singleton.mp mem
  unfold Report.IsClosing
  decide

theorem not_isClosing_template (t : Terminals) :
    ∀ text ∈ Event.textsOn .out ((templateSummary t).map .said), ¬ Report.IsClosing text := by
  have said : Event.textsOn .out ((templateSummary t).map .said) =
      ["\n", Report.bold t "default configuration" ++ "\n", "  cache backend: postgres\n",
        "  load balancer: 1 server\n", "    - type: rest, address: 127.0.0.1:8000\n", "\n"] := rfl
  rw [said]
  unfold Report.IsClosing Report.bold
  cases t.out <;> decide

theorem not_isClosing_configured (t : Terminals) (r : Except Failure Configuration.Configured) :
    ∀ text ∈ Event.textsOn .out ((configured t r).map .said), ¬ Report.IsClosing text := by
  intro text mem
  rcases r with f | (path | path)
  · cases mem
  · unfold configured at mem
    rw [List.map_cons, List.map_append] at mem
    rcases List.mem_cons.mp mem with rfl | mem
    · unfold Report.IsClosing
      decide
    · change text ∈ Event.textsOn .out (_ ++ _) at mem
      rw [Event.textsOn_append, Event.textsOn_out_of_err Report.status_fst] at mem
      exact not_isClosing_template t text mem
  · have labelled (label rest : String) : ¬ Report.IsClosing ("x: " ++ label ++ rest ++ "\n") := by
      rw [String.append_assoc, String.append_assoc]
      exact Report.not_isClosing_append (by decide) (by decide)
    rcases List.mem_cons.mp mem with rfl | mem
    · exact labelled _ _
    · obtain rfl := List.mem_singleton.mp mem
      exact labelled _ _

/-- Configuring: its status is that of the creation of the file. -/
theorem status_of_configure (host : Host) {args : List Bytes} (tree : FileTree)
    (asked : CommandLine.read args = .ok (some .configure)) :
    (status host args tree = 0 ↔ ∃ root outcome, host.workingDirectory = .ok root ∧
      (Configuration.configure tree host.writing [] root).1 = .ok outcome) ∧
    (status host args tree = 0 ∨ status host args tree = 1) ∧
      ∀ text ∈ (session host args tree).saidOn .out, ¬ Report.IsClosing text := by
  cases cwd : host.workingDirectory with
  | error e =>
    have ran := does_main_of_command asked
      (does_perform_configure (does_configure_of_error tree cwd))
    have one : status host args tree = 1 := status_of_does ran
    rw [one, session_of_does ran]
    refine ⟨⟨fun zero => absurd zero (by decide), ?_⟩, .inr rfl, ?_⟩
    · rintro ⟨root, outcome, cwd', -⟩
      cases cwd'
    · intro text mem
      change text ∈ Event.textsOn .out _ at mem
      rw [saidOn_of_command _ rfl] at mem
      cases mem
  | ok root =>
    rcases made : Configuration.configure tree host.writing [] root with ⟨r, t'⟩
    have ran := does_main_of_command asked (does_perform_configure (does_configure cwd made))
    have quiet : ∀ text ∈ (session host args tree).saidOn .out, ¬ Report.IsClosing text := by
      intro text mem
      rw [session_of_does ran] at mem
      change text ∈ Event.textsOn .out _ at mem
      rw [saidOn_of_command _ rfl] at mem
      rcases List.mem_cons.mp mem with rfl | mem
      · unfold Report.IsClosing
        decide
      · exact not_isClosing_configured host.terminals r text mem
    cases r with
    | ok outcome =>
      have zero : status host args tree = 0 := status_of_does ran
      refine ⟨⟨fun _ => ⟨root, outcome, rfl, by rw [made]⟩, fun _ => zero⟩, .inl zero, quiet⟩
    | error f =>
      have one : status host args tree = 1 := by
        rw [status_of_does ran]
        change Report.exitStatus f.code.exitCode = 1
        rw [Configuration.code_of_configure made]
        rfl
      refine ⟨⟨fun zero => absurd (one.symm.trans zero) (by decide), ?_⟩, .inr one, quiet⟩
      rintro ⟨root', outcome, same, ok⟩
      cases same
      rw [made] at ok
      cases ok

/-! ## All runs -/

/-- What a command line comes to. -/
theorem read_cases (args : List Bytes) :
    (∃ refusal, CommandLine.read args = .error refusal) ∨
    CommandLine.read args = .ok none ∨
    (∃ words, CommandLine.read args = .ok (some (.unknown words))) ∨
    CommandLine.read args = .ok (some .configure) ∨
    ∃ i step, CommandLine.read args = .ok (some i) ∧ i.step? = some step := by
  rcases asked : CommandLine.read args with refusal | (_ | i)
  · exact .inl ⟨refusal, rfl⟩
  · exact .inr (.inl rfl)
  · rcases stands : i.step? with _ | step
    · rcases i with _ | (_ | _) | _ | _ | _ | words <;> try cases stands
      · exact .inr (.inr (.inr (.inl rfl)))
      · exact .inr (.inr (.inl ⟨words, rfl⟩))
    · exact .inr (.inr (.inr (.inr ⟨i, step, rfl, stands⟩)))

theorem status_known (host : Host) (args : List Bytes) (tree : FileTree) :
    status host args tree = 0 ∨ status host args tree = 1 ∨ status host args tree = 2 := by
  rcases read_cases args with ⟨refusal, asked⟩ | asked | ⟨words, asked⟩ | asked |
    ⟨i, step, asked, stands⟩
  · rw [(status_of_refusal host tree asked).1]
    cases refusal.cause.isRequested with
    | true => exact .inl rfl
    | false => exact .inr (.inr rfl)
  · exact .inl (status_of_none host tree asked).1
  · exact .inl (status_of_unknown host tree asked).1
  · exact (status_of_configure host tree asked).2.1.imp id .inl
  · exact (status_of_step host tree asked stands).2.1.imp id .inl

theorem closing_iff_step (host : Host) (args : List Bytes) (tree : FileTree) :
    (∃ text ∈ (session host args tree).saidOn .out, Report.IsClosing text) ↔
      ∃ i step, CommandLine.read args = .ok (some i) ∧ i.step? = some step := by
  constructor
  · rintro ⟨text, mem, closing⟩
    rcases read_cases args with ⟨refusal, asked⟩ | asked | ⟨words, asked⟩ | asked | step
    · exact ((status_of_refusal host tree asked).2 text mem closing).elim
    · exact ((status_of_none host tree asked).2 text mem closing).elim
    · exact ((status_of_unknown host tree asked).2 text mem closing).elim
    · exact ((status_of_configure host tree asked).2.2 text mem closing).elim
    · exact step
  · rintro ⟨i, step, asked, stands⟩
    obtain ⟨earlier, said, -, -⟩ := (status_of_step host tree asked stands).2.2
    refine ⟨_, ?_, Report.isClosing_closingLine (status host args tree) host.duration⟩
    rw [said]
    exact List.mem_append_right _ (List.mem_singleton.mpr rfl)

/-- **The exit status of a run.**  It is zero, one or two.  A refused command line gives zero for
help and version and two otherwise; a command line without a command and an unknown command give
zero; configuring gives zero exactly when it succeeds.  A step gives zero exactly when the working
directory can be read and its one command was launched and exited with zero; exactly then `done` is
said, and the closing line, which a run says if and only if it was asked for a step, is the last one
and agrees. -/
theorem exitStatus_of_run (host : Host) (args : List Bytes) (tree : FileTree) :
    (status host args tree = 0 ∨ status host args tree = 1 ∨ status host args tree = 2) ∧
    (∀ refusal, CommandLine.read args = .error refusal →
      status host args tree = if refusal.cause.isRequested then 0 else 2) ∧
    (CommandLine.read args = .ok none → status host args tree = 0) ∧
    (∀ words, CommandLine.read args = .ok (some (.unknown words)) →
      status host args tree = 0) ∧
    (CommandLine.read args = .ok (some .configure) →
      (status host args tree = 0 ↔ ∃ root outcome, host.workingDirectory = .ok root ∧
        (Configuration.configure tree host.writing [] root).1 = .ok outcome) ∧
      (status host args tree = 0 ∨ status host args tree = 1)) ∧
    (∀ i step, CommandLine.read args = .ok (some i) → i.step? = some step →
      (status host args tree = 0 ↔ (∃ root, host.workingDirectory = .ok root) ∧
        ∃ l o, Event.steps (session host args tree).events = [(l, o)] ∧ l.argv = step.argv ∧
          o.ending = .exited 0) ∧
      (status host args tree = 0 ∨ status host args tree = 1) ∧
      ∃ earlier, (session host args tree).saidOn .out =
          earlier ++ [Report.closingLine (status host args tree) host.duration] ∧
        ("done\n" ∈ earlier ↔ status host args tree = 0) ∧
        ∀ text ∈ earlier, ¬ Report.IsClosing text) ∧
    ((∃ text ∈ (session host args tree).saidOn .out, Report.IsClosing text) ↔
      ∃ i step, CommandLine.read args = .ok (some i) ∧ i.step? = some step) := by
  refine ⟨status_known host args tree, ?_, ?_, ?_, ?_, ?_, closing_iff_step host args tree⟩
  · exact fun refusal refused => (status_of_refusal host tree refused).1
  · exact fun empty => (status_of_none host tree empty).1
  · exact fun words asked => (status_of_unknown host tree asked).1
  · exact fun asked => ⟨(status_of_configure host tree asked).1,
      (status_of_configure host tree asked).2.1⟩
  · exact fun i step asked stands => status_of_step host tree asked stands

end Launcher

end BuildLauncher
