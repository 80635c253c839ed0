import BuildLauncher.Proofs.Failure
import BuildLauncher.Proofs.Session

/-!
# Failures with hints

A failure gets its hints one by one, however it has been made.  They stand in the order in which
they came, and nothing else about the failure changes.  Its report has one line for each of them,
behind the line with the message; of a failed bootstrap step there is no report at all unless a
terminal reads it.

* `Failure.Origin.hinted_eq`: a failure with its hints, however it has been made.
* `Session.written_sayAll`: what stands on a stream once several things have been said.
* `Report.bytesOn_failure`: the bytes of a report that no terminal reads.
* `Failure.hints_reported`: the failure with its hints, and what reporting it writes.
-/

namespace BuildLauncher

/-! ## Hints -/

namespace Failure

/-- The ways in which a failure is made. -/
inductive Origin where
  | plain (code : Code) (message : String) (details : Json)
  | argument (name problem : String)
  | command (d : CommandDetails)
  | bootstrap (d : CommandDetails)
  | system (error : String) (context : Option String)

namespace Origin

/-- The failure as it is made. -/
def failure : Origin → Failure
  | plain code message details => { code, message, details }
  | argument name problem => .ofArgument name problem
  | command d => .ofCommand d
  | bootstrap d => .ofBootstrap d
  | system error context => .ofSystem error context

/-- The failure with the hints that it has got since, one after the other. -/
def hinted (o : Origin) (hints : List String) : Failure := hints.foldl withHint o.failure

theorem hints_failure (o : Origin) : o.failure.hints = [] := by
  cases o <;> simp [failure, ofArgument, ofCommand, ofBootstrap, ofSystem]

theorem hinted_eq (o : Origin) (hints : List String) :
    o.hinted hints = { o.failure with hints } := by
  simp [hinted, foldl_withHint, hints_failure]

end Origin

end Failure

/-! ## What is written -/

namespace Session

/-- The session once a failure has been reported. -/
def reporting (s : Session) (t : Terminals) (f : Failure) : Session :=
  ((Act.sayAll (Report.failure t f)).run s).2

/-- The bytes on one stream of several texts that are said. -/
def bytesOn (stream : Stream) (said : List Said) : Bytes :=
  (said.filter (·.1 = stream)).flatMap fun x => Utf8.ofString x.2

theorem output_sayAll (said : List Said) (s : Session) :
    ((Act.sayAll said).run s).2.output =
      s.output ++ said.map fun x => (x.1, Utf8.ofString x.2) := by
  have events : ((Act.sayAll said).run s).2.events = s.events ++ said.map .said := rfl
  rw [output, events, List.flatMap_append, List.flatMap_map, List.map_eq_flatMap]
  rfl

/-- What is said goes behind what has been written, and nothing else happens. -/
theorem written_sayAll (said : List Said) (s : Session) (stream : Stream) :
    ((Act.sayAll said).run s).2.written stream = s.written stream ++ bytesOn stream said := by
  rw [written, output_sayAll, List.filter_append, List.flatMap_append, List.filter_map,
    List.flatMap_map]
  rfl

end Session

namespace Report

/-- A failed bootstrap step is reported to a terminal or not at all. -/
theorem failure_of_bootstrap {f : Failure} {t : Terminals} (bootstrap : f.code = .bootstrap)
    (silent : t.err = false) : failure t f = [] := by
  simp only [failure, bootstrap, if_true]
  split
  · simp [status, progress, silent]
  · rfl

/-- Of any other failure there is a line with the message, and then one for each hint. -/
theorem failure_of_other {f : Failure} (t : Terminals) (other : f.code ≠ .bootstrap) :
    failure t f = line .err ("x: " ++ errorLabel t ++ f.message) ::
      f.hints.map fun hint => line .err ("x: " ++ noteLabel t ++ hint) := by
  simp [failure, other]

/-- All that a report writes where neither stream is a terminal. -/
theorem bytesOn_failure (f : Failure) :
    Session.bytesOn .out (failure { out := false, err := false } f) = [] ∧
    Session.bytesOn .err (failure { out := false, err := false } f) =
      if f.code = .bootstrap then []
      else
        Utf8.ofString ("x: error: " ++ f.message ++ "\n") ++
          f.hints.flatMap fun hint => Utf8.ofString ("x: note: " ++ hint ++ "\n") := by
  by_cases bootstrap : f.code = .bootstrap
  · rw [failure_of_bootstrap bootstrap rfl, if_pos bootstrap]
    exact ⟨rfl, rfl⟩
  · have error : "x: " ++ "error: " = "x: error: " := by decide
    have note : "x: " ++ "note: " = "x: note: " := by decide
    rw [failure_of_other _ bootstrap, if_neg bootstrap]
    have all {β : Type} (xs : List β) : xs.filter (fun _ => true) = xs := by simp
    constructor
    · simp [Session.bytesOn, line, List.filter_map, Function.comp_def]
    · simp [Session.bytesOn, line, List.filter_map, Function.comp_def, all, List.flatMap_map,
        errorLabel, noteLabel, error, note]

end Report

namespace Failure

/-- **A failure with hints.**  A failure of whatever making, and of whatever data, has exactly the
hints that it has got, in their order, and they change nothing else about it.  Where neither stream
is a terminal, reporting it writes to the standard error alone: nothing at all when the failure is
of a bootstrap step, and otherwise the message and then the hints, each on a line with its label. -/
theorem hints_reported (o : Origin) (hints : List String) :
    (o.hinted hints).hints = hints ∧
    (o.hinted hints).code = o.failure.code ∧
    (o.hinted hints).message = o.failure.message ∧
    (o.hinted hints).details = o.failure.details ∧
    (o.hinted hints).code.exitCode = o.failure.code.exitCode ∧
    (o.hinted hints).commandDetails? = o.failure.commandDetails? ∧
    ∀ s : Session,
      (s.reporting { out := false, err := false } (o.hinted hints)).written .out =
        s.written .out ∧
      (s.reporting { out := false, err := false } (o.hinted hints)).written .err =
        s.written .err ++
        if o.failure.code = .bootstrap then []
        else
          Utf8.ofString ("x: error: " ++ o.failure.message ++ "\n") ++
            hints.flatMap fun hint => Utf8.ofString ("x: note: " ++ hint ++ "\n") := by
  have same := o.hinted_eq hints
  refine ⟨?_, ?_, ?_, ?_, ?_, commandDetails?_foldl_withHint hints o.failure, fun s => ?_⟩
  · rw [same]
  · rw [same]
  · rw [same]
  · rw [same]
  · rw [same]
  · obtain ⟨out, err⟩ := Report.bytesOn_failure (o.hinted hints)
    constructor
    · rw [Session.reporting, Session.written_sayAll, out, List.append_nil]
    · rw [Session.reporting, Session.written_sayAll, err, same]

end Failure

end BuildLauncher
