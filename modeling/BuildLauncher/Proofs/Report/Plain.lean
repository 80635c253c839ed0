import BuildLauncher.Proofs.Configuration.Interrupted
import BuildLauncher.Proofs.Duration
import BuildLauncher.Proofs.Launcher.Command
import BuildLauncher.Proofs.Toolchain.Check
import BuildLauncher.Proofs.Toolchain.Report

/-!
# Texts without an escape character

Everything that a terminal obeys starts with an escape character.  The launcher has none in its own
texts but for the emphasis that it gives to a terminal, and it leaves none in the words of the user
that a refusal repeats.  Only what the system says about an error of its own is passed on as it is.

* `Text.isPlain_printable`: what is left of the words of the user.
* `CommandLine.Refusal.isPlain_message`, `Toolchain.isPlain_warning`, `Report.isPlain_summary`: the
  texts that hold words or numbers.
* `Host.IsPlain`: nothing that the system says on a host has an escape character.
* `FileTree.isPlain_of_newPlace`, `Configuration.isPlain_of_configure`,
  `Act.isPlain_of_verdict`: errors of the system, and the messages of failures.
-/

namespace BuildLauncher

namespace Text

/-- The character in front of everything that a terminal obeys. -/
def escape : Char := '\x1b'

/-- A terminal shows the text and does nothing else with it. -/
def IsPlain (s : String) : Prop := escape ∉ s.toList

instance (s : String) : Decidable (IsPlain s) :=
  inferInstanceAs (Decidable (_ ∉ _))

/-- The characters of a text that is written out. -/
theorem isPlain_ofList {cs : List Char} (absent : escape ∉ cs) : IsPlain (String.ofList cs) := by
  simpa [IsPlain] using absent

@[simp] theorem isPlain_append {a b : String} : IsPlain (a ++ b) ↔ IsPlain a ∧ IsPlain b := by
  simp [IsPlain]

/-- A text between two that are written out. -/
theorem isPlain_between {a b : List Char} {s : String} (absent : escape ∉ a ++ b)
    (plain : IsPlain s) : IsPlain (String.ofList a ++ s ++ String.ofList b) := by
  rw [List.mem_append, not_or] at absent
  simp only [isPlain_append]
  exact ⟨⟨isPlain_ofList absent.1, plain⟩, isPlain_ofList absent.2⟩

theorem isPlain_of_isDigit {s : String} (digits : ∀ c ∈ s.toList, c.isDigit = true) :
    IsPlain s :=
  fun mem => absurd (digits _ mem) (by decide)

theorem isPlain_toString (n : Nat) : IsPlain (toString n) := by
  apply isPlain_of_isDigit
  have shown : (toString n).toList = Nat.toDigits 10 n := String.toList_ofList
  rw [shown]
  exact isDigit_of_mem_toDigits

theorem isPlain_intercalate {sep : String} {words : List String} (apart : IsPlain sep)
    (plain : ∀ word ∈ words, IsPlain word) : IsPlain (sep.intercalate words) := by
  unfold IsPlain
  rw [String.toList_intercalate]
  induction words with
  | nil => simp
  | cons word rest ih =>
    have first : IsPlain word := plain word List.mem_cons_self
    have others := ih fun word mem => plain word (List.mem_cons_of_mem _ mem)
    cases rest with
    | nil => simpa [IsPlain] using first
    | cons next rest =>
      rw [List.map_cons, List.map_cons, List.intercalate_cons_cons, ← List.map_cons]
      simp only [List.mem_append, not_or]
      exact ⟨⟨first, apart⟩, others⟩

/-- The reader of control sequences keeps no escape character, wherever it stands. -/
theorem not_mem_printableFrom (place : ControlPlace) (cs : List Char) :
    escape ∉ printableFrom place cs := by
  induction cs generalizing place with
  | nil => simp [printableFrom]
  | cons c rest ih =>
    unfold printableFrom
    split
    · exact ih _
    · next kept =>
      rw [List.mem_cons, not_or]
      refine ⟨?_, ih _⟩
      rintro rfl
      simp [ControlPlace.next?, escape] at kept

theorem isPlain_printable (s : String) : IsPlain (printable s) := by
  simpa [IsPlain, printable] using not_mem_printableFrom .between s.toList

end Text

open Text (IsPlain escape isPlain_ofList isPlain_append isPlain_between isPlain_intercalate
  isPlain_printable isPlain_toString)

/-! ## The command line -/

namespace CommandLine

theorem Flag.isPlain_long (flag : Flag) : IsPlain flag.long := by
  cases flag <;> exact isPlain_ofList (by decide)

theorem Flag.isPlain_written (flag : Flag) : IsPlain flag.written := by
  have value : IsPlain (if flag = manifestPath then " <PATH>" else "") := by
    split <;> exact isPlain_ofList (by decide)
  simp only [written, isPlain_append]
  exact ⟨⟨isPlain_ofList (by decide), flag.isPlain_long⟩, value⟩

theorem Verb.isPlain_name (v : Verb) : IsPlain v.name := by
  cases v <;> exact isPlain_ofList (by decide)

theorem Page.isPlain_usage (bin : Option String) (page : Page) (used : List Flag) :
    IsPlain (page.usage bin used) := by
  have operand : ∀ word ∈ page.operands, IsPlain word := by
    rcases page with _ | (_ | _ | _ | _ | _) <;> simp [operands, IsPlain, escape]
  unfold usage
  dsimp only
  rw [isPlain_append]
  refine ⟨isPlain_ofList (by decide), isPlain_intercalate (isPlain_ofList (by decide)) ?_⟩
  intro word mem
  rcases List.mem_cons.mp mem with rfl | mem
  · exact isPlain_printable _
  · split at mem
    · exact operand word mem
    · obtain ⟨f, -, rfl⟩ := List.mem_map.mp mem
      exact f.isPlain_written

theorem Page.isPlain_help (bin : Option String) (page : Page) : IsPlain (page.help bin) := by
  have parts : IsPlain page.helpParts.1 ∧ IsPlain page.helpParts.2 := by
    rcases page with _ | (_ | _ | _ | _ | _) <;>
      simp only [helpParts, Verb.about, isPlain_append] <;> and_intros <;>
      exact isPlain_ofList (by decide)
  have gap : IsPlain "\n\n" := isPlain_ofList (by decide)
  simp only [help, isPlain_append]
  exact ⟨⟨⟨⟨parts.1, gap⟩, page.isPlain_usage bin []⟩, gap⟩, parts.2⟩

theorem Tip.isPlain_text (tip : Tip) : IsPlain tip.text := by
  rcases tip with f | ⟨v, f⟩
  · exact isPlain_between (by decide) f.isPlain_long
  · dsimp only [text]
    simp only [isPlain_append]
    exact ⟨⟨⟨⟨isPlain_ofList (by decide), v.isPlain_name⟩, isPlain_ofList (by decide)⟩,
      f.isPlain_long⟩, isPlain_ofList (by decide)⟩

/-- A refusal repeats words of the user, and only what is printable of them. -/
theorem Cause.isPlain_text (cause : Cause) : IsPlain cause.text := by
  cases cause with
  | help => exact isPlain_ofList (by decide)
  | version => exact isPlain_ofList (by decide)
  | unexpectedWord word tip => exact isPlain_between (by decide) (isPlain_printable word)
  | unexpectedValue value flag =>
    dsimp only [text]
    simp only [isPlain_append]
    exact ⟨⟨⟨⟨isPlain_ofList (by decide), isPlain_printable value⟩, isPlain_ofList (by decide)⟩,
      flag.isPlain_long⟩, isPlain_ofList (by decide)⟩
  | missingValue flag => exact isPlain_between (by decide) flag.isPlain_written
  | repeated flag => exact isPlain_between (by decide) flag.isPlain_written
  | notUtf8 => exact isPlain_ofList (by decide)

theorem Refusal.isPlain_message (bin : Option String) (r : Refusal) :
    IsPlain (r.message bin) := by
  unfold message
  split
  · exact r.page.isPlain_help bin
  · simp only [programName, programVersion, isPlain_append]
    exact ⟨⟨⟨isPlain_ofList (by decide), isPlain_ofList (by decide)⟩, isPlain_ofList (by decide)⟩,
      isPlain_ofList (by decide)⟩
  · simp only [isPlain_append]
    refine ⟨⟨⟨⟨⟨isPlain_ofList (by decide), r.cause.isPlain_text⟩, isPlain_ofList (by decide)⟩,
      ?_⟩, ?_⟩, isPlain_ofList (by decide)⟩
    -- the tip, and then the usage
    · split
      · next tip _ => exact isPlain_between (by decide) tip.isPlain_text
      · exact isPlain_ofList (by decide)
    · split
      · rw [isPlain_append]
        exact ⟨r.page.isPlain_usage bin r.used, isPlain_ofList (by decide)⟩
      · exact isPlain_ofList (by decide)

end CommandLine

/-! ## Numbers -/

theorem Report.isPlain_summary {code : Int32} (known : code = 0 ∨ code = 1) (took : Duration) :
    IsPlain (Report.summary code took) := by
  have clock : IsPlain took.clock := by
    intro mem
    rcases (Duration.isClock_clock took).isDigit_or_colon_of_mem _ mem with digit | colon
    · exact absurd digit (by decide)
    · exact absurd colon (by decide)
  have outcome : IsPlain (if code = 0 then "successfully" else "unsuccessfully") := by
    split <;> exact isPlain_ofList (by decide)
  have number : IsPlain (toString code.toInt) := by
    rcases known with rfl | rfl <;> decide
  unfold summary
  simp only [isPlain_append]
  exact ⟨⟨⟨⟨⟨isPlain_ofList (by decide), outcome⟩, isPlain_ofList (by decide)⟩, clock⟩,
    isPlain_ofList (by decide)⟩, number⟩

/-- The version that a warning shows has been read from a report. -/
theorem Toolchain.isPlain_warning {report text : String} {v : Version}
    (read : versionOf? report = some v) (warns : warning? v = some text) : IsPlain text := by
  obtain ⟨plain, -⟩ := versionOf?_eq_some_iff_endsBefore.mp read
  have shown : IsPlain (toString v) := by
    intro mem
    have written : (toString v).toList = v.chars := String.toList_ofList
    rw [written] at mem
    exact absurd (isDottedChar_of_mem_chars plain _ mem) (by decide)
  obtain ⟨-, rfl⟩ := warning?_eq_some_iff.mp warns
  simp only [isPlain_append]
  exact ⟨⟨⟨isPlain_ofList (by decide), shown⟩, isPlain_ofList (by decide)⟩,
    isPlain_ofList (by decide)⟩

/-! ## Errors of the system -/

/-- The number behind the text of an error makes no difference. -/
theorem SystemError.isPlain_message {e : SystemError} (plain : IsPlain e.text) :
    IsPlain e.message := by
  unfold message
  simp only [isPlain_append]
  exact ⟨⟨⟨plain, isPlain_ofList (by decide)⟩, isPlain_toString _⟩, isPlain_ofList (by decide)⟩

namespace FileTree

variable {t : FileTree} {here place : Place} {path : Bytes}

/-- What stops names is an error of the launcher's own wording. -/
theorem isPlain_of_advance {jump : Place → List Bytes → Except SystemError Place}
    {names : List Bytes} {e : SystemError}
    (onward : ∀ {here names}, jump here names = .error e → IsPlain e.text)
    (failed : t.advance false jump here names = .error e) : IsPlain e.text := by
  fun_induction t.advance false jump here names with
  | case1 | case5 | case8 => cases failed
  | case2 _ _ ih => exact ih failed
  | case3 _ _ _ ih => exact ih failed
  | case7 _ _ _ _ _ _ _ ih => exact ih failed
  | case4 | case6 | case9 | case10 =>
    cases failed
    exact isPlain_ofList (by decide)
  | case11 => exact onward failed

theorem isPlain_of_walk {links : Nat} {names : List Bytes} {e : SystemError}
    (failed : t.walk false links here names = .error e) : IsPlain e.text := by
  induction links generalizing here names with
  | zero =>
    refine isPlain_of_advance (fun stopped => ?_) failed
    cases stopped
    exact isPlain_ofList (by decide)
  | succ links ih => exact isPlain_of_advance ih failed

theorem isPlain_of_checkPath {e : FileError} (refused : checkPath path = .error e) :
    IsPlain e.message := by
  unfold checkPath at refused
  split at refused
  · cases refused
    exact isPlain_ofList (by decide)
  split at refused
  · cases refused
    exact SystemError.isPlain_message (isPlain_ofList (by decide))
  split at refused
  · cases refused
    exact SystemError.isPlain_message (isPlain_ofList (by decide))
  · cases refused

/-- Why there is no place for a new file. -/
theorem isPlain_of_newPlace {e : FileError} (refused : t.newPlace here path = .error e) :
    IsPlain e.message := by
  unfold newPlace at refused
  dsimp only at refused
  cases checked : checkPath path with
  | error other =>
    rw [checked] at refused
    cases refused
    exact isPlain_of_checkPath checked
  | ok done =>
    rw [checked] at refused
    cases walked : t.walk false maxLinks (start here path)
        (((path.splitOn Path.slash).filter (· ≠ [])).dropLast ++ [hereName]) with
    | error stopped =>
      rw [walked] at refused
      cases refused
      exact SystemError.isPlain_message (isPlain_of_walk walked)
    | ok parent =>
      rw [walked] at refused
      dsimp only [Except.mapError, bind, Except.bind] at refused
      repeat' split at refused
      all_goals cases refused
      all_goals exact SystemError.isPlain_message (isPlain_ofList (by decide))

end FileTree

/-- Nothing that the system says on the host has an escape character: neither why there is no
working directory, nor why a child does not start, nor why writing stops. -/
structure Host.IsPlain (host : Host) : Prop where
  workingDirectory : ∀ e, host.workingDirectory = .error e → Text.IsPlain e.text
  children : ∀ t l reason, (host.children t l).1.ending = .notStarted reason → Text.IsPlain reason
  writing : ∀ n e, host.writing = .cutOff n e → Text.IsPlain e.text

/-! ## Failures -/

variable {host : Host}

theorem Failure.isPlain_ofSystem {error : String} {context : String} (plain : IsPlain error)
    (known : IsPlain context) : IsPlain (Failure.ofSystem error (some context)).message := by
  change IsPlain ("IO error (" ++ context ++ "): " ++ error)
  simp only [isPlain_append]
  exact ⟨⟨⟨isPlain_ofList (by decide), known⟩, isPlain_ofList (by decide)⟩, plain⟩

theorem Configuration.isPlain_of_configure {t t' : FileTree} {here : Place} {root : Bytes}
    {f : Failure} (plain : host.IsPlain)
    (failed : configure t host.writing here root = (.error f, t')) : IsPlain f.message := by
  cases notMade_of_configure failed with
  | refused refused =>
    exact Failure.isPlain_ofSystem (FileTree.isPlain_of_newPlace refused)
      (isPlain_ofList (by decide))
  | cutOff _ stopped _ _ =>
    refine Failure.isPlain_ofSystem (SystemError.isPlain_message (plain.writing _ _ stopped)) ?_
    rw [isPlain_append]
    exact ⟨isPlain_ofList (by decide), isPlain_ofList (by decide)⟩

theorem Launcher.isPlain_noWorkingDirectory {e : SystemError} (plain : host.IsPlain)
    (cwd : host.workingDirectory = .error e) : IsPlain (noWorkingDirectory e).message :=
  Failure.isPlain_ofSystem (SystemError.isPlain_message (plain.workingDirectory e cwd))
    (isPlain_ofList (by decide))

/-- A child that has not started says why, or has been passed a NUL byte. -/
theorem Launch.isPlain_of_perform {l : Launch} {t t' : FileTree} {o : Outcome} {reason : String}
    (plain : host.IsPlain) (ended : l.perform host.children t = (o, t'))
    (stopped : o.ending = .notStarted reason) : IsPlain reason := by
  unfold perform at ended
  split at ended
  · cases ended
    cases stopped
    exact isPlain_ofList (by decide)
  · apply plain.children t l
    rw [ended]
    exact stopped

theorem Act.isPlain_of_verdict {argv : List String} {o : Outcome} {f : Failure}
    (words : ∀ word ∈ argv, IsPlain word)
    (reason : ∀ reason, o.ending = .notStarted reason → IsPlain reason)
    (failed : verdict argv false o = .error f) : IsPlain f.message := by
  obtain ⟨-, message, -⟩ := reports_of_verdict failed
  have remark : IsPlain o.ending.remark := by
    cases ended : o.ending with
    | exited code =>
      dsimp only [Ending.remark]
      rw [isPlain_append]
      exact ⟨isPlain_ofList (by decide), isPlain_toString _⟩
    | signalled signal => exact isPlain_ofList (by decide)
    | notStarted text =>
      dsimp only [Ending.remark]
      rw [isPlain_append]
      exact ⟨isPlain_ofList (by decide), reason text ended⟩
  rw [message, if_neg (by decide)]
  simp only [isPlain_append]
  exact ⟨⟨isPlain_ofList (by decide), isPlain_intercalate (isPlain_ofList (by decide)) words⟩,
    remark⟩

end BuildLauncher
