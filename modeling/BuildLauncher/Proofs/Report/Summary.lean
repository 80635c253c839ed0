import BuildLauncher.Report
import BuildLauncher.Proofs.Duration

/-!
# The closing line of a build

The line has eight words.  The fifth is the clock with a full stop behind it, the last one the exit
code, and none has a space in it, so both numbers are read back from the line.

* `Report.splitOn_summary`: the words of the line.
* `Report.summary_tells`: what a duration shows as, and what the line tells.
-/

namespace BuildLauncher.Report

/-! ## Integers in decimal -/

/-- The number that decimal digits show, with a minus in front of them or none. -/
def integerOf : List Char → Int
  | '-' :: digits => -(Nat.ofDigitChars 10 digits 0)
  | digits => Nat.ofDigitChars 10 digits 0

theorem integerOf_toDigits (n : Nat) : integerOf (Nat.toDigits 10 n) = n := by
  have unsigned : (Nat.toDigits 10 n).head? ≠ some '-' := by
    intro first
    exact absurd (Text.isDigit_of_mem_toDigits _ (List.mem_of_head? first)) (by decide)
  unfold integerOf
  split
  · next signed =>
    rw [signed] at unsigned
    exact absurd rfl unsigned
  · rw [Nat.ofDigitChars_ten_toDigits]

theorem toList_toString (n : Int) : (toString n).toList =
    if 0 ≤ n then Nat.toDigits 10 n.toNat else '-' :: Nat.toDigits 10 (-n).toNat := by
  rw [Int.toString_eq_repr, Int.repr_eq_if]
  split
  · exact Nat.toList_repr
  · rw [String.toList_append, Nat.toList_repr]
    rfl

/-- An integer is read back from its decimal. -/
theorem integerOf_toString (n : Int) : integerOf (toString n).toList = n := by
  rw [toList_toString]
  split
  · rw [integerOf_toDigits]
    omega
  · change -((Nat.ofDigitChars 10 (Nat.toDigits 10 (-n).toNat) 0 : Nat) : Int) = n
    rw [Nat.ofDigitChars_ten_toDigits]
    omega

theorem isDigit_or_minus_of_mem {n : Int} :
    ∀ c ∈ (toString n).toList, c.isDigit = true ∨ c = '-' := by
  intro c mem
  rw [toList_toString] at mem
  split at mem
  · exact .inl (Text.isDigit_of_mem_toDigits c mem)
  · rcases List.mem_cons.mp mem with rfl | mem
    · exact .inr rfl
    · exact .inl (Text.isDigit_of_mem_toDigits c mem)

/-! ## The words of the line -/

/-- How the build went, in one word. -/
def outcomeWord (code : Int32) : String := if code = 0 then "successfully" else "unsuccessfully"

/-- The words of a closing line. -/
def lineWords (outcome clock number : String) : List (List Char) :=
  ["Build".toList, "completed".toList, outcome.toList, "in".toList, clock.toList ++ ['.'],
    "Exit".toList, "code:".toList, number.toList]

theorem toList_line (outcome clock number : String) :
    ("Build completed " ++ outcome ++ " in " ++ clock ++ ". Exit code: " ++ number).toList =
      [' '].intercalate (lineWords outcome clock number) := by
  unfold lineWords
  simp [List.intercalate]

variable (code : Int32) (took : Duration)

/-- The words of the closing line. -/
def summaryWords : List (List Char) :=
  lineWords (outcomeWord code) took.clock (toString code.toInt)

theorem not_mem_space_clock : ' ' ∉ took.clock.toList := by
  intro space
  rcases (Duration.isClock_clock took).isDigit_or_colon_of_mem ' ' space with digit | colon
  · exact absurd digit (by decide)
  · exact absurd colon (by decide)

theorem not_mem_space_toString (n : Int) : ' ' ∉ (toString n).toList := by
  intro space
  rcases isDigit_or_minus_of_mem ' ' space with digit | minus
  · exact absurd digit (by decide)
  · exact absurd minus (by decide)

theorem not_mem_space_outcomeWord : ' ' ∉ (outcomeWord code).toList := by
  unfold outcomeWord
  split <;> decide

/-- No word has a space in it. -/
theorem not_mem_space_summaryWords : ∀ word ∈ summaryWords code took, ' ' ∉ word := by
  intro word mem
  have clock : ' ' ∉ took.clock.toList ++ ['.'] := by
    rw [List.mem_append, not_or]
    exact ⟨not_mem_space_clock took, by decide⟩
  simp only [summaryWords, lineWords, List.mem_cons, List.not_mem_nil, or_false] at mem
  rcases mem with rfl | rfl | rfl | rfl | rfl | rfl | rfl | rfl
  · decide
  · decide
  · exact not_mem_space_outcomeWord code
  · decide
  · exact clock
  · decide
  · decide
  · exact not_mem_space_toString code.toInt

/-- What stands between the spaces of the closing line are its words. -/
theorem splitOn_summary : (summary code took).toList.splitOn ' ' = summaryWords code took := by
  have joined : (summary code took).toList = [' '].intercalate (summaryWords code took) :=
    toList_line _ _ _
  rw [joined]
  exact List.splitOn_intercalate ' ' (not_mem_space_summaryWords code took) (List.cons_ne_nil _ _)

/-! ## Reading the line -/

/-- The exit code and the seconds that a closing line shows. -/
def ofSummary? (line : String) : Option (Int × Nat) :=
  match line.toList.splitOn ' ' with
  | [_, _, _, _, clock, _, _, code] => (Duration.ofClock? clock.dropLast).map (integerOf code, ·)
  | _ => none

/-- The exit code and the seconds that count are read back from the closing line. -/
theorem ofSummary?_summary :
    ofSummary? (summary code took) = some (code.toInt, took.countedSeconds) := by
  unfold ofSummary?
  rw [splitOn_summary]
  unfold summaryWords lineWords
  simp only [List.dropLast_concat]
  rw [(Duration.isClock_clock took).ofClock?_eq, integerOf_toString, Option.map_some]

/-- The line says that the build was a success when the exit code is zero. -/
theorem successfully_mem_iff :
    "successfully".toList ∈ (summary code took).toList.splitOn ' ' ↔ code = 0 := by
  rw [splitOn_summary]
  constructor
  · intro mem
    simp only [summaryWords, lineWords, List.mem_cons, List.not_mem_nil, or_false] at mem
    rcases mem with same | same | same | same | same | same | same | same
    · exact absurd same (by decide)
    · exact absurd same (by decide)
    · by_contra failed
      have outcome : outcomeWord code = "unsuccessfully" := if_neg failed
      rw [outcome] at same
      exact absurd same (by decide)
    · exact absurd same (by decide)
    · -- The word with the clock ends in a full stop.
      have last := congrArg List.getLast? same
      rw [List.getLast?_concat] at last
      exact absurd last (by decide)
    · exact absurd same (by decide)
    · exact absurd same (by decide)
    · have letter : 's' ∈ (toString code.toInt).toList := by
        rw [← same]
        decide
      exact absurd (isDigit_or_minus_of_mem 's' letter) (by decide)
  · rintro rfl
    have outcome : outcomeWord 0 = "successfully" := rfl
    unfold summaryWords lineWords
    rw [outcome]
    simp only [List.mem_cons, true_or, or_true]

/-- **What the closing line tells.**  A duration shows as a clock for its seconds, or as no time
when it is beyond what counts, and the numbers of the clock come out of words that do not overflow.
The exit code and the seconds that count are read back from the line, so equal lines have equal
ones, and the line says that the build was a success just when the exit code is zero. -/
theorem summary_tells :
    (∀ d : Duration,
      (d.seconds.toNat * 1000000000 + d.nanos ≤ 9223372036854775807 * 1000000 →
        d.countedSeconds = d.seconds.toNat ∧
        Duration.IsClock d.clock.toList d.seconds.toNat) ∧
      (9223372036854775807 * 1000000 < d.seconds.toNat * 1000000000 + d.nanos →
        d.countedSeconds = 0 ∧ d.clock = "0:00:00") ∧
      ∃ h m s, d.clockWords? = some (h, m, s) ∧ Duration.Shows h m s d.clock.toList) ∧
    ∀ (code code' : Int32) (took took' : Duration),
      (summary code took = summary code' took' ↔
        code = code' ∧ took.countedSeconds = took'.countedSeconds) ∧
      ofSummary? (summary code took) = some (code.toInt, took.countedSeconds) ∧
      ("successfully".toList ∈ (summary code took).toList.splitOn ' ' ↔ code = 0) := by
  refine ⟨fun d => ⟨fun short => ?_, fun long => ?_, d.exists_clockWords⟩,
    fun code code' took took' => ⟨⟨fun same => ?_, ?_⟩, ofSummary?_summary code took,
      successfully_mem_iff code took⟩⟩
  · have counted : d.countedSeconds = d.seconds.toNat := Duration.countedSeconds_of_le short
    have clock := Duration.isClock_clock d
    rw [counted] at clock
    exact ⟨counted, clock⟩
  · have counted : d.countedSeconds = 0 := Duration.countedSeconds_of_lt long
    refine ⟨counted, ?_⟩
    unfold Duration.clock
    rw [counted]
    rfl
  · have shown := ofSummary?_summary code took
    rw [same, ofSummary?_summary] at shown
    simp only [Option.some.injEq, Prod.mk.injEq, Int32.toInt_inj] at shown
    exact ⟨shown.1.symm, shown.2.symm⟩
  · rintro ⟨rfl, seconds⟩
    unfold summary Duration.clock
    rw [seconds]

end BuildLauncher.Report
