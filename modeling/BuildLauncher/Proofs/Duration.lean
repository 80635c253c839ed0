import BuildLauncher.Report
import BuildLauncher.Proofs.Text.Numeral
import Mathlib.Data.List.Basic

/-!
# The clock of a duration

A duration shows as `H:MM:SS`, from which its whole seconds are read back.  They are computed in
signed words of 64 bits, and no step of that goes beyond what a word holds: a duration that would
is counted as none before its seconds become such a word.

* `Duration.isClock_clockChars`, `Duration.IsClock.ofClock?_eq`: the form of a clock, and what is
  read from a text of that form.
* `Duration.clockWords?_eq`, `Duration.exists_clockWords`: the three numbers of a clock, computed in
  words.
-/

namespace BuildLauncher.Duration

open Text (IsNumeral)

/-! ## The form of a clock -/

/-- Exactly two digits, of a number below sixty. -/
structure IsSixtieth (cs : List Char) : Prop where
  digits : ∀ c ∈ cs, c.isDigit = true
  two : cs.length = 2
  small : Nat.ofDigitChars 10 cs 0 < 60

/-- `H:MM:SS` for a number of seconds: the hours without a superfluous zero, the minutes and the
seconds beyond them in two digits each. -/
def IsClock (cs : List Char) (seconds : Nat) : Prop :=
  ∃ h m s, cs = h ++ ':' :: m ++ ':' :: s ∧ IsNumeral h ∧ IsSixtieth m ∧ IsSixtieth s ∧
    Nat.ofDigitChars 10 h 0 * 3600 + Nat.ofDigitChars 10 m 0 * 60 + Nat.ofDigitChars 10 s 0 =
      seconds

/-- The seconds that a clock shows. -/
def ofClock? (cs : List Char) : Option Nat :=
  match cs.splitOn ':' with
  | [h, m, s] =>
    some (Nat.ofDigitChars 10 h 0 * 3600 + Nat.ofDigitChars 10 m 0 * 60 +
      Nat.ofDigitChars 10 s 0)
  | _ => none

theorem ofDigitChars_twoDigits (n : Nat) : Nat.ofDigitChars 10 (twoDigits n) 0 = n := by
  unfold twoDigits
  split
  · -- The zero in front counts nothing.
    rw [Nat.ofDigitChars_cons]
    exact Nat.ofDigitChars_ten_toDigits
  · exact Nat.ofDigitChars_ten_toDigits

theorem isDigit_of_mem_twoDigits {n : Nat} : ∀ c ∈ twoDigits n, c.isDigit = true := by
  intro c mem
  unfold twoDigits at mem
  split at mem
  · rcases List.mem_cons.mp mem with rfl | mem
    · rfl
    · exact Text.isDigit_of_mem_toDigits c mem
  · exact Text.isDigit_of_mem_toDigits c mem

theorem length_twoDigits {n : Nat} (small : n < 100) : (twoDigits n).length = 2 := by
  unfold twoDigits
  split
  · next single =>
    rw [Nat.toDigits_of_lt_base single]
    rfl
  · next more =>
    have atMost : (Nat.toDigits 10 n).length ≤ 2 :=
      (Nat.length_toDigits_le_iff (by decide) (by decide)).mpr small
    have atLeast : ¬ (Nat.toDigits 10 n).length ≤ 1 := by
      rw [Nat.length_toDigits_le_iff (by decide) (by decide)]
      omega
    omega

theorem isSixtieth_twoDigits {n : Nat} (small : n < 60) : IsSixtieth (twoDigits n) where
  digits := isDigit_of_mem_twoDigits
  two := length_twoDigits (by omega)
  small := by rwa [ofDigitChars_twoDigits]

/-- A number of seconds is written as its clock. -/
theorem isClock_clockChars (seconds : Nat) : IsClock (clockChars seconds) seconds := by
  refine ⟨_, _, _, rfl, Text.isNumeral_toDigits _, isSixtieth_twoDigits ?_,
    isSixtieth_twoDigits ?_, ?_⟩
  · omega
  · omega
  · rw [Nat.ofDigitChars_ten_toDigits, ofDigitChars_twoDigits, ofDigitChars_twoDigits]
    omega

/-- What is read from a clock are its seconds. -/
theorem IsClock.ofClock?_eq {cs : List Char} {seconds : Nat} (clock : IsClock cs seconds) :
    ofClock? cs = some seconds := by
  obtain ⟨h, m, s, rfl, hours, minutes, rest, rfl⟩ := clock
  have plain {part : List Char} (digits : ∀ c ∈ part, c.isDigit = true) : ':' ∉ part :=
    fun mem => absurd (digits _ mem) (by decide)
  have parts : (h ++ ':' :: m ++ ':' :: s).splitOn ':' = [h, m, s] := by
    have joined : h ++ ':' :: m ++ ':' :: s = [':'].intercalate [h, m, s] := by
      simp [List.intercalate]
    rw [joined]
    apply List.splitOn_intercalate
    · intro part mem
      simp only [List.mem_cons, List.not_mem_nil, or_false] at mem
      rcases mem with rfl | rfl | rfl
      · exact plain hours.digits
      · exact plain minutes.digits
      · exact plain rest.digits
    · exact List.cons_ne_nil _ _
  unfold ofClock?
  rw [parts]

theorem IsClock.isDigit_or_colon_of_mem {cs : List Char} {seconds : Nat}
    (clock : IsClock cs seconds) : ∀ c ∈ cs, c.isDigit = true ∨ c = ':' := by
  obtain ⟨h, m, s, rfl, hours, minutes, rest, -⟩ := clock
  intro c mem
  simp only [List.mem_append, List.mem_cons] at mem
  rcases mem with (mem | rfl | mem) | rfl | mem
  · exact .inl (hours.digits c mem)
  · exact .inr rfl
  · exact .inl (minutes.digits c mem)
  · exact .inr rfl
  · exact .inl (rest.digits c mem)

theorem isClock_clock (d : Duration) : IsClock d.clock.toList d.countedSeconds := by
  unfold clock
  rw [String.toList_ofList]
  exact isClock_clockChars d.countedSeconds

/-! ## Words of 64 bits -/

/-- A number as a signed word of 64 bits, if it fits into one. -/
def word? (n : Int) : Option Int64 :=
  if Int64.minValue.toInt ≤ n ∧ n ≤ Int64.maxValue.toInt then some (Int64.ofInt n) else none

/-- The quotient of two words toward zero, if there is one and it fits into a word. -/
def quotient? (a b : Int64) : Option Int64 :=
  if b = 0 then none else word? (a.toInt.tdiv b.toInt)

/-- The remainder of two words, if their quotient fits into a word. -/
def remainder? (a b : Int64) : Option Int64 := (quotient? a b).map fun _ => a % b

/-- The whole seconds of the longest duration that counts. -/
def maxSeconds : UInt64 := 9223372036854775

/-- The nanoseconds of the longest duration that counts, beyond its whole seconds. -/
def maxNanosBeyond : Nat := 807000000

/-- The whole seconds that count, as a signed word.  The unsigned word is compared with the longest
duration before it becomes a signed one. -/
def secondsWord? (d : Duration) : Option Int64 :=
  if maxSeconds < d.seconds ∨ d.seconds = maxSeconds ∧ maxNanosBeyond < d.nanos.val then some 0
  else word? d.seconds.toNat

/-- The hours, minutes and seconds of a clock, computed in words; none when a step overflows. -/
def clockWords? (d : Duration) : Option (Int64 × Int64 × Int64) := do
  let total ← d.secondsWord?
  let hours ← quotient? total 3600
  let minutes ← quotient? (← remainder? total 3600) 60
  let seconds ← remainder? total 60
  some (hours, minutes, seconds)

/-- The number fits into a signed word of 64 bits. -/
def Fits (n : Nat) : Prop := n < 9223372036854775808

instance (n : Nat) : Decidable (Fits n) := inferInstanceAs (Decidable (n < _))

theorem Fits.of_le {n k : Nat} (fits : Fits n) (less : k ≤ n) : Fits k :=
  Nat.lt_of_le_of_lt less fits

theorem Fits.toInt_ofNat {n : Nat} (fits : Fits n) : (Int64.ofNat n).toInt = n :=
  Int64.toInt_ofNat_of_lt fits

theorem Fits.word?_eq {n : Nat} (fits : Fits n) : word? n = some (.ofNat n) := by
  have range := (Int64.ofNat n).toInt_le
  have range' := (Int64.ofNat n).minValue_le_toInt
  rw [fits.toInt_ofNat] at range range'
  unfold word?
  rw [if_pos ⟨range', range⟩, Int64.ofInt_eq_ofNat]

variable {n k : Nat}

theorem Fits.quotient?_eq (fits : Fits n) (fits' : Fits k) (positive : 0 < k) :
    quotient? (.ofNat n) (.ofNat k) = some (.ofNat (n / k)) := by
  have divides : Int64.ofNat k ≠ 0 := by
    intro zero
    have value := fits'.toInt_ofNat
    rw [zero, Int64.toInt_zero] at value
    omega
  have small : Fits (n / k) := fits.of_le (Nat.div_le_self n k)
  unfold quotient?
  rw [if_neg divides, fits.toInt_ofNat, fits'.toInt_ofNat, ← Int.ofNat_tdiv, small.word?_eq]

theorem Fits.remainder?_eq (fits : Fits n) (fits' : Fits k) (positive : 0 < k) :
    remainder? (.ofNat n) (.ofNat k) = some (.ofNat (n % k)) := by
  unfold remainder?
  rw [fits.quotient?_eq fits' positive, Option.map_some, Int64.ofNat_mod fits fits']

/-- A duration counts when it is not beyond the longest one, in its seconds or in what is beyond
them. -/
theorem totalNanos_le_iff (d : Duration) : d.totalNanos ≤ maxNanos ↔
    ¬ (maxSeconds < d.seconds ∨ d.seconds = maxSeconds ∧ maxNanosBeyond < d.nanos.val) := by
  have rest := d.nanos.isLt
  have limit : maxSeconds.toNat = 9223372036854775 := rfl
  rw [UInt64.lt_iff_toNat_lt, ← UInt64.toNat_inj, limit]
  unfold totalNanos maxNanos maxNanosBeyond
  omega

theorem countedSeconds_of_le {d : Duration} (counts : d.totalNanos ≤ maxNanos) :
    d.countedSeconds = d.seconds.toNat := if_pos counts

theorem countedSeconds_of_lt {d : Duration} (beyond : maxNanos < d.totalNanos) :
    d.countedSeconds = 0 := if_neg (Nat.not_le.mpr beyond)

theorem fits_countedSeconds (d : Duration) : Fits d.countedSeconds := by
  unfold Fits countedSeconds
  split
  · next counts =>
    unfold totalNanos maxNanos at counts
    omega
  · decide

theorem secondsWord?_eq (d : Duration) : d.secondsWord? = some (.ofNat d.countedSeconds) := by
  have fits := fits_countedSeconds d
  unfold secondsWord?
  by_cases counts : d.totalNanos ≤ maxNanos
  · rw [countedSeconds_of_le counts] at fits ⊢
    rw [if_neg ((totalNanos_le_iff d).mp counts), fits.word?_eq]
  · have long := Classical.not_not.mp (mt (totalNanos_le_iff d).mpr counts)
    rw [countedSeconds_of_lt (Nat.lt_of_not_le counts), if_pos long]
    rfl

/-- Nothing overflows, and the numbers are those of the clock. -/
theorem clockWords?_eq (d : Duration) :
    d.clockWords? = some (.ofNat (d.countedSeconds / 3600),
      .ofNat (d.countedSeconds % 3600 / 60), .ofNat (d.countedSeconds % 60)) := by
  have fits := fits_countedSeconds d
  have hour : (3600 : Int64) = .ofNat 3600 := rfl
  have minute : (60 : Int64) = .ofNat 60 := rfl
  have fits' : Fits 3600 := by decide
  have fits'' : Fits 60 := by decide
  have less : Fits (d.countedSeconds % 3600) := fits.of_le (Nat.mod_le _ _)
  have hours := fits.quotient?_eq fits' (by omega)
  have behind := fits.remainder?_eq fits' (by omega)
  have minutes := less.quotient?_eq fits'' (by omega)
  have seconds := fits.remainder?_eq fits'' (by omega)
  unfold clockWords?
  simp only [Option.bind_eq_bind]
  rw [secondsWord?_eq, hour, minute, Option.bind_some, hours, Option.bind_some, behind,
    Option.bind_some, minutes, Option.bind_some, seconds, Option.bind_some]

/-- A clock as three words show it, of which none is negative. -/
def Shows (h m s : Int64) (cs : List Char) : Prop :=
  0 ≤ h.toInt ∧ 0 ≤ m.toInt ∧ 0 ≤ s.toInt ∧
    cs = Nat.toDigits 10 h.toInt.toNat ++ ':' :: twoDigits m.toInt.toNat ++
      ':' :: twoDigits s.toInt.toNat

theorem shows_clockChars {total : Nat} (fits : Fits total) :
    Shows (.ofNat (total / 3600)) (.ofNat (total % 3600 / 60)) (.ofNat (total % 60))
      (clockChars total) := by
  have hours : Fits (total / 3600) := fits.of_le (Nat.div_le_self _ _)
  have behind : Fits (total % 3600) := fits.of_le (Nat.mod_le _ _)
  have minutes : Fits (total % 3600 / 60) := behind.of_le (Nat.div_le_self _ _)
  have seconds : Fits (total % 60) := fits.of_le (Nat.mod_le _ _)
  unfold Shows
  rw [hours.toInt_ofNat, minutes.toInt_ofNat, seconds.toInt_ofNat]
  exact ⟨Int.natCast_nonneg _, Int.natCast_nonneg _, Int.natCast_nonneg _, rfl⟩

/-- The three words are there, and they are what the clock shows. -/
theorem exists_clockWords (d : Duration) :
    ∃ h m s, d.clockWords? = some (h, m, s) ∧ Shows h m s d.clock.toList := by
  refine ⟨_, _, _, clockWords?_eq d, ?_⟩
  unfold clock
  rw [String.toList_ofList]
  exact shows_clockChars (fits_countedSeconds d)

end BuildLauncher.Duration
