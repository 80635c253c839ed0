import BuildLauncher.Proofs.Text.Blank
import BuildLauncher.Proofs.Toolchain.Candidate
import Mathlib.Data.Set.List

/-!
# The version that a report names

What looks like a version in a report is read as a version, whole or not at all.

* `Version.eq_candidate`: what looks like a version and is written as one is that version.
* `Toolchain.Candidate.Defect`: what can be wrong with something that looks like a version.
* `Toolchain.report_names_version`: the reports that name a version, and those that name none.
-/

namespace BuildLauncher

open Text (isDecimalDigit)
open Version (Identifier isDottedChar isIdentifierChar)

/-! ## Versions as candidates -/

namespace Version

theorem isDecimalDigit_of_isDigit {c : Char} (digit : c.isDigit = true) :
    isDecimalDigit c = true := by
  rw [isDecimalDigit, digit, Bool.true_or]

theorem preChars_eq_nil_iff {v : Version} : v.preChars = [] ↔ v.pre = [] := by
  unfold preChars
  constructor
  · intro none
    cases all : v.pre with
    | nil => rfl
    | cons i rest =>
      rw [all] at none
      cases rest with
      | nil =>
        rw [List.map_singleton, List.intercalate_singleton] at none
        exact absurd none i.chars_ne_nil
      | cons j rest =>
        rw [List.map_cons, List.map_cons, List.intercalate_cons_cons] at none
        cases (List.append_eq_nil_iff.mp (List.append_eq_nil_iff.mp none).1).2
  · intro none
    rw [none]
    rfl

/-- A version by its looks. -/
def candidate (v : Version) : Toolchain.Candidate where
  major := Nat.toDigits 10 v.major.toNat
  minor := Nat.toDigits 10 v.minor.toNat
  patch := Nat.toDigits 10 v.patch.toNat
  pre := v.preChars

variable {v : Version} {m : Toolchain.Candidate} {cs rest : List Char}

theorem chars_candidate (plain : v.build = []) : v.candidate.chars = v.chars := by
  have pre : Toolchain.hyphenated v.preChars = if v.pre = [] then [] else '-' :: v.preChars := by
    unfold Toolchain.hyphenated
    simp only [preChars_eq_nil_iff]
  change coreChars v ++ Toolchain.hyphenated v.preChars = _
  rw [pre, chars, plain, if_pos rfl, List.append_nil]

/-- Nothing at the front of a text continues a version that is written before it. -/
structure EndsBefore (v : Version) (rest : List Char) : Prop where
  release : v.pre = [] → (∀ c ∈ rest.head?, isDecimalDigit c = false) ∧
    ∀ c tail, rest = '-' :: c :: tail → isDottedChar c = false
  pre : v.pre ≠ [] → ∀ c ∈ rest.head?, isDottedChar c = false

theorem leads_candidate (plain : v.build = []) :
    v.candidate.Leads (v.chars ++ rest) rest ↔ v.EndsBefore rest := by
  constructor
  · intro leads
    exact ⟨fun none => ⟨leads.patchEnds (preChars_eq_nil_iff.mpr none),
      leads.preEnds.absent (preChars_eq_nil_iff.mpr none)⟩,
      fun some => leads.preEnds.present (mt preChars_eq_nil_iff.mp some)⟩
  · intro ends
    have number (n : Nat) : Nat.toDigits 10 n ≠ [] ∧
        ∀ c ∈ Nat.toDigits 10 n, isDecimalDigit c = true :=
      ⟨Nat.toDigits_ne_nil,
        fun c mem => isDecimalDigit_of_isDigit (Text.isDigit_of_mem_toDigits c mem)⟩
    refine ⟨?_, ?_, ?_, ?_, ?_, ?_⟩
    · rw [chars_candidate plain]
    · intro run mem
      simp only [candidate, List.mem_cons, List.not_mem_nil, or_false] at mem
      rcases mem with rfl | rfl | rfl
      all_goals exact number _
    · exact isDottedChar_of_mem_intercalate Identifier.isIdentifierChar_of_mem_chars v.pre
    · exact fun none => (ends.release (preChars_eq_nil_iff.mp none)).1
    · exact fun none => (ends.release (preChars_eq_nil_iff.mp none)).2
    · exact fun some => ends.pre (mt preChars_eq_nil_iff.mpr some)

/-- No candidate has build metadata. -/
theorem build_eq_nil (leads : m.Leads cs rest) (same : m.chars = v.chars) : v.build = [] := by
  by_contra metadata
  have plus : '+' ∈ m.chars := by
    rw [same, chars, if_neg metadata]
    simp
  have number (run : List Char) (mem : run ∈ [m.major, m.minor, m.patch]) : '+' ∉ run :=
    fun plus => absurd ((leads.digits run mem).2 _ plus) (by decide)
  have pre : '+' ∉ Toolchain.hyphenated m.pre := by
    unfold Toolchain.hyphenated
    split
    · exact nofun
    · intro mem
      have behind := (List.mem_cons.mp mem).resolve_left (by decide)
      exact absurd (leads.dotted _ behind) (by decide)
  simp [Toolchain.Candidate.chars, number, pre] at plus

/-- What looks like a version and is written as one is that version. -/
theorem eq_candidate (leads : m.Leads cs rest) (same : m.chars = v.chars) :
    v.build = [] ∧ m = v.candidate := by
  have plain := build_eq_nil leads same
  have itself : v.candidate.Leads (v.chars ++ []) [] :=
    (leads_candidate plain).mpr ⟨fun _ => ⟨nofun, nofun⟩, fun _ => nofun⟩
  rw [List.append_nil, ← same] at itself
  exact ⟨plain, (leads.alone.unique itself).1⟩

end Version

namespace Toolchain

variable {m : Candidate} {cs rest : List Char} {report : String}

/-! ## Reading a report -/

theorem versionOf?_eq_some_iff {v : Version} :
    versionOf? report = some v ↔ ∃ m cs rest,
      Text.trim report.toList = reportStart ++ cs ∧ Candidate.Leads m cs rest ∧
        m.chars = v.chars := by
  unfold versionOf?
  simp only [Option.bind_eq_bind, Option.bind_eq_some_iff, Version.ofChars?_eq_some_iff,
    List.isPrefixOf?_eq_some_iff_append_eq]
  constructor
  · rintro ⟨cs, trimmed, run, found, read⟩
    obtain ⟨m, rest, leads, rfl⟩ := exists_leads_of_versionRun found
    exact ⟨m, cs, rest, trimmed.symm, leads, read⟩
  · rintro ⟨m, cs, rest, trimmed, leads, read⟩
    exact ⟨cs, trimmed.symm, m.chars, versionRun_of_leads leads, read⟩

/-- A report names a version when it starts with the version as it is written, and goes on with
nothing that would continue it. -/
theorem versionOf?_eq_some_iff_endsBefore {v : Version} :
    versionOf? report = some v ↔ v.build = [] ∧ ∃ rest,
      Text.trim report.toList = reportStart ++ (v.chars ++ rest) ∧ v.EndsBefore rest := by
  rw [versionOf?_eq_some_iff]
  constructor
  · rintro ⟨m, cs, rest, trimmed, leads, read⟩
    obtain ⟨plain, rfl⟩ := Version.eq_candidate leads read
    obtain rfl := leads.eq
    rw [read] at leads trimmed
    exact ⟨plain, rest, trimmed, (Version.leads_candidate plain).mp leads⟩
  · rintro ⟨plain, rest, trimmed, ends⟩
    exact ⟨v.candidate, v.chars ++ rest, rest, trimmed, (Version.leads_candidate plain).mpr ends,
      Version.chars_candidate plain⟩

/-- What looks like a version decides alone. -/
theorem versionOf?_eq_some_iff_of_leads (trimmed : Text.trim report.toList = reportStart ++ cs)
    (leads : m.Leads cs rest) {v : Version} : versionOf? report = some v ↔ m.chars = v.chars := by
  rw [versionOf?_eq_some_iff]
  constructor
  · rintro ⟨m', cs', rest', trimmed', leads', same⟩
    obtain rfl := List.append_cancel_left (trimmed.symm.trans trimmed')
    rw [(leads.unique leads').1]
    exact same
  · intro same
    exact ⟨m, cs, rest, trimmed, leads, same⟩

theorem not_isBlank_of_isDottedChar {c : Char} (dotted : isDottedChar c = true) :
    Text.isBlank c = false := by
  have range : 45 ≤ c.toNat ∧ c.toNat ≤ 122 := by
    unfold isDottedChar isIdentifierChar Char.isAlphanum Char.isAlpha Char.isUpper Char.isLower
      Char.isDigit at dotted
    simp only [Bool.or_eq_true, Bool.and_eq_true, decide_eq_true_eq, beq_iff_eq, ge_iff_le,
      UInt32.le_iff_toNat_le] at dotted
    change ((((65 ≤ c.toNat ∧ c.toNat ≤ 90) ∨ (97 ≤ c.toNat ∧ c.toNat ≤ 122)) ∨
      (48 ≤ c.toNat ∧ c.toNat ≤ 57)) ∨ c = '-') ∨ c = '.' at dotted
    rcases dotted with (_ | rfl) | rfl
    · omega
    · decide
    · decide
  unfold Text.isBlank
  simp
  omega

theorem isDottedChar_of_mem_chars {v : Version} (plain : v.build = []) :
    ∀ c ∈ v.chars, isDottedChar c = true := by
  have digit {n : Nat} : ∀ c ∈ Nat.toDigits 10 n, isDottedChar c = true := by
    intro c mem
    have digit := Text.isDigit_of_mem_toDigits c mem
    rw [isDottedChar, Version.isIdentifierChar_of_isDigit digit, Bool.true_or]
  intro c mem
  rw [← Version.chars_candidate plain, Candidate.chars, List.mem_append, List.mem_append,
    List.mem_append, List.mem_cons, List.mem_cons] at mem
  rcases mem with ((mem | rfl | mem) | rfl | mem) | mem
  · exact digit c mem
  · rfl
  · exact digit c mem
  · rfl
  · exact digit c mem
  · unfold hyphenated at mem
    split at mem
    · cases mem
    · rcases List.mem_cons.mp mem with rfl | mem
      · rfl
      · exact Version.isDottedChar_of_mem_intercalate Identifier.isIdentifierChar_of_mem_chars
          v.pre c mem

/-- Nothing comes off a report that ends with its version. -/
theorem trimmed_report {v : Version} (plain : v.build = []) :
    Text.Trimmed (reportStart ++ v.chars) := by
  constructor
  · rintro c ⟨⟩
    rfl
  · intro c last
    rw [List.getLast?_append] at last
    cases ends : v.chars.getLast? with
    | none =>
      have filled : v.chars ≠ [] := by
        rw [← Version.chars_candidate plain]
        simp [Candidate.chars]
      exact absurd (List.getLast?_eq_none_iff.mp ends) filled
    | some d =>
      rw [ends] at last
      cases last
      exact not_isBlank_of_isDottedChar
        (isDottedChar_of_mem_chars plain _ (List.mem_of_getLast? ends))

/-! ## What is no version -/

/-- What is wrong with something that looks like a version but is none. -/
inductive Candidate.Defect (m : Candidate) : Prop
  /-- A digit of another script. -/
  | foreignDigit {run : List Char} {c : Char} :
    run ∈ [m.major, m.minor, m.patch] → c ∈ run → c.isDigit = false → Defect m
  /-- A number with a zero in front. -/
  | zeroInFront {run : List Char} :
    run ∈ [m.major, m.minor, m.patch] → run.head? = some '0' → run ≠ ['0'] → Defect m
  /-- A number of more than 64 bits. -/
  | tooLarge {run : List Char} :
    run ∈ [m.major, m.minor, m.patch] → UInt64.size ≤ Nat.ofDigitChars 10 run 0 → Defect m
  /-- Nothing between two dots of the pre-release, or at one of its ends. -/
  | emptyIdentifier : m.pre ≠ [] → [] ∈ m.pre.splitOn '.' → Defect m
  /-- A number with a zero in front, among the identifiers of the pre-release. -/
  | zeroInFrontOfIdentifier {cs : List Char} :
    m.pre ≠ [] → cs ∈ m.pre.splitOn '.' → (∀ c ∈ cs, c.isDigit = true) → cs.head? = some '0' →
    cs ≠ ['0'] → Defect m

theorem exists_number_iff {digits : List Char} (filled : digits ≠ []) :
    (∃ w : UInt64, digits = Nat.toDigits 10 w.toNat) ↔
      (∀ c ∈ digits, c.isDigit = true) ∧ (digits.head? = some '0' → digits = ['0']) ∧
        Nat.ofDigitChars 10 digits 0 < UInt64.size := by
  constructor
  · rintro ⟨w, rfl⟩
    have numeral := Text.isNumeral_toDigits w.toNat
    refine ⟨numeral.digits, numeral.exact, ?_⟩
    rw [Nat.ofDigitChars_ten_toDigits]
    exact w.toNat_lt_size
  · rintro ⟨all, exact, small⟩
    have numeral : Text.IsNumeral digits := ⟨all, filled, exact⟩
    refine ⟨UInt64.ofNat (Nat.ofDigitChars 10 digits 0), ?_⟩
    rw [UInt64.toNat_ofNat_of_lt' small, numeral.toDigits_eq]

theorem exists_identifier_iff {cs : List Char} (valid : ∀ c ∈ cs, isIdentifierChar c = true) :
    (∃ i : Identifier, cs = i.chars) ↔
      cs ≠ [] ∧ ((∀ c ∈ cs, c.isDigit = true) → cs.head? = some '0' → cs = ['0']) := by
  constructor
  · rintro ⟨i, rfl⟩
    refine ⟨i.chars_ne_nil, fun digits => ?_⟩
    cases i with
    | number n => exact (Text.isNumeral_toDigits n).exact
    | word chars word =>
      have all : chars.all Char.isDigit = true := List.all_eq_true.mpr digits
      rw [word.2] at all
      cases all
  · rintro ⟨filled, exact⟩
    by_cases digits : cs.all Char.isDigit = true
    · have all := List.all_eq_true.mp digits
      have numeral : Text.IsNumeral cs := ⟨all, filled, exact all⟩
      exact ⟨.number (Nat.ofDigitChars 10 cs 0), numeral.toDigits_eq.symm⟩
    · exact ⟨.word cs ⟨List.all_eq_true.mpr valid, Bool.eq_false_iff.mpr digits⟩, rfl⟩

/-- What stands between the separators has none of them, and nothing new. -/
theorem mem_of_mem_splitOn {α : Type} [DecidableEq α] {separator : α} {xs : List α} :
    ∀ part ∈ xs.splitOn separator, ∀ x ∈ part, x ∈ xs ∧ x ≠ separator := by
  induction xs with
  | nil =>
    intro part mem
    rw [List.splitOn_nil, List.mem_singleton] at mem
    subst mem
    exact nofun
  | cons first xs ih =>
    have further {part : List α} (mem : part ∈ xs.splitOn separator) :
        ∀ x ∈ part, x ∈ first :: xs ∧ x ≠ separator :=
      fun x inside => (ih part mem x inside).imp_left (List.mem_cons_of_mem first)
    intro part mem
    rw [List.splitOn_cons_eq_if_modifyHead] at mem
    split at mem
    · rcases List.mem_cons.mp mem with rfl | mem
      · exact nofun
      · exact further mem
    next apart =>
      cases parts : xs.splitOn separator with
      | nil => exact absurd parts (List.splitOn_ne_nil _ _)
      | cons part' parts' =>
        rw [parts, List.modifyHead_cons] at mem
        rcases List.mem_cons.mp mem with rfl | mem
        · intro x inside
          rcases List.mem_cons.mp inside with rfl | inside
          · exact ⟨List.mem_cons_self, by simpa using apart⟩
          · refine further ?_ x inside
            rw [parts]
            exact List.mem_cons_self
        · refine further ?_
          rw [parts]
          exact List.mem_cons_of_mem _ mem

theorem exists_pre_iff {pre : List Char} (dotted : ∀ c ∈ pre, isDottedChar c = true)
    (filled : pre ≠ []) :
    (∃ ids : List Identifier, pre = ['.'].intercalate (ids.map Identifier.chars)) ↔
      ∀ cs ∈ pre.splitOn '.',
        cs ≠ [] ∧ ((∀ c ∈ cs, c.isDigit = true) → cs.head? = some '0' → cs = ['0']) := by
  have valid : ∀ cs ∈ pre.splitOn '.', ∀ c ∈ cs, isIdentifierChar c = true := by
    intro cs part c mem
    obtain ⟨inside, apart⟩ := mem_of_mem_splitOn cs part c mem
    have either := dotted c inside
    rw [isDottedChar, Bool.or_eq_true, beq_iff_eq] at either
    exact either.resolve_right apart
  constructor
  · rintro ⟨ids, rfl⟩ cs part
    have some : ids ≠ [] := by
      rintro rfl
      exact filled rfl
    have plain (i : Identifier) : '.' ∉ i.chars :=
      fun mem => absurd (i.isIdentifierChar_of_mem_chars _ mem) (by decide)
    refine (exists_identifier_iff (valid cs part)).mp ?_
    rw [(Version.splitOn_eq_map_iff plain).mpr ⟨some, rfl⟩] at part
    obtain ⟨i, -, rfl⟩ := List.mem_map.mp part
    exact ⟨i, rfl⟩
  · intro identifiers
    have found : pre.splitOn '.' ∈ Set.range (List.map Identifier.chars) := by
      rw [Set.range_list_map]
      intro cs part
      obtain ⟨i, same⟩ := (exists_identifier_iff (valid cs part)).mpr (identifiers cs part)
      exact ⟨i, same.symm⟩
    obtain ⟨ids, same⟩ := found
    exact ⟨ids, by rw [same, List.intercalate_splitOn]⟩

/-- What looks like a version is one when each of its parts is. -/
theorem exists_version_iff (leads : m.Leads cs rest) :
    (∃ v : Version, m.chars = v.chars) ↔
      (∀ run ∈ [m.major, m.minor, m.patch], ∃ w : UInt64, run = Nat.toDigits 10 w.toNat) ∧
        ∃ ids : List Identifier, m.pre = ['.'].intercalate (ids.map Identifier.chars) := by
  constructor
  · rintro ⟨v, same⟩
    obtain ⟨-, rfl⟩ := Version.eq_candidate leads same
    refine ⟨fun run mem => ?_, v.pre, rfl⟩
    simp only [Version.candidate, List.mem_cons, List.not_mem_nil, or_false] at mem
    rcases mem with rfl | rfl | rfl
    all_goals exact ⟨_, rfl⟩
  · rintro ⟨numbers, ids, pre⟩
    obtain ⟨major, eq₁⟩ := numbers m.major (by simp)
    obtain ⟨minor, eq₂⟩ := numbers m.minor (by simp)
    obtain ⟨patch, eq₃⟩ := numbers m.patch (by simp)
    refine ⟨{ major, minor, patch, pre := ids }, ?_⟩
    rw [← Version.chars_candidate rfl, Candidate.chars, eq₁, eq₂, eq₃, pre]
    rfl

theorem exists_version_iff_not_defect (leads : m.Leads cs rest) :
    (∃ v : Version, m.chars = v.chars) ↔ ¬ m.Defect := by
  have numbers (run : List Char) (mem : run ∈ [m.major, m.minor, m.patch]) :=
    exists_number_iff (leads.digits run mem).1
  rw [exists_version_iff leads]
  constructor
  · rintro ⟨whole, ids⟩ (⟨mem, inside, foreign⟩ | ⟨mem, zero, longer⟩ | ⟨mem, large⟩ |
      ⟨filled, part⟩ | ⟨filled, part, digits, zero, longer⟩)
    · have all := ((numbers _ mem).mp (whole _ mem)).1 _ inside
      rw [foreign] at all
      cases all
    · exact longer (((numbers _ mem).mp (whole _ mem)).2.1 zero)
    · have small := ((numbers _ mem).mp (whole _ mem)).2.2
      omega
    · exact ((exists_pre_iff leads.dotted filled).mp ids _ part).1 rfl
    · exact longer (((exists_pre_iff leads.dotted filled).mp ids _ part).2 digits zero)
  · intro sound
    constructor
    · intro run mem
      refine (numbers run mem).mpr ⟨fun c inside => ?_, fun zero => ?_, ?_⟩
      · by_contra foreign
        exact sound (.foreignDigit mem inside (Bool.eq_false_iff.mpr foreign))
      · by_contra longer
        exact sound (.zeroInFront mem zero longer)
      · by_contra large
        exact sound (.tooLarge mem (Nat.le_of_not_lt large))
    · by_cases filled : m.pre = []
      · exact ⟨[], filled⟩
      · refine (exists_pre_iff leads.dotted filled).mpr fun cs part => ⟨?_, fun digits zero => ?_⟩
        · rintro rfl
          exact sound (.emptyIdentifier filled part)
        · by_contra longer
          exact sound (.zeroInFrontOfIdentifier filled part digits zero longer)

/-- **The version that a report names.**  A report is read as a version exactly when, with the white
space off both its ends, it starts with `cargo `, goes on with the version as it is written, which
has no build metadata then, and what follows does not continue it: no character of a pre-release
behind a pre-release, and without one neither a digit of any script nor a hyphen with such a
character.  So a version that is written behind `cargo ` is read back.  What looks like a version is
read as a whole or not at all, and it is read unless one of its parts is defective. -/
theorem report_names_version (report : String) :
    (∀ v : Version, versionOf? report = some v ↔ v.build = [] ∧ ∃ rest,
      Text.trim report.toList = "cargo ".toList ++ (toString v).toList ++ rest ∧
      (v.pre ≠ [] → ∀ c ∈ rest.head?, isDottedChar c = false) ∧
      (v.pre = [] → (∀ c ∈ rest.head?, isDecimalDigit c = false) ∧
        ∀ c tail, rest = '-' :: c :: tail → isDottedChar c = false)) ∧
    (∀ v : Version, v.build = [] → versionOf? ("cargo " ++ toString v) = some v) ∧
    ∀ m cs rest, Text.trim report.toList = "cargo ".toList ++ cs → Candidate.Leads m cs rest →
      (versionOf? report = none ↔ m.Defect) ∧
        ∀ v, versionOf? report = some v → (toString v).toList = m.chars := by
  have written (v : Version) : (toString v).toList = v.chars := String.toList_ofList
  refine ⟨fun v => ?_, fun v plain => ?_, fun m cs rest trimmed leads => ?_⟩
  · rw [versionOf?_eq_some_iff_endsBefore, written]
    refine and_congr_right fun _ => exists_congr fun rest => ?_
    rw [← List.append_assoc]
    exact and_congr_right fun _ => ⟨fun ends => ⟨ends.pre, ends.release⟩,
      fun ends => ⟨ends.2, ends.1⟩⟩
  · refine versionOf?_eq_some_iff_endsBefore.mpr ⟨plain, [], ?_, fun _ => ⟨nofun, nofun⟩,
      fun _ => nofun⟩
    rw [String.toList_append, written, List.append_nil]
    exact Text.trim_of_trimmed (trimmed_report plain)
  · have decided {v : Version} := versionOf?_eq_some_iff_of_leads trimmed leads (v := v)
    constructor
    · rw [Option.eq_none_iff_forall_ne_some, ← not_exists, exists_congr fun v => decided,
        exists_version_iff_not_defect leads, not_not]
    · intro v read
      rw [written, decided.mp read]

end Toolchain

end BuildLauncher
