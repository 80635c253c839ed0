import BuildLauncher.Proofs.Version.Reader
import BuildLauncher.Toolchain

/-!
# What looks like a version

A report of a version is searched for characters that look like one before they are read as one.
`Candidate.Leads` says what the search is for: three runs of digits of any script with dots between
them, and then as much of a pre-release as there is.

* `Candidate.Leads.unique`: a text starts with one candidate at most, and what follows it is clear.
* `versionRun_of_leads`, `exists_leads_of_versionRun`: the search finds the candidate that a text
  starts with.
-/

namespace BuildLauncher.Toolchain

open Text (Spans isDecimalDigit)
open Version (isDottedChar afterDot)

variable {cs run rest rest' pre pre' : List Char}

/-- What looks like a version: three runs of digits, and the characters of a pre-release, none of
them when there is none. -/
structure Candidate where
  major : List Char
  minor : List Char
  patch : List Char
  pre : List Char

/-- A pre-release behind its hyphen, or nothing when there is none. -/
def hyphenated (pre : List Char) : List Char := if pre = [] then [] else '-' :: pre

/-- A pre-release, or the place where there is none, ends before a text. -/
structure PreEnds (pre rest : List Char) : Prop where
  absent : pre = [] → ∀ c tail, rest = '-' :: c :: tail → isDottedChar c = false
  present : pre ≠ [] → ∀ c ∈ rest.head?, isDottedChar c = false

namespace Candidate

variable {m m' : Candidate}

/-- The characters of a candidate. -/
def chars (m : Candidate) : List Char :=
  m.major ++ '.' :: m.minor ++ '.' :: m.patch ++ hyphenated m.pre

/-- A text starts with a candidate, which goes as far as it can, and `rest` follows. -/
structure Leads (m : Candidate) (cs rest : List Char) : Prop where
  eq : cs = m.chars ++ rest
  digits : ∀ run ∈ [m.major, m.minor, m.patch], run ≠ [] ∧ ∀ c ∈ run, isDecimalDigit c = true
  dotted : ∀ c ∈ m.pre, isDottedChar c = true
  patchEnds : m.pre = [] → ∀ c ∈ rest.head?, isDecimalDigit c = false
  preEnds : PreEnds m.pre rest

theorem chars_append (m : Candidate) (rest : List Char) :
    m.chars ++ rest =
      m.major ++ '.' :: (m.minor ++ '.' :: (m.patch ++ (hyphenated m.pre ++ rest))) := by
  simp [chars]

end Candidate

/-! ## Pre-releases -/

theorem preRun_of_preEnds (dotted : ∀ c ∈ pre, isDottedChar c = true) (ends : PreEnds pre rest) :
    preRun (hyphenated pre ++ rest) = hyphenated pre := by
  by_cases absent : pre = []
  · rw [hyphenated, if_pos absent, List.nil_append]
    unfold preRun
    split
    next c cs =>
      cases cs with
      | nil => rfl
      | cons c tail =>
        have stops := ends.absent absent c tail rfl
        rw [List.takeWhile_cons_of_neg (by simp [stops]), if_pos rfl]
    · rfl
  · have spans : Spans isDottedChar (pre ++ rest) pre rest := ⟨rfl, dotted, ends.present absent⟩
    rw [hyphenated, if_neg absent, List.cons_append]
    change (if (pre ++ rest).takeWhile isDottedChar = [] then [] else _) = _
    rw [spans.takeWhile_eq, if_neg absent]

theorem exists_preEnds_of_preRun (cs : List Char) :
    ∃ pre rest, preRun cs = hyphenated pre ∧ cs = hyphenated pre ++ rest ∧
      (∀ c ∈ pre, isDottedChar c = true) ∧ PreEnds pre rest := by
  unfold preRun
  split
  next tail =>
    have spans := Text.spans_takeWhile isDottedChar tail
    refine ⟨tail.takeWhile isDottedChar, ?_⟩
    by_cases absent : tail.takeWhile isDottedChar = []
    · refine ⟨'-' :: tail, ?_, ?_, spans.all, ?_, fun present => absurd absent present⟩
      · rw [if_pos absent, hyphenated, if_pos absent]
      · rw [hyphenated, if_pos absent, List.nil_append]
      · rintro - c tail' same
        cases same
        by_contra dotted
        rw [List.takeWhile_cons_of_pos (by simpa using dotted)] at absent
        cases absent
    · refine ⟨tail.dropWhile isDottedChar, ?_, ?_, spans.all, fun none => absurd none absent,
        fun _ => spans.stops⟩
      · rw [if_neg absent, hyphenated, if_neg absent]
      · rw [hyphenated, if_neg absent, List.cons_append, ← spans.eq]
  next other =>
    refine ⟨[], cs, rfl, rfl, nofun, ?_, fun present => absurd rfl present⟩
    rintro - c tail rfl
    exact absurd rfl (other _)

theorem hyphenated_inj (same : hyphenated pre = hyphenated pre') : pre = pre' := by
  unfold hyphenated at same
  split at same
  next absent =>
    split at same
    next absent' => rw [absent, absent']
    · cases same
  · split at same
    · cases same
    · exact (List.cons.inj same).2

/-! ## The whole search -/

theorem not_isDecimalDigit_dot : isDecimalDigit '.' = false := by decide

theorem not_isDecimalDigit_hyphen : isDecimalDigit '-' = false := by decide

/-- A run of digits in front of a dot. -/
theorem spans_dot (digits : ∀ c ∈ run, isDecimalDigit c = true) (rest : List Char) :
    Spans isDecimalDigit (run ++ '.' :: rest) run ('.' :: rest) := by
  refine ⟨rfl, digits, ?_⟩
  rintro c ⟨⟩
  exact not_isDecimalDigit_dot

theorem digitRun_eq_some_iff :
    digitRun cs = some (run, rest) ↔ run ≠ [] ∧ Spans isDecimalDigit cs run rest := by
  have spans := Text.spans_takeWhile isDecimalDigit cs
  unfold digitRun
  constructor
  · intro found
    dsimp only at found
    split at found
    · cases found
    next filled =>
      cases found
      exact ⟨filled, spans⟩
  · rintro ⟨filled, found⟩
    dsimp only
    rw [found.takeWhile_eq, found.dropWhile_eq, if_neg filled]

namespace Candidate

variable {m m' : Candidate}

/-- The patch number of a candidate ends where its pre-release or the rest begins. -/
theorem Leads.spans_patch (leads : m.Leads cs rest) :
    Spans isDecimalDigit (m.patch ++ (hyphenated m.pre ++ rest)) m.patch
      (hyphenated m.pre ++ rest) := by
  refine ⟨rfl, (leads.digits m.patch (by simp)).2, fun c first => ?_⟩
  by_cases absent : m.pre = []
  · rw [hyphenated, if_pos absent] at first
    exact leads.patchEnds absent c first
  · rw [hyphenated, if_neg absent] at first
    cases first
    exact not_isDecimalDigit_hyphen

/-- A text starts with one candidate at most. -/
theorem Leads.unique (first : m.Leads cs rest) (second : m'.Leads cs rest') :
    m = m' ∧ rest = rest' := by
  have same := first.eq.symm.trans second.eq
  rw [chars_append, chars_append] at same
  have major := spans_dot (first.digits m.major (by simp)).2
    (m.minor ++ '.' :: (m.patch ++ (hyphenated m.pre ++ rest)))
  rw [same] at major
  obtain ⟨major, same⟩ := major.unique (spans_dot (second.digits m'.major (by simp)).2 _)
  have minor := spans_dot (first.digits m.minor (by simp)).2
    (m.patch ++ (hyphenated m.pre ++ rest))
  rw [(List.cons.inj same).2] at minor
  obtain ⟨minor, same⟩ := minor.unique (spans_dot (second.digits m'.minor (by simp)).2 _)
  have patch := first.spans_patch
  rw [(List.cons.inj same).2] at patch
  obtain ⟨patch, same⟩ := patch.unique second.spans_patch
  have pre := preRun_of_preEnds first.dotted first.preEnds
  rw [same, preRun_of_preEnds second.dotted second.preEnds] at pre
  rw [pre] at same
  refine ⟨?_, List.append_cancel_left same⟩
  obtain ⟨_, _, _, _⟩ := m
  obtain ⟨_, _, _, _⟩ := m'
  cases major
  cases minor
  cases patch
  cases hyphenated_inj pre
  rfl

/-- A candidate by itself goes as far as it can. -/
theorem Leads.alone (leads : m.Leads cs rest) : m.Leads m.chars [] where
  eq := (List.append_nil _).symm
  digits := leads.digits
  dotted := leads.dotted
  patchEnds := nofun
  preEnds := ⟨nofun, nofun⟩

end Candidate

open Candidate (Leads)

theorem versionRun_of_leads {m : Candidate} (leads : m.Leads cs rest) :
    versionRun cs = some m.chars := by
  have major := leads.digits m.major (by simp)
  have minor := leads.digits m.minor (by simp)
  have patch := leads.digits m.patch (by simp)
  rw [leads.eq, Candidate.chars_append]
  unfold versionRun
  simp only [Option.bind_eq_bind, Option.bind_eq_some_iff]
  refine ⟨_, digitRun_eq_some_iff.mpr ⟨major.1, spans_dot major.2 _⟩, _, rfl,
    _, digitRun_eq_some_iff.mpr ⟨minor.1, spans_dot minor.2 _⟩, _, rfl,
    _, digitRun_eq_some_iff.mpr ⟨patch.1, leads.spans_patch⟩, ?_⟩
  dsimp only
  rw [preRun_of_preEnds leads.dotted leads.preEnds]
  rfl

theorem exists_leads_of_versionRun (found : versionRun cs = some run) :
    ∃ m rest, Leads m cs rest ∧ run = m.chars := by
  unfold versionRun at found
  simp only [Option.bind_eq_bind, Option.bind_eq_some_iff] at found
  obtain ⟨⟨major, cs₁⟩, first, cs₂, dot, ⟨minor, cs₃⟩, second, cs₄, dot', ⟨patch, cs₅⟩, third,
    found⟩ := found
  obtain ⟨filled₁, spans₁⟩ := digitRun_eq_some_iff.mp first
  obtain ⟨filled₂, spans₂⟩ := digitRun_eq_some_iff.mp second
  obtain ⟨filled₃, spans₃⟩ := digitRun_eq_some_iff.mp third
  obtain ⟨pre, rest, read, split, dotted, ends⟩ := exists_preEnds_of_preRun cs₅
  have dot := Version.afterDot_eq_some_iff.mp dot
  have dot' := Version.afterDot_eq_some_iff.mp dot'
  dsimp only at dot dot' found
  cases found
  refine ⟨⟨major, minor, patch, pre⟩, rest, ⟨?_, ?_, dotted, ?_, ends⟩, ?_⟩
  · rw [Candidate.chars_append, ← split, ← spans₃.eq, ← dot', ← spans₂.eq, ← dot, ← spans₁.eq]
  · intro run mem
    rcases List.mem_cons.mp mem with rfl | mem
    · exact ⟨filled₁, spans₁.all⟩
    rcases List.mem_cons.mp mem with rfl | mem
    · exact ⟨filled₂, spans₂.all⟩
    · rw [List.mem_singleton.mp mem]
      exact ⟨filled₃, spans₃.all⟩
  · rintro (rfl : pre = []) c start
    rw [split] at spans₃
    exact spans₃.stops c start
  · rw [read]
    rfl

end BuildLauncher.Toolchain
