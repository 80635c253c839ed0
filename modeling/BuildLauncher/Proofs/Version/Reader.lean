import BuildLauncher.Proofs.Text.Numeral
import BuildLauncher.Proofs.Text.Span
import BuildLauncher.Version.Reader
import Mathlib.Data.List.Basic

/-!
# Reading versions undoes writing them

A version is read from one text only, the text that it is written as.

* `Version.readNumber_eq_some_iff`, `Version.readDotted_eq_some_iff`: what is read at the front of a
  text, and what is left of it.
* `Version.ofChars?_eq_some_iff`: a text is read as a version exactly when that version is written
  so.
-/

namespace BuildLauncher.Version

open Text (IsNumeral Spans isDigit_of_mem_toDigits isNumeral_toDigits)

/-! ## Numbers -/

theorem numberOf?_eq_some_iff {digits : List Char} {n : Nat}
    (all : ∀ c ∈ digits, c.isDigit = true) :
    numberOf? digits = some n ↔ digits = Nat.toDigits 10 n := by
  unfold numberOf?
  constructor
  · intro read
    split at read
    · cases read
    next filled =>
    split at read
    · cases read
    next exact =>
    cases read
    have numeral : IsNumeral digits := by
      refine ⟨all, filled, fun zero => ?_⟩
      by_contra longer
      refine exact ⟨zero, fun one => longer ?_⟩
      obtain ⟨c, rfl⟩ := List.length_eq_one_iff.mp one
      exact congrArg (fun c => [c]) (Option.some.inj zero)
    exact numeral.toDigits_eq.symm
  · rintro rfl
    have exact : ¬ ((Nat.toDigits 10 n).head? = some '0' ∧ (Nat.toDigits 10 n).length ≠ 1) := by
      rintro ⟨zero, longer⟩
      rw [(isNumeral_toDigits n).exact zero] at longer
      exact longer rfl
    rw [if_neg Nat.toDigits_ne_nil, if_neg exact, Nat.ofDigitChars_ten_toDigits]

theorem readNumber_eq_some_iff {cs rest : List Char} {w : UInt64} :
    readNumber cs = some (w, rest) ↔
      Spans Char.isDigit cs (Nat.toDigits 10 w.toNat) rest := by
  have spans := Text.spans_takeWhile Char.isDigit cs
  unfold readNumber
  rw [Option.bind_eq_bind, Option.bind_eq_some_iff]
  constructor
  · rintro ⟨n, number, read⟩
    split at read
    next small =>
      cases read
      rw [UInt64.toNat_ofNat_of_lt' small, ← (numberOf?_eq_some_iff spans.all).mp number]
      exact spans
    · cases read
  · intro found
    refine ⟨w.toNat, (numberOf?_eq_some_iff spans.all).mpr found.takeWhile_eq, ?_⟩
    rw [if_pos w.toNat_lt_size, found.dropWhile_eq, UInt64.ofNat_toNat]

theorem afterDot_eq_some_iff {cs rest : List Char} :
    afterDot cs = some rest ↔ cs = '.' :: rest := by
  constructor
  · intro read
    unfold afterDot at read
    split at read
    · cases read
      rfl
    · cases read
  · rintro rfl
    rfl

/-! ## Identifiers and labels -/

theorem isIdentifierChar_of_isDigit {c : Char} (digit : c.isDigit = true) :
    isIdentifierChar c = true := by
  unfold isIdentifierChar Char.isAlphanum
  rw [digit, Bool.or_true, Bool.true_or]

theorem Identifier.isIdentifierChar_of_mem_chars (i : Identifier) :
    ∀ c ∈ i.chars, isIdentifierChar c = true := by
  intro c mem
  cases i with
  | number n => exact isIdentifierChar_of_isDigit (isDigit_of_mem_toDigits c mem)
  | word chars valid => exact List.all_eq_true.mp valid.1 c mem

theorem Identifier.chars_ne_nil (i : Identifier) : i.chars ≠ [] := by
  cases i with
  | number n => exact Nat.toDigits_ne_nil
  | word chars valid =>
    rintro (rfl : chars = [])
    cases valid.2

theorem Identifier.ofChars?_eq_some_iff {cs : List Char} {i : Identifier} :
    ofChars? cs = some i ↔ cs = i.chars := by
  unfold ofChars?
  cases i with
  | number n =>
    change _ ↔ cs = Nat.toDigits 10 n
    by_cases digits : cs.all Char.isDigit = true
    · rw [if_pos digits, Option.map_eq_some_iff]
      rw [← numberOf?_eq_some_iff (List.all_eq_true.mp digits)]
      constructor
      · rintro ⟨m, number, same⟩
        cases same
        exact number
      · exact fun number => ⟨n, number, rfl⟩
    · rw [if_neg digits]
      constructor
      · intro read
        split at read
        all_goals cases read
      · rintro rfl
        exact absurd (List.all_eq_true.mpr isDigit_of_mem_toDigits) digits
  | word chars valid =>
    change _ ↔ cs = chars
    constructor
    · intro read
      split at read
      · obtain ⟨m, -, same⟩ := Option.map_eq_some_iff.mp read
        cases same
      split at read
      · cases read
        rfl
      · cases read
    · rintro rfl
      have word : ¬ cs.all Char.isDigit = true := by
        rw [valid.2]
        exact Bool.false_ne_true
      rw [if_neg word, dif_pos valid]

theorem Label.ofChars?_eq_some_iff {cs : List Char} {l : Label} :
    ofChars? cs = some l ↔ cs = l.chars := by
  unfold ofChars?
  constructor
  · intro read
    split at read
    · cases read
      rfl
    · cases read
  · rintro rfl
    rw [dif_pos l.valid]

/-! ## Dotted lists -/

section Dotted

variable {α : Type} {mark : Char} {segment : List Char → Option α} {chars : α → List Char}

/-- Segments without dots are found again between the dots. -/
theorem splitOn_eq_map_iff (plain : ∀ a, '.' ∉ chars a) {cs : List Char} {segments : List α} :
    cs.splitOn '.' = segments.map chars ↔
      segments ≠ [] ∧ cs = ['.'].intercalate (segments.map chars) := by
  constructor
  · intro split
    constructor
    · rintro rfl
      exact List.splitOn_ne_nil _ _ split
    · rw [← split, List.intercalate_splitOn]
  · rintro ⟨filled, rfl⟩
    refine List.splitOn_intercalate '.' ?_ (mt List.map_eq_nil_iff.mp filled)
    intro cs mem
    obtain ⟨a, -, rfl⟩ := List.mem_map.mp mem
    exact plain a

theorem isDottedChar_of_mem_intercalate
    (within : ∀ a, ∀ c ∈ chars a, isIdentifierChar c = true) (segments : List α) :
    ∀ c ∈ ['.'].intercalate (segments.map chars), isDottedChar c = true := by
  have dotted (a : α) : ∀ c ∈ chars a, isDottedChar c = true := by
    intro c mem
    rw [isDottedChar, within a c mem, Bool.true_or]
  induction segments with
  | nil => exact nofun
  | cons a segments ih =>
    intro c mem
    cases segments with
    | nil =>
      rw [List.map_singleton, List.intercalate_singleton] at mem
      exact dotted a c mem
    | cons b segments =>
      rw [List.map_cons, List.map_cons, List.intercalate_cons_cons, List.append_assoc,
        List.mem_append, List.mem_append] at mem
      rcases mem with mem | mem | mem
      · exact dotted a c mem
      · rw [List.mem_singleton.mp mem]
        rfl
      · exact ih c mem

/-- A dotted list behind its mark, or nothing when it is empty. -/
def dotted (mark : Char) (chars : α → List Char) (segments : List α) : List Char :=
  if segments = [] then [] else mark :: ['.'].intercalate (segments.map chars)

/-- Nothing that follows a dotted list, or follows the place where there is none, belongs to it. -/
def EndsDotted (mark : Char) (segments : List α) (rest : List Char) : Prop :=
  ∀ c ∈ rest.head?, if segments = [] then c ≠ mark else isDottedChar c = false

theorem readDotted_eq_some_iff (reads : ∀ cs a, segment cs = some a ↔ cs = chars a)
    (within : ∀ a, ∀ c ∈ chars a, isIdentifierChar c = true) {cs rest : List Char}
    {segments : List α} :
    readDotted mark segment cs = some (segments, rest) ↔
      cs = dotted mark chars segments ++ rest ∧ EndsDotted mark segments rest := by
  have plain (a : α) : '.' ∉ chars a := fun mem => absurd (within a _ mem) (by decide)
  constructor
  · intro read
    unfold readDotted at read
    split at read
    next c body =>
      split at read
      next marked =>
        obtain ⟨found, split, same⟩ := Option.bind_eq_some_iff.mp read
        cases same
        rw [Text.mapM_eq_some_iff reads, splitOn_eq_map_iff plain] at split
        have spans := Text.spans_takeWhile isDottedChar body
        refine ⟨?_, fun c first => ?_⟩
        · rw [dotted, if_neg split.1, ← split.2, marked, List.cons_append, ← spans.eq]
        · rw [if_neg split.1]
          exact spans.stops c first
      next unmarked =>
        cases read
        refine ⟨rfl, fun c' first => ?_⟩
        cases first
        rw [if_pos rfl]
        exact unmarked
    · cases read
      exact ⟨rfl, nofun⟩
  · rintro ⟨rfl, ends⟩
    by_cases empty : segments = []
    · subst empty
      change readDotted mark segment rest = _
      cases rest with
      | nil => rfl
      | cons c rest =>
        have unmarked : c ≠ mark := by
          have ends := ends c rfl
          rw [if_pos rfl] at ends
          exact ends
        exact if_neg unmarked
    · have spans : Spans isDottedChar (['.'].intercalate (segments.map chars) ++ rest)
          (['.'].intercalate (segments.map chars)) rest := by
        refine ⟨rfl, isDottedChar_of_mem_intercalate within segments, fun c first => ?_⟩
        have ends := ends c first
        rw [if_neg empty] at ends
        exact ends
      rw [dotted, if_neg empty, List.cons_append]
      unfold readDotted
      refine (if_pos rfl).trans (Option.bind_eq_some_iff.mpr ⟨segments, ?_, ?_⟩)
      · rw [Text.mapM_eq_some_iff reads, splitOn_eq_map_iff plain, spans.takeWhile_eq]
        exact ⟨empty, rfl⟩
      · rw [spans.dropWhile_eq]

/-- What a dotted list, or what follows it, starts with. -/
theorem head?_dotted_append {segments : List α} {rest : List Char} {c : Char}
    (first : c ∈ (dotted mark chars segments ++ rest).head?) : c = mark ∨ c ∈ rest.head? := by
  unfold dotted at first
  split at first
  · exact .inr first
  · cases first
    exact .inl rfl

end Dotted

/-! ## Versions -/

/-- A pre-release as it is written behind the numbers. -/
abbrev preText (pre : List Identifier) : List Char := dotted '-' Identifier.chars pre

/-- Build metadata as it is written behind the numbers and the pre-release. -/
abbrev buildText (build : List Label) : List Char := dotted '+' Label.chars build

theorem head?_buildText {build : List Label} {c : Char} (first : c ∈ (buildText build).head?) :
    c = '+' := by
  rw [← List.append_nil (buildText build)] at first
  exact (head?_dotted_append first).resolve_right nofun

theorem chars_eq (v : Version) : v.chars = v.coreChars ++ preText v.pre ++ buildText v.build := by
  unfold chars preText buildText dotted
  congr

theorem readPre_eq_some_iff {cs rest : List Char} {pre : List Identifier} :
    readDotted '-' Identifier.ofChars? cs = some (pre, rest) ↔
      cs = preText pre ++ rest ∧ EndsDotted '-' pre rest :=
  readDotted_eq_some_iff (fun _ _ => Identifier.ofChars?_eq_some_iff)
    Identifier.isIdentifierChar_of_mem_chars

theorem readBuild_eq_some_iff {cs rest : List Char} {build : List Label} :
    readDotted '+' Label.ofChars? cs = some (build, rest) ↔
      cs = buildText build ++ rest ∧ EndsDotted '+' build rest :=
  readDotted_eq_some_iff (fun _ _ => Label.ofChars?_eq_some_iff)
    fun l => List.all_eq_true.mp l.valid.1

/-- A text is read as a version exactly when that version is written so. -/
theorem ofChars?_eq_some_iff {cs : List Char} {v : Version} :
    ofChars? cs = some v ↔ cs = v.chars := by
  rw [chars_eq]
  unfold ofChars?
  simp only [Option.bind_eq_bind, Option.bind_eq_some_iff, afterDot_eq_some_iff]
  constructor
  · rintro ⟨⟨major, cs₁⟩, first, cs₂, rfl, ⟨minor, cs₃⟩, second, cs₄, rfl, ⟨patch, cs₅⟩, third,
      ⟨pre, cs₆⟩, fourth, ⟨build, cs₇⟩, fifth, read⟩
    have first := (readNumber_eq_some_iff.mp first).eq
    have second := (readNumber_eq_some_iff.mp second).eq
    have third := (readNumber_eq_some_iff.mp third).eq
    have fourth := (readPre_eq_some_iff.mp fourth).1
    have fifth := (readBuild_eq_some_iff.mp fifth).1
    dsimp only at fourth fifth read
    split at read
    next whole =>
      cases read
      rw [first, second, third, fourth, fifth, whole]
      simp [coreChars]
    · cases read
  · rintro rfl
    have number {w : UInt64} {rest : List Char} (stops : ∀ c ∈ rest.head?, c.isDigit = false) :
        readNumber (Nat.toDigits 10 w.toNat ++ rest) = some (w, rest) :=
      readNumber_eq_some_iff.mpr ⟨rfl, isDigit_of_mem_toDigits, stops⟩
    have atDot {rest : List Char} : ∀ c ∈ ('.' :: rest).head?, c.isDigit = false := by
      rintro c ⟨⟩
      rfl
    have core : v.coreChars ++ preText v.pre ++ buildText v.build =
        Nat.toDigits 10 v.major.toNat ++ '.' :: (Nat.toDigits 10 v.minor.toNat ++
          '.' :: (Nat.toDigits 10 v.patch.toNat ++ (preText v.pre ++ buildText v.build))) := by
      simp [coreChars]
    rw [core]
    refine ⟨_, number atDot, _, rfl, _, number atDot, _, rfl, _, number ?_, (v.pre, _),
      readPre_eq_some_iff.mpr ⟨rfl, ?_⟩, (v.build, []),
      readBuild_eq_some_iff.mpr ⟨(List.append_nil _).symm, nofun⟩, rfl⟩
    · intro c first
      rcases (head?_dotted_append first).imp_right head?_buildText with rfl | rfl
      all_goals rfl
    · intro c first
      rw [head?_buildText first]
      split
      · decide
      · rfl

end BuildLauncher.Version
