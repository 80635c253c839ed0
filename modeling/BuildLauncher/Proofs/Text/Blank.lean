import BuildLauncher.Text.Characters
import Mathlib.Data.List.TakeWhile

/-!
# Taking white space off

* `Text.trim_eq_iff`: what is left of a text is the part of it between white space that does not
  start or end with white space itself.
* `Text.trim_between`: white space that is put around a text comes off again.
-/

namespace BuildLauncher.Text

variable {cs mid : List Char}

/-- A text of white space alone. -/
def Blanks (cs : List Char) : Prop := ∀ c ∈ cs, isBlank c = true

theorem Blanks.append {first second : List Char} (h₁ : Blanks first) (h₂ : Blanks second) :
    Blanks (first ++ second) := by
  intro c mem
  rcases List.mem_append.mp mem with mem | mem
  · exact h₁ c mem
  · exact h₂ c mem

/-- A text that neither starts nor ends with white space. -/
def Trimmed (cs : List Char) : Prop :=
  (∀ c ∈ cs.head?, isBlank c = false) ∧ ∀ c ∈ cs.getLast?, isBlank c = false

theorem trimmed_nil : Trimmed [] := by
  constructor <;> exact nofun

theorem dropBlanks_eq_iff :
    cs.dropWhile isBlank = mid ↔
      ∃ before, Blanks before ∧ cs = before ++ mid ∧ ∀ c ∈ mid.head?, isBlank c = false := by
  constructor
  · rintro rfl
    refine ⟨cs.takeWhile isBlank, ?_, List.takeWhile_append_dropWhile.symm, ?_⟩
    · intro c mem
      exact List.mem_takeWhile_imp mem
    · intro c first
      have stopped := List.head?_dropWhile_not isBlank cs
      rw [Option.mem_def.mp first] at stopped
      exact stopped
  · rintro ⟨before, blank, rfl, first⟩
    rw [List.dropWhile_append_of_pos blank]
    cases mid with
    | nil => rfl
    | cons c rest =>
      have stops : isBlank c = false := first c rfl
      rw [List.dropWhile_cons_of_neg (by simp [stops])]

/-- The same from the other end. -/
theorem trimEnd_eq_iff :
    trimEnd cs = mid ↔
      ∃ after, Blanks after ∧ cs = mid ++ after ∧ ∀ c ∈ mid.getLast?, isBlank c = false := by
  have turned : trimEnd cs = mid ↔ cs.reverse.dropWhile isBlank = mid.reverse := by
    unfold trimEnd
    exact List.reverse_eq_iff
  rw [turned, dropBlanks_eq_iff, List.head?_reverse]
  constructor
  · rintro ⟨before, blank, same, last⟩
    refine ⟨before.reverse, ?_, ?_, last⟩
    · intro c mem
      exact blank c (List.mem_reverse.mp mem)
    · rw [← List.reverse_inj, List.reverse_append, List.reverse_reverse]
      exact same
  · rintro ⟨after, blank, rfl, last⟩
    refine ⟨after.reverse, ?_, List.reverse_append, last⟩
    intro c mem
    exact blank c (List.mem_reverse.mp mem)

theorem trim_eq_iff :
    trim cs = mid ↔
      ∃ before after, Blanks before ∧ Blanks after ∧ cs = before ++ mid ++ after ∧
        Trimmed mid := by
  unfold trim
  rw [trimEnd_eq_iff]
  constructor
  · rintro ⟨after, blankAfter, dropped, last⟩
    obtain ⟨before, blankBefore, same, first⟩ := dropBlanks_eq_iff.mp dropped
    refine ⟨before, after, blankBefore, blankAfter, ?_, ?_, last⟩
    · rw [same, List.append_assoc]
    · intro c start
      refine first c ?_
      rw [List.head?_append, Option.mem_def.mp start]
      rfl
  · rintro ⟨before, after, blankBefore, blankAfter, rfl, first, last⟩
    cases mid with
    | nil =>
      -- With nothing in the middle, the white space behind it goes as well.
      refine ⟨[], nofun, dropBlanks_eq_iff.mpr ⟨before ++ after, ?_, ?_, nofun⟩, nofun⟩
      · exact blankBefore.append blankAfter
      · rw [List.append_nil, List.append_nil, List.append_nil]
    | cons c rest =>
      refine ⟨after, blankAfter, dropBlanks_eq_iff.mpr ⟨before, blankBefore, ?_, ?_⟩, last⟩
      · exact List.append_assoc _ _ _
      · exact first

theorem trim_of_trimmed (trimmed : Trimmed cs) : trim cs = cs :=
  trim_eq_iff.mpr ⟨[], [], nofun, nofun, (List.append_nil _).symm, trimmed⟩

theorem trimmed_trim (cs : List Char) : Trimmed (trim cs) := by
  obtain ⟨_, _, _, _, _, trimmed⟩ := trim_eq_iff.mp (Eq.refl (trim cs))
  exact trimmed

theorem trim_between {first second : List Char} (h₁ : Blanks first) (h₂ : Blanks second)
    (cs : List Char) : trim (first ++ cs ++ second) = trim cs := by
  obtain ⟨before, after, blankBefore, blankAfter, same, trimmed⟩ :=
    trim_eq_iff.mp (Eq.refl (trim cs))
  refine trim_eq_iff.mpr ⟨first ++ before, after ++ second, h₁.append blankBefore,
    blankAfter.append h₂, ?_, trimmed⟩
  calc first ++ cs ++ second
      = first ++ (before ++ trim cs ++ after) ++ second := by rw [← same]
    _ = first ++ before ++ trim cs ++ (after ++ second) := by simp only [List.append_assoc]

theorem trim_append_blank {c : Char} (blank : isBlank c = true) (cs : List Char) :
    trim (cs ++ [c]) = trim cs := by
  have behind : Blanks [c] := by
    intro c' mem
    rw [List.mem_singleton.mp mem]
    exact blank
  exact @trim_between [] [c] nofun behind cs

end BuildLauncher.Text
