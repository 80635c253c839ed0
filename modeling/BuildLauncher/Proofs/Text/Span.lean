import Mathlib.Data.List.TakeWhile

/-!
# Readers of texts

A reader that takes characters of one class takes as many as there are.  `Text.Spans` says that a
text falls into such a run and what follows it; there is one way for a text to do so.  A reader of
one part, used on each part of a list, reads the list as a whole (`Text.mapM_eq_some_iff`).
-/

namespace BuildLauncher.Text

/-! ## Runs of characters -/

section Spans

variable {p : Char → Bool} {cs run rest run' rest' : List Char}

/-- A text falls into a run of characters of a class, as long as possible, and what follows. -/
structure Spans (p : Char → Bool) (cs run rest : List Char) : Prop where
  eq : cs = run ++ rest
  all : ∀ c ∈ run, p c = true
  stops : ∀ c ∈ rest.head?, p c = false

theorem spans_takeWhile (p : Char → Bool) (cs : List Char) :
    Spans p cs (cs.takeWhile p) (cs.dropWhile p) where
  eq := List.takeWhile_append_dropWhile.symm
  all _ mem := List.mem_takeWhile_imp mem
  stops c first := by
    have stopped := List.head?_dropWhile_not p cs
    rw [Option.mem_def.mp first] at stopped
    exact stopped

theorem Spans.takeWhile_eq (spans : Spans p cs run rest) : cs.takeWhile p = run := by
  have none : rest.takeWhile p = [] := by
    cases rest with
    | nil => rfl
    | cons c rest => exact List.takeWhile_cons_of_neg (by simp [spans.stops c rfl])
  rw [spans.eq, List.takeWhile_append_of_pos spans.all, none, List.append_nil]

theorem Spans.dropWhile_eq (spans : Spans p cs run rest) : cs.dropWhile p = rest := by
  have all : rest.dropWhile p = rest := by
    cases rest with
    | nil => rfl
    | cons c rest => exact List.dropWhile_cons_of_neg (by simp [spans.stops c rfl])
  rw [spans.eq, List.dropWhile_append_of_pos spans.all, all]

theorem Spans.unique (first : Spans p cs run rest) (second : Spans p cs run' rest') :
    run = run' ∧ rest = rest' :=
  ⟨first.takeWhile_eq.symm.trans second.takeWhile_eq,
    first.dropWhile_eq.symm.trans second.dropWhile_eq⟩

end Spans

/-! ## Part by part -/

/-- What undoes the writing of one part, used on each part, undoes the writing of all of them. -/
theorem mapM_eq_some_iff {α β : Type} {read : β → Option α} {write : α → β}
    (reads : ∀ b a, read b = some a ↔ b = write a) {parts : List β} {values : List α} :
    parts.mapM read = some values ↔ parts = values.map write := by
  induction parts generalizing values with
  | nil =>
    rw [List.mapM_nil]
    cases values with
    | nil => simp
    | cons a values => simp
  | cons b parts ih =>
    rw [List.mapM_cons]
    simp only [Option.bind_eq_bind, Option.bind_eq_some_iff, reads]
    constructor
    · rintro ⟨a, rfl, values, whole, same⟩
      cases same
      rw [ih.mp whole]
      rfl
    · intro same
      cases values with
      | nil => cases same
      | cons a values =>
        obtain ⟨head, tail⟩ := List.cons.inj same
        exact ⟨a, head, values, ih.mpr tail, rfl⟩

end BuildLauncher.Text
