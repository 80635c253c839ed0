import BuildLauncher.Proofs.Launcher.Course
import BuildLauncher.Proofs.Text.Blank
import BuildLauncher.Proofs.Text.Utf8

/-!
# The answer to a question

What a child prints is read as text, broken places and all, and white space comes off both ends of
it.  No answer is told from an empty one, and how a child ends is all that counts besides.

* `Utf8.trim_lossyChars_eq_iff`: the bytes that are a given text once white space has come off.
* `Outcome.answer?_eq_some_iff`, `Outcome.answer?_eq_none_iff`: the outcomes with a given answer,
  and those without one.
* `Outcome.answer_of_printed`: what a question is answered, by the bytes that its child prints.
-/

namespace BuildLauncher

/-- A text without broken places comes only from the bytes that spell it, with white space around
it. -/
theorem Utf8.trim_lossyChars_eq_iff {b : Bytes} {mid : List Char} (trimmed : Text.Trimmed mid)
    (whole : replacement ∉ mid) :
    Text.trim (lossyChars b) = mid ↔
      ∃ before after, Text.Blanks before ∧ Text.Blanks after ∧
        b = encode (before ++ mid ++ after) := by
  rw [Text.trim_eq_iff]
  constructor
  · rintro ⟨before, after, blankBefore, blankAfter, read, -⟩
    have spelled : replacement ∉ lossyChars b := by
      have visible : ¬ Text.isBlank replacement = true := by decide
      rw [read]
      intro mem
      rcases List.mem_append.mp mem with mem | mem
      · rcases List.mem_append.mp mem with mem | mem
        · exact visible (blankBefore _ mem)
        · exact whole mem
      · exact visible (blankAfter _ mem)
    refine ⟨before, after, blankBefore, blankAfter, ?_⟩
    rw [← read]
    exact eq_encode_of_lossyChars spelled
  · rintro ⟨before, after, blankBefore, blankAfter, rfl⟩
    exact ⟨before, after, blankBefore, blankAfter, lossyChars_encode _, trimmed⟩

theorem Outcome.answer?_eq_some_iff {o : Outcome} {s : String} :
    o.answer? = some s ↔
      o.ending = .exited 0 ∧ Text.trim (Utf8.lossyChars (o.written .out)) = s.toList ∧ s ≠ "" := by
  unfold answer?
  by_cases exits : o.ending = .exited 0
  · rw [if_pos exits]
    dsimp only
    split
    · next empty =>
      constructor
      · intro answered
        cases answered
      · rintro ⟨-, read, filled⟩
        rw [empty] at read
        exact absurd (String.toList_eq_nil_iff.mp read.symm) filled
    · next filled =>
      constructor
      · rintro ⟨⟩
        refine ⟨exits, String.toList_ofList.symm, ?_⟩
        intro empty
        have read := congrArg String.toList empty
        rw [String.toList_ofList] at read
        exact filled read
      · rintro ⟨-, read, -⟩
        rw [read, String.ofList_toList]
  · rw [if_neg exits]
    constructor
    · intro answered
      cases answered
    · rintro ⟨there, -⟩
      exact absurd there exits

namespace Outcome

variable {o : Outcome}

/-- There is no answer from a child that fails, nor from one that prints white space alone. -/
theorem answer?_eq_none_iff :
    o.answer? = none ↔
      o.ending ≠ .exited 0 ∨
        ∃ blanks, Text.Blanks blanks ∧ o.written .out = Utf8.encode blanks := by
  have silent : Text.trim (Utf8.lossyChars (o.written .out)) = [] ↔
      ∃ blanks, Text.Blanks blanks ∧ o.written .out = Utf8.encode blanks := by
    rw [Utf8.trim_lossyChars_eq_iff Text.trimmed_nil List.not_mem_nil]
    constructor
    · rintro ⟨before, after, blankBefore, blankAfter, printed⟩
      rw [List.append_nil] at printed
      exact ⟨before ++ after, blankBefore.append blankAfter, printed⟩
    · rintro ⟨blanks, blank, printed⟩
      refine ⟨blanks, [], blank, nofun, ?_⟩
      rw [List.append_nil, List.append_nil]
      exact printed
  rw [← silent]
  unfold answer?
  by_cases exits : o.ending = .exited 0
  · simp [exits]
  · simp [exits]

/-- What an answer looks like: it says something, without white space around it. -/
theorem trimmed_of_answer? {s : String} (answered : o.answer? = some s) :
    s ≠ "" ∧ Text.Trimmed s.toList := by
  obtain ⟨-, read, filled⟩ := answer?_eq_some_iff.mp answered
  refine ⟨filled, ?_⟩
  rw [← read]
  exact Text.trimmed_trim _

/-- Bytes that spell a text are the answer with white space around it. -/
theorem exists_blanks_of_answer? {s : String} {cs : List Char} (answered : o.answer? = some s)
    (spelled : o.written .out = Utf8.encode cs) :
    ∃ before after, Text.Blanks before ∧ Text.Blanks after ∧
      o.written .out = Utf8.encode before ++ Utf8.ofString s ++ Utf8.encode after := by
  obtain ⟨-, read, -⟩ := answer?_eq_some_iff.mp answered
  rw [spelled, Utf8.lossyChars_encode] at read
  obtain ⟨before, after, blankBefore, blankAfter, rfl, -⟩ := Text.trim_eq_iff.mp read
  refine ⟨before, after, blankBefore, blankAfter, ?_⟩
  rw [spelled, Utf8.encode_append, Utf8.encode_append]
  rfl

/-- An answer without the replacement character comes from bytes that spell a text. -/
theorem exists_encode_of_answer? {s : String} (answered : o.answer? = some s)
    (whole : Utf8.replacement ∉ s.toList) : ∃ cs, o.written .out = Utf8.encode cs := by
  obtain ⟨-, read, -⟩ := answer?_eq_some_iff.mp answered
  have trimmed := (trimmed_of_answer? answered).2
  obtain ⟨before, after, -, -, spelled⟩ := (Utf8.trim_lossyChars_eq_iff trimmed whole).mp read
  exact ⟨_, spelled⟩

/-- White space around what is printed makes no difference, be it in front of a byte that goes on
with a character or behind a character that has only begun. -/
theorem answer?_between {o o' : Outcome} {before after : List Char} (same : o'.ending = o.ending)
    (h₁ : Text.Blanks before) (h₂ : Text.Blanks after)
    (printed : o'.written .out = Utf8.encode before ++ o.written .out ++ Utf8.encode after) :
    o'.answer? = o.answer? := by
  have read : Text.trim (Utf8.lossyChars (o'.written .out)) =
      Text.trim (Utf8.lossyChars (o.written .out)) := by
    rw [printed, Utf8.lossyChars_between]
    exact Text.trim_between h₁ h₂ _
  unfold answer?
  rw [same, read]

/-- **The answer to a question.**  A question is answered by the outcome of its child, in whichever
directory it is asked.  A child that does not exit with success gives no answer, whatever it prints.
One that does gives none exactly when it prints nothing but white space, spelled without fault;
every other answer says something and has no white space at its ends.  Bytes that spell a text are
the answer with white space around it, all others leave U+FFFD in the answer.  White space put
around any bytes whatsoever leaves the answer as it is. -/
theorem answer_of_printed :
    (∀ host directory argv s, ((Act.ask host directory argv).run s).1 =
      ((Launch.query host directory argv).perform host.children s.tree).1.answer?) ∧
    (∀ o : Outcome, o.ending ≠ .exited 0 → o.answer? = none) ∧
    ∀ o : Outcome, o.ending = .exited 0 →
      (o.answer? = none ↔
        ∃ blanks, Text.Blanks blanks ∧ o.written .out = Utf8.encode blanks) ∧
      (∀ s, o.answer? = some s →
        s ≠ "" ∧ Text.Trimmed s.toList ∧
        ((∃ cs, o.written .out = Utf8.encode cs) →
          ∃ before after, Text.Blanks before ∧ Text.Blanks after ∧
            o.written .out = Utf8.encode before ++ Utf8.ofString s ++ Utf8.encode after) ∧
        ((¬ ∃ cs, o.written .out = Utf8.encode cs) → Utf8.replacement ∈ s.toList)) ∧
      ∀ (o' : Outcome) (before after : List Char), o'.ending = .exited 0 →
        Text.Blanks before → Text.Blanks after →
        o'.written .out = Utf8.encode before ++ o.written .out ++ Utf8.encode after →
          o'.answer? = o.answer? := by
  refine ⟨fun _ _ _ _ => rfl, fun o fails => answer?_eq_none_iff.mpr (.inl fails),
    fun o exits => ⟨?_, fun s answered => ?_, fun o' before after exits' => ?_⟩⟩
  · rw [answer?_eq_none_iff]
    exact or_iff_right (not_not_intro exits)
  · obtain ⟨filled, trimmed⟩ := trimmed_of_answer? answered
    refine ⟨filled, trimmed, fun ⟨cs, spelled⟩ => exists_blanks_of_answer? answered spelled,
      fun broken => ?_⟩
    by_contra whole
    exact broken (exists_encode_of_answer? answered whole)
  · exact answer?_between (exits'.trans exits.symm)

end Outcome

end BuildLauncher
