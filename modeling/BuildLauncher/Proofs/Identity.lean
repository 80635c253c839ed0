import BuildLauncher.Proofs.Launcher.Answer

/-!
# The channel of a branch

What a child prints is read as text, and white space comes off both ends of it, before it is
compared with the name of the stable branch.  The line feed behind the name does not count; but
neither does any other white space around it, and there are names of branches with such.

* `Identity.channel_of_branch`: the branches that are built for the stable channel.
* `Identity.channel_of_padded_branch`: one of these is not the stable branch.
-/

namespace BuildLauncher

theorem Channel.ofBranch_eq_stable_iff {branch : String} :
    ofBranch branch = .stable ↔ branch = stableBranch := by
  unfold ofBranch
  by_cases same : branch = stableBranch
  · simp [same]
  · simp [same]

theorem Channel.trimmed_stableBranch : Text.Trimmed stableBranch.toList := by
  constructor
  · rintro c ⟨⟩
    rfl
  · rintro c ⟨⟩
    rfl

namespace Identity

/-- The byte that ends a line. -/
def lineFeed : UInt8 := 0x0A

/-- The name of a branch: not empty, without control characters and without spaces. -/
def IsBranchName (b : Bytes) : Prop :=
  b ≠ [] ∧ ∀ byte ∈ b, 0x21 ≤ byte.toNat ∧ byte.toNat ≠ 0x7F

/-- Asked for the branch of the directory `root` on the tree `t`, git prints `b` on a line and
exits with success. -/
structure Prints (host : Host) (root : Bytes) (t : FileTree) (b : Bytes) : Prop where
  exits : ((Launch.query host (some root) branchQuery).perform host.children t).1.ending = .exited 0
  line : ((Launch.query host (some root) branchQuery).perform host.children t).1.written .out =
    b ++ [lineFeed]

theorem channel_resolve (host : Host) (root : Bytes) (s : Session) :
    ((resolve host root).run s).1.channel =
      .ofBranch (((Launch.query host (some root) branchQuery).perform host.children
        s.tree).1.answer?.getD "") :=
  rfl

variable {host : Host} {root b : Bytes} {s : Session}

theorem channel_eq_stable_iff (prints : Prints host root s.tree b) :
    ((resolve host root).run s).1.channel = .stable ↔
      ∃ before after, Text.Blanks before ∧ Text.Blanks after ∧
        b = Utf8.encode (before ++ Channel.stableBranch.toList ++ after) := by
  have known {answer : Option String} :
      answer.getD "" = Channel.stableBranch ↔ answer = some Channel.stableBranch := by
    cases answer with
    | none => simp [Channel.stableBranch]
    | some text => simp
  have read : Text.trim (Utf8.lossyChars (b ++ [lineFeed])) = Text.trim (Utf8.lossyChars b) := by
    rw [Utf8.lossyChars_append_ascii b (by decide)]
    exact Text.trim_append_blank (by decide) _
  rw [channel_resolve, Channel.ofBranch_eq_stable_iff, known, Outcome.answer?_eq_some_iff,
    prints.line, read, Utf8.trim_lossyChars_eq_iff Channel.trimmed_stableBranch (by decide)]
  constructor
  · rintro ⟨-, spelled, -⟩
    exact spelled
  · intro spelled
    exact ⟨prints.exits, spelled, by decide⟩

/-- **The channel of a branch.**  A build is for the stable channel exactly when git names the
stable branch, perhaps with white space around the name.  So the name is compared as it is unless it
is such a name with white space; in particular it is when it neither starts nor ends with white
space.  Every other build is for the nightly channel. -/
theorem channel_of_branch (prints : Prints host root s.tree b) :
    (((resolve host root).run s).1.channel = .stable ↔
      ∃ before after, Text.Blanks before ∧ Text.Blanks after ∧
        b = Utf8.encode (before ++ Channel.stableBranch.toList ++ after)) ∧
    ((((resolve host root).run s).1.channel = .stable ↔ b = Utf8.ofString Channel.stableBranch) ↔
      ∀ before after, Text.Blanks before → Text.Blanks after →
        b = Utf8.encode (before ++ Channel.stableBranch.toList ++ after) →
          before = [] ∧ after = []) ∧
    (Text.Trimmed (Utf8.lossyChars b) →
      (((resolve host root).run s).1.channel = .stable ↔
        b = Utf8.ofString Channel.stableBranch)) ∧
    (((resolve host root).run s).1.channel ≠ .stable →
      ((resolve host root).run s).1.channel = .nightly) := by
  have stable := channel_eq_stable_iff prints
  have plain : b = Utf8.ofString Channel.stableBranch →
      ((resolve host root).run s).1.channel = .stable := by
    rintro rfl
    exact stable.mpr ⟨[], [], nofun, nofun, rfl⟩
  refine ⟨stable, ⟨fun exact => ?_, fun bare => ?_⟩, fun trimmed => ?_, fun other => ?_⟩
  · intro before after blankBefore blankAfter padded
    have same := exact.mp (stable.mpr ⟨before, after, blankBefore, blankAfter, padded⟩)
    exact Utf8.eq_nil_of_encode_eq (padded.symm.trans same)
  · refine ⟨fun found => ?_, plain⟩
    obtain ⟨before, after, blankBefore, blankAfter, padded⟩ := stable.mp found
    obtain ⟨rfl, rfl⟩ := bare before after blankBefore blankAfter padded
    exact padded
  · refine ⟨fun found => ?_, plain⟩
    obtain ⟨before, after, blankBefore, blankAfter, rfl⟩ := stable.mp found
    rw [Utf8.lossyChars_encode] at trimmed
    have inner := Text.trim_eq_iff.mpr
      ⟨before, after, blankBefore, blankAfter, rfl, Channel.trimmed_stableBranch⟩
    rw [Text.trim_of_trimmed trimmed] at inner
    rw [inner]
    rfl
  · cases channel : ((resolve host root).run s).1.channel with
    | stable => exact absurd channel other
    | nightly => rfl

/-- Every question has the answer `b`. -/
def answering (b : Bytes) : Children :=
  fun t _ => ({ ending := .exited 0, output := [(.out, b ++ [lineFeed])] }, t)

theorem prints_answering (b : Bytes) :
    Prints { environment := .empty, workingDirectory := .ok [], children := answering b } [] {}
      b := by
  constructor
  · rfl
  · change (b ++ [lineFeed]) ++ [] = _
    rw [List.append_nil]

/-- The name of the stable branch with a byte behind it that spells nothing. -/
def brokenBranch : Bytes := Utf8.ofString "stable" ++ [0xFF]

theorem channel_of_broken_branch :
    Prints { environment := .empty, workingDirectory := .ok [], children := answering brokenBranch }
        [] {} brokenBranch ∧
      ((resolve
        { environment := .empty, workingDirectory := .ok [], children := answering brokenBranch }
        []).run { tree := {} }).1.channel = .nightly := by
  have prints := prints_answering brokenBranch
  obtain ⟨-, -, exact, nightly⟩ := channel_of_branch (s := { tree := {} }) prints
  have trimmed : Text.Trimmed (Utf8.lossyChars brokenBranch) := by
    constructor
    · rintro c ⟨⟩
      rfl
    · rintro c ⟨⟩
      rfl
  have other : brokenBranch ≠ Utf8.ofString Channel.stableBranch := by decide
  refine ⟨prints, nightly ?_⟩
  intro stable
  exact other ((exact trimmed).mp stable)

/-- The name of the stable branch with a no-break space in front of it. -/
def paddedBranch : Bytes := [0xC2, 0xA0] ++ Utf8.ofString "stable"

/-- Git admits this name, it is not that of the stable branch, and what is built from it is for the
stable channel. -/
theorem channel_of_padded_branch :
    IsBranchName paddedBranch ∧ paddedBranch ≠ Utf8.ofString Channel.stableBranch ∧
      Prints
        { environment := .empty, workingDirectory := .ok [], children := answering paddedBranch }
        [] {} paddedBranch ∧
      ((resolve
        { environment := .empty, workingDirectory := .ok [], children := answering paddedBranch }
        []).run { tree := {} }).1.channel = .stable := by
  have prints := prints_answering paddedBranch
  have visible : (paddedBranch.all fun byte =>
      decide (0x21 ≤ byte.toNat ∧ byte.toNat ≠ 0x7F)) = true := by decide
  have admitted : IsBranchName paddedBranch := by
    refine ⟨List.cons_ne_nil _ _, ?_⟩
    intro byte mem
    exact of_decide_eq_true (List.all_eq_true.mp visible byte mem)
  have noBreakSpace : Text.Blanks ['\u00A0'] := by
    intro c mem
    rw [List.mem_singleton.mp mem]
    rfl
  refine ⟨admitted, by decide, prints, ?_⟩
  exact (channel_eq_stable_iff (s := { tree := {} }) prints).mpr
    ⟨['\u00A0'], [], noBreakSpace, nofun, rfl⟩

end Identity

end BuildLauncher
