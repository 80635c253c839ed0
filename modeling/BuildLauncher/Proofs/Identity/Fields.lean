import BuildLauncher.Proofs.Environment
import BuildLauncher.Proofs.Launcher.Answer

/-!
# Where the fields of an identity come from

Three questions are asked about the commit, and each of them fills one field of the identity: what
becomes of one child shows in its own field and in no other.  What the build is told about the
identity comes from one channel, so that the version string and the mark of a stable build agree.

* `Identity.resolve_of_asked`: the identity by the outcomes of the three questions.
* `Identity.startsWith_versionString`, `Identity.get?_withIdentity_isStableKey`: what the build is
  told, by the channel.
* `Identity.fields_apart`: all of it, for any two identities that are found anywhere.
-/

namespace BuildLauncher

/-! ## What shows of an outcome -/

namespace Outcome

/-- What a child that exits with success prints. -/
def printed? (o : Outcome) : Option Bytes :=
  if o.ending = .exited 0 then some (o.written .out) else none

/-- A question that is not answered: its child fails, or prints white space alone. -/
def Unanswered (o : Outcome) : Prop :=
  ∀ b ∈ o.printed?, ∃ blanks, Text.Blanks blanks ∧ b = Utf8.encode blanks

variable {o o' : Outcome}

/-- An answer comes from nothing but what is printed. -/
theorem answer?_congr (same : o.printed? = o'.printed?) : o.answer? = o'.answer? := by
  unfold printed? at same
  unfold answer?
  by_cases exits : o.ending = .exited 0
  · rw [if_pos exits] at same
    split at same
    · next exits' => rw [if_pos exits, if_pos exits', Option.some.inj same]
    · cases same
  · rw [if_neg exits] at same
    split at same
    · cases same
    · next fails' => rw [if_neg exits, if_neg fails']

theorem answer?_of_unanswered (silent : o.Unanswered) : o.answer? = none := by
  rw [answer?_eq_none_iff]
  by_cases exits : o.ending = .exited 0
  · exact .inr (silent _ (if_pos exits))
  · exact .inl exits

/-- The text of an answer, or the empty one, has no white space at its ends. -/
theorem trimmed_getD_answer? (o : Outcome) : Text.Trimmed (o.answer?.getD "").toList := by
  cases answered : o.answer? with
  | none => exact Text.trimmed_nil
  | some s => exact (trimmed_of_answer? answered).2

end Outcome

/-! ## What the build is told -/

/-- A text starts with another one. -/
def StartsWith (text start : String) : Prop := start.toList <+: text.toList

/-- How the version strings of a channel start. -/
def Channel.versionStart : Channel → String
  | .stable => "1.26.0-stable ("
  | .nightly => "1.27.0-nightly ("

/-- The mark of a stable build. -/
def Channel.mark : Channel → String
  | .stable => "true"
  | .nightly => "false"

namespace Identity

/-- A version string is the start of its channel, the hash, a space, the date and a bracket. -/
theorem toList_versionString (id : Identity) :
    id.versionString.toList = id.channel.versionStart.toList ++
      (id.hash.toList ++ ' ' :: (id.date.toList ++ [')'])) := by
  have start : toString id.channel.version ++ "-" ++ id.channel.name ++ " (" =
      id.channel.versionStart := by
    cases id.channel <;> decide
  unfold versionString
  rw [start]
  simp only [String.toList_append, List.append_assoc]
  rfl

theorem startsWith_versionString (id : Identity) :
    StartsWith id.versionString id.channel.versionStart := by
  unfold StartsWith
  rw [toList_versionString]
  exact List.prefix_append _ _

/-- No text starts like the version strings of both channels. -/
theorem not_startsWith_both (text : String) :
    ¬ (StartsWith text "1.26.0-stable (" ∧ StartsWith text "1.27.0-nightly (") := by
  rintro ⟨first, second⟩
  rcases List.prefix_or_prefix_of_prefix first second with longer | longer
  · exact absurd longer (by decide)
  · exact absurd longer (by decide)

theorem get?_withIdentity_versionKey (base : Environment) (id : Identity) :
    (base.withIdentity id).get? (Utf8.ofString "CFG_VERSION_STR") =
      some (Utf8.ofString id.versionString) :=
  (Environment.get?_withIdentity base id _).trans (if_pos rfl)

theorem get?_withIdentity_isStableKey (base : Environment) (id : Identity) :
    (base.withIdentity id).get? (Utf8.ofString "CFG_IS_STABLE") =
      some (Utf8.ofString id.channel.mark) := by
  have other : Utf8.ofString "CFG_IS_STABLE" ≠ Utf8.ofString Environment.versionKey := by decide
  have mark : (if id.channel.isStable then "true" else "false") = id.channel.mark := by
    cases id.channel <;> rfl
  rw [Environment.get?_withIdentity, if_neg other, mark]
  exact if_pos rfl

/-! ## Three questions -/

/-- In the directory `root`, from the tree `t` on, the three questions about the commit have these
outcomes. -/
def Asked (host : Host) (root : Bytes) (t : FileTree) (branch date hash : Outcome) : Prop :=
  ∃ t', host.children.Ran t ((launches host root).zip [branch, date, hash]) t'

/-- The identity that is found somewhere when the three questions have these outcomes. -/
def Found (branch date hash : Outcome) (id : Identity) : Prop :=
  ∃ host root s, Asked host root s.tree branch date hash ∧ ((resolve host root).run s).1 = id

theorem exists_asked (host : Host) (root : Bytes) (t : FileTree) :
    ∃ branch date hash, Asked host root t branch date hash := by
  obtain ⟨branch, date, hash, t', ran⟩ := exists_ran host root t
  exact ⟨branch, date, hash, t', ran⟩

theorem resolve_of_asked {host : Host} {root : Bytes} {s : Session} {branch date hash : Outcome}
    (asked : Asked host root s.tree branch date hash) :
    ((resolve host root).run s).1 = ofOutcomes branch date hash := by
  obtain ⟨t', ran⟩ := asked
  exact congrArg Prod.fst (does_resolve ran s.events)

/-- Children that give the three questions these outcomes, wherever they are asked. -/
def answeringEach (branch date hash : Outcome) : Children := fun t l =>
  (if l.argv = branchQuery then branch else if l.argv = dateQuery then date else hash, t)

/-- Three outcomes of any kind can come together. -/
theorem exists_found (branch date hash : Outcome) : ∃ id, Found branch date hash id := by
  let host : Host :=
    { environment := .empty, workingDirectory := .ok [],
      children := answeringEach branch date hash }
  have asked : Asked host [] {} branch date hash :=
    ⟨{}, .cons rfl (.cons rfl (.cons rfl (.nil _)))⟩
  exact ⟨_, host, [], { tree := {} }, asked, rfl⟩

theorem found_iff {branch date hash : Outcome} {id : Identity} :
    Found branch date hash id ↔ id = ofOutcomes branch date hash := by
  constructor
  · rintro ⟨host, root, s, asked, rfl⟩
    exact resolve_of_asked asked
  · rintro rfl
    obtain ⟨id, host, root, s, asked, -⟩ := exists_found branch date hash
    exact ⟨host, root, s, asked, resolve_of_asked asked⟩

/-- **Every field has its own question.**  Wherever an identity is looked for, three questions are
asked, and any three outcomes can come together.  Of two identities found in any two places, the
channel is the same when the outcomes of the first question show the same, whatever becomes of the
others; so is the date with the second, and the hash with the third.  A question without an answer
leaves its field empty, and the channel is then the nightly one; no date and no hash has white space
at its ends.  What the build is told of an identity is of one piece: the start of the version string
and the mark of a stable build are those of one channel. -/
theorem fields_apart :
    (∀ host root t, ∃ branch date hash, Asked host root t branch date hash) ∧
    (∀ branch date hash, ∃ id, Found branch date hash id) ∧
    ∀ branch date hash id, Found branch date hash id →
      (∀ branch' date' hash' id', Found branch' date' hash' id' →
        (branch.printed? = branch'.printed? → id.channel = id'.channel) ∧
        (date.printed? = date'.printed? → id.date = id'.date) ∧
        (hash.printed? = hash'.printed? → id.hash = id'.hash)) ∧
      (branch.Unanswered → id.channel = .nightly) ∧
      (date.Unanswered → id.date = "") ∧
      (hash.Unanswered → id.hash = "") ∧
      Text.Trimmed id.date.toList ∧ Text.Trimmed id.hash.toList ∧
      ∀ base : Environment,
        (base.withIdentity id).get? (Utf8.ofString "CFG_VERSION_STR") =
          some (Utf8.ofString id.versionString) ∧
        (StartsWith id.versionString "1.26.0-stable (" ∧
            (base.withIdentity id).get? (Utf8.ofString "CFG_IS_STABLE") =
              some (Utf8.ofString "true") ∨
          StartsWith id.versionString "1.27.0-nightly (" ∧
            (base.withIdentity id).get? (Utf8.ofString "CFG_IS_STABLE") =
              some (Utf8.ofString "false")) ∧
        ¬ (StartsWith id.versionString "1.26.0-stable (" ∧
          StartsWith id.versionString "1.27.0-nightly (") := by
  refine ⟨exists_asked, exists_found, fun branch date hash id found => ?_⟩
  obtain rfl := found_iff.mp found
  refine ⟨fun branch' date' hash' id' found' => ?_, fun silent => ?_, fun silent => ?_,
    fun silent => ?_, Outcome.trimmed_getD_answer? date, Outcome.trimmed_getD_answer? hash,
    fun base => ⟨get?_withIdentity_versionKey base _, ?_, not_startsWith_both _⟩⟩
  · obtain rfl := found_iff.mp found'
    unfold ofOutcomes
    refine ⟨fun same => ?_, fun same => ?_, fun same => ?_⟩
    · rw [Outcome.answer?_congr same]
    · rw [Outcome.answer?_congr same]
    · rw [Outcome.answer?_congr same]
  · unfold ofOutcomes
    rw [Outcome.answer?_of_unanswered silent]
    rfl
  · unfold ofOutcomes
    rw [Outcome.answer?_of_unanswered silent]
    rfl
  · unfold ofOutcomes
    rw [Outcome.answer?_of_unanswered silent]
    rfl
  · have start := startsWith_versionString (ofOutcomes branch date hash)
    have mark := get?_withIdentity_isStableKey base (ofOutcomes branch date hash)
    cases channel : (ofOutcomes branch date hash).channel with
    | stable =>
      rw [channel] at start mark
      exact .inl ⟨start, mark⟩
    | nightly =>
      rw [channel] at start mark
      exact .inr ⟨start, mark⟩

end Identity

end BuildLauncher
