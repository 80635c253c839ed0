import BuildLauncher.Proofs.Identity.Fields
import BuildLauncher.Proofs.Text.Span
import Mathlib.Data.List.Basic

/-!
# Reading a version string

A version string holds the channel, the hash and the date of a build, one behind the other.  As long
as the hash has no space in it, the first space behind the opening bracket is the one that follows
the hash, and the last bracket closes the date: then all three are read back, whatever the date
holds.

* `Channel.ofVersionStart?_eq_some_iff`: the channel at the front of a text.
* `Identity.ofVersionString?_eq_some_iff`: which text is read as which identity.
* `Identity.identified_by_versionString`: the version string, and with it the environment of a
  build, tells the identity.
-/

namespace BuildLauncher

/-! ## The channel -/

namespace Channel

/-- The channel that a text starts with as version strings do, and what stands behind that start. -/
def ofVersionStart? (cs : List Char) : Option (Channel × List Char) :=
  [stable, nightly].findSome? fun channel =>
    (channel.versionStart.toList.isPrefixOf? cs).map (channel, ·)

variable {channel channel' : Channel} {cs rest rest' : List Char}

/-- The starts of the two channels tell them apart. -/
theorem versionStart_append_inj
    (same : channel.versionStart.toList ++ rest = channel'.versionStart.toList ++ rest') :
    channel = channel' ∧ rest = rest' := by
  have starts : StartsWith (String.ofList (channel.versionStart.toList ++ rest))
      channel.versionStart := by
    unfold StartsWith
    rw [String.toList_ofList]
    exact List.prefix_append _ _
  have starts' : StartsWith (String.ofList (channel.versionStart.toList ++ rest))
      channel'.versionStart := by
    unfold StartsWith
    rw [String.toList_ofList, same]
    exact List.prefix_append _ _
  have channels : channel = channel' := by
    cases channel with
    | stable =>
      cases channel' with
      | stable => rfl
      | nightly => exact absurd ⟨starts, starts'⟩ (Identity.not_startsWith_both _)
    | nightly =>
      cases channel' with
      | stable => exact absurd ⟨starts', starts⟩ (Identity.not_startsWith_both _)
      | nightly => rfl
  subst channels
  exact ⟨rfl, List.append_cancel_left same⟩

/-- Every channel is looked for. -/
theorem mem_channels (channel : Channel) : channel ∈ [stable, nightly] := by
  cases channel <;> simp

theorem eq_of_ofVersionStart? (read : ofVersionStart? cs = some (channel, rest)) :
    cs = channel.versionStart.toList ++ rest := by
  obtain ⟨channel', -, started⟩ := List.exists_of_findSome?_eq_some read
  obtain ⟨rest', starts, same⟩ := Option.map_eq_some_iff.mp started
  cases same
  exact (List.isPrefixOf?_eq_some_iff_append_eq.mp starts).symm

theorem ofVersionStart?_eq_some_iff :
    ofVersionStart? cs = some (channel, rest) ↔ cs = channel.versionStart.toList ++ rest := by
  constructor
  · exact eq_of_ofVersionStart?
  · intro started
    have starts : channel.versionStart.toList.isPrefixOf? cs = some rest :=
      List.isPrefixOf?_eq_some_iff_append_eq.mpr started.symm
    have found : (ofVersionStart? cs).isSome = true := by
      apply List.findSome?_isSome_iff.mpr
      exact ⟨channel, mem_channels channel, by rw [starts]; rfl⟩
    obtain ⟨⟨channel', rest'⟩, read⟩ := Option.isSome_iff_exists.mp found
    obtain ⟨rfl, rfl⟩ := versionStart_append_inj (started.symm.trans (eq_of_ofVersionStart? read))
    exact read

end Channel

/-! ## The whole string -/

namespace Identity

/-- The hash has no space in it.  Hexadecimal digits do not, and no more does a missing hash. -/
def IsUnbroken (hash : String) : Prop := ' ' ∉ hash.toList

instance (hash : String) : Decidable (IsUnbroken hash) :=
  inferInstanceAs (Decidable (' ' ∉ hash.toList))

/-- Reads a version string: behind the start of a channel the hash as far as the first space, and
behind that the date as far as the last bracket. -/
def ofVersionString? (text : String) : Option Identity := do
  let (channel, cs) ← Channel.ofVersionStart? text.toList
  let hash := String.ofList (cs.takeWhile (· ≠ ' '))
  match cs.dropWhile (· ≠ ' ') with
  | _ :: rest =>
    if rest.getLast? = some ')' then some { channel, hash, date := String.ofList rest.dropLast }
    else none
  | [] => none

variable {text : String} {id : Identity}

/-- The hash of a version string ends at the first space. -/
theorem spans_hash (unbroken : IsUnbroken id.hash) (rest : List Char) :
    Text.Spans (fun c => decide (c ≠ ' ')) (id.hash.toList ++ ' ' :: rest) id.hash.toList
      (' ' :: rest) := by
  refine ⟨rfl, fun c mem => ?_, fun c first => ?_⟩
  · have apart : c ≠ ' ' := fun space => unbroken (space ▸ mem)
    exact decide_eq_true apart
  · cases first
    rfl

/-- A text is read as an identity when it is its version string and the hash is unbroken. -/
theorem ofVersionString?_eq_some_iff :
    ofVersionString? text = some id ↔ text = id.versionString ∧ IsUnbroken id.hash := by
  unfold ofVersionString?
  simp only [Option.bind_eq_bind, Option.bind_eq_some_iff, Prod.exists]
  constructor
  · rintro ⟨channel, cs, started, read⟩
    have front := Channel.ofVersionStart?_eq_some_iff.mp started
    have spans := Text.spans_takeWhile (fun c => decide (c ≠ ' ')) cs
    split at read
    · next space rest behind =>
      split at read
      · next closed =>
        cases read
        obtain ⟨date, rfl⟩ := List.getLast?_eq_some_iff.mp closed
        have stop : space = ' ' := by
          have stopped := spans.stops space (by rw [behind]; rfl)
          simpa using stopped
        have whole : cs = cs.takeWhile (fun c => decide (c ≠ ' ')) ++ ' ' :: (date ++ [')']) := by
          rw [stop] at behind
          rw [← behind]
          exact spans.eq
        refine ⟨?_, fun mem => ?_⟩
        · apply String.toList_inj.mp
          rw [front, toList_versionString]
          simp only [String.toList_ofList, List.dropLast_concat]
          exact congrArg (channel.versionStart.toList ++ ·) whole
        · rw [String.toList_ofList] at mem
          simpa using spans.all ' ' mem
      · cases read
    · cases read
  · rintro ⟨rfl, unbroken⟩
    refine ⟨id.channel, _, Channel.ofVersionStart?_eq_some_iff.mpr (toList_versionString id), ?_⟩
    have spans := spans_hash unbroken (id.date.toList ++ [')'])
    rw [spans.takeWhile_eq, spans.dropWhile_eq]
    simp only [List.getLast?_concat, List.dropLast_concat, if_true, String.ofList_toList]

/-- The environment of a build shows its version string. -/
theorem getText?_withIdentity (base : Environment) (id : Identity) :
    (base.withIdentity id).getText? (Utf8.ofString "CFG_VERSION_STR") = some id.versionString :=
  Environment.getText?_eq_some_iff.mpr (get?_withIdentity_versionKey base id)

/-- **The version string tells the build.**  Of two identities with unbroken hashes each is read
back from its version string, and from the environment of its build, over whatever environment that
was laid.  So the version strings are equal only when the identities are, and so are the
environments. -/
theorem identified_by_versionString {a b : Identity} (unbroken : IsUnbroken a.hash)
    (unbroken' : IsUnbroken b.hash) :
    ofVersionString? a.versionString = some a ∧
    (a.versionString = b.versionString ↔ a = b) ∧
    ∀ base : Environment,
      ((base.withIdentity a).getText? (Utf8.ofString "CFG_VERSION_STR")).bind ofVersionString? =
        some a ∧
      (base.withIdentity a = base.withIdentity b ↔ a = b) := by
  have back : ofVersionString? a.versionString = some a :=
    ofVersionString?_eq_some_iff.mpr ⟨rfl, unbroken⟩
  have back' : ofVersionString? b.versionString = some b :=
    ofVersionString?_eq_some_iff.mpr ⟨rfl, unbroken'⟩
  have strings : a.versionString = b.versionString → a = b := by
    intro same
    rw [same, back'] at back
    exact (Option.some.inj back).symm
  refine ⟨back, ⟨strings, fun same => by rw [same]⟩, fun base => ⟨?_, fun same => ?_, ?_⟩⟩
  · rw [getText?_withIdentity, Option.bind_some, back]
  · have shown := getText?_withIdentity base a
    rw [same, getText?_withIdentity] at shown
    exact strings (Option.some.inj shown).symm
  · intro same
    rw [same]

/-- A build of which no commit is known. -/
def unknown : Identity := { channel := .nightly, date := "", hash := "" }

/-- A build whose date looks like the end of a version string with the start of another behind
it. -/
def oddlyDated : Identity := { channel := .nightly, date := ") 1.26.0-stable ( ", hash := "" }

theorem identified_by_versionString_brackets :
    IsUnbroken unknown.hash ∧ IsUnbroken oddlyDated.hash ∧
      unknown.versionString ≠ oddlyDated.versionString ∧
      ofVersionString? oddlyDated.versionString = some oddlyDated ∧
      Environment.empty.withIdentity unknown ≠ Environment.empty.withIdentity oddlyDated := by
  have unbroken : IsUnbroken unknown.hash := by decide
  have unbroken' : IsUnbroken oddlyDated.hash := by decide
  have apart : oddlyDated ≠ unknown := by decide
  obtain ⟨back, strings, environments⟩ := identified_by_versionString unbroken' unbroken
  refine ⟨unbroken, unbroken', fun same => ?_, back, fun same => ?_⟩
  · exact apart (strings.mp same.symm)
  · exact apart ((environments .empty).2.mp same.symm)

/-- A space in the hash may as well belong to the date. -/
example :
    ({ channel := .stable, hash := "a b", date := "c" } : Identity).versionString =
      ({ channel := .stable, hash := "a", date := "b c" } : Identity).versionString := by
  decide

end Identity

end BuildLauncher
