import BuildLauncher.FileTree
import BuildLauncher.Proofs.Text.Utf8

/-!
# Where a path leads

`FileTree.Leads` says what following names means, one rule for each thing that can stand at the next
name, and counts the links on the way.  It does not say how the names are followed; the walk does,
and both agree.

* `FileTree.walk_eq_ok_iff`: the walk finds exactly what names lead to over no more links than it
  may follow.
* `FileTree.Leads.split`, `FileTree.Leads.join`: names lead first to a directory and from there on.
* `FileTree.Leads.mono`: they lead to the same place in a tree that has more in it.
* `FileTree.resolve_eq_ok_iff`, `FileTree.readText_eq_ok_iff`: where paths lead, and what is read
  there.
* `FileTree.adds_set`, `FileTree.Adds.append`, `FileTree.adds_append`: what a new file changes.
-/

namespace BuildLauncher.FileTree

variable {t t' : FileTree} {n k l links : Nat} {here next dir place : Place} {name path : Bytes}
  {first last names rest : List Bytes}

/-! ## Entries -/

theorem get?_eq_find? (filled : place ≠ []) :
    t.get? place = (t.entries.find? (·.1 = place)).map (·.2) :=
  if_neg filled

/-- An entry below the root that is put in shows at its place and nowhere else. -/
theorem get?_set (e : Entry) (filled : place ≠ []) (other : Place) :
    (t.set place e).get? other = if other = place then some e else t.get? other := by
  by_cases same : other = place
  · subst same
    rw [if_pos rfl, get?_eq_find? filled]
    unfold set
    rw [List.find?_cons_of_pos (by simp)]
    rfl
  · rw [if_neg same]
    by_cases root : other = []
    · rw [root]
      rfl
    · rw [get?_eq_find? root, get?_eq_find? root]
      unfold set
      rw [List.find?_cons_of_neg (by simpa using Ne.symm same), List.find?_filter]
      congr 2
      funext e
      by_cases found : e.1 = other
      · simp [found, same]
      · simp [found]

/-- Every entry stands in a directory. -/
def IsTree (t : FileTree) : Prop :=
  ∀ place name, t.get? (place ++ [name]) ≠ none → t.get? place = some .directory

/-- A path starts in a directory, wherever it is seen from. -/
theorem get?_start (directory : t.get? here = some .directory) :
    t.get? (start here path) = some .directory := by
  unfold start
  split
  · rfl
  · exact directory

/-! ## Names -/

/-- A name that stands for an entry: neither the directory itself nor its parent, and not too
long. -/
def IsEntryName (name : Bytes) : Prop :=
  name ≠ hereName ∧ name ≠ parentName ∧ name.length ≤ maxName

/-- The name leads from the directory `here` to the directory `next`. -/
inductive Enters (t : FileTree) : Place → Bytes → Place → Prop
  | self (here : Place) : Enters t here hereName here
  | parent (here : Place) : Enters t here parentName here.dropLast
  | directory {here : Place} {name : Bytes} :
    IsEntryName name → t.get? (here ++ [name]) = some .directory →
    Enters t here name (here ++ [name])

/-- From the directory `here` the names lead to `place`, over `n` links. -/
inductive Leads (t : FileTree) : Nat → Place → List Bytes → Place → Prop
  | done (here : Place) : Leads t 0 here [] here
  | enter {n : Nat} {here next place : Place} {name : Bytes} {rest : List Bytes} :
    Enters t here name next → Leads t n next rest place → Leads t n here (name :: rest) place
  | file {here : Place} {name content : Bytes} {isProgram : Bool} :
    IsEntryName name → t.get? (here ++ [name]) = some (.file content isProgram) →
    Leads t 0 here [name] (here ++ [name])
  | link {n : Nat} {here place : Place} {name target : Bytes} {rest : List Bytes} :
    IsEntryName name → t.get? (here ++ [name]) = some (.link target) → target ≠ [] →
    Leads t n (start here target) (FileTree.names target ++ rest) place →
    Leads t (n + 1) here (name :: rest) place

theorem Enters.eq_self (enters : Enters t here hereName next) : next = here := by
  cases enters with
  | self => rfl
  | directory named => exact absurd rfl named.1

theorem Enters.mono (kept : ∀ {place e}, t.get? place = some e → t'.get? place = some e)
    (enters : Enters t here name next) : Enters t' here name next := by
  cases enters with
  | self => exact .self here
  | parent => exact .parent here
  | directory named stands => exact .directory named (kept stands)

/-- In a tree, names lead from directories to directories. -/
theorem Enters.get?_eq (tree : IsTree t) (enters : Enters t here name next)
    (directory : t.get? here = some .directory) : t.get? next = some .directory := by
  cases enters with
  | self => exact directory
  | directory _ stands => exact stands
  | parent =>
    rcases List.eq_nil_or_concat here with rfl | ⟨above, name, rfl⟩
    · rfl
    · rw [List.concat_eq_append] at directory ⊢
      rw [List.dropLast_concat]
      refine tree above name ?_
      rw [directory]
      exact Option.some_ne_none _

/-! ## The walk -/

theorem exists_jump (t : FileTree) (links : Nat) :
    ∃ jump, t.walk false links = t.advance false jump := by
  cases links with
  | zero => exact ⟨_, rfl⟩
  | succ links => exact ⟨_, rfl⟩

section Advance

variable {jump : Place → List Bytes → Except SystemError Place}

theorem advance_enter (enters : Enters t here name next) :
    t.advance false jump here (name :: rest) = t.advance false jump next rest := by
  cases enters with
  | self =>
    rw [advance]
    exact if_pos rfl
  | parent =>
    rw [advance, if_neg (by decide)]
    exact if_pos rfl
  | directory named stands =>
    rw [advance, if_neg named.1, if_neg named.2.1, if_neg (Nat.not_lt.mpr named.2.2), stands]

theorem advance_file {content : Bytes} {isProgram : Bool} (named : IsEntryName name)
    (stands : t.get? (here ++ [name]) = some (.file content isProgram)) :
    t.advance false jump here [name] = .ok (here ++ [name]) := by
  rw [advance, if_neg named.1, if_neg named.2.1, if_neg (Nat.not_lt.mpr named.2.2), stands]
  exact if_pos rfl

theorem advance_link {target : Bytes} (named : IsEntryName name)
    (stands : t.get? (here ++ [name]) = some (.link target)) (filled : target ≠ []) :
    t.advance false jump here (name :: rest) =
      jump (start here target) (FileTree.names target ++ rest) := by
  rw [advance, if_neg named.1, if_neg named.2.1, if_neg (Nat.not_lt.mpr named.2.2), stands]
  exact if_neg filled

/-- One turn of the walk, over links that `jump` follows. -/
theorem exists_leads_of_advance
    (sound : ∀ {here place names}, jump here names = .ok place →
      ∃ n < links, Leads t n here names place)
    (walked : t.advance false jump here names = .ok place) :
    ∃ n ≤ links, Leads t n here names place := by
  induction names generalizing here with
  | nil =>
    cases walked
    exact ⟨0, Nat.zero_le _, .done _⟩
  | cons name rest ih =>
    rw [advance] at walked
    split at walked
    · next self =>
      obtain ⟨n, few, leads⟩ := ih walked
      exact ⟨n, few, self ▸ .enter (.self here) leads⟩
    split at walked
    · next up =>
      obtain ⟨n, few, leads⟩ := ih walked
      exact ⟨n, few, up ▸ .enter (.parent here) leads⟩
    split at walked
    · cases walked
    next notHere notParent short =>
    have named : IsEntryName name := ⟨notHere, notParent, Nat.not_lt.mp short⟩
    split at walked
    · split at walked
      · next missing => cases missing.1
      · cases walked
    · next stands =>
      obtain ⟨n, few, leads⟩ := ih walked
      exact ⟨n, few, .enter (.directory named stands) leads⟩
    · next stands =>
      split at walked
      · next empty =>
        cases walked
        subst empty
        exact ⟨0, Nat.zero_le _, .file named stands⟩
      · cases walked
    · next target stands =>
      split at walked
      · cases walked
      · next filled =>
        obtain ⟨n, fewer, leads⟩ := sound walked
        exact ⟨n + 1, fewer, .link named stands filled leads⟩

end Advance

theorem exists_leads_of_walk (walked : t.walk false links here names = .ok place) :
    ∃ n ≤ links, Leads t n here names place := by
  induction links generalizing here names place with
  | zero => exact exists_leads_of_advance (fun stopped => by cases stopped) walked
  | succ links ih =>
    refine exists_leads_of_advance ?_ walked
    intro here place names further
    obtain ⟨n, few, leads⟩ := ih further
    exact ⟨n, Nat.lt_succ_of_le few, leads⟩

theorem Leads.walk (leads : Leads t n here names place) (few : n ≤ links) :
    t.walk false links here names = .ok place := by
  induction leads generalizing links with
  | done here =>
    obtain ⟨jump, turn⟩ := exists_jump t links
    rw [turn]
    rfl
  | enter enters _ ih =>
    have further := ih few
    obtain ⟨jump, turn⟩ := exists_jump t links
    rw [turn] at further ⊢
    rw [advance_enter enters, further]
  | file named stands =>
    obtain ⟨jump, turn⟩ := exists_jump t links
    rw [turn, advance_file named stands]
  | link named stands filled _ ih =>
    cases links with
    | zero => exact absurd few (Nat.not_succ_le_zero _)
    | succ links =>
      have further := ih (Nat.le_of_succ_le_succ few)
      rw [FileTree.walk, advance_link named stands filled, further]

theorem walk_eq_ok_iff :
    t.walk false links here names = .ok place ↔ ∃ n ≤ links, Leads t n here names place := by
  constructor
  · exact exists_leads_of_walk
  · rintro ⟨n, few, leads⟩
    exact leads.walk few

namespace Leads

/-- Names lead to one place only. -/
theorem unique {other : Place} (h₁ : Leads t k here names place)
    (h₂ : Leads t l here names other) : place = other := by
  have first := h₁.walk (Nat.le_add_right k l)
  have second := h₂.walk (Nat.le_add_left l k)
  rw [first] at second
  exact Except.ok.inj second

/-- A name that stands for an entry leads on only if there is such an entry. -/
theorem get?_ne_none (named : IsEntryName name) (leads : Leads t n here (name :: rest) place) :
    t.get? (here ++ [name]) ≠ none := by
  intro free
  cases leads with
  | enter enters =>
    cases enters with
    | self => exact named.1 rfl
    | parent => exact named.2.1 rfl
    | directory _ stands =>
      rw [stands] at free
      cases free
  | file _ stands =>
    rw [stands] at free
    cases free
  | link _ stands =>
    rw [stands] at free
    cases free

/-! ## Names behind names -/

theorem split_nil (leads : Leads t n here last place) :
    ∃ dir k l, k + l = n ∧ Leads t k here ([] ++ [hereName]) dir ∧ Leads t l dir last place :=
  ⟨here, 0, n, Nat.zero_add n, .enter (.self here) (.done here), leads⟩

/-- Names that lead somewhere lead there from the directory that those at the front lead to.  The
directory is asked for by its own name, since nothing leads on from a file. -/
theorem split (leads : Leads t n here names place) (same : names = first ++ last)
    (more : last ≠ []) :
    ∃ dir k l, k + l = n ∧ Leads t k here (first ++ [hereName]) dir ∧
      Leads t l dir last place := by
  induction leads generalizing first with
  | done here =>
    obtain ⟨-, none⟩ := List.append_eq_nil_iff.mp same.symm
    exact absurd none more
  | @enter n here next place name rest enters leads ih =>
    cases first with
    | nil =>
      obtain rfl : name :: rest = last := same
      exact split_nil (.enter enters leads)
    | cons name first =>
      obtain ⟨rfl, tail⟩ := List.cons.inj same
      obtain ⟨dir, k, l, sum, before, behind⟩ := ih tail
      exact ⟨dir, k, l, sum, .enter enters before, behind⟩
  | @file here name content isProgram named stands =>
    cases first with
    | nil =>
      obtain rfl : [name] = last := same
      exact split_nil (.file named stands)
    | cons name first =>
      obtain ⟨-, tail⟩ := List.cons.inj same
      obtain ⟨-, none⟩ := List.append_eq_nil_iff.mp tail.symm
      exact absurd none more
  | @link n here place name target rest named stands filled leads ih =>
    cases first with
    | nil =>
      obtain rfl : name :: rest = last := same
      exact split_nil (.link named stands filled leads)
    | cons name first =>
      obtain ⟨rfl, rfl⟩ := List.cons.inj same
      obtain ⟨dir, k, l, sum, before, behind⟩ := ih (List.append_assoc _ _ _).symm
      rw [List.append_assoc] at before
      refine ⟨dir, k + 1, l, ?_, .link named stands filled before, behind⟩
      omega

/-- Names lead on from the directory that others lead to. -/
theorem join (before : Leads t k here names dir) (same : names = first ++ [hereName])
    (behind : Leads t l dir last place) : Leads t (k + l) here (first ++ last) place := by
  induction before generalizing first with
  | done here =>
    obtain ⟨-, none⟩ := List.append_eq_nil_iff.mp same.symm
    cases none
  | @enter n here next dir name rest enters leads ih =>
    cases first with
    | nil =>
      obtain ⟨rfl, rfl⟩ := List.cons.inj same
      obtain rfl := enters.eq_self
      cases leads
      rw [Nat.zero_add]
      exact behind
    | cons name first =>
      obtain ⟨rfl, tail⟩ := List.cons.inj same
      exact .enter enters (ih tail behind)
  | @file here name content isProgram named stands =>
    cases first with
    | nil =>
      obtain ⟨self, -⟩ := List.cons.inj same
      exact absurd self named.1
    | cons name first =>
      obtain ⟨-, tail⟩ := List.cons.inj same
      obtain ⟨-, none⟩ := List.append_eq_nil_iff.mp tail.symm
      cases none
  | @link n here dir name target rest named stands filled leads ih =>
    cases first with
    | nil =>
      obtain ⟨self, -⟩ := List.cons.inj same
      exact absurd self named.1
    | cons name first =>
      obtain ⟨rfl, rfl⟩ := List.cons.inj same
      have joined := ih (List.append_assoc _ _ _).symm behind
      rw [List.append_assoc] at joined
      rw [Nat.add_right_comm]
      exact .link named stands filled joined

/-- Names lead to a directory also when it is asked for by its own name. -/
theorem append_here (leads : Leads t n here names place)
    (directory : t.get? place = some .directory) :
    Leads t n here (names ++ [hereName]) place := by
  induction leads with
  | done here => exact .enter (.self here) (.done here)
  | enter enters _ ih => exact .enter enters (ih directory)
  | file named stands =>
    rw [stands] at directory
    cases directory
  | link named stands filled _ ih =>
    have further := ih directory
    rw [List.append_assoc] at further
    exact .link named stands filled further

theorem of_append_here (leads : Leads t n here (names ++ [hereName]) place) :
    Leads t n here names place := by
  have joined := leads.join rfl (.done place)
  rw [List.append_nil] at joined
  exact joined

/-! ## Other trees -/

/-- More entries do not change where names lead that lead somewhere. -/
theorem mono (kept : ∀ {place e}, t.get? place = some e → t'.get? place = some e)
    (leads : Leads t n here names place) : Leads t' n here names place := by
  induction leads with
  | done here => exact .done here
  | enter enters _ ih => exact .enter (enters.mono kept) ih
  | file named stands => exact .file named (kept stands)
  | link named stands filled _ ih => exact .link named (kept stands) filled ih

/-- In a tree, what names lead to is there. -/
theorem exists_entry (tree : IsTree t) (leads : Leads t n here names place)
    (directory : t.get? here = some .directory) : ∃ e, t.get? place = some e := by
  induction leads with
  | done here => exact ⟨_, directory⟩
  | enter enters _ ih => exact ih (enters.get?_eq tree directory)
  | file _ stands => exact ⟨_, stands⟩
  | link _ _ _ _ ih => exact ih (get?_start directory)

end Leads

/-! ## Paths -/

/-- The names of a path, whether or not it asks for a directory. -/
def parts (path : Bytes) : List Bytes := (path.splitOn Path.slash).filter (· ≠ [])

theorem parts_slash (first second : Bytes) :
    parts (first ++ Path.slash :: second) = parts first ++ parts second := by
  unfold parts List.splitOn
  rw [List.splitOnP_append_cons first second (by decide), List.filter_append]

theorem names_eq_or (path : Bytes) :
    FileTree.names path = parts path ∨ FileTree.names path = parts path ++ [hereName] := by
  unfold FileTree.names
  dsimp only
  split
  · exact .inr rfl
  · exact .inl rfl

/-- Only a slash at the end asks for a directory. -/
theorem names_eq_parts (noSlash : path.getLast? ≠ some Path.slash) :
    FileTree.names path = parts path := by
  unfold FileTree.names
  dsimp only
  rw [if_neg (fun ends => noSlash ends.2)]
  rfl

/-- A directory is asked for by its own name or not. -/
theorem leads_names_iff (directory : t.get? dir = some .directory) :
    Leads t n here (FileTree.names path) dir ↔
      Leads t n here (parts path ++ [hereName]) dir := by
  rcases names_eq_or path with same | same
  · rw [same]
    constructor
    · intro leads
      exact leads.append_here directory
    · intro leads
      exact leads.of_append_here
  · rw [same]

theorem checkPath_eq_ok_iff :
    checkPath path = .ok () ↔ (0 : UInt8) ∉ path ∧ path ≠ [] ∧ path.length < maxPath := by
  unfold checkPath
  split
  · next nul =>
    constructor
    · intro passed
      cases passed
    · rintro ⟨noNul, -⟩
      exact absurd nul noNul
  split
  · next empty =>
    constructor
    · intro passed
      cases passed
    · rintro ⟨-, filled, -⟩
      exact absurd empty filled
  split
  · next long =>
    constructor
    · intro passed
      cases passed
    · rintro ⟨-, -, short⟩
      exact absurd short (Nat.not_lt.mpr long)
  · next noNul filled short => exact iff_of_true rfl ⟨noNul, filled, Nat.not_le.mp short⟩

/-- Seen from the directory `here`, the path leads to `place`, over no more links than the system
follows. -/
def Resolves (t : FileTree) (here : Place) (path : Bytes) (place : Place) : Prop :=
  checkPath path = .ok () ∧
    ∃ n ≤ maxLinks, Leads t n (start here path) (FileTree.names path) place

/-- A path leads to one place only. -/
theorem Resolves.unique {other : Place} (h₁ : Resolves t here path place)
    (h₂ : Resolves t here path other) : place = other := by
  obtain ⟨-, m, -, first⟩ := h₁
  obtain ⟨-, n, -, second⟩ := h₂
  exact first.unique second

/-- In a tree, what a path leads to is there. -/
theorem Resolves.exists_entry (resolves : Resolves t here path place) (tree : IsTree t)
    (directory : t.get? here = some .directory) : ∃ e, t.get? place = some e := by
  obtain ⟨-, n, -, leads⟩ := resolves
  exact leads.exists_entry tree (get?_start directory)

theorem resolve_eq_ok_iff : t.resolve here path = .ok place ↔ Resolves t here path place := by
  unfold resolve Resolves
  rw [← walk_eq_ok_iff]
  cases checked : checkPath path with
  | error e =>
    constructor
    · intro found
      cases found
    · rintro ⟨passed, -⟩
      cases passed
  | ok done =>
    change (t.walk false maxLinks _ _).mapError FileError.system = .ok place ↔ _
    cases walked : t.walk false maxLinks (start here path) (FileTree.names path) with
    | error e =>
      constructor
      · intro found
        cases found
      · rintro ⟨-, found⟩
        cases found
    | ok found =>
      constructor
      · intro same
        cases same
        exact ⟨rfl, rfl⟩
      · rintro ⟨-, same⟩
        cases same
        rfl

theorem pathExists_iff : t.pathExists here path = true ↔ ∃ place, Resolves t here path place := by
  unfold pathExists
  constructor
  · intro found
    cases resolved : t.resolve here path with
    | error e =>
      rw [resolved] at found
      cases found
    | ok place => exact ⟨place, resolve_eq_ok_iff.mp resolved⟩
  · rintro ⟨place, resolves⟩
    rw [resolve_eq_ok_iff.mpr resolves]
    rfl

theorem not_pathExists (absent : ∀ place, ¬ Resolves t here path place) :
    ¬ t.pathExists here path = true := by
  intro found
  obtain ⟨place, resolves⟩ := pathExists_iff.mp found
  exact absent place resolves

/-! ## Reading -/

theorem read_eq_ok_iff {content : Bytes} : t.read here path = .ok content ↔
    ∃ place isProgram, Resolves t here path place ∧
      t.get? place = some (.file content isProgram) := by
  unfold read
  cases resolved : t.resolve here path with
  | error e =>
    constructor
    · intro found
      cases found
    · rintro ⟨place, isProgram, resolves, -⟩
      rw [resolve_eq_ok_iff.mpr resolves] at resolved
      cases resolved
  | ok place =>
    have resolves := resolve_eq_ok_iff.mp resolved
    dsimp only [bind, Except.bind]
    constructor
    · intro found
      split at found
      · next stands =>
        cases found
        exact ⟨place, _, resolves, stands⟩
      · cases found
      · cases found
      · cases found
    · rintro ⟨other, isProgram, also, stands⟩
      obtain rfl := also.unique resolves
      rw [stands]

/-- Seen from the directory `here`, the path leads to a file whose content spells the text. -/
def Holds (t : FileTree) (here : Place) (path : Bytes) (text : String) : Prop :=
  ∃ place isProgram, Resolves t here path place ∧
    t.get? place = some (.file (Utf8.ofString text) isProgram)

theorem readText_eq_ok_iff {text : String} :
    t.readText here path = .ok text ↔ Holds t here path text := by
  unfold Holds
  rw [← read_eq_ok_iff]
  unfold readText
  cases found : t.read here path with
  | error e =>
    constructor
    · intro same
      cases same
    · intro same
      cases same
  | ok content =>
    dsimp only [bind, Except.bind]
    cases valid : Utf8.decode? content with
    | none =>
      constructor
      · intro same
        cases same
      · intro same
        cases same
        rw [Utf8.decode?_eq_some_iff.mpr rfl] at valid
        cases valid
    | some decoded =>
      obtain rfl := Utf8.decode?_eq_some_iff.mp valid
      constructor
      · intro same
        cases same
        rfl
      · intro same
        rw [Except.ok.inj same, Utf8.decode?_eq_some_iff.mpr rfl] at valid
        cases valid
        rfl

/-! ## New files -/

/-- The tree `t'` has one entry more than `t`. -/
structure Adds (t t' : FileTree) (place : Place) (e : Entry) : Prop where
  free : t.get? place = none
  added : t'.get? place = some e
  others : ∀ other, other ≠ place → t'.get? other = t.get? other

theorem Adds.kept {e e' : Entry} {other : Place} (adds : Adds t t' place e)
    (stands : t.get? other = some e') : t'.get? other = some e' := by
  have apart : other ≠ place := by
    rintro rfl
    rw [adds.free] at stands
    cases stands
  rw [adds.others other apart, stands]

/-- The root is never free. -/
theorem ne_nil_of_free (free : t.get? place = none) : place ≠ [] := by
  rintro rfl
  cases free

theorem adds_set (free : t.get? place = none) (e : Entry) : Adds t (t.set place e) place e := by
  have shown := get?_set (t := t) e (ne_nil_of_free free)
  refine ⟨free, ?_, ?_⟩
  · rw [shown, if_pos rfl]
  · intro other apart
    rw [shown, if_neg apart]

/-- A new file that is written to is still the only one that is new. -/
theorem Adds.append {content : Bytes} {isProgram : Bool}
    (adds : Adds t t' place (.file content isProgram)) (bytes : Bytes) :
    Adds t (t'.append place bytes) place (.file (content ++ bytes) isProgram) := by
  have written : t'.append place bytes = t'.set place (.file (content ++ bytes) isProgram) := by
    unfold FileTree.append
    rw [adds.added]
  have shown := get?_set (t := t') (.file (content ++ bytes) isProgram) (ne_nil_of_free adds.free)
  rw [written]
  refine ⟨adds.free, ?_, ?_⟩
  · rw [shown, if_pos rfl]
  · intro other apart
    rw [shown, if_neg apart, adds.others other apart]

/-- A new file that is written as a whole. -/
theorem adds_append (free : t.get? place = none) (content : Bytes) :
    Adds t ((t.set place (.file [] false)).append place content) place (.file content false) :=
  (adds_set free _).append content

/-- What is written without an error is the whole content. -/
theorem Writing.perform_eq {w : Writing} {bytes : Bytes} (whole : (w.perform bytes).2 = none) :
    w.perform bytes = (bytes, none) := by
  cases w with
  | complete => rfl
  | cutOff written e =>
    unfold perform at whole ⊢
    dsimp only at whole ⊢
    split at whole
    · next fits => rw [if_pos fits]
    · cases whole

end BuildLauncher.FileTree
