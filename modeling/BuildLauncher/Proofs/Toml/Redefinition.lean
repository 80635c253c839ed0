import BuildLauncher.Proofs.Toml.Document
import BuildLauncher.Proofs.Toml.Table

/-!
# Keys that are defined twice

A statement changes the value at one key of the whole table, and how it does so depends on what is
there and on the table that is open.  `Acts` lists the seven ways.  None of them accepts a value
that is no table, so a key with such a value is never defined again; and a table that only headers
of its children name holds no text.

* `Toml.exists_acts`, `Toml.Acts.perform`: what a statement does is one of the seven ways.
* `Toml.Acts.refuses`: none of them accepts a value that is no table.
* `Toml.get?_performAll_ne_none_iff`: the keys of a table are the first keys that its statements
  name.
* `Toml.performAll_of_taken`: statements that name a key fail behind a value at that key.
* `Toml.performAll_induction`: what every statement keeps holds behind all of them.
* `Toml.Grown.performAll`: what holds of the implied tables of every document.
* `Toml.Reads.isWritten`: the tables of a value are in braces.
-/

namespace BuildLauncher.Toml

namespace Entries

variable {entries entries' : Entries} {key : Key} {change : Option Node → Option Node}

/-! ## Changing one key -/

/-- The key gets the changed value, and every other key keeps its own. -/
theorem exists_of_alter? (altered : entries.alter? key change = some entries') :
    ∃ node, change (entries.get? key) = some node ∧
      ∀ other, entries'.get? other = if key = other then some node else entries.get? other := by
  induction entries generalizing entries' with
  | nil =>
    obtain ⟨node, changed, rfl⟩ := Option.map_eq_some_iff.mp altered
    exact ⟨node, changed, fun other => get?_cons key []⟩
  | cons e rest ih =>
    obtain ⟨k, old⟩ := e
    rw [alter?] at altered
    by_cases same : k = key
    · subst same
      rw [if_pos rfl] at altered
      obtain ⟨node, changed, rfl⟩ := Option.map_eq_some_iff.mp altered
      refine ⟨node, ?_, fun other => ?_⟩
      · rw [get?_cons, if_pos rfl]
        exact changed
      · rw [get?_cons, get?_cons]
        split <;> rfl
    · rw [if_neg same] at altered
      obtain ⟨rest', found, rfl⟩ := Option.map_eq_some_iff.mp altered
      obtain ⟨node, changed, others⟩ := ih found
      refine ⟨node, ?_, fun other => ?_⟩
      · rw [get?_cons, if_neg same]
        exact changed
      · rw [get?_cons, get?_cons, others other]
        by_cases first : k = other
        · subst first
          rw [if_pos rfl, if_neg (Ne.symm same), if_pos rfl]
        · rw [if_neg first, if_neg first]

/-- Nothing changes where the value at the key may not change. -/
theorem alter?_eq_none (refused : change (entries.get? key) = none) :
    entries.alter? key change = none := by
  cases altered : entries.alter? key change with
  | none => rfl
  | some entries' =>
    obtain ⟨node, changed, -⟩ := exists_of_alter? altered
    rw [refused] at changed
    cases changed

/-! ## The ways of a path -/

/-- What a header's path does to the value at its first key, if `change` is what the rest of it does
to a table. -/
def through (change : Entries → Option Entries) : Option Node → Option Node
  | none => (change []).map (.table .implied)
  | some (.table origin inner) =>
    if origin = .inline then none else (change inner).map (.table origin)
  | some (.tables elements) => (alterLast? change elements).map .tables
  | some _ => none

/-- What a header does to the value at its last key. -/
def opened : Option Node → Option Node
  | none => some (.table .header [])
  | some (.table .implied inner) => some (.table .header inner)
  | some _ => none

/-- What the header of a further element does to the value at its last key. -/
def furthered : Option Node → Option Node
  | none => some (.tables [[]])
  | some (.tables elements) => some (.tables (elements ++ [[]]))
  | some _ => none

/-- What an assignment does to the value at its last key. -/
def given (node : Node) : Option Node → Option Node
  | none => some node
  | some _ => none

/-- What an assignment does to the value at its first key, if `path` is the rest of its key. -/
def dotted (path : List Key) (node : Node) : Option Node → Option Node
  | none => (assign [] path node).map (.table .dotted)
  | some (.table .dotted inner) => (assign inner path node).map (.table .dotted)
  | some (.table .implied inner) =>
    if path.length = 1 then none else (assign inner path node).map (.table .implied)
  | some (.tables elements) =>
    if path.length = 1 then none
    else (alterLast? (fun inner => assign inner path node) elements).map .tables
  | some _ => none

theorem alterAt?_cons (change : Entries → Option Entries) (path : List Key) :
    alterAt? change (key :: path) entries =
      entries.alter? key (through (alterAt? change path)) :=
  rfl

theorem assign_cons {path : List Key} (node : Node) (more : path ≠ []) :
    assign entries (key :: path) node = entries.alter? key (dotted path node) := by
  cases path with
  | nil => exact absurd rfl more
  | cons k path => rfl

end Entries

/-! ## The ways of a statement -/

/-- How a statement acts on the whole table while the table `here` is open: the key whose value it
changes, the change, and the table that is open afterwards. -/
inductive Acts : List Key → Statement → Key → (Option Node → Option Node) → List Key → Prop
  | header {here : List Key} {key : Key} : Acts here (.header [key]) key Entries.opened [key]
  | subheader {here path : List Key} {key last : Key} :
    Acts here (.header (key :: (path ++ [last]))) key
      (Entries.through (Entries.alterAt? (Entries.openTable last) path)) (key :: (path ++ [last]))
  | element {here : List Key} {key : Key} : Acts here (.element [key]) key Entries.furthered [key]
  | subelement {here path : List Key} {key last : Key} :
    Acts here (.element (key :: (path ++ [last]))) key
      (Entries.through (Entries.alterAt? (Entries.openElement last) path)) (key :: (path ++ [last]))
  | assignment {key : Key} {node : Node} :
    Acts [] (.assignment [key] node) key (Entries.given node) []
  | dotted {path : List Key} {key : Key} {node : Node} :
    path ≠ [] → Acts [] (.assignment (key :: path) node) key (Entries.dotted path node) []
  | within {here path : List Key} {key : Key} {node : Node} :
    Acts (key :: here) (.assignment path node) key
      (Entries.through (Entries.alterAt? (fun inner => inner.assign path node) here)) (key :: here)

section Acts

variable {entries entries' : Entries} {here next : List Key} {st : Statement} {key : Key}
  {change : Option Node → Option Node}

/-- A path of two keys and more, taken apart at its end. -/
theorem front_and_last (path : List Key) (key last : Key) :
    (key :: (path ++ [last])).getLast? = some last ∧
      (key :: (path ++ [last])).dropLast = key :: path := by
  rw [← List.cons_append]
  exact ⟨List.getLast?_concat, List.dropLast_concat⟩

theorem Acts.perform (acts : Acts here st key change next) (entries : Entries) :
    st.perform entries here = (entries.alter? key change).map (·, next) := by
  rw [Option.map_eq_bind]
  cases acts with
  | header => rfl
  | element => rfl
  | assignment => rfl
  | within => rfl
  | dotted more =>
    rw [← Entries.assign_cons _ more]
    rfl
  | @subheader here path key last =>
    obtain ⟨final, front⟩ := front_and_last path key last
    simp only [Statement.perform, final, front, Entries.alterAt?_cons, Option.bind_eq_bind,
      Option.bind_some]
    rfl
  | @subelement here path key last =>
    obtain ⟨final, front⟩ := front_and_last path key last
    simp only [Statement.perform, final, front, Entries.alterAt?_cons, Option.bind_eq_bind,
      Option.bind_some]
    rfl

/-- Every statement that can be carried out acts in one of the ways. -/
theorem exists_acts (performed : st.perform entries here = some (entries', next)) :
    ∃ key change, Acts here st key change next ∧ entries.alter? key change = some entries' := by
  have of_acts {key : Key} {change : Option Node → Option Node} {after : List Key}
      (acts : Acts here st key change after) :
      ∃ key change, Acts here st key change next ∧ entries.alter? key change = some entries' := by
    rw [acts.perform entries] at performed
    obtain ⟨_, altered, same⟩ := Option.map_eq_some_iff.mp performed
    cases same
    exact ⟨key, change, acts, altered⟩
  cases st with
  | header path =>
    rcases path with _ | ⟨key, path⟩
    · cases performed
    rcases List.eq_nil_or_concat path with rfl | ⟨front, last, rfl⟩
    · exact of_acts .header
    · rw [List.concat_eq_append] at of_acts ⊢
      exact of_acts .subheader
  | element path =>
    rcases path with _ | ⟨key, path⟩
    · cases performed
    rcases List.eq_nil_or_concat path with rfl | ⟨front, last, rfl⟩
    · exact of_acts .element
    · rw [List.concat_eq_append] at of_acts ⊢
      exact of_acts .subelement
  | assignment path node =>
    rcases here with _ | ⟨key, here⟩
    · rcases path with _ | ⟨key, _ | ⟨k, path⟩⟩
      · cases performed
      · exact of_acts .assignment
      · exact of_acts (.dotted (List.cons_ne_nil k path))
    · exact of_acts .within

/-- A value that is a table or an array of tables, to which a document may add. -/
def Node.IsTable : Node → Prop
  | .table _ _ | .tables _ => True
  | _ => False

/-- No statement changes a value that is no table. -/
theorem Acts.refuses {node : Node} (acts : Acts here st key change next) (solid : ¬ node.IsTable) :
    change (some node) = none := by
  cases node with
  | table origin inner => exact absurd trivial solid
  | tables elements => exact absurd trivial solid
  | _ => cases acts <;> rfl

end Acts

/-! ## The keys of a table -/

/-- The first key that a statement names, while the table `here` is open. -/
def Statement.firstKey? (here : List Key) : Statement → Option Key
  | .header path | .element path => path.head?
  | .assignment path _ => (here ++ path).head?

/-- The table that is open behind a statement. -/
def Statement.opens (here : List Key) : Statement → List Key
  | .header path | .element path => path
  | .assignment _ _ => here

/-- The keys that statements name at the top of the whole table: plain keys, first parts of dotted
keys, and first parts of headers, be they of tables or of elements of arrays. -/
def topKeys : List Key → List Statement → List Key
  | _, [] => []
  | here, st :: sts => (st.firstKey? here).toList ++ topKeys (st.opens here) sts

section Keys

variable {entries entries' : Entries} {here next : List Key} {st : Statement}
  {sts : List Statement} {key : Key} {change : Option Node → Option Node}

theorem Acts.firstKey?_eq (acts : Acts here st key change next) :
    st.firstKey? here = some key ∧ st.opens here = next := by
  cases acts <;> exact ⟨rfl, rfl⟩

theorem Acts.topKeys_cons (acts : Acts here st key change next) :
    topKeys here (st :: sts) = key :: topKeys next sts := by
  rw [topKeys, acts.firstKey?_eq.1, acts.firstKey?_eq.2]
  rfl

/-- The first of several statements, and what the others do. -/
theorem exists_acts_of_performAll
    (performed : performAll entries here (st :: sts) = some entries') :
    ∃ key change next middle, Acts here st key change next ∧
      entries.alter? key change = some middle ∧ performAll middle next sts = some entries' := by
  rw [performAll, Option.bind_eq_bind, Option.bind_eq_some_iff] at performed
  obtain ⟨⟨middle, next⟩, first, others⟩ := performed
  obtain ⟨key, change, acts, altered⟩ := exists_acts first
  exact ⟨key, change, next, middle, acts, altered, others⟩

/-- A table has exactly the keys that its statements name, besides those it had before. -/
theorem get?_performAll_ne_none_iff (performed : performAll entries here sts = some entries')
    (key : Key) : entries'.get? key ≠ none ↔ entries.get? key ≠ none ∨ key ∈ topKeys here sts := by
  induction sts generalizing entries here with
  | nil =>
    cases performed
    simp [topKeys]
  | cons st sts ih =>
    obtain ⟨k, change, next, middle, acts, altered, others⟩ := exists_acts_of_performAll performed
    obtain ⟨node, -, values⟩ := Entries.exists_of_alter? altered
    rw [ih others, values key, acts.topKeys_cons, List.mem_cons]
    by_cases same : k = key
    · subst same
      simp
    · have other : key ≠ k := Ne.symm same
      simp [same, other]

/-- **No statement defines a key again.**  Statements that name a key fail when its value is no
table, wherever they could be carried out without that key.  Until one of them names the key, both
runs change the same values in the same way. -/
theorem performAll_of_taken {node : Node} (solid : ¬ node.IsTable)
    (performed : performAll entries here sts = some entries') (named : key ∈ topKeys here sts) :
    performAll ((key, node) :: entries) here sts = none := by
  induction sts generalizing entries here with
  | nil => cases named
  | cons st sts ih =>
    obtain ⟨k, change, next, middle, acts, altered, others⟩ := exists_acts_of_performAll performed
    rw [acts.topKeys_cons, List.mem_cons] at named
    by_cases same : key = k
    · subst same
      have refused : Entries.alter? key change ((key, node) :: entries) = none := by
        apply Entries.alter?_eq_none
        rw [Entries.get?_cons, if_pos rfl]
        exact acts.refuses solid
      rw [performAll, acts.perform, refused]
      rfl
    · have kept :
          Entries.alter? k change ((key, node) :: entries) = some ((key, node) :: middle) := by
        rw [Entries.alter?, if_neg same, altered]
        rfl
      have first :
          st.perform ((key, node) :: entries) here = some ((key, node) :: middle, next) := by
        rw [acts.perform, kept]
        rfl
      rw [performAll_cons first]
      exact ih others (named.resolve_left same)

end Keys

/-! ## Implied tables -/

/-- A table none of whose values is a text. -/
def Entries.HoldsNoText (entries : Entries) : Prop :=
  ∀ key chars, entries.get? key ≠ some (.text chars)

/-- A value that can be written behind an equals sign: a table is one in braces. -/
def Node.IsSpelled : Node → Prop
  | .table origin _ => origin = .inline
  | .tables _ => False
  | _ => True

/-- An assignment gives a value that could be written behind an equals sign, and so no table that
only headers name. -/
def Statement.IsWritten : Statement → Prop
  | .header _ | .element _ => True
  | .assignment _ node => node.IsSpelled

/-- What every statement keeps, of the whole table and of the table that is open, holds behind all
of them. -/
theorem performAll_induction {P : Entries → List Key → Prop}
    (step : ∀ {entries entries' : Entries} {here next : List Key} {st : Statement} {key : Key}
      {change : Option Node → Option Node}, P entries here → Acts here st key change next →
      st.IsWritten → entries.alter? key change = some entries' → P entries' next)
    {entries entries' : Entries} {here : List Key} {sts : List Statement} (start : P entries here)
    (written : ∀ st ∈ sts, st.IsWritten) (performed : performAll entries here sts = some entries') :
    ∃ here', P entries' here' := by
  induction sts generalizing entries here with
  | nil =>
    cases performed
    exact ⟨here, start⟩
  | cons st sts ih =>
    obtain ⟨key, change, next, middle, acts, altered, others⟩ :=
      exists_acts_of_performAll performed
    have first : P middle next := step start acts (written st List.mem_cons_self) altered
    exact ih first (fun st mem => written st (List.mem_cons_of_mem _ mem)) others

/-- What holds while a document is carried out: an implied table holds no text, and the table that
is open is no implied one. -/
structure Grown (entries : Entries) (here : List Key) : Prop where
  holdsNoText {key : Key} {inner : Entries} :
    entries.get? key = some (.table .implied inner) → inner.HoldsNoText
  isOpen {key : Key} :
    here = [key] → ∃ node, entries.get? key = some node ∧ ∀ inner, node ≠ .table .implied inner

/-- A value that statements leave where they pass: a table, or an array that has a table. -/
def Node.IsFilled : Node → Prop
  | .table _ _ => True
  | .tables elements => elements ≠ []
  | _ => False

namespace Entries

variable {entries entries' : Entries} {key : Key} {change : Option Node → Option Node}

/-- Tables that are added or changed add no text. -/
theorem HoldsNoText.alter? (without : entries.HoldsNoText)
    (tables : ∀ old node, change old = some node → node.IsFilled)
    (altered : entries.alter? key change = some entries') : entries'.HoldsNoText := by
  obtain ⟨node, changed, values⟩ := exists_of_alter? altered
  intro other chars text
  rw [values other] at text
  split at text
  · cases text
    exact tables _ _ changed
  · exact without other chars text

/-- An array of tables whose last one is changed has an element. -/
theorem ne_nil_of_alterLast? {f : Entries → Option Entries} {elements elements' : List Entries}
    (altered : alterLast? f elements = some elements') : elements' ≠ [] := by
  rintro rfl
  rcases elements with _ | ⟨first, _ | ⟨second, rest⟩⟩
  · cases altered
  · obtain ⟨_, -, same⟩ := Option.map_eq_some_iff.mp altered
    cases same
  · obtain ⟨_, -, same⟩ := Option.map_eq_some_iff.mp altered
    cases same

theorem isFilled_of_through {change : Entries → Option Entries} {old : Option Node} {node : Node}
    (changed : through change old = some node) : node.IsFilled := by
  unfold through at changed
  split at changed
  · obtain ⟨_, -, rfl⟩ := Option.map_eq_some_iff.mp changed
    trivial
  · split at changed
    · cases changed
    · obtain ⟨_, -, rfl⟩ := Option.map_eq_some_iff.mp changed
      trivial
  · obtain ⟨_, altered, rfl⟩ := Option.map_eq_some_iff.mp changed
    exact ne_nil_of_alterLast? altered
  · cases changed

theorem isFilled_of_opened {old : Option Node} {node : Node} (changed : opened old = some node) :
    node.IsFilled := by
  unfold opened at changed
  split at changed <;> cases changed <;> trivial

theorem isFilled_of_furthered {old : Option Node} {node : Node}
    (changed : furthered old = some node) : node.IsFilled := by
  unfold furthered at changed
  split at changed
  · cases changed
    exact List.cons_ne_nil _ _
  · cases changed
    exact List.append_ne_nil_of_right_ne_nil _ (List.cons_ne_nil _ _)
  · cases changed

theorem isFilled_of_dotted {path : List Key} {value : Node} {old : Option Node} {node : Node}
    (changed : dotted path value old = some node) : node.IsFilled := by
  unfold dotted at changed
  split at changed
  · obtain ⟨_, -, rfl⟩ := Option.map_eq_some_iff.mp changed
    trivial
  · obtain ⟨_, -, rfl⟩ := Option.map_eq_some_iff.mp changed
    trivial
  · split at changed
    · cases changed
    · obtain ⟨_, -, rfl⟩ := Option.map_eq_some_iff.mp changed
      trivial
  · split at changed
    · cases changed
    · obtain ⟨_, altered, rfl⟩ := Option.map_eq_some_iff.mp changed
      exact ne_nil_of_alterLast? altered
  · cases changed

/-- Below the first key of its path, a header adds no text. -/
theorem HoldsNoText.alterAt? {last : Entries → Option Entries} {path : List Key}
    (without : entries.HoldsNoText)
    (adds : ∀ {entries entries' : Entries}, last entries = some entries' →
      entries.HoldsNoText → entries'.HoldsNoText)
    (altered : entries.alterAt? last path = some entries') : entries'.HoldsNoText := by
  cases path with
  | nil => exact adds altered without
  | cons key path =>
    rw [alterAt?_cons] at altered
    exact without.alter? (fun _ _ => isFilled_of_through) altered

end Entries

section Implied

variable {entries entries' : Entries} {here next : List Key} {st : Statement}
  {sts : List Statement} {key : Key} {change : Option Node → Option Node}

theorem Entries.holdsNoText_nil : Entries.HoldsNoText [] := nofun

/-- A header leaves an implied table at its first key only where there was one or nothing. -/
theorem Entries.through_eq_implied {change : Entries → Option Entries} {old : Option Node}
    {inner' : Entries} (changed : Entries.through change old = some (.table .implied inner')) :
    ∃ inner : Entries, change inner = some inner' ∧
      (old = some (.table .implied inner) ∨ old = none ∧ inner = []) := by
  unfold Entries.through at changed
  split at changed
  · obtain ⟨_, below, same⟩ := Option.map_eq_some_iff.mp changed
    cases same
    exact ⟨[], below, .inr ⟨rfl, rfl⟩⟩
  · split at changed
    · cases changed
    · obtain ⟨_, below, same⟩ := Option.map_eq_some_iff.mp changed
      cases same
      exact ⟨_, below, .inl rfl⟩
  · obtain ⟨_, -, same⟩ := Option.map_eq_some_iff.mp changed
    cases same
  · cases changed

/-- A dotted key does not make an implied table, and does not end right below one. -/
theorem Entries.dotted_eq_implied {path : List Key} {node : Node} {old : Option Node}
    {inner' : Entries} (changed : Entries.dotted path node old = some (.table .implied inner')) :
    ∃ inner : Entries, old = some (.table .implied inner) ∧ path.length ≠ 1 ∧
      inner.assign path node = some inner' := by
  unfold Entries.dotted at changed
  split at changed
  · obtain ⟨_, -, same⟩ := Option.map_eq_some_iff.mp changed
    cases same
  · obtain ⟨_, -, same⟩ := Option.map_eq_some_iff.mp changed
    cases same
  · split at changed
    · cases changed
    · next long =>
      obtain ⟨_, below, same⟩ := Option.map_eq_some_iff.mp changed
      cases same
      exact ⟨_, rfl, long, below⟩
  · split at changed
    · cases changed
    · obtain ⟨_, -, same⟩ := Option.map_eq_some_iff.mp changed
      cases same
  · cases changed

/-- A statement adds no text to an implied table that holds none, unless that table is open. -/
theorem Acts.holdsNoText {old : Option Node} {inner' : Entries}
    (acts : Acts here st key change next) (written : st.IsWritten)
    (changed : change old = some (.table .implied inner'))
    (without : ∀ inner : Entries, old = some (.table .implied inner) → inner.HoldsNoText)
    (isOpen : here = [key] → ∃ node, old = some node ∧ ∀ inner, node ≠ .table .implied inner) :
    inner'.HoldsNoText := by
  -- what the rest of a header's path does to the table that was there, or to a new one
  have below {rest : Entries → Option Entries}
      (adds : ∀ {entries entries' : Entries}, rest entries = some entries' →
        entries.HoldsNoText → entries'.HoldsNoText)
      (passed : Entries.through rest old = some (.table .implied inner')) :
      inner'.HoldsNoText := by
    obtain ⟨inner, added, there | ⟨-, rfl⟩⟩ := Entries.through_eq_implied passed
    · exact adds added (without inner there)
    · exact adds added Entries.holdsNoText_nil
  cases acts with
  | header =>
    unfold Entries.opened at changed
    split at changed <;> cases changed
  | element =>
    unfold Entries.furthered at changed
    split at changed <;> cases changed
  | subheader =>
    refine below (fun added before => before.alterAt? ?_ added) changed
    intro entries entries' opened before
    exact before.alter? (fun _ _ => Entries.isFilled_of_opened) opened
  | subelement =>
    refine below (fun added before => before.alterAt? ?_ added) changed
    intro entries entries' furthered before
    exact before.alter? (fun _ _ => Entries.isFilled_of_furthered) furthered
  | @assignment key node =>
    unfold Entries.given at changed
    split at changed
    · cases changed
      cases written
    · cases changed
  | @dotted path key node more =>
    obtain ⟨inner, there, long, assigned⟩ := Entries.dotted_eq_implied changed
    rcases path with _ | ⟨k, _ | ⟨k', path⟩⟩
    · exact absurd rfl more
    · exact absurd rfl long
    · rw [Entries.assign_cons _ (List.cons_ne_nil _ _)] at assigned
      exact (without inner there).alter? (fun _ _ => Entries.isFilled_of_dotted) assigned
  | @within here path key node =>
    rcases here with _ | ⟨k, here⟩
    · -- the open table itself may get a text, but it is no implied one
      obtain ⟨inner, -, there | ⟨nothing, -⟩⟩ := Entries.through_eq_implied changed
      · obtain ⟨node, found, notImplied⟩ := isOpen rfl
        rw [there] at found
        exact absurd (Option.some.inj found).symm (notImplied inner)
      · obtain ⟨node, found, -⟩ := isOpen rfl
        rw [nothing] at found
        cases found
    · refine below (fun added before => ?_) changed
      rw [Entries.alterAt?_cons] at added
      exact before.alter? (fun _ _ => Entries.isFilled_of_through) added

/-- The table that a statement leaves open is no implied one. -/
theorem Acts.isOpen {old : Option Node} {node : Node} (acts : Acts here st key change next)
    (changed : change old = some node)
    (isOpen : here = [key] → ∃ node, old = some node ∧ ∀ inner, node ≠ .table .implied inner)
    (single : ∃ key, next = [key]) : next = [key] ∧ ∀ inner, node ≠ .table .implied inner := by
  obtain ⟨only, single⟩ := single
  cases acts with
  | header =>
    refine ⟨rfl, ?_⟩
    unfold Entries.opened at changed
    split at changed <;> cases changed <;> nofun
  | element =>
    refine ⟨rfl, ?_⟩
    unfold Entries.furthered at changed
    split at changed <;> cases changed <;> nofun
  | subheader => simp at single
  | subelement => simp at single
  | assignment => cases single
  | dotted => cases single
  | @within here path key value =>
    obtain rfl : here = [] := (List.cons.inj single).2
    refine ⟨rfl, ?_⟩
    rintro inner rfl
    obtain ⟨inner', -, there | ⟨nothing, -⟩⟩ := Entries.through_eq_implied changed
    · obtain ⟨node, found, notImplied⟩ := isOpen rfl
      rw [there] at found
      exact notImplied inner' (Option.some.inj found).symm
    · obtain ⟨node, found, -⟩ := isOpen rfl
      rw [nothing] at found
      cases found

/-- The empty table with which a document starts. -/
theorem Grown.nil : Grown [] [] where
  holdsNoText := nofun
  isOpen := nofun

theorem Grown.alter? (grown : Grown entries here) (acts : Acts here st key change next)
    (written : st.IsWritten) (altered : entries.alter? key change = some entries') :
    Grown entries' next := by
  obtain ⟨node, changed, values⟩ := Entries.exists_of_alter? altered
  refine ⟨fun {other inner} implied => ?_, fun {other} single => ?_⟩
  · rw [values other] at implied
    split at implied
    · cases implied
      exact acts.holdsNoText written changed (fun inner => grown.holdsNoText) grown.isOpen
    · exact grown.holdsNoText implied
  · obtain ⟨same, notImplied⟩ := acts.isOpen changed grown.isOpen ⟨other, single⟩
    obtain rfl : key = other := (List.cons.inj (same.symm.trans single)).1
    exact ⟨node, by rw [values, if_pos rfl], notImplied⟩

theorem Grown.performAll (grown : Grown entries here) (written : ∀ st ∈ sts, st.IsWritten)
    (performed : performAll entries here sts = some entries') : ∃ here', Grown entries' here' :=
  performAll_induction (fun grown acts => grown.alter? acts) grown written performed

end Implied

/-! ## Statements as they are written -/

theorem isSpelled_of_value {depth : Nat} {cs rest : List Char} {node : Node}
    (read : value depth cs = some (node, rest)) : node.IsSpelled := by
  unfold value at read
  split at read
  · split at read
    · cases read
    · obtain ⟨_, -, same⟩ := Option.map_eq_some_iff.mp read
      cases same
      trivial
  · split at read
    · cases read
    · obtain ⟨_, -, same⟩ := Option.map_eq_some_iff.mp read
      cases same
      rfl
  · split at read
    · obtain ⟨_, -, same⟩ := Option.map_eq_some_iff.mp read
      cases same
      trivial
    · obtain ⟨_, -, same⟩ := Option.map_eq_some_iff.mp read
      cases same
      trivial
    · obtain ⟨_, spelled, same⟩ := Option.map_eq_some_iff.mp read
      cases same
      unfold scalarOf? at spelled
      split at spelled
      · cases spelled
        trivial
      split at spelled
      · cases spelled
        trivial
      split at spelled
      · cases spelled
        trivial
      split at spelled
      · cases spelled
        trivial
      · obtain ⟨_, -, same⟩ := Option.map_eq_some_iff.mp spelled
        cases same
        trivial

theorem Reads.isWritten {cs : List Char} {sts : List Statement} (reads : Reads cs sts) :
    ∀ st ∈ sts, st.IsWritten := by
  induction reads with
  | nil _ => exact nofun
  | cons _ line _ _ ih =>
    intro st mem
    rcases List.mem_cons.mp mem with rfl | mem
    · cases statement_eq_some_iff.mp line with
      | element _ => trivial
      | header _ _ => trivial
      | assignment _ _ read => exact isSpelled_of_value read
    · exact ih st mem

end BuildLauncher.Toml
