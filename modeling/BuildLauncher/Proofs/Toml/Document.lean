import BuildLauncher.Proofs.Toml.Value
import BuildLauncher.Toml.Document

/-!
# Reading the statements of a document

`Toml.Reads` says what the statements of a text are without the counter that bounds their number,
and `Toml.statementsFrom_eq_some_iff` that the reader finds exactly those.
-/

namespace BuildLauncher.Toml

/-- A text consists of the given statements, each at the end of its line. -/
inductive Reads : List Char → List Statement → Prop
  | nil {cs : List Char} : skipBlank cs = some [] → Reads cs []
  | cons {cs start rest next : List Char} {c : Char} {first : Statement} {more : List Statement} :
    skipBlank cs = some (c :: start) → statement (c :: start) = some (first, rest) →
    endOfLine rest = some next → Reads next more → Reads cs (first :: more)

theorem reads_of_statementsFrom {fuel : Nat} {cs : List Char} {sts : List Statement}
    (read : statementsFrom fuel cs = some sts) : Reads cs sts ∧ sts.length < fuel := by
  induction fuel generalizing cs sts with
  | zero => cases read
  | succ fuel ih =>
    rw [statementsFrom, Option.bind_eq_bind, Option.bind_eq_some_iff] at read
    obtain ⟨start, blank, read⟩ := read
    cases start with
    | nil =>
      cases read
      exact ⟨.nil blank, Nat.succ_pos fuel⟩
    | cons c start =>
      simp only [Option.bind_eq_bind, Option.bind_eq_some_iff] at read
      obtain ⟨⟨first, rest⟩, one, next, ended, more, others, same⟩ := read
      cases same
      obtain ⟨reads, short⟩ := ih others
      exact ⟨.cons blank one ended reads, Nat.succ_lt_succ short⟩

theorem statementsFrom_of_reads {fuel : Nat} {cs : List Char} {sts : List Statement}
    (reads : Reads cs sts) (enough : sts.length < fuel) : statementsFrom fuel cs = some sts := by
  induction reads generalizing fuel with
  | nil blank =>
    cases fuel with
    | zero => cases enough
    | succ fuel =>
      rw [statementsFrom, blank]
      rfl
  | cons blank one ended _ ih =>
    cases fuel with
    | zero => cases enough
    | succ fuel =>
      simp only [statementsFrom, blank, one, ended, ih (Nat.lt_of_succ_lt_succ enough),
        Option.bind_eq_bind, Option.bind_some]

theorem statementsFrom_eq_some_iff {fuel : Nat} {cs : List Char} {sts : List Statement} :
    statementsFrom fuel cs = some sts ↔ Reads cs sts ∧ sts.length < fuel :=
  ⟨reads_of_statementsFrom, fun read => statementsFrom_of_reads read.1 read.2⟩

theorem statements_eq_some_iff {cs : List Char} {sts : List Statement} :
    statements cs = some sts ↔
      Reads (dropByteOrderMark cs) sts ∧ sts.length < (dropByteOrderMark cs).length + 1 :=
  statementsFrom_eq_some_iff

/-! ## Statements -/

/-- A statement at the front of a text, and what follows it on its line. -/
inductive Line : List Char → Statement → List Char → Prop
  | element {cs rest : List Char} {path : List Key} :
    keyPath maxKeyParts cs = some (path, ']' :: ']' :: rest) →
    Line ('[' :: '[' :: cs) (.element path) rest
  | header {cs rest : List Char} {path : List Key} :
    (∀ more, cs ≠ '[' :: more) → keyPath maxKeyParts cs = some (path, ']' :: rest) →
    Line ('[' :: cs) (.header path) rest
  | assignment {cs marked rest : List Char} {path : List Key} {node : Node} :
    (∀ more, cs ≠ '[' :: more) → keyPath maxKeyParts cs = some (path, '=' :: marked) →
    value maxDepth (skipSpaces marked) = some (node, rest) →
    Line cs (.assignment path node) rest

theorem statement_of_line {cs rest : List Char} {st : Statement} (line : Line cs st rest) :
    statement cs = some (st, rest) := by
  cases line with
  | element key =>
    simp only [statement, key, after, ↓reduceIte, Option.bind_eq_bind, Option.bind_some]
  | header single key =>
    unfold statement
    split
    · next same => exact absurd (List.cons.inj same).2 (single _)
    · next same =>
      cases same
      simp only [key, after, ↓reduceIte, Option.bind_eq_bind, Option.bind_some]
    · next other => exact absurd rfl (other _)
  | assignment plain key read =>
    unfold statement
    split
    · exact absurd rfl (plain _)
    · exact absurd rfl (plain _)
    · simp only [key, after, ↓reduceIte, read, Option.bind_eq_bind, Option.bind_some]

theorem line_of_statement {cs rest : List Char} {st : Statement}
    (read : statement cs = some (st, rest)) : Line cs st rest := by
  unfold statement at read
  split at read
  · simp only [Option.bind_eq_bind, Option.bind_eq_some_iff, after_eq_some_iff] at read
    obtain ⟨⟨path, named⟩, key, _, rfl, _, rfl, same⟩ := read
    cases same
    exact .element key
  · next single =>
    simp only [Option.bind_eq_bind, Option.bind_eq_some_iff, after_eq_some_iff] at read
    obtain ⟨⟨path, named⟩, key, _, rfl, same⟩ := read
    cases same
    exact .header (fun more same => single more (by rw [same])) key
  · next plain =>
    simp only [Option.bind_eq_bind, Option.bind_eq_some_iff, after_eq_some_iff] at read
    obtain ⟨⟨path, named⟩, key, _, rfl, ⟨node, behind⟩, one, same⟩ := read
    cases same
    exact .assignment plain key one

theorem statement_eq_some_iff {cs rest : List Char} {st : Statement} :
    statement cs = some (st, rest) ↔ Line cs st rest :=
  ⟨line_of_statement, statement_of_line⟩

/-- A last line that assigns a value. -/
theorem reads_assignment {c : Char} {start v ending : List Char} {path : List Key} {node : Node}
    (plain : c ≠ '[') (solid : skipBlank (c :: start) = some (c :: start))
    (key : keyPath maxKeyParts (c :: start) = some (path, '=' :: ' ' :: v))
    (flush : skipSpaces v = v) (read : value maxDepth v = some (node, ending))
    (ended : endOfLine ending = some []) : Reads (c :: start) [.assignment path node] := by
  have spaced : skipSpaces (' ' :: v) = v := flush
  have line : Line (c :: start) (.assignment path node) ending :=
    .assignment (fun more same => plain (List.cons.inj same).1) key (by rw [spaced]; exact read)
  exact .cons solid (statement_eq_some_iff.mpr line) ended (.nil rfl)

end BuildLauncher.Toml
