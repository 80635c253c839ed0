import BuildLauncher.Proofs.Toml.Document
import BuildLauncher.Proofs.Toml.Quoted
import BuildLauncher.Proofs.Toml.Value

/-!
# Readers in front of a further line

What a reader finds in a text it also finds when a further line follows the text: it reads the same
and leaves the line.  Numbers, bare keys and closing quotes look one character ahead, and the end of
the line before stops all of them.

* `Toml.quoted_keeps`, `Toml.keyPath_keeps`, `Toml.value_keeps`: the readers within a line.
* `Toml.endOfLine_line`, `Toml.Line.line`: the statement of a line, and its end.
* `Toml.Reads.append_iff`, `Toml.statements_append`, `Toml.exists_of_statements_append`: the
  statements of two documents, one after the other.
-/

namespace BuildLauncher.Toml

/-- What a reader reads it also reads in front of the given characters, which it leaves. -/
def Keeps {α : Type} (tail : List Char) (read : List Char → Option (α × List Char)) : Prop :=
  ∀ {cs rest : List Char} {a : α}, read cs = some (a, rest) →
    read (cs ++ tail) = some (a, rest ++ tail)

/-! ## Quoted text -/

/-- What is pushed in front of a text leaves what follows the text alone. -/
theorem map_pushFront_keeps {o o' : Option (List Char × List Char)} {c : Char}
    {text rest tail : List Char} (read : o.map (pushFront c) = some (text, rest))
    (keeps : ∀ text, o = some (text, rest) → o' = some (text, rest ++ tail)) :
    o'.map (pushFront c) = some (text, rest ++ tail) := by
  obtain ⟨⟨text', rest'⟩, found, same⟩ := Option.map_eq_some_iff.mp read
  cases same
  rw [keeps text' found]
  rfl

theorem basicFrom_keeps (place : Place) (tail : List Char) : Keeps tail (basicFrom place) := by
  intro cs rest text read
  induction cs generalizing place text with
  | nil => cases place <;> cases read
  | cons c cs ih =>
    rw [List.cons_append]
    cases place with
    | between =>
      rw [basicFrom] at read ⊢
      split at read
      · next closing =>
        cases read
        exact if_pos closing
      · next notClosing =>
        rw [if_neg notClosing]
        split at read
        · next escape =>
          rw [if_pos escape]
          exact ih .escape read
        · next noEscape =>
          rw [if_neg noEscape]
          split at read
          · next plain =>
            rw [if_pos plain]
            exact map_pushFront_keeps read fun text => ih .between
          · cases read
    | escape =>
      rw [basicFrom] at read ⊢
      cases announced : Escape.ofChar? c with
      | none =>
        rw [announced] at read
        cases read
      | some escape =>
        rw [announced] at read
        cases escape with
        | char d => exact map_pushFront_keeps read fun text => ih .between
        | hex further => exact ih (.digits further 0) read
    | digits further value =>
      rw [basicFrom] at read ⊢
      cases hex : hexValue? c with
      | none =>
        rw [hex] at read
        cases read
      | some digit =>
        rw [hex] at read
        cases further with
        | succ k => exact ih (.digits k _) read
        | zero =>
          dsimp only at read ⊢
          split at read
          · exact map_pushFront_keeps read fun text => ih .between
          · cases read

theorem literalFrom_keeps (tail : List Char) : Keeps tail literalFrom := by
  intro cs rest text read
  induction cs generalizing text with
  | nil => cases read
  | cons c cs ih =>
    rw [List.cons_append]
    rw [literalFrom] at read ⊢
    split at read
    · next closing =>
      cases read
      exact if_pos closing
    · next notClosing =>
      rw [if_neg notClosing]
      split at read
      · next plain =>
        rw [if_pos plain]
        exact map_pushFront_keeps read fun text => ih
      · cases read

theorem blockFrom_keeps {quote : Char} (place : BlockPlace) (t : List Char)
    (other : '\n' ≠ quote) : Keeps ('\n' :: t) (blockFrom quote place) := by
  intro cs rest text read
  induction cs generalizing place text with
  | nil =>
    by_cases closed : ∃ k, place = .quotes (k + 3)
    · obtain ⟨k, rfl⟩ := closed
      cases read
      rw [List.nil_append, blockFrom_quotes]
      exact if_pos (.inr other)
    · rw [blockFrom.eq_2 _ _ fun k same => closed ⟨k, same⟩] at read
      cases read
  | cons c cs ih =>
    rw [List.cons_append]
    by_cases closed : ∃ k, place = .quotes (k + 3)
    · obtain ⟨k, rfl⟩ := closed
      rw [blockFrom_quotes] at read ⊢
      split at read
      · next complete =>
        cases read
        exact if_pos complete
      · next incomplete =>
        rw [if_neg incomplete]
        exact ih _ read
    · have inside (k : Nat) : place ≠ .quotes (k + 3) := fun same => closed ⟨k, same⟩
      rw [blockFrom_cons inside, Option.bind_eq_some_iff] at read
      obtain ⟨⟨front, next⟩, step, read⟩ := read
      obtain ⟨⟨more, rest'⟩, behind, same⟩ := Option.map_eq_some_iff.mp read
      cases same
      rw [blockFrom_cons inside, step, Option.bind_some]
      dsimp only
      rw [ih next behind]
      rfl

/-- What is dropped behind opening quotes is the same in front of more, unless it could only be half
of the end of a line. -/
theorem dropFirstLineEnd_append {cs : List Char} (tail : List Char) (nonempty : cs ≠ [])
    (notHalf : cs ≠ ['\r']) : dropFirstLineEnd (cs ++ tail) = dropFirstLineEnd cs ++ tail := by
  by_cases feed : ∃ rest, cs = '\n' :: rest
  · obtain ⟨rest, rfl⟩ := feed
    rfl
  by_cases both : ∃ rest, cs = '\r' :: '\n' :: rest
  · obtain ⟨rest, rfl⟩ := both
    rfl
  rw [dropFirstLineEnd.eq_3 cs (fun rest same => feed ⟨rest, same⟩)
    (fun rest same => both ⟨rest, same⟩)]
  rcases cs with _ | ⟨c, cs⟩
  · exact absurd rfl nonempty
  refine dropFirstLineEnd.eq_3 _ ?_ ?_
  · intro rest same
    exact feed ⟨cs, by rw [(List.cons.inj same).1]⟩
  · intro rest same
    obtain ⟨rfl, same'⟩ := List.cons.inj same
    rcases cs with _ | ⟨d, cs⟩
    · exact notHalf rfl
    · exact both ⟨cs, by rw [(List.cons.inj same').1]⟩

/-- A text in quotes, whatever the quotation. -/
theorem quoted_keeps (block : Bool) (t : List Char) : Keeps ('\n' :: t) (quoted block) := by
  intro cs rest text read
  rcases cs with _ | ⟨c, cs⟩
  · cases read
  by_cases quoting : c = '"' ∨ c = literalQuote
  · have other : '\n' ≠ c := by
      rcases quoting with rfl | rfl <;> decide
    by_cases three : block = true ∧ ∃ more, cs = c :: c :: more
    · obtain ⟨rfl, more, rfl⟩ := three
      rw [quoted_block quoting] at read
      change quoted true (c :: c :: c :: (more ++ '\n' :: t)) = _
      rw [quoted_block quoting, dropFirstLineEnd_append]
      · exact blockFrom_keeps .between t other read
      · rintro rfl
        cases read
      · rintro rfl
        rcases quoting with rfl | rfl <;> cases read
    · have line (more : List Char) (on : block = true) : cs ≠ c :: c :: more :=
        fun same => three ⟨on, more, same⟩
      have line' (more : List Char) (on : block = true) :
          cs ++ '\n' :: t ≠ c :: c :: more := by
        intro same
        rcases cs with _ | ⟨d, _ | ⟨e, cs⟩⟩
        · exact other (List.cons.inj same).1
        · exact other (List.cons.inj (List.cons.inj same).2).1
        · obtain ⟨rfl, same'⟩ := List.cons.inj same
          obtain ⟨rfl, -⟩ := List.cons.inj same'
          exact line cs on rfl
      rw [quoted_line quoting line] at read
      rw [List.cons_append, quoted_line quoting line']
      split at read
      · next basic =>
        rw [if_pos basic]
        exact basicFrom_keeps .between _ read
      · next literal =>
        rw [if_neg literal]
        exact literalFrom_keeps _ read
  · rw [quoted_none quoting] at read
    cases read

/-! ## Blanks -/

section Stop

variable {p : Char → Bool}

theorem takeWhile_line (stop : p '\n' = false) (cs t : List Char) :
    (cs ++ '\n' :: t).takeWhile p = cs.takeWhile p := by
  induction cs with
  | nil =>
    rw [List.nil_append, List.takeWhile_cons, stop, List.takeWhile_nil]
    rfl
  | cons c cs ih =>
    rw [List.cons_append, List.takeWhile_cons, List.takeWhile_cons, ih]

theorem dropWhile_line (stop : p '\n' = false) (cs t : List Char) :
    (cs ++ '\n' :: t).dropWhile p = cs.dropWhile p ++ '\n' :: t := by
  induction cs with
  | nil =>
    rw [List.nil_append, List.dropWhile_cons, stop, List.dropWhile_nil]
    rfl
  | cons c cs ih =>
    rw [List.cons_append, List.dropWhile_cons, List.dropWhile_cons, ih]
    split <;> rfl

end Stop

theorem skipSpaces_line (cs t : List Char) :
    skipSpaces (cs ++ '\n' :: t) = skipSpaces cs ++ '\n' :: t :=
  dropWhile_line rfl cs t

/-- Blanks that end at a character end there in front of anything. -/
theorem skipBlankFrom_append {place : BlankPlace} {cs rest : List Char} (tail : List Char)
    (read : skipBlankFrom place cs = some rest) (more : rest ≠ []) :
    skipBlankFrom place (cs ++ tail) = some (rest ++ tail) := by
  fun_induction skipBlankFrom place cs with
  | case2 place inside => exact absurd (Option.some.inj read).symm more
  | case6 c cs notBlank notHalf noComment =>
    cases read
    rw [List.cons_append, skipBlankFrom, if_neg notBlank, if_neg notHalf, if_neg noComment]
  | _ => simp_all [skipBlankFrom]

/-- Blanks up to the end of a text go on behind the end of its last line. -/
theorem skipBlankFrom_line {place : BlankPlace} {cs : List Char} (t : List Char)
    (read : skipBlankFrom place cs = some []) :
    skipBlankFrom place (cs ++ '\n' :: t) = skipBlank t := by
  unfold skipBlank
  fun_induction skipBlankFrom place cs with
  | case2 place inside =>
    cases place with
    | lineEnd => exact absurd rfl inside
    | between => rfl
    | comment => rfl
  | _ => simp_all [skipBlankFrom]

theorem skipBlank_append {cs rest : List Char} (tail : List Char)
    (blank : skipBlank cs = some rest) (more : rest ≠ []) :
    skipBlank (cs ++ tail) = some (rest ++ tail) :=
  skipBlankFrom_append tail blank more

/-- Where something is read there is a character. -/
theorem ne_nil_of_read {α : Type} {read : List Char → Option (α × List Char)}
    {start behind : List Char} {a : α} (nothing : read [] = none)
    (one : read start = some (a, behind)) : start ≠ [] := by
  rintro rfl
  rw [nothing] at one
  cases one

/-- The first character is the same in front of more. -/
theorem append_ne_cons {start : List Char} {c : Char} (tail : List Char) (nonempty : start ≠ [])
    (other : ∀ rest, start ≠ c :: rest) (rest : List Char) : start ++ tail ≠ c :: rest := by
  cases start with
  | nil => exact absurd rfl nonempty
  | cons d start =>
    intro same
    exact other start (by rw [(List.cons.inj same).1])

/-! ## Keys -/

theorem exists_cons_of_takeWhile {p : Char → Bool} {cs : List Char}
    (found : cs.takeWhile p ≠ []) : ∃ c rest, cs = c :: rest ∧ p c = true := by
  cases cs with
  | nil => exact absurd rfl found
  | cons c rest =>
    refine ⟨c, rest, rfl, ?_⟩
    rw [List.takeWhile_cons] at found
    split at found
    · assumption
    · exact absurd rfl found

theorem keyPart_keeps (t : List Char) : Keeps ('\n' :: t) keyPart := by
  intro cs rest key read
  unfold keyPart at read ⊢
  cases quote : quoted false cs with
  | some found =>
    rw [quote] at read
    cases read
    rw [quoted_keeps false t quote]
  | none =>
    rw [quote] at read
    dsimp only at read
    split at read
    · cases read
    · next bare =>
      cases read
      obtain ⟨c, rest, rfl, first⟩ := exists_cons_of_takeWhile bare
      have noQuote : ¬ (c = '"' ∨ c = literalQuote) := by
        rintro (rfl | rfl) <;> exact absurd first (by decide)
      have unquoted : quoted false (c :: rest ++ '\n' :: t) = none := quoted_none noQuote
      rw [unquoted]
      dsimp only
      rw [takeWhile_line rfl, dropWhile_line rfl, if_neg bare]

theorem Path.line {parts : Nat} {cs rest : List Char} {keys : List Key} (t : List Char)
    (path : Path parts cs keys rest) :
    Path parts (cs ++ '\n' :: t) keys (rest ++ '\n' :: t) := by
  induction path with
  | @last parts cs behind key part final =>
    rw [← skipSpaces_line]
    refine .last ?_ ?_
    · rw [skipSpaces_line]
      exact keyPart_keeps t part
    · intro next
      rw [skipSpaces_line]
      by_cases ended : skipSpaces behind = []
      · rw [ended]
        exact fun same => absurd (List.cons.inj same).1 (by decide)
      · exact append_ne_cons _ ended final next
  | @dot parts cs behind next rest key keys part dotted _ ih =>
    have part' : keyPart (skipSpaces (cs ++ '\n' :: t)) = some (key, behind ++ '\n' :: t) := by
      rw [skipSpaces_line]
      exact keyPart_keeps t part
    refine .dot part' ?_ ih
    rw [skipSpaces_line, dotted]
    rfl

theorem keyPath_keeps (parts : Nat) (t : List Char) : Keeps ('\n' :: t) (keyPath parts) :=
  fun read => keyPath_eq_some_iff.mpr ((keyPath_eq_some_iff.mp read).line t)

theorem keyPath_nil (parts : Nat) : keyPath parts [] = none := by
  cases parts <;> rfl

/-! ## Values -/

theorem scalarRun_line (cs t : List Char) :
    scalarRun (cs ++ '\n' :: t) = ((scalarRun cs).1, (scalarRun cs).2 ++ '\n' :: t) := by
  unfold scalarRun
  rw [takeWhile_line rfl, dropWhile_line rfl]
  generalize List.takeWhile isScalarChar cs = first
  generalize List.dropWhile isScalarChar cs = rest
  dsimp only
  rcases dated : date first with _ | ⟨day, _ | ⟨d, more⟩⟩
  · rfl
  · rcases rest with _ | ⟨c, _ | ⟨c', rest⟩⟩
    · rfl
    · by_cases space : c = ' '
      · subst space
        rfl
      · rw [List.singleton_append]
        split
        · next same => exact absurd (List.cons.inj same).1 space
        · split
          · next same => cases same
          · rfl
    · by_cases space : c = ' '
      · subst space
        have run : (c' :: (rest ++ '\n' :: t)).takeWhile isScalarChar =
            (c' :: rest).takeWhile isScalarChar :=
          takeWhile_line rfl (c' :: rest) t
        have behind : (c' :: (rest ++ '\n' :: t)).dropWhile isScalarChar =
            (c' :: rest).dropWhile isScalarChar ++ '\n' :: t :=
          dropWhile_line rfl (c' :: rest) t
        simp only [List.cons_append, run, behind]
        split <;> rfl
      · rw [List.cons_append]
        split
        · next same => exact absurd (List.cons.inj same).1 space
        · split
          · next same => exact absurd (List.cons.inj same).1 space
          · rfl
  · rfl

theorem scalar_keeps (t : List Char) : Keeps ('\n' :: t) scalar := by
  intro cs rest node read
  unfold scalar at read ⊢
  obtain ⟨found, spelled, same⟩ := Option.map_eq_some_iff.mp read
  cases same
  rw [scalarRun_line, spelled]
  rfl

section Brackets

variable {v : List Char → Option (Node × List Char)} {t : List Char}

theorem Elements.line {fuel fuel' : Nat} {cs rest : List Char} {nodes : List Node}
    (keeps : Keeps ('\n' :: t) v) (nothing : v [] = none)
    (elements : Elements v fuel cs nodes rest) (enough : fuel ≤ fuel') :
    Elements v fuel' (cs ++ '\n' :: t) nodes (rest ++ '\n' :: t) := by
  induction elements generalizing fuel' with
  | close blank =>
    obtain ⟨more, rfl⟩ := Nat.exists_eq_add_of_lt enough
    exact .close (skipBlank_append _ blank (List.cons_ne_nil _ _))
  | last blank other one closed =>
    obtain ⟨more, rfl⟩ := Nat.exists_eq_add_of_lt enough
    have start := ne_nil_of_read nothing one
    exact .last (skipBlank_append _ blank start) (append_ne_cons _ start other) (keeps one)
      (skipBlank_append _ closed (List.cons_ne_nil _ _))
  | more blank other one comma _ ih =>
    obtain ⟨more, rfl⟩ := Nat.exists_eq_add_of_lt enough
    have start := ne_nil_of_read nothing one
    exact .more (skipBlank_append _ blank start) (append_ne_cons _ start other) (keeps one)
      (skipBlank_append _ comma (List.cons_ne_nil _ _)) (ih (Nat.le_add_right _ _))

theorem Fields.line {fuel fuel' : Nat} {entries all : Entries} {cs rest : List Char}
    (keeps : Keeps ('\n' :: t) v) (nothing : v [] = none)
    (fields : Fields v fuel entries cs all rest) (enough : fuel ≤ fuel') :
    Fields v fuel' entries (cs ++ '\n' :: t) all (rest ++ '\n' :: t) := by
  induction fields generalizing fuel' with
  | close blank =>
    obtain ⟨more, rfl⟩ := Nat.exists_eq_add_of_lt enough
    exact .close (skipBlank_append _ blank (List.cons_ne_nil _ _))
  | last blank other key mark spaced one added closed =>
    obtain ⟨more, rfl⟩ := Nat.exists_eq_add_of_lt enough
    have start := ne_nil_of_read (keyPath_nil _) key
    exact .last (skipBlank_append _ blank start) (append_ne_cons _ start other)
      (keyPath_keeps _ t key) (skipBlank_append _ mark (List.cons_ne_nil _ _))
      (skipBlank_append _ spaced (ne_nil_of_read nothing one)) (keeps one) added
      (skipBlank_append _ closed (List.cons_ne_nil _ _))
  | more blank other key mark spaced one added comma _ ih =>
    obtain ⟨more, rfl⟩ := Nat.exists_eq_add_of_lt enough
    have start := ne_nil_of_read (keyPath_nil _) key
    exact .more (skipBlank_append _ blank start) (append_ne_cons _ start other)
      (keyPath_keeps _ t key) (skipBlank_append _ mark (List.cons_ne_nil _ _))
      (skipBlank_append _ spaced (ne_nil_of_read nothing one)) (keeps one) added
      (skipBlank_append _ comma (List.cons_ne_nil _ _)) (ih (Nat.le_add_right _ _))

end Brackets

theorem value_flat_line {depth : Nat} {c : Char} {cs rest : List Char} {node : Node}
    (t : List Char) (noArray : c ≠ '[') (noTable : c ≠ '\x7b')
    (read : value depth (c :: cs) = some (node, rest)) :
    value depth (c :: cs ++ '\n' :: t) = some (node, rest ++ '\n' :: t) := by
  rw [List.cons_append]
  by_cases quoting : c = '"' ∨ c = literalQuote
  · rw [value_quoted _ quoting] at read ⊢
    obtain ⟨⟨text, behind⟩, found, same⟩ := Option.map_eq_some_iff.mp read
    cases same
    have found' := quoted_keeps true t found
    rw [List.cons_append] at found'
    rw [found']
    rfl
  · obtain ⟨noQuote, noLiteral⟩ := not_or.mp quoting
    rw [value_other _ noArray noTable noQuote noLiteral] at read ⊢
    exact scalar_keeps t read

/-- By induction on the depth, because what stands in brackets is read with less of it. -/
theorem value_keeps (depth : Nat) (t : List Char) : Keeps ('\n' :: t) (value depth) := by
  induction depth with
  | zero =>
    intro cs rest node read
    obtain ⟨c, cs, rfl⟩ := List.exists_cons_of_ne_nil (ne_nil_of_read (value_nil 0) read)
    by_cases array : c = '['
    · subst array
      cases read
    by_cases table : c = '\x7b'
    · subst table
      cases read
    exact value_flat_line t array table read
  | succ depth ih =>
    intro cs rest node read
    obtain ⟨c, cs, rfl⟩ := List.exists_cons_of_ne_nil (ne_nil_of_read (value_nil _) read)
    have longer : cs.length + 1 ≤ (cs ++ '\n' :: t).length + 1 := by
      rw [List.length_append]
      omega
    by_cases array : c = '['
    · subst array
      rw [value_bracket] at read
      obtain ⟨⟨nodes, behind⟩, found, same⟩ := Option.map_eq_some_iff.mp read
      cases same
      have elements := (arrayElements_eq_some_iff.mp found).line ih (value_nil depth) longer
      rw [List.cons_append, value_bracket, arrayElements_eq_some_iff.mpr elements]
      rfl
    by_cases table : c = '\x7b'
    · subst table
      rw [value_brace] at read
      obtain ⟨⟨entries, behind⟩, found, same⟩ := Option.map_eq_some_iff.mp read
      cases same
      have fields := (inlineEntries_eq_some_iff.mp found).line ih (value_nil depth) longer
      rw [List.cons_append, value_brace, inlineEntries_eq_some_iff.mpr fields]
      rfl
    exact value_flat_line t array table read

/-! ## Lines -/

theorem Line.line {cs rest : List Char} {st : Statement} (t : List Char) (line : Line cs st rest) :
    Line (cs ++ '\n' :: t) st (rest ++ '\n' :: t) := by
  cases line with
  | element key => exact .element (keyPath_keeps _ t key)
  | header single key =>
    have start := ne_nil_of_read (keyPath_nil _) key
    exact .header (append_ne_cons _ start single) (keyPath_keeps _ t key)
  | @assignment cs marked rest path node plain key read =>
    have start := ne_nil_of_read (keyPath_nil _) key
    have read' : value maxDepth (skipSpaces (marked ++ '\n' :: t)) =
        some (node, rest ++ '\n' :: t) := by
      rw [skipSpaces_line]
      exact value_keeps _ t read
    exact .assignment (append_ne_cons _ start plain) (keyPath_keeps _ t key) read'

/-- What follows a comment, if there is one. -/
def dropComment : List Char → List Char
  | '#' :: rest => rest.dropWhile isPlain
  | cs => cs

/-- What follows the end of a line at the front. -/
def dropLineEnd : List Char → Option (List Char)
  | [] => some []
  | '\n' :: rest => some rest
  | '\r' :: '\n' :: rest => some rest
  | _ => none

theorem endOfLine_eq (cs : List Char) : endOfLine cs = dropLineEnd (dropComment (skipSpaces cs)) :=
  rfl

theorem dropComment_line (cs t : List Char) :
    dropComment (cs ++ '\n' :: t) = dropComment cs ++ '\n' :: t := by
  rcases cs with _ | ⟨c, cs⟩
  · rfl
  by_cases comment : c = '#'
  · subst comment
    exact dropWhile_line rfl cs t
  · have none' (more : List Char) : dropComment (c :: more) = c :: more :=
      dropComment.eq_2 _ fun rest same => comment (List.cons.inj same).1
    rw [List.cons_append, none', none', List.cons_append]

/-- The end of a line is found in front of a further line too; at the end of the text it is the one
that comes with that line. -/
theorem endOfLine_line {cs rest : List Char} (t : List Char) (ended : endOfLine cs = some rest) :
    endOfLine (cs ++ '\n' :: t) = some (rest ++ '\n' :: t) ∨
      rest = [] ∧ endOfLine (cs ++ '\n' :: t) = some t := by
  rw [endOfLine_eq] at ended ⊢
  rw [skipSpaces_line, dropComment_line]
  generalize dropComment (skipSpaces cs) = behind at ended ⊢
  unfold dropLineEnd at ended
  split at ended
  · cases ended
    exact .inr ⟨rfl, rfl⟩
  · cases ended
    exact .inl rfl
  · cases ended
    exact .inl rfl
  · cases ended

theorem Reads.congr {cs cs' : List Char} {sts : List Statement}
    (same : skipBlank cs' = skipBlank cs) (reads : Reads cs sts) : Reads cs' sts := by
  cases reads with
  | nil blank => exact .nil (same.trans blank)
  | cons blank line ended more => exact .cons (same.trans blank) line ended more

theorem Reads.eq_nil {sts : List Statement} (reads : Reads [] sts) : sts = [] := by
  cases reads with
  | nil _ => rfl
  | cons blank _ _ _ => cases blank

/-- The first line decides the first statement, and where the others begin. -/
theorem reads_iff_of_line {cs start rest next : List Char} {c : Char} {first : Statement}
    {sts : List Statement} (blank : skipBlank cs = some (c :: start))
    (line : statement (c :: start) = some (first, rest)) (ended : endOfLine rest = some next) :
    Reads cs sts ↔ ∃ more, sts = first :: more ∧ Reads next more := by
  constructor
  · intro reads
    cases reads with
    | nil blank' =>
      rw [blank] at blank'
      cases blank'
    | cons blank' line' ended' others =>
      rw [blank] at blank'
      cases blank'
      rw [line] at line'
      cases line'
      rw [ended] at ended'
      cases ended'
      exact ⟨_, rfl, others⟩
  · rintro ⟨more, rfl, others⟩
    exact .cons blank line ended others

/-- Behind a document, on a line of its own, further text is read as its statements, and only as
these. -/
theorem Reads.append_iff {cs t : List Char} {sts all : List Statement} (reads : Reads cs sts) :
    Reads (cs ++ '\n' :: t) all ↔ ∃ more, all = sts ++ more ∧ Reads t more := by
  induction reads generalizing all with
  | nil blank =>
    have same : skipBlank (_ ++ '\n' :: t) = skipBlank t := skipBlankFrom_line t blank
    constructor
    · intro reads
      exact ⟨all, rfl, reads.congr same.symm⟩
    · rintro ⟨more, rfl, reads⟩
      exact reads.congr same
  | @cons cs start rest next c first sts blank line ended others ih =>
    have blank' : skipBlank (cs ++ '\n' :: t) = some (c :: (start ++ '\n' :: t)) :=
      skipBlank_append _ blank (List.cons_ne_nil _ _)
    have line' : statement (c :: (start ++ '\n' :: t)) = some (first, rest ++ '\n' :: t) :=
      statement_eq_some_iff.mpr ((statement_eq_some_iff.mp line).line t)
    rcases endOfLine_line t ended with ended' | ⟨rfl, ended'⟩
    · rw [reads_iff_of_line blank' line' ended']
      constructor
      · rintro ⟨behind, rfl, both⟩
        obtain ⟨more, rfl, reads⟩ := ih.mp both
        exact ⟨more, rfl, reads⟩
      · rintro ⟨more, rfl, reads⟩
        exact ⟨sts ++ more, rfl, ih.mpr ⟨more, rfl, reads⟩⟩
    · rw [reads_iff_of_line blank' line' ended', others.eq_nil]
      exact Iff.rfl

theorem dropByteOrderMark_line (cs t : List Char) :
    dropByteOrderMark (cs ++ '\n' :: t) = dropByteOrderMark cs ++ '\n' :: t := by
  cases cs with
  | nil => rfl
  | cons c cs =>
    rw [List.cons_append, dropByteOrderMark, dropByteOrderMark]
    split <;> rfl

/-- A document with more statements behind it. -/
theorem statements_append {cs t : List Char} {sts sts' : List Statement}
    (read : statements cs = some sts) (reads' : Reads t sts') (short : sts'.length ≤ t.length) :
    statements (cs ++ '\n' :: t) = some (sts ++ sts') := by
  rw [statements_eq_some_iff] at read ⊢
  rw [dropByteOrderMark_line]
  refine ⟨read.1.append_iff.mpr ⟨sts', rfl, reads'⟩, ?_⟩
  have many := read.2
  rw [List.length_append, List.length_append, List.length_cons]
  omega

/-- The statements of a document come first, whatever stands behind it. -/
theorem exists_of_statements_append {cs t : List Char} {sts all : List Statement}
    (read : statements cs = some sts) (read' : statements (cs ++ '\n' :: t) = some all) :
    ∃ more, all = sts ++ more ∧ Reads t more := by
  rw [statements_eq_some_iff] at read read'
  rw [dropByteOrderMark_line] at read'
  exact read.1.append_iff.mp read'.1

end BuildLauncher.Toml
