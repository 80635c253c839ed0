import BuildLauncher.Proofs.Toml.Quoted
import BuildLauncher.Proofs.Toml.Value

/-!
# Spellings of a text

A text can be written in quotes in many ways, since every character can be escaped.  `Spelling` says
which they are, and every one of them is read back as the text.

* `Toml.exists_spelling`: every text has one.
* `Toml.basicFrom_of_spelling`: basic text, with any choice of escapes.
* `Toml.quoted_of_spelling`, `Toml.value_of_spelling`: a quoted text as part of a key or as a value.
-/

namespace BuildLauncher.Toml

/-! ## Ways to write a text -/

/-- A character that quotes hold as it stands, the quote itself apart. -/
def IsRaw (c : Char) : Prop := c = '\t' ∨ 0x20 ≤ c.toNat ∧ c.toNat ≠ 0x7F

/-- The letters of the short escapes, with the characters they stand for. -/
def shortEscapes : List (Char × Char) :=
  [('b', '\x08'), ('t', '\t'), ('n', '\n'), ('f', '\x0c'), ('r', '\r'), ('e', '\x1b'), ('"', '"'),
    ('\\', '\\')]

/-- The letters of the escapes by number, with the number of digits they take. -/
def numberEscapes : List (Char × Nat) := [('x', 2), ('u', 4), ('U', 8)]

/-- The ways to write a character in a basic text. -/
inductive CharSpelling (c : Char) : List Char → Prop
  | raw : IsRaw c → c ≠ '"' → c ≠ '\\' → CharSpelling c [c]
  | short {letter : Char} : (letter, c) ∈ shortEscapes → CharSpelling c ['\\', letter]
  | number {letter : Char} {digits : List Char} :
    (letter, digits.length) ∈ numberEscapes → (∀ d ∈ digits, isDigitOf 16 d = true) →
    valueOf 16 digits = c.toNat → CharSpelling c ('\\' :: letter :: digits)

/-- The ways to write a text between the quotes of a basic text. -/
inductive BasicSpelling : List Char → List Char → Prop
  | nil : BasicSpelling [] []
  | cons {c : Char} {s w ws : List Char} :
    CharSpelling c w → BasicSpelling s ws → BasicSpelling (c :: s) (w ++ ws)

/-- The ways to write a text in quotes on one line. -/
inductive Spelling (s : List Char) : List Char → Prop
  | basic {ws : List Char} : BasicSpelling s ws → Spelling s ('"' :: (ws ++ ['"']))
  | literal : (∀ c ∈ s, IsRaw c ∧ c ≠ literalQuote) →
    Spelling s (literalQuote :: (s ++ [literalQuote]))

/-! ## Characters -/

theorem isPlain_of_isRaw {c : Char} (raw : IsRaw c) : isPlain c = true := by
  unfold isPlain
  rcases raw with rfl | ⟨low, other⟩
  · rfl
  · simp [low, other]

theorem ofChar?_of_mem_shortEscapes {letter c : Char} (mem : (letter, c) ∈ shortEscapes) :
    Escape.ofChar? letter = some (.char c) := by
  unfold shortEscapes at mem
  simp only [List.mem_cons, Prod.mk.injEq, List.not_mem_nil, or_false] at mem
  rcases mem with ⟨rfl, rfl⟩ | ⟨rfl, rfl⟩ | ⟨rfl, rfl⟩ | ⟨rfl, rfl⟩ | ⟨rfl, rfl⟩ | ⟨rfl, rfl⟩ |
    ⟨rfl, rfl⟩ | ⟨rfl, rfl⟩ <;> rfl

theorem exists_of_mem_numberEscapes {letter : Char} {width : Nat}
    (mem : (letter, width) ∈ numberEscapes) :
    ∃ further, width = further + 1 ∧ Escape.ofChar? letter = some (.hex further) := by
  unfold numberEscapes at mem
  simp only [List.mem_cons, Prod.mk.injEq, List.not_mem_nil, or_false] at mem
  rcases mem with ⟨rfl, rfl⟩ | ⟨rfl, rfl⟩ | ⟨rfl, rfl⟩
  · exact ⟨1, rfl, rfl⟩
  · exact ⟨3, rfl, rfl⟩
  · exact ⟨7, rfl, rfl⟩

theorem char_le_iff {a b : Char} : a ≤ b ↔ a.toNat ≤ b.toNat := UInt32.le_iff_toNat_le

theorem isDigit_iff {c : Char} : c.isDigit = true ↔ 48 ≤ c.toNat ∧ c.toNat ≤ 57 := by
  unfold Char.isDigit
  rw [Bool.and_eq_true, decide_eq_true_iff, decide_eq_true_iff]
  exact and_congr UInt32.le_iff_toNat_le UInt32.le_iff_toNat_le

/-- The digits of escapes are those of numbers in base sixteen. -/
theorem hexValue?_of_isDigitOf {d : Char} (hex : isDigitOf 16 d = true) :
    hexValue? d = some (digitValue d) := by
  unfold isDigitOf at hex
  simp only [Bool.and_eq_true, Bool.or_eq_true, decide_eq_true_eq, isDigit_iff, char_le_iff,
    Char.reduceToNat] at hex
  unfold hexValue? digitValue
  simp only [isDigit_iff, char_le_iff, Char.reduceToNat]
  rcases hex with ⟨(digit | lower) | upper, -⟩
  · rw [if_pos digit, if_pos digit]
  · rw [if_neg (by omega), if_pos lower, if_neg (by omega), if_pos lower.1]
  · rw [if_neg (by omega), if_neg (by omega), if_pos upper, if_neg (by omega), if_neg (by omega)]

theorem charOfNat?_toNat (c : Char) : charOfNat? c.toNat = some c := by
  unfold charOfNat?
  rw [Char.ofNat_toNat]
  exact if_pos c.valid

/-! ## Every text has a spelling -/

/-- The last digits of a number in base sixteen, so many of them. -/
def hexDigits : Nat → Nat → List Char
  | 0, _ => []
  | width + 1, n => hexDigits width (n / 16) ++ [Nat.digitChar (n % 16)]

theorem length_hexDigits (width n : Nat) : (hexDigits width n).length = width := by
  induction width generalizing n with
  | zero => rfl
  | succ width ih => rw [hexDigits, List.length_append, ih, List.length_singleton]

theorem digitChar_lt_sixteen :
    ∀ n < 16, isDigitOf 16 (Nat.digitChar n) = true ∧ digitValue (Nat.digitChar n) = n := by
  decide

theorem isDigitOf_of_mem_hexDigits {width n : Nat} :
    ∀ d ∈ hexDigits width n, isDigitOf 16 d = true := by
  induction width generalizing n with
  | zero => exact nofun
  | succ width ih =>
    intro d mem
    rcases List.mem_append.mp mem with mem | mem
    · exact ih d mem
    · rw [List.mem_singleton.mp mem]
      exact (digitChar_lt_sixteen _ (Nat.mod_lt n (by decide))).1

theorem valueOf_hexDigits {width n : Nat} (fits : n < Nat.pow 16 width) :
    valueOf 16 (hexDigits width n) = n := by
  induction width generalizing n with
  | zero =>
    rw [Nat.lt_one_iff.mp fits]
    rfl
  | succ width ih =>
    have front : valueOf 16 (hexDigits width (n / 16)) = n / 16 := by
      apply ih
      change n < Nat.pow 16 width * 16 at fits
      omega
    unfold valueOf at front ⊢
    rw [hexDigits, List.foldl_append, front]
    change n / 16 * 16 + digitValue (Nat.digitChar (n % 16)) = n
    rw [(digitChar_lt_sixteen _ (Nat.mod_lt n (by decide))).2]
    omega

/-- Every character can be written by its number. -/
theorem exists_charSpelling (c : Char) : ∃ w, CharSpelling c w := by
  have fits : c.toNat < Nat.pow 16 8 := by
    have valid : c.toNat < 0xD800 ∨ 0xDFFF < c.toNat ∧ c.toNat < 0x110000 := c.valid
    have limit : Nat.pow 16 8 = 0x100000000 := rfl
    omega
  refine ⟨'\\' :: 'U' :: hexDigits 8 c.toNat, .number ?_ isDigitOf_of_mem_hexDigits
    (valueOf_hexDigits fits)⟩
  rw [length_hexDigits]
  decide

theorem exists_spelling (s : List Char) : ∃ w, Spelling s w := by
  have basic : ∃ ws, BasicSpelling s ws := by
    induction s with
    | nil => exact ⟨[], .nil⟩
    | cons c s ih =>
      obtain ⟨w, spelled⟩ := exists_charSpelling c
      obtain ⟨ws, rest⟩ := ih
      exact ⟨w ++ ws, .cons spelled rest⟩
  obtain ⟨ws, spelled⟩ := basic
  exact ⟨_, .basic spelled⟩

/-! ## Basic text -/

/-- The digits of a number are read from the left onto the number so far. -/
theorem basicFrom_digits {digits rest : List Char} {further value : Nat} {c : Char}
    (width : digits.length = further + 1) (hex : ∀ d ∈ digits, isDigitOf 16 d = true)
    (number : digits.foldl (fun n d => n * 16 + digitValue d) value = c.toNat) :
    basicFrom (.digits further value) (digits ++ rest) =
      (basicFrom .between rest).map (pushFront c) := by
  induction digits generalizing further value with
  | nil => cases width
  | cons d digits ih =>
    rw [List.cons_append, basicFrom, hexValue?_of_isDigitOf (hex d List.mem_cons_self)]
    cases further with
    | zero =>
      obtain rfl : digits = [] := List.length_eq_zero_iff.mp (Nat.succ.inj width)
      change value * 16 + digitValue d = c.toNat at number
      dsimp only
      rw [number, charOfNat?_toNat, List.nil_append]
    | succ k =>
      exact ih (Nat.succ.inj width) (fun d' mem => hex d' (List.mem_cons_of_mem _ mem)) number

theorem basicFrom_of_charSpelling {c : Char} {w rest : List Char} (spelled : CharSpelling c w) :
    basicFrom .between (w ++ rest) = (basicFrom .between rest).map (pushFront c) := by
  cases spelled with
  | raw raw noQuote noEscape =>
    rw [List.singleton_append, basicFrom, if_neg noQuote, if_neg noEscape,
      if_pos (isPlain_of_isRaw raw)]
  | @short letter short =>
    change basicFrom .escape (letter :: rest) = _
    rw [basicFrom, ofChar?_of_mem_shortEscapes short]
  | @number letter digits escape hex number =>
    obtain ⟨further, width, announced⟩ := exists_of_mem_numberEscapes escape
    change basicFrom .escape (letter :: (digits ++ rest)) = _
    rw [basicFrom, announced]
    exact basicFrom_digits width hex number

/-- Every spelling of a text is read back as the text, up to the closing quote. -/
theorem basicFrom_of_spelling {s ws rest : List Char} (spelled : BasicSpelling s ws) :
    basicFrom .between (ws ++ '"' :: rest) = some (s, rest) := by
  induction spelled with
  | nil =>
    rw [List.nil_append, basicFrom]
    exact if_pos rfl
  | cons spelled _ ih =>
    rw [List.append_assoc, basicFrom_of_charSpelling spelled, ih]
    rfl

/-- A spelling does not start with the quote that would close it. -/
theorem BasicSpelling.ne_quote {s ws : List Char} (spelled : BasicSpelling s ws)
    (more : List Char) : ws ≠ '"' :: more := by
  intro same
  cases spelled with
  | nil => cases same
  | cons first _ =>
    cases first with
    | raw _ noQuote _ => exact noQuote (List.cons.inj same).1
    | short _ => exact absurd (List.cons.inj same).1 (by decide)
    | number _ _ _ => exact absurd (List.cons.inj same).1 (by decide)

/-! ## Literal text -/

theorem literalFrom_append {s rest : List Char} (raw : ∀ c ∈ s, IsRaw c ∧ c ≠ literalQuote) :
    literalFrom (s ++ literalQuote :: rest) = some (s, rest) := by
  induction s with
  | nil =>
    rw [List.nil_append, literalFrom]
    exact if_pos rfl
  | cons c s ih =>
    have first := raw c List.mem_cons_self
    rw [List.cons_append, literalFrom, if_neg first.2, if_pos (isPlain_of_isRaw first.1),
      ih fun c' mem => raw c' (List.mem_cons_of_mem _ mem)]
    rfl

/-! ## Quoted text -/

/-- What follows a quoted text does not add to its quotes. -/
def Closes (rest : List Char) : Prop := ∀ c ∈ rest.head?, c ≠ '"' ∧ c ≠ literalQuote

theorem quoted_of_spelling {block : Bool} {s w rest : List Char} (spelled : Spelling s w)
    (closes : Closes rest) : quoted block (w ++ rest) = some (s, rest) := by
  cases spelled with
  | @basic ws spelled =>
    rw [List.cons_append, List.append_assoc, List.singleton_append, quoted_line (.inl rfl)]
    · exact basicFrom_of_spelling spelled
    · intro more _ same
      cases ws with
      | nil =>
        obtain rfl : rest = '"' :: more := (List.cons.inj same).2
        exact (closes '"' rfl).1 rfl
      | cons d ws => exact spelled.ne_quote ws (by rw [(List.cons.inj same).1])
  | literal raw =>
    rw [List.cons_append, List.append_assoc, List.singleton_append, quoted_line (.inr rfl)]
    · exact literalFrom_append raw
    · intro more _ same
      cases s with
      | nil =>
        obtain rfl : rest = literalQuote :: more := (List.cons.inj same).2
        exact (closes literalQuote rfl).2 rfl
      | cons c s => exact (raw c List.mem_cons_self).2 (List.cons.inj same).1

/-- A spelling starts with a quote, and so with neither a blank nor a bracket. -/
theorem Spelling.exists_cons {s w : List Char} (spelled : Spelling s w) :
    ∃ quote more, (quote = '"' ∨ quote = literalQuote) ∧ w = quote :: more := by
  cases spelled with
  | basic _ => exact ⟨_, _, .inl rfl, rfl⟩
  | literal _ => exact ⟨_, _, .inr rfl, rfl⟩

theorem Spelling.skipSpaces_append {s w : List Char} (spelled : Spelling s w) (rest : List Char) :
    skipSpaces (w ++ rest) = w ++ rest := by
  obtain ⟨quote, more, rfl | rfl, rfl⟩ := spelled.exists_cons <;> rfl

theorem Spelling.skipBlank_append {s w : List Char} (spelled : Spelling s w) (rest : List Char) :
    skipBlank (w ++ rest) = some (w ++ rest) := by
  obtain ⟨quote, more, rfl | rfl, rfl⟩ := spelled.exists_cons <;> rfl

theorem Spelling.ne_bracket {s w : List Char} (spelled : Spelling s w) (rest next : List Char) :
    w ++ rest ≠ ']' :: next := by
  obtain ⟨quote, more, rfl | rfl, rfl⟩ := spelled.exists_cons <;>
    exact fun same => absurd (List.cons.inj same).1 (by decide)

theorem value_of_spelling {depth : Nat} {s w rest : List Char} (spelled : Spelling s w)
    (closes : Closes rest) : value depth (w ++ rest) = some (.text s, rest) := by
  have read : quoted true (w ++ rest) = some (s, rest) := quoted_of_spelling spelled closes
  obtain ⟨quote, more, quoting, rfl⟩ := spelled.exists_cons
  rw [List.cons_append] at read ⊢
  rw [value_quoted _ quoting, read]
  rfl

end BuildLauncher.Toml
