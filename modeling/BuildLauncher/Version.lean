import BuildLauncher.Text.Characters

/-!
# Semantic versions

Three numbers, the identifiers of a pre-release and the labels of build metadata, with the text they
are written as and the order they are in.
-/

namespace BuildLauncher

namespace Version

/-- A character of an identifier: an ASCII letter or digit, or a hyphen. -/
def isIdentifierChar (c : Char) : Bool := c.isAlphanum || c == '-'

/-- An identifier of a pre-release: a number, or a word that is not all digits. -/
inductive Identifier where
  | number (n : Nat)
  | word (chars : List Char)
      (valid : chars.all isIdentifierChar = true ∧ chars.all Char.isDigit = false)
  deriving DecidableEq

/-- A label of build metadata.  Digits with leading zeros are a label too. -/
structure Label where
  chars : List Char
  valid : chars.all isIdentifierChar = true ∧ chars ≠ []
  deriving DecidableEq

/-- The characters that an identifier is written as. -/
def Identifier.chars : Identifier → List Char
  | .number n => Nat.toDigits 10 n
  | .word chars _ => chars

end Version

/-- A semantic version.  The three numbers are 64-bit words. -/
structure Version where
  major : UInt64
  minor : UInt64
  patch : UInt64
  pre : List Version.Identifier := []
  build : List Version.Label := []
  deriving DecidableEq

namespace Version

/-- The version `major.minor.patch` itself, without pre-release and metadata. -/
def release (v : Version) : Version := { v with pre := [], build := [] }

/-- The pre-release as written, without its hyphen. -/
def preChars (v : Version) : List Char := ['.'].intercalate (v.pre.map Identifier.chars)

/-- The build metadata as written, without its plus sign. -/
def buildChars (v : Version) : List Char := ['.'].intercalate (v.build.map Label.chars)

/-- The numbers with dots between them. -/
def coreChars (v : Version) : List Char :=
  Nat.toDigits 10 v.major.toNat ++ '.' :: Nat.toDigits 10 v.minor.toNat ++
    '.' :: Nat.toDigits 10 v.patch.toNat

/-- The characters that a version is written as. -/
def chars (v : Version) : List Char :=
  v.coreChars ++ (if v.pre = [] then [] else '-' :: v.preChars) ++
    (if v.build = [] then [] else '+' :: v.buildChars)

instance : ToString Version := ⟨fun v => String.ofList v.chars⟩

/-! ## The order of versions

The numbers decide first, then the pre-releases, and build metadata last. -/

/-- Numbers come before words.  Numbers go by their value, words by their characters. -/
def Identifier.compare : Identifier → Identifier → Ordering
  | .number n, .number m => Ord.compare n m
  | .number _, .word .. => .lt
  | .word .., .number _ => .gt
  | .word first _, .word second _ => Ord.compare first second

instance : Ord Identifier := ⟨Identifier.compare⟩

/-- Labels of digits come before the others.  They go by their value, and of one value the shorter
comes first; the others go by their characters. -/
def Label.compare (first second : Label) : Ordering :=
  match first.chars.all Char.isDigit, second.chars.all Char.isDigit with
  | true, true =>
    (Ord.compare (Nat.ofDigitChars 10 first.chars 0) (Nat.ofDigitChars 10 second.chars 0)).then
      (Ord.compare first.chars.length second.chars.length)
  | true, false => .lt
  | false, true => .gt
  | false, false => Ord.compare first.chars second.chars

instance : Ord Label := ⟨Label.compare⟩

/-- A version without pre-release comes after its pre-releases. -/
def comparePre : List Identifier → List Identifier → Ordering
  | [], [] => .eq
  | [], _ :: _ => .gt
  | _ :: _, [] => .lt
  | first, second => Ord.compare first second

/-- The three numbers in their order. -/
def numbers (v : Version) : List UInt64 := [v.major, v.minor, v.patch]

instance : Ord Version where
  compare v w :=
    (compare v.numbers w.numbers).then ((comparePre v.pre w.pre).then (compare v.build w.build))

instance : LT Version := ltOfOrd

instance : LE Version := leOfOrd

instance (v w : Version) : Decidable (v < w) :=
  inferInstanceAs (Decidable (compare v w = .lt))

end Version

end BuildLauncher
