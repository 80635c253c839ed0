/-!
# Similar words

The Jaro similarity of two words, as an exact fraction.  Two characters match when they are equal
and stand less far apart than half the longer word; each character is matched at most once, from the
left.
-/

namespace BuildLauncher.Text

/-- The place of the first character that is still free, equal to the given one, and at a place from
`low` up to but without `high`; `here` is the place of the head of the list. -/
def firstMatch (c : Char) (free : Nat → Bool) (low high : Nat) : Nat → List Char → Option Nat
  | _, [] => none
  | here, d :: rest =>
    if high ≤ here then none
    else if low ≤ here ∧ c = d ∧ free here = true then some here
    else firstMatch c free low high (here + 1) rest

/-- The matches of a word with another, as pairs of a character of the first and the place that it
took in the second; `here` is the place of the head of the first word. -/
def matchesFrom (other : List Char) (reach : Nat) (taken : List Nat) :
    Nat → List Char → List (Char × Nat)
  | _, [] => []
  | here, c :: rest =>
    match firstMatch c (fun place => !taken.contains place) (here - reach) (here + reach + 1) 0
        other with
    | none => matchesFrom other reach taken (here + 1) rest
    | some place => (c, place) :: matchesFrom other reach (place :: taken) (here + 1) rest

/-- How similar two words are, as numerator and denominator: the mean of the matched share of
either word and of the share of matches that are in order. -/
def similarity (a b : List Char) : Nat × Nat :=
  let reach := max a.length b.length / 2 - 1
  let found := matchesFrom b reach [] 0 a
  let places := found.map (·.2)
  let matched := b.zipIdx.filterMap fun (c, place) => if places.contains place then some c else none
  let m := found.length
  let swapped := ((found.map (·.1)).zip matched).countP fun (c, d) => c != d
  if m = 0 then (0, 1)
  else
    (m * m * b.length + m * m * a.length + (m - swapped / 2) * a.length * b.length,
      3 * m * a.length * b.length)

/-- Whether two words are similar enough for one to be suggested in place of the other: at least
seven tenths. -/
def isSimilar (a b : List Char) : Bool :=
  7 * (similarity a b).2 ≤ 10 * (similarity a b).1

/-- The candidate that is most similar to a word, among those that are similar enough; of equally
similar ones the last. -/
def mostSimilar {α : Type} (word : List Char) (name : α → List Char) (candidates : List α) :
    Option α :=
  (candidates.filter fun a => isSimilar word (name a)).foldl
    (fun best a =>
      match best with
      | none => some a
      | some b =>
        let (n, d) := similarity word (name b)
        let (n', d') := similarity word (name a)
        if n * d' ≤ n' * d then some a else some b)
    none

end BuildLauncher.Text
