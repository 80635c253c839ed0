import BuildLauncher.Proofs.Toml.Table
import Mathlib.Data.List.Forall2
import Mathlib.Data.Option.Defs

/-!
# Values that say the same

Two values agree when they say the same, however they are written: a table may be in braces, below a
header or made of dotted keys, its keys in any order, and an array of tables is an array.

* `Toml.Node.Agree.text_iff`, `Toml.Node.Agree.head?`: texts, and first elements of arrays.
-/

namespace BuildLauncher.Toml

/-- The elements of an array, be they between brackets or below headers of their own. -/
def Node.elements? : Node → Option (List Node)
  | .array elements => some elements
  | .tables elements => some (elements.map (.table .header))
  | _ => none

/-- The two values say the same.  Numbers with a decimal point are not compared, because they are
rounded when they are read, and neither are moments: so there is more agreement than equality. -/
inductive Node.Agree : Node → Node → Prop
  | text (chars : List Char) : Agree (.text chars) (.text chars)
  | integer (n : Int) : Agree (.integer n) (.integer n)
  | real (x y : Real) : Agree (.real x) (.real y)
  | boolean (b : Bool) : Agree (.boolean b) (.boolean b)
  | moment (m n : Moment) : Agree (.moment m) (.moment n)
  | array {node node' : Node} {elements elements' : List Node} :
    node.elements? = some elements → node'.elements? = some elements' →
    List.Forall₂ Agree elements elements' → Agree node node'
  | table {origin origin' : Origin} {entries entries' : Entries} :
    (∀ key, Option.Rel Agree (entries.get? key) (entries'.get? key)) →
    Agree (.table origin entries) (.table origin' entries')

namespace Node.Agree

variable {node node' : Node} {elements elements' : List Node}

/-- Of two values that agree, both are the same text or none is one. -/
theorem text_iff (agree : node.Agree node') (chars : List Char) :
    node = .text chars ↔ node' = .text chars := by
  cases agree with
  | text _ => exact Iff.rfl
  | array listed listed' _ =>
    constructor
    · rintro rfl
      cases listed
    · rintro rfl
      cases listed'
  | integer _ => exact ⟨nofun, nofun⟩
  | real _ _ => exact ⟨nofun, nofun⟩
  | boolean _ => exact ⟨nofun, nofun⟩
  | moment _ _ => exact ⟨nofun, nofun⟩
  | table _ => exact ⟨nofun, nofun⟩

/-- The first elements of two arrays that agree. -/
theorem head? (agree : List.Forall₂ Node.Agree elements elements') :
    Option.Rel Node.Agree elements.head? elements'.head? := by
  cases agree with
  | nil => exact .none
  | cons first _ => exact .some first

end Node.Agree

end BuildLauncher.Toml
