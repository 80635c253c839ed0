/-!
# UTF-8

Byte strings and the texts they spell.  `encode` writes characters as bytes.  `pieces` cuts any byte
string into the characters it spells and the broken places between them, one broken place for each
longest run of bytes that begins a character and is then cut off.  `decode?` refuses a byte string
with a broken place; `lossy` puts U+FFFD there.
-/

namespace BuildLauncher

/-- A byte string, as the operating system passes it: a path, an argument, a variable, a file's
content. -/
abbrev Bytes := List UInt8

namespace Utf8

/-- The bytes that spell a sequence of characters. -/
def encode (cs : List Char) : Bytes := cs.flatMap String.utf8EncodeChar

/-- The bytes of a text. -/
def ofString (s : String) : Bytes := encode s.toList

/-! ## Decoding -/

/-- A character that has begun: the range its next byte must lie in, how many bytes follow that
one, and the bits read so far. -/
structure Pending where
  low : UInt8 := 0x80
  high : UInt8 := 0xBF
  further : Nat
  value : Nat

/-- What a byte begins when no character is pending: a whole character, a longer one, or nothing. -/
inductive Start where
  | whole (c : Char)
  | longer (p : Pending)
  | broken

/-- The lead bytes.  The narrowed ranges after E0, ED, F0 and F4 rule out overlong spellings,
surrogates and values past U+10FFFF. -/
def Start.ofByte (b : UInt8) : Start :=
  let n := b.toNat
  if n < 0x80 then .whole (Char.ofNat n)
  else if n < 0xC2 then .broken
  else if n < 0xE0 then .longer { further := 0, value := n - 0xC0 }
  else if n = 0xE0 then .longer { low := 0xA0, further := 1, value := 0 }
  else if n = 0xED then .longer { high := 0x9F, further := 1, value := 0xD }
  else if n < 0xF0 then .longer { further := 1, value := n - 0xE0 }
  else if n = 0xF0 then .longer { low := 0x90, further := 2, value := 0 }
  else if n < 0xF4 then .longer { further := 2, value := n - 0xF0 }
  else if n = 0xF4 then .longer { high := 0x8F, further := 2, value := 4 }
  else .broken

/-- The characters that a byte string spells, `none` standing for each broken place.  A byte that
cannot continue the pending character breaks it off and is then read afresh. -/
def piecesFrom : Option Pending → Bytes → List (Option Char)
  | none, [] => []
  | some _, [] => [none]
  | pending, b :: rest =>
    match pending with
    | some p =>
      if p.low ≤ b ∧ b ≤ p.high then
        let value := p.value * 64 + (b.toNat - 0x80)
        match p.further with
        | 0 => some (Char.ofNat value) :: piecesFrom none rest
        | k + 1 => piecesFrom (some { further := k, value }) rest
      else
        match Start.ofByte b with
        | .whole c => none :: some c :: piecesFrom none rest
        | .longer q => none :: piecesFrom (some q) rest
        | .broken => none :: none :: piecesFrom none rest
    | none =>
      match Start.ofByte b with
      | .whole c => some c :: piecesFrom none rest
      | .longer q => piecesFrom (some q) rest
      | .broken => none :: piecesFrom none rest

/-- The characters and broken places of a whole byte string. -/
def pieces (bs : Bytes) : List (Option Char) := piecesFrom none bs

/-- The character written where bytes are broken. -/
def replacement : Char := '\uFFFD'

/-- The characters of a byte string, with the replacement character at each broken place. -/
def lossyChars (bs : Bytes) : List Char := (pieces bs).map (·.getD replacement)

/-- The characters of a byte string that is valid UTF-8. -/
def decodeChars? (bs : Bytes) : Option (List Char) := (pieces bs).mapM id

/-- The text of a byte string, with the replacement character at each broken place. -/
def lossy (bs : Bytes) : String := String.ofList (lossyChars bs)

/-- The text of a byte string that is valid UTF-8. -/
def decode? (bs : Bytes) : Option String := (decodeChars? bs).map String.ofList

end Utf8

end BuildLauncher
