import BuildLauncher.Proofs.Text.Span
import BuildLauncher.Text.Utf8

/-!
# Writing and reading UTF-8

Reading undoes writing, and only what writing produces is read without a broken place.

* `Utf8.piecesFrom_encodeChar`: the bytes of a character are read as that character, whatever
  follows.
* `Utf8.exists_of_piecesFrom`: bytes that are read as a character start with the bytes of it.
* `Utf8.decodeChars?_eq_some_iff`, `Utf8.decode?_eq_some_iff`: a byte string is valid exactly when
  it is the spelling of the text that it decodes to.
* `Utf8.eq_encode_of_lossyChars`: a byte string that is read without the replacement character is
  the spelling of what is read.
* `Utf8.lossyChars_between`: texts in front of other bytes and behind them are read as they are,
  whatever the bytes are; `Utf8.lossyChars_append_ascii` is that for one byte of ASCII.
-/

namespace BuildLauncher.Utf8

/-! ## Lead bytes -/

namespace Start

variable {b : UInt8}

theorem ofByte_one (h : b.toNat < 0x80) : ofByte b = .whole (Char.ofNat b.toNat) := by
  unfold ofByte
  exact if_pos h

theorem ofByte_two (h : 0xC2 ≤ b.toNat) (h' : b.toNat < 0xE0) :
    ofByte b = .longer { further := 0, value := b.toNat - 0xC0 } := by
  unfold ofByte
  dsimp only
  rw [if_neg (by omega), if_neg (by omega), if_pos h']

/-- The second byte of three lies higher after the first of the lead bytes, to rule out overlong
spellings, and lower after `0xED`, to rule out surrogates. -/
theorem ofByte_three (h : 0xE0 ≤ b.toNat) (h' : b.toNat < 0xF0) :
    ofByte b = .longer
      { low := if b.toNat = 0xE0 then 0xA0 else 0x80
        high := if b.toNat = 0xED then 0x9F else 0xBF
        further := 1, value := b.toNat - 0xE0 } := by
  unfold ofByte
  dsimp only
  rw [if_neg (by omega), if_neg (by omega), if_neg (by omega)]
  by_cases first : b.toNat = 0xE0
  · rw [if_pos first, if_pos first, if_neg (by omega), first]
  · rw [if_neg first, if_neg first]
    by_cases surrogate : b.toNat = 0xED
    · rw [if_pos surrogate, if_pos surrogate, surrogate]
    · rw [if_neg surrogate, if_neg surrogate, if_pos h']

theorem ofByte_four (h : 0xF0 ≤ b.toNat) (h' : b.toNat ≤ 0xF4) :
    ofByte b = .longer
      { low := if b.toNat = 0xF0 then 0x90 else 0x80
        high := if b.toNat = 0xF4 then 0x8F else 0xBF
        further := 2, value := b.toNat - 0xF0 } := by
  unfold ofByte
  dsimp only
  rw [if_neg (by omega), if_neg (by omega), if_neg (by omega), if_neg (by omega),
    if_neg (by omega), if_neg (by omega)]
  by_cases first : b.toNat = 0xF0
  · rw [if_pos first, if_pos first, if_neg (by omega), first]
  · rw [if_neg first, if_neg first]
    by_cases last : b.toNat = 0xF4
    · rw [if_neg (by omega), if_pos last, if_pos last, last]
    · rw [if_pos (by omega), if_neg last]

theorem ofByte_broken (h : 0x80 ≤ b.toNat ∧ b.toNat < 0xC2 ∨ 0xF4 < b.toNat) :
    ofByte b = .broken := by
  unfold ofByte
  dsimp only
  rw [if_neg (by omega)]
  by_cases low : b.toNat < 0xC2
  · exact if_pos low
  · rw [if_neg low, if_neg (by omega), if_neg (by omega), if_neg (by omega), if_neg (by omega),
      if_neg (by omega), if_neg (by omega), if_neg (by omega)]

end Start

/-! ## One character -/

/-- The number of a character stays clear of the surrogates. -/
theorem toNat_valid (c : Char) : c.toNat < 0xD800 ∨ 0xDFFF < c.toNat ∧ c.toNat < 0x110000 :=
  c.valid

theorem toNat_ofNat_of_lt {n : Nat} (h : n < 256) : (UInt8.ofNat n).toNat = n := by
  rw [UInt8.toNat_ofNat']
  exact Nat.mod_eq_of_lt h

/-- A byte in the range that the pending character asks for goes to its value. -/
theorem piecesFrom_within {p : Pending} {b : UInt8} {rest : Bytes} (low : p.low.toNat ≤ b.toNat)
    (high : b.toNat ≤ p.high.toNat) :
    piecesFrom (some p) (b :: rest) =
      match p.further with
      | 0 => some (Char.ofNat (p.value * 64 + (b.toNat - 0x80))) :: piecesFrom none rest
      | k + 1 =>
        piecesFrom (some { further := k, value := p.value * 64 + (b.toNat - 0x80) }) rest := by
  rw [piecesFrom]
  exact if_pos ⟨UInt8.le_iff_toNat_le.mpr low, UInt8.le_iff_toNat_le.mpr high⟩

theorem piecesFrom_next {k value : Nat} {b : UInt8} {rest : Bytes} (low : 0x80 ≤ b.toNat)
    (high : b.toNat ≤ 0xBF) :
    piecesFrom (some { further := k + 1, value }) (b :: rest) =
      piecesFrom (some { further := k, value := value * 64 + (b.toNat - 0x80) }) rest :=
  piecesFrom_within low high

theorem piecesFrom_last {value : Nat} {b : UInt8} {rest : Bytes} (low : 0x80 ≤ b.toNat)
    (high : b.toNat ≤ 0xBF) :
    piecesFrom (some { further := 0, value }) (b :: rest) =
      some (Char.ofNat (value * 64 + (b.toNat - 0x80))) :: piecesFrom none rest :=
  piecesFrom_within low high

theorem piecesFrom_two {b b₂ : UInt8} {rest : Bytes} (lead : 0xC2 ≤ b.toNat ∧ b.toNat < 0xE0)
    (last : 0x80 ≤ b₂.toNat ∧ b₂.toNat ≤ 0xBF) :
    piecesFrom none (b :: b₂ :: rest) =
      some (Char.ofNat ((b.toNat - 0xC0) * 64 + (b₂.toNat - 0x80))) :: piecesFrom none rest := by
  rw [piecesFrom, Start.ofByte_two lead.1 lead.2]
  exact piecesFrom_last last.1 last.2

theorem piecesFrom_three {b b₂ b₃ : UInt8} {rest : Bytes}
    (lead : 0xE0 ≤ b.toNat ∧ b.toNat < 0xF0) (second : 0x80 ≤ b₂.toNat ∧ b₂.toNat ≤ 0xBF)
    (long : b.toNat = 0xE0 → 0xA0 ≤ b₂.toNat) (noSurrogate : b.toNat = 0xED → b₂.toNat ≤ 0x9F)
    (last : 0x80 ≤ b₃.toNat ∧ b₃.toNat ≤ 0xBF) :
    piecesFrom none (b :: b₂ :: b₃ :: rest) =
      some (Char.ofNat (((b.toNat - 0xE0) * 64 + (b₂.toNat - 0x80)) * 64 + (b₃.toNat - 0x80))) ::
        piecesFrom none rest := by
  rw [piecesFrom, Start.ofByte_three lead.1 lead.2]
  change piecesFrom (some _) (b₂ :: b₃ :: rest) = _
  rw [piecesFrom_within]
  · exact piecesFrom_last last.1 last.2
  · dsimp only
    split
    · next first => exact long first
    · exact second.1
  · dsimp only
    split
    · next before => exact noSurrogate before
    · exact second.2

theorem piecesFrom_four {b b₂ b₃ b₄ : UInt8} {rest : Bytes}
    (lead : 0xF0 ≤ b.toNat ∧ b.toNat ≤ 0xF4) (second : 0x80 ≤ b₂.toNat ∧ b₂.toNat ≤ 0xBF)
    (long : b.toNat = 0xF0 → 0x90 ≤ b₂.toNat) (inside : b.toNat = 0xF4 → b₂.toNat ≤ 0x8F)
    (third : 0x80 ≤ b₃.toNat ∧ b₃.toNat ≤ 0xBF) (last : 0x80 ≤ b₄.toNat ∧ b₄.toNat ≤ 0xBF) :
    piecesFrom none (b :: b₂ :: b₃ :: b₄ :: rest) =
      some (Char.ofNat ((((b.toNat - 0xF0) * 64 + (b₂.toNat - 0x80)) * 64 +
        (b₃.toNat - 0x80)) * 64 + (b₄.toNat - 0x80))) :: piecesFrom none rest := by
  rw [piecesFrom, Start.ofByte_four lead.1 lead.2]
  change piecesFrom (some _) (b₂ :: b₃ :: b₄ :: rest) = _
  rw [piecesFrom_within]
  · change piecesFrom (some { further := 1, value := _ }) (b₃ :: b₄ :: rest) = _
    rw [piecesFrom_next third.1 third.2]
    exact piecesFrom_last last.1 last.2
  · dsimp only
    split
    · next first => exact long first
    · exact second.1
  · dsimp only
    split
    · next highest => exact inside highest
    · exact second.2

/-- The bytes of a character by its number. -/
theorem encodeChar_eq (c : Char) :
    String.utf8EncodeChar c =
      if c.toNat ≤ 0x7f then [UInt8.ofNat c.toNat]
      else if c.toNat ≤ 0x7ff then
        [UInt8.ofNat (c.toNat / 64 % 0x20 + 0xc0), UInt8.ofNat (c.toNat % 0x40 + 0x80)]
      else if c.toNat ≤ 0xffff then
        [UInt8.ofNat (c.toNat / 4096 % 0x10 + 0xe0), UInt8.ofNat (c.toNat / 64 % 0x40 + 0x80),
          UInt8.ofNat (c.toNat % 0x40 + 0x80)]
      else
        [UInt8.ofNat (c.toNat / 262144 % 0x08 + 0xf0), UInt8.ofNat (c.toNat / 4096 % 0x40 + 0x80),
          UInt8.ofNat (c.toNat / 64 % 0x40 + 0x80), UInt8.ofNat (c.toNat % 0x40 + 0x80)] :=
  rfl

/-- Each number goes into as many bytes as it needs, and these are read back whatever follows. -/
theorem piecesFrom_encodeChar (c : Char) (rest : Bytes) :
    piecesFrom none (String.utf8EncodeChar c ++ rest) = some c :: piecesFrom none rest := by
  have valid := toNat_valid c
  have last : (UInt8.ofNat (c.toNat % 0x40 + 0x80)).toNat = c.toNat % 0x40 + 0x80 :=
    toNat_ofNat_of_lt (by omega)
  have middle : (UInt8.ofNat (c.toNat / 64 % 0x40 + 0x80)).toNat = c.toNat / 64 % 0x40 + 0x80 :=
    toNat_ofNat_of_lt (by omega)
  have second : (UInt8.ofNat (c.toNat / 4096 % 0x40 + 0x80)).toNat =
      c.toNat / 4096 % 0x40 + 0x80 :=
    toNat_ofNat_of_lt (by omega)
  rw [encodeChar_eq]
  split
  · have lead : (UInt8.ofNat c.toNat).toNat = c.toNat := toNat_ofNat_of_lt (by omega)
    rw [List.singleton_append, piecesFrom, Start.ofByte_one (by omega), lead, Char.ofNat_toNat]
  split
  · have lead : (UInt8.ofNat (c.toNat / 64 % 0x20 + 0xc0)).toNat = c.toNat / 64 % 0x20 + 0xc0 :=
      toNat_ofNat_of_lt (by omega)
    rw [List.cons_append, List.singleton_append, piecesFrom_two (by omega) (by omega), last, lead,
      show (c.toNat / 64 % 0x20 + 0xc0 - 0xC0) * 64 + (c.toNat % 0x40 + 0x80 - 0x80) =
        c.toNat by omega,
      Char.ofNat_toNat]
  split
  · have lead : (UInt8.ofNat (c.toNat / 4096 % 0x10 + 0xe0)).toNat =
        c.toNat / 4096 % 0x10 + 0xe0 :=
      toNat_ofNat_of_lt (by omega)
    rw [List.cons_append, List.cons_append, List.singleton_append,
      piecesFrom_three (by omega) (by omega) (by omega) (by omega) (by omega), last, middle, lead,
      show ((c.toNat / 4096 % 0x10 + 0xe0 - 0xE0) * 64 + (c.toNat / 64 % 0x40 + 0x80 - 0x80)) * 64 +
        (c.toNat % 0x40 + 0x80 - 0x80) = c.toNat by omega,
      Char.ofNat_toNat]
  · have lead : (UInt8.ofNat (c.toNat / 262144 % 0x08 + 0xf0)).toNat =
        c.toNat / 262144 % 0x08 + 0xf0 :=
      toNat_ofNat_of_lt (by omega)
    rw [List.cons_append, List.cons_append, List.cons_append, List.singleton_append,
      piecesFrom_four (by omega) (by omega) (by omega) (by omega) (by omega) (by omega), last,
      middle, second, lead,
      show (((c.toNat / 262144 % 0x08 + 0xf0 - 0xF0) * 64 +
          (c.toNat / 4096 % 0x40 + 0x80 - 0x80)) * 64 + (c.toNat / 64 % 0x40 + 0x80 - 0x80)) * 64 +
        (c.toNat % 0x40 + 0x80 - 0x80) = c.toNat by omega,
      Char.ofNat_toNat]

/-- The next byte of a pending character that is read whole. -/
theorem exists_of_piecesFrom_some {p : Pending} {bs : Bytes} {c : Char} {ps : List (Option Char)}
    (read : piecesFrom (some p) bs = some c :: ps) :
    ∃ b rest, bs = b :: rest ∧ p.low.toNat ≤ b.toNat ∧ b.toNat ≤ p.high.toNat ∧
      match p.further with
      | 0 => Char.ofNat (p.value * 64 + (b.toNat - 0x80)) = c ∧ piecesFrom none rest = ps
      | k + 1 =>
        piecesFrom (some { further := k, value := p.value * 64 + (b.toNat - 0x80) }) rest =
          some c :: ps := by
  cases bs with
  | nil => cases read
  | cons b rest =>
    by_cases within : p.low ≤ b ∧ b ≤ p.high
    · have low := UInt8.le_iff_toNat_le.mp within.1
      have high := UInt8.le_iff_toNat_le.mp within.2
      rw [piecesFrom_within low high] at read
      refine ⟨b, rest, rfl, low, high, ?_⟩
      split at read
      · exact ⟨Option.some.inj (List.cons.inj read).1, (List.cons.inj read).2⟩
      · exact read
    · rw [piecesFrom, if_neg within] at read
      split at read <;> cases read

theorem exists_of_piecesFrom_last {value : Nat} {bs : Bytes} {c : Char} {ps : List (Option Char)}
    (read : piecesFrom (some { further := 0, value }) bs = some c :: ps) :
    ∃ b rest, bs = b :: rest ∧ 0x80 ≤ b.toNat ∧ b.toNat ≤ 0xBF ∧
      Char.ofNat (value * 64 + (b.toNat - 0x80)) = c ∧ piecesFrom none rest = ps :=
  exists_of_piecesFrom_some read

theorem exists_of_piecesFrom_next {k value : Nat} {bs : Bytes} {c : Char}
    {ps : List (Option Char)}
    (read : piecesFrom (some { further := k + 1, value }) bs = some c :: ps) :
    ∃ b rest, bs = b :: rest ∧ 0x80 ≤ b.toNat ∧ b.toNat ≤ 0xBF ∧
      piecesFrom (some { further := k, value := value * 64 + (b.toNat - 0x80) }) rest =
        some c :: ps :=
  exists_of_piecesFrom_some read

theorem toNat_ofNat_of_valid {v : Nat} (valid : v < 0xD800 ∨ 0xDFFF < v ∧ v < 0x110000) :
    (Char.ofNat v).toNat = v := by
  unfold Char.ofNat
  rw [dif_pos valid]
  rfl

theorem encodeChar_ofNat {v : Nat} (valid : v < 0xD800 ∨ 0xDFFF < v ∧ v < 0x110000) :
    String.utf8EncodeChar (Char.ofNat v) =
      if v ≤ 0x7f then [UInt8.ofNat v]
      else if v ≤ 0x7ff then
        [UInt8.ofNat (v / 64 % 0x20 + 0xc0), UInt8.ofNat (v % 0x40 + 0x80)]
      else if v ≤ 0xffff then
        [UInt8.ofNat (v / 4096 % 0x10 + 0xe0), UInt8.ofNat (v / 64 % 0x40 + 0x80),
          UInt8.ofNat (v % 0x40 + 0x80)]
      else
        [UInt8.ofNat (v / 262144 % 0x08 + 0xf0), UInt8.ofNat (v / 4096 % 0x40 + 0x80),
          UInt8.ofNat (v / 64 % 0x40 + 0x80), UInt8.ofNat (v % 0x40 + 0x80)] := by
  rw [encodeChar_eq, toNat_ofNat_of_valid valid]

theorem ofNat_eq_of_eq_toNat {n : Nat} {b : UInt8} (h : n = b.toNat) : UInt8.ofNat n = b := by
  rw [h, UInt8.ofNat_toNat]

/-- Each lead byte leaves one length of spelling, and the range of the second byte keeps the number
away from shorter spellings and from the surrogates. -/
theorem exists_of_piecesFrom {bs : Bytes} {c : Char} {ps : List (Option Char)}
    (read : piecesFrom none bs = some c :: ps) :
    ∃ rest, bs = String.utf8EncodeChar c ++ rest ∧ piecesFrom none rest = ps := by
  cases bs with
  | nil => cases read
  | cons b rest =>
    rw [piecesFrom] at read
    by_cases one : b.toNat < 0x80
    · rw [Start.ofByte_one one] at read
      obtain ⟨head, tail⟩ := List.cons.inj read
      refine ⟨rest, ?_, tail⟩
      rw [← Option.some.inj head, encodeChar_ofNat (by omega), if_pos (by omega),
        UInt8.ofNat_toNat]
      rfl
    by_cases broken : b.toNat < 0xC2 ∨ 0xF4 < b.toNat
    · rw [Start.ofByte_broken (by omega)] at read
      obtain ⟨head, -⟩ := List.cons.inj read
      cases head
    by_cases two : b.toNat < 0xE0
    · rw [Start.ofByte_two (by omega) two] at read
      obtain ⟨b₂, rest, rfl, low, high, rfl, tail⟩ := exists_of_piecesFrom_last read
      refine ⟨rest, ?_, tail⟩
      rw [encodeChar_ofNat (by omega), if_neg (by omega), if_pos (by omega),
        ofNat_eq_of_eq_toNat (b := b) (by omega), ofNat_eq_of_eq_toNat (b := b₂) (by omega)]
      rfl
    by_cases three : b.toNat < 0xF0
    · rw [Start.ofByte_three (by omega) three] at read
      obtain ⟨b₂, rest, rfl, low, high, read⟩ := exists_of_piecesFrom_some read
      dsimp only at low high read
      obtain ⟨b₃, rest, rfl, low', high', rfl, tail⟩ := exists_of_piecesFrom_last read
      have second : 0x80 ≤ b₂.toNat ∧ b₂.toNat ≤ 0xBF ∧ (b.toNat = 0xE0 → 0xA0 ≤ b₂.toNat) ∧
          (b.toNat = 0xED → b₂.toNat ≤ 0x9F) := by
        split at low <;> split at high <;> simp at low high <;> omega
      refine ⟨rest, ?_, tail⟩
      rw [encodeChar_ofNat (by omega), if_neg (by omega), if_neg (by omega), if_pos (by omega),
        ofNat_eq_of_eq_toNat (b := b) (by omega), ofNat_eq_of_eq_toNat (b := b₂) (by omega),
        ofNat_eq_of_eq_toNat (b := b₃) (by omega)]
      rfl
    · rw [Start.ofByte_four (by omega) (by omega)] at read
      obtain ⟨b₂, rest, rfl, low, high, read⟩ := exists_of_piecesFrom_some read
      dsimp only at low high read
      obtain ⟨b₃, rest, rfl, low', high', read⟩ := exists_of_piecesFrom_next read
      obtain ⟨b₄, rest, rfl, low'', high'', rfl, tail⟩ := exists_of_piecesFrom_last read
      have second : 0x80 ≤ b₂.toNat ∧ b₂.toNat ≤ 0xBF ∧ (b.toNat = 0xF0 → 0x90 ≤ b₂.toNat) ∧
          (b.toNat = 0xF4 → b₂.toNat ≤ 0x8F) := by
        split at low <;> split at high <;> simp at low high <;> omega
      refine ⟨rest, ?_, tail⟩
      rw [encodeChar_ofNat (by omega), if_neg (by omega), if_neg (by omega), if_neg (by omega),
        ofNat_eq_of_eq_toNat (b := b) (by omega), ofNat_eq_of_eq_toNat (b := b₂) (by omega),
        ofNat_eq_of_eq_toNat (b := b₃) (by omega), ofNat_eq_of_eq_toNat (b := b₄) (by omega)]
      rfl

/-! ## Texts -/

/-- A character that has begun leaves itself or a broken place. -/
theorem piecesFrom_some_ne_nil (p : Pending) (bs : Bytes) : piecesFrom (some p) bs ≠ [] := by
  induction bs generalizing p with
  | nil => exact List.cons_ne_nil _ _
  | cons b rest ih =>
    rw [piecesFrom]
    split
    · dsimp only
      split
      · exact List.cons_ne_nil _ _
      · exact ih _
    · split <;> exact List.cons_ne_nil _ _

theorem pieces_ne_nil (b : UInt8) (rest : Bytes) : pieces (b :: rest) ≠ [] := by
  unfold pieces
  rw [piecesFrom]
  split
  · exact List.cons_ne_nil _ _
  · exact piecesFrom_some_ne_nil _ _
  · exact List.cons_ne_nil _ _

theorem encode_append (first second : List Char) :
    encode (first ++ second) = encode first ++ encode second :=
  List.flatMap_append

/-- The bytes of a text with more characters behind it. -/
theorem ofString_append (s : String) (cs : List Char) :
    ofString (s ++ String.ofList cs) = ofString s ++ encode cs := by
  unfold ofString
  rw [String.toList_append, String.toList_ofList, encode_append]

/-- A text in front of other bytes is read as it is. -/
theorem pieces_encode_append (cs : List Char) (bs : Bytes) :
    pieces (encode cs ++ bs) = cs.map some ++ pieces bs := by
  induction cs with
  | nil => rfl
  | cons c cs ih =>
    have split : encode (c :: cs) = String.utf8EncodeChar c ++ encode cs := List.flatMap_cons
    unfold pieces at ih ⊢
    rw [split, List.append_assoc, piecesFrom_encodeChar, ih, List.map_cons, List.cons_append]

theorem pieces_encode (cs : List Char) : pieces (encode cs) = cs.map some := by
  have alone := pieces_encode_append cs []
  rw [List.append_nil] at alone
  exact alone.trans (List.append_nil _)

theorem eq_encode_of_pieces {cs : List Char} {bs : Bytes} (read : pieces bs = cs.map some) :
    bs = encode cs := by
  induction cs generalizing bs with
  | nil =>
    cases bs with
    | nil => rfl
    | cons b rest => exact absurd read (pieces_ne_nil b rest)
  | cons c cs ih =>
    obtain ⟨rest, rfl, tail⟩ := exists_of_piecesFrom read
    rw [ih tail]
    rfl

theorem decodeChars?_eq_some_iff {bs : Bytes} {cs : List Char} :
    decodeChars? bs = some cs ↔ bs = encode cs := by
  have whole : decodeChars? bs = some cs ↔ pieces bs = cs.map some :=
    Text.mapM_eq_some_iff fun _ _ => Iff.rfl
  rw [whole]
  constructor
  · exact eq_encode_of_pieces
  · rintro rfl
    exact pieces_encode cs

theorem decode?_eq_some_iff {bs : Bytes} {s : String} : decode? bs = some s ↔ bs = ofString s := by
  unfold decode? ofString
  rw [Option.map_eq_some_iff]
  constructor
  · rintro ⟨cs, valid, rfl⟩
    rw [decodeChars?_eq_some_iff.mp valid, String.toList_ofList]
  · intro spelled
    exact ⟨s.toList, decodeChars?_eq_some_iff.mpr spelled, String.ofList_toList⟩

/-! ## Broken places -/

theorem lossyChars_encode (cs : List Char) : lossyChars (encode cs) = cs := by
  unfold lossyChars
  rw [pieces_encode, List.map_map]
  exact List.map_id cs

theorem encode_injective : Function.Injective encode :=
  Function.LeftInverse.injective lossyChars_encode

/-- A text that is not empty has bytes. -/
theorem ofString_ne_nil {s : String} (named : s ≠ "") : ofString s ≠ [] := by
  intro empty
  have chars : s.toList = [] := encode_injective empty
  exact named (String.toList_eq_nil_iff.mp chars)

/-- Only nothing around a text leaves its bytes as they are. -/
theorem eq_nil_of_encode_eq {before after mid : List Char}
    (same : encode (before ++ mid ++ after) = encode mid) :
    before = [] ∧ after = [] := by
  have lengths := congrArg List.length (encode_injective same)
  rw [List.length_append, List.length_append] at lengths
  constructor
  · exact List.eq_nil_of_length_eq_zero (by omega)
  · exact List.eq_nil_of_length_eq_zero (by omega)

theorem eq_encode_of_lossyChars {bs : Bytes} (whole : replacement ∉ lossyChars bs) :
    bs = encode (lossyChars bs) := by
  refine eq_encode_of_pieces ?_
  unfold lossyChars at whole ⊢
  rw [List.map_map]
  refine (List.map_id (pieces bs)).symm.trans (List.map_congr_left ?_)
  intro piece mem
  cases piece with
  | none => exact absurd (List.mem_map_of_mem mem) whole
  | some c => rfl

/-- The range of the next byte keeps to the bytes that only continue characters. -/
def Pending.Continues (p : Pending) : Prop := 0x80 ≤ p.low.toNat ∧ p.high.toNat ≤ 0xBF

theorem Start.continues_of_longer {b : UInt8} {p : Pending} (begins : ofByte b = .longer p) :
    p.Continues := by
  unfold ofByte at begins
  dsimp only at begins
  repeat' split at begins
  all_goals cases begins
  all_goals unfold Pending.Continues
  all_goals dsimp only
  all_goals decide

section Started

variable {p : Option Pending} {a : UInt8}

theorem piecesFrom_some_start {q : Pending} (continues : q.Continues)
    (starts : a.toNat < 0x80 ∨ 0xBF < a.toNat) (rest : Bytes) :
    piecesFrom (some q) (a :: rest) = none :: piecesFrom none (a :: rest) := by
  have outside : ¬(q.low ≤ a ∧ a ≤ q.high) := by
    rintro ⟨within, within'⟩
    have above := UInt8.le_iff_toNat_le.mp within
    have below := UInt8.le_iff_toNat_le.mp within'
    obtain ⟨low, high⟩ := continues
    omega
  rw [piecesFrom, if_neg outside, piecesFrom]
  cases Start.ofByte a <;> rfl

/-- The reading starts afresh at a byte that continues no character, also where one has begun. -/
theorem piecesFrom_append_start (continues : ∀ q ∈ p, q.Continues) (bs : Bytes)
    (starts : a.toNat < 0x80 ∨ 0xBF < a.toNat) (rest : Bytes) :
    piecesFrom p (bs ++ a :: rest) = piecesFrom p bs ++ piecesFrom none (a :: rest) := by
  induction bs generalizing p with
  | nil =>
    cases p with
    | none => rfl
    | some q => exact piecesFrom_some_start (continues q rfl) starts rest
  | cons b bs ih =>
    have fresh := ih (p := none) nofun
    have begun {q : Pending} (begins : Start.ofByte b = .longer q) := ih (p := some q) <| by
      rintro q ⟨⟩
      exact Start.continues_of_longer begins
    rw [List.cons_append]
    cases p with
    | none =>
      rw [piecesFrom, piecesFrom]
      split
      · rw [fresh, List.cons_append]
      · next q begins => exact begun begins
      · rw [fresh, List.cons_append]
    | some q =>
      rw [piecesFrom, piecesFrom]
      split
      · dsimp only
        split
        · rw [fresh, List.cons_append]
        · refine ih ?_
          rintro q ⟨⟩
          exact ⟨Nat.le_refl 0x80, Nat.le_refl 0xBF⟩
      · split
        · rw [fresh, List.cons_append, List.cons_append]
        · next q begins => rw [begun begins, List.cons_append]
        · rw [fresh, List.cons_append, List.cons_append]

end Started

/-! ## Texts among other bytes -/

/-- The first byte of a character is no byte that continues one. -/
theorem exists_start_of_encodeChar (c : Char) :
    ∃ a rest, String.utf8EncodeChar c = a :: rest ∧ (a.toNat < 0x80 ∨ 0xBF < a.toNat) := by
  rw [encodeChar_eq]
  repeat' split
  all_goals refine ⟨_, _, rfl, ?_⟩
  all_goals rw [toNat_ofNat_of_lt (by omega)]
  all_goals omega

/-- A text behind other bytes is read as it is, also where they break off within a character. -/
theorem pieces_append_encode (bs : Bytes) (cs : List Char) :
    pieces (bs ++ encode cs) = pieces bs ++ cs.map some := by
  rw [← pieces_encode]
  cases cs with
  | nil => exact (congrArg pieces (List.append_nil bs)).trans (List.append_nil _).symm
  | cons c cs =>
    obtain ⟨a, rest, first, starts⟩ := exists_start_of_encodeChar c
    have spelled : encode (c :: cs) = a :: (rest ++ encode cs) := by
      change String.utf8EncodeChar c ++ encode cs = _
      rw [first, List.cons_append]
    rw [spelled]
    exact piecesFrom_append_start (p := none) nofun bs starts (rest ++ encode cs)

theorem lossyChars_between (first second : List Char) (bs : Bytes) :
    lossyChars (encode first ++ bs ++ encode second) = first ++ lossyChars bs ++ second := by
  have whole (cs : List Char) : (cs.map some).map (·.getD replacement) = cs := by
    rw [List.map_map]
    exact List.map_id cs
  unfold lossyChars
  rw [pieces_append_encode, pieces_encode_append, List.map_append, List.map_append, whole, whole]

theorem lossyChars_append_ascii (bs : Bytes) {a : UInt8} (ascii : a.toNat < 0x80) :
    lossyChars (bs ++ [a]) = lossyChars bs ++ [Char.ofNat a.toNat] := by
  unfold lossyChars pieces
  rw [piecesFrom_append_start (p := none) nofun bs (.inl ascii) [], List.map_append, piecesFrom,
    Start.ofByte_one ascii]
  rfl

end BuildLauncher.Utf8
