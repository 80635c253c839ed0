import BuildLauncher.Toml.Quoted

/-!
# Rules of quoted text

* `Toml.quoted_block`, `Toml.quoted_line`, `Toml.quoted_none`: which reader a quote leads to.
* `Toml.blockFrom_quotes`, `Toml.blockFrom_cons`: text over several lines, behind three quotes that
  may close it and elsewhere.
-/

namespace BuildLauncher.Toml

section Quotation

variable {quote : Char} {cs : List Char}

theorem quoted_block (quoting : quote = '"' ∨ quote = literalQuote) :
    quoted true (quote :: quote :: quote :: cs) =
      blockFrom quote .between (dropFirstLineEnd cs) := by
  unfold quoted
  dsimp only
  rw [if_pos quoting]
  exact if_pos ⟨rfl, rfl, rfl⟩

/-- A quote that two more of its kind do not follow opens a text on one line. -/
theorem quoted_line {block : Bool} (quoting : quote = '"' ∨ quote = literalQuote)
    (line : ∀ more, block = true → cs ≠ quote :: quote :: more) :
    quoted block (quote :: cs) = if quote = '"' then basicFrom .between cs else literalFrom cs := by
  unfold quoted
  dsimp only
  rw [if_pos quoting]
  split
  · next d e more =>
    refine if_neg ?_
    rintro ⟨single, rfl, rfl⟩
    exact line more single rfl
  · rfl

theorem quoted_none {block : Bool} (other : ¬ (quote = '"' ∨ quote = literalQuote)) :
    quoted block (quote :: cs) = none := by
  unfold quoted
  exact if_neg other

end Quotation

section Block

variable {quote c : Char} {place : BlockPlace} {rest : List Char}

/-- Behind three closing quotes a text is complete, at the latest after two more of them. -/
theorem blockFrom_quotes (k : Nat) :
    blockFrom quote (.quotes (k + 3)) (c :: rest) =
      if k = 2 ∨ c ≠ quote then some (List.replicate k quote, c :: rest)
      else blockFrom quote (.quotes (k + 4)) rest := by
  by_cases five : k = 2
  · subst five
    rw [if_pos (.inl rfl)]
    rfl
  · rw [blockFrom.eq_4 _ _ _ _ five]
    by_cases again : c = quote
    · rw [if_pos again, if_neg fun h => h.elim five fun differs => differs again]
    · rw [if_neg again, if_pos (.inr again)]

theorem blockFrom_cons (inside : ∀ k, place ≠ .quotes (k + 3)) :
    blockFrom quote place (c :: rest) =
      (blockPlaceStep quote place c).bind fun (text, next) =>
        (blockFrom quote next rest).map fun (more, rest) => (text ++ more, rest) :=
  blockFrom.eq_5 _ _ _ _ (inside 2) inside

end Block

end BuildLauncher.Toml
