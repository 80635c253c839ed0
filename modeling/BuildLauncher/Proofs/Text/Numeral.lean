import Mathlib.Data.List.Basic

/-!
# Decimal numerals

A number is written in at least one digit, and with a zero in front only when it is zero.  Such
digits are those of the number that they spell.

* `Text.isNumeral_toDigits`: every number is written so.
* `Text.IsNumeral.toDigits_eq`: what is written so is how its number is written.
-/

namespace BuildLauncher.Text

/-- Decimal digits, at least one and without a superfluous zero in front. -/
structure IsNumeral (cs : List Char) : Prop where
  digits : ∀ c ∈ cs, c.isDigit = true
  filled : cs ≠ []
  exact : cs.head? = some '0' → cs = ['0']

theorem toNat_of_isDigit {c : Char} (digit : c.isDigit = true) : 48 ≤ c.toNat ∧ c.toNat ≤ 57 :=
  Char.isDigit_iff_toNat.mp digit

theorem digitChar_toNat {c : Char} (digit : c.isDigit = true) :
    Nat.digitChar (c.toNat - '0'.toNat) = c := by
  have range := toNat_of_isDigit digit
  change Nat.digitChar (c.toNat - 48) = c
  apply Char.toNat_inj.mp
  rw [Nat.toNat_digitChar_of_lt_ten (by omega)]
  omega

theorem isDigit_of_mem_toDigits {n : Nat} : ∀ c ∈ Nat.toDigits 10 n, c.isDigit = true :=
  fun _ mem => Nat.isDigit_of_mem_toDigits (by decide) (by decide) mem

/-- Digits behind those of a number that is not zero. -/
theorem toDigits_ofDigitChars_append {digits : List Char} {n : Nat} (positive : 0 < n)
    (all : ∀ c ∈ digits, c.isDigit = true) :
    Nat.toDigits 10 (Nat.ofDigitChars 10 digits n) = Nat.toDigits 10 n ++ digits := by
  induction digits generalizing n with
  | nil => rw [Nat.ofDigitChars_nil, List.append_nil]
  | cons c rest ih =>
    have digit := all c List.mem_cons_self
    have range := toNat_of_isDigit digit
    have small : c.toNat - '0'.toNat < 10 := by
      change c.toNat - 48 < 10
      omega
    rw [Nat.ofDigitChars_cons, ih (by omega) fun c mem => all c (List.mem_cons_of_mem _ mem),
      ← Nat.toDigits_append_toDigits (by decide) positive small, Nat.toDigits_of_lt_base small,
      digitChar_toNat digit, List.append_assoc, List.singleton_append]

/-- Only zero is written with a zero in front. -/
theorem eq_zero_of_head?_toDigits {n : Nat} (first : (Nat.toDigits 10 n).head? = some '0') :
    n = 0 := by
  induction n using Nat.strongRecOn with
  | ind n ih =>
    rw [Nat.toDigits_eq_if (by decide)] at first
    split at first
    · exact Nat.digitChar_eq_zero.mp (Option.some.inj first)
    · next large =>
      rw [List.head?_append_of_ne_nil _ Nat.toDigits_ne_nil] at first
      have zero := ih (n / 10) (by omega) first
      omega

/-- Every number is written as a numeral. -/
theorem isNumeral_toDigits (n : Nat) : IsNumeral (Nat.toDigits 10 n) where
  digits := isDigit_of_mem_toDigits
  filled := Nat.toDigits_ne_nil
  exact zero := by
    rw [eq_zero_of_head?_toDigits zero]
    rfl

/-- A numeral is how its number is written. -/
theorem IsNumeral.toDigits_eq {digits : List Char} (numeral : IsNumeral digits) :
    Nat.toDigits 10 (Nat.ofDigitChars 10 digits 0) = digits := by
  obtain ⟨all, filled, exact⟩ := numeral
  cases digits with
  | nil => exact absurd rfl filled
  | cons c rest =>
    by_cases zero : c = '0'
    · subst zero
      have alone : rest = [] := (List.cons.inj (exact rfl)).2
      rw [alone]
      rfl
    · have digit := all c List.mem_cons_self
      have range := toNat_of_isDigit digit
      have apart : c.toNat ≠ 48 := fun same => zero (Char.toNat_inj.mp same)
      have value : Nat.ofDigitChars 10 (c :: rest) 0 = Nat.ofDigitChars 10 rest (c.toNat - 48) := by
        rw [Nat.ofDigitChars_cons, Nat.mul_zero, Nat.zero_add]
        rfl
      rw [value, toDigits_ofDigitChars_append (by omega) fun c mem =>
        all c (List.mem_cons_of_mem _ mem), Nat.toDigits_of_lt_base (by omega)]
      exact congrArg (· :: rest) (digitChar_toNat digit)

end BuildLauncher.Text
