/-
Numbers printed and read back.

The digits are read by a running value that only grows (`le_ofDigitChars`),
so a number below the bound never meets it on the way, and what is
printed of it is read as the number (`readNat_ofNat`).
-/
import BraceLift.Text.Decimal

namespace BraceLift.Text

/-- The value of some digits is at least what came before them. -/
theorem le_ofDigitChars (digits : Text) (value : Nat) :
    value ≤ Nat.ofDigitChars 10 digits value := by
  induction digits generalizing value with
  | nil => exact Nat.le_refl value
  | cons c rest ih =>
      rw [Nat.ofDigitChars_cons]
      have hrest := ih (10 * value + (c.toNat - '0'.toNat))
      omega

/-- Digits are read as their value if it is below the bound. -/
theorem readDigits_eq_ok {bound : Nat} {digits : Text}
    (hdigits : ∀ c ∈ digits, c.isDigit = true) (value : Nat)
    (hbound : Nat.ofDigitChars 10 digits value < bound) :
    readDigits bound value digits
      = .ok (Nat.ofDigitChars 10 digits value) := by
  induction digits generalizing value with
  | nil => rfl
  | cons c rest ih =>
      rw [List.forall_mem_cons] at hdigits
      obtain ⟨hc, hrest⟩ := hdigits
      rw [Nat.ofDigitChars_cons, Nat.mul_comm] at hbound ⊢
      have hnext := le_ofDigitChars rest (value * 10 + (c.toNat - '0'.toNat))
      rw [readDigits, if_pos hc]
      dsimp only
      rw [if_pos (by omega)]
      exact ih hrest _ hbound

/-- Where there are only digits, there is no sign to skip. -/
theorem readNat_of_digits {bound : Nat} {digits : Text}
    (hne : digits ≠ []) (hdigits : ∀ c ∈ digits, c.isDigit = true) :
    readNat bound digits = readDigits bound 0 digits := by
  obtain ⟨c, rest, rfl⟩ := List.exists_cons_of_ne_nil hne
  have hc : c.isDigit = true := hdigits c (List.mem_cons_self ..)
  have hplus : c ≠ '+' := by
    rintro rfl
    cases hc
  unfold readNat
  split
  · next heq => cases heq
  · next heq => exact absurd (List.head_eq_of_cons_eq heq) hplus
  · next heq => exact absurd (List.head_eq_of_cons_eq heq) hplus
  · rfl

/-- A number below the bound is read back from its print. -/
theorem readNat_ofNat {bound n : Nat} (h : n < bound) :
    readNat bound (ofNat n) = .ok n := by
  have hvalue : Nat.ofDigitChars 10 (ofNat n) 0 = n :=
    Nat.ofDigitChars_toDigits (by decide) (by decide)
  have hdigits : ∀ c ∈ ofNat n, c.isDigit = true := fun c hc =>
    Nat.isDigit_of_mem_toDigits (by decide) (by decide) hc
  have hne : ofNat n ≠ [] := Nat.toDigits_ne_nil
  rw [readNat_of_digits hne hdigits,
    readDigits_eq_ok hdigits 0 (by rwa [hvalue]), hvalue]

end BraceLift.Text
