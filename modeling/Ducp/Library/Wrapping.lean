import Mathlib

/-!
# Wrapping quotients

A division of two products which have wrapped around a wide word, narrowed to a shorter word.  It is
compared with the exact quotient of the exact products.
-/

namespace Wrapping

variable {wide narrow numerator denominator numerator' denominator' : ℕ}

/-- The narrowed quotient of two wrapped products; zero when the wrapped divisor is zero. -/
def quotient (wide narrow numerator denominator : ℕ) : ℕ :=
  numerator % wide / (denominator % wide) % narrow

/-- Wrapping the dividend and narrowing the quotient only lower it. -/
theorem quotient_le_residue (wide narrow numerator denominator : ℕ) :
    quotient wide narrow numerator denominator ≤ numerator / (denominator % wide) :=
  (Nat.mod_le _ _).trans (Nat.div_le_div_right (Nat.mod_le _ _))

/-- A divisor which does not wrap keeps the quotient below the exact one. -/
theorem quotient_le_div (narrow numerator : ℕ) (fits : denominator < wide) :
    quotient wide narrow numerator denominator ≤ numerator / denominator := by
  have bounded := quotient_le_residue wide narrow numerator denominator
  rwa [Nat.mod_eq_of_lt fits] at bounded

/-- Without a wrapped dividend or a narrowed quotient only the divisor wraps. -/
theorem quotient_eq_residue (numerator_fits : numerator < wide)
    (quotient_fits : numerator / (denominator % wide) < narrow) :
    quotient wide narrow numerator denominator = numerator / (denominator % wide) := by
  rw [quotient, Nat.mod_eq_of_lt numerator_fits, Nat.mod_eq_of_lt quotient_fits]

theorem quotient_of_dvd (whole : wide ∣ denominator) :
    quotient wide narrow numerator denominator = 0 := by
  rw [quotient, Nat.mod_eq_zero_of_dvd whole, Nat.div_zero, Nat.zero_mod]

theorem quotient_of_lt (small : numerator < denominator % wide) :
    quotient wide narrow numerator denominator = 0 := by
  have bounded := quotient_le_residue wide narrow numerator denominator
  rwa [Nat.div_eq_of_lt small, Nat.le_zero] at bounded

/-! ## Two quotients -/

/-- Numbers which wrap equally often keep their order. -/
theorem mod_le_mod (order : numerator ≤ numerator')
    (alike : numerator / wide = numerator' / wide) : numerator % wide ≤ numerator' % wide := by
  have split := Nat.div_add_mod numerator wide
  have split' := Nat.div_add_mod numerator' wide
  rw [alike] at split
  omega

/-- Two divisions whose dividends, divisors and quotients wrap equally often, and whose first
divisor does not wrap to zero. -/
structure Alike (wide narrow numerator denominator numerator' denominator' : ℕ) : Prop where
  dividend : numerator / wide = numerator' / wide
  divisor : denominator / wide = denominator' / wide
  divides : ¬wide ∣ denominator
  quotient : numerator % wide / (denominator % wide) / narrow =
    numerator' % wide / (denominator' % wide) / narrow

/-- Nothing wraps. -/
theorem Alike.of_fits (dividend : numerator < wide) (divisor : denominator' < wide)
    (positive : 0 < denominator) (quotient : numerator / denominator < narrow)
    (less : numerator' ≤ numerator) (more : denominator ≤ denominator') :
    Alike wide narrow numerator denominator numerator' denominator' where
  dividend := by
    rw [Nat.div_eq_of_lt dividend, Nat.div_eq_of_lt (less.trans_lt dividend)]
  divisor := by
    rw [Nat.div_eq_of_lt divisor, Nat.div_eq_of_lt (more.trans_lt divisor)]
  divides := Nat.not_dvd_of_pos_of_lt positive (more.trans_lt divisor)
  quotient := by
    have lower : numerator' / denominator' ≤ numerator / denominator :=
      Nat.div_le_div less more positive.ne'
    rw [Nat.mod_eq_of_lt dividend, Nat.mod_eq_of_lt (less.trans_lt dividend),
      Nat.mod_eq_of_lt divisor, Nat.mod_eq_of_lt (more.trans_lt divisor),
      Nat.div_eq_of_lt quotient, Nat.div_eq_of_lt (lower.trans_lt quotient)]

/-- A smaller dividend and a larger divisor give no larger quotient when they wrap alike. -/
theorem Alike.quotient_le
    (alike : Alike wide narrow numerator denominator numerator' denominator')
    (less : numerator' ≤ numerator) (more : denominator ≤ denominator') :
    Wrapping.quotient wide narrow numerator' denominator' ≤
      Wrapping.quotient wide narrow numerator denominator := by
  have dividend := mod_le_mod less alike.dividend.symm
  have divisor := mod_le_mod more alike.divisor
  have divides : denominator % wide ≠ 0 := fun zero =>
    alike.divides (Nat.dvd_of_mod_eq_zero zero)
  exact mod_le_mod (Nat.div_le_div dividend divisor divides) alike.quotient.symm

end Wrapping
