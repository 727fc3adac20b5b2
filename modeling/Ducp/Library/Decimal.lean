import Mathlib

/-!
# Decimal texts

A machine integer is written in decimal digits without leading zeros.  Reading takes an optional
sign, then digits one by one, and stops at the first character which is no digit or the first value
which is too large for the type.
-/

namespace Decimal

open Nat

variable {width : ℕ}

/-- Read digits after a value, up to a limit. -/
def digits (limit : ℕ) (beyond : String) : List Char → ℕ → Except String ℕ
  | [], value => .ok value
  | digit :: rest, value =>
      if digit.isDigit then
        let next := 10 * value + (digit.toNat - '0'.toNat)
        if next ≤ limit then digits limit beyond rest next else .error beyond
      else .error "invalid digit found in string"

/-- The reason when a value is above its type. -/
def tooLarge : String := "number too large to fit in target type"

/-- The reason when a value is below its type. -/
def tooSmall : String := "number too small to fit in target type"

/-- The text of an unsigned integer. -/
def ofUnsigned (value : BitVec width) : String := toString value.toNat

/-- The text of a signed integer in two's complement. -/
def ofSigned (value : BitVec width) : String := toString value.toInt

/-- Read an unsigned integer. -/
def toUnsigned (width : ℕ) (text : String) : Except String (BitVec width) :=
  match text.toList with
  | [] => .error "cannot parse integer from empty string"
  | ['+'] | ['-'] => .error "invalid digit found in string"
  | '+' :: rest => BitVec.ofNat width <$> digits (2 ^ width - 1) tooLarge rest 0
  | characters => BitVec.ofNat width <$> digits (2 ^ width - 1) tooLarge characters 0

/-- Read a signed integer in two's complement. -/
def toSigned (width : ℕ) (text : String) : Except String (BitVec width) :=
  match text.toList with
  | [] => .error "cannot parse integer from empty string"
  | ['+'] | ['-'] => .error "invalid digit found in string"
  | '-' :: rest =>
      (fun value => BitVec.ofInt width (-(value : ℤ))) <$> digits (2 ^ (width - 1)) tooSmall rest 0
  | '+' :: rest => BitVec.ofNat width <$> digits (2 ^ (width - 1) - 1) tooLarge rest 0
  | characters => BitVec.ofNat width <$> digits (2 ^ (width - 1) - 1) tooLarge characters 0

theorem le_ofDigitChars {characters : List Char} {value : ℕ} :
    value ≤ ofDigitChars 10 characters value := by
  rw [ofDigitChars_eq_ofDigitChars_zero]
  have scale : 1 ≤ 10 ^ characters.length := Nat.one_le_pow _ _ (by decide)
  nlinarith

/-- Digits whose value is within the limit are read, as no front of them is above it. -/
theorem digits_eq_ok {limit : ℕ} {beyond : String} {characters : List Char} {value : ℕ}
    (isDigit : ∀ digit ∈ characters, digit.isDigit)
    (within : ofDigitChars 10 characters value ≤ limit) :
    digits limit beyond characters value = .ok (ofDigitChars 10 characters value) := by
  induction characters generalizing value with
  | nil => rfl
  | cons digit rest ih =>
      rw [ofDigitChars_cons] at within ⊢
      have next_le := le_ofDigitChars.trans within
      simp only [digits, isDigit digit List.mem_cons_self, if_true, next_le]
      exact ih (fun digit member => isDigit digit (List.mem_cons_of_mem _ member)) within

theorem digits_toDigits {limit value : ℕ} {beyond : String} (within : value ≤ limit) :
    digits limit beyond (toDigits 10 value) 0 = .ok value := by
  have read : digits limit beyond (toDigits 10 value) 0 = .ok _ := digits_eq_ok
    (fun digit member => isDigit_of_mem_toDigits (by decide) (by decide) member)
    (ofDigitChars_ten_toDigits.trans_le within)
  rwa [ofDigitChars_ten_toDigits] at read

/-- The digits of a number start with a digit, which is no sign. -/
theorem exists_toDigits (value : ℕ) :
    ∃ first rest, toDigits 10 value = first :: rest ∧ first ≠ '+' ∧ first ≠ '-' := by
  obtain ⟨first, rest, digits_eq⟩ := List.exists_cons_of_ne_nil (toDigits_ne_nil (n := value)
    (b := 10))
  have isDigit : first.isDigit :=
    isDigit_of_mem_toDigits (by decide) (by decide) (digits_eq ▸ List.mem_cons_self)
  refine ⟨first, rest, digits_eq, ?_, ?_⟩ <;> rintro rfl <;> exact absurd isDigit (by decide)

/-- An unsigned integer is read back from its text. -/
theorem toUnsigned_ofUnsigned (value : BitVec width) :
    toUnsigned width (ofUnsigned value) = .ok value := by
  obtain ⟨first, rest, digits_eq, not_plus, not_minus⟩ := exists_toDigits value.toNat
  have characters : (ofUnsigned value).toList = first :: rest := by
    rw [ofUnsigned, toString_eq_repr, toList_repr, digits_eq]
  have read : digits (2 ^ width - 1) tooLarge (first :: rest) 0 = .ok value.toNat :=
    digits_eq ▸ digits_toDigits (Nat.le_sub_one_of_lt value.isLt)
  rw [toUnsigned, characters]
  split <;> simp_all [Functor.map, Except.map]

/-- A signed integer is read back from its text. -/
theorem toSigned_ofSigned (value : BitVec width) :
    toSigned width (ofSigned value) = .ok value := by
  have bounds : -(2 ^ (width - 1) : ℤ) ≤ value.toInt ∧ value.toInt < 2 ^ (width - 1) :=
    ⟨BitVec.le_toInt value, BitVec.toInt_lt⟩
  have rebuilt : BitVec.ofInt width value.toInt = value := BitVec.ofInt_toInt
  cases value_eq : value.toInt with
  | ofNat magnitude =>
      obtain ⟨first, rest, digits_eq, not_plus, not_minus⟩ := exists_toDigits magnitude
      have characters : (ofSigned value).toList = first :: rest := by
        rw [ofSigned, value_eq, ← digits_eq, ← toList_repr]
        rfl
      have within : magnitude ≤ 2 ^ (width - 1) - 1 := by
        have below := bounds.2
        rw [value_eq, Int.ofNat_eq_natCast] at below
        exact Nat.le_sub_one_of_lt (by exact_mod_cast below)
      have read : digits (2 ^ (width - 1) - 1) tooLarge (first :: rest) 0 = .ok magnitude :=
        digits_eq ▸ digits_toDigits within
      have value_ofNat : BitVec.ofNat width magnitude = value := by
        rw [← BitVec.ofInt_natCast, ← rebuilt, value_eq]
        rfl
      rw [toSigned, characters]
      split <;> simp_all [Functor.map, Except.map]
  | negSucc magnitude =>
      have characters : (ofSigned value).toList = '-' :: toDigits 10 (magnitude + 1) := by
        have text : ofSigned value = "-" ++ (magnitude + 1).repr := by rw [ofSigned, value_eq]; rfl
        rw [text, String.toList_append, toList_repr]
        rfl
      have within : magnitude + 1 ≤ 2 ^ (width - 1) := by
        have above := bounds.1
        rw [value_eq, Int.negSucc_eq] at above
        have above_nat : ((magnitude + 1 : ℕ) : ℤ) ≤ ((2 ^ (width - 1) : ℕ) : ℤ) := by
          push_cast
          omega
        exact_mod_cast above_nat
      have read : digits (2 ^ (width - 1)) tooSmall (toDigits 10 (magnitude + 1)) 0 =
          .ok (magnitude + 1) := digits_toDigits within
      have value_ofInt : BitVec.ofInt width (-((magnitude + 1 : ℕ) : ℤ)) = value := by
        rw [← rebuilt, value_eq]
        rfl
      obtain ⟨first, rest, digits_eq, _⟩ := exists_toDigits (magnitude + 1)
      rw [digits_eq] at characters read
      rw [toSigned, characters]
      split <;> simp_all [Functor.map, Except.map]

end Decimal
