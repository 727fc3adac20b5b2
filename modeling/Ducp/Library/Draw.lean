import Ducp.Library.Borsh
import Mathlib.Data.Int.CardIntervalMod
import Mathlib.SetTheory.Cardinal.Finite

/-!
# Numbers drawn from a digest

Consecutive bytes of a digest are read as little-endian numbers.  Over all digests every number is
read equally often, and numbers read from different bytes are independent.
-/

/-- The number with these bytes, least significant byte first. -/
def ofLittleEndian : List UInt8 → ℕ
  | [] => 0
  | byte :: rest => byte.toNat + 256 * ofLittleEndian rest

theorem ofLittleEndian_lt (bytes : List UInt8) : ofLittleEndian bytes < 256 ^ bytes.length := by
  induction bytes with
  | nil => simp [ofLittleEndian]
  | cons byte rest ih =>
      have small := byte.toNat_lt
      simp only [ofLittleEndian, List.length_cons, pow_succ]
      omega

/-- A number in range is read back from its bytes. -/
theorem ofLittleEndian_littleEndian {count value : ℕ} (fits : value < 256 ^ count) :
    ofLittleEndian (littleEndian count value) = value := by
  induction count generalizing value with
  | zero =>
      simp only [pow_zero, Nat.lt_one_iff] at fits
      simp [littleEndian, ofLittleEndian, fits]
  | succ count ih =>
      have rest : value / 256 < 256 ^ count := by
        rw [pow_succ] at fits
        exact Nat.div_lt_of_lt_mul (by rwa [mul_comm])
      simp only [littleEndian, ofLittleEndian, ih rest]
      have low : (UInt8.ofNat value).toNat = value % 256 := by simp
      omega

theorem littleEndian_ofLittleEndian (bytes : List UInt8) :
    littleEndian bytes.length (ofLittleEndian bytes) = bytes := by
  induction bytes with
  | nil => rfl
  | cons byte rest ih =>
      have small := byte.toNat_lt
      have low : UInt8.ofNat (byte.toNat + 256 * ofLittleEndian rest) = byte := by
        apply UInt8.toNat_inj.mp
        simp
      have high : (byte.toNat + 256 * ofLittleEndian rest) / 256 = ofLittleEndian rest := by
        omega
      rw [ofLittleEndian, List.length_cons, littleEndian, low, high, ih]

namespace Bytes

variable {size front middle rest : ℕ}

/-- The number with the bytes of an array. -/
def word (bytes : Bytes size) : ℕ := ofLittleEndian bytes.toList

/-- Arrays and numbers in range correspond. -/
def wordEquiv (size : ℕ) : Bytes size ≃ {value : ℕ // value < 256 ^ size} where
  toFun bytes := ⟨bytes.word, by
    have bounded := ofLittleEndian_lt bytes.toList
    rwa [bytes.length_toList] at bounded⟩
  invFun value := ⟨littleEndian size value, by simp⟩
  left_inv bytes := by
    have read := littleEndian_ofLittleEndian bytes.toList
    rw [bytes.length_toList] at read
    exact Bytes.ext read
  right_inv value := Subtype.ext (ofLittleEndian_littleEndian value.2)

/-- The first bytes of an array. -/
def take (bytes : Bytes (front + rest)) : Bytes front :=
  ⟨bytes.toList.take front, by simp [bytes.length_toList]⟩

/-- The bytes after the first ones. -/
def drop (bytes : Bytes (front + rest)) : Bytes rest :=
  ⟨bytes.toList.drop front, by simp [bytes.length_toList]⟩

/-- An array is its first bytes and the others. -/
def splitEquiv (front rest : ℕ) : Bytes (front + rest) ≃ Bytes front × Bytes rest where
  toFun bytes := (bytes.take, bytes.drop)
  invFun parts := ⟨parts.1.toList ++ parts.2.toList, by
    simp [parts.1.length_toList, parts.2.length_toList]⟩
  left_inv bytes := Bytes.ext (List.take_append_drop _ _)
  right_inv parts := by
    have full := parts.1.length_toList
    refine Prod.ext (Bytes.ext ?_) (Bytes.ext ?_)
    · exact List.take_left' full
    · exact List.drop_left' full

/-! ## Counting -/

open scoped Count

variable (P Q : ℕ → Prop) [DecidablePred P] [DecidablePred Q]

/-- As many arrays as numbers have a property. -/
theorem card_word (size : ℕ) :
    Nat.card {bytes : Bytes size // P bytes.word} = (256 ^ size).count P := by
  rw [Nat.count_eq_card_fintype, ← Nat.card_eq_fintype_card]
  refine Nat.card_congr (((wordEquiv size).subtypeEquiv (q := fun value => P value.1) fun _ =>
    Iff.rfl).trans ?_)
  exact Equiv.subtypeSubtypeEquivSubtypeInter _ _

theorem card_bytes (size : ℕ) : Nat.card (Bytes size) = 256 ^ size := by
  rw [Nat.card_congr (wordEquiv size)]
  exact (Nat.card_congr Fin.equivSubtype.symm).trans (Nat.card_fin _)

/-- Numbers read from the first bytes and from the next ones are independent. -/
theorem card_words : Nat.card {bytes : Bytes (front + (middle + rest)) //
      P bytes.take.word ∧ Q bytes.drop.take.word} =
    (256 ^ front).count P * ((256 ^ middle).count Q * 256 ^ rest) := by
  have equivalent : {bytes : Bytes (front + (middle + rest)) //
      P bytes.take.word ∧ Q bytes.drop.take.word} ≃
        {bytes : Bytes front // P bytes.word} ×
          {bytes : Bytes (middle + rest) // Q bytes.take.word} :=
    ((splitEquiv front (middle + rest)).subtypeEquiv fun _ => Iff.rfl).trans
      (Equiv.subtypeProdEquivProd (p := fun bytes => P bytes.word)
        (q := fun bytes => Q bytes.take.word))
  have inner : {bytes : Bytes (middle + rest) // Q bytes.take.word} ≃
      {bytes : Bytes middle // Q bytes.word} × Bytes rest :=
    ((splitEquiv middle rest).subtypeEquiv fun _ => Iff.rfl).trans
      (Equiv.prodSubtypeFstEquivSubtypeProd (p := fun bytes => Q bytes.word))
  rw [Nat.card_congr equivalent, Nat.card_prod, Nat.card_congr inner, Nat.card_prod, card_word P,
    card_word Q, card_bytes]

end Bytes
