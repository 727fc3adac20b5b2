import Ducp.Library.Checked

/-!
# Canonical binary layouts

The layout of a value concatenates the layouts of its fields in declaration order: integers are
little-endian, a sequence is preceded by its length in four bytes, and an enumeration by the index
of its variant.  A layout is uniquely readable: the bytes of a value can be cancelled from the
front of two equal byte strings.  Serialization fails only on a sequence whose length does not fit
its prefix.
-/

open Std

/-- An array of `size` bytes. -/
structure Bytes (size : ℕ) where
  /-- The bytes of the array, first byte first. -/
  toList : List UInt8
  /-- The array is full. -/
  length_toList : toList.length = size
  deriving DecidableEq

namespace Bytes

variable {size : ℕ}

@[ext]
theorem ext {left right : Bytes size} (same : left.toList = right.toList) : left = right := by
  cases left
  cases right
  simpa using same

/-- The array which repeats one byte. -/
def fill (size : ℕ) (byte : UInt8) : Bytes size :=
  ⟨List.replicate size byte, List.length_replicate⟩

/-- Arrays are ordered lexicographically. -/
instance : Ord (Bytes size) where
  compare left right := compare left.toList right.toList

instance : TransOrd (Bytes size) where
  eq_swap {left right} := OrientedOrd.eq_swap (a := left.toList) (b := right.toList)
  isLE_trans {left middle right} first second :=
    TransOrd.isLE_trans (a := left.toList) (b := middle.toList) (c := right.toList) first second

instance : LawfulEqOrd (Bytes size) where
  compare_self {array} := ReflOrd.compare_self (a := array.toList)
  eq_of_compare {left right} same := by
    apply Bytes.ext
    exact LawfulEqOrd.eq_of_compare (a := left.toList) (b := right.toList) same

end Bytes

/-- The `count` low-order bytes of a number, least significant byte first. -/
def littleEndian : ℕ → ℕ → List UInt8
  | 0, _ => []
  | count + 1, value => UInt8.ofNat value :: littleEndian count (value / 256)

@[simp]
theorem length_littleEndian (count value : ℕ) : (littleEndian count value).length = count := by
  induction count generalizing value with
  | zero => rfl
  | succ count ih => simp [littleEndian, ih]

/-- The low-order bytes of a number determine it modulo their range. -/
theorem littleEndian_mod {count left right : ℕ}
    (same : littleEndian count left = littleEndian count right) :
    left % 256 ^ count = right % 256 ^ count := by
  induction count generalizing left right with
  | zero => simp [Nat.mod_one]
  | succ count ih =>
      simp only [littleEndian, List.cons.injEq] at same
      have low : left % 256 = right % 256 := by
        simpa using congrArg UInt8.toNat same.1
      have high := ih same.2
      rw [pow_succ', Nat.mod_mul, Nat.mod_mul, low, high]

theorem littleEndian_injective {count left right : ℕ} (left_lt : left < 256 ^ count)
    (right_lt : right < 256 ^ count) (same : littleEndian count left = littleEndian count right) :
    left = right := by
  have reduced := littleEndian_mod same
  rwa [Nat.mod_eq_of_lt left_lt, Nat.mod_eq_of_lt right_lt] at reduced

/-- A type with a uniquely readable binary layout. -/
class Borsh (α : Type) where
  /-- The bytes of a value. -/
  layout : α → List UInt8
  /-- Every sequence inside the value is short enough for its length prefix. -/
  fits : α → Bool
  /-- The bytes of a value cancel from the front of equal byte strings. -/
  layout_cancel : ∀ {left right : α} {rest rest' : List UInt8},
    fits left = true → fits right = true → layout left ++ rest = layout right ++ rest' →
      left = right ∧ rest = rest'

namespace Borsh

variable {α β : Type}

/-- The canonical encoding of a value, which panics when the value cannot be serialized. -/
def canonicalBytes [Borsh α] (value : α) : Checked (List UInt8) :=
  if fits value then .ok (layout value) else .error .encoding

theorem canonicalBytes_eq_ok [Borsh α] {value : α} {bytes : List UInt8} :
    canonicalBytes value = .ok bytes ↔ fits value = true ∧ layout value = bytes := by
  unfold canonicalBytes
  split <;> simp_all

theorem layout_injective [Borsh α] {left right : α} (left_fits : fits left = true)
    (right_fits : fits right = true) (same : layout left = layout right) : left = right := by
  have same_append : layout left ++ [] = layout right ++ [] := by rw [same]
  exact (layout_cancel left_fits right_fits same_append).1

/-- Values with the same canonical encoding are equal. -/
theorem canonicalBytes_injective [Borsh α] {left right : α} {bytes : List UInt8}
    (left_bytes : canonicalBytes left = .ok bytes)
    (right_bytes : canonicalBytes right = .ok bytes) : left = right := by
  rw [canonicalBytes_eq_ok] at left_bytes right_bytes
  exact layout_injective left_bytes.1 right_bytes.1 (left_bytes.2.trans right_bytes.2.symm)

/-- Equal strings whose fronts have the same length split into equal parts. -/
theorem fixed_cancel {front front' rest rest' : List UInt8}
    (length_eq : front.length = front'.length) (same : front ++ rest = front' ++ rest') :
    front = front' ∧ rest = rest' :=
  List.append_inj same length_eq

/-- Serialize a value as another one which determines it. -/
@[reducible]
def via [Borsh β] (view : α → β) (injective : Function.Injective view) : Borsh α where
  layout value := layout (view value)
  fits value := fits (view value)
  layout_cancel left_fits right_fits same := by
    obtain ⟨views, rests⟩ := layout_cancel left_fits right_fits same
    exact ⟨injective views, rests⟩

instance : Borsh UInt8 where
  layout byte := [byte]
  fits _ := true
  layout_cancel _ _ same := by simpa using same

instance {width : ℕ} : Borsh (BitVec width) where
  layout word := littleEndian ((width + 7) / 8) word.toNat
  fits _ := true
  layout_cancel {left right _ _} _ _ same := by
    obtain ⟨words, rests⟩ := fixed_cancel (by simp) same
    have range : 2 ^ width ≤ 256 ^ ((width + 7) / 8) := by
      rw [show 256 = 2 ^ 8 by norm_num, ← pow_mul]
      exact Nat.pow_le_pow_right (by norm_num) (by omega)
    refine ⟨BitVec.eq_of_toNat_eq ?_, rests⟩
    exact littleEndian_injective (left.isLt.trans_le range) (right.isLt.trans_le range) words

instance {size : ℕ} : Borsh (Bytes size) where
  layout array := array.toList
  fits _ := true
  layout_cancel {left right _ _} _ _ same := by
    obtain ⟨arrays, rests⟩ :=
      fixed_cancel (left.length_toList.trans right.length_toList.symm) same
    exact ⟨Bytes.ext arrays, rests⟩

instance [Borsh α] [Borsh β] : Borsh (α × β) where
  layout pair := layout pair.1 ++ layout pair.2
  fits pair := fits pair.1 && fits pair.2
  layout_cancel {left right _ _} left_fits right_fits same := by
    rw [Bool.and_eq_true] at left_fits right_fits
    rw [List.append_assoc, List.append_assoc] at same
    obtain ⟨firsts, same⟩ := layout_cancel left_fits.1 right_fits.1 same
    obtain ⟨seconds, rests⟩ := layout_cancel left_fits.2 right_fits.2 same
    exact ⟨Prod.ext firsts seconds, rests⟩

instance [Borsh α] : Borsh (Option α) where
  layout
    | none => [0]
    | some value => 1 :: layout value
  fits
    | none => true
    | some value => fits value
  layout_cancel {left right _ _} left_fits right_fits same := by
    cases left with
    | none => cases right <;> simp_all
    | some left =>
        cases right with
        | none => simp at same
        | some right =>
            rw [List.cons_append, List.cons_append, List.cons.injEq] at same
            obtain ⟨values, rests⟩ := layout_cancel left_fits right_fits same.2
            exact ⟨congrArg some values, rests⟩

/-- Concatenated element layouts of sequences of one length cancel. -/
theorem elements_cancel [Borsh α] {left right : List α} {rest rest' : List UInt8}
    (length_eq : left.length = right.length) (left_fits : left.all fits = true)
    (right_fits : right.all fits = true)
    (same : left.flatMap layout ++ rest = right.flatMap layout ++ rest') :
    left = right ∧ rest = rest' := by
  induction left generalizing right with
  | nil =>
      obtain rfl := List.length_eq_zero_iff.mp length_eq.symm
      exact ⟨rfl, by simpa using same⟩
  | cons head tail ih =>
      cases right with
      | nil => simp at length_eq
      | cons head' tail' =>
          simp only [List.all_cons, Bool.and_eq_true] at left_fits right_fits
          simp only [List.flatMap_cons, List.append_assoc] at same
          obtain ⟨rfl, tails⟩ := layout_cancel left_fits.1 right_fits.1 same
          obtain ⟨rfl, rests⟩ :=
            ih (by simpa using length_eq) left_fits.2 right_fits.2 tails
          exact ⟨rfl, rests⟩

instance [Borsh α] : Borsh (List α) where
  layout elements := littleEndian 4 elements.length ++ elements.flatMap layout
  fits elements := decide (elements.length < 2 ^ 32) && elements.all fits
  layout_cancel {left right _ _} left_fits right_fits same := by
    rw [Bool.and_eq_true, decide_eq_true_eq] at left_fits right_fits
    rw [List.append_assoc, List.append_assoc] at same
    obtain ⟨lengths, same⟩ := fixed_cancel (by simp) same
    have length_eq : left.length = right.length :=
      littleEndian_injective (left_fits.1.trans_le (by norm_num))
        (right_fits.1.trans_le (by norm_num)) lengths
    exact elements_cancel length_eq left_fits.2 right_fits.2 same

instance [Ord α] [TransOrd α] [Borsh α] [Borsh β] : Borsh (ExtTreeMap α β) :=
  via ExtTreeMap.toList fun _ _ => ExtTreeMap.toList_inj.mp

instance [Ord α] [TransOrd α] [LawfulEqOrd α] [Borsh α] : Borsh (ExtTreeSet α) :=
  via ExtTreeSet.toList fun _ _ => ExtTreeSet.toList_inj.mp

end Borsh
