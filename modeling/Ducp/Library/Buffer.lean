import Ducp.Library.Checked

/-!
# Byte arrays

A byte array takes less than half of the address space, so that its length is a machine word.  A
range of it is given by two machine words, and faults unless it is ordered and within the array.
-/

/-- A byte array which fits half of the address space. -/
structure Buffer where
  bytes : List UInt8
  fits : bytes.length < 2 ^ 63

namespace Buffer

variable {buffer : Buffer} {start stop : BitVec 64} {chunk : List UInt8}

/-- The length as a machine word. -/
def len (buffer : Buffer) : BitVec 64 := .ofNat 64 buffer.bytes.length

@[simp]
theorem toNat_len : buffer.len.toNat = buffer.bytes.length := by
  have fits := buffer.fits
  rw [len, BitVec.toNat_ofNat, Nat.mod_eq_of_lt (by omega)]

/-- `buffer[start..stop]`. -/
def slice (buffer : Buffer) (start stop : BitVec 64) : Checked (List UInt8) :=
  if start ≤ stop ∧ stop ≤ buffer.len then
    .ok ((buffer.bytes.take stop.toNat).drop start.toNat)
  else .error .absent

theorem slice_eq_ok :
    buffer.slice start stop = .ok chunk ↔
      start.toNat ≤ stop.toNat ∧ stop.toNat ≤ buffer.bytes.length ∧
        (buffer.bytes.take stop.toNat).drop start.toNat = chunk := by
  simp only [slice, BitVec.le_def, toNat_len]
  split <;> rename_i within
  · simp [within]
  · simp only [reduceCtorEq, false_iff]
    exact fun found => within ⟨found.1, found.2.1⟩

/-- A range of an array is within it, or faults. -/
theorem slice_eq_error (outside : ¬(start.toNat ≤ stop.toNat ∧ stop.toNat ≤ buffer.bytes.length)) :
    buffer.slice start stop = .error .absent := by
  simp only [slice, BitVec.le_def, toNat_len]
  exact if_neg outside

/-- An ordered range within the array is taken, and has its own length. -/
theorem exists_slice (ordered : start.toNat ≤ stop.toNat)
    (bounded : stop.toNat ≤ buffer.bytes.length) :
    ∃ chunk, buffer.slice start stop = .ok chunk ∧ start.toNat + chunk.length = stop.toNat := by
  refine ⟨_, slice_eq_ok.mpr ⟨ordered, bounded, rfl⟩, ?_⟩
  rw [List.length_drop, List.length_take]
  omega

/-- `buffer[start..stop].copy_from_slice(chunk)`, which faults on a chunk of another length. -/
def copyFromSlice (buffer : Buffer) (start stop : BitVec 64) (chunk : List UInt8) :
    Checked Buffer :=
  if within : (start ≤ stop ∧ stop ≤ buffer.len) ∧ start.toNat + chunk.length = stop.toNat then
    .ok {
      bytes := buffer.bytes.take start.toNat ++ chunk ++ buffer.bytes.drop stop.toNat
      fits := by
        have fits := buffer.fits
        obtain ⟨⟨ordered, bounded⟩, exactly⟩ := within
        rw [BitVec.le_def] at ordered bounded
        rw [toNat_len] at bounded
        simp only [List.length_append, List.length_take, List.length_drop]
        omega }
  else .error .absent

/-- A chunk is copied over a range of its length. -/
theorem exists_copyFromSlice (bounded : stop.toNat ≤ buffer.bytes.length)
    (exactly : start.toNat + chunk.length = stop.toNat) :
    ∃ result, buffer.copyFromSlice start stop chunk = .ok result := by
  have within : (start ≤ stop ∧ stop ≤ buffer.len) ∧ start.toNat + chunk.length = stop.toNat := by
    rw [BitVec.le_def, BitVec.le_def, toNat_len]
    exact ⟨⟨by omega, bounded⟩, exactly⟩
  exact ⟨_, dif_pos within⟩

/-- A copy replaces one part of the array by another of the same length. -/
theorem of_copyFromSlice {result : Buffer}
    (copied : buffer.copyFromSlice start stop chunk = .ok result) :
    ∃ front old back, buffer.bytes = front ++ old ++ back ∧ result.bytes = front ++ chunk ++ back ∧
      old.length = chunk.length ∧ front.length = start.toNat ∧
      (front ++ chunk).length = stop.toNat := by
  unfold copyFromSlice at copied
  split at copied
  · rename_i within
    obtain rfl := Except.ok.inj copied
    obtain ⟨⟨_, bounded⟩, exactly⟩ := within
    rw [BitVec.le_def, toNat_len] at bounded
    refine ⟨buffer.bytes.take start.toNat, (buffer.bytes.drop start.toNat).take chunk.length,
      buffer.bytes.drop stop.toNat, ?_, rfl, ?_, ?_, ?_⟩
    · rw [← exactly, ← List.drop_drop, List.append_assoc, List.take_append_drop,
        List.take_append_drop]
    all_goals
      simp only [List.length_append, List.length_take, List.length_drop]
      omega
  · cases copied

theorem copyFromSlice_length {result : Buffer}
    (copied : buffer.copyFromSlice start stop chunk = .ok result) :
    result.bytes.length = buffer.bytes.length := by
  obtain ⟨front, old, back, before, after, same, _, _⟩ := of_copyFromSlice copied
  simp only [before, after, List.length_append, same]

/-- The range holds the chunk. -/
theorem copyFromSlice_window {result : Buffer}
    (copied : buffer.copyFromSlice start stop chunk = .ok result) :
    (result.bytes.take stop.toNat).drop start.toNat = chunk := by
  obtain ⟨front, old, back, _, after, _, start_eq, stop_eq⟩ := of_copyFromSlice copied
  rw [after, List.take_left' stop_eq, List.drop_left' start_eq]

/-- Nothing outside the range is changed. -/
theorem copyFromSlice_outside {result : Buffer} {i : ℕ}
    (copied : buffer.copyFromSlice start stop chunk = .ok result)
    (outside : i < start.toNat ∨ stop.toNat ≤ i) : result.bytes[i]? = buffer.bytes[i]? := by
  obtain ⟨front, old, back, before, after, same, start_eq, stop_eq⟩ := of_copyFromSlice copied
  have old_stop : (front ++ old).length = stop.toNat := by
    rw [← stop_eq, List.length_append, List.length_append, same]
  rw [before, after]
  rcases outside with ahead | behind
  · rw [List.append_assoc, List.append_assoc, List.getElem?_append_left (by omega),
      List.getElem?_append_left (by omega)]
  · rw [List.getElem?_append_right (by omega), List.getElem?_append_right (by omega), stop_eq,
      old_stop]

end Buffer
