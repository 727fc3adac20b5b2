import Ducp.Dvm
import Ducp.Library.Buffer

/-!
# The host functions

A guest reads its input, writes its output and gives up through four functions of the host.  It
chooses the arguments, and a signed word of it becomes an address by sign extension.  The range of
the memory is checked before it is taken; the range of the input is not.
-/

namespace Ducp

open Checked Buffer

/-- What the host keeps for one run. -/
structure HostState where
  input : Buffer
  output : List UInt8
  failCode : Option (BitVec 32)

namespace HostState

/-- The length of the input. -/
def inputLen (state : HostState) : BitVec 32 := state.input.len.setWidth 32

/-- Copy a part of the input into the memory of the guest, and return how much was copied. -/
def inputRead (memory : Option Buffer) (state : HostState) (dst offset len : BitVec 32) :
    Checked (BitVec 32 × Option Buffer) :=
  match memory with
  | none => return (0, none)
  | some data => do
      let dst := dst.signExtend 64
      let offset := offset.signExtend 64
      let len := len.signExtend 64
      let avail := saturatingSub state.input.len offset
      let n := lesser len avail
      match Checked.add? dst n with
      | some stop =>
          if stop ≤ data.len then
            let upper ← Checked.add offset n
            let chunk ← state.input.slice offset upper
            let data ← data.copyFromSlice dst stop chunk
            return (n.setWidth 32, some data)
          else return (0, some data)
      | none => return (0, some data)

/-- Append a part of the memory of the guest to the output. -/
def outputWrite (memory : Option Buffer) (state : HostState) (src len : BitVec 32) :
    Checked HostState :=
  match memory with
  | none => return state
  | some data => do
      let src := src.signExtend 64
      let len := len.signExtend 64
      match Checked.add? src len with
      | some stop =>
          if stop ≤ data.len then
            let chunk ← data.slice src stop
            return { state with output := state.output ++ chunk }
          else return state
      | none => return state

/-- Record the code with which the guest gives up. -/
def fail (state : HostState) (code : BitVec 32) : HostState := { state with failCode := some code }

/-! ## Panics -/

section Panics

variable {memory : Option Buffer} {data : Buffer} {state : HostState}
  {dst offset len src count : BitVec 32}

/-- A read panics at its slice of the input, when that starts past the end. -/
theorem inputRead_past_end (past : state.input.len < offset.signExtend 64)
    (addressable : dst.signExtend 64 ≤ data.len) :
    inputRead (some data) state dst offset len = .error .absent := by
  rw [BitVec.lt_def, toNat_len] at past
  -- nothing is left to copy, so that both ranges are empty
  have nothing : lesser (len.signExtend 64) (saturatingSub state.input.len (offset.signExtend 64))
      = 0 := by
    rw [← BitVec.toNat_inj, toNat_lesser, toNat_saturatingSub, toNat_len,
      Nat.sub_eq_zero_of_le past.le]
    exact Nat.min_zero _
  have stop : Checked.add? (dst.signExtend 64) 0 = some (dst.signExtend 64) :=
    add?_eq_some.mpr (by simp)
  have upper : Checked.add (offset.signExtend 64) 0 = .ok (offset.signExtend 64) :=
    add_eq_ok.mpr (by simp)
  simp only [inputRead, nothing, stop, addressable, if_true]
  exact bind_eq_error.mpr (.inr ⟨_, upper, bind_eq_error.mpr (.inl (slice_eq_error (by omega)))⟩)

/-- A read which would not fit the memory copies nothing. -/
theorem inputRead_declines {amount : BitVec 64}
    (amount_eq : lesser (len.signExtend 64)
      (saturatingSub state.input.len (offset.signExtend 64)) = amount)
    (beyond : data.bytes.length < (dst.signExtend 64).toNat + amount.toNat) :
    inputRead (some data) state dst offset len = .ok (0, some data) := by
  simp only [inputRead, amount_eq]
  split
  · rename_i stop ended
    have stop_eq := add?_eq_some.mp ended
    have unbounded : ¬stop ≤ data.len := by
      rw [BitVec.le_def, toNat_len]
      omega
    exact if_neg unbounded
  · rfl

/-- A read whose destination is past the memory copies nothing. -/
theorem inputRead_outside (outside : ¬dst.signExtend 64 ≤ data.len) :
    inputRead (some data) state dst offset len = .ok (0, some data) := by
  rw [BitVec.le_def, toNat_len] at outside
  exact inputRead_declines rfl (by omega)

/-- A read copies what is left of the input, as far as its length takes it, if that fits the memory
from its destination on. -/
theorem inputRead_copies {amount : BitVec 64}
    (amount_eq : lesser (len.signExtend 64)
      (saturatingSub state.input.len (offset.signExtend 64)) = amount)
    (within : (offset.signExtend 64).toNat + amount.toNat ≤ state.input.bytes.length)
    (fits : (dst.signExtend 64).toNat + amount.toNat ≤ data.bytes.length) :
    ∃ upper stop chunk copy, upper.toNat = (offset.signExtend 64).toNat + amount.toNat ∧
      stop.toNat = (dst.signExtend 64).toNat + amount.toNat ∧
      state.input.slice (offset.signExtend 64) upper = .ok chunk ∧
      data.copyFromSlice (dst.signExtend 64) stop chunk = .ok copy ∧
      inputRead (some data) state dst offset len = .ok (amount.setWidth 32, some copy) := by
  have input_fits := state.input.fits
  have data_fits := data.fits
  obtain ⟨upper, added, upper_eq⟩ := exists_add
    (show (offset.signExtend 64).toNat + amount.toNat < 2 ^ 64 by omega)
  obtain ⟨stop, _, stop_eq⟩ := exists_add
    (show (dst.signExtend 64).toNat + amount.toNat < 2 ^ 64 by omega)
  obtain ⟨chunk, sliced, chunk_length⟩ := exists_slice
    (show (offset.signExtend 64).toNat ≤ upper.toNat by omega) (upper_eq.trans_le within)
  obtain ⟨copy, copied⟩ := exists_copyFromSlice (stop_eq.trans_le fits)
    (show (dst.signExtend 64).toNat + chunk.length = stop.toNat by omega)
  have bounded : stop ≤ data.len := by
    rw [BitVec.le_def, toNat_len]
    exact stop_eq.trans_le fits
  have ended : Checked.add? (dst.signExtend 64) amount = some stop := add?_eq_some.mpr stop_eq
  refine ⟨upper, stop, chunk, copy, upper_eq, stop_eq, sliced, copied, ?_⟩
  simp only [inputRead, amount_eq, ended, bounded, if_true, bind_eq_ok]
  exact ⟨_, added, _, sliced, _, copied, rfl⟩

/-- A read which starts within the input returns. -/
theorem inputRead_within (within : offset.signExtend 64 ≤ state.input.len) :
    ∃ answer, inputRead (some data) state dst offset len = .ok answer := by
  rw [BitVec.le_def, toNat_len] at within
  obtain ⟨amount, amount_eq⟩ : ∃ amount, lesser (len.signExtend 64)
      (saturatingSub state.input.len (offset.signExtend 64)) = amount := ⟨_, rfl⟩
  have amount_le : (offset.signExtend 64).toNat + amount.toNat ≤ state.input.bytes.length := by
    rw [← amount_eq, toNat_lesser, toNat_saturatingSub, toNat_len]
    omega
  by_cases fits : (dst.signExtend 64).toNat + amount.toNat ≤ data.bytes.length
  · obtain ⟨_, _, _, copy, _, _, _, _, returned⟩ := inputRead_copies amount_eq amount_le fits
    exact ⟨_, returned⟩
  · exact ⟨_, inputRead_declines amount_eq (by omega)⟩

/-- A read panics if and only if it starts past the end of the input, with its destination in the
memory. -/
theorem inputRead_returns :
    (∃ answer, inputRead memory state dst offset len = .ok answer) ↔
      ∀ data, memory = some data → dst.signExtend 64 ≤ data.len →
        offset.signExtend 64 ≤ state.input.len := by
  cases memory with
  | none => exact ⟨fun _ data found => (by cases found), fun _ => ⟨_, rfl⟩⟩
  | some data =>
      constructor
      · rintro ⟨answer, returned⟩ found same addressable
        obtain rfl := Option.some.inj same
        by_contra past
        have failed : inputRead (some data) state dst offset len = .error .absent :=
          inputRead_past_end (BitVec.not_le.mp past) addressable
        simp [failed] at returned
      · intro within
        by_cases addressable : dst.signExtend 64 ≤ data.len
        · exact inputRead_within (within data rfl addressable)
        · exact ⟨_, inputRead_outside addressable⟩

/-- A write takes its slice within the memory. -/
theorem outputWrite_returns : ∃ next, outputWrite memory state src count = .ok next := by
  cases memory with
  | none => exact ⟨_, rfl⟩
  | some data =>
      simp only [outputWrite]
      split
      · rename_i stop ended
        have stop_eq := add?_eq_some.mp ended
        by_cases bounded : stop ≤ data.len
        · obtain ⟨chunk, sliced, _⟩ := exists_slice
            (show (src.signExtend 64).toNat ≤ stop.toNat by omega)
            (BitVec.le_def.mp bounded |>.trans_eq toNat_len)
          refine ⟨{ state with output := state.output ++ chunk }, ?_⟩
          simp only [bounded, if_true, bind_eq_ok]
          exact ⟨chunk, sliced, rfl⟩
        · exact ⟨_, if_neg bounded⟩
      · exact ⟨_, rfl⟩

/-- The host functions return on every argument if and only if the read of the input starts within
it, or has its destination past the memory. -/
theorem host_calls_return_iff :
    ((∃ answer, inputRead memory state dst offset len = .ok answer) ∧
        ∃ next, outputWrite memory state src count = .ok next) ↔
      ∀ data, memory = some data → dst.signExtend 64 ≤ data.len →
        offset.signExtend 64 ≤ state.input.len := by
  rw [inputRead_returns]
  exact and_iff_left outputWrite_returns

end Panics

/-- A memory of one page. -/
def Sample.page : Buffer := ⟨List.replicate 65536 0, by rw [List.length_replicate]; decide⟩

/-- A run without input. -/
def Sample.inputless : HostState := ⟨⟨[], by decide⟩, [], none⟩

/-- A guest which reads nothing from position one of an empty input panics the host. -/
theorem empty_read_panics :
    inputRead (some Sample.page) Sample.inputless 0 1 0 = .error .absent := by
  have start : ((0 : BitVec 32).signExtend 64).toNat = 0 := by decide
  exact inputRead_past_end (by decide) (BitVec.le_def.mpr (start.trans_le (Nat.zero_le _)))

end HostState

end Ducp
