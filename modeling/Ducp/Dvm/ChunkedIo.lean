import Ducp.Dvm.HostAbi
import Ducp.Library.Run

/-!
# Input and output in chunks

A guest which reads its input piece by piece, writes every piece back, and stops at the first empty
one.  Whatever the lengths and the places of the pieces, it stops, and the output is the input.
-/

namespace Ducp

open Checked Buffer

/-! ## The guest -/

/-- A place in the memory of the guest, as two signed words. -/
structure Chunk where
  dst : BitVec 32
  len : BitVec 32

/-- The chunk has a positive length and lies in a memory of the size, from a non-negative address
on. -/
structure Chunk.Within (chunk : Chunk) (size : ℕ) : Prop where
  dst : 0 ≤ chunk.dst.toInt
  len : 0 < chunk.len.toInt
  bounded : chunk.dst.toNat + chunk.len.toNat ≤ size

/-- The next `n` bytes of the input were copied to the start of the chunk, and nothing else
changed in the memory. -/
structure Chunk.Copied (chunk : Chunk) (input : List UInt8) (offset n : ℕ) (before after : Buffer) :
    Prop where
  within_input : offset + n ≤ input.length
  within_chunk : n ≤ chunk.len.toNat
  length_eq : after.bytes.length = before.bytes.length
  window : (after.bytes.take (chunk.dst.toNat + n)).drop chunk.dst.toNat =
    (input.take (offset + n)).drop offset
  outside : ∀ i, i < chunk.dst.toNat ∨ chunk.dst.toNat + n ≤ i → after.bytes[i]? = before.bytes[i]?

/-- A guest in its loop: its memory, what the host keeps for it, and its position in the input. -/
structure Guest where
  memory : Option Buffer
  host : HostState
  offset : BitVec 32

namespace Guest

/-- At the start of the input, with nothing written. -/
def start (memory input : Buffer) : Guest := ⟨some memory, ⟨input, [], none⟩, 0⟩

/-- Read a chunk, write what was read, and go on behind it.  The addition of the guest wraps. -/
def round (guest : Guest) (chunk : Chunk) : Checked (BitVec 32 × Guest) := do
  let (n, memory) ← guest.host.inputRead guest.memory chunk.dst guest.offset chunk.len
  let host ← guest.host.outputWrite memory chunk.dst n
  return (n, { memory, host, offset := guest.offset + n })

/-- The loop, for at most so many rounds, the next one being the given one: the guest after the
first empty read, or nothing when there was none. -/
def loop (chunks : ℕ → Chunk) : ℕ → ℕ → Guest → Checked (Option Guest)
  | 0, _, _ => return none
  | rounds + 1, index, guest => do
      let (n, guest) ← guest.round (chunks index)
      if n = 0 then
        return some guest
      else
        loop chunks rounds (index + 1) guest

end Guest

/-! ## One round -/

/-- A non-negative word is extended by zeros. -/
theorem toNat_signExtend_of_lt {word : BitVec 32} (small : word.toNat < 2 ^ 31) :
    (word.signExtend 64).toNat = word.toNat := by
  have msb : word.msb = false := BitVec.msb_eq_false_iff_two_mul_lt.mpr (by omega)
  rw [BitVec.signExtend_eq_setWidth_of_msb_false msb, BitVec.toNat_setWidth]
  exact Nat.mod_eq_of_lt (by omega)

theorem toNat_lt_of_toInt_nonneg {word : BitVec 32} (nonneg : 0 ≤ word.toInt) :
    word.toNat < 2 ^ 31 := by
  rw [BitVec.toInt_eq_toNat_cond] at nonneg
  have range := word.isLt
  split at nonneg <;> omega

namespace HostState

variable {state : HostState} {data : Buffer} {chunk : Chunk} {offset : BitVec 32}

/-- A read within the input copies what is left of it, as far as the chunk takes it. -/
theorem inputRead_chunk (within : chunk.Within data.bytes.length)
    (short : state.input.bytes.length < 2 ^ 31)
    (started : offset.toNat ≤ state.input.bytes.length) :
    ∃ n copy, inputRead (some data) state chunk.dst offset chunk.len = .ok (n, some copy) ∧
      n.toNat = min chunk.len.toNat (state.input.bytes.length - offset.toNat) ∧
      chunk.Copied state.input.bytes offset.toNat n.toNat data copy := by
  have dst_eq := toNat_signExtend_of_lt (toNat_lt_of_toInt_nonneg within.dst)
  have len_eq := toNat_signExtend_of_lt (toNat_lt_of_toInt_nonneg within.len.le)
  have offset_eq := toNat_signExtend_of_lt (started.trans_lt short)
  obtain ⟨amount, amount_def⟩ : ∃ amount, lesser (chunk.len.signExtend 64)
      (saturatingSub state.input.len (offset.signExtend 64)) = amount := ⟨_, rfl⟩
  have amount_eq : amount.toNat =
      min chunk.len.toNat (state.input.bytes.length - offset.toNat) := by
    rw [← amount_def, toNat_lesser, toNat_saturatingSub, toNat_len, len_eq, offset_eq]
  have amount_le : amount.toNat ≤ chunk.len.toNat := amount_eq.trans_le (min_le_left ..)
  have amount_left : offset.toNat + amount.toNat ≤ state.input.bytes.length := by
    have left : amount.toNat ≤ state.input.bytes.length - offset.toNat :=
      amount_eq.trans_le (min_le_right ..)
    omega
  have narrowed : (amount.setWidth 32).toNat = amount.toNat := by
    rw [BitVec.toNat_setWidth]
    exact Nat.mod_eq_of_lt (amount_le.trans_lt chunk.len.isLt)
  have fits : (chunk.dst.signExtend 64).toNat + amount.toNat ≤ data.bytes.length := by
    rw [dst_eq]
    exact (Nat.add_le_add_left amount_le _).trans within.bounded
  obtain ⟨upper, stop, piece, copy, upper_eq, stop_eq, sliced, copied, returned⟩ :=
    inputRead_copies amount_def (by rwa [offset_eq]) fits
  have window := copyFromSlice_window copied
  rw [← (slice_eq_ok.mp sliced).2.2, stop_eq, upper_eq, dst_eq, offset_eq] at window
  refine ⟨amount.setWidth 32, copy, returned, by rw [narrowed, amount_eq], ?_⟩
  rw [narrowed]
  exact {
    within_input := amount_left
    within_chunk := amount_le
    length_eq := copyFromSlice_length copied
    window := window
    outside := fun i outside => copyFromSlice_outside copied (by rwa [stop_eq, dst_eq]) }

/-- A write within the memory appends what lies there to the output. -/
theorem outputWrite_chunk {dst n : BitVec 32} (nonneg : 0 ≤ dst.toInt) (small : n.toNat < 2 ^ 31)
    (bounded : dst.toNat + n.toNat ≤ data.bytes.length) :
    outputWrite (some data) state dst n = .ok
      { state with
        output := state.output ++ (data.bytes.take (dst.toNat + n.toNat)).drop dst.toNat } := by
  have dst_eq := toNat_signExtend_of_lt (toNat_lt_of_toInt_nonneg nonneg)
  have n_eq := toNat_signExtend_of_lt small
  have data_fits := data.fits
  have stop_eq : (dst.signExtend 64 + n.signExtend 64).toNat = dst.toNat + n.toNat := by
    rw [BitVec.toNat_add_of_lt (by omega), dst_eq, n_eq]
  have ended : Checked.add? (dst.signExtend 64) (n.signExtend 64) =
      some (dst.signExtend 64 + n.signExtend 64) :=
    add?_eq_some.mpr (by rw [stop_eq, dst_eq, n_eq])
  have fits : dst.signExtend 64 + n.signExtend 64 ≤ data.len := by
    rw [BitVec.le_def, stop_eq, toNat_len]
    exact bounded
  have sliced : data.slice (dst.signExtend 64) (dst.signExtend 64 + n.signExtend 64) =
      .ok ((data.bytes.take (dst.toNat + n.toNat)).drop dst.toNat) := by
    rw [slice_eq_ok, stop_eq, dst_eq]
    exact ⟨by omega, bounded, rfl⟩
  simp only [outputWrite, ended, fits, if_true, bind_eq_ok]
  exact ⟨_, sliced, rfl⟩

end HostState

namespace Guest

/-! ## The invariant of the loop -/

/-- The output is the part of the input before the position, and the memory has kept its size. -/
structure Copying (input : Buffer) (size : ℕ) (guest : Guest) : Prop where
  memory_eq : ∃ data, guest.memory = some data ∧ data.bytes.length = size
  input_eq : guest.host.input = input
  started : guest.offset.toNat ≤ input.bytes.length
  output_eq : guest.host.output = input.bytes.take guest.offset.toNat

variable {input : Buffer} {size : ℕ} {guest : Guest} {chunk : Chunk}

/-- A round copies what is left of the input, as far as the chunk takes it, and moves on by as
much. -/
theorem Copying.round_returns (copying : Copying input size guest) (within : chunk.Within size)
    (short : input.bytes.length < 2 ^ 31) :
    ∃ n after before_data after_data, guest.round chunk = .ok (n, after) ∧
      n.toNat = min chunk.len.toNat (input.bytes.length - guest.offset.toNat) ∧
      after.offset.toNat = guest.offset.toNat + n.toNat ∧ Copying input size after ∧
      guest.memory = some before_data ∧ after.memory = some after_data ∧
      chunk.Copied input.bytes guest.offset.toNat n.toNat before_data after_data := by
  obtain ⟨⟨data, present, size_eq⟩, rfl, started, output_eq⟩ := copying
  subst size_eq
  obtain ⟨n, copy, read, n_eq, copied⟩ := HostState.inputRead_chunk within short started
  have bounded := within.bounded
  have written : HostState.outputWrite (some copy) guest.host chunk.dst n = .ok _ :=
    HostState.outputWrite_chunk within.dst (by omega) (by rw [copied.length_eq]; omega)
  have within_input := copied.within_input
  have moved : (guest.offset + n).toNat = guest.offset.toNat + n.toNat :=
    BitVec.toNat_add_of_lt (by omega)
  let host : HostState :=
    { guest.host with
      output := guest.host.output ++
        (copy.bytes.take (chunk.dst.toNat + n.toNat)).drop chunk.dst.toNat }
  refine ⟨n, ⟨some copy, host, guest.offset + n⟩, data, copy, ?_, n_eq, moved, ?_, present, rfl,
    copied⟩
  · simp only [Guest.round, present, bind_eq_ok]
    exact ⟨_, read, _, written, rfl⟩
  · refine ⟨⟨copy, rfl, copied.length_eq⟩, rfl, ?_, ?_⟩
    · rw [moved]
      exact within_input
    · simp only [host, moved, output_eq, copied.window]
      rw [List.drop_take, Nat.add_sub_cancel_left, List.take_add]

/-! ## Whole loops -/

/-- A round which reads something, and after which the guest goes on. -/
def Reads (before : Guest) (chunk : Chunk) (after : Guest) : Prop :=
  ∃ n, before.round chunk = .ok (n, after) ∧ n ≠ 0

/-- The rounds over chunks within the memory keep the invariant. -/
theorem Copying.of_run {chunks : List Chunk} {before : Guest} (copying : Copying input size guest)
    (short : input.bytes.length < 2 ^ 31) (within : ∀ chunk ∈ chunks, chunk.Within size)
    (run : Run Reads guest chunks before) : Copying input size before := by
  revert within
  refine run.traced (fun chunks before => (∀ chunk ∈ chunks, chunk.Within size) →
    Copying input size before) (fun _ => copying) ?_
  rintro earlier before chunk after ih ⟨n, returned, _⟩ within
  have held := ih fun chunk member => within chunk (List.mem_append_left _ member)
  obtain ⟨_, next, _, _, rounded, _, _, kept, _⟩ :=
    held.round_returns (within chunk (by simp)) short
  rw [returned] at rounded
  obtain ⟨rfl, rfl⟩ := Prod.mk.inj (Except.ok.inj rounded)
  exact kept

/-- The loop ends at the end of the input: every round before the last one reads something, so that
there are not more of them than bytes which are left. -/
theorem Copying.loop_ends {chunks : ℕ → Chunk} (copying : Copying input size guest)
    (short : input.bytes.length < 2 ^ 31) (within : ∀ index, (chunks index).Within size)
    (index : ℕ) {rounds : ℕ} (enough : input.bytes.length - guest.offset.toNat < rounds) :
    ∃ final, loop chunks rounds index guest = .ok (some final) ∧ Copying input size final ∧
      final.offset.toNat = input.bytes.length := by
  induction rounds generalizing guest index with
  | zero => omega
  | succ rounds ih =>
      obtain ⟨n, after, _, _, rounded, n_eq, moved, kept, _⟩ :=
        copying.round_returns (within index) short
      have started := copying.started
      have positive := (within index).len
      have len_eq : (chunks index).len.toNat ≠ 0 := by
        intro zero
        rw [BitVec.eq_of_toNat_eq (y := 0) zero] at positive
        exact absurd positive (by decide)
      simp only [Guest.loop, bind_eq_ok]
      by_cases empty : n = 0
      · subst empty
        have stopped : min (chunks index).len.toNat (input.bytes.length - guest.offset.toNat) = 0 :=
          n_eq.symm
        refine ⟨after, ⟨_, rounded, if_pos rfl⟩, kept, ?_⟩
        rw [moved]
        change guest.offset.toNat + 0 = _
        omega
      · have advanced : n.toNat ≠ 0 := fun zero => empty (BitVec.eq_of_toNat_eq zero)
        obtain ⟨final, looped, done⟩ := ih kept (index + 1) (by omega)
        exact ⟨final, ⟨_, rounded, (if_neg empty).trans looped⟩, done⟩

theorem copying_start {memory : Buffer} :
    Copying input memory.bytes.length (start memory input) :=
  ⟨⟨memory, rfl, rfl⟩, rfl, Nat.zero_le _, rfl⟩

/-- Over chunks of any lengths in the memory the loop ends with the input as its output.  Every
round of it copies a part of the input to its chunk, and changes the memory nowhere else. -/
theorem chunked_copy_lossless {memory : Buffer} {chunks : ℕ → Chunk}
    (short : input.bytes.length < 2 ^ 31)
    (within : ∀ index, (chunks index).Within memory.bytes.length) :
    (∀ rounds, input.bytes.length < rounds →
      ∃ final, loop chunks rounds 0 (start memory input) = .ok (some final) ∧
        final.host.output = input.bytes) ∧
    ∀ index before, Run Reads (start memory input) ((List.range index).map chunks) before →
      ∃ n after before_data after_data, before.round (chunks index) = .ok (n, after) ∧
        before.memory = some before_data ∧ after.memory = some after_data ∧
        (chunks index).Copied input.bytes before.offset.toNat n.toNat before_data after_data := by
  constructor
  · intro rounds enough
    obtain ⟨final, looped, copied, ended⟩ := copying_start.loop_ends short within 0
      (show input.bytes.length - 0 < rounds by omega)
    refine ⟨final, looped, ?_⟩
    rw [copied.output_eq, ended, List.take_length]
  · intro index before run
    have copying := copying_start.of_run short
      (fun chunk member => by
        obtain ⟨earlier, _, rfl⟩ := List.mem_map.mp member
        exact within earlier) run
    obtain ⟨n, after, before_data, after_data, rounded, _, _, _, copied⟩ :=
      copying.round_returns (within index) short
    exact ⟨n, after, before_data, after_data, rounded, copied⟩

/-- Three bytes in chunks of two. -/
theorem chunked_copy_lossless_halves :
    ∃ final, loop (fun _ => ⟨16, 2⟩) 4 0 (start HostState.Sample.page ⟨[1, 2, 3], by decide⟩) =
        .ok (some final) ∧ final.host.output = [1, 2, 3] := by
  refine (chunked_copy_lossless (by decide) fun _ => ⟨by decide, by decide, ?_⟩).1 4 (by decide)
  rw [HostState.Sample.page, List.length_replicate]
  decide

end Guest

end Ducp
