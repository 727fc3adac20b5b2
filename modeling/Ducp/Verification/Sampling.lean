import Ducp.Library.Draw
import Ducp.Types

/-!
# Audit sampling

Whether a settled task is audited, and who re-executes it, is drawn from one digest of the block
hash and the task.  The two draws read different bytes of the digest, so that neither tells anything
about the other.
-/

namespace Ducp

/-! ## Draws -/

/-- One million, the denominator of the audit probability. -/
def samplingPpm : BitVec 128 := 1000000

/-- Multiply, and stay at the largest number instead of overflowing. -/
def saturatingMul (left right : BitVec 128) : BitVec 128 :=
  if left.toNat * right.toNat < 2 ^ 128 then left * right else BitVec.allOnes 128

/-- The digest which an audit is drawn from. -/
def auditSeed [Crypto] (blockHash : Hash) (task : TaskId) : Hash :=
  Crypto.hashBytes (blockHash.toList ++ task.toList)

/-- The first eight bytes of a digest. -/
def auditDraw (digest : Hash) : BitVec 64 :=
  BitVec.ofNat 64 (ofLittleEndian (digest.toList.take 8))

/-- The next eight bytes of a digest. -/
def reexecutorDraw (digest : Hash) : BitVec 64 :=
  BitVec.ofNat 64 (ofLittleEndian ((digest.toList.drop 8).take 8))

/-- Whether a draw falls below the audit probability. -/
def drawsAudit (digest : Hash) (auditProbPpm : BitVec 128) : Bool :=
  let threshold := saturatingMul auditProbPpm (BitVec.ofNat 128 (2 ^ 64)) / samplingPpm
  (auditDraw digest).setWidth 128 < threshold

/-- Whether a task is audited. -/
def isSampled [Crypto] (blockHash : Hash) (task : TaskId) (auditProbPpm : BitVec 128) : Bool :=
  drawsAudit (auditSeed blockHash task) auditProbPpm

/-- The position of the re-executor among the eligible others. -/
def drawnIndex (digest : Hash) (candidates : ℕ) : ℕ := (reexecutorDraw digest).toNat % candidates

/-- The eligible identities but one. -/
def reexecutors (eligible : List Identity) (exclude : Identity) : List Identity :=
  eligible.filter (· ≠ exclude)

/-- Who re-executes a task: one of the eligible, but not the excluded provider. -/
def selectReexecutor [Crypto] (blockHash : Hash) (task : TaskId) (eligible : List Identity)
    (exclude : Identity) : Option Identity :=
  let filtered := reexecutors eligible exclude
  if empty : filtered = [] then none
  else
    let index := drawnIndex (auditSeed blockHash task) filtered.length
    some (filtered.get ⟨index, Nat.mod_lt _ (List.length_pos_of_ne_nil empty)⟩)

/-! ## The threshold -/

variable {digest : Hash} {auditProbPpm : BitVec 128}

theorem toNat_auditDraw (digest : Hash) :
    (auditDraw digest).toNat = ofLittleEndian (digest.toList.take 8) := by
  have bounded := ofLittleEndian_lt (digest.toList.take 8)
  rw [List.length_take, digest.length_toList] at bounded
  exact (BitVec.toNat_ofNat _ _).trans (Nat.mod_eq_of_lt bounded)

theorem toNat_reexecutorDraw (digest : Hash) :
    (reexecutorDraw digest).toNat = ofLittleEndian ((digest.toList.drop 8).take 8) := by
  have bounded := ofLittleEndian_lt ((digest.toList.drop 8).take 8)
  rw [List.length_take, List.length_drop, digest.length_toList] at bounded
  exact (BitVec.toNat_ofNat _ _).trans (Nat.mod_eq_of_lt bounded)

/-- The threshold is exact: a product which saturates is past every draw. -/
theorem drawsAudit_iff :
    drawsAudit digest auditProbPpm = true ↔
      (auditDraw digest).toNat < auditProbPpm.toNat * 2 ^ 64 / 1000000 := by
  have draw_lt := (auditDraw digest).isLt
  have ppm_eq : samplingPpm.toNat = 1000000 := rfl
  have word_eq : (BitVec.ofNat 128 (2 ^ 64)).toNat = 2 ^ 64 := rfl
  rw [drawsAudit, decide_eq_true_iff, BitVec.lt_def, BitVec.toNat_udiv, ppm_eq,
    BitVec.toNat_setWidth, Nat.mod_eq_of_lt (by omega), saturatingMul, word_eq]
  split
  · rename_i fits
    rw [BitVec.toNat_mul, word_eq, Nat.mod_eq_of_lt fits]
  · rename_i overflows
    rw [BitVec.toNat_allOnes]
    omega

/-! ## Counting digests -/

/-- As many numbers as the smaller bound are below two bounds. -/
theorem count_lt (threshold bound : ℕ) : bound.count (· < threshold) = min threshold bound := by
  rw [Nat.count_eq_card_filter_range]
  have below : (Finset.range bound).filter (· < threshold) =
      Finset.range (min threshold bound) := by
    ext value
    simp [and_comm]
  rw [below, Finset.card_range]

/-- As many numbers below a bound leave one remainder as another, up to one. -/
theorem count_mod {divisor remainder : ℕ} (bound : ℕ) (small : remainder < divisor) :
    bound.count (· % divisor = remainder) =
      bound / divisor + if remainder < bound % divisor then 1 else 0 := by
  have counted := Nat.count_modEq_card bound (Nat.zero_lt_of_lt small) remainder
  simpa only [Nat.ModEq, Nat.mod_eq_of_lt small] using counted

/-- Over all digests, an audit and the position of the re-executor are independent. -/
theorem card_draws (auditProbPpm : BitVec 128) (picks : ℕ → Prop) [DecidablePred picks] :
    Nat.card {digest : Hash // drawsAudit digest auditProbPpm = true ∧
        picks (reexecutorDraw digest).toNat} =
      min (auditProbPpm.toNat * 2 ^ 64 / 1000000) (2 ^ 64) * ((2 ^ 64).count picks * 2 ^ 128) := by
  have words := @Bytes.card_words 8 8 16 (· < auditProbPpm.toNat * 2 ^ 64 / 1000000) picks _ _
  rw [show (256 : ℕ) ^ 8 = 2 ^ 64 by norm_num, show (256 : ℕ) ^ 16 = 2 ^ 128 by norm_num,
    count_lt] at words
  rw [← words]
  refine Nat.card_congr (Equiv.subtypeEquivRight fun digest => ?_)
  rw [drawsAudit_iff, toNat_auditDraw, toNat_reexecutorDraw]
  rfl

theorem mem_reexecutors {eligible : List Identity} {exclude worker : Identity} :
    worker ∈ reexecutors eligible exclude ↔ worker ∈ eligible ∧ worker ≠ exclude := by
  simp [reexecutors]

/-! ## Results -/

section Results

variable [Crypto]

/-- The audit probability is met exactly, to the last digest.  At zero nothing is audited, at one
million and above everything is, and raising it drops no audit. -/
theorem sampling_exact (auditProbPpm : BitVec 128) :
    Nat.card {digest : Hash // drawsAudit digest auditProbPpm = true} =
        min (auditProbPpm.toNat * 2 ^ 64 / 1000000) (2 ^ 64) * 2 ^ 192 ∧
      ∀ (blockHash : Hash) (task : TaskId),
        (auditProbPpm = 0 → isSampled blockHash task auditProbPpm = false) ∧
        (1000000 ≤ auditProbPpm → isSampled blockHash task auditProbPpm = true) ∧
        ∀ raised, auditProbPpm ≤ raised → isSampled blockHash task auditProbPpm = true →
          isSampled blockHash task raised = true := by
  constructor
  · have all := card_draws auditProbPpm fun _ => True
    simp only [and_true, Nat.count_true] at all
    rw [all]
    norm_num
  · intro blockHash task
    have draw_lt := (auditDraw (auditSeed blockHash task)).isLt
    refine ⟨?_, fun certain => ?_, fun raised higher sampled => ?_⟩
    · rintro rfl
      rw [isSampled, Bool.eq_false_iff, ne_eq, drawsAudit_iff]
      simp
    · refine drawsAudit_iff.mpr (draw_lt.trans_le ?_)
      rw [Nat.le_div_iff_mul_le (by norm_num), mul_comm]
      exact Nat.mul_le_mul_right _ certain
    · refine drawsAudit_iff.mpr ((drawsAudit_iff.mp sampled).trans_le ?_)
      exact Nat.div_le_div_right (Nat.mul_le_mul_right _ higher)

/-- Only the eligible others re-execute, and nobody does only when there are none.  Each position
among them is drawn by as many digests as any other, up to one draw, and independently of the
audit. -/
theorem reexecutor_fair (auditProbPpm : BitVec 128) (eligible : List Identity)
    (exclude : Identity) :
    (∀ blockHash task, selectReexecutor blockHash task eligible exclude = none ↔
      ∀ identity ∈ eligible, identity = exclude) ∧
    (∀ blockHash task worker, selectReexecutor blockHash task eligible exclude = some worker →
      worker ∈ eligible ∧ worker ≠ exclude) ∧
    ∀ position worker, (reexecutors eligible exclude)[position]? = some worker →
      (∀ blockHash task, drawnIndex (auditSeed blockHash task)
          (reexecutors eligible exclude).length = position →
        selectReexecutor blockHash task eligible exclude = some worker) ∧
      Nat.card {digest : Hash // drawsAudit digest auditProbPpm = true ∧
          drawnIndex digest (reexecutors eligible exclude).length = position} =
        min (auditProbPpm.toNat * 2 ^ 64 / 1000000) (2 ^ 64) *
          ((2 ^ 64 / (reexecutors eligible exclude).length +
            if position < 2 ^ 64 % (reexecutors eligible exclude).length then 1 else 0) *
              2 ^ 128) := by
  refine ⟨fun blockHash task => ?_, fun blockHash task worker selected => ?_,
    fun position worker found => ⟨fun blockHash task drawn => ?_, ?_⟩⟩
  · rw [selectReexecutor]
    split
    · rename_i empty
      simpa [reexecutors] using empty
    · rename_i others
      simpa [reexecutors] using others
  · rw [selectReexecutor] at selected
    split at selected
    · cases selected
    · obtain rfl := Option.some.inj selected
      exact mem_reexecutors.mp (List.get_mem _ _)
  · obtain ⟨inside, rfl⟩ := List.getElem?_eq_some_iff.mp found
    subst drawn
    exact dif_neg (List.ne_nil_of_length_pos (Nat.zero_lt_of_lt inside))
  · have inside := (List.getElem?_eq_some_iff.mp found).1
    rw [← count_mod _ inside]
    exact card_draws auditProbPpm (· % (reexecutors eligible exclude).length = position)

end Results

end Ducp
