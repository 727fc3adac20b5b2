import Ducp.Ledger.Faults
import Ducp.Ledger.Phases

/-!
# Cross-map consistency

The joint invariant of the maps and sets which describe the tasks, read off the phases.  It keeps
every `expect` and every index of the transitions away from a missing value.
-/

namespace Ducp

open MapSum Outcome Std

/-- The task is settled, or it has failed after it was settled. -/
def Concluded (s : State) (task : TaskId) : Prop :=
  ∃ sub, s.tasks[task]? = some sub ∧ (sub.status = .settled ∨ sub.status = .failed)

/-- The maps and sets describe the same tasks. -/
structure Consistent [Crypto] (s : State) : Prop where
  bodies : ∀ task : TaskId, task ∈ s.bodies ↔ task ∈ s.tasks
  body_id : ∀ (task : TaskId) (body : TaskBody), s.bodies[task]? = some body →
    body.taskId = .ok task
  task_id : ∀ (task : TaskId) (sub : Submission), s.tasks[task]? = some sub → sub.task = task
  status : ∀ (task : TaskId) (sub : Submission), s.tasks[task]? = some sub →
    sub.status = .submitted ∨ sub.status = .executing ∨ sub.status = .settled ∨
      sub.status = .failed
  provider : ∀ (task : TaskId) (sub : Submission), s.tasks[task]? = some sub →
    (sub.provider = none ↔ sub.status = .submitted)
  receipts : ∀ task : TaskId, task ∈ s.receipts ↔ Concluded s task
  proofs : ∀ task : TaskId, task ∈ s.proofs ↔ Concluded s task
  qLedger : ∀ task : TaskId, task ∈ s.qLedger ↔ Concluded s task
  slashed : ∀ task : TaskId, task ∈ s.slashed ↔
    ∃ sub : Submission, s.tasks[task]? = some sub ∧ sub.status = .failed
  pendingChallenges : ∀ task : TaskId, task ∈ s.pendingChallenges → task ∈ s.receipts
  released : ∀ task : TaskId, task ∈ s.released → task ∈ s.receipts
  agrees : ∀ (task : TaskId) (receipt : Receipt), s.receipts[task]? = some receipt →
    ∃ (body : TaskBody) (sub : Submission) (proof : ComputeProof) (entry : QLedgerEntry),
      s.bodies[task]? = some body ∧ s.tasks[task]? = some sub ∧
      s.proofs[task]? = some proof ∧ s.qLedger[task]? = some entry ∧
      receipt.paidToProvider = proof.ucuCount ∧ proof.ucuCount = sub.ucuCount ∧
      sub.ucuCount = entry.ucu ∧ entry.ucu ≤ body.limits.maxUcu ∧
      some proof.provider = sub.provider ∧ receipt.validatorFee = sub.fee

namespace Phase

variable [Crypto] {task : TaskId} {view : View}

theorem body_iff (phase : Phase task view) : view.body.isSome ↔ view.sub.isSome := by
  cases phase <;> simp

/-- The body of a known task is stored. -/
theorem exists_body (phase : Phase task view) {sub : Submission} (found : view.sub = some sub) :
    ∃ body, view.body = some body := by
  rw [← Option.isSome_iff_exists, phase.body_iff, found]
  rfl

theorem body_id (phase : Phase task view) {body : TaskBody} (found : view.body = some body) :
    body.taskId = .ok task := by
  cases phase <;> simp_all

theorem task_id (phase : Phase task view) {sub : Submission} (found : view.sub = some sub) :
    sub.task = task := by
  cases phase <;> simp_all

theorem status (phase : Phase task view) {sub : Submission} (found : view.sub = some sub) :
    sub.status = .submitted ∨ sub.status = .executing ∨ sub.status = .settled ∨
      sub.status = .failed := by
  cases phase <;> simp_all

theorem provider (phase : Phase task view) {sub : Submission} (found : view.sub = some sub) :
    sub.provider = none ↔ sub.status = .submitted := by
  cases phase with
  | absent => cases found
  | submitted _ _ _ _ => simp_all
  | executing _ _ _ _ => simp_all
  | settled _ _ _ agrees =>
      have claimed := agrees.provider
      simp_all
  | failed _ _ _ agrees =>
      have claimed := agrees.provider
      simp_all

/-- A task is concluded exactly when it has a receipt, a proof and an efficiency entry. -/
theorem concluded_iff (phase : Phase task view) :
    (view.receipt.isSome ↔
      ∃ sub, view.sub = some sub ∧ (sub.status = .settled ∨ sub.status = .failed)) ∧
    (view.proof.isSome ↔ view.receipt.isSome) ∧ (view.entry.isSome ↔ view.receipt.isSome) := by
  cases phase <;> simp_all

theorem slashed_iff (phase : Phase task view) :
    view.slashed ↔ ∃ sub, view.sub = some sub ∧ sub.status = .failed := by
  cases phase <;> simp_all

theorem receipted (phase : Phase task view) (touched : view.pending.isSome ∨ view.released) :
    view.receipt.isSome := by
  cases phase <;> simp_all

theorem known_of_pending (phase : Phase task view) {pc : ChallengeRecord}
    (pending : view.pending = some pc) : ∃ sub, view.sub = some sub := by
  cases phase <;> simp_all

theorem agreement (phase : Phase task view) {receipt : Receipt}
    (found : view.receipt = some receipt) :
    ∃ body sub proof entry, view.body = some body ∧ view.sub = some sub ∧
      view.proof = some proof ∧ view.entry = some entry ∧
      Agrees body sub proof receipt entry := by
  cases phase with
  | absent => cases found
  | submitted _ _ _ _ => cases found
  | executing _ _ _ _ => cases found
  | settled _ _ _ agrees =>
      obtain rfl := Option.some.inj found
      exact ⟨_, _, _, _, rfl, rfl, rfl, rfl, agrees⟩
  | failed _ _ _ agrees =>
      obtain rfl := Option.some.inj found
      exact ⟨_, _, _, _, rfl, rfl, rfl, rfl, agrees⟩

end Phase

theorem InPhase.consistent [Crypto] {s : State} (phases : InPhase s) : Consistent s where
  bodies task := by
    rw [ExtTreeMap.mem_iff_isSome_getElem?, ExtTreeMap.mem_iff_isSome_getElem?]
    exact (phases task).body_iff
  body_id task _ found := (phases task).body_id found
  task_id task _ found := (phases task).task_id found
  status task _ found := (phases task).status found
  provider task _ found := (phases task).provider found
  receipts task := by
    rw [ExtTreeMap.mem_iff_isSome_getElem?]
    exact (phases task).concluded_iff.1
  proofs task := by
    rw [ExtTreeMap.mem_iff_isSome_getElem?]
    exact (phases task).concluded_iff.2.1.trans (phases task).concluded_iff.1
  qLedger task := by
    rw [ExtTreeMap.mem_iff_isSome_getElem?]
    exact (phases task).concluded_iff.2.2.trans (phases task).concluded_iff.1
  slashed task := (phases task).slashed_iff
  pendingChallenges task := by
    simp only [ExtTreeMap.mem_iff_isSome_getElem?]
    exact fun pending => (phases task).receipted (.inl pending)
  released task := by
    rw [ExtTreeMap.mem_iff_isSome_getElem?]
    exact fun released => (phases task).receipted (.inr released)
  agrees task receipt found := by
    obtain ⟨body, sub, proof, entry, body_eq, sub_eq, proof_eq, entry_eq, agrees⟩ :=
      (phases task).agreement found
    refine ⟨body, sub, proof, entry, body_eq, sub_eq, proof_eq, entry_eq, agrees.paid,
      agrees.counted.symm, agrees.counted.trans agrees.measured.symm, ?_, agrees.provider.symm,
      agrees.validatorFee⟩
    rw [agrees.measured]
    exact agrees.within

/-- Only known tasks have receipts, so that a sum over the receipts is one over the tasks. -/
theorem InPhase.total_receipts [Crypto] {M : Type} [AddCommMonoid M] {s : State}
    (phases : InPhase s) (amount : TaskId → Receipt → M) :
    total amount s.receipts = total (fun task _ => weight amount s.receipts task) s.tasks := by
  apply total_congr
  intro task
  cases found : s.tasks[task]? with
  | some sub => rw [weight_of_some found]
  | none =>
      rw [weight_of_none found]
      cases receipt_eq : s.receipts[task]? with
      | none => exact weight_of_none receipt_eq
      | some receipt =>
          obtain ⟨_, sub, _, _, _, sub_eq, _⟩ := (phases task).agreement receipt_eq
          cases found.symm.trans sub_eq

/-! ## No missing value -/

namespace State

variable {s : State} {params : Params} {task : TaskId}

theorem settle_present {body : TaskBody} {sub : Submission} {proof : ComputeProof}
    (found : proof.task ∈ s.tasks) :
    Checked.Avoids .absent (s.settle body sub proof params) := by
  simp [settle]
  intro drained drain_eq pooled pool_eq paid paid_eq w _ issued issued_eq minted minted_eq delta _
    accrued accrued_eq _ _
  have moves := (drainEscrow_moves drain_eq).2.trans (creditPool_moves pool_eq)
    |>.trans (credit_moves paid_eq) |>.trans (credit_moves issued_eq)
  obtain ⟨accounts, supply, feePool, rfl⟩ := moves.exists_funds
  obtain ⟨_, _, rfl⟩ := countMinted_eq_ok.mp minted_eq
  obtain ⟨_, _, rfl⟩ := accrue_eq_ok.mp accrued_eq
  exact found

theorem claimTask_present {provider : Identity} :
    (s.claimTask provider task params).Avoids .absent := by
  simp [claimTask]
  intro _ _ sub sub_eq _ _ stake _ _ moved locked
  obtain ⟨accounts, supply, feePool, rfl⟩ := (lock_moves locked).exists_funds
  exact (mem_iff_exists s.tasks task).mpr ⟨sub, sub_eq⟩

theorem submitProof_present {author : Identity} {proof : ComputeProof} :
    (s.submitProof author proof params).Avoids .absent := by
  simp [submitProof]
  intro _ _ sub sub_eq _ _ _ _ _
  refine ⟨(mem_iff_exists s.tasks proof.task).mpr ⟨sub, sub_eq⟩, fun verified _ => ?_⟩
  apply settle_present
  exact ExtTreeMap.mem_insert_self

theorem resolveFraud_present {rewardTo : Option Identity} :
    Checked.Avoids .absent (s.resolveFraud task rewardTo params) := by
  unfold resolveFraud
  split
  · simp
  · split
    · rename_i provider_eq
      obtain ⟨sub, sub_eq, _⟩ := Option.bind_eq_some_iff.mp provider_eq
      simpa using (mem_iff_exists s.tasks task).mpr ⟨sub, sub_eq⟩
    · simp

theorem resolveChallenge_present {fraud : Bool} :
    Checked.Avoids .absent (s.resolveChallenge task fraud params) := by
  unfold resolveChallenge
  split
  · simp
  · split <;> simp [resolveFraud_present]

theorem advanceEpoch_present : Checked.Avoids .absent (s.advanceEpoch params) := by
  simp [advanceEpoch, decayStanding]
  intro epoch _
  refine ⟨Checked.avoids_foldlM fun records entry => by simp, fun ticked _ => ?_⟩
  exact Checked.avoids_foldlM fun before matured => by simp [release]

theorem apply_present [Crypto] {stx : SignedTx} : (s.apply stx params).Avoids .absent := by
  simp [apply, checkAndBumpNonce]
  intro _ _ next _
  cases stx.tx with
  | submitTask body => simp [applyTx, submitTask]
  | claimTask task => exact claimTask_present
  | submitProof proof => exact submitProof_present
  | challenge task bond => simp [applyTx, openChallenge]
  | transfer recipient amount => simp [applyTx, transfer]

end State

/-- No operation, in any state, looks up a missing value. -/
theorem exec_present [Crypto] (s : State) (op : Op) : (op.exec s).Avoids .absent := by
  cases op with
  | apply stx params => exact State.apply_present
  | advanceEpoch params => exact avoids_lift.mpr State.advanceEpoch_present
  | resolveFraud task rewardTo params => exact avoids_lift.mpr State.resolveFraud_present
  | resolveChallenge task fraud params => exact avoids_lift.mpr State.resolveChallenge_present

/-- A reachable state is consistent, and no operation on it meets a missing value. -/
theorem reachable_consistent [Crypto] {s : State} (reachable : Reachable s) :
    Consistent s ∧ ∀ op : Op, (op.exec s).Avoids .absent :=
  ⟨reachable.inPhase.consistent, exec_present s⟩

section Sample

open Sample

attribute [local instance] Crypto.checksum

theorem reachable_consistent_slashed : ∃ s, slashed = some s ∧ task 0 ∈ s.slashed ∧
    Consistent s ∧ ∀ op : Op, (op.exec s).Avoids .absent := by
  have failed : slashed.any (fun s => task 0 ∈ s.slashed) = true := by decide +kernel
  obtain ⟨s, ran, failed⟩ := (Option.any_eq_true _ _).mp failed
  exact ⟨s, ran, of_decide_eq_true failed, reachable_consistent (reachable_of_outcomeOf ran)⟩

end Sample

end Ducp
