import Ducp.Ledger.Arithmetic

/-!
# What the ledger accepts

A transaction is rejected for a reason.  These are the guards which a payload has to pass, in terms
of the records and the balances it meets.
-/

namespace Ducp

open MapSum Outcome Std

section Acceptance

variable [Crypto] {s : State} {params : Params} {reason : Reject}

/-- A signed transaction with the next nonce is not rejected, when its payload is not. -/
theorem State.apply_accepts {stx : SignedTx} (verified : stx.verifySig = .ok true)
    (expected : stx.nonce = (s.nonces[stx.author]?).getD 0)
    (accepts : ∀ next : BitVec 64, ¬(({ s with
      nonces := s.nonces.insert stx.author next } : State).applyTx stx.author params
        stx.tx).Rejects reason) :
    ¬(s.apply stx params).Rejects reason := by
  simp only [State.apply, State.checkAndBumpNonce, verified, ← expected]
  simp
  exact fun next _ => accepts next

/-- A new task which can be paid for is not rejected. -/
theorem State.submitTask_accepts {requester : Identity} {body : TaskBody} {task : TaskId}
    {fee : Ucu} (supported : body.tier = .sampledReexec) (taskId : body.taskId = .ok task)
    (fresh : s.tasks[task]? = none) (fee_eq : params.fee body.limits.maxUcu = .ok fee)
    (funded : body.limits.maxUcu.toNat + fee.toNat ≤ (s.acct requester).balance.toNat) :
    ¬(s.submitTask requester body params).Rejects reason := by
  have wasm : body.ir = .wasm := by cases body.ir; rfl
  have unknown : task ∉ s.tasks := (notMem_iff_eq_none s.tasks task).mpr fresh
  have bounded := (s.acct requester).balance.isLt
  obtain ⟨need, need_eq, need_toNat⟩ :
      ∃ need, Checked.add body.limits.maxUcu fee = .ok need ∧ _ := Checked.exists_add (by omega)
  have added : Checked.add? body.limits.maxUcu fee = some need :=
    Checked.add?_eq_some.mpr need_toNat
  have covered : ¬(s.acct requester).balance < need := by
    rw [BitVec.lt_def]
    omega
  simp [State.submitTask, wasm, supported, taskId, unknown, fee_eq, added, covered]

omit [Crypto] in
/-- A submitted task is not refused to a provider who can post its stake before its deadline. -/
theorem State.claimTask_accepts {provider : Identity} {task : TaskId} {body : TaskBody}
    {sub : Submission} (body_eq : s.bodies[task]? = some body) (sub_eq : s.tasks[task]? = some sub)
    (submitted : sub.status = .submitted) (deadline : s.epoch ≤ body.deadline)
    (funded : ∀ stake, params.claimStake body.limits.maxUcu (s.standingOf provider) = .ok stake →
      stake ≤ (s.acct provider).balance) :
    ¬(s.claimTask provider task params).Rejects reason := by
  have open_yet : ¬body.deadline < s.epoch := BitVec.not_lt.mpr deadline
  simp [State.claimTask, body_eq, sub_eq, submitted, open_yet]
  exact fun _ stake stake_eq short => (BitVec.not_lt.mpr (funded stake stake_eq) short).elim

omit [Crypto] in
/-- A proof of the provider within the ceiling of the task is not rejected. -/
theorem State.submitProof_accepts {author : Identity} {proof : ComputeProof} {body : TaskBody}
    {sub : Submission} (body_eq : s.bodies[proof.task]? = some body)
    (sub_eq : s.tasks[proof.task]? = some sub) (executing : sub.status = .executing)
    (provider : sub.provider = some author) (prover : proof.provider = author)
    (within : proof.ucuCount ≤ body.limits.maxUcu) (benchmark : proof.benchmark = body.benchmark) :
    ¬(s.submitProof author proof params).Rejects reason := by
  have counted : ¬body.limits.maxUcu < proof.ucuCount := BitVec.not_lt.mpr within
  simp [State.submitProof, body_eq, sub_eq, executing, provider, prover, benchmark, counted]

omit [Crypto] in
/-- A stake is at most half of the ceiling. -/
theorem claimStake_le {maxUcu stake : Ucu} {sp : Sp}
    (stake_eq : Params.devnet.claimStake maxUcu sp = .ok stake) :
    stake.toNat ≤ maxUcu.toNat / 2 := by
  obtain ⟨base, base_eq, rest⟩ := Checked.bind_eq_ok.mp stake_eq
  obtain ⟨reduction, _, rest⟩ := Checked.bind_eq_ok.mp rest
  obtain ⟨kept, kept_eq, stake_eq⟩ := Checked.bind_eq_ok.mp rest
  have remaining := Checked.sub_eq_ok.mp kept_eq
  rw [ppm_toNat] at remaining
  have halved := (ppmOf_eq_ok.mp base_eq).2
  rw [show Params.devnet.stakeBasePpm.toNat = 500000 from rfl] at halved
  have stake_le := ppmOf_le stake_eq (by omega)
  omega

end Acceptance

end Ducp
