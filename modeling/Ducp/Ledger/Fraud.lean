import Ducp.Ledger.Lifecycle

/-!
# What a proven fraud costs

A provider claims a task, settles a proof for some amount and is convicted, with nothing else
touching its account.  The clawback and the fine are drawn from what it has bonded, so the fraud
leaves it worse off exactly when the payment is not larger than that bond.
-/

namespace Ducp

open DoubleEntry MapSum Outcome Std
open Finsupp (single single_apply)

/-- What an account holds outside escrow. -/
def State.wealth (s : State) (id : Identity) : ℕ :=
  (s.acct id).balance.toNat + (s.acct id).bonded.toNat

/-- An accepted operation which leaves an account as it is. -/
def QuietStep [Crypto] (id : Identity) (s : State) (op : Op) (s' : State) : Prop :=
  Step s op s' ∧ s'.acct id = s.acct id

/-- An operation resolves a task as fraud and rewards nobody or someone else. -/
inductive Convicting (s : State) (provider : Identity) (task : TaskId) : Op → Prop
  | audit {rewardTo : Option Identity} : rewardTo ≠ some provider →
      Convicting s provider task (.resolveFraud task rewardTo .devnet)
  | challenge {pc : ChallengeRecord} : s.pendingChallenges[task]? = some pc →
      pc.challenger ≠ provider →
      Convicting s provider task (.resolveChallenge task true .devnet)

/-- A claim, a proof and a conviction of one provider under the devnet parameters, with only quiet
steps between them. -/
structure FraudRun [Crypto] (provider : Identity) (task : TaskId) where
  start : State
  claiming : State
  claimed : State
  proving : State
  proved : State
  convicting : State
  final : State
  claim : SignedTx
  prove : SignedTx
  proof : ComputeProof
  convict : Op
  sub : Submission
  reachable : Reachable start
  sub_eq : start.tasks[task]? = some sub
  submitted : sub.status = .submitted
  requester : sub.requester ≠ provider
  before_claim : ∃ ops, Run (QuietStep provider) start ops claiming
  claim_author : claim.author = provider
  claim_tx : claim.tx = .claimTask task
  claim_step : Step claiming (.apply claim .devnet) claimed
  before_proof : ∃ ops, Run (QuietStep provider) claimed ops proving
  prove_author : prove.author = provider
  prove_tx : prove.tx = .submitProof proof
  proof_task : proof.task = task
  prove_step : Step proving (.apply prove .devnet) proved
  before_conviction : ∃ ops, Run (QuietStep provider) proved ops convicting
  convicts : Convicting convicting provider task convict
  convict_step : Step convicting convict final
  unslashed : task ∉ convicting.slashed
  slashed : task ∈ final.slashed

section Steps

variable [Crypto] {s s' : State} {provider : Identity} {task : TaskId}

theorem quiet_run {ops : List Op} (run : Run (QuietStep provider) s ops s') :
    Run Step s ops s' ∧ s'.acct provider = s.acct provider := by
  refine ⟨run.mono fun _ _ _ _ quiet => quiet.1, ?_⟩
  exact run.invariant (fun state => state.acct provider = s.acct provider) rfl
    fun same quiet => quiet.2.trans same

/-- A claim moves the stake from the balance to the bond of its author. -/
theorem claim_step_account {stx : SignedTx} {params : Params} (author : stx.author = provider)
    (tx_eq : stx.tx = .claimTask task) (step : Step s (.apply stx params) s') :
    ∃ sub, s'.tasks[task]? = some sub ∧
      (s'.acct provider).balance.toNat + sub.claimStake.toNat =
        (s.acct provider).balance.toNat ∧
      (s'.acct provider).bonded.toNat =
        (s.acct provider).bonded.toNat + sub.claimStake.toNat := by
  cases step.effect with
  | apply _ _ _ payload =>
      rw [tx_eq, author] at payload
      cases payload with
      | @claimTask _ body sub stake _ claims =>
          have found := congrArg View.sub (claims.view task)
          rw [if_pos rfl] at found
          have balance := claims.posts.apply (.balance provider)
          have bonded := claims.posts.apply (.bonded provider)
          simp at balance bonded
          exact ⟨_, found, balance, bonded⟩

/-- A settled proof pays its author the amount and the issuance. -/
theorem prove_step_account {stx : SignedTx} {params : Params} {proof : ComputeProof}
    (author : stx.author = provider) (tx_eq : stx.tx = .submitProof proof)
    (step : Step s (.apply stx params) s')
    (requester : ∀ sub, s.tasks[proof.task]? = some sub → sub.requester ≠ provider) :
    ∃ receipt sub, s'.receipts[proof.task]? = some receipt ∧ s'.tasks[proof.task]? = some sub ∧
      receipt.paidToProvider = proof.ucuCount ∧ sub.provider = some provider ∧
      sub.requester ≠ provider ∧
      (s'.acct provider).balance.toNat = (s.acct provider).balance.toNat +
        proof.ucuCount.toNat + receipt.workIssuance.toNat ∧
      (s'.acct provider).bonded.toNat = (s.acct provider).bonded.toNat := by
  cases step.effect with
  | apply _ _ _ payload =>
      rw [tx_eq, author] at payload
      cases payload with
      | @submitProof _ body sub receipt record _ settles =>
          have viewed := settles.view proof.task
          rw [if_pos rfl] at viewed
          have apart := requester sub settles.sub_eq
          have balance := settles.posts.apply (.balance provider)
          have bonded := settles.posts.apply (.bonded provider)
          simp [apart] at balance bonded
          refine ⟨receipt, _, congrArg View.receipt viewed, congrArg View.sub viewed,
            settles.paid, settles.provider, apart, ?_, bonded⟩
          rw [balance, ← add_assoc]
          rfl

end Steps

/-! ## The conviction -/

/-- The fine under the devnet parameters is twice the payment. -/
theorem devnet_fine {paid fine : Ucu} (fine_eq : Params.devnet.fine paid = .ok fine) :
    fine.toNat = 2 * paid.toNat := by
  obtain ⟨_, quotient⟩ := ppmOf_eq_ok.mp fine_eq
  have rate : Params.devnet.fineMultPpm.toNat = 2000000 := rfl
  rw [rate] at quotient
  omega

/-- An account has lost the issuance, the clawback and the devnet fine, as far as they are there. -/
structure Penalized (s : State) (id : Identity) (receipt : Receipt) (s' : State) : Prop where
  balance : (s'.acct id).balance.toNat +
      min receipt.workIssuance.toNat (s.acct id).balance.toNat = (s.acct id).balance.toNat
  bonded : (s'.acct id).bonded.toNat +
      (min receipt.paidToProvider.toNat (s.acct id).bonded.toNat +
        min (2 * receipt.paidToProvider.toNat) ((s.acct id).bonded.toNat -
          min receipt.paidToProvider.toNat (s.acct id).bonded.toNat)) =
    (s.acct id).bonded.toNat

section Conviction

variable {s s' : State} {provider : Identity} {task : TaskId} {receipt : Receipt}
  {sub : Submission}

/-- A slashing of an account which neither asked for the task nor is rewarded. -/
theorem Slashes.penalized {rewardTo : Option Identity} {penalty : Penalty}
    {record : StandingRecord}
    (slashes : Slashes s task rewardTo .devnet receipt sub provider penalty record s')
    (requester : sub.requester ≠ provider) (unrewarded : rewardTo ≠ some provider) :
    Penalized s provider receipt s' := by
  obtain ⟨moved, penalizes, moved_eq⟩ := slashes.penalizes
  have acct_eq : s'.acct provider = moved.acct provider := by rw [moved_eq]; rfl
  have elsewhere : (single (rewardBucket rewardTo) penalty.reward) (.balance provider) = 0 := by
    cases rewardTo with
    | none => simp [rewardBucket]
    | some id =>
        have distinct : id ≠ provider := fun same => unrewarded (congrArg some same)
        simp [rewardBucket, distinct]
  have unbonded : (single (rewardBucket rewardTo) penalty.reward) (.bonded provider) = 0 := by
    cases rewardTo <;> simp [rewardBucket]
  have balance := penalizes.posts.apply (.balance provider)
  have bonded := penalizes.posts.apply (.bonded provider)
  simp [elsewhere, unbonded, requester] at balance bonded
  have burned := penalizes.burnW_eq
  rw [if_neg requester, add_zero] at burned
  have fined := penalizes.fineAvail_eq
  rw [devnet_fine penalizes.fine_eq] at fined
  constructor
  · rw [acct_eq, ← burned]
    exact balance
  · rw [acct_eq, ← penalizes.recovered_eq, ← fined]
    exact bonded

theorem Convicts.penalized {rewardTo : Option Identity}
    (convicts : Convicts s task rewardTo .devnet s') (unslashed : task ∉ s.slashed)
    (receipt_eq : s.receipts[task]? = some receipt) (sub_eq : s.tasks[task]? = some sub)
    (claimed : sub.provider = some provider) (requester : sub.requester ≠ provider)
    (unrewarded : rewardTo ≠ some provider) :
    Penalized s provider receipt s' := by
  obtain ⟨_, _, slashes⟩ := convicts.slashes receipt_eq sub_eq claimed unslashed
  exact slashes.penalized requester unrewarded

/-- The step which convicts a provider penalizes its account. -/
theorem Convicting.penalized [Crypto] {op : Op} (convicts : Convicting s provider task op)
    (step : Step s op s') (unslashed : task ∉ s.slashed)
    (receipt_eq : s.receipts[task]? = some receipt) (sub_eq : s.tasks[task]? = some sub)
    (claimed : sub.provider = some provider) (requester : sub.requester ≠ provider) :
    Penalized s provider receipt s' := by
  cases convicts with
  | audit unrewarded =>
      cases step.effect with
      | resolveFraud convicts =>
          exact convicts.penalized unslashed receipt_eq sub_eq claimed requester unrewarded
  | @challenge pc pending distinct =>
      cases step.effect with
      | resolveChallenge closes =>
          cases closes with
          | idle absent => simp [pending] at absent
          | @won found convicted _ found_eq convicts moves =>
              obtain rfl : pc = found := Option.some.inj (pending.symm.trans found_eq)
              let closed : State :=
                { s with pendingChallenges := s.pendingChallenges.erase task }
              have penalized : Penalized closed provider receipt convicted :=
                Convicts.penalized convicts unslashed receipt_eq sub_eq claimed requester
                  fun same => distinct (Option.some.inj same)
              have balance := moves.posts.apply (.balance provider)
              have bonded := moves.posts.apply (.bonded provider)
              simp [distinct] at balance bonded
              constructor
              · rw [balance]
                exact penalized.balance
              · rw [bonded]
                exact penalized.bonded

end Conviction

/-! ## The whole run -/

/-- A convicted provider ends with what it had, plus the payment, less what the clawback and the
fine find in its bond. -/
theorem FraudRun.wealth_eq [Crypto] {provider : Identity} {task : TaskId}
    (fraud : FraudRun provider task) :
    ∃ sub, fraud.claimed.tasks[task]? = some sub ∧
      let backing := (fraud.start.acct provider).bonded.toNat + sub.claimStake.toNat
      let u := fraud.proof.ucuCount.toNat
      fraud.final.wealth provider + (min u backing + min (2 * u) (backing - min u backing)) =
        fraud.start.wealth provider + u := by
  obtain ⟨ops, quiet⟩ := fraud.before_claim
  obtain ⟨run_claiming, acct_claiming⟩ := quiet_run quiet
  obtain ⟨ops', quiet'⟩ := fraud.before_proof
  obtain ⟨run_proving, acct_proving⟩ := quiet_run quiet'
  obtain ⟨ops'', quiet''⟩ := fraud.before_conviction
  obtain ⟨run_convicting, acct_convicting⟩ := quiet_run quiet''
  have claiming := fraud.reachable.run run_claiming
  have proving := (claiming.step fraud.claim_step).run run_proving
  have proved := proving.step fraud.prove_step
  have asked : ∀ sub, fraud.proving.tasks[fraud.proof.task]? = some sub →
      sub.requester ≠ provider := by
    intro sub found
    rw [fraud.proof_task] at found
    have extended := (lifecycle fraud.reachable).2 _ _
      ((run_claiming.snoc fraud.claim_step).trans run_proving) task
    obtain ⟨sub', found', requester, _⟩ := extended.sub fraud.sub fraud.sub_eq
    obtain rfl : sub = sub' := Option.some.inj (found.symm.trans found')
    rw [requester]
    exact fraud.requester
  obtain ⟨claimed_sub, claimed_eq, claim_balance, claim_bonded⟩ :=
    claim_step_account fraud.claim_author fraud.claim_tx fraud.claim_step
  obtain ⟨receipt, sub, receipt_eq, sub_eq, paid, claimed, requester, prove_balance,
    prove_bonded⟩ := prove_step_account fraud.prove_author fraud.prove_tx fraud.prove_step asked
  rw [fraud.proof_task] at receipt_eq sub_eq
  have settled_on := (lifecycle proved).2 _ _ run_convicting task
  obtain ⟨sub', sub_eq', requester_eq, _, kept⟩ := settled_on.sub sub sub_eq
  have penalized := fraud.convicts.penalized fraud.convict_step fraud.unslashed
    (settled_on.receipt receipt receipt_eq) sub_eq' (by rw [(kept (by simp [claimed])).1, claimed])
    (by rwa [requester_eq])
  have balance := penalized.balance
  have bonded := penalized.bonded
  rw [acct_convicting, paid] at bonded
  rw [acct_convicting] at balance
  refine ⟨claimed_sub, claimed_eq, ?_⟩
  rw [acct_claiming] at claim_balance claim_bonded
  rw [acct_proving] at prove_balance prove_bonded
  rw [prove_bonded, claim_bonded] at bonded
  simp only [State.wealth]
  omega

/-- A proven fraud is unprofitable exactly when the payment does not exceed what the provider has
bonded once it has claimed the task. -/
theorem fraud_unprofitable_iff [Crypto] {provider : Identity} {task : TaskId}
    (fraud : FraudRun provider task) :
    ∃ sub, fraud.claimed.tasks[task]? = some sub ∧
      (fraud.final.wealth provider ≤ fraud.start.wealth provider ↔
        fraud.proof.ucuCount.toNat ≤
          (fraud.start.acct provider).bonded.toNat + sub.claimStake.toNat) := by
  obtain ⟨sub, sub_eq, wealth_eq⟩ := fraud.wealth_eq
  refine ⟨sub, sub_eq, ?_⟩
  dsimp only at wealth_eq
  omega

/-! ## The burn of the issuance -/

/-- What the burn of an issuance can draw on: the balance of the provider, with what the clawback
returns to it when it has requested the task itself. -/
def State.burnable (s : State) (sub : Submission) (provider : Identity) (receipt : Receipt) : ℕ :=
  (s.acct provider).balance.toNat +
    if sub.requester = provider then
      min receipt.paidToProvider.toNat (s.acct provider).bonded.toNat
    else 0

/-- What a fine finds in the bond of the provider after the clawback. -/
def State.finable (s : State) (provider : Identity) (receipt : Receipt) (fine : Ucu) : ℕ :=
  min fine.toNat ((s.acct provider).bonded.toNat -
    min receipt.paidToProvider.toNat (s.acct provider).bonded.toNat)

/-- A slashing burns the issuance, as far as the spendable funds of the provider go, and what the
fine finds beyond the reward. -/
theorem Slashes.burned {s s' : State} {task : TaskId} {rewardTo : Option Identity}
    {params : Params} {receipt : Receipt} {sub : Submission} {provider : Identity}
    {penalty : Penalty} {record : StandingRecord}
    (slashes : Slashes s task rewardTo params receipt sub provider penalty record s') :
    s'.supply.burned.toNat = s.supply.burned.toNat +
      min receipt.workIssuance.toNat (s.burnable sub provider receipt) +
      (s.finable provider receipt penalty.fine -
        min penalty.rewardCap.toNat (s.finable provider receipt penalty.fine)) := by
  obtain ⟨moved, penalizes, moved_eq⟩ := slashes.penalizes
  have supply_eq : s'.supply = moved.supply := by rw [moved_eq]
  have unrewarded : (single (rewardBucket rewardTo) penalty.reward) Bucket.burned = 0 := by
    cases rewardTo <;> simp [rewardBucket]
  have burned := penalizes.posts.apply .burned
  simp [unrewarded] at burned
  have recovered := penalizes.recovered_eq
  have burnable : s.burnable sub provider receipt =
      (s.acct provider).balance.toNat +
        if sub.requester = provider then penalty.recovered else 0 := by
    rw [State.burnable, recovered]
  have finable : s.finable provider receipt penalty.fine = penalty.fineAvail := by
    rw [State.finable, ← recovered, penalizes.fineAvail_eq]
  rw [supply_eq, burned, burnable, finable, ← penalizes.burnW_eq, ← penalizes.reward_eq]
  omega

/-- A fraud resolution of a receipted, unslashed task burns its issuance from the spendable funds of
the provider alone, whoever is rewarded; it burns all of it when these funds cover it. -/
theorem issuance_burned {s s' : State} {task : TaskId} {rewardTo : Option Identity}
    {params : Params} {receipt : Receipt} {sub : Submission} {provider : Identity}
    (receipt_eq : s.receipts[task]? = some receipt) (sub_eq : s.tasks[task]? = some sub)
    (provider_eq : sub.provider = some provider) (unslashed : task ∉ s.slashed)
    (resolved : s.resolveFraud task rewardTo params = .ok s') :
    (∃ fine cap, params.fine receipt.paidToProvider = .ok fine ∧
      params.challengerReward fine = .ok cap ∧
      s'.supply.burned.toNat = s.supply.burned.toNat +
        min receipt.workIssuance.toNat (s.burnable sub provider receipt) +
        (s.finable provider receipt fine - min cap.toNat (s.finable provider receipt fine))) ∧
    (receipt.workIssuance.toNat ≤ s.burnable sub provider receipt →
      s.supply.burned.toNat + receipt.workIssuance.toNat ≤ s'.supply.burned.toNat) := by
  obtain ⟨penalty, _, slashes⟩ :=
    (State.resolveFraud_effect resolved).slashes receipt_eq sub_eq provider_eq unslashed
  obtain ⟨moved, penalizes, _⟩ := slashes.penalizes
  have burned := slashes.burned
  refine ⟨⟨penalty.fine, penalty.rewardCap, penalizes.fine_eq, penalizes.rewardCap_eq, burned⟩,
    fun covered => ?_⟩
  rw [min_eq_left covered] at burned
  omega

section Sample

open Sample

attribute [local instance] Crypto.checksum

/-- The sample settlement followed by an audit is a fraud run of the sample provider. -/
theorem exists_fraudRun {ucuCount : Ucu} {final : State}
    (ran : outcomeOf allocations 0
      (settled ucuCount ++ [.resolveFraud (task 0) none .devnet]) = some final)
    (unslashed : (outcomeOf allocations 0 (settled ucuCount)).any
      (fun s => task 0 ∉ s.slashed) = true)
    (slashed : task 0 ∈ final.slashed) :
    ∃ fraud : FraudRun bob (task 0), fraud.final = final ∧ fraud.proof = proof 0 ucuCount ∧
      outcomeOf allocations 0 ((settled ucuCount).take 1) = some fraud.start ∧
      outcomeOf allocations 0 ((settled ucuCount).take 2) = some fraud.claimed := by
  obtain ⟨proved, proved_ran, convict_step⟩ := outcomeOf_snoc ran
  rw [proved_ran, Option.any_some, decide_eq_true_eq] at unslashed
  have split : settled ucuCount = (settled ucuCount).take 2 ++
    [sent bob 1 (.submitProof (proof 0 ucuCount))] := rfl
  rw [split] at proved_ran
  obtain ⟨claimed, claimed_ran, prove_step⟩ := outcomeOf_snoc proved_ran
  have split' : (settled ucuCount).take 2 = (settled ucuCount).take 1 ++
    [sent bob 0 (.claimTask (task 0))] := rfl
  have claim_ran := claimed_ran
  rw [split'] at claim_ran
  obtain ⟨start, start_ran, claim_step⟩ := outcomeOf_snoc claim_ran
  have submitted : (outcomeOf allocations 0 [sent alice 0 (.submitTask (body 0))]).any
      (fun s => (s.tasks[task 0]?).any fun sub =>
        sub.status = .submitted ∧ sub.requester ≠ bob) = true := by decide +kernel
  rw [show outcomeOf allocations 0 [sent alice 0 (.submitTask (body 0))] = some start from
    start_ran, Option.any_some, Option.any_eq_true] at submitted
  obtain ⟨sub, sub_eq, opened⟩ := submitted
  obtain ⟨status, requester⟩ := of_decide_eq_true opened
  exact ⟨{ start, claiming := start, claimed, proving := claimed, proved, convicting := proved,
           final, claim := _, prove := _, proof := proof 0 ucuCount, convict := _, sub
           reachable := reachable_of_outcomeOf start_ran
           sub_eq, submitted := status, requester
           before_claim := ⟨[], .nil⟩
           claim_author := rfl, claim_tx := rfl, claim_step
           before_proof := ⟨[], .nil⟩
           prove_author := rfl, prove_tx := rfl, proof_task := rfl, prove_step
           before_conviction := ⟨[], .nil⟩
           convicts := .audit (by simp)
           convict_step, unslashed, slashed }, rfl, rfl, start_ran, claimed_ran⟩

/-- A provider which is paid the whole ceiling keeps half of it after its conviction. -/
theorem fraud_profitable : ∃ fraud : FraudRun bob (task 0),
    fraud.start.wealth bob = 10000 ∧ fraud.final.wealth bob = 10500 := by
  have richer : (outcomeOf allocations 0
      (settled 1000 ++ [.resolveFraud (task 0) none .devnet])).any
      (fun s => task 0 ∈ s.slashed ∧ s.wealth bob = 10500) = true := by decide +kernel
  have started : (outcomeOf allocations 0 ((settled 1000).take 1)).any
      (fun s => s.wealth bob = 10000) = true := by decide +kernel
  obtain ⟨final, ran, richer⟩ := (Option.any_eq_true _ _).mp richer
  obtain ⟨slashed, final_wealth⟩ := of_decide_eq_true richer
  obtain ⟨fraud, rfl, _, start_ran, _⟩ := exists_fraudRun ran (by decide +kernel) slashed
  rw [start_ran, Option.any_some, decide_eq_true_eq] at started
  exact ⟨fraud, started, final_wealth⟩

theorem fraud_unprofitable_iff_audited : ∃ fraud : FraudRun bob (task 0),
    fraud.proof.ucuCount = 400 ∧ ∃ sub, fraud.claimed.tasks[task 0]? = some sub ∧
      (fraud.final.wealth bob ≤ fraud.start.wealth bob ↔
        fraud.proof.ucuCount.toNat ≤
          (fraud.start.acct bob).bonded.toNat + sub.claimStake.toNat) := by
  have convicted : (outcomeOf allocations 0
      (settled 400 ++ [.resolveFraud (task 0) none .devnet])).any
      (fun s => task 0 ∈ s.slashed) = true := by decide +kernel
  obtain ⟨final, ran, slashed⟩ := (Option.any_eq_true _ _).mp convicted
  obtain ⟨fraud, _, proof_eq, _⟩ :=
    exists_fraudRun ran (by decide +kernel) (of_decide_eq_true slashed)
  exact ⟨fraud, by rw [proof_eq]; rfl, fraud_unprofitable_iff fraud⟩

/-- A provider which has spent its balance keeps the issuance in circulation, although its bond
exceeds the payment and the issuance together. -/
theorem issuance_unburned : ∃ s s' receipt sub, Reachable s ∧
    s.receipts[task 0]? = some receipt ∧ s.tasks[task 0]? = some sub ∧
    sub.provider = some bob ∧ task 0 ∉ s.slashed ∧ 0 < receipt.workIssuance.toNat ∧
    receipt.paidToProvider.toNat + receipt.workIssuance.toNat ≤
      (s.acct bob).balance.toNat + (s.acct bob).bonded.toNat ∧
    s.resolveFraud (task 0) none .devnet = .ok s' ∧
    s'.supply.burned.toNat < s.supply.burned.toNat + receipt.workIssuance.toNat := by
  have spent : (outcomeOf allocations 0 (settled 400 ++ [sent bob 2 (.transfer alice 9904)])).any
      (fun s => task 0 ∉ s.slashed ∧ (s.tasks[task 0]?).any (·.provider = some bob) ∧
        (s.receipts[task 0]?).any (fun receipt => 0 < receipt.workIssuance.toNat ∧
          receipt.paidToProvider.toNat + receipt.workIssuance.toNat ≤
            (s.acct bob).balance.toNat + (s.acct bob).bonded.toNat) ∧
        s.supply.burned = 0) = true := by decide +kernel
  have kept : (outcomeOf allocations 0 (settled 400 ++ [sent bob 2 (.transfer alice 9904)] ++
      [.resolveFraud (task 0) none .devnet])).any (fun s => s.supply.burned = 0) = true := by
    decide +kernel
  obtain ⟨s', ran, unburned⟩ := (Option.any_eq_true _ _).mp kept
  obtain ⟨s, earlier, step⟩ := outcomeOf_snoc ran
  rw [earlier, Option.any_some, decide_eq_true_eq] at spent
  obtain ⟨unslashed, provided, covered, unburned_before⟩ := spent
  obtain ⟨sub, sub_eq, provider_eq⟩ := (Option.any_eq_true _ _).mp provided
  obtain ⟨receipt, receipt_eq, covered⟩ := (Option.any_eq_true _ _).mp covered
  obtain ⟨issued, covered⟩ := of_decide_eq_true covered
  refine ⟨s, s', receipt, sub, reachable_of_outcomeOf earlier, receipt_eq, sub_eq,
    of_decide_eq_true provider_eq, unslashed, issued, covered, returns_lift.mp step, ?_⟩
  rw [of_decide_eq_true unburned, unburned_before]
  simpa using issued

theorem issuance_burned_audited : ∃ s s' receipt sub,
    outcomeOf allocations 0 (settled 400) = some s ∧ s.receipts[task 0]? = some receipt ∧
    s.tasks[task 0]? = some sub ∧ s.resolveFraud (task 0) none .devnet = .ok s' ∧
    receipt.workIssuance.toNat ≤ s.burnable sub bob receipt ∧
    s.supply.burned.toNat + receipt.workIssuance.toNat ≤ s'.supply.burned.toNat := by
  have settled_for : (outcomeOf allocations 0 (settled 400)).any (fun s =>
      task 0 ∉ s.slashed ∧ (s.tasks[task 0]?).any (fun sub => sub.provider = some bob ∧
        (s.receipts[task 0]?).any fun receipt =>
          receipt.workIssuance.toNat ≤ s.burnable sub bob receipt)) = true := by decide +kernel
  have audited : (outcomeOf allocations 0
      (settled 400 ++ [.resolveFraud (task 0) none .devnet])).isSome = true := by decide +kernel
  obtain ⟨s', ran⟩ := Option.isSome_iff_exists.mp audited
  obtain ⟨s, earlier, step⟩ := outcomeOf_snoc ran
  rw [earlier, Option.any_some, decide_eq_true_eq] at settled_for
  obtain ⟨unslashed, provided⟩ := settled_for
  obtain ⟨sub, sub_eq, provided⟩ := (Option.any_eq_true _ _).mp provided
  obtain ⟨provider_eq, receipted⟩ := of_decide_eq_true provided
  obtain ⟨receipt, receipt_eq, covered⟩ := (Option.any_eq_true _ _).mp receipted
  have resolved := returns_lift.mp step
  exact ⟨s, s', receipt, sub, earlier, receipt_eq, sub_eq, resolved, of_decide_eq_true covered,
    (issuance_burned receipt_eq sub_eq provider_eq unslashed resolved).2
      (of_decide_eq_true covered)⟩

end Sample

end Ducp
