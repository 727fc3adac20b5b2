import Ducp.Ledger.Book

/-!
# What an operation can do

One inversion per transition: the guards which held, the records which were rewritten, and the
posting on the book.  Every later invariant is read off these structures, and none of them unfolds
a transition again.
-/

namespace Ducp

open DoubleEntry MapSum Outcome Std
open Finsupp (single single_add single_apply)

/-- The second state has these records, has minted so much, and its book is the first one after a
posting. -/
structure Becomes (s : State) (records : Records) (minted : ℕ) (debits credits : Bucket →₀ ℕ)
    (s' : State) : Prop where
  records : s'.records = records
  minted : s'.supply.minted.toNat = s.supply.minted.toNat + minted
  posts : Posts s.book debits credits s'.book

/-- A movement of funds only rewrites the accounts, the supply and the fee pool. -/
theorem Moves.exists_funds {s s' : State} {debits credits : Bucket →₀ ℕ}
    (moves : Moves s debits credits s') :
    ∃ accounts supply feePool, s' = { s with accounts, supply, feePool } := by
  obtain ⟨accounts, standing, bodies, tasks, proofs, receipts, qLedger, pendingChallenges, slashed,
    released, nonces, supply, feePool, epoch⟩ := s'
  have records := moves.records
  simp only [State.records, Records.mk.injEq] at records
  obtain ⟨rfl, rfl, rfl, rfl, rfl, rfl, rfl, rfl, rfl, rfl, rfl⟩ := records
  exact ⟨accounts, supply, feePool, rfl⟩

/-- A movement of funds, followed by a rewriting of the records. -/
theorem Moves.becomes {s moved s' : State} {debits credits : Bucket →₀ ℕ} {records : Records}
    (moves : Moves s debits credits moved) (records_eq : s'.records = records)
    (supply_eq : s'.supply = moved.supply) (book_eq : s'.book = moved.book) :
    Becomes s records 0 debits credits s' where
  records := records_eq
  minted := by rw [supply_eq, moves.minted, add_zero]
  posts := by
    rw [book_eq]
    exact moves.posts

/-! ## Signed transactions -/

/-- A task has been submitted: its ceiling and fee lie in escrow. -/
structure Submits [Crypto] (s : State) (requester : Identity) (body : TaskBody) (params : Params)
    (task : TaskId) (fee : Ucu) (s' : State) : Prop extends
    Becomes s
      { s.records with
        bodies := s.bodies.insert task body
        tasks := s.tasks.insert task
          { task
            requester
            ucuCount := 0
            fee
            status := .submitted
            provider := none
            claimStake := 0 } }
      0 (single (.balance requester) (body.limits.maxUcu.toNat + fee.toNat))
      (single (.escrowed requester) (body.limits.maxUcu.toNat + fee.toNat)) s' where
  supported : body.tier = .sampledReexec
  taskId : body.taskId = .ok task
  fresh : s.tasks[task]? = none
  fee_eq : params.fee body.limits.maxUcu = .ok fee

/-- A submitted task has been claimed: the stake lies in the provider's bond. -/
structure Claims (s : State) (provider : Identity) (task : TaskId) (params : Params)
    (body : TaskBody) (sub : Submission) (stake : Ucu) (s' : State) : Prop extends
    Becomes s
      { s.records with
        tasks := s.tasks.insert task
          { sub with provider := some provider, status := .executing, claimStake := stake } }
      0 (single (.balance provider) stake.toNat) (single (.bonded provider) stake.toNat) s' where
  body_eq : s.bodies[task]? = some body
  sub_eq : s.tasks[task]? = some sub
  submitted : sub.status = .submitted
  deadline : s.epoch ≤ body.deadline
  stake_eq : params.claimStake body.limits.maxUcu (s.standingOf provider) = .ok stake

/-- The receipt of a settlement and the Standing record of its provider. -/
structure Settlement (s : State) (provider : Identity) (proof : ComputeProof) (params : Params)
    (fee : Ucu) (receipt : Receipt) (record : StandingRecord) : Prop where
  receipt_task : receipt.task = proof.task
  paid : receipt.paidToProvider = proof.ucuCount
  issuance : params.issuance proof.ucuCount = .ok receipt.workIssuance
  validatorFee : receipt.validatorFee = fee
  accrual : params.standingAccrual proof.ucuCount params.efficiencyMultPpm =
    .ok receipt.standingDelta
  accrued : Checked.sadd (s.standingRecord provider).sp receipt.standingDelta = .ok record.sp
  kept : record = { s.standingRecord provider with sp := record.sp }
  settledEpoch : receipt.settledEpoch = s.epoch
  clawbackUntil : receipt.clawbackUntil.toNat = s.epoch.toNat + params.clawbackEpochs.toNat

/-- A proof has been settled: the escrow is spent and the issuance minted. -/
structure Settles (s : State) (author : Identity) (proof : ComputeProof) (params : Params)
    (body : TaskBody) (sub : Submission) (receipt : Receipt) (record : StandingRecord)
    (s' : State) : Prop extends
    Becomes s
      { s.records with
        standing := s.standing.insert author record
        tasks := s.tasks.insert proof.task
          { sub with status := .settled, ucuCount := proof.ucuCount }
        proofs := s.proofs.insert proof.task proof
        receipts := s.receipts.insert proof.task receipt
        qLedger := s.qLedger.insert proof.task
          (.unmeasured proof.task proof.ucuCount body.benchmark) }
      receipt.workIssuance.toNat
      (single (.escrowed sub.requester) (body.limits.maxUcu.toNat + sub.fee.toNat))
      (single (.balance sub.requester) (body.limits.maxUcu.toNat - proof.ucuCount.toNat) +
        single .pool sub.fee.toNat + single (.balance author) proof.ucuCount.toNat +
        single (.balance author) receipt.workIssuance.toNat) s',
    Settlement s author proof params sub.fee receipt record where
  body_eq : s.bodies[proof.task]? = some body
  sub_eq : s.tasks[proof.task]? = some sub
  executing : sub.status = .executing
  provider : sub.provider = some author
  prover : proof.provider = author
  ucuCount_le : proof.ucuCount.toNat ≤ body.limits.maxUcu.toNat
  benchmark : proof.benchmark = body.benchmark

/-- A challenge has been opened: the bond lies in the challenger's bond. -/
structure Opens (s : State) (challenger : Identity) (task : TaskId) (bond : Ucu)
    (params : Params) (receipt : Receipt) (sub : Submission) (s' : State) : Prop extends
    Becomes s
      { s.records with
        pendingChallenges := s.pendingChallenges.insert task { challenger, bond } }
      0 (single (.balance challenger) bond.toNat) (single (.bonded challenger) bond.toNat)
      s' where
  receipt_eq : s.receipts[task]? = some receipt
  sub_eq : s.tasks[task]? = some sub
  settled : sub.status = .settled
  window : s.epoch ≤ receipt.clawbackUntil
  unslashed : task ∉ s.slashed
  idle : s.pendingChallenges[task]? = none
  bond_ge : ∃ bondMin, params.bondMin receipt.paidToProvider = .ok bondMin ∧ bondMin ≤ bond

/-- What an accepted payload does. -/
inductive Payload [Crypto] (s : State) (author : Identity) (params : Params) :
    Tx → State → Prop
  | submitTask {body : TaskBody} {task : TaskId} {fee : Ucu} {s' : State} :
      Submits s author body params task fee s' → Payload s author params (.submitTask body) s'
  | claimTask {task : TaskId} {body : TaskBody} {sub : Submission} {stake : Ucu} {s' : State} :
      Claims s author task params body sub stake s' →
      Payload s author params (.claimTask task) s'
  | submitProof {proof : ComputeProof} {body : TaskBody} {sub : Submission} {receipt : Receipt}
      {record : StandingRecord} {s' : State} :
      Settles s author proof params body sub receipt record s' →
      Payload s author params (.submitProof proof) s'
  | challenge {task : TaskId} {bond : Ucu} {receipt : Receipt} {sub : Submission} {s' : State} :
      Opens s author task bond params receipt sub s' →
      Payload s author params (.challenge task bond) s'
  | transfer {recipient : Identity} {amount : Ucu} {s' : State} :
      Moves s (single (.balance author) amount.toNat) (single (.balance recipient) amount.toNat)
        s' →
      Payload s author params (.transfer recipient amount) s'

/-! ## The epoch boundary -/

/-- A matured stake has been released, clamped to the provider's bond. -/
structure Releases (s : State) (matured : TaskId × Identity × Ucu) (receipt : Receipt)
    (sub : Submission) (s' : State) : Prop extends
    Becomes s { s.records with released := s.released.insert matured.1 } 0
      (single (.bonded matured.2.1) (min matured.2.2.toNat (s.acct matured.2.1).bonded.toNat))
      (single (.balance matured.2.1) (min matured.2.2.toNat (s.acct matured.2.1).bonded.toNat))
      s' where
  receipt_eq : s.receipts[matured.1]? = some receipt
  sub_eq : s.tasks[matured.1]? = some sub
  closed : receipt.clawbackUntil ≤ s.epoch
  unreleased : matured.1 ∉ s.released
  unslashed : matured.1 ∉ s.slashed
  provider : sub.provider = some matured.2.1
  stake : sub.claimStake = matured.2.2

/-! ## Verdicts -/

/-- Where a reward goes. -/
def rewardBucket : Option Identity → Bucket
  | some id => .balance id
  | none => .pool

/-- The amounts of a fraud resolution. -/
structure Penalty where
  recovered : ℕ
  burnW : ℕ
  fine : Ucu
  fineAvail : ℕ
  rewardCap : Ucu
  reward : ℕ

/-- The monetary penalties, each clamped to what the earlier ones left. -/
structure Penalizes (s : State) (provider requester : Identity) (receipt : Receipt)
    (rewardTo : Option Identity) (params : Params) (penalty : Penalty) (s' : State) : Prop extends
    Moves s
      (single (.bonded provider) penalty.recovered + single (.balance provider) penalty.burnW +
        single (.bonded provider) penalty.fineAvail)
      (single (.balance requester) penalty.recovered + single .burned penalty.burnW +
        single (rewardBucket rewardTo) penalty.reward +
        single .burned (penalty.fineAvail - penalty.reward)) s' where
  recovered_eq : penalty.recovered =
    min receipt.paidToProvider.toNat (s.acct provider).bonded.toNat
  burnW_eq : penalty.burnW =
    min receipt.workIssuance.toNat
      ((s.acct provider).balance.toNat + if requester = provider then penalty.recovered else 0)
  fine_eq : params.fine receipt.paidToProvider = .ok penalty.fine
  fineAvail_eq : penalty.fineAvail =
    min penalty.fine.toNat ((s.acct provider).bonded.toNat - penalty.recovered)
  rewardCap_eq : params.challengerReward penalty.fine = .ok penalty.rewardCap
  reward_eq : penalty.reward = min penalty.rewardCap.toNat penalty.fineAvail

/-- A settled task has been slashed. -/
structure Slashes (s : State) (task : TaskId) (rewardTo : Option Identity) (params : Params)
    (receipt : Receipt) (sub : Submission) (provider : Identity) (penalty : Penalty)
    (record : StandingRecord) (s' : State) : Prop where
  penalizes : ∃ moved, Penalizes s provider sub.requester receipt rewardTo params penalty moved ∧
    s' =
      { moved with
        standing := s.standing.insert provider record
        slashed := s.slashed.insert task
        tasks := s.tasks.insert task { sub with status := .failed } }
  unslashed : task ∉ s.slashed
  receipt_eq : s.receipts[task]? = some receipt
  sub_eq : s.tasks[task]? = some sub
  offender : sub.provider = some provider
  floored : record.sp = 0
  struck : record.strikes.toNat = (s.standingRecord provider).strikes.toNat + 1

/-- What a fraud resolution does. -/
inductive Convicts (s : State) (task : TaskId) (rewardTo : Option Identity) (params : Params) :
    State → Prop
  | idle : task ∈ s.slashed ∨ s.receipts[task]? = none ∨
      (s.tasks[task]?).bind (·.provider) = none → Convicts s task rewardTo params s
  | slash {receipt : Receipt} {sub : Submission} {provider : Identity} {penalty : Penalty}
      {record : StandingRecord} {s' : State} :
      Slashes s task rewardTo params receipt sub provider penalty record s' →
      Convicts s task rewardTo params s'

/-- What a challenge resolution does. -/
inductive Closes (s : State) (task : TaskId) (params : Params) : Bool → State → Prop
  | idle {fraud : Bool} : s.pendingChallenges[task]? = none → Closes s task params fraud s
  | won {pc : ChallengeRecord} {convicted s' : State} :
      s.pendingChallenges[task]? = some pc →
      Convicts { s with pendingChallenges := s.pendingChallenges.erase task } task
        (some pc.challenger) params convicted →
      Moves convicted
        (single (.bonded pc.challenger)
          (min pc.bond.toNat (convicted.acct pc.challenger).bonded.toNat))
        (single (.balance pc.challenger)
          (min pc.bond.toNat (convicted.acct pc.challenger).bonded.toNat)) s' →
      Closes s task params true s'
  | lost {pc : ChallengeRecord} {s' : State} :
      s.pendingChallenges[task]? = some pc →
      Moves { s with pendingChallenges := s.pendingChallenges.erase task }
        (single (.bonded pc.challenger) (min pc.bond.toNat (s.acct pc.challenger).bonded.toNat))
        (single .burned (min pc.bond.toNat (s.acct pc.challenger).bonded.toNat)) s' →
      Closes s task params false s'

namespace State

variable {s s' : State} {params : Params}

theorem submitTask_effect [Crypto] {requester : Identity} {body : TaskBody}
    (returned : (s.submitTask requester body params).Returns s') :
    ∃ task fee, Submits s requester body params task fee s' := by
  simp only [submitTask, returns_bind, returns_rejectIf, returns_lift, returns_okOr, returns_pure,
    Checked.add?_eq_some, not_or, not_not] at returned
  obtain ⟨_, supported, task, taskId, _, fresh, fee, fee_eq, need, need_eq, _, _, moved, escrowed,
    rfl⟩ := returned
  have moves := escrow_moves escrowed
  obtain ⟨accounts, supply, feePool, rfl⟩ := moves.exists_funds
  rw [need_eq] at moves
  exact ⟨task, fee, moves.becomes rfl rfl rfl, supported.2, taskId,
    (notMem_iff_eq_none s.tasks task).mp fresh, fee_eq⟩

theorem claimTask_effect {provider : Identity} {task : TaskId}
    (returned : (s.claimTask provider task params).Returns s') :
    ∃ body sub stake, Claims s provider task params body sub stake s' := by
  simp only [claimTask, returns_bind, returns_rejectIf, returns_lift, returns_okOr, returns_pure,
    Checked.expect_eq_ok, not_not] at returned
  obtain ⟨body, body_eq, sub, sub_eq, _, submitted, _, deadline, stake, stake_eq, _, _, moved,
    locked, found, found_eq, rfl⟩ := returned
  have moves := lock_moves locked
  obtain ⟨accounts, supply, feePool, rfl⟩ := moves.exists_funds
  obtain rfl : sub = found := Option.some.inj (sub_eq.symm.trans found_eq)
  exact ⟨body, sub, stake, moves.becomes rfl rfl rfl, body_eq, sub_eq, submitted,
    BitVec.not_lt.mp deadline, stake_eq⟩

theorem openChallenge_effect {challenger : Identity} {task : TaskId} {bond : Ucu}
    (returned : (s.openChallenge challenger task bond params).Returns s') :
    ∃ receipt sub, Opens s challenger task bond params receipt sub s' := by
  simp only [openChallenge, returns_bind, returns_rejectIf, returns_lift, returns_okOr,
    returns_pure, not_or, not_not] at returned
  obtain ⟨receipt, receipt_eq, sub, sub_eq, _, settled, _, window, _, ⟨unslashed, idle⟩, bondMin,
    bondMin_eq, _, bond_ge, _, _, moved, locked, rfl⟩ := returned
  have moves := lock_moves locked
  obtain ⟨accounts, supply, feePool, rfl⟩ := moves.exists_funds
  exact ⟨receipt, sub, moves.becomes rfl rfl rfl, receipt_eq, sub_eq, settled,
    BitVec.not_lt.mp window, unslashed, (notMem_iff_eq_none _ task).mp idle,
    bondMin, bondMin_eq, BitVec.not_lt.mp bond_ge⟩

theorem transfer_effect {sender recipient : Identity} {amount : Ucu}
    (returned : (s.transfer sender recipient amount).Returns s') :
    Moves s (single (.balance sender) amount.toNat) (single (.balance recipient) amount.toNat)
      s' := by
  simp only [transfer, returns_bind, returns_rejectIf, returns_lift, Checked.sub_eq_ok]
    at returned
  obtain ⟨_, _, balance, balance_eq, credited⟩ := returned
  simpa using (debit_moves balance_eq).trans (credit_moves credited)

theorem accrue_eq_ok {id : Identity} {delta : Sp} :
    s.accrue id delta = .ok s' ↔
      ∃ sp, Checked.sadd (s.standingRecord id).sp delta = .ok sp ∧
        s.setStanding id { s.standingRecord id with sp } = s' := by
  simp only [accrue, Checked.bind_eq_ok, Checked.pure_eq_ok]

theorem countMinted_eq_ok {amount : Ucu} :
    s.countMinted amount = .ok s' ↔
      ∃ minted : Ucu, minted.toNat = s.supply.minted.toNat + amount.toNat ∧
        { s with supply := { s.supply with minted } } = s' := by
  simp only [countMinted, Checked.bind_eq_ok, Checked.add_eq_ok, Checked.pure_eq_ok]

/-- A settlement spends the escrow, mints the issuance and writes the receipt. -/
theorem settle_effect {body : TaskBody} {sub : Submission} {proof : ComputeProof}
    (settled : s.settle body sub proof params = .ok s') :
    ∃ verified receipt record,
      s.tasks[proof.task]? = some verified ∧
      proof.ucuCount.toNat ≤ body.limits.maxUcu.toNat ∧
      Settlement s proof.provider proof params sub.fee receipt record ∧
      Becomes s
        { s.records with
          standing := s.standing.insert proof.provider record
          tasks := s.tasks.insert proof.task { verified with status := .settled }
          receipts := s.receipts.insert proof.task receipt
          qLedger := s.qLedger.insert proof.task
            (.unmeasured proof.task proof.ucuCount body.benchmark) }
        receipt.workIssuance.toNat
        (single (Bucket.escrowed sub.requester) (body.limits.maxUcu.toNat + sub.fee.toNat))
        (single (Bucket.balance sub.requester) (body.limits.maxUcu.toNat - proof.ucuCount.toNat) +
          single Bucket.pool sub.fee.toNat +
          single (Bucket.balance proof.provider) proof.ucuCount.toNat +
          single (Bucket.balance proof.provider) receipt.workIssuance.toNat) s' := by
  simp only [settle, Checked.bind_eq_ok, Checked.pure_eq_ok, Checked.expect_eq_ok, accrue_eq_ok,
    countMinted_eq_ok, Checked.add_eq_ok] at settled
  obtain ⟨drained, drain_eq, pooled, pool_eq, paid, paid_eq, w, w_eq, issued, issued_eq, _,
    ⟨minted, minted_eq, rfl⟩, delta, delta_eq, _, ⟨sp, sp_eq, rfl⟩, clawbackUntil, clawback_eq,
    verified, verified_eq, rfl⟩ := settled
  obtain ⟨within, drain_moves⟩ := drainEscrow_moves drain_eq
  have moves : Moves s _ _ issued := drain_moves.trans (creditPool_moves pool_eq)
    |>.trans (credit_moves paid_eq) |>.trans (credit_moves issued_eq)
  obtain ⟨accounts, supply, feePool, rfl⟩ := moves.exists_funds
  let receipt : Receipt :=
    { task := proof.task
      paidToProvider := proof.ucuCount
      workIssuance := w
      validatorFee := sub.fee
      standingDelta := delta
      settledEpoch := s.epoch
      clawbackUntil }
  have posts := moves.posts
  simp only [add_zero] at posts
  refine ⟨verified, receipt, { s.standingRecord proof.provider with sp }, verified_eq, within,
    ⟨rfl, rfl, w_eq, rfl, delta_eq, sp_eq, rfl, rfl, clawback_eq⟩, rfl, ?_, posts⟩
  rw [← moves.minted]
  exact minted_eq

/-- An accepted proof settles its task. -/
theorem submitProof_effect {author : Identity} {proof : ComputeProof}
    (returned : (s.submitProof author proof params).Returns s') :
    ∃ body sub receipt record, Settles s author proof params body sub receipt record s' := by
  simp only [submitProof, returns_bind, returns_rejectIf, returns_lift, returns_okOr,
    Checked.expect_eq_ok, not_or, not_not] at returned
  obtain ⟨body, body_eq, sub, sub_eq, _, executing, _, ⟨provider, rfl⟩, _, _, _, benchmark, found,
    found_eq, settled⟩ := returned
  obtain rfl : sub = found := Option.some.inj (sub_eq.symm.trans found_eq)
  obtain ⟨verified, receipt, record, verified_eq, within, settlement, becomes⟩ :=
    settle_effect settled
  obtain rfl : { sub with status := .verified, ucuCount := proof.ucuCount } = verified := by
    simpa using verified_eq
  have records := becomes.records
  simp only [State.records, insert_insert] at records
  exact ⟨body, sub, receipt, record, ⟨records, becomes.minted, becomes.posts⟩,
    { settlement with }, body_eq, sub_eq, executing, provider, rfl, within, benchmark⟩

theorem applyTx_effect [Crypto] {author : Identity} {tx : Tx}
    (returned : (s.applyTx author params tx).Returns s') : Payload s author params tx s' := by
  cases tx with
  | submitTask body =>
      obtain ⟨task, fee, submits⟩ := submitTask_effect returned
      exact .submitTask submits
  | claimTask task =>
      obtain ⟨body, sub, stake, claims⟩ := claimTask_effect returned
      exact .claimTask claims
  | submitProof proof =>
      obtain ⟨body, sub, receipt, record, settles⟩ := submitProof_effect returned
      exact .submitProof settles
  | challenge task bond =>
      obtain ⟨receipt, sub, opens⟩ := openChallenge_effect returned
      exact .challenge opens
  | transfer recipient amount => exact .transfer (transfer_effect returned)

/-- An accepted transaction is its payload on the state with the author's nonce counted. -/
theorem apply_effect [Crypto] {stx : SignedTx} (returned : (s.apply stx params).Returns s') :
    stx.verifySig = .ok true ∧ stx.nonce = (s.nonces[stx.author]?).getD 0 ∧
      ∃ next : BitVec 64, next.toNat = stx.nonce.toNat + 1 ∧
        Payload { s with nonces := s.nonces.insert stx.author next } stx.author params stx.tx
          s' := by
  simp only [apply, checkAndBumpNonce, returns_bind, returns_rejectIf, returns_lift, returns_pure,
    Bool.not_eq_false, not_not, Checked.add_eq_ok] at returned
  obtain ⟨verified, verified_eq, _, rfl, _, ⟨_, expected, next, next_eq, rfl⟩, applied⟩ := returned
  refine ⟨verified_eq, expected, next, ?_, applyTx_effect applied⟩
  rw [next_eq, expected]
  rfl

/-! ## The epoch boundary, inverted -/

theorem release_effect {matured : TaskId × Identity × Ucu} (released : s.release matured = .ok s') :
    ∃ moved,
      Moves s
        (single (.bonded matured.2.1) (min matured.2.2.toNat (s.acct matured.2.1).bonded.toNat))
        (single (.balance matured.2.1) (min matured.2.2.toNat (s.acct matured.2.1).bonded.toNat))
        moved ∧
      s' = { moved with released := s.released.insert matured.1 } := by
  simp only [release, Checked.bind_eq_ok, Checked.pure_eq_ok] at released
  obtain ⟨moved, unlocked, rfl⟩ := released
  have moves := unlock_moves unlocked
  obtain ⟨accounts, supply, feePool, rfl⟩ := moves.exists_funds
  exact ⟨_, moves, rfl⟩

theorem maturedStake_eq_some {task : TaskId} {receipt : Receipt}
    {matured : TaskId × Identity × Ucu} :
    s.maturedStake task receipt = some matured ↔
      matured.1 = task ∧ receipt.clawbackUntil ≤ s.epoch ∧ task ∉ s.released ∧
        task ∉ s.slashed ∧
        ∃ sub, s.tasks[task]? = some sub ∧ sub.provider = some matured.2.1 ∧
          sub.claimStake = matured.2.2 := by
  unfold maturedStake
  split
  · rename_i guards
    cases found : s.tasks[task]? with
    | none => simp
    | some sub =>
        obtain ⟨probe, provider, stake⟩ := matured
        cases claimed : sub.provider <;> simp [guards, claimed, eq_comm]
  · rename_i guards
    simp only [reduceCtorEq, false_iff]
    rintro ⟨_, closed, unreleased, unslashed, _⟩
    exact guards ⟨closed, unreleased, unslashed⟩

/-- The stakes to release are matured, one for each task. -/
theorem mem_toRelease {matured : TaskId × Identity × Ucu} :
    matured ∈ s.toRelease ↔
      ∃ receipt, s.receipts[matured.1]? = some receipt ∧
        s.maturedStake matured.1 receipt = some matured := by
  unfold toRelease
  simp only [List.mem_filterMap, Prod.exists, ExtTreeMap.mem_toList_iff_getElem?_eq_some]
  constructor
  · rintro ⟨task, receipt, found, matures⟩
    obtain rfl := (maturedStake_eq_some.mp matures).1
    exact ⟨receipt, found, matures⟩
  · rintro ⟨receipt, found, matures⟩
    exact ⟨matured.1, receipt, found, matures⟩

theorem toRelease_nodup : (s.toRelease.map Prod.fst).Nodup := by
  have keys_nodup : (s.receipts.toList.map Prod.fst).Nodup := by
    rw [ExtTreeMap.map_fst_toList_eq_keys]
    exact ExtTreeMap.nodup_keys
  rw [List.Nodup, List.pairwise_map] at keys_nodup
  rw [toRelease, List.Nodup, List.pairwise_map, List.pairwise_filterMap]
  apply keys_nodup.imp
  intro earlier later distinct matured matures probe probed
  rwa [(maturedStake_eq_some.mp matures).1, (maturedStake_eq_some.mp probed).1]

/-- One step of the release loop. -/
def ReleaseStep (s : State) (matured : TaskId × Identity × Ucu) (s' : State) : Prop :=
  ∃ receipt sub, Releases s matured receipt sub s'

/-- Releasing stakes that were matured at the start releases each of them as a matured stake. -/
theorem releaseStep_run {start : State} {stakes : List (TaskId × Identity × Ucu)}
    (run : Run (fun before matured after => release before matured = .ok after) start stakes s')
    (matured : ∀ stake ∈ stakes, stake ∈ start.toRelease)
    (nodup : (stakes.map Prod.fst).Nodup) :
    Run ReleaseStep start stakes s' ∧
      s'.records = { start.records with released := s'.released } ∧
      ∀ task, task ∈ s'.released ↔ task ∈ start.released ∨ task ∈ stakes.map Prod.fst := by
  induction run with
  | nil => exact ⟨.nil, rfl, by simp⟩
  | @snoc earlier stake before after earlier_run taken ih =>
      rw [List.map_append, List.nodup_append] at nodup
      obtain ⟨run, records, released⟩ := ih (fun stake member => matured stake (by simp [member]))
        nodup.1
      obtain ⟨receipt, found, matures⟩ := mem_toRelease.mp (matured stake (by simp))
      obtain ⟨_, closed, unreleased, unslashed, sub, sub_eq, provider, stake_eq⟩ :=
        maturedStake_eq_some.mp matures
      obtain ⟨moved, moves, rfl⟩ := release_effect taken
      obtain ⟨accounts, supply, feePool, rfl⟩ := moves.exists_funds
      have fresh : stake.1 ∉ before.released := by
        rw [released]
        rintro (old | again)
        · exact unreleased old
        · exact nodup.2.2 stake.1 again stake.1 (by simp) rfl
      have receipts_eq : before.receipts = start.receipts := congrArg Records.receipts records
      have tasks_eq : before.tasks = start.tasks := congrArg Records.tasks records
      have slashed_eq : before.slashed = start.slashed := congrArg Records.slashed records
      have epoch_eq : before.epoch = start.epoch := congrArg Records.epoch records
      have releases : Releases before stake receipt sub
          { before with
            accounts, supply, feePool, released := before.released.insert stake.1 } :=
        { toBecomes := moves.becomes rfl rfl rfl
          receipt_eq := by rw [receipts_eq, found]
          sub_eq := by rw [tasks_eq, sub_eq]
          closed := by rw [epoch_eq]; exact closed
          unreleased := fresh
          unslashed := by rw [slashed_eq]; exact unslashed
          provider
          stake := stake_eq }
      refine ⟨run.snoc ⟨receipt, sub, releases⟩, ?_, ?_⟩
      · have same := congrArg (fun records : Records =>
          { records with released := before.released.insert stake.1 }) records
        exact same
      · intro task
        simp only [mem_insert_set, released, List.map_append, List.mem_append, List.map_cons,
          List.map_nil, List.mem_singleton]
        rw [or_comm, or_assoc]

/-- An epoch boundary decays Standing, then releases every matured stake. -/
structure Advances (s : State) (params : Params) (ticked s' : State) : Prop where
  ticks : ∃ epoch standing, epoch.toNat = s.epoch.toNat + 1 ∧
    ticked = { s with epoch, standing } ∧
    { s with epoch }.decayStanding params = .ok ticked
  run : Run ReleaseStep ticked ticked.toRelease s'
  records : s'.records = { ticked.records with released := s'.released }
  released : ∀ task, task ∈ s'.released ↔
    task ∈ s.released ∨ task ∈ ticked.toRelease.map Prod.fst

theorem advanceEpoch_effect (advanced : s.advanceEpoch params = .ok s') :
    ∃ ticked, Advances s params ticked s' := by
  simp only [advanceEpoch, Checked.bind_eq_ok, Checked.add_eq_ok] at advanced
  obtain ⟨epoch, epoch_eq, ticked, decayed, folded⟩ := advanced
  obtain ⟨run, records, released⟩ :=
    releaseStep_run (Run.of_foldlM folded) (fun _ member => member) toRelease_nodup
  have ticked_eq := decayed
  simp only [decayStanding, Checked.bind_eq_ok, Checked.pure_eq_ok] at ticked_eq
  obtain ⟨standing, _, rfl⟩ := ticked_eq
  exact ⟨_, ⟨epoch, standing, epoch_eq, rfl, decayed⟩, run, records, released⟩

/-- An epoch boundary changes the epoch, the Standings and the released tasks, and funds alone. -/
theorem Advances.records_eq {ticked : State} (advances : Advances s params ticked s') :
    ∃ epoch standing, epoch.toNat = s.epoch.toNat + 1 ∧
      s'.records = { s.records with epoch, standing, released := s'.released } := by
  obtain ⟨epoch, standing, epoch_eq, rfl, _⟩ := advances.ticks
  exact ⟨epoch, standing, epoch_eq, advances.records⟩

theorem Advances.epoch_eq {ticked : State} (advances : Advances s params ticked s') :
    s'.epoch.toNat = s.epoch.toNat + 1 := by
  obtain ⟨epoch, _, epoch_eq, records⟩ := advances.records_eq
  have same : s'.epoch = epoch := congrArg Records.epoch records
  rw [same, epoch_eq]

/-! ## Verdicts, inverted -/

theorem payReward_moves {reward : Ucu} {rewardTo : Option Identity}
    (paid : s.payReward reward rewardTo = .ok s') :
    Moves s 0 (single (rewardBucket rewardTo) reward.toNat) s' := by
  cases rewardTo with
  | none => exact creditPool_moves paid
  | some id => exact credit_moves paid

theorem penalize_effect {provider requester : Identity} {receipt : Receipt}
    {rewardTo : Option Identity}
    (penalized : s.penalize provider requester receipt rewardTo params = .ok s') :
    ∃ penalty, Penalizes s provider requester receipt rewardTo params penalty s' := by
  simp only [penalize, Checked.bind_eq_ok, Prod.exists, Checked.sub_eq_ok] at penalized
  obtain ⟨clawed, recovered, clawed_eq, refunded, refunded_eq, stripped, burnW, stripped_eq,
    offset, offset_eq, f, f_eq, fined, fineAvail, fined_eq, rewardCap, cap_eq, rewarded,
    rewarded_eq, remainder, remainder_eq, burned_eq⟩ := penalized
  obtain ⟨recovered_eq, clawed_moves⟩ := takeBonded_moves clawed_eq
  obtain ⟨burnW_eq, stripped_moves⟩ := takeBalance_moves stripped_eq
  obtain ⟨fineAvail_eq, fined_moves⟩ := takeBonded_moves fined_eq
  have before_burn := clawed_moves.trans (credit_moves refunded_eq)
  have before_fine := before_burn.trans stripped_moves |>.trans (countBurned_moves offset_eq)
  have moves := before_fine.trans fined_moves |>.trans (payReward_moves rewarded_eq)
    |>.trans (countBurned_moves burned_eq)
  simp only [add_zero, zero_add] at before_burn before_fine moves
  have balance_eq := before_burn.posts.apply (.balance provider)
  have bonded_eq := before_fine.posts.apply (.bonded provider)
  simp [single_apply] at balance_eq bonded_eq
  rw [Checked.toNat_lesser] at remainder_eq moves
  have left_over :
      remainder.toNat = fineAvail.toNat - min rewardCap.toNat fineAvail.toNat := by omega
  rw [left_over] at moves
  rw [balance_eq] at burnW_eq
  rw [show (offset.acct provider).bonded.toNat = (s.acct provider).bonded.toNat - recovered.toNat
    by omega] at fineAvail_eq
  exact ⟨⟨recovered.toNat, burnW.toNat, f, fineAvail.toNat, rewardCap,
    min rewardCap.toNat fineAvail.toNat⟩,
    ⟨moves, recovered_eq, burnW_eq, f_eq, fineAvail_eq, cap_eq, rfl⟩⟩

theorem strike_eq_ok {id : Identity} :
    s.strike id = .ok s' ↔
      ∃ strikes : BitVec 32, strikes.toNat = (s.standingRecord id).strikes.toNat + 1 ∧
        s.setStanding id { s.standingRecord id with sp := 0, strikes } = s' := by
  simp only [strike, Checked.bind_eq_ok, Checked.pure_eq_ok, Checked.add_eq_ok]
  rfl

theorem markFailed_eq {task : TaskId} {sub : Submission} (found : s.tasks[task]? = some sub) :
    s.markFailed task =
      { s with
        slashed := s.slashed.insert task
        tasks := s.tasks.insert task { sub with status := .failed } } := by
  simp only [markFailed, found]

theorem resolveFraud_effect {task : TaskId} {rewardTo : Option Identity}
    (resolved : s.resolveFraud task rewardTo params = .ok s') :
    Convicts s task rewardTo params s' := by
  unfold resolveFraud at resolved
  split at resolved
  · rename_i slashed
    obtain rfl := Checked.pure_eq_ok.mp resolved
    exact .idle (.inl slashed)
  · rename_i unslashed
    split at resolved
    · rename_i receipt provider receipt_eq provider_eq
      simp only [Checked.bind_eq_ok, Checked.expect_eq_ok, strike_eq_ok, Checked.pure_eq_ok]
        at resolved
      obtain ⟨sub, sub_eq, moved, penalized, _, ⟨strikes, strikes_eq, rfl⟩, rfl⟩ := resolved
      obtain ⟨penalty, penalizes⟩ := penalize_effect penalized
      obtain ⟨accounts, supply, feePool, rfl⟩ := penalizes.exists_funds
      have offender : sub.provider = some provider := by
        rwa [sub_eq] at provider_eq
      have marked := markFailed_eq (s := { s with accounts, supply, feePool }.setStanding provider
        { s.standingRecord provider with sp := 0, strikes }) sub_eq
      exact .slash ⟨⟨_, penalizes, marked⟩, unslashed, receipt_eq, sub_eq, offender, rfl,
        strikes_eq⟩
    · rename_i missing
      obtain rfl := Checked.pure_eq_ok.mp resolved
      refine .idle (.inr ?_)
      cases receipt_eq : s.receipts[task]? with
      | none => exact .inl rfl
      | some receipt =>
          cases provider_eq : (s.tasks[task]?).bind (·.provider) with
          | none => exact .inr rfl
          | some provider => exact (missing receipt provider receipt_eq provider_eq).elim

theorem resolveChallenge_effect {task : TaskId} {fraud : Bool}
    (resolved : s.resolveChallenge task fraud params = .ok s') :
    Closes s task params fraud s' := by
  unfold resolveChallenge at resolved
  split at resolved
  · rename_i idle
    obtain rfl := Checked.pure_eq_ok.mp resolved
    exact .idle idle
  · rename_i pc pending
    cases fraud with
    | true =>
        simp only [if_true, Checked.bind_eq_ok] at resolved
        obtain ⟨convicted, convicts, unlocked⟩ := resolved
        exact .won pending (resolveFraud_effect convicts) (unlock_moves unlocked)
    | false =>
        simp only [Bool.false_eq_true, if_false, Checked.bind_eq_ok, Prod.exists] at resolved
        obtain ⟨taken, forfeited, taken_eq, burned⟩ := resolved
        obtain ⟨forfeited_eq, moves⟩ := takeBonded_moves taken_eq
        have posted := moves.trans (countBurned_moves burned)
        rw [add_zero, zero_add, forfeited_eq] at posted
        exact .lost pending posted

end State

/-! ## The pending challenges -/

/-- Only a challenge opens a challenge. -/
theorem Payload.pendingChallenges_eq [Crypto] {s s' : State} {author : Identity} {params : Params}
    {tx : Tx} (payload : Payload s author params tx s')
    (other : ∀ task bond, tx ≠ .challenge task bond) :
    s'.pendingChallenges = s.pendingChallenges := by
  cases payload with
  | submitTask submits => exact congrArg Records.pendingChallenges submits.records
  | claimTask claims => exact congrArg Records.pendingChallenges claims.records
  | submitProof settles => exact congrArg Records.pendingChallenges settles.records
  | challenge _ => exact (other _ _ rfl).elim
  | transfer moves => exact congrArg Records.pendingChallenges moves.records

/-! ## What a payload leaves alone -/

section Payloads

variable [Crypto] {s s' : State} {author : Identity} {params : Params} {tx : Tx}

/-- A payload leaves the slashed and released tasks, the nonces and the epoch alone. -/
theorem Payload.records_eq (payload : Payload s author params tx s') :
    ∃ standing bodies tasks proofs receipts qLedger pendingChallenges,
      s'.records =
        { s.records with
          standing, bodies, tasks, proofs, receipts, qLedger, pendingChallenges } := by
  cases payload with
  | submitTask submits => exact ⟨_, _, _, _, _, _, _, submits.records⟩
  | claimTask claims => exact ⟨_, _, _, _, _, _, _, claims.records⟩
  | submitProof settles => exact ⟨_, _, _, _, _, _, _, settles.records⟩
  | challenge opens => exact ⟨_, _, _, _, _, _, _, opens.records⟩
  | transfer moves => exact ⟨_, _, _, _, _, _, _, moves.records⟩

theorem Payload.slashed_eq (payload : Payload s author params tx s') :
    s'.slashed = s.slashed := by
  obtain ⟨_, _, _, _, _, _, _, records⟩ := payload.records_eq
  exact congrArg Records.slashed records

theorem Payload.released_eq (payload : Payload s author params tx s') :
    s'.released = s.released := by
  obtain ⟨_, _, _, _, _, _, _, records⟩ := payload.records_eq
  exact congrArg Records.released records

theorem Payload.nonces_eq (payload : Payload s author params tx s') : s'.nonces = s.nonces := by
  obtain ⟨_, _, _, _, _, _, _, records⟩ := payload.records_eq
  exact congrArg Records.nonces records

theorem Payload.epoch_eq (payload : Payload s author params tx s') : s'.epoch = s.epoch := by
  obtain ⟨_, _, _, _, _, _, _, records⟩ := payload.records_eq
  exact congrArg Records.epoch records

end Payloads

section Verdicts

variable {s s' : State} {task : TaskId} {params : Params}

theorem Convicts.pendingChallenges_eq {rewardTo : Option Identity}
    (convicts : Convicts s task rewardTo params s') :
    s'.pendingChallenges = s.pendingChallenges := by
  cases convicts with
  | idle _ => rfl
  | slash slashes =>
      obtain ⟨moved, penalizes, rfl⟩ := slashes.penalizes
      exact congrArg Records.pendingChallenges penalizes.records

/-- A conviction rewrites the Standing, the tasks and the slashed set only. -/
theorem Convicts.records_eq {rewardTo : Option Identity}
    (convicts : Convicts s task rewardTo params s') :
    ∃ standing tasks slashed, s'.records = { s.records with standing, tasks, slashed } := by
  cases convicts with
  | idle _ => exact ⟨s.standing, s.tasks, s.slashed, rfl⟩
  | @slash _ sub provider _ record _ slashes =>
      obtain ⟨moved, penalizes, rfl⟩ := slashes.penalizes
      obtain ⟨accounts, supply, feePool, rfl⟩ := penalizes.exists_funds
      exact ⟨_, _, _, rfl⟩

/-- A resolution rewrites the open challenges and what a conviction rewrites. -/
theorem Closes.records_eq {fraud : Bool} (closes : Closes s task params fraud s') :
    ∃ standing tasks slashed pendingChallenges,
      s'.records = { s.records with standing, tasks, slashed, pendingChallenges } := by
  cases closes with
  | idle _ => exact ⟨s.standing, s.tasks, s.slashed, s.pendingChallenges, rfl⟩
  | won _ convicts moves =>
      obtain ⟨standing, tasks, slashed, records⟩ := convicts.records_eq
      exact ⟨standing, tasks, slashed, _, moves.records.trans records⟩
  | lost _ moves => exact ⟨s.standing, s.tasks, s.slashed, _, moves.records⟩

/-- A resolution closes the challenge of its task, and no other. -/
theorem Closes.pendingChallenges_eq {fraud : Bool} (closes : Closes s task params fraud s')
    (probe : TaskId) :
    s'.pendingChallenges[probe]? =
      if probe = task then none else s.pendingChallenges[probe]? := by
  rw [← getElem?_erase]
  cases closes with
  | idle absent =>
      rw [getElem?_erase]
      split
      · rename_i same
        rw [same, absent]
      · rfl
  | won _ convicts moves =>
      have kept : s'.pendingChallenges = _ := congrArg Records.pendingChallenges moves.records
      exact congrArg (fun pending => pending[probe]?) (kept.trans convicts.pendingChallenges_eq)
  | lost _ moves =>
      exact congrArg (fun pending => pending[probe]?)
        (congrArg Records.pendingChallenges moves.records)

/-- A conviction of a receipted, unslashed task slashes it. -/
theorem Convicts.slashes {rewardTo : Option Identity} {receipt : Receipt} {sub : Submission}
    {provider : Identity} (convicts : Convicts s task rewardTo params s')
    (receipt_eq : s.receipts[task]? = some receipt) (sub_eq : s.tasks[task]? = some sub)
    (provider_eq : sub.provider = some provider) (unslashed : task ∉ s.slashed) :
    ∃ penalty record, Slashes s task rewardTo params receipt sub provider penalty record s' := by
  cases convicts with
  | idle excuse =>
      rcases excuse with slashed | missing | missing
      · exact absurd slashed unslashed
      · simp [receipt_eq] at missing
      · simp [sub_eq, provider_eq] at missing
  | @slash found found_sub offender penalty record _ slashes =>
      obtain rfl : receipt = found := Option.some.inj (receipt_eq.symm.trans slashes.receipt_eq)
      obtain rfl : sub = found_sub := Option.some.inj (sub_eq.symm.trans slashes.sub_eq)
      obtain rfl : provider = offender := Option.some.inj (provider_eq.symm.trans slashes.offender)
      exact ⟨penalty, record, slashes⟩

theorem Slashes.slashed {rewardTo : Option Identity} {receipt : Receipt} {sub : Submission}
    {provider : Identity} {penalty : Penalty} {record : StandingRecord}
    (slashes : Slashes s task rewardTo params receipt sub provider penalty record s') :
    task ∈ s'.slashed := by
  obtain ⟨moved, _, rfl⟩ := slashes.penalizes
  exact ExtTreeSet.mem_insert_self

/-- The resolution of a pending challenge slashes the receipted task exactly on fraud. -/
theorem Closes.slashed_iff {fraud : Bool} {pc : ChallengeRecord} {receipt : Receipt}
    {sub : Submission} {provider : Identity} (closes : Closes s task params fraud s')
    (pending : s.pendingChallenges[task]? = some pc)
    (receipt_eq : s.receipts[task]? = some receipt) (sub_eq : s.tasks[task]? = some sub)
    (provider_eq : sub.provider = some provider) (unslashed : task ∉ s.slashed) :
    task ∈ s'.slashed ↔ fraud = true := by
  cases closes with
  | idle absent => simp [pending] at absent
  | won _ convicts moves =>
      have kept : s'.slashed = _ := congrArg Records.slashed moves.records
      obtain ⟨_, _, slashes⟩ := convicts.slashes receipt_eq sub_eq provider_eq unslashed
      rw [kept]
      exact ⟨fun _ => rfl, fun _ => slashes.slashed⟩
  | lost _ moves =>
      have same : s'.slashed = s.slashed := congrArg Records.slashed moves.records
      simp [same, unslashed]

end Verdicts

/-! ## Steps -/

/-- What an accepted operation does. -/
inductive Effect [Crypto] (s : State) : Op → State → Prop
  | apply {stx : SignedTx} {params : Params} {next : BitVec 64} {s' : State} :
      stx.verifySig = .ok true → stx.nonce = (s.nonces[stx.author]?).getD 0 →
      next.toNat = stx.nonce.toNat + 1 →
      Payload { s with nonces := s.nonces.insert stx.author next } stx.author params stx.tx s' →
      Effect s (.apply stx params) s'
  | advanceEpoch {params : Params} {ticked s' : State} :
      State.Advances s params ticked s' → Effect s (.advanceEpoch params) s'
  | resolveFraud {task : TaskId} {rewardTo : Option Identity} {params : Params} {s' : State} :
      Convicts s task rewardTo params s' → Effect s (.resolveFraud task rewardTo params) s'
  | resolveChallenge {task : TaskId} {fraud : Bool} {params : Params} {s' : State} :
      Closes s task params fraud s' → Effect s (.resolveChallenge task fraud params) s'

/-- An accepted operation has its effect. -/
theorem Step.effect [Crypto] {s s' : State} {op : Op} (step : Step s op s') : Effect s op s' := by
  cases op with
  | apply stx params =>
      obtain ⟨verified, expected, next, next_eq, payload⟩ := State.apply_effect step
      exact .apply verified expected next_eq payload
  | advanceEpoch params =>
      obtain ⟨ticked, advances⟩ := State.advanceEpoch_effect (returns_lift.mp step)
      exact .advanceEpoch advances
  | resolveFraud task rewardTo params =>
      exact .resolveFraud (State.resolveFraud_effect (returns_lift.mp step))
  | resolveChallenge task fraud params =>
      exact .resolveChallenge (State.resolveChallenge_effect (returns_lift.mp step))

end Ducp
