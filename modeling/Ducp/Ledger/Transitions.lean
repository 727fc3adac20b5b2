import Ducp.Ledger.State
import Ducp.Library.Run

/-!
# The ledger transitions

Signed transactions through `apply`, the epoch boundary, and the two resolutions of a verdict.  A
transaction is rejected without effect; the other transitions are total.  Every operator is
checked, so an overflow, an underflow or a missing record is a fault and not a value.
-/

namespace Ducp

open Outcome Std

namespace State

variable [Crypto]

/-! ## Signed transactions -/

/-- Accept the next nonce of an author, and only that one. -/
def checkAndBumpNonce (s : State) (author : Identity) (nonce : BitVec 64) :
    Outcome Reject State := do
  let expected := (s.nonces[author]?).getD 0
  rejectIf (nonce ≠ expected) .badNonce
  let next ← Checked.add expected 1
  return { s with nonces := s.nonces.insert author next }

/-- Escrow the ceiling and the fee of a new task. -/
def submitTask (s : State) (requester : Identity) (body : TaskBody) (params : Params) :
    Outcome Reject State := do
  rejectIf (body.ir ≠ .wasm ∨ body.tier ≠ .sampledReexec) .invalid
  let task ← body.taskId
  rejectIf (task ∈ s.tasks) .invalid
  let maxUcu := body.limits.maxUcu
  let fee ← params.fee maxUcu
  let need ← okOr (Checked.add? maxUcu fee) .invalid
  rejectIf ((s.acct requester).balance < need) .insufficientBalance
  let s ← s.escrow requester need
  return { s with
    bodies := s.bodies.insert task body
    tasks := s.tasks.insert task
      { task
        requester
        ucuCount := 0
        fee
        status := .submitted
        provider := none
        claimStake := 0 } }

/-- Post the claim stake of a submitted task and become its provider. -/
def claimTask (s : State) (provider : Identity) (task : TaskId) (params : Params) :
    Outcome Reject State := do
  let body ← okOr s.bodies[task]? .unknownTask
  let sub ← okOr s.tasks[task]? .unknownTask
  rejectIf (sub.status ≠ .submitted) .badStatus
  rejectIf (body.deadline < s.epoch) .deadlinePassed
  let stake ← params.claimStake body.limits.maxUcu (s.standingOf provider)
  rejectIf ((s.acct provider).balance < stake) .insufficientBalance
  let s ← s.lock provider stake
  let sub ← (Checked.expect s.tasks[task]? : Checked Submission)
  return { s with
    tasks := s.tasks.insert task
      { sub with provider := some provider, status := .executing, claimStake := stake } }

/-- Drain the requester's escrow and refund the unused ceiling. -/
def drainEscrow (s : State) (requester : Identity) (maxUcu fee u : Ucu) : Checked State := do
  let account := s.acct requester
  let drained ← Checked.add maxUcu fee
  let escrowed ← Checked.sub account.escrowed drained
  let refund ← Checked.sub maxUcu u
  let balance ← Checked.add account.balance refund
  return s.setAcct requester { account with escrowed, balance }

/-- Accrue Standing to an identity. -/
def accrue (s : State) (id : Identity) (delta : Sp) : Checked State := do
  let record := s.standingRecord id
  let sp ← Checked.sadd record.sp delta
  return s.setStanding id { record with sp }

/-- Settle a verified proof: payment, refund, fee, issuance, Standing, receipt and status. -/
def settle (s : State) (body : TaskBody) (sub : Submission) (proof : ComputeProof)
    (params : Params) : Checked State := do
  let provider := proof.provider
  let u := proof.ucuCount
  let s ← s.drainEscrow sub.requester body.limits.maxUcu sub.fee u
  let s ← s.creditPool sub.fee
  let s ← s.credit provider u
  let w ← params.issuance u
  let s ← s.credit provider w
  let s ← s.countMinted w
  let delta ← params.standingAccrual u params.efficiencyMultPpm
  let s ← s.accrue provider delta
  let clawbackUntil ← Checked.add s.epoch params.clawbackEpochs
  let s := { s with
    receipts := s.receipts.insert proof.task
      { task := proof.task
        paidToProvider := u
        workIssuance := w
        validatorFee := sub.fee
        standingDelta := delta
        settledEpoch := s.epoch
        clawbackUntil } }
  let settled ← Checked.expect s.tasks[proof.task]?
  let s := { s with tasks := s.tasks.insert proof.task { settled with status := .settled } }
  return { s with
    qLedger := s.qLedger.insert proof.task (.unmeasured proof.task u body.benchmark) }

/-- Record the proof of the task's provider and settle it. -/
def submitProof (s : State) (author : Identity) (proof : ComputeProof) (params : Params) :
    Outcome Reject State := do
  let body ← okOr s.bodies[proof.task]? .unknownTask
  let sub ← okOr s.tasks[proof.task]? .unknownTask
  rejectIf (sub.status ≠ .executing) .badStatus
  rejectIf (sub.provider ≠ some author ∨ proof.provider ≠ author) .wrongProvider
  rejectIf (body.limits.maxUcu < proof.ucuCount) .ucuExceedsLimit
  rejectIf (proof.benchmark ≠ body.benchmark) .benchmarkMismatch
  let s := { s with proofs := s.proofs.insert proof.task proof }
  let verified ← (Checked.expect s.tasks[proof.task]? : Checked Submission)
  let s := { s with
    tasks := s.tasks.insert proof.task
      { verified with status := .verified, ucuCount := proof.ucuCount } }
  s.settle body sub proof params

/-- Lock a bond against a settled task inside its clawback window. -/
def openChallenge (s : State) (challenger : Identity) (task : TaskId) (bond : Ucu)
    (params : Params) : Outcome Reject State := do
  let receipt ← okOr s.receipts[task]? .unknownTask
  let sub ← okOr s.tasks[task]? .unknownTask
  rejectIf (sub.status ≠ .settled) .badStatus
  rejectIf (receipt.clawbackUntil < s.epoch) .notInClawbackWindow
  rejectIf (task ∈ s.slashed ∨ task ∈ s.pendingChallenges) .invalid
  let bondMin ← params.bondMin receipt.paidToProvider
  rejectIf (bond < bondMin) .bondTooSmall
  rejectIf ((s.acct challenger).balance < bond) .insufficientBalance
  let s ← s.lock challenger bond
  return { s with pendingChallenges := s.pendingChallenges.insert task { challenger, bond } }

/-- Move an amount between balances. -/
def transfer (s : State) (sender recipient : Identity) (amount : Ucu) : Outcome Reject State := do
  let account := s.acct sender
  rejectIf (account.balance < amount) .insufficientBalance
  let balance ← Checked.sub account.balance amount
  (s.setAcct sender { account with balance }).credit recipient amount

/-- Apply the payload of a transaction whose nonce has been accepted. -/
def applyTx (s : State) (author : Identity) (params : Params) : Tx → Outcome Reject State
  | .submitTask body => s.submitTask author body params
  | .claimTask task => s.claimTask author task params
  | .submitProof proof => s.submitProof author proof params
  | .transfer recipient amount => s.transfer author recipient amount
  | .challenge task bond => s.openChallenge author task bond params

/-- Apply a signed transaction: signature, then nonce, then payload. -/
def apply (state : State) (stx : SignedTx) (params : Params) : Outcome Reject State := do
  let verified ← stx.verifySig
  rejectIf (verified = false) .badSignature
  let s ← state.checkAndBumpNonce stx.author stx.nonce
  s.applyTx stx.author params stx.tx

/-! ## The epoch boundary -/

/-- Decay every Standing record and stamp it with the epoch. -/
def decayStanding (s : State) (params : Params) : Checked State := do
  let standing ← s.standing.toList.foldlM (fun records entry => do
    let sp ← params.decay entry.2.sp
    return records.insert entry.1 { entry.2 with sp, lastDecayEpoch := s.epoch }) s.standing
  return { s with standing }

/-- The stake to release for a receipt, when its window has closed and nothing forbids it. -/
def maturedStake (s : State) (task : TaskId) (receipt : Receipt) :
    Option (TaskId × Identity × Ucu) :=
  if receipt.clawbackUntil ≤ s.epoch ∧ task ∉ s.released ∧ task ∉ s.slashed then
    match s.tasks[task]? with
    | some sub => sub.provider.map fun provider => (task, provider, sub.claimStake)
    | none => none
  else
    none

/-- The matured stakes, in task order. -/
def toRelease (s : State) : List (TaskId × Identity × Ucu) :=
  s.receipts.toList.filterMap fun entry => s.maturedStake entry.1 entry.2

/-- Release one stake. -/
def release (s : State) (matured : TaskId × Identity × Ucu) : Checked State := do
  let s ← s.unlock matured.2.1 matured.2.2
  return { s with released := s.released.insert matured.1 }

/-- Cross an epoch boundary: decay Standing, then release the matured stakes. -/
def advanceEpoch (state : State) (params : Params) : Checked State := do
  let epoch ← Checked.add state.epoch 1
  let s ← { state with epoch }.decayStanding params
  s.toRelease.foldlM release s

/-! ## Verdicts -/

/-- Floor the offender's Standing and count a strike. -/
def strike (s : State) (id : Identity) : Checked State := do
  let record := s.standingRecord id
  let strikes ← Checked.add record.strikes 1
  return s.setStanding id { record with sp := 0, strikes }

/-- Pay the reward to the auditor, or to the fee pool. -/
def payReward (s : State) (reward : Ucu) : Option Identity → Checked State
  | some id => s.credit id reward
  | none => s.creditPool reward

/-- The monetary penalties: clawback from the bond, burn of the issuance, and fine. -/
def penalize (s : State) (provider requester : Identity) (receipt : Receipt)
    (rewardTo : Option Identity) (params : Params) : Checked State := do
  let p := receipt.paidToProvider
  let w := receipt.workIssuance
  let (s, recovered) ← s.takeBonded provider p
  let s ← s.credit requester recovered
  let (s, burnW) ← s.takeBalance provider w
  let s ← s.countBurned burnW
  let f ← params.fine p
  let (s, fineAvail) ← s.takeBonded provider f
  let rewardCap ← params.challengerReward f
  let reward := Checked.lesser rewardCap fineAvail
  let s ← s.payReward reward rewardTo
  let remainder ← Checked.sub fineAvail reward
  s.countBurned remainder

/-- Mark a task as slashed and failed. -/
def markFailed (s : State) (task : TaskId) : State :=
  let s := { s with slashed := s.slashed.insert task }
  match s.tasks[task]? with
  | some sub => { s with tasks := s.tasks.insert task { sub with status := .failed } }
  | none => s

/-- Apply the penalties for proven fraud on a settled task, at most once. -/
def resolveFraud (state : State) (task : TaskId) (rewardTo : Option Identity)
    (params : Params) : Checked State := do
  if task ∈ state.slashed then
    return state
  else
    match state.receipts[task]?, (state.tasks[task]?).bind (·.provider) with
    | some receipt, some provider => do
        let sub ← Checked.expect state.tasks[task]?
        let s ← state.penalize provider sub.requester receipt rewardTo params
        let s ← s.strike provider
        return s.markFailed task
    | _, _ => return state

/-- Resolve an open challenge: slash and return the bond, or forfeit the bond. -/
def resolveChallenge (state : State) (task : TaskId) (fraud : Bool) (params : Params) :
    Checked State := do
  match state.pendingChallenges[task]? with
  | none => return state
  | some pc => do
      let s := { state with pendingChallenges := state.pendingChallenges.erase task }
      if fraud then
        let s ← s.resolveFraud task (some pc.challenger) params
        s.unlock pc.challenger pc.bond
      else
        let (s, forfeited) ← s.takeBonded pc.challenger pc.bond
        s.countBurned forfeited

end State

/-! ## Runs of the ledger -/

/-- One operation on the ledger, with the parameters in force. -/
inductive Op
  | apply (stx : SignedTx) (params : Params)
  | advanceEpoch (params : Params)
  | resolveFraud (task : TaskId) (rewardTo : Option Identity) (params : Params)
  | resolveChallenge (task : TaskId) (fraud : Bool) (params : Params)

/-- The outcome of an operation; only a transaction can be rejected. -/
def Op.exec [Crypto] (s : State) : Op → Outcome Reject State
  | .apply stx params => s.apply stx params
  | .advanceEpoch params => liftM (s.advanceEpoch params)
  | .resolveFraud task rewardTo params => liftM (s.resolveFraud task rewardTo params)
  | .resolveChallenge task fraud params => liftM (s.resolveChallenge task fraud params)

/-- One accepted operation. -/
def Step [Crypto] (s : State) (op : Op) (s' : State) : Prop := (op.exec s).Returns s'

/-- Apply transactions in order, each of which must be accepted. -/
def applyAll [Crypto] (params : Params) (s : State) (txs : List SignedTx) :
    Outcome Reject State :=
  txs.foldlM (fun s stx => s.apply stx params) s

/-- The states reached from a genesis by accepted operations. -/
def Reachable [Crypto] (s : State) : Prop :=
  ∃ allocations epoch initial ops,
    State.genesis allocations epoch = .ok initial ∧ Run Step initial ops s

end Ducp
