import Ducp.Ledger.Events
import Ducp.Library.Unwinding

/-!
# Power seals are reward neutral

A proof may carry a power seal.  The ledger stores the proof and reads everything in it but the
seal, so two histories which differ in the seals alone meet the same verdicts and end in states
which differ in the seals of the stored proofs alone.
-/

namespace Ducp

open Outcome Std

/-! ## Forgetting the seals -/

/-- A proof without its power seal. -/
def ComputeProof.unsealed (proof : ComputeProof) : ComputeProof := { proof with powerSeal := none }

/-- A payload without its power seal. -/
def Tx.unsealed : Tx → Tx
  | .submitProof proof => .submitProof proof.unsealed
  | tx => tx

/-- A state whose stored proofs have lost their power seals. -/
def State.unsealed (s : State) : State :=
  { s with proofs := s.proofs.map fun _ proof => proof.unsealed }

/-- Operations which differ at most in a power seal, and in a signature which goes with it. -/
inductive Op.Alike [Crypto] : Op → Op → Prop
  | same (op : Op) : Op.Alike op op
  | sealed {stx stx' : SignedTx} (params : Params) (author : stx.author = stx'.author)
      (nonce : stx.nonce = stx'.nonce) (tx : stx.tx.unsealed = stx'.tx.unsealed)
      (verified : stx.verifySig = .ok true) (verified' : stx'.verifySig = .ok true) :
      Op.Alike (.apply stx params) (.apply stx' params)

namespace State

/-- Storing a proof and forgetting its seal. -/
theorem unsealed_insert (s : State) (proof : ComputeProof) :
    State.unsealed { s with proofs := s.proofs.insert proof.task proof } =
      { s.unsealed with proofs := s.unsealed.proofs.insert proof.task proof.unsealed } := by
  have proofs : (s.proofs.insert proof.task proof).map (fun _ stored => stored.unsealed) =
      (s.proofs.map fun _ stored => stored.unsealed).insert proof.task proof.unsealed := by
    apply ExtTreeMap.ext_getElem?
    intro task
    rw [ExtTreeMap.getElem?_map, ExtTreeMap.getElem?_insert, ExtTreeMap.getElem?_insert,
      ExtTreeMap.getElem?_map]
    split <;> rfl
  simp only [State.unsealed, proofs]

/-! ## Movements of funds -/

section Movements

variable (s : State) (id : Identity) (amount : Ucu)

theorem credit_unsealed : s.unsealed.credit id amount = unsealed <$> s.credit id amount := by
  simp only [credit, map_bind, map_pure]
  rfl

theorem escrow_unsealed : s.unsealed.escrow id amount = unsealed <$> s.escrow id amount := by
  simp only [escrow, map_bind, map_pure]
  rfl

theorem lock_unsealed : s.unsealed.lock id amount = unsealed <$> s.lock id amount := by
  simp only [lock, map_bind, map_pure]
  rfl

theorem unlock_unsealed : s.unsealed.unlock id amount = unsealed <$> s.unlock id amount := by
  simp only [unlock, map_bind, map_pure]
  rfl

theorem takeBalance_unsealed :
    s.unsealed.takeBalance id amount =
      (fun taken => (taken.1.unsealed, taken.2)) <$> s.takeBalance id amount := by
  simp only [takeBalance, map_bind, map_pure]
  rfl

theorem takeBonded_unsealed :
    s.unsealed.takeBonded id amount =
      (fun taken => (taken.1.unsealed, taken.2)) <$> s.takeBonded id amount := by
  simp only [takeBonded, map_bind, map_pure]
  rfl

theorem creditPool_unsealed : s.unsealed.creditPool amount = unsealed <$> s.creditPool amount := by
  simp only [creditPool, map_bind, map_pure]
  rfl

theorem countMinted_unsealed :
    s.unsealed.countMinted amount = unsealed <$> s.countMinted amount := by
  simp only [countMinted, map_bind, map_pure]
  rfl

theorem countBurned_unsealed :
    s.unsealed.countBurned amount = unsealed <$> s.countBurned amount := by
  simp only [countBurned, map_bind, map_pure]
  rfl

theorem drainEscrow_unsealed (maxUcu fee u : Ucu) :
    s.unsealed.drainEscrow id maxUcu fee u = unsealed <$> s.drainEscrow id maxUcu fee u := by
  simp only [drainEscrow, map_bind, map_pure]
  rfl

theorem accrue_unsealed (delta : Sp) :
    s.unsealed.accrue id delta = unsealed <$> s.accrue id delta := by
  simp only [accrue, map_bind, map_pure]
  rfl

theorem strike_unsealed : s.unsealed.strike id = unsealed <$> s.strike id := by
  simp only [strike, map_bind, map_pure]
  rfl

theorem payReward_unsealed (rewardTo : Option Identity) :
    s.unsealed.payReward amount rewardTo = unsealed <$> s.payReward amount rewardTo := by
  cases rewardTo with
  | none => exact s.creditPool_unsealed amount
  | some auditor => exact s.credit_unsealed auditor amount

end Movements

/-! ## Transitions -/

section Transitions

variable (s : State) (params : Params)

theorem settle_unsealed (body : TaskBody) (sub : Submission) (proof : ComputeProof) :
    s.unsealed.settle body sub proof.unsealed params =
      unsealed <$> s.settle body sub proof params := by
  simp only [settle, drainEscrow_unsealed, creditPool_unsealed, credit_unsealed,
    countMinted_unsealed, accrue_unsealed, bind_map_left, map_bind, map_pure]
  rfl

theorem penalize_unsealed (provider requester : Identity) (receipt : Receipt)
    (rewardTo : Option Identity) :
    s.unsealed.penalize provider requester receipt rewardTo params =
      unsealed <$> s.penalize provider requester receipt rewardTo params := by
  simp only [penalize, takeBonded_unsealed, credit_unsealed, takeBalance_unsealed,
    countBurned_unsealed, payReward_unsealed, bind_map_left, map_bind]

theorem markFailed_unsealed (task : TaskId) :
    s.unsealed.markFailed task = (s.markFailed task).unsealed := by
  have tasks : s.unsealed.tasks = s.tasks := rfl
  simp only [markFailed, tasks]
  cases s.tasks[task]? with
  | none => rfl
  | some sub => rfl

theorem resolveFraud_unsealed (task : TaskId) (rewardTo : Option Identity) :
    s.unsealed.resolveFraud task rewardTo params =
      unsealed <$> s.resolveFraud task rewardTo params := by
  have slashed : s.unsealed.slashed = s.slashed := rfl
  have receipts : s.unsealed.receipts = s.receipts := rfl
  have tasks : s.unsealed.tasks = s.tasks := rfl
  unfold resolveFraud
  rw [slashed, receipts, tasks]
  split
  · rfl
  · split
    · simp only [penalize_unsealed, strike_unsealed, markFailed_unsealed, bind_map_left, map_bind,
        map_pure]
    · rfl

theorem resolveChallenge_unsealed (task : TaskId) (fraud : Bool) :
    s.unsealed.resolveChallenge task fraud params =
      unsealed <$> s.resolveChallenge task fraud params := by
  have pending : s.unsealed.pendingChallenges = s.pendingChallenges := rfl
  unfold resolveChallenge
  rw [pending]
  split
  · rfl
  · rename_i pc _
    have closed : { s.unsealed with pendingChallenges := s.pendingChallenges.erase task } =
      State.unsealed { s with pendingChallenges := s.pendingChallenges.erase task } := rfl
    rw [closed]
    cases fraud with
    | true => simp only [if_true, resolveFraud_unsealed, unlock_unsealed, bind_map_left, map_bind]
    | false =>
        simp only [Bool.false_eq_true, if_false, takeBonded_unsealed, countBurned_unsealed,
          bind_map_left, map_bind]

theorem decayStanding_unsealed :
    s.unsealed.decayStanding params = unsealed <$> s.decayStanding params := by
  simp only [decayStanding, map_bind, map_pure]
  rfl

theorem release_commutes (matured : TaskId × Identity × Ucu) :
    Commutes unsealed fun s => release s matured := by
  intro s
  simp only [release, unlock_unsealed, bind_map_left, map_bind, map_pure]
  rfl

theorem advanceEpoch_unsealed :
    s.unsealed.advanceEpoch params = unsealed <$> s.advanceEpoch params := by
  simp only [advanceEpoch, map_bind]
  refine bind_congr fun epoch => ?_
  have ticked : { s.unsealed with epoch } = State.unsealed { s with epoch } := rfl
  rw [ticked, decayStanding_unsealed, bind_map_left]
  exact bind_congr fun decayed => Commutes.foldlM release_commutes decayed

end Transitions

/-! ## Transactions -/

section Transactions

variable (s : State) (author : Identity) (params : Params)

theorem checkAndBumpNonce_unsealed (nonce : BitVec 64) :
    s.unsealed.checkAndBumpNonce author nonce = unsealed <$> s.checkAndBumpNonce author nonce := by
  simp only [checkAndBumpNonce, map_bind, map_pure]
  rfl

theorem claimTask_unsealed (task : TaskId) :
    s.unsealed.claimTask author task params = unsealed <$> s.claimTask author task params := by
  simp only [claimTask, lock_unsealed, lift_map, bind_map_left, map_bind, map_pure]
  rfl

theorem submitProof_unsealed (proof : ComputeProof) :
    s.unsealed.submitProof author proof.unsealed params =
      unsealed <$> s.submitProof author proof params := by
  -- what is left of the submission once the proof is stored
  have settled (tasks : ExtTreeMap TaskId Submission) (body : TaskBody) (sub : Submission) :
      unsealed <$> (liftM (settle { s with proofs := s.proofs.insert proof.task proof, tasks } body
        sub proof params) : Outcome Reject State) =
      liftM (settle { s.unsealed with
        proofs := s.unsealed.proofs.insert proof.task proof.unsealed, tasks } body sub
          proof.unsealed params) := by
    have stored := unsealed_insert { s with tasks } proof
    rw [← lift_map, ← settle_unsealed]
    exact congrArg (fun s => liftM (settle s body sub proof.unsealed params)) stored
  simp only [submitProof, map_bind, settled]
  rfl

theorem openChallenge_unsealed (task : TaskId) (bond : Ucu) :
    s.unsealed.openChallenge author task bond params =
      unsealed <$> s.openChallenge author task bond params := by
  simp only [openChallenge, lock_unsealed, lift_map, bind_map_left, map_bind, map_pure]
  rfl

theorem transfer_unsealed (recipient : Identity) (amount : Ucu) :
    s.unsealed.transfer author recipient amount =
      unsealed <$> s.transfer author recipient amount := by
  simp only [transfer, map_bind, ← lift_map, ← credit_unsealed]
  rfl

variable [Crypto]

theorem submitTask_unsealed (body : TaskBody) :
    s.unsealed.submitTask author body params = unsealed <$> s.submitTask author body params := by
  simp only [submitTask, escrow_unsealed, lift_map, bind_map_left, map_bind, map_pure]
  rfl

theorem applyTx_unsealed (tx : Tx) :
    s.unsealed.applyTx author params tx.unsealed = unsealed <$> s.applyTx author params tx := by
  cases tx with
  | submitTask body => exact s.submitTask_unsealed author params body
  | claimTask task => exact s.claimTask_unsealed author params task
  | submitProof proof => exact s.submitProof_unsealed author params proof
  | transfer recipient amount => exact s.transfer_unsealed author recipient amount
  | challenge task bond => exact s.openChallenge_unsealed author params task bond

/-- Once the signature is checked, neither the seal in the payload nor those in the state are
read. -/
theorem unsealed_apply (stx : SignedTx) :
    unsealed <$> s.apply stx params = (do
      let verified ← stx.verifySig
      rejectIf (verified = false) .badSignature
      let s ← s.unsealed.checkAndBumpNonce stx.author stx.nonce
      s.applyTx stx.author params stx.tx.unsealed) := by
  simp only [apply, checkAndBumpNonce_unsealed, applyTx_unsealed, map_bind, bind_map_left]

end Transactions

end State

/-! ## Whole histories -/

section Histories

theorem State.proofs_of_unsealed_eq {s s' : State} (same : s.unsealed = s'.unsealed)
    (task : TaskId) :
    (s.proofs[task]?).map ComputeProof.unsealed = (s'.proofs[task]?).map ComputeProof.unsealed := by
  have proofs := congrArg (fun s : State => s.proofs[task]?) same
  simpa only [State.unsealed, ExtTreeMap.getElem?_map] using proofs

theorem State.eq_of_unsealed_eq {s s' : State} (same : s.unsealed = s'.unsealed) :
    s' = { s with proofs := s'.proofs } := by
  have resealed := congrArg (fun s : State => { s with proofs := s'.proofs }) same
  exact resealed.symm

variable [Crypto]

/-- Alike operations on states which differ in seals alone have outcomes which differ in seals
alone. -/
theorem Op.Alike.exec {s s' : State} {op op' : Op} (alike : Op.Alike op op')
    (same : s.unsealed = s'.unsealed) :
    State.unsealed <$> op.exec s = State.unsealed <$> op'.exec s' := by
  cases alike with
  | same op =>
      cases op with
      | apply stx params =>
          simp only [Op.exec, State.unsealed_apply, same]
      | advanceEpoch params =>
          simp only [Op.exec, ← lift_map, ← State.advanceEpoch_unsealed, same]
      | resolveFraud task rewardTo params =>
          simp only [Op.exec, ← lift_map, ← State.resolveFraud_unsealed, same]
      | resolveChallenge task fraud params =>
          simp only [Op.exec, ← lift_map, ← State.resolveChallenge_unsealed, same]
  | sealed params author nonce tx verified verified' =>
      simp only [Op.exec, State.unsealed_apply, same, author, nonce, tx, verified, verified']

/-- Two histories from one state which differ in power seals alone meet the same verdicts, or the
same panic, and their final states differ in the seals of the stored proofs alone. -/
theorem reward_neutral {start : State} {ops ops' : List Op}
    (alike : List.Forall₂ Op.Alike ops ops') :
    Prod.fst <$> replay Op.exec start ops = Prod.fst <$> replay Op.exec start ops' ∧
      ∀ (verdicts : List (Option Reject)) (final : State) (verdicts' : List (Option Reject))
          (final' : State), replay Op.exec start ops = .ok (verdicts, final) →
        replay Op.exec start ops' = .ok (verdicts', final') →
        final' = { final with proofs := final'.proofs } ∧
          ∀ task : TaskId, (final.proofs[task]?).map ComputeProof.unsealed =
            (final'.proofs[task]?).map ComputeProof.unsealed := by
  have replayed := replay_alike alike (fun same alike => Op.Alike.exec alike same)
    (rfl : start.unsealed = start.unsealed)
  constructor
  · have verdicts := congrArg (Prod.fst <$> ·) replayed
    simpa only [Functor.map_map, Prod.map_fst, id] using verdicts
  · intro verdicts final verdicts' final' ran ran'
    rw [ran, ran'] at replayed
    have pairs : (verdicts, final.unsealed) = (verdicts', final'.unsealed) := Except.ok.inj replayed
    have same := congrArg Prod.snd pairs
    exact ⟨State.eq_of_unsealed_eq same, State.proofs_of_unsealed_eq same⟩

end Histories

section Sample

open Sample

attribute [local instance] Crypto.checksum

/-- An energy attestation. -/
def Sample.powerSeal : PowerSeal where
  sealGrade := .s2Locked
  boundary := .node
  powerCapMilliwatts := 700
  windowMillis := 30
  tMaxMillikelvin := 330
  attestationEvidence := Bytes.fill 32 21
  benchmark := 1

/-- A settlement with this seal, which is challenged and slashed after a claim out of turn. -/
def Sample.attested (powerSeal : Option PowerSeal) : List Op :=
  [sent alice 0 (.submitTask (body 0)), sent bob 0 (.claimTask (task 0)),
    sent bob 1 (.submitProof { proof 0 400 with powerSeal }), sent carol 9 (.claimTask (task 0)),
    sent carol 0 (.challenge (task 0) 200), .resolveChallenge (task 0) true .devnet,
    .advanceEpoch .devnet]

theorem reward_neutral_attested : ∃ start, State.genesis allocations 0 = .ok start ∧
    Prod.fst <$> replay Op.exec start (attested none) =
      Prod.fst <$> replay Op.exec start (attested (some powerSeal)) := by
  have ran : (do
      let start ← State.genesis allocations 0
      let (verdicts, _) ← replay Op.exec start (attested none)
      return verdicts : Checked (List (Option Reject))) =
        .ok [none, none, none, some .badNonce, none, none, none] := by
    decide +kernel
  rw [Checked.bind_eq_ok] at ran
  obtain ⟨start, genesis_eq, _⟩ := ran
  have proofs : Op.Alike (sent bob 1 (.submitProof { proof 0 400 with powerSeal := none }))
      (sent bob 1 (.submitProof { proof 0 400 with powerSeal := some powerSeal })) :=
    .sealed _ rfl rfl rfl (by decide +kernel) (by decide +kernel)
  have alike : List.Forall₂ Op.Alike (attested none) (attested (some powerSeal)) :=
    .cons (.same _) (.cons (.same _) (.cons proofs (.cons (.same _) (.cons (.same _)
      (.cons (.same _) (.cons (.same _) .nil))))))
  exact ⟨start, genesis_eq, (reward_neutral alike).1⟩

end Sample

end Ducp
