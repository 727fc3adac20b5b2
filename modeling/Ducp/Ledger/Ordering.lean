import Ducp.Ledger.Phases
import Ducp.Library.Reorder

/-!
# The order of transactions

Transactions of different authors and tasks share accounts, the fee pool and the supply, so that
their order decides which of them are admitted.  It decides nothing else: what an accepted
transaction does depends on the Standing of its author and on the record of its task, and both
move through the same steps in every order.
-/

namespace Ducp

open DoubleEntry MapSum Outcome Std
open Finsupp (single)

/-! ## Which accounts a transaction opens -/

/-- The second state has the accounts of the first one and these, under the same owners. -/
structure Touches (s : State) (ids : List Identity) (s' : State) : Prop where
  keys : ∀ id : Identity, id ∈ s'.accounts ↔ id ∈ s.accounts ∨ id ∈ ids
  owners : ∀ id : Identity, (s'.acct id).id = (s.acct id).id

section Touches

variable {s s' s'' : State} {id : Identity} {amount : Ucu} {params : Params}

theorem Touches.trans {ids ids' : List Identity} (first : Touches s ids s')
    (second : Touches s' ids' s'') : Touches s (ids ++ ids') s'' where
  keys probe := by rw [second.keys, first.keys, List.mem_append, or_assoc]
  owners probe := (second.owners probe).trans (first.owners probe)

theorem Touches.setAcct {account : Account} (owner : account.id = (s.acct id).id) :
    Touches s [id] (s.setAcct id account) where
  keys probe := by
    simp only [State.setAcct, ExtTreeMap.mem_insert, LawfulEqCmp.compare_eq_iff_eq,
      List.mem_singleton]
    tauto
  owners probe := by
    rw [State.acct_setAcct]
    split
    · rename_i same
      rw [owner, same]
    · rfl

/-- Rewriting anything but the accounts. -/
theorem Touches.of_accounts_eq (accounts : s'.accounts = s.accounts) : Touches s [] s' where
  keys probe := by simp [accounts]
  owners probe := by simp [State.acct, accounts]

namespace State

theorem credit_touches (credited : s.credit id amount = .ok s') : Touches s [id] s' := by
  simp only [credit, Checked.bind_eq_ok, Checked.pure_eq_ok] at credited
  obtain ⟨balance, _, rfl⟩ := credited
  exact .setAcct rfl

theorem escrow_touches (escrowed : s.escrow id amount = .ok s') : Touches s [id] s' := by
  simp only [escrow, Checked.bind_eq_ok, Checked.pure_eq_ok] at escrowed
  obtain ⟨balance, _, escrowed, _, rfl⟩ := escrowed
  exact .setAcct rfl

theorem lock_touches (locked : s.lock id amount = .ok s') : Touches s [id] s' := by
  simp only [lock, Checked.bind_eq_ok, Checked.pure_eq_ok] at locked
  obtain ⟨balance, _, bonded, _, rfl⟩ := locked
  exact .setAcct rfl

theorem drainEscrow_touches {maxUcu fee u : Ucu}
    (drained : s.drainEscrow id maxUcu fee u = .ok s') : Touches s [id] s' := by
  simp only [drainEscrow, Checked.bind_eq_ok, Checked.pure_eq_ok] at drained
  obtain ⟨sum, _, escrowed, _, refund, _, balance, _, rfl⟩ := drained
  exact .setAcct rfl

end State

theorem Touches.of_mem_iff {ids ids' : List Identity} (touches : Touches s ids s')
    (same : ∀ probe, probe ∈ ids ↔ probe ∈ ids') : Touches s ids' s' where
  keys probe := by rw [touches.keys, same]
  owners := touches.owners

/-- Rewriting anything but the accounts after touching some. -/
theorem Touches.congr {ids : List Identity} (touches : Touches s ids s')
    (accounts : s''.accounts = s'.accounts) : Touches s ids s'' := by
  simpa using touches.trans (.of_accounts_eq accounts)

end Touches

/-! ## The task of a transaction -/

/-- The task a payload is about. -/
def Tx.subject [Crypto] : Tx → Option TaskId
  | .submitTask body => body.taskId.toOption
  | .claimTask task => some task
  | .submitProof proof => some proof.task
  | .challenge task _ => some task
  | .transfer _ _ => none

instance : Nonempty View :=
  ⟨.absent⟩

/-- What the ledger says about the task of a payload. -/
def State.subjectView [Crypto] (s : State) (tx : Tx) : View := tx.subject.elim .absent s.view

/-- The accounts which a payload opens when its task is recorded so. -/
def Tx.touched (author : Identity) (view : View) : Tx → List Identity
  | .submitProof _ => view.sub.elim [author] fun sub => [sub.requester, author]
  | .transfer recipient _ => [author, recipient]
  | _ => [author]

namespace State

variable {s s' : State} {params : Params}

theorem settle_touches {body : TaskBody} {sub : Submission} {proof : ComputeProof}
    (settled : s.settle body sub proof params = .ok s') :
    Touches s [sub.requester, proof.provider] s' := by
  simp only [settle, Checked.bind_eq_ok, Checked.pure_eq_ok, accrue_eq_ok, countMinted_eq_ok,
    creditPool] at settled
  obtain ⟨drained, drain_eq, _, ⟨feePool, _, rfl⟩, paid, paid_eq, _, _, issued, issued_eq, _,
    ⟨_, _, rfl⟩, _, _, _, ⟨_, _, rfl⟩, _, _, _, _, rfl⟩ := settled
  have pooled : Touches s [sub.requester] { drained with feePool } :=
    (drainEscrow_touches drain_eq).congr rfl
  have touches : Touches s [sub.requester, proof.provider] issued :=
    (pooled.trans (credit_touches paid_eq) |>.trans (credit_touches issued_eq)).of_mem_iff
      fun probe => by simp
  exact touches.congr rfl

theorem applyTx_touches [Crypto] {author : Identity} {tx : Tx}
    (returned : (s.applyTx author params tx).Returns s') :
    Touches s (tx.touched author (s.subjectView tx)) s' := by
  cases tx with
  | submitTask body =>
      simp only [applyTx, submitTask, returns_bind, returns_rejectIf, returns_lift, returns_okOr,
        returns_pure] at returned
      obtain ⟨_, _, _, _, _, _, _, _, _, _, _, _, moved, escrowed, rfl⟩ := returned
      exact (escrow_touches escrowed).congr rfl
  | claimTask task =>
      simp only [applyTx, claimTask, returns_bind, returns_rejectIf, returns_lift, returns_okOr,
        returns_pure] at returned
      obtain ⟨_, _, _, _, _, _, _, _, _, _, _, _, moved, locked, _, _, rfl⟩ := returned
      exact (lock_touches locked).congr rfl
  | submitProof proof =>
      simp only [applyTx, submitProof, returns_bind, returns_rejectIf, returns_lift, returns_okOr,
        not_or, not_not] at returned
      obtain ⟨_, _, sub, sub_eq, _, _, _, ⟨_, rfl⟩, _, _, _, _, _, _, settled⟩ := returned
      have found : (s.subjectView (.submitProof proof)).sub = some sub := sub_eq
      have opened : (Tx.submitProof proof).touched proof.provider
          (s.subjectView (.submitProof proof)) = [sub.requester, proof.provider] := by
        simp [Tx.touched, found]
      rw [opened]
      have touches := settle_touches settled
      exact ⟨touches.keys, touches.owners⟩
  | challenge task bond =>
      simp only [applyTx, openChallenge, returns_bind, returns_rejectIf, returns_lift,
        returns_okOr, returns_pure] at returned
      obtain ⟨_, _, _, _, _, _, _, _, _, _, _, _, _, _, _, _, moved, locked, rfl⟩ := returned
      exact (lock_touches locked).congr rfl
  | transfer recipient amount =>
      simp only [applyTx, transfer, returns_bind, returns_rejectIf, returns_lift] at returned
      obtain ⟨_, _, balance, _, credited⟩ := returned
      have sent : Touches s [author] (s.setAcct author { s.acct author with balance }) :=
        .setAcct rfl
      exact sent.trans (credit_touches credited)

end State

/-! ## What determines an accepted payload -/

section Determined

variable {s s' t t' : State} {author : Identity} {params : Params}

/-- The Standing an author claims with is on its record. -/
theorem standingOf_congr (standing : s.standing[author]? = t.standing[author]?) :
    s.standingOf author = t.standingOf author := by
  rw [State.standingOf, State.standingOf, standing]

theorem Claims.stake_unique {task : TaskId} {body body' : TaskBody} {sub sub' : Submission}
    {stake stake' : Ucu} (claims : Claims s author task params body sub stake s')
    (claims' : Claims t author task params body' sub' stake' t')
    (standing : s.standing[author]? = t.standing[author]?) (view : s.view task = t.view task) :
    sub = sub' ∧ stake = stake' := by
  have body_eq : some body = some body' :=
    claims.body_eq.symm.trans ((congrArg View.body view).trans claims'.body_eq)
  have sub_eq : some sub = some sub' :=
    claims.sub_eq.symm.trans ((congrArg View.sub view).trans claims'.sub_eq)
  obtain rfl := Option.some.inj body_eq
  have stakes := claims.stake_eq
  rw [standingOf_congr standing, claims'.stake_eq] at stakes
  exact ⟨Option.some.inj sub_eq, (Except.ok.inj stakes).symm⟩

/-- A receipt is determined by the proof, the fee and the epoch. -/
theorem Settlement.receipt_unique {proof : ComputeProof} {fee : Ucu} {receipt receipt' : Receipt}
    {record record' : StandingRecord}
    (settlement : Settlement s author proof params fee receipt record)
    (settlement' : Settlement t author proof params fee receipt' record')
    (epoch : s.epoch = t.epoch) : receipt = receipt' := by
  have issuance := Except.ok.inj (settlement.issuance.symm.trans settlement'.issuance)
  have delta := Except.ok.inj (settlement.accrual.symm.trans settlement'.accrual)
  have clawback : receipt.clawbackUntil = receipt'.clawbackUntil := by
    apply BitVec.eq_of_toNat_eq
    rw [settlement.clawbackUntil, settlement'.clawbackUntil, epoch]
  have settled := settlement.settledEpoch.trans (epoch.trans settlement'.settledEpoch.symm)
  have task := settlement.receipt_task.trans settlement'.receipt_task.symm
  have paid := settlement.paid.trans settlement'.paid.symm
  have validatorFee := settlement.validatorFee.trans settlement'.validatorFee.symm
  cases receipt
  cases receipt'
  simp_all

/-- The Standing record after a settlement is determined by the one before it. -/
theorem Settlement.record_unique {proof : ComputeProof} {fee fee' : Ucu}
    {receipt receipt' : Receipt} {record record' : StandingRecord}
    (settlement : Settlement s author proof params fee receipt record)
    (settlement' : Settlement t author proof params fee' receipt' record')
    (epoch : s.epoch = t.epoch) (standing : s.standing[author]? = t.standing[author]?) :
    record = record' := by
  have records : s.standingRecord author = t.standingRecord author := by
    rw [State.standingRecord, State.standingRecord, standing, epoch]
  have delta := Except.ok.inj (settlement.accrual.symm.trans settlement'.accrual)
  have accrued := settlement.accrued
  rw [records, delta, settlement'.accrued] at accrued
  rw [settlement.kept, settlement'.kept, records, Except.ok.inj accrued]

theorem Settles.unique {proof : ComputeProof} {body body' : TaskBody} {sub sub' : Submission}
    {receipt receipt' : Receipt} {record record' : StandingRecord}
    (settles : Settles s author proof params body sub receipt record s')
    (settles' : Settles t author proof params body' sub' receipt' record' t')
    (epoch : s.epoch = t.epoch) (view : s.view proof.task = t.view proof.task) :
    body = body' ∧ sub = sub' ∧ receipt = receipt' := by
  have body_eq : some body = some body' :=
    settles.body_eq.symm.trans ((congrArg View.body view).trans settles'.body_eq)
  have sub_eq : some sub = some sub' :=
    settles.sub_eq.symm.trans ((congrArg View.sub view).trans settles'.sub_eq)
  obtain rfl := Option.some.inj body_eq
  obtain rfl := Option.some.inj sub_eq
  exact ⟨rfl, rfl, settles.toSettlement.receipt_unique settles'.toSettlement epoch⟩

variable [Crypto]

theorem Submits.unique {body : TaskBody} {task task' : TaskId} {fee fee' : Ucu}
    (submits : Submits s author body params task fee s')
    (submits' : Submits t author body params task' fee' t') : task = task' ∧ fee = fee' :=
  ⟨Except.ok.inj (submits.taskId.symm.trans submits'.taskId),
    Except.ok.inj (submits.fee_eq.symm.trans submits'.fee_eq)⟩

/-- Only a proof accrues Standing. -/
theorem Payload.standing_eq {tx : Tx} (payload : Payload s author params tx s')
    (other : ∀ proof, tx ≠ .submitProof proof) : s'.standing = s.standing := by
  cases payload with
  | submitTask submits => exact congrArg Records.standing submits.records
  | claimTask claims => exact congrArg Records.standing claims.records
  | submitProof _ => exact (other _ rfl).elim
  | challenge opens => exact congrArg Records.standing opens.records
  | transfer moves => exact congrArg Records.standing moves.records

omit [Crypto] in
theorem Settles.standing_eq {proof : ComputeProof} {body : TaskBody} {sub : Submission}
    {receipt : Receipt} {record : StandingRecord}
    (settles : Settles s author proof params body sub receipt record s') :
    s'.standing = s.standing.insert author record :=
  congrArg Records.standing settles.records

/-- An accepted payload leaves the Standing of everyone but its author alone. -/
theorem Payload.standing_other {tx : Tx} (payload : Payload s author params tx s') {id : Identity}
    (other : id ≠ author) : s'.standing[id]? = s.standing[id]? := by
  by_cases proves : ∃ proof, tx = .submitProof proof
  · obtain ⟨proof, rfl⟩ := proves
    cases payload with
    | submitProof settles => rw [settles.standing_eq, getElem?_insert, if_neg other]
  · rw [payload.standing_eq fun proof tx_eq => proves ⟨proof, tx_eq⟩]

/-- The Standing of the author after a payload is determined by the one before it. -/
theorem Payload.standing_determined {tx : Tx} (payload : Payload s author params tx s')
    (payload' : Payload t author params tx t') (epoch : s.epoch = t.epoch)
    (standing : s.standing[author]? = t.standing[author]?) :
    s'.standing[author]? = t'.standing[author]? := by
  by_cases proves : ∃ proof, tx = .submitProof proof
  · obtain ⟨proof, rfl⟩ := proves
    cases payload with
    | submitProof settles =>
        cases payload' with
        | submitProof settles' =>
            rw [settles.standing_eq, settles'.standing_eq, getElem?_insert, getElem?_insert,
              if_pos rfl, if_pos rfl,
              settles.toSettlement.record_unique settles'.toSettlement epoch standing]
  · have other : ∀ proof, tx ≠ .submitProof proof := fun proof tx_eq => proves ⟨proof, tx_eq⟩
    rw [payload.standing_eq other, payload'.standing_eq other, standing]

/-- An accepted payload rewrites the record of its own task only. -/
theorem Payload.view_other {tx : Tx} (payload : Payload s author params tx s') {probe : TaskId}
    (other : tx.subject ≠ some probe) : s'.view probe = s.view probe := by
  have apart {task : TaskId} (subject : tx.subject = some task) : probe ≠ task := by
    rintro rfl
    exact other subject
  cases payload with
  | @submitTask body task _ _ submits =>
      have subject : (Tx.submitTask body).subject = some task := by
        rw [Tx.subject, submits.taskId]
        rfl
      rw [submits.view, if_neg (apart subject)]
  | claimTask claims => rw [claims.view, if_neg (apart rfl)]
  | submitProof settles => rw [settles.view, if_neg (apart rfl)]
  | challenge opens => rw [opens.view, if_neg (apart rfl)]
  | transfer moves => rw [moves.view]

/-- The record of the task after a payload is determined by the one before it, and by the Standing
of the author. -/
theorem Payload.view_determined {tx : Tx} (payload : Payload s author params tx s')
    (payload' : Payload t author params tx t') (epoch : s.epoch = t.epoch)
    (standing : s.standing[author]? = t.standing[author]?) {task : TaskId}
    (subject : tx.subject = some task) (view : s.view task = t.view task) :
    s'.view task = t'.view task := by
  cases payload with
  | submitTask submits =>
      cases payload' with
      | submitTask submits' =>
          obtain ⟨rfl, rfl⟩ := submits.unique submits'
          rw [Tx.subject, submits.taskId] at subject
          obtain rfl := Option.some.inj subject
          rw [submits.view, submits'.view, if_pos rfl, if_pos rfl, view]
  | claimTask claims =>
      cases payload' with
      | claimTask claims' =>
          obtain rfl := Option.some.inj subject
          obtain ⟨rfl, rfl⟩ := claims.stake_unique claims' standing view
          rw [claims.view, claims'.view, if_pos rfl, if_pos rfl, view]
  | submitProof settles =>
      cases payload' with
      | submitProof settles' =>
          obtain rfl := Option.some.inj subject
          obtain ⟨rfl, rfl, rfl⟩ := settles.unique settles' epoch view
          rw [settles.view, settles'.view, if_pos rfl, if_pos rfl, view]
  | challenge opens =>
      cases payload' with
      | challenge opens' =>
          obtain rfl := Option.some.inj subject
          rw [opens.view, opens'.view, if_pos rfl, if_pos rfl, view]
  | transfer _ => cases subject

/-- What a payload posts and mints is determined by the record of its task and the Standing of its
author. -/
theorem Payload.posts_determined {tx : Tx} (payload : Payload s author params tx s')
    (payload' : Payload t author params tx t') (epoch : s.epoch = t.epoch)
    (standing : s.standing[author]? = t.standing[author]?)
    (view : s.subjectView tx = t.subjectView tx) :
    ∃ (debits credits : Bucket →₀ ℕ) (minted : ℕ),
      (Posts s.book debits credits s'.book ∧
        s'.supply.minted.toNat = s.supply.minted.toNat + minted) ∧
      Posts t.book debits credits t'.book ∧
        t'.supply.minted.toNat = t.supply.minted.toNat + minted := by
  cases payload with
  | submitTask submits =>
      cases payload' with
      | submitTask submits' =>
          obtain ⟨rfl, rfl⟩ := submits.unique submits'
          exact ⟨_, _, _, ⟨submits.posts, submits.minted⟩, submits'.posts, submits'.minted⟩
  | claimTask claims =>
      cases payload' with
      | claimTask claims' =>
          obtain ⟨rfl, rfl⟩ := claims.stake_unique claims' standing view
          exact ⟨_, _, _, ⟨claims.posts, claims.minted⟩, claims'.posts, claims'.minted⟩
  | submitProof settles =>
      cases payload' with
      | submitProof settles' =>
          obtain ⟨rfl, rfl, rfl⟩ := settles.unique settles' epoch view
          exact ⟨_, _, _, ⟨settles.posts, settles.minted⟩, settles'.posts, settles'.minted⟩
  | challenge opens =>
      cases payload' with
      | challenge opens' =>
          exact ⟨_, _, _, ⟨opens.posts, opens.minted⟩, opens'.posts, opens'.minted⟩
  | transfer moves =>
      cases payload' with
      | transfer moves' =>
          exact ⟨_, _, 0, ⟨moves.posts, congrArg BitVec.toNat moves.minted⟩, moves'.posts,
            congrArg BitVec.toNat moves'.minted⟩

end Determined

/-! ## Authors and tasks move in one order -/

/-- An accepted transaction on a consistent state at an epoch. -/
structure Applies [Crypto] (params : Params) (epoch : Epoch) (s : State) (stx : SignedTx)
    (s' : State) : Prop where
  phases : InPhase s
  epoch : s.epoch = epoch
  applied : (s.apply stx params).Returns s'

/-- The nonce and the Standing record of an author. -/
def State.authorView (author : Identity) (s : State) :
    Option (BitVec 64) × Option StandingRecord := (s.nonces[author]?, s.standing[author]?)

/-- How far a task has come. -/
def View.stage (view : View) : ℕ :=
  view.sub.elim 0 fun sub =>
    match sub.status with
    | .submitted => 1
    | .executing => 2
    | .settled => if view.pending.isSome then 4 else 3
    | _ => 5

/-- The stage of the task which a payload acts on. -/
def Tx.rank : Tx → ℕ
  | .submitTask _ => 0
  | .claimTask _ => 1
  | .submitProof _ => 2
  | .challenge _ _ => 3
  | .transfer _ _ => 0

section Ranked

variable [Crypto] {s s' : State} {author : Identity} {params : Params} {epoch : Epoch}
  {stx : SignedTx}

/-- An accepted payload moves its task one stage up. -/
theorem Payload.stage {tx : Tx} (phases : InPhase s) (payload : Payload s author params tx s')
    {task : TaskId} (subject : tx.subject = some task) :
    (s.view task).stage = tx.rank ∧ (s'.view task).stage = tx.rank + 1 := by
  cases payload with
  | @submitTask _ submitted _ _ submits =>
      rw [Tx.subject, submits.taskId] at subject
      obtain rfl := Option.some.inj subject
      have fresh : (s.view submitted).sub = none := submits.fresh
      rw [submits.view, if_pos rfl]
      simp [View.stage, fresh, Tx.rank]
  | @claimTask claimed _ sub _ _ claims =>
      obtain rfl := Option.some.inj subject
      have found : (s.view claimed).sub = some sub := claims.sub_eq
      rw [claims.view, if_pos rfl]
      simp [View.stage, found, claims.submitted, Tx.rank]
  | @submitProof proof _ sub _ _ _ settles =>
      obtain rfl := Option.some.inj subject
      obtain ⟨body, provider, view_eq, _⟩ :=
        (phases proof.task).of_executing settles.sub_eq settles.executing
      rw [settles.view, if_pos rfl, view_eq]
      simp [View.stage, settles.executing, Tx.rank]
  | @challenge challenged _ _ sub _ opens =>
      obtain rfl := Option.some.inj subject
      have found : (s.view challenged).sub = some sub := opens.sub_eq
      have idle : (s.view challenged).pending = none := opens.idle
      rw [opens.view, if_pos rfl]
      simp [View.stage, found, idle, opens.settled, Tx.rank]
  | transfer _ => cases subject

/-- An accepted transaction is its payload on a state of the same records but the nonce. -/
theorem Applies.payload (applies : Applies params epoch s stx s') :
    ∃ next : BitVec 64, next.toNat = stx.nonce.toNat + 1 ∧
      stx.nonce = (s.nonces[stx.author]?).getD 0 ∧
      s'.nonces = s.nonces.insert stx.author next ∧
      Payload { s with nonces := s.nonces.insert stx.author next } stx.author params stx.tx s' := by
  obtain ⟨_, expected, next, next_eq, payload⟩ := State.apply_effect applies.applied
  exact ⟨next, next_eq, expected, payload.nonces_eq, payload⟩

theorem Applies.touches (applies : Applies params epoch s stx s') :
    Touches s (stx.tx.touched stx.author (s.subjectView stx.tx)) s' := by
  have returned := applies.applied
  simp only [State.apply, State.checkAndBumpNonce, returns_bind, returns_rejectIf, returns_lift,
    returns_pure] at returned
  obtain ⟨_, _, _, _, _, ⟨_, _, next, _, rfl⟩, applied⟩ := returned
  have touches := State.applyTx_touches applied
  exact ⟨touches.keys, touches.owners⟩

theorem Applies.stage (applies : Applies params epoch s stx s') {task : TaskId}
    (subject : stx.tx.subject = some task) :
    (s.view task).stage = stx.tx.rank ∧ (s'.view task).stage = stx.tx.rank + 1 := by
  obtain ⟨next, _, _, _, payload⟩ := applies.payload
  have phases : InPhase { s with nonces := s.nonces.insert stx.author next } := applies.phases
  exact payload.stage phases subject

/-- The nonce and the Standing of an author move with the nonces of its transactions. -/
theorem author_ranked :
    Run.Ranked (Applies params epoch) (fun stx => some stx.author) State.authorView
      (fun view => (view.1.getD 0).toNat) (fun stx => stx.nonce.toNat) where
  frame {s stx s' id} applies other := by
    obtain ⟨next, _, _, nonces, payload⟩ := applies.payload
    have apart : id ≠ stx.author := fun same => other (congrArg some same.symm)
    have standing : s'.standing[id]? = s.standing[id]? := payload.standing_other apart
    simp [State.authorView, nonces, getElem?_insert, apart, standing]
  enters {s stx s' id} applies mine := by
    obtain ⟨next, _, expected, _, _⟩ := applies.payload
    obtain rfl := Option.some.inj mine
    exact congrArg BitVec.toNat expected.symm
  leaves {s stx s' id} applies mine := by
    obtain ⟨next, next_eq, _, nonces, _⟩ := applies.payload
    obtain rfl := Option.some.inj mine
    simp [State.authorView, nonces, next_eq]
  determined {s stx s' t t' id} applies applies' mine same := by
    obtain ⟨next, next_eq, _, nonces, payload⟩ := applies.payload
    obtain ⟨next', next_eq', _, nonces', payload'⟩ := applies'.payload
    obtain rfl := Option.some.inj mine
    have nexts : next = next' := BitVec.eq_of_toNat_eq (next_eq.trans next_eq'.symm)
    have standing : s'.standing[stx.author]? = t'.standing[stx.author]? :=
      payload.standing_determined payload' (applies.epoch.trans applies'.epoch.symm)
        (congrArg Prod.snd same)
    simp [State.authorView, nonces, nonces', nexts, standing]

/-- An accepted transaction of an author with a given Standing record. -/
def AppliesWith (params : Params) (epoch : Epoch) (note : SignedTx → Option StandingRecord)
    (s : State) (stx : SignedTx) (s' : State) : Prop :=
  Applies params epoch s stx s' ∧ s.standing[stx.author]? = note stx

/-- The record of a task moves with the stages of its transactions. -/
theorem task_ranked (note : SignedTx → Option StandingRecord) :
    Run.Ranked (AppliesWith params epoch note) (fun stx => stx.tx.subject)
      (fun task s => s.view task) View.stage (fun stx => stx.tx.rank) where
  frame {s stx s' task} applies other := by
    obtain ⟨next, _, _, _, payload⟩ := applies.1.payload
    exact payload.view_other other
  enters applies subject := (applies.1.stage subject).1
  leaves applies subject := (applies.1.stage subject).2
  determined {s stx s' t t' task} applies applies' subject same := by
    obtain ⟨next, _, _, _, payload⟩ := applies.1.payload
    obtain ⟨next', _, _, _, payload'⟩ := applies'.1.payload
    exact payload.view_determined payload' (applies.1.epoch.trans applies'.1.epoch.symm)
      (applies.2.trans applies'.2.symm) subject same

end Ranked

/-- An accepted transaction of an author with a given Standing record, on a given record of its
task. -/
def AppliesOn [Crypto] (params : Params) (epoch : Epoch)
    (note : SignedTx → Option StandingRecord) (seen : SignedTx → View) (s : State) (stx : SignedTx)
    (s' : State) : Prop :=
  AppliesWith params epoch note s stx s' ∧ s.subjectView stx.tx = seen stx

section Orders

variable [Crypto] {s final final' : State} {params : Params} {epoch : Epoch}
  {txs txs' : List SignedTx}

/-- The accepted transactions of one list meet the same Standing records and the same records of
their tasks in every order in which all of them are accepted. -/
theorem exists_appliesOn (run : Run (Applies params epoch) s txs final) :
    ∃ note seen, ∀ {txs' : List SignedTx} {final' : State}, txs.Perm txs' →
      Run (Applies params epoch) s txs' final' →
      Run (AppliesOn params epoch note seen) s txs' final' := by
  obtain ⟨note, noted⟩ := author_ranked.exists_note
    (fun s stx => s.standing[stx.author]?) (fun same => congrArg Prod.snd (same _ rfl)) run
  have with_note := noted (.refl _) run
  obtain ⟨seen, seen_eq⟩ := (task_ranked note).exists_note
    (fun s stx => s.subjectView stx.tx) (fun {before before' stx} same => by
      unfold State.subjectView
      cases subject : stx.tx.subject with
      | none => rfl
      | some task => exact same task subject) with_note
  exact ⟨note, seen, fun perm run' => seen_eq perm (noted perm run')⟩

/-- What an accepted transaction adds to the book and to the minted total is its own. -/
theorem gain_determined {note : SignedTx → Option StandingRecord} {seen : SignedTx → View}
    {stx : SignedTx} {s s' t t' : State} (applies : AppliesOn params epoch note seen s stx s')
    (applies' : AppliesOn params epoch note seen t stx t') :
    ((fun bucket => (s'.book bucket : ℤ), (s'.supply.minted.toNat : ℤ)) : (Bucket → ℤ) × ℤ) -
        (fun bucket => (s.book bucket : ℤ), (s.supply.minted.toNat : ℤ)) =
      (fun bucket => (t'.book bucket : ℤ), (t'.supply.minted.toNat : ℤ)) -
        (fun bucket => (t.book bucket : ℤ), (t.supply.minted.toNat : ℤ)) := by
  obtain ⟨next, _, _, _, payload⟩ := applies.1.1.payload
  obtain ⟨next', _, _, _, payload'⟩ := applies'.1.1.payload
  obtain ⟨debits, credits, minted, ⟨posts, minted_eq⟩, posts', minted_eq'⟩ :=
    payload.posts_determined payload' (applies.1.1.epoch.trans applies'.1.1.epoch.symm)
      (applies.1.2.trans applies'.1.2.symm) (applies.2.trans applies'.2.symm)
  apply Prod.ext
  · funext bucket
    have booked := posts.apply bucket
    have booked' := posts'.apply bucket
    have book_eq : ({ s with nonces := s.nonces.insert stx.author next } : State).book =
      s.book := rfl
    have book_eq' : ({ t with nonces := t.nonces.insert stx.author next' } : State).book =
      t.book := rfl
    rw [book_eq] at booked
    rw [book_eq'] at booked'
    simp only [Prod.fst_sub, Pi.sub_apply]
    omega
  · have minted_kept : ({ s with nonces := s.nonces.insert stx.author next } : State).supply =
      s.supply := rfl
    have minted_kept' : ({ t with nonces := t.nonces.insert stx.author next' } : State).supply =
      t.supply := rfl
    rw [minted_kept] at minted_eq
    rw [minted_kept'] at minted_eq'
    simp only [Prod.snd_sub]
    omega

end Orders

/-! ## The final states -/

theorem supply_eq {supply supply' : Supply} (minted : supply.minted = supply'.minted)
    (burned : supply.burned = supply'.burned) : supply = supply' := by
  cases supply
  cases supply'
  simp_all

/-- Equal buckets in accounts of the same owners are equal accounts. -/
theorem accounts_eq {s t : State} (keys : ∀ id : Identity, id ∈ s.accounts ↔ id ∈ t.accounts)
    (owners : ∀ id : Identity, (s.acct id).id = (t.acct id).id) (book : s.book = t.book) :
    s.accounts = t.accounts := by
  have amounts (bucket : Bucket) : s.book bucket = t.book bucket := by rw [book]
  have accts (id : Identity) : s.acct id = t.acct id := by
    have balance := amounts (.balance id)
    have escrowed := amounts (.escrowed id)
    have bonded := amounts (.bonded id)
    have owner := owners id
    simp only [State.book_balance, State.book_escrowed, State.book_bonded] at *
    rw [BitVec.toNat_inj] at balance escrowed bonded
    cases left : s.acct id
    cases right : t.acct id
    simp_all
  apply ExtTreeMap.ext_getElem?
  intro id
  have same := accts id
  cases found : s.accounts[id]? with
  | none =>
      have missing := (notMem_iff_eq_none s.accounts id).mpr found
      rw [keys id] at missing
      exact ((notMem_iff_eq_none t.accounts id).mp missing).symm
  | some account =>
      have present := (mem_iff_exists s.accounts id).mpr ⟨account, found⟩
      obtain ⟨account', found'⟩ := (mem_iff_exists t.accounts id).mp ((keys id).mp present)
      simp only [State.acct, found, found', Option.getD_some] at same
      rw [found', same]

/-- The views of the tasks are the records which describe them. -/
theorem records_eq_of_views {s t : State} (views : ∀ task, s.view task = t.view task) :
    s.bodies = t.bodies ∧ s.tasks = t.tasks ∧ s.proofs = t.proofs ∧ s.receipts = t.receipts ∧
      s.qLedger = t.qLedger ∧ s.pendingChallenges = t.pendingChallenges ∧
      s.slashed = t.slashed ∧ s.released = t.released := by
  refine ⟨?_, ?_, ?_, ?_, ?_, ?_, ?_, ?_⟩
  · exact ExtTreeMap.ext_getElem? fun task => congrArg View.body (views task)
  · exact ExtTreeMap.ext_getElem? fun task => congrArg View.sub (views task)
  · exact ExtTreeMap.ext_getElem? fun task => congrArg View.proof (views task)
  · exact ExtTreeMap.ext_getElem? fun task => congrArg View.receipt (views task)
  · exact ExtTreeMap.ext_getElem? fun task => congrArg View.entry (views task)
  · exact ExtTreeMap.ext_getElem? fun task => congrArg View.pending (views task)
  · exact ExtTreeSet.ext_mem fun task => iff_of_eq (congrArg View.slashed (views task))
  · exact ExtTreeSet.ext_mem fun task => iff_of_eq (congrArg View.released (views task))

/-- An accepted list of transactions is a run of accepted transactions at one epoch. -/
theorem applyAll_run [Crypto] {s final : State} {params : Params} {txs : List SignedTx}
    (phases : InPhase s) (accepted : (applyAll params s txs).Returns final) :
    Run (Applies params s.epoch) s txs final ∧ final.epoch = s.epoch := by
  have applied := Run.of_returns accepted
  have kept {txs : List SignedTx} {state : State}
      (run : Run (fun before stx after => (before.apply stx params).Returns after) s txs state) :
      InPhase state ∧ state.epoch = s.epoch := by
    apply run.invariant (fun state => InPhase state ∧ state.epoch = s.epoch) ⟨phases, rfl⟩
    rintro before stx after ⟨held, same⟩ taken
    have step : Step before (.apply stx params) after := taken
    obtain ⟨_, _, next, _, payload⟩ := State.apply_effect taken
    exact ⟨step.preserves InPhase Event.inPhase held, payload.epoch_eq.trans same⟩
  exact ⟨applied.mono_split fun _ _ _ _ _ _ before_run taken =>
    ⟨(kept before_run).1, (kept before_run).2, taken⟩, (kept applied).2⟩

/-- Two orders of one list of transactions which are accepted in full lead from a reachable state
to the same state, in every field. -/
theorem order_irrelevant [Crypto] {s final final' : State} {params : Params}
    {txs txs' : List SignedTx} (reachable : Reachable s) (perm : txs.Perm txs')
    (accepted : (applyAll params s txs).Returns final)
    (accepted' : (applyAll params s txs').Returns final') : final = final' := by
  obtain ⟨run, epoch⟩ := applyAll_run reachable.inPhase accepted
  obtain ⟨run', epoch'⟩ := applyAll_run reachable.inPhase accepted'
  obtain ⟨note, seen, applied_on⟩ := exists_appliesOn run
  have on := applied_on (.refl _) run
  have on' := applied_on perm run'
  -- the records of the authors and of the tasks
  have authors (id : Identity) : final.authorView id = final'.authorView id :=
    author_ranked.final_eq id perm run run'
  have views (task : TaskId) : final.view task = final'.view task :=
    (task_ranked note).final_eq task perm (on.mono fun _ _ _ _ applies => applies.1)
      (on'.mono fun _ _ _ _ applies => applies.1)
  -- the funds
  have funds := Run.measure_eq
    (fun s : State => ((fun bucket => (s.book bucket : ℤ), (s.supply.minted.toNat : ℤ)) :
      (Bucket → ℤ) × ℤ)) perm on on' gain_determined
  have book : final.book = final'.book := by
    ext bucket
    exact Int.ofNat_inj.mp (congrFun (congrArg Prod.fst funds) bucket)
  have minted : final.supply.minted = final'.supply.minted :=
    BitVec.eq_of_toNat_eq (Int.ofNat_inj.mp (congrArg Prod.snd funds))
  have burned : final.supply.burned = final'.supply.burned := by
    rw [← BitVec.toNat_inj, ← State.book_burned, ← State.book_burned, book]
  have pool : final.feePool = final'.feePool := by
    rw [← BitVec.toNat_inj, ← State.book_pool, ← State.book_pool, book]
  -- the accounts
  have opened {txs : List SignedTx} {final : State}
      (on : Run (AppliesOn params s.epoch note seen) s txs final) (id : Identity) :
      (id ∈ final.accounts ↔
        id ∈ s.accounts ∨ ∃ stx ∈ txs, id ∈ stx.tx.touched stx.author (seen stx)) ∧
        (final.acct id).id = (s.acct id).id := by
    constructor
    · apply on.gathered (fun s => id ∈ s.accounts)
        fun stx => id ∈ stx.tx.touched stx.author (seen stx)
      rintro before stx after ⟨⟨applies, _⟩, seen_eq⟩
      rw [← seen_eq]
      exact applies.touches.keys id
    · apply on.invariant (fun state => (state.acct id).id = (s.acct id).id) rfl
      rintro before stx after same ⟨⟨applies, _⟩, _⟩
      exact (applies.touches.owners id).trans same
  have accounts : final.accounts = final'.accounts := by
    apply accounts_eq _ _ book
    · intro id
      rw [(opened on id).1, (opened on' id).1]
      simp only [perm.mem_iff]
    · intro id
      rw [(opened on id).2, (opened on' id).2]
  obtain ⟨bodies, tasks, proofs, receipts, qLedger, pendingChallenges, slashed, released⟩ :=
    records_eq_of_views views
  have nonces : final.nonces = final'.nonces :=
    ExtTreeMap.ext_getElem? fun id => congrArg Prod.fst (authors id)
  have standing : final.standing = final'.standing :=
    ExtTreeMap.ext_getElem? fun id => congrArg Prod.snd (authors id)
  have supply : final.supply = final'.supply := supply_eq minted burned
  have same_epoch : final.epoch = final'.epoch := epoch.trans epoch'.symm
  rcases final
  rcases final'
  simp_all

section Sample

open Sample

attribute [local instance] Crypto.checksum

/-- A submission, its claim, and a transfer between bystanders. -/
def Sample.interleaved : List SignedTx :=
  [{ author := alice, tx := .submitTask (body 0), nonce := 0, sig := Bytes.fill 64 0 },
    { author := bob, tx := .claimTask (task 0), nonce := 0, sig := Bytes.fill 64 0 },
    { author := carol, tx := .transfer bob 70, nonce := 0, sig := Bytes.fill 64 0 }]

theorem order_irrelevant_interleaved : ∃ start final final',
    State.genesis allocations 0 = .ok start ∧
      (applyAll .devnet start interleaved).Returns final ∧
      (applyAll .devnet start (interleaved.rotate 2)).Returns final' ∧ final = final' := by
  have ran : (do
      let start ← liftM (State.genesis allocations 0)
      let final ← applyAll .devnet start interleaved
      let final' ← applyAll .devnet start (interleaved.rotate 2)
      return decide (final.tasks.size = final'.tasks.size) : Outcome Reject Bool).run =
        .ok (.ok true) := by
    decide +kernel
  have returned : (_ : Outcome Reject Bool).Returns true := ran
  simp only [returns_bind, returns_lift] at returned
  obtain ⟨start, genesis_eq, final, accepted, final', accepted', _⟩ := returned
  have reachable : Reachable start := ⟨allocations, 0, start, [], genesis_eq, .nil⟩
  exact ⟨start, final, final', genesis_eq, accepted, accepted',
    order_irrelevant reachable (List.rotate_perm _ _).symm accepted accepted'⟩

end Sample

end Ducp
