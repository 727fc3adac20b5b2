import Ducp.Ledger.Arithmetic

/-!
# Dead ends of an escrow

Only a settlement takes anything out of an escrow.  A claimed task can always be settled by its
provider, and an unclaimed one by whoever claims it; but a claim comes too late after the deadline,
and no operation reads the failure policy, so that an expired task keeps its escrow for ever.
-/

namespace Ducp

open Checked DoubleEntry MapSum Outcome Std
open Finsupp (single degree)

/-! ## Expired tasks -/

section Expired

variable [Crypto] {s s' : State} {task : TaskId} {body : TaskBody} {sub : Submission}

/-- An unclaimed task whose deadline has passed. -/
structure Expired (s : State) (task : TaskId) (body : TaskBody) (sub : Submission) : Prop where
  body_eq : s.bodies[task]? = some body
  sub_eq : s.tasks[task]? = some sub
  submitted : sub.status = .submitted
  late : body.deadline < s.epoch

omit [Crypto] in
/-- What keeps the view of an expired task and does not turn back the epoch keeps it expired. -/
theorem Expired.kept (expired : Expired s task body sub) (view : s'.view task = s.view task)
    (epoch : s.epoch ≤ s'.epoch) : Expired s' task body sub where
  body_eq := (congrArg View.body view).trans expired.body_eq
  sub_eq := (congrArg View.sub view).trans expired.sub_eq
  submitted := expired.submitted
  late := by
    have late := expired.late
    rw [BitVec.lt_def] at late ⊢
    exact late.trans_le epoch

/-- An expired task is not claimed, and only a claim would change it. -/
theorem Payload.expired {author : Identity} {params : Params} {tx : Tx}
    (payload : Payload s author params tx s') (expired : Expired s task body sub) :
    Expired s' task body sub := by
  have epoch : s.epoch ≤ s'.epoch := payload.epoch_eq ▸ BitVec.le_refl _
  refine expired.kept ?_ epoch
  cases payload with
  | submitTask submits =>
      refine (submits.view task).trans (if_neg ?_)
      rintro rfl
      have fresh := submits.fresh
      simp [expired.sub_eq] at fresh
  | claimTask claims =>
      refine (claims.view task).trans (if_neg ?_)
      rintro rfl
      obtain rfl := Option.some.inj (expired.body_eq.symm.trans claims.body_eq)
      exact BitVec.not_le.mpr expired.late claims.deadline
  | submitProof settles =>
      refine (settles.view task).trans (if_neg ?_)
      rintro rfl
      obtain rfl := Option.some.inj (expired.sub_eq.symm.trans settles.sub_eq)
      have executing := settles.executing
      simp [expired.submitted] at executing
  | challenge opens =>
      refine (opens.view task).trans (if_neg ?_)
      rintro rfl
      obtain rfl := Option.some.inj (expired.sub_eq.symm.trans opens.sub_eq)
      have settled := opens.settled
      simp [expired.submitted] at settled
  | transfer moves => exact moves.view task

theorem Expired.unreceipted (expired : Expired s task body sub) (phases : InPhase s) :
    s.receipts[task]? = none := by
  obtain ⟨_, view_eq, _⟩ := (phases task).of_submitted expired.sub_eq expired.submitted
  exact congrArg View.receipt view_eq

/-- Every event keeps an expired task expired. -/
theorem Event.expired (phases : InPhase s) (expired : Expired s task body sub)
    (event : Event s s') : Expired s' task body sub := by
  have unreceipted := expired.unreceipted phases
  cases event with
  | nonce _ _ => exact expired.kept rfl (BitVec.le_refl _)
  | payload payload => exact payload.expired expired
  | tick epoch_eq =>
      refine expired.kept rfl ?_
      rw [BitVec.le_def]
      exact (Nat.le_succ _).trans_eq epoch_eq.symm
  | release releases =>
      have epoch : s'.epoch = s.epoch := congrArg Records.epoch releases.records
      refine expired.kept ((releases.view task).trans (if_neg ?_)) (epoch ▸ BitVec.le_refl _)
      rintro rfl
      simp [releases.receipt_eq] at unreceipted
  | @slash accused _ _ _ _ _ _ _ _ slashes =>
      have receipt_eq := slashes.receipt_eq
      have view := slashes.view task
      obtain ⟨moved, penalizes, rfl⟩ := slashes.penalizes
      have epoch : moved.epoch = s.epoch := congrArg Records.epoch penalizes.records
      refine expired.kept (view.trans (if_neg ?_)) (epoch ▸ BitVec.le_refl _)
      rintro rfl
      simp [receipt_eq] at unreceipted
  | close _ => exact ⟨expired.body_eq, expired.sub_eq, expired.submitted, expired.late⟩
  | unlock moves =>
      have epoch : s'.epoch = s.epoch := congrArg Records.epoch moves.records
      exact expired.kept (moves.view task) (epoch ▸ BitVec.le_refl _)
  | forfeit moves =>
      have epoch : s'.epoch = s.epoch := congrArg Records.epoch moves.records
      exact expired.kept (moves.view task) (epoch ▸ BitVec.le_refl _)

/-- Nothing ever takes the ceiling and the fee of an expired task out of escrow. -/
theorem Expired.stuck (reachable : Reachable s) (expired : Expired s task body sub)
    {ops : List Op} (run : Run Step s ops s') :
    body.limits.maxUcu.toNat + sub.fee.toNat ≤ (s'.acct sub.requester).escrowed.toNat := by
  have kept : InPhase s' ∧ Expired s' task body sub :=
    run.invariant (fun state => InPhase state ∧ Expired state task body sub)
      ⟨reachable.inPhase, expired⟩ fun {before _ _} held step =>
        step.preserves (fun state => InPhase state ∧ Expired state task body sub)
          (fun held event => ⟨event.inPhase held.1, event.expired held.1 held.2⟩) held
  exact (reachable.run run).escrowExact.covered kept.2.body_eq kept.2.sub_eq
    (.inl kept.2.submitted)

end Expired

/-! ## Accepted transactions -/

/-- The empty-handed proof of a task: no work is counted. -/
def idleProof (task : TaskId) (provider : Identity) (benchmark : BenchmarkVersion) :
    ComputeProof where
  task
  provider
  output := Bytes.fill 32 0
  resultHash := Bytes.fill 32 0
  ucuCount := 0
  benchmark
  tierData := .sampledReexec
  powerSeal := none

/-- Nothing counted accrues no Standing. -/
theorem standingAccrual_zero :
    Params.devnet.standingAccrual 0 Params.devnet.efficiencyMultPpm = .ok 0 := by
  decide

namespace State

variable {s : State} {author : Identity} {task : TaskId} {body : TaskBody} {sub : Submission}

/-- A claim within the deadline, of a stake which is there, is accepted. -/
theorem exists_claimTask (bounded : degree s.book < 2 ^ 128) {params : Params} {stake : Ucu}
    (body_eq : s.bodies[task]? = some body) (sub_eq : s.tasks[task]? = some sub)
    (submitted : sub.status = .submitted) (punctual : s.epoch ≤ body.deadline)
    (stake_eq : params.claimStake body.limits.maxUcu (s.standingOf author) = .ok stake)
    (funded : stake ≤ (s.acct author).balance) :
    ∃ s', (s.claimTask author task params).Returns s' := by
  obtain ⟨moved, locked⟩ := exists_ok_of_avoids fun _ =>
    lock_in_range bounded (BitVec.le_def.mp funded)
  have kept := lock_moves locked
  obtain ⟨accounts, supply, feePool, rfl⟩ := kept.exists_funds
  simp only [claimTask, returns_bind, returns_rejectIf, returns_lift, returns_okOr, returns_pure,
    expect_eq_ok]
  exact ⟨_, body, body_eq, sub, sub_eq, ⟨⟩, by simp [submitted], ⟨⟩,
    BitVec.not_lt.mpr punctual, stake, stake_eq, ⟨⟩, BitVec.not_lt.mpr funded, _, locked, sub,
    sub_eq, rfl⟩

/-- Without counted work nothing is issued and no Standing accrues, so that a covered settlement
only needs its clawback window to end. -/
theorem exists_settle_idle (body : TaskBody) (sub : Submission) (proof : ComputeProof)
    (conserved : Conserved s) (found : proof.task ∈ s.tasks) (idle : proof.ucuCount = 0)
    (covered : body.limits.maxUcu.toNat + sub.fee.toNat ≤ (s.acct sub.requester).escrowed.toNat)
    (window : s.epoch.toNat + Params.devnet.clawbackEpochs.toNat < 2 ^ 64) :
    ∃ s', s.settle body sub proof .devnet = .ok s' := by
  have issuance : Params.devnet.issuance 0 = .ok 0 := by decide
  refine exists_ok_of_avoids fun fault => ?_
  refine settle_avoids conserved found covered ?_ ?_ (fun w w_eq => ?_) ?_
    (fun delta delta_eq => ?_) window
  · simp [idle]
  · rw [idle, issuance]
    exact avoids_ok
  · rw [idle, issuance] at w_eq
    obtain rfl := Except.ok.inj w_eq
    exact s.supply.minted.isLt
  · rw [idle, standingAccrual_zero]
    exact avoids_ok
  · rw [idle, standingAccrual_zero] at delta_eq
    obtain rfl := Except.ok.inj delta_eq
    rw [sadd_zero]
    exact avoids_ok

/-- The provider of an executing task can settle it without counting any work. -/
theorem exists_submitProof (conserved : Conserved s) (escrowed : EscrowExact s)
    (body_eq : s.bodies[task]? = some body) (sub_eq : s.tasks[task]? = some sub)
    (executing : sub.status = .executing) (provider : sub.provider = some author)
    (window : s.epoch.toNat + Params.devnet.clawbackEpochs.toNat < 2 ^ 64) :
    ∃ s', (s.submitProof author (idleProof task author body.benchmark) .devnet).Returns s' := by
  have covered := escrowed.covered body_eq sub_eq (.inr executing)
  obtain ⟨s', settled⟩ := exists_settle_idle (s := { s with
      proofs := s.proofs.insert task (idleProof task author body.benchmark)
      tasks := s.tasks.insert task { sub with status := .verified, ucuCount := 0 } })
    body sub (idleProof task author body.benchmark) conserved ExtTreeMap.mem_insert_self rfl
    covered window
  refine ⟨s', ?_⟩
  simp only [submitProof, returns_bind, returns_rejectIf, returns_okOr, returns_lift,
    expect_eq_ok]
  exact ⟨body, body_eq, sub, sub_eq, ⟨⟩, by simp [executing], ⟨⟩, by simp [provider, idleProof],
    ⟨⟩, by simp [idleProof], ⟨⟩, by simp [idleProof], sub, sub_eq, settled⟩

end State

/-- An identity which can sign every message. -/
def Signs [Crypto] (id : Identity) : Prop := ∀ message, ∃ sig, Crypto.verify id message sig = true

/-- A transaction of an author who can sign and still has a nonce is accepted when its payload
is. -/
theorem State.exists_step [Crypto] {s : State} {author : Identity} (signs : Signs author)
    (tx : Tx) (params : Params) (fits : Borsh.fits tx = true)
    (room : ((s.nonces[author]?).getD 0).toNat + 1 < 2 ^ 64)
    (accepted : ∀ nonces, ∃ s', ({ s with nonces }.applyTx author params tx).Returns s') :
    ∃ op s' next, Step s op s' ∧ next.toNat = ((s.nonces[author]?).getD 0).toNat + 1 ∧
      Payload { s with nonces := s.nonces.insert author next } author params tx s' := by
  obtain ⟨next, added, next_eq⟩ := exists_add
    (show ((s.nonces[author]?).getD 0).toNat + (1 : BitVec 64).toNat < 2 ^ 64 from room)
  obtain ⟨s', applied⟩ := accepted (s.nonces.insert author next)
  have payload : SignedTx.signingPayload author tx ((s.nonces[author]?).getD 0) = .ok _ :=
    bind_eq_ok.mpr ⟨_, Borsh.canonicalBytes_eq_ok.mpr ⟨fits, rfl⟩, rfl⟩
  obtain ⟨sig, verified⟩ := signs _
  refine ⟨.apply { author, tx, nonce := (s.nonces[author]?).getD 0, sig } params, s', next, ?_,
    next_eq, applyTx_effect applied⟩
  simp only [Step, Op.exec, apply, checkAndBumpNonce, returns_bind, returns_rejectIf,
    returns_lift, returns_pure]
  refine ⟨true, ?_, ⟨⟩, by simp, _, ⟨⟨⟩, by simp, next, added, rfl⟩, applied⟩
  exact bind_eq_ok.mpr ⟨_, payload, congrArg _ verified⟩

/-! ## Draining an escrow -/

section Drainable

variable {s s' : State} {id author : Identity} {task : TaskId} {body : TaskBody} {sub : Submission}
  {view : View} {helper : TaskId → Identity}

/-- How many transactions a task needs to leave the escrow of an identity: a claim and a proof, or
the proof alone. -/
def View.work (id : Identity) (view : View) : ℕ :=
  if view.escrow id = 0 then 0 else if view.sub.any (·.status = .submitted) then 2 else 1

theorem View.work_unknown (id : Identity) (view : View) (unknown : view.sub = none) :
    view.work id = 0 :=
  if_pos (View.escrow_unknown id view unknown)

/-- The task keeps something in the escrow of the identity. -/
structure Keeps (s : State) (id : Identity) (task : TaskId) (body : TaskBody) (sub : Submission) :
    Prop where
  body_eq : s.bodies[task]? = some body
  sub_eq : s.tasks[task]? = some sub
  escrow : (s.view task).escrow id ≠ 0

theorem Keeps.opened (keeps : Keeps s id task body sub) : sub.IsOpen := by
  by_contra closed
  exact keeps.escrow (View.escrow_of_closed id keeps.sub_eq closed)

theorem Keeps.work_eq (keeps : Keeps s id task body sub) :
    (s.view task).work id = if sub.status = .submitted then 2 else 1 := by
  have sub_eq : (s.view task).sub = some sub := keeps.sub_eq
  simp [View.work, keeps.escrow, sub_eq]

/-- A transaction has brought one task closer to its settlement. -/
structure Serves (s : State) (id : Identity) (task : TaskId) (author : Identity) (view : View)
    (s' : State) : Prop where
  views : ∀ probe, s'.view probe = if probe = task then view else s.view probe
  work : view.work id + 1 = (s.view task).work id
  claimed : view.escrow id ≠ 0 → ∃ sub, view.sub = some sub ∧ sub.status = .executing ∧
    sub.provider = some author
  epoch : s'.epoch = s.epoch
  standing : ∀ probe, s'.standingOf probe = s.standingOf probe
  nonces : ∃ next : BitVec 64, next.toNat = ((s.nonces[author]?).getD 0).toNat + 1 ∧
    s'.nonces = s.nonces.insert author next

/-- What is kept after a service was kept before, or is the served task, now executing. -/
theorem Serves.kept (serves : Serves s id task author view s') {probe : TaskId}
    (keeps : Keeps s' id probe body sub) :
    probe ≠ task ∧ Keeps s id probe body sub ∨
      sub.status = .executing ∧ sub.provider = some author := by
  have seen := serves.views probe
  by_cases same : probe = task
  · rw [if_pos same] at seen
    have escrow := keeps.escrow
    rw [seen] at escrow
    obtain ⟨claimed, claimed_eq, executing, provider⟩ := serves.claimed escrow
    have sub_eq : (s'.view probe).sub = some sub := keeps.sub_eq
    rw [seen] at sub_eq
    obtain rfl := Option.some.inj (claimed_eq.symm.trans sub_eq)
    exact .inr ⟨executing, provider⟩
  · rw [if_neg same] at seen
    exact .inl ⟨same, (congrArg View.body seen).symm.trans keeps.body_eq,
      (congrArg View.sub seen).symm.trans keeps.sub_eq, seen ▸ keeps.escrow⟩

theorem Serves.lowers (serves : Serves s id task author view s') :
    viewTotal (View.work id) s' + 1 = viewTotal (View.work id) s := by
  have moved := viewTotal_update (View.work_unknown id) serves.views
  have work := serves.work
  omega

/-- A service takes one nonce of its author and one unit of work. -/
theorem Serves.room (serves : Serves s id task author view s') {probe : Identity}
    (room : ((s.nonces[probe]?).getD 0).toNat + viewTotal (View.work id) s < 2 ^ 64) :
    ((s'.nonces[probe]?).getD 0).toNat + viewTotal (View.work id) s' < 2 ^ 64 := by
  have lowers := serves.lowers
  obtain ⟨next, next_eq, nonces⟩ := serves.nonces
  rw [nonces, getElem?_insert]
  split
  · subst probe
    change next.toNat + _ < _
    omega
  · omega

/-- A claim leaves the proof to be sent. -/
theorem Claims.serves {next : BitVec 64} {params : Params} {stake : Ucu}
    (claims : Claims { s with nonces := s.nonces.insert author next } author task params body sub
      stake s')
    (next_eq : next.toNat = ((s.nonces[author]?).getD 0).toNat + 1)
    (keeps : Keeps s id task body sub) :
    Serves s id task author
      { s.view task with
        sub := some
          { sub with provider := some author, status := .executing, claimStake := stake } }
      s' := by
  let claimed : Submission :=
    { sub with provider := some author, status := .executing, claimStake := stake }
  let view : View := { s.view task with sub := some claimed }
  have escrow_eq : view.escrow id = (s.view task).escrow id := by
    have body_eq : (s.view task).body = some body := keeps.body_eq
    have sub_eq : (s.view task).sub = some sub := keeps.sub_eq
    simp [View.escrow, view, claimed, body_eq, sub_eq, Submission.IsOpen, claims.submitted]
  have work : view.work id + 1 = (s.view task).work id := by
    rw [keeps.work_eq, if_pos claims.submitted, View.work, escrow_eq, if_neg keeps.escrow]
    simp [view, claimed]
  have standing : s'.standing = s.standing := congrArg Records.standing claims.records
  exact
    { views := claims.view
      work
      claimed := fun _ => ⟨claimed, rfl, rfl, rfl⟩
      epoch := congrArg Records.epoch claims.records
      standing := fun probe => by simp only [State.standingOf, standing]
      nonces := ⟨next, next_eq, congrArg Records.nonces claims.records⟩ }

/-- A settlement without counted work leaves every Standing as it is. -/
theorem Settles.standingOf_idle {params : Params} {proof : ComputeProof} {receipt : Receipt}
    {record : StandingRecord}
    (settles : Settles s author proof params body sub receipt record s')
    (accrual : params.standingAccrual proof.ucuCount params.efficiencyMultPpm = .ok 0)
    (probe : Identity) : s'.standingOf probe = s.standingOf probe := by
  have standing : s'.standing = s.standing.insert author record :=
    congrArg Records.standing settles.records
  have accrued := settles.accrued
  rw [← Except.ok.inj (accrual.symm.trans settles.accrual), sadd_zero,
    State.standingRecord_sp] at accrued
  rw [State.standingOf, standing, getElem?_insert]
  split
  · subst probe
    exact (Except.ok.inj accrued).symm
  · rfl

/-- A settlement without counted work finishes its task. -/
theorem Settles.serves {next : BitVec 64} {proof : ComputeProof} {receipt : Receipt}
    {record : StandingRecord}
    (settles : Settles { s with nonces := s.nonces.insert author next } author proof .devnet body
      sub receipt record s')
    (next_eq : next.toNat = ((s.nonces[author]?).getD 0).toNat + 1) (idle : proof.ucuCount = 0)
    (keeps : Keeps s id proof.task body sub) :
    Serves s id proof.task author
      { s.view proof.task with
        sub := some { sub with status := .settled, ucuCount := proof.ucuCount }
        proof := some proof
        receipt := some receipt
        entry := some (.unmeasured proof.task proof.ucuCount body.benchmark) }
      s' := by
  let view : View :=
    { s.view proof.task with
      sub := some { sub with status := .settled, ucuCount := proof.ucuCount }
      proof := some proof
      receipt := some receipt
      entry := some (.unmeasured proof.task proof.ucuCount body.benchmark) }
  have closed : view.escrow id = 0 :=
    View.escrow_of_closed id rfl (by simp [Submission.IsOpen])
  have work : view.work id + 1 = (s.view proof.task).work id := by
    rw [keeps.work_eq, View.work, if_pos closed]
    simp [settles.executing]
  exact
    { views := settles.view
      work
      claimed := fun kept => absurd closed kept
      epoch := congrArg Records.epoch settles.records
      standing := settles.standingOf_idle (by rw [idle, standingAccrual_zero])
      nonces := ⟨next, next_eq, congrArg Records.nonces settles.records⟩ }

variable [Crypto]

/-- While work is left, some task keeps something in escrow. -/
theorem exists_keeps (reachable : Reachable s) (left : viewTotal (View.work id) s ≠ 0) :
    ∃ task body sub, Keeps s id task body sub := by
  by_contra none_keeps
  push Not at none_keeps
  refine left (total_eq_zero fun task sub found => if_pos ?_)
  by_contra kept
  obtain ⟨body, body_eq⟩ := (reachable.inPhase task).exists_body found
  exact none_keeps task body sub ⟨body_eq, found, kept⟩

/-- An escrow which its providers can still be paid out of.  A provider signs its proof; an
unclaimed task is within its deadline and has a helper of its own, who signs and has the stake. -/
structure Drainable (s : State) (id : Identity) (helper : TaskId → Identity) : Prop where
  window : s.epoch.toNat + Params.devnet.clawbackEpochs.toNat < 2 ^ 64
  signs : ∀ {task : TaskId} {body : TaskBody} {sub : Submission}, Keeps s id task body sub →
    Signs (sub.provider.getD (helper task))
  nonces : ∀ {task : TaskId} {body : TaskBody} {sub : Submission}, Keeps s id task body sub →
    ((s.nonces[sub.provider.getD (helper task)]?).getD 0).toNat + viewTotal (View.work id) s <
      2 ^ 64
  punctual : ∀ {task : TaskId} {body : TaskBody} {sub : Submission}, Keeps s id task body sub →
    sub.status = .submitted → s.epoch ≤ body.deadline
  funded : ∀ {task : TaskId} {body : TaskBody} {sub : Submission}, Keeps s id task body sub →
    sub.status = .submitted → ∃ stake : Ucu,
      Params.devnet.claimStake body.limits.maxUcu (s.standingOf (helper task)) = .ok stake ∧
        stake ≤ (s.acct (helper task)).balance
  distinct : ∀ {task task' : TaskId} {body body' : TaskBody} {sub sub' : Submission},
    Keeps s id task body sub → Keeps s id task' body' sub' → sub.status = .submitted →
      sub'.status = .submitted → helper task = helper task' → task = task'

/-- A service which leaves the other helpers their funds keeps the escrow drainable. -/
theorem Serves.drainable (serves : Serves s id task author view s')
    (drainable : Drainable s id helper) (signs : Signs author)
    (room : ((s.nonces[author]?).getD 0).toNat + viewTotal (View.work id) s < 2 ^ 64)
    (balances : ∀ {probe : TaskId} {body : TaskBody} {sub : Submission}, probe ≠ task →
      Keeps s id probe body sub → sub.status = .submitted →
        (s.acct (helper probe)).balance ≤ (s'.acct (helper probe)).balance) :
    Drainable s' id helper where
  window := serves.epoch ▸ drainable.window
  signs keeps := by
    rcases serves.kept keeps with ⟨_, kept⟩ | ⟨_, provider⟩
    · exact drainable.signs kept
    · simpa [provider] using signs
  nonces keeps := by
    rcases serves.kept keeps with ⟨_, kept⟩ | ⟨_, provider⟩
    · exact serves.room (drainable.nonces kept)
    · rw [provider]
      exact serves.room room
  punctual keeps submitted := by
    rcases serves.kept keeps with ⟨_, kept⟩ | ⟨executing, _⟩
    · exact serves.epoch ▸ drainable.punctual kept submitted
    · simp [submitted] at executing
  funded keeps submitted := by
    rcases serves.kept keeps with ⟨other, kept⟩ | ⟨executing, _⟩
    · obtain ⟨stake, stake_eq, covered⟩ := drainable.funded kept submitted
      refine ⟨stake, ?_, BitVec.le_trans covered (balances other kept submitted)⟩
      rw [serves.standing, stake_eq]
    · simp [submitted] at executing
  distinct keeps keeps' submitted submitted' same := by
    rcases serves.kept keeps with ⟨_, kept⟩ | ⟨executing, _⟩
    · rcases serves.kept keeps' with ⟨_, kept'⟩ | ⟨executing, _⟩
      · exact drainable.distinct kept kept' submitted submitted' same
      · simp [submitted'] at executing
    · simp [submitted] at executing

/-- The helper of a submitted task claims it. -/
theorem Drainable.claim (reachable : Reachable s) (drainable : Drainable s id helper)
    (keeps : Keeps s id task body sub) (submitted : sub.status = .submitted) :
    ∃ op s', Step s op s' ∧ Drainable s' id helper ∧
      viewTotal (View.work id) s' < viewTotal (View.work id) s := by
  have conserved := reachable.conserved
  obtain ⟨_, _, _, _, unclaimed⟩ :=
    (reachable.inPhase task).of_submitted keeps.sub_eq submitted
  have signs := drainable.signs keeps
  have room := drainable.nonces keeps
  rw [unclaimed, Option.getD_none] at signs room
  obtain ⟨stake, stake_eq, covered⟩ := drainable.funded keeps submitted
  have work_le := le_viewTotal (View.work id) keeps.sub_eq
  rw [keeps.work_eq, if_pos submitted] at work_le
  obtain ⟨op, s', next, step, next_eq, payload⟩ := State.exists_step signs
    (.claimTask task) .devnet rfl (by omega) fun nonces =>
      State.exists_claimTask (s := { s with nonces }) (conserved ▸ s.supply.minted.isLt)
        keeps.body_eq keeps.sub_eq submitted (drainable.punctual keeps submitted) stake_eq covered
  cases payload with
  | @claimTask _ body' sub' stake' _ claims =>
      obtain rfl := Option.some.inj (keeps.body_eq.symm.trans claims.body_eq)
      obtain rfl := Option.some.inj (keeps.sub_eq.symm.trans claims.sub_eq)
      have serves := claims.serves next_eq keeps
      have lowers := serves.lowers
      refine ⟨op, s', step, serves.drainable drainable signs room ?_, by omega⟩
      intro probe body' sub' other kept open'
      have distinct : helper probe ≠ helper task := fun same =>
        other (drainable.distinct kept keeps open' submitted same)
      have posted := claims.posts.apply (.balance (helper probe))
      simp [distinct.symm] at posted
      exact BitVec.le_def.mpr posted.ge

/-- The provider of an executing task proves it. -/
theorem Drainable.prove (reachable : Reachable s) (drainable : Drainable s id helper)
    (keeps : Keeps s id task body sub) (executing : sub.status = .executing) :
    ∃ op s', Step s op s' ∧ Drainable s' id helper ∧
      viewTotal (View.work id) s' < viewTotal (View.work id) s := by
  obtain ⟨_, provider, _, _, _, claimed⟩ :=
    (reachable.inPhase task).of_executing keeps.sub_eq executing
  have signs := drainable.signs keeps
  have room := drainable.nonces keeps
  rw [claimed, Option.getD_some] at signs room
  have work_le := le_viewTotal (View.work id) keeps.sub_eq
  rw [keeps.work_eq] at work_le
  simp only [executing, reduceCtorEq, if_false] at work_le
  obtain ⟨op, s', next, step, next_eq, payload⟩ := State.exists_step signs
    (.submitProof (idleProof task provider body.benchmark)) .devnet rfl (by omega) fun nonces =>
      State.exists_submitProof (s := { s with nonces }) reachable.conserved
        reachable.escrowExact keeps.body_eq keeps.sub_eq executing claimed drainable.window
  cases payload with
  | @submitProof _ body' sub' receipt record _ settles =>
      obtain rfl := Option.some.inj (keeps.body_eq.symm.trans settles.body_eq)
      obtain rfl := Option.some.inj (keeps.sub_eq.symm.trans settles.sub_eq)
      have serves := settles.serves next_eq rfl keeps
      have lowers := serves.lowers
      refine ⟨op, s', step, serves.drainable drainable signs room ?_, by omega⟩
      intro probe _ _ _ _ _
      have posted := settles.posts.apply (.balance (helper probe))
      simp at posted
      change _ = (s.acct (helper probe)).balance.toNat + _ at posted
      exact BitVec.le_def.mpr (posted ▸ Nat.le_add_right _ _)

/-- Task by task, the providers empty the escrow. -/
theorem Drainable.drains (reachable : Reachable s) (drainable : Drainable s id helper) :
    ∃ ops s', Run Step s ops s' ∧ (s'.acct id).escrowed = 0 := by
  have emptied : ∃ ops s', Run Step s ops s' ∧ (Reachable s' ∧ Drainable s' id helper) ∧
      viewTotal (View.work id) s' = 0 := by
    refine Run.reaches_zero (fun state => Reachable state ∧ Drainable state id helper) _
      ⟨reachable, drainable⟩ fun {before} held left => ?_
    obtain ⟨reached, drainable⟩ := held
    obtain ⟨task, body, sub, keeps⟩ := exists_keeps reached left
    have served : ∃ op after, Step before op after ∧ Drainable after id helper ∧
        viewTotal (View.work id) after < viewTotal (View.work id) before := by
      rcases keeps.opened with submitted | executing
      · exact drainable.claim reached keeps submitted
      · exact drainable.prove reached keeps executing
    obtain ⟨op, after, step, still, lower⟩ := served
    exact ⟨[op], after, .single step, ⟨reached.step step, still⟩, lower⟩
  obtain ⟨ops, s', run, ⟨reached, _⟩, done⟩ := emptied
  refine ⟨ops, s', run, BitVec.eq_of_toNat_eq ?_⟩
  rw [← State.book_escrowed, reached.escrowExact id]
  refine total_eq_zero fun task sub found => ?_
  by_contra kept
  have work_le := le_viewTotal (View.work id) found
  rw [done, View.work, if_neg kept] at work_le
  split at work_le <;> simp at work_le

end Drainable

/-- The escrow of an identity never falls below the ceiling and the fee of an expired task of its
own, and is emptied by some run while no task which keeps something in it is out of reach. -/
theorem escrow_dead_ends [Crypto] {s : State} (reachable : Reachable s) (id : Identity) :
    (∀ task body sub, Expired s task body sub → sub.requester = id →
      ∀ ops s', Run Step s ops s' →
        body.limits.maxUcu.toNat + sub.fee.toNat ≤ (s'.acct id).escrowed.toNat) ∧
      ∀ helper, Drainable s id helper →
        ∃ ops s', Run Step s ops s' ∧ (s'.acct id).escrowed = 0 := by
  constructor
  · rintro task body sub expired rfl ops s' run
    exact expired.stuck reachable run
  · intro helper drainable
    exact drainable.drains reachable

section Sample

open Sample

attribute [local instance] Crypto.checksum

theorem escrow_dead_ends_submitted :
    ∃ s, outcomeOf allocations 0 ((settled 400).take 1) = some s ∧
      (s.acct alice).escrowed = 1001 ∧
        ∃ ops s', Run Step s ops s' ∧ (s'.acct alice).escrowed = 0 := by
  have facts : (outcomeOf allocations 0 ((settled 400).take 1)).any (fun s =>
      (s.acct alice).escrowed = 1001 ∧ s.epoch = 0 ∧ s.bodies[task 0]? = some (body 0) ∧
        (∀ entry ∈ s.tasks.toList, entry.1 = task 0 ∧ entry.2.provider = none) ∧
          s.nonces[bob]? = none ∧ viewTotal (View.work alice) s = 2 ∧ s.standingOf bob = 0 ∧
            (s.acct bob).balance = 10000) = true := by decide +kernel
  obtain ⟨s, ran, facts⟩ := (Option.any_eq_true _ _).mp facts
  obtain ⟨escrowed, epoch, body_eq, entries, fresh, work, standing, balance⟩ :=
    of_decide_eq_true facts
  have known : ∀ {probe : TaskId} {found : TaskBody} {sub : Submission},
      Keeps s alice probe found sub → probe = task 0 ∧ found = body 0 ∧ sub.provider = none := by
    intro probe found sub keeps
    obtain ⟨rfl, unclaimed⟩ :=
      entries _ (ExtTreeMap.mem_toList_iff_getElem?_eq_some.mpr keeps.sub_eq)
    exact ⟨rfl, Option.some.inj (keeps.body_eq.symm.trans body_eq), unclaimed⟩
  have drainable : Drainable s alice fun _ => bob :=
    { window := by rw [epoch]; decide
      signs := fun _ _ => ⟨Bytes.fill 64 0, rfl⟩
      nonces := fun keeps => by
        obtain ⟨_, _, unclaimed⟩ := known keeps
        rw [unclaimed, Option.getD_none, fresh, work]
        decide
      punctual := fun keeps _ => by
        obtain ⟨_, rfl, _⟩ := known keeps
        rw [epoch]
        decide
      funded := fun keeps _ => by
        obtain ⟨_, rfl, _⟩ := known keeps
        rw [standing, balance]
        exact ⟨500, by decide, by decide⟩
      distinct := fun keeps keeps' _ _ _ => (known keeps).1.trans (known keeps').1.symm }
  exact ⟨s, ran, escrowed,
    (escrow_dead_ends (reachable_of_outcomeOf ran) alice).2 _ drainable⟩

/-- A task which nobody claims until its deadline has passed holds its escrow for ever. -/
theorem unclaimed_escrow_held :
    ∃ s, outcomeOf allocations 0
        (sent alice 0 (.submitTask (body 0)) :: List.replicate 11 (.advanceEpoch .devnet)) =
          some s ∧
      (s.acct alice).escrowed = 1001 ∧
        ∀ ops s', Run Step s ops s' → (s'.acct alice).escrowed ≠ 0 := by
  have facts : (outcomeOf allocations 0
      (sent alice 0 (.submitTask (body 0)) :: List.replicate 11 (.advanceEpoch .devnet))).any
        (fun s => (s.acct alice).escrowed = 1001 ∧ s.epoch = 11 ∧
          s.bodies[task 0]? = some (body 0) ∧
            (s.tasks[task 0]?).any
              (fun sub => sub.requester = alice ∧ sub.status = .submitted)) = true := by
    decide +kernel
  obtain ⟨s, ran, facts⟩ := (Option.any_eq_true _ _).mp facts
  obtain ⟨escrowed, epoch, body_eq, found⟩ := of_decide_eq_true facts
  obtain ⟨sub, sub_eq, found⟩ := (Option.any_eq_true _ _).mp found
  obtain ⟨requester, submitted⟩ := of_decide_eq_true found
  have expired : Expired s (task 0) (body 0) sub :=
    { body_eq, sub_eq, submitted, late := by rw [epoch]; decide }
  refine ⟨s, ran, escrowed, fun ops s' run emptied => ?_⟩
  have stuck := expired.stuck (reachable_of_outcomeOf ran) run
  have ceiling : (body 0).limits.maxUcu.toNat = 1000 := rfl
  rw [requester, emptied, ceiling] at stuck
  simp at stuck

end Sample

end Ducp
