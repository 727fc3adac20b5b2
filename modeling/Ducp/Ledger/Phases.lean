import Ducp.Ledger.Events

/-!
# The phases of a task

Nine maps and sets describe one task.  What they say together about a task is its view, and every
task is always in one of five phases; an event moves at most one task, and moves it to the next
phase.
-/

namespace Ducp

open MapSum Outcome Std

/-- Everything the ledger says about one task. -/
@[ext]
structure View where
  body : Option TaskBody
  sub : Option Submission
  proof : Option ComputeProof
  receipt : Option Receipt
  entry : Option QLedgerEntry
  pending : Option ChallengeRecord
  slashed : Prop
  released : Prop

/-- What the records say about a task. -/
def Records.view (records : Records) (task : TaskId) : View where
  body := records.bodies[task]?
  sub := records.tasks[task]?
  proof := records.proofs[task]?
  receipt := records.receipts[task]?
  entry := records.qLedger[task]?
  pending := records.pendingChallenges[task]?
  slashed := task ∈ records.slashed
  released := task ∈ records.released

/-- What a state says about a task. -/
abbrev State.view (s : State) (task : TaskId) : View := s.records.view task

/-- The body, the submission, the proof, the receipt and the efficiency entry of a settled task
agree. -/
structure Agrees (body : TaskBody) (sub : Submission) (proof : ComputeProof) (receipt : Receipt)
    (entry : QLedgerEntry) : Prop where
  provider : sub.provider = some proof.provider
  counted : sub.ucuCount = proof.ucuCount
  paid : receipt.paidToProvider = proof.ucuCount
  measured : entry.ucu = proof.ucuCount
  within : proof.ucuCount.toNat ≤ body.limits.maxUcu.toNat
  validatorFee : receipt.validatorFee = sub.fee

/-- An unknown task. -/
abbrev View.absent : View :=
  { body := none, sub := none, proof := none, receipt := none, entry := none
    pending := none, slashed := False, released := False }

/-- A task without a proof. -/
abbrev View.opened (body : TaskBody) (sub : Submission) : View :=
  { View.absent with body := some body, sub := some sub }

/-- A task with a settled proof. -/
abbrev View.concluded (body : TaskBody) (sub : Submission) (proof : ComputeProof)
    (receipt : Receipt) (entry : QLedgerEntry) (pending : Option ChallengeRecord)
    (slashed released : Prop) : View :=
  { body := some body, sub := some sub, proof := some proof, receipt := some receipt
    entry := some entry, pending, slashed, released }

/-- The phases of a task. -/
inductive Phase [Crypto] (task : TaskId) : View → Prop
  | absent : Phase task .absent
  | submitted {body : TaskBody} {sub : Submission} (taskId : body.taskId = .ok task)
      (task_eq : sub.task = task) (status : sub.status = .submitted)
      (unclaimed : sub.provider = none) : Phase task (.opened body sub)
  | executing {body : TaskBody} {sub : Submission} {provider : Identity}
      (taskId : body.taskId = .ok task) (task_eq : sub.task = task)
      (status : sub.status = .executing) (claimed : sub.provider = some provider) :
      Phase task (.opened body sub)
  | settled {body : TaskBody} {sub : Submission} {proof : ComputeProof} {receipt : Receipt}
      {entry : QLedgerEntry} {pending : Option ChallengeRecord} {released : Prop}
      (taskId : body.taskId = .ok task) (task_eq : sub.task = task)
      (status : sub.status = .settled) (agrees : Agrees body sub proof receipt entry) :
      Phase task (.concluded body sub proof receipt entry pending False released)
  | failed {body : TaskBody} {sub : Submission} {proof : ComputeProof} {receipt : Receipt}
      {entry : QLedgerEntry} {pending : Option ChallengeRecord} {released : Prop}
      (taskId : body.taskId = .ok task) (task_eq : sub.task = task)
      (status : sub.status = .failed) (agrees : Agrees body sub proof receipt entry) :
      Phase task (.concluded body sub proof receipt entry pending True released)

/-- Every task is in one of its phases. -/
def InPhase [Crypto] (s : State) : Prop := ∀ task, Phase task (s.view task)

section Views

variable {s s' : State} {author : Identity} {params : Params}

/-! ## How an event changes the views -/

theorem Moves.view {debits credits : Bucket →₀ ℕ} (moves : Moves s debits credits s')
    (task : TaskId) : s'.view task = s.view task := by
  rw [State.view, moves.records]

theorem Submits.view [Crypto] {body : TaskBody} {task : TaskId} {fee : Ucu}
    (submits : Submits s author body params task fee s') (probe : TaskId) :
    s'.view probe =
      if probe = task then
        { s.view task with
          body := some body
          sub := some
            { task, requester := author, ucuCount := 0, fee, status := .submitted
              provider := none, claimStake := 0 } }
      else s.view probe := by
  rw [State.view, submits.records]
  simp only [Records.view, getElem?_insert]
  split <;> simp_all [State.records]

theorem Claims.view {task : TaskId} {body : TaskBody} {sub : Submission} {stake : Ucu}
    (claims : Claims s author task params body sub stake s') (probe : TaskId) :
    s'.view probe =
      if probe = task then
        { s.view task with
          sub := some
            { sub with provider := some author, status := .executing, claimStake := stake } }
      else s.view probe := by
  rw [State.view, claims.records]
  simp only [Records.view, getElem?_insert]
  split <;> simp_all [State.records]

theorem Settles.view {proof : ComputeProof} {body : TaskBody} {sub : Submission}
    {receipt : Receipt} {record : StandingRecord}
    (settles : Settles s author proof params body sub receipt record s') (probe : TaskId) :
    s'.view probe =
      if probe = proof.task then
        { s.view proof.task with
          sub := some { sub with status := .settled, ucuCount := proof.ucuCount }
          proof := some proof
          receipt := some receipt
          entry := some (.unmeasured proof.task proof.ucuCount body.benchmark) }
      else s.view probe := by
  rw [State.view, settles.records]
  simp only [Records.view, getElem?_insert]
  split <;> simp_all [State.records]

theorem Opens.view {task : TaskId} {bond : Ucu} {receipt : Receipt} {sub : Submission}
    (opens : Opens s author task bond params receipt sub s') (probe : TaskId) :
    s'.view probe =
      if probe = task then
        { s.view task with pending := some { challenger := author, bond } }
      else s.view probe := by
  rw [State.view, opens.records]
  simp only [Records.view, getElem?_insert]
  split <;> simp_all [State.records]

theorem Releases.view {matured : TaskId × Identity × Ucu} {receipt : Receipt} {sub : Submission}
    (releases : Releases s matured receipt sub s') (probe : TaskId) :
    s'.view probe =
      if probe = matured.1 then { s.view matured.1 with released := True } else s.view probe := by
  rw [State.view, releases.records]
  simp only [Records.view, mem_insert_set]
  split <;> simp_all [State.records]

theorem Slashes.view {task : TaskId} {rewardTo : Option Identity} {receipt : Receipt}
    {sub : Submission} {provider : Identity} {penalty : Penalty} {record : StandingRecord}
    (slashes : Slashes s task rewardTo params receipt sub provider penalty record s')
    (probe : TaskId) :
    s'.view probe =
      if probe = task then
        { s.view task with sub := some { sub with status := .failed }, slashed := True }
      else s.view probe := by
  obtain ⟨moved, penalizes, rfl⟩ := slashes.penalizes
  obtain ⟨accounts, supply, feePool, rfl⟩ := penalizes.exists_funds
  simp only [State.view, State.records, Records.view, getElem?_insert, mem_insert_set]
  split <;> simp_all

theorem close_view (task probe : TaskId) :
    ({ s with pendingChallenges := s.pendingChallenges.erase task } : State).view probe =
      if probe = task then { s.view task with pending := none } else s.view probe := by
  simp only [State.view, State.records, Records.view, getElem?_erase]
  split <;> simp_all

end Views

/-! ## Reading a phase back -/

namespace Phase

variable [Crypto] {task : TaskId} {view : View} {body : TaskBody} {sub : Submission}

theorem of_fresh (phase : Phase task view) (fresh : view.sub = none) : view = .absent := by
  cases phase <;> simp_all

theorem of_submitted (phase : Phase task view) (found : view.sub = some sub)
    (status : sub.status = .submitted) :
    ∃ body, view = .opened body sub ∧ body.taskId = .ok task ∧ sub.task = task ∧
      sub.provider = none := by
  cases phase <;> simp_all

theorem of_executing (phase : Phase task view) (found : view.sub = some sub)
    (status : sub.status = .executing) :
    ∃ body provider, view = .opened body sub ∧ body.taskId = .ok task ∧ sub.task = task ∧
      sub.provider = some provider := by
  cases phase <;> simp_all

theorem of_unslashed (phase : Phase task view) {receipt : Receipt}
    (found : view.receipt = some receipt) (unslashed : ¬view.slashed) :
    ∃ body sub proof entry pending released,
      view = .concluded body sub proof receipt entry pending False released ∧
        body.taskId = .ok task ∧ sub.task = task ∧ sub.status = .settled ∧
        Agrees body sub proof receipt entry := by
  cases phase with
  | absent => cases found
  | submitted _ _ _ _ => cases found
  | executing _ _ _ _ => cases found
  | settled taskId task_eq status agrees =>
      obtain rfl := Option.some.inj found
      exact ⟨_, _, _, _, _, _, rfl, taskId, task_eq, status, agrees⟩
  | failed _ _ _ _ => exact (unslashed trivial).elim

end Phase

/-! ## Every event moves along the phases -/

section Preservation

variable [Crypto] {s s' : State}

/-- Rewriting the view of one task keeps every task in phase when that task is. -/
theorem InPhase.update (phases : InPhase s) (task : TaskId) {view : View}
    (views : ∀ probe, s'.view probe = if probe = task then view else s.view probe)
    (moved : Phase task view) : InPhase s' := by
  intro probe
  rw [views probe]
  split
  · rename_i same
    rw [same]
    exact moved
  · exact phases probe

theorem InPhase.unchanged (phases : InPhase s) (views : ∀ probe, s'.view probe = s.view probe) :
    InPhase s' := by
  intro probe
  rw [views probe]
  exact phases probe

theorem Payload.inPhase {author : Identity} {params : Params} {tx : Tx}
    (payload : Payload s author params tx s') (phases : InPhase s) : InPhase s' := by
  cases payload with
  | @submitTask body task fee _ submits =>
      refine phases.update task submits.view ?_
      rw [(phases task).of_fresh submits.fresh]
      exact .submitted submits.taskId rfl rfl rfl
  | @claimTask task body sub stake _ claims =>
      refine phases.update task claims.view ?_
      obtain ⟨body, view_eq, taskId, task_eq, _⟩ :=
        (phases task).of_submitted claims.sub_eq claims.submitted
      rw [view_eq]
      exact .executing taskId task_eq rfl rfl
  | @submitProof proof body sub receipt record _ settles =>
      refine phases.update proof.task settles.view ?_
      obtain ⟨found, provider, view_eq, taskId, task_eq, _⟩ :=
        (phases proof.task).of_executing settles.sub_eq settles.executing
      have body_eq : some found = some body := by
        rw [← settles.body_eq]
        exact (congrArg View.body view_eq).symm
      obtain rfl := Option.some.inj body_eq
      have agrees : Agrees found { sub with status := .settled, ucuCount := proof.ucuCount } proof
          receipt (.unmeasured proof.task proof.ucuCount found.benchmark) :=
        { provider := by rw [settles.prover]; exact settles.provider
          counted := rfl
          paid := settles.paid
          measured := rfl
          within := settles.ucuCount_le
          validatorFee := settles.validatorFee }
      rw [view_eq]
      exact .settled taskId task_eq rfl agrees
  | @challenge task bond receipt sub _ opens =>
      refine phases.update task opens.view ?_
      obtain ⟨body, found, proof, entry, pending, released, view_eq, taskId, task_eq, status,
        agrees⟩ := (phases task).of_unslashed opens.receipt_eq opens.unslashed
      rw [view_eq]
      exact .settled taskId task_eq status agrees
  | transfer moves => exact phases.unchanged moves.view

/-- A receipted task which is not slashed is settled. -/
theorem InPhase.settled (phases : InPhase s) {task : TaskId} {receipt : Receipt}
    {sub : Submission} (receipt_eq : s.receipts[task]? = some receipt)
    (sub_eq : s.tasks[task]? = some sub) (unslashed : task ∉ s.slashed) :
    sub.status = .settled := by
  obtain ⟨body, found, proof, entry, pending, released, view_eq, _, _, status, _⟩ :=
    (phases task).of_unslashed receipt_eq unslashed
  have same : some found = some sub := by
    rw [← sub_eq]
    exact (congrArg View.sub view_eq).symm
  rwa [← Option.some.inj same]

theorem Slashes.settled {task : TaskId} {rewardTo : Option Identity} {params : Params}
    {receipt : Receipt} {sub : Submission} {provider : Identity} {penalty : Penalty}
    {record : StandingRecord} (phases : InPhase s)
    (slashes : Slashes s task rewardTo params receipt sub provider penalty record s') :
    sub.status = .settled :=
  phases.settled slashes.receipt_eq slashes.sub_eq slashes.unslashed

/-- Every event keeps every task in one of its phases. -/
theorem Event.inPhase (phases : InPhase s) (event : Event s s') : InPhase s' := by
  cases event with
  | nonce _ _ => exact phases
  | payload payload => exact payload.inPhase phases
  | tick _ => exact phases
  | @release matured receipt sub _ releases =>
      refine phases.update matured.1 releases.view ?_
      obtain ⟨body, found, proof, entry, pending, released, view_eq, taskId, task_eq, status,
        agrees⟩ := (phases matured.1).of_unslashed releases.receipt_eq releases.unslashed
      rw [view_eq]
      exact .settled taskId task_eq status agrees
  | @slash task _ _ receipt sub _ _ _ _ slashes =>
      refine phases.update task slashes.view ?_
      obtain ⟨body, found, proof, entry, pending, released, view_eq, taskId, task_eq, status,
        agrees⟩ := (phases task).of_unslashed slashes.receipt_eq slashes.unslashed
      have sub_eq : some found = some sub := by
        rw [← slashes.sub_eq]
        exact (congrArg View.sub view_eq).symm
      obtain rfl := Option.some.inj sub_eq
      rw [view_eq]
      exact .failed taskId task_eq rfl { agrees with }
  | close task =>
      refine phases.update task (close_view task) ?_
      have phase := phases task
      generalize s.view task = view at phase
      cases phase with
      | absent => exact .absent
      | submitted taskId task_eq status unclaimed =>
          exact .submitted taskId task_eq status unclaimed
      | executing taskId task_eq status claimed => exact .executing taskId task_eq status claimed
      | settled taskId task_eq status agrees => exact .settled taskId task_eq status agrees
      | failed taskId task_eq status agrees => exact .failed taskId task_eq status agrees
  | unlock moves => exact phases.unchanged moves.view
  | forfeit moves => exact phases.unchanged moves.view

/-- What the tick and every release of an epoch boundary keep, the boundary keeps. -/
theorem State.Advances.invariant (motive : State → Prop) {params : Params} {ticked : State}
    (phases : InPhase s) (advances : State.Advances s params ticked s')
    (ticked : ∀ epoch standing, motive { s with epoch, standing })
    (released : ∀ {before after : State} {matured : TaskId × Identity × Ucu} {receipt : Receipt}
      {sub : Submission}, InPhase before → motive before →
      Releases before matured receipt sub after → motive after) : motive s' := by
  obtain ⟨epoch, standing, _, rfl, _⟩ := advances.ticks
  have carried : InPhase s' ∧ motive s' := by
    have initial : InPhase { s with epoch, standing } ∧ motive { s with epoch, standing } :=
      ⟨phases, ticked epoch standing⟩
    apply advances.run.invariant (fun state => InPhase state ∧ motive state) initial
    rintro before stake after ⟨held, kept⟩ ⟨receipt, sub, releases⟩
    exact ⟨Event.inPhase held (.release releases), released held kept releases⟩
  exact carried.2

theorem State.IsGenesis.inPhase {epoch : Epoch} (genesis : State.IsGenesis s epoch) :
    InPhase s := by
  intro task
  have view_eq : s.view task = .absent := by
    rw [State.view, genesis.records]
    simp [Records.view, State.records, State.empty]
  rw [view_eq]
  exact .absent

theorem Reachable.inPhase (reachable : Reachable s) : InPhase s :=
  reachable.invariant InPhase State.IsGenesis.inPhase Event.inPhase

end Preservation

/-! ## Sums over the tasks -/

/-- The sum over the known tasks of what their views give. -/
def viewTotal (gives : View → ℕ) (s : State) : ℕ :=
  total (fun task _ => gives (s.view task)) s.tasks

section ViewTotal

variable {gives : View → ℕ} {s s' : State} {task : TaskId} {view : View}

theorem weight_view (unknown : ∀ view : View, view.sub = none → gives view = 0) (s : State)
    (task : TaskId) :
    weight (fun task _ => gives (s.view task)) s.tasks task = gives (s.view task) := by
  cases found : s.tasks[task]? with
  | none => rw [weight_of_none found, unknown (s.view task) found]
  | some sub => rw [weight_of_some found]

/-- Rewriting one view exchanges what it gives. -/
theorem viewTotal_update (unknown : ∀ view : View, view.sub = none → gives view = 0)
    (views : ∀ probe, s'.view probe = if probe = task then view else s.view probe) :
    viewTotal gives s' + gives (s.view task) = viewTotal gives s + gives view := by
  have moved := total_off (fun task _ => gives (s'.view task)) s'.tasks
    (fun task _ => gives (s.view task)) s.tasks task fun probe distinct => by
      rw [weight_view unknown, weight_view unknown, views probe, if_neg distinct]
  rwa [weight_view unknown, weight_view unknown, views task, if_pos rfl] at moved

theorem viewTotal_unchanged (unknown : ∀ view : View, view.sub = none → gives view = 0)
    (same : ∀ probe, gives (s'.view probe) = gives (s.view probe)) :
    viewTotal gives s' = viewTotal gives s :=
  total_congr fun probe => by rw [weight_view unknown, weight_view unknown, same probe]

/-- One task gives at most the whole sum. -/
theorem le_viewTotal (gives : View → ℕ) {sub : Submission} (found : s.tasks[task]? = some sub) :
    gives (s.view task) ≤ viewTotal gives s :=
  le_total (f := fun task _ => gives (s.view task)) found

end ViewTotal

end Ducp
