import Ducp.Ledger.Phases

/-!
# The lifecycle of a task

A task moves from submitted to executing to settled to failed, each move by one kind of operation,
and what has been recorded about it is never rewritten.
-/

namespace Ducp

open MapSum Outcome Relation Std

/-- What an operation can do to the record of one task. -/
inductive TaskMove [Crypto] (task : TaskId) : Op → Option Submission → Option Submission → Prop
  | stay {op : Op} {found : Option Submission} : TaskMove task op found found
  | submit {stx : SignedTx} {params : Params} {body : TaskBody} {sub : Submission} :
      stx.tx = .submitTask body → body.taskId = .ok task → sub.status = .submitted →
      TaskMove task (.apply stx params) none (some sub)
  | claim {stx : SignedTx} {params : Params} {sub : Submission} {stake : Ucu} :
      stx.tx = .claimTask task → sub.status = .submitted →
      TaskMove task (.apply stx params) (some sub)
        (some { sub with provider := some stx.author, status := .executing, claimStake := stake })
  | settle {stx : SignedTx} {params : Params} {sub : Submission} {proof : ComputeProof} :
      stx.tx = .submitProof proof → proof.task = task → sub.status = .executing →
      sub.provider = some stx.author →
      TaskMove task (.apply stx params) (some sub)
        (some { sub with status := .settled, ucuCount := proof.ucuCount })
  | audit {rewardTo : Option Identity} {params : Params} {sub : Submission} :
      sub.status = .settled →
      TaskMove task (.resolveFraud task rewardTo params) (some sub)
        (some { sub with status := .failed })
  | convict {params : Params} {sub : Submission} :
      sub.status = .settled →
      TaskMove task (.resolveChallenge task true params) (some sub)
        (some { sub with status := .failed })

/-- Nothing that the first view records about a task is different in the second. -/
structure View.Extends (view view' : View) : Prop where
  body : ∀ body, view.body = some body → view'.body = some body
  proof : ∀ proof, view.proof = some proof → view'.proof = some proof
  receipt : ∀ receipt, view.receipt = some receipt → view'.receipt = some receipt
  entry : ∀ entry, view.entry = some entry → view'.entry = some entry
  sub : ∀ sub, view.sub = some sub →
    ∃ sub', view'.sub = some sub' ∧ sub'.requester = sub.requester ∧ sub'.fee = sub.fee ∧
      (sub.provider ≠ none → sub'.provider = sub.provider ∧ sub'.claimStake = sub.claimStake)
  slashed : view.slashed → view'.slashed
  released : view.released → view'.released

namespace View.Extends

variable {view view' view'' : View}

theorem refl (view : View) : view.Extends view where
  body _ found := found
  proof _ found := found
  receipt _ found := found
  entry _ found := found
  sub sub found := ⟨sub, found, rfl, rfl, fun _ => ⟨rfl, rfl⟩⟩
  slashed slashed := slashed
  released released := released

theorem trans (first : view.Extends view') (second : view'.Extends view'') :
    view.Extends view'' where
  body body found := second.body body (first.body body found)
  proof proof found := second.proof proof (first.proof proof found)
  receipt receipt found := second.receipt receipt (first.receipt receipt found)
  entry entry found := second.entry entry (first.entry entry found)
  sub sub found := by
    obtain ⟨sub', found', requester, fee, claimed⟩ := first.sub sub found
    obtain ⟨sub'', found'', requester', fee', claimed'⟩ := second.sub sub' found'
    refine ⟨sub'', found'', requester'.trans requester, fee'.trans fee, fun provided => ?_⟩
    obtain ⟨provider, stake⟩ := claimed provided
    obtain ⟨provider', stake'⟩ := claimed' (provider ▸ provided)
    exact ⟨provider'.trans provider, stake'.trans stake⟩
  slashed slashed := second.slashed (first.slashed slashed)
  released released := second.released (first.released released)

end View.Extends

section WriteOnce

variable {s s' : State}

/-- Rewriting one view extends all of them when it extends that one. -/
theorem extends_update (task : TaskId) {view : View}
    (views : ∀ probe, s'.view probe = if probe = task then view else s.view probe)
    (extended : (s.view task).Extends view) (probe : TaskId) :
    (s.view probe).Extends (s'.view probe) := by
  rw [views probe]
  split
  · rename_i same
    rw [same]
    exact extended
  · exact .refl _

theorem extends_unchanged (views : ∀ probe, s'.view probe = s.view probe) (probe : TaskId) :
    (s.view probe).Extends (s'.view probe) := by
  rw [views probe]
  exact .refl _

variable [Crypto]

theorem Payload.extends {author : Identity} {params : Params} {tx : Tx} (phases : InPhase s)
    (payload : Payload s author params tx s') (probe : TaskId) :
    (s.view probe).Extends (s'.view probe) := by
  cases payload with
  | @submitTask body task fee _ submits =>
      refine extends_update task submits.view ?_ probe
      rw [(phases task).of_fresh submits.fresh]
      constructor <;> simp
  | @claimTask task body sub stake _ claims =>
      refine extends_update task claims.view ?_ probe
      obtain ⟨body, view_eq, _, _, unclaimed⟩ :=
        (phases task).of_submitted claims.sub_eq claims.submitted
      rw [view_eq]
      constructor <;> simp [unclaimed]
  | @submitProof proof body sub receipt record _ settles =>
      refine extends_update proof.task settles.view ?_ probe
      obtain ⟨body, provider, view_eq, _⟩ :=
        (phases proof.task).of_executing settles.sub_eq settles.executing
      rw [view_eq]
      constructor <;> simp
  | @challenge task bond receipt sub _ opens =>
      refine extends_update task opens.view ?_ probe
      exact { View.Extends.refl (s.view task) with }
  | transfer moves => exact extends_unchanged moves.view probe

/-- No event rewrites what is recorded. -/
theorem Event.extends (phases : InPhase s) (event : Event s s') (probe : TaskId) :
    (s.view probe).Extends (s'.view probe) := by
  cases event with
  | nonce _ _ => exact .refl _
  | payload payload => exact payload.extends phases probe
  | tick _ => exact .refl _
  | @release matured receipt sub _ releases =>
      refine extends_update matured.1 releases.view ?_ probe
      exact { View.Extends.refl (s.view matured.1) with released := fun _ => trivial }
  | @slash task _ _ receipt sub _ _ _ _ slashes =>
      refine extends_update task slashes.view ?_ probe
      have found : (s.view task).sub = some sub := slashes.sub_eq
      exact
        { View.Extends.refl (s.view task) with
          sub := by simp [found]
          slashed := fun _ => trivial }
  | close task =>
      refine extends_update task (close_view task) ?_ probe
      exact { View.Extends.refl (s.view task) with }
  | unlock moves => exact extends_unchanged moves.view probe
  | forfeit moves => exact extends_unchanged moves.view probe

theorem Step.extends (phases : InPhase s) {op : Op} (step : Step s op s') (task : TaskId) :
    (s.view task).Extends (s'.view task) := by
  have carried := step.preserves
    (fun state => InPhase state ∧ (s.view task).Extends (state.view task))
    (fun held event => ⟨event.inPhase held.1, held.2.trans (event.extends held.1 task)⟩)
    ⟨phases, .refl _⟩
  exact carried.2

end WriteOnce

section Moves

variable [Crypto] {s s' : State} {op : Op}

/-- Rewriting the view of one task moves at most that task. -/
theorem taskMove_update (task : TaskId) {view : View}
    (views : ∀ probe, s'.view probe = if probe = task then view else s.view probe)
    (moved : TaskMove task op (s.view task).sub view.sub) (probe : TaskId) :
    TaskMove probe op (s.view probe).sub (s'.view probe).sub := by
  rw [views probe]
  split
  · rename_i same
    rw [same]
    exact moved
  · exact .stay

theorem Payload.taskMove {stx : SignedTx} {params : Params}
    (payload : Payload s stx.author params stx.tx s') (task : TaskId) :
    TaskMove task (.apply stx params) (s.view task).sub (s'.view task).sub := by
  generalize tx_eq : stx.tx = tx at payload
  cases payload with
  | @submitTask body fresh fee _ submits =>
      have absent : (s.view fresh).sub = none := submits.fresh
      refine taskMove_update fresh submits.view ?_ task
      rw [absent]
      exact .submit tx_eq submits.taskId rfl
  | @claimTask claimed body sub stake _ claims =>
      have found : (s.view claimed).sub = some sub := claims.sub_eq
      refine taskMove_update claimed claims.view ?_ task
      rw [found]
      exact .claim tx_eq claims.submitted
  | @submitProof proof body sub receipt record _ settles =>
      have found : (s.view proof.task).sub = some sub := settles.sub_eq
      refine taskMove_update proof.task settles.view ?_ task
      rw [found]
      exact .settle tx_eq rfl settles.executing settles.provider
  | @challenge challenged bond receipt sub _ opens =>
      exact taskMove_update challenged opens.view .stay task
  | transfer moves =>
      rw [moves.view task]
      exact .stay

theorem Convicts.taskMove {task : TaskId} {rewardTo : Option Identity} {params : Params}
    (phases : InPhase s) (convicts : Convicts s task rewardTo params s')
    (fails : ∀ {sub : Submission}, sub.status = .settled →
      TaskMove task op (some sub) (some { sub with status := .failed })) (probe : TaskId) :
    TaskMove probe op (s.view probe).sub (s'.view probe).sub := by
  cases convicts with
  | idle _ => exact .stay
  | @slash receipt sub provider penalty record _ slashes =>
      have found : (s.view task).sub = some sub := slashes.sub_eq
      refine taskMove_update task slashes.view ?_ probe
      rw [found]
      exact fails (slashes.settled phases)

omit [Crypto] in
theorem State.Advances.view_sub {params : Params} {ticked : State}
    (advances : State.Advances s params ticked s') (task : TaskId) :
    (s'.view task).sub = (s.view task).sub := by
  obtain ⟨_, _, _, records⟩ := advances.records_eq
  rw [State.view, records]
  rfl

/-- An accepted operation moves every task along its lifecycle, or not at all. -/
theorem Step.taskMove (phases : InPhase s) (step : Step s op s') (task : TaskId) :
    TaskMove task op s.tasks[task]? s'.tasks[task]? := by
  change TaskMove task op (s.view task).sub (s'.view task).sub
  cases step.effect with
  | apply _ _ _ payload => exact payload.taskMove task
  | advanceEpoch advances =>
      rw [advances.view_sub task]
      exact .stay
  | resolveFraud convicts => exact convicts.taskMove phases .audit task
  | @resolveChallenge closed fraud params _ closes =>
      have closed_phases := Event.inPhase phases (.close closed)
      cases closes with
      | idle _ => exact .stay
      | won _ convicts moves =>
          rw [moves.view task]
          exact convicts.taskMove closed_phases .convict task
      | lost _ moves =>
          rw [moves.view task]
          exact .stay

end Moves

/-- From every reachable state, every operation moves each task along its lifecycle or not at all,
and no run rewrites what is recorded. -/
theorem lifecycle [Crypto] {s : State} (reachable : Reachable s) :
    (∀ op s', Step s op s' → ∀ task : TaskId, TaskMove task op s.tasks[task]? s'.tasks[task]?) ∧
      ∀ ops s', Run Step s ops s' → ∀ task : TaskId, (s.view task).Extends (s'.view task) := by
  have phases := reachable.inPhase
  refine ⟨fun op s' step task => step.taskMove phases task, fun ops s' run task => ?_⟩
  exact run.related InPhase (fun before after => (before.view task).Extends (after.view task))
    phases (fun held step => step.preserves InPhase Event.inPhase held) (fun _ => .refl _)
    View.Extends.trans fun held step => step.extends held task

section Sample

open Sample

attribute [local instance] Crypto.checksum

theorem lifecycle_settled : ∃ s, outcomeOf allocations 0 (settled 400) = some s ∧
    (∀ op s', Step s op s' → ∀ task : TaskId, TaskMove task op s.tasks[task]? s'.tasks[task]?) ∧
      ∀ ops s', Run Step s ops s' → ∀ task : TaskId, (s.view task).Extends (s'.view task) := by
  have ran : (outcomeOf allocations 0 (settled 400)).isSome = true := by decide +kernel
  obtain ⟨s, ran⟩ := Option.isSome_iff_exists.mp ran
  exact ⟨s, ran, lifecycle (reachable_of_outcomeOf ran)⟩

end Sample

end Ducp
