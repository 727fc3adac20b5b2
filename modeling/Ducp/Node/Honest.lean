import Ducp.Ledger.Audit
import Ducp.Ledger.Bystanders
import Ducp.Node.Conviction

/-!
# Honest providers

The node executes a challenged proof again from the payloads it stores.  A provider whose proofs say
what these payloads execute to is never convicted, and nobody but itself can take anything from it.
-/

namespace Ducp

open MapSum Outcome Std

/-- The proof which a transaction carries. -/
def Tx.proof? : Tx → Option ComputeProof
  | .submitProof proof => some proof
  | _ => none

/-- What the stored payloads of a task execute to. -/
def NodeHandle.reexecute [Crypto] [Runtime] (node : NodeHandle) (inner : NodeInner)
    (task : TaskId) : Option ExecOutcome := do
  let body ← inner.state.bodies[task]?
  let program ← inner.blobs[body.program]?
  let input ← inner.blobs[body.input]?
  (WasmtimeDvm.execute program input body.limits node.benchmark).toOption

/-- The stored payloads of a task execute to what a proof says. -/
def Honest [Crypto] [Runtime] (node : NodeHandle) (inner : NodeInner) (task : TaskId)
    (proof : ComputeProof) : Prop :=
  ∃ outcome, node.reexecute inner task = some outcome ∧ ¬outcome.Refutes proof

instance [Crypto] [Runtime] (node : NodeHandle) (inner : NodeInner) (task : TaskId)
    (proof : ComputeProof) : Decidable (Honest node inner task proof) :=
  decidable_of_iff ((node.reexecute inner task).any (¬·.Refutes proof) = true) <| by
    simp [Honest, Option.any_eq_true]

/-- A call which proves honestly, when it is a proof of the identity, and whose payload collides
with no stored one. -/
def NodeOp.FairTo [Crypto] [Runtime] (node : NodeHandle) (id : Identity) (inner : NodeInner) :
    NodeOp → Prop
  | .submit stx => stx.author = id → stx.verifySig = .ok true →
      ∀ proof ∈ stx.tx.proof?, Honest node inner proof.task proof
  | .putBlob bytes => ∀ stored ∈ inner.blobs[contentId bytes]?, stored = bytes
  | _ => True

instance [Crypto] [Runtime] (node : NodeHandle) (id : Identity) (inner : NodeInner) (op : NodeOp) :
    Decidable (op.FairTo node id inner) := by
  cases op <;> unfold NodeOp.FairTo <;> infer_instance

/-- A fair call. -/
def Fair [Crypto] [Runtime] (node : NodeHandle) (id : Identity) (before : Lock NodeInner)
    (op : NodeOp) (after : Lock NodeInner) : Prop :=
  op.FairTo node id before.state ∧ op.Performs node before after

/-- Every proof of an identity is honest, and none of its tasks is slashed. -/
structure Blameless [Crypto] [Runtime] (node : NodeHandle) (id : Identity) (inner : NodeInner) :
    Prop where
  honest : ∀ (task : TaskId) (proof : ComputeProof), inner.state.offender task = some id →
    inner.state.proofs[task]? = some proof → Honest node inner task proof
  unslashed : ∀ task, inner.state.offender task = some id → task ∉ inner.state.slashed

/-- What a call leaves an identity: nothing is taken, except a bond which it loses with a challenge
of its own. -/
structure NodeOp.SafeFor (op : NodeOp) (id : Identity) (s s' : State) : Prop where
  nonce : s'.nonces[id]? = s.nonces[id]?
  balance : (s.acct id).balance.toNat ≤ (s'.acct id).balance.toNat
  wealth : (∀ task, op = .resolvePendingChallenge task → id ∉ s.challengers task) →
    s.wealth id ≤ s'.wealth id
  standing : op ≠ .advanceEpoch → s'.standing[id]? = s.standing[id]?

/-! ## What the ledger records of a provider -/

section Records

variable [Crypto] {s s' : State} {id : Identity} {task : TaskId} {proof : ComputeProof} {op : Op}

omit [Crypto] in
theorem State.offender_eq_some :
    s.offender task = some id ↔ ∃ sub, s.tasks[task]? = some sub ∧ sub.provider = some id := by
  rw [State.offender, Option.bind_eq_some_iff]

/-- A payload records a proof of its author, or records none. -/
theorem Payload.proves {author : Identity} {params : Params} {tx : Tx}
    (payload : Payload s author params tx s') (phases : InPhase s)
    (offends : s'.offender task = some id) (proof_eq : s'.proofs[task]? = some proof) :
    (s.offender task = some id ∧ s.proofs[task]? = some proof) ∨
      (author = id ∧ proof ∈ tx.proof? ∧ proof.task = task) := by
  obtain ⟨sub, sub_eq, provider⟩ := State.offender_eq_some.mp offends
  have kept (view : s'.view task = s.view task) :
      s.offender task = some id ∧ s.proofs[task]? = some proof := by
    have found : (s.view task).sub = some sub := view ▸ sub_eq
    have proved : (s.view task).proof = some proof := view ▸ proof_eq
    exact ⟨State.offender_eq_some.mpr ⟨sub, found, provider⟩, proved⟩
  cases payload with
  | @submitTask body fresh fee _ submits =>
      by_cases same : task = fresh
      · have view := (submits.view task).trans (if_pos same)
        have found := sub_eq.symm.trans (congrArg View.sub view)
        obtain rfl := Option.some.inj found
        cases provider
      · exact .inl (kept ((submits.view task).trans (if_neg same)))
  | @claimTask claimed body sub' stake _ claims =>
      by_cases same : task = claimed
      · subst same
        have view := (claims.view task).trans (if_pos rfl)
        obtain ⟨_, opened, _⟩ := (phases task).of_submitted claims.sub_eq claims.submitted
        have proved := proof_eq.symm.trans (congrArg View.proof view)
        rw [opened] at proved
        cases proved
      · exact .inl (kept ((claims.view task).trans (if_neg same)))
  | @submitProof proof' body sub' receipt record _ settles =>
      by_cases same : task = proof'.task
      · have view := (settles.view task).trans (if_pos same)
        obtain rfl := Option.some.inj (proof_eq.symm.trans (congrArg View.proof view))
        obtain rfl := Option.some.inj (sub_eq.symm.trans (congrArg View.sub view))
        exact .inr ⟨Option.some.inj (settles.provider.symm.trans provider), rfl, same.symm⟩
      · exact .inl (kept ((settles.view task).trans (if_neg same)))
  | @challenge challenged bond receipt sub' _ opens =>
      have view := opens.view task
      split at view
      · rename_i same
        subst same
        have found : (s.view task).sub = some sub := (congrArg View.sub view).symm.trans sub_eq
        have proved : (s.view task).proof = some proof :=
          (congrArg View.proof view).symm.trans proof_eq
        exact .inl ⟨State.offender_eq_some.mpr ⟨sub, found, provider⟩, proved⟩
      · exact .inl (kept view)
  | transfer moves => exact .inl (kept (moves.view task))

/-- A provider is the provider of its task ever after. -/
theorem Step.offender (step : Step s op s') (phases : InPhase s)
    (offends : s.offender task = some id) : s'.offender task = some id := by
  obtain ⟨sub, sub_eq, provider⟩ := State.offender_eq_some.mp offends
  obtain ⟨sub', sub_eq', _, _, claimed⟩ := (step.extends phases task).sub sub sub_eq
  exact State.offender_eq_some.mpr ⟨sub', sub_eq', (claimed (by simp [provider])).1.trans provider⟩

/-- A slashed task has a provider. -/
theorem InPhase.exists_offender (phases : InPhase s) (slashed : task ∈ s.slashed) :
    ∃ id, s.offender task = some id := by
  have consistent := phases.consistent
  obtain ⟨sub, sub_eq, failed⟩ := (consistent.slashed task).mp slashed
  have claimed : sub.provider ≠ none := by
    simp [consistent.provider task sub sub_eq, failed]
  obtain ⟨id, provider⟩ := Option.ne_none_iff_exists'.mp claimed
  exact ⟨id, State.offender_eq_some.mpr ⟨sub, sub_eq, provider⟩⟩

/-- Only a claim makes anyone a provider. -/
theorem TaskMove.offender (move : TaskMove task op s.tasks[task]? s'.tasks[task]?)
    (system : ∀ stx params, op ≠ .apply stx params) : s'.offender task = s.offender task := by
  rw [State.offender, State.offender]
  generalize s.tasks[task]? = before at move
  generalize s'.tasks[task]? = after at move
  cases move with
  | stay => rfl
  | submit _ _ _ => exact (system _ _ rfl).elim
  | claim _ _ => exact (system _ _ rfl).elim
  | settle _ _ _ _ => exact (system _ _ rfl).elim
  | audit _ => rfl
  | convict _ => rfl

/-- A proof of an identity was recorded before an operation, or is the operation. -/
theorem Step.proves (step : Step s op s') (phases : InPhase s)
    (offends : s'.offender task = some id) (proof_eq : s'.proofs[task]? = some proof) :
    (s.offender task = some id ∧ s.proofs[task]? = some proof) ∨
      ∃ stx params, op = .apply stx params ∧ stx.verifySig = .ok true ∧ stx.author = id ∧
        proof ∈ stx.tx.proof? ∧ proof.task = task := by
  have move := step.taskMove phases task
  cases step.effect with
  | apply verified _ _ payload =>
      rcases payload.proves phases offends proof_eq with earlier | ⟨author, proved, task_eq⟩
      · exact .inl earlier
      · exact .inr ⟨_, _, rfl, verified, author, proved, task_eq⟩
  | advanceEpoch advances =>
      obtain ⟨_, _, _, records⟩ := advances.records_eq
      have proofs : s'.proofs = s.proofs := congrArg Records.proofs records
      exact .inl ⟨move.offender (by simp) ▸ offends, proofs ▸ proof_eq⟩
  | resolveFraud convicts =>
      exact .inl ⟨move.offender (by simp) ▸ offends, convicts.spares.proofs ▸ proof_eq⟩
  | resolveChallenge closes =>
      exact .inl ⟨move.offender (by simp) ▸ offends, closes.spares.proofs ▸ proof_eq⟩

/-- A task is slashed by a verdict which convicts it. -/
theorem Step.slashes (step : Step s op s') (phases : InPhase s) (slashed : task ∈ s'.slashed) :
    task ∈ s.slashed ∨ (∃ rewardTo params, op = .resolveFraud task rewardTo params) ∨
      ∃ params, op = .resolveChallenge task true params := by
  have move := step.taskMove phases task
  obtain ⟨sub, sub_eq, failed⟩ :=
    ((step.preserves InPhase Event.inPhase phases).consistent.slashed task).mp slashed
  rw [sub_eq] at move
  generalize sub_before : s.tasks[task]? = before at move
  cases move with
  | stay => exact .inl ((phases.consistent.slashed task).mpr ⟨sub, sub_before, failed⟩)
  | submit _ _ status => simp [status] at failed
  | claim _ _ => cases failed
  | settle _ _ _ _ => cases failed
  | audit _ => exact .inr (.inl ⟨_, _, rfl⟩)
  | convict _ => exact .inr (.inr ⟨_, rfl⟩)

/-- The strikes of an identity count its slashed tasks. -/
theorem Reachable.strikesOf_eq (reachable : Reachable s) (id : Identity) :
    s.strikesOf id = viewTotal (View.struck id) s := by
  obtain ⟨allocations, epoch, start, ops, genesis, run⟩ := reachable
  obtain ⟨_, strikes, _, unknown⟩ := genesis_counters genesis
  have phases : InPhase start := (State.genesis_effect genesis).inPhase
  have audited : Accounts True start s := accounts_of_run phases run fun _ _ _ => trivial
  have balance := audited.strikes id
  rwa [unknown, strikes id, add_zero, zero_add] at balance

/-- An identity without a slashed task has no strike. -/
theorem Reachable.unstruck (reachable : Reachable s)
    (unslashed : ∀ task, s.offender task = some id → task ∉ s.slashed) : s.strikesOf id = 0 := by
  rw [reachable.strikesOf_eq]
  refine total_eq_zero fun task sub found => ?_
  have sub_eq : (s.view task).sub = some sub := found
  have free : ¬((s.view task).slashed ∧ sub.provider = some id) := fun ⟨slashed, provider⟩ =>
    unslashed task (State.offender_eq_some.mpr ⟨sub, found, provider⟩) slashed
  simp [View.struck, sub_eq, free]

end Records

/-! ## What a fair call leaves -/

section Calls

variable [Crypto] [Runtime] {node : NodeHandle} {inner inner' : NodeInner} {op : NodeOp}
  {id : Identity} {task : TaskId} {proof : ComputeProof}

/-- A stored payload is not replaced by a fair call. -/
theorem Changes.blob_kept (changes : Changes node inner op inner') (fair : op.FairTo node id inner)
    {address : ContentId} {bytes : List UInt8} (found : inner.blobs[address]? = some bytes) :
    inner'.blobs[address]? = some bytes := by
  cases changes with
  | idle => exact found
  | accept admits => rw [admits.step.2.2, found]
  | decide decides => rw [(applyVerdict_step decides.applied).2.2, found]
  | cross crossed => rw [(crossEpoch_step crossed).2.2, found]
  | store payload =>
      rw [NodeInner.putBlob, getElem?_insert]
      split
      · rename_i same
        subst same
        rw [fair bytes found]
      · exact found

/-- The operation of the ledger which a call amounts to. -/
inductive NodeOp.Amounts (node : NodeHandle) (inner : NodeInner) (inner' : NodeInner) :
    NodeOp → Op → Prop
  | apply {stx : SignedTx} : Amounts node inner inner' (.submit stx) (.apply stx node.params)
  | verdict {task : TaskId} {body : TaskBody} {proof : ComputeProof} {program input : List UInt8}
      {honest : ExecOutcome} {fraud : Bool} :
      Decides node inner task body proof program input honest fraud inner' →
      Amounts node inner inner' (.resolvePendingChallenge task)
        (.resolveChallenge task fraud node.params)
  | boundary : Amounts node inner inner' .advanceEpoch (.advanceEpoch node.params)

/-- A call leaves the ledger alone, or amounts to one step of it. -/
theorem Changes.amounts (changes : Changes node inner op inner') :
    inner'.state = inner.state ∨
      ∃ ledgerOp, op.Amounts node inner inner' ledgerOp ∧
        Step inner.state ledgerOp inner'.state := by
  cases changes with
  | idle => exact .inl rfl
  | accept admits => exact .inr ⟨_, .apply, admits.step.1⟩
  | decide decides => exact .inr ⟨_, .verdict decides, (applyVerdict_step decides.applied).1⟩
  | cross crossed => exact .inr ⟨_, .boundary, (crossEpoch_step crossed).1⟩
  | store _ => exact .inl rfl

/-- The evidence of a verdict executes to what the verdict has seen. -/
theorem Decides.reexecutes {body : TaskBody} {program input : List UInt8} {honest : ExecOutcome}
    {fraud : Bool}
    (decides : Decides node inner task body proof program input honest fraud inner') :
    node.reexecute inner task = some honest := by
  simp [NodeHandle.reexecute, decides.body_eq, decides.program_eq, decides.input_eq,
    Checked.toOption_eq_some.mpr decides.executed]

/-- A blameless provider is acquitted. -/
theorem Blameless.acquitted (blameless : Blameless node id inner) {body : TaskBody}
    {program input : List UInt8} {honest : ExecOutcome} {fraud : Bool}
    (decides : Decides node inner task body proof program input honest fraud inner')
    (offends : inner.state.offender task = some id) : fraud = false := by
  obtain ⟨outcome, reexecuted, agrees⟩ := blameless.honest task proof offends decides.proof_eq
  rw [decides.reexecutes] at reexecuted
  obtain rfl := Option.some.inj reexecuted
  exact Bool.eq_false_iff.mpr fun convicted => agrees (decides.verdict.mp convicted)

/-- What stored payloads execute to stays, while the body and the payloads do. -/
theorem Honest.kept (honest : Honest node inner task proof)
    (bodies : ∀ body, inner.state.bodies[task]? = some body →
      inner'.state.bodies[task]? = some body)
    (blobs : ∀ (address : ContentId) (bytes : List UInt8), inner.blobs[address]? = some bytes →
      inner'.blobs[address]? = some bytes) : Honest node inner' task proof := by
  obtain ⟨outcome, reexecuted, agrees⟩ := honest
  refine ⟨outcome, ?_, agrees⟩
  simp only [NodeHandle.reexecute, Option.bind_eq_bind, Option.bind_eq_some_iff] at reexecuted ⊢
  obtain ⟨body, body_eq, program, program_eq, input, input_eq, executed⟩ := reexecuted
  exact ⟨body, bodies body body_eq, program, blobs _ _ program_eq, input, blobs _ _ input_eq,
    executed⟩

/-- Fair calls keep an identity blameless. -/
theorem Blameless.changes (blameless : Blameless node id inner) (sound : Sound inner)
    (fair : op.FairTo node id inner) (changes : Changes node inner op inner') :
    Blameless node id inner' := by
  have phases := sound.ledger.inPhase
  have blobs (address : ContentId) (bytes : List UInt8)
      (found : inner.blobs[address]? = some bytes) : inner'.blobs[address]? = some bytes :=
    changes.blob_kept fair found
  rcases changes.amounts with same | ⟨ledgerOp, amounts, step⟩
  · refine ⟨fun task proof offends proved => ?_, fun task offends => ?_⟩
    · rw [same] at offends proved
      exact (blameless.honest task proof offends proved).kept (by simp [same]) blobs
    · rw [same] at offends ⊢
      exact blameless.unslashed task offends
  · refine ⟨fun task proof offends proved => ?_, fun task offends slashed => ?_⟩
    · have extended := step.extends phases task
      rcases step.proves phases offends proved with
        ⟨offends, proved⟩ | ⟨stx, params, rfl, verified, author, carried, task_eq⟩
      · exact (blameless.honest task proof offends proved).kept extended.body blobs
      · cases amounts with
        | apply => exact (task_eq ▸ fair author verified proof carried).kept extended.body blobs
    · have move := step.taskMove phases task
      rcases step.slashes phases slashed with old | ⟨_, _, rfl⟩ | ⟨_, rfl⟩
      · obtain ⟨provider, slashes⟩ := phases.exists_offender old
        obtain rfl := Option.some.inj ((step.offender phases slashes).symm.trans offends)
        exact blameless.unslashed task slashes old
      · cases amounts
      · rw [move.offender (by simp)] at offends
        cases amounts with
        | verdict decides => exact Bool.noConfusion (blameless.acquitted decides offends)

/-- A call of others is an operation of others on the ledger, when the identity is blameless. -/
theorem Blameless.byOthers (blameless : Blameless node id inner) {ledgerOp : Op}
    (amounts : op.Amounts node inner inner' ledgerOp)
    (others : ∀ stx, op = .submit stx → stx.verifySig = .ok true → stx.author ≠ id)
    (step : Step inner.state ledgerOp inner'.state) : ledgerOp.ByOthers inner.state id := by
  cases amounts with
  | apply => exact others _ rfl (State.apply_effect step).1
  | verdict decides =>
      rintro rfl offends
      exact Bool.noConfusion (blameless.acquitted decides offends)
  | boundary => trivial

/-- A call of others is safe for a blameless identity. -/
theorem Blameless.safeFor (blameless : Blameless node id inner)
    (changes : Changes node inner op inner')
    (others : ∀ stx, op = .submit stx → stx.verifySig = .ok true → stx.author ≠ id) :
    op.SafeFor id inner.state inner'.state := by
  rcases changes.amounts with same | ⟨ledgerOp, amounts, step⟩
  · rw [same]
    exact ⟨rfl, le_rfl, fun _ => le_rfl, fun _ => rfl⟩
  · have respects := step.respects (blameless.byOthers amounts others step)
    refine ⟨respects.nonce, respects.balance, fun apart => respects.wealth ?_, fun idle =>
      respects.standing ?_⟩
    · cases amounts with
      | apply => exact not_false
      | verdict _ => exact fun dismisses => apart _ rfl dismisses.2
      | boundary => exact not_false
    · cases amounts with
      | apply => rfl
      | verdict _ => rfl
      | boundary => exact (idle rfl).elim

theorem new_blameless {proposer : Identity} {allocations : List (Identity × Ucu)}
    {start : Lock NodeInner} (opened : NodeHandle.new proposer allocations = .ok (node, start)) :
    Blameless node id start.state := by
  obtain ⟨_, state, _, minted, _, rfl⟩ := new_effect opened
  have tasks : state.tasks = ∅ := congrArg Records.tasks (State.genesis_effect minted).records
  have unprovided (task : TaskId) : state.offender task ≠ some id := by
    simp [State.offender, tasks]
  exact ⟨fun task _ offends => (unprovided task offends).elim, fun task offends =>
    (unprovided task offends).elim⟩

/-- Along every run in which an identity proves honestly, and stored payloads do not collide, every
verdict on its tasks acquits it, none of them is slashed, it has no strike, and no call which it has
not signed takes anything from it. -/
theorem honest_unharmed {proposer : Identity} {allocations : List (Identity × Ucu)}
    {start lock : Lock NodeInner} {ops : List NodeOp}
    (opened : NodeHandle.new proposer allocations = .ok (node, start))
    (run : Run (Fair node id) start ops lock) :
    (∀ task fraud after, lock.state.state.offender task = some id →
      (node.resolvePendingChallenge task).Returns lock fraud after → fraud = false) ∧
    (∀ task, lock.state.state.offender task = some id → task ∉ lock.state.state.slashed) ∧
    (lock.state.state.standingRecord id).strikes = 0 ∧
    ∀ op after, Fair node id lock op after →
      (∀ stx, op = .submit stx → stx.verifySig = .ok true → stx.author ≠ id) →
      op.SafeFor id lock.state.state after.state.state := by
  have kept := run.invariant (fun lock => Sound lock.state ∧ Blameless node id lock.state)
    ⟨new_sound opened, new_blameless opened⟩ fun ⟨sound, blameless⟩ ⟨fair, performs⟩ =>
      have changes := performs.changes sound.mempool
      ⟨changes.sound sound, blameless.changes sound fair changes⟩
  obtain ⟨sound, blameless⟩ := kept
  refine ⟨fun task fraud after offends returns => ?_, blameless.unslashed,
    BitVec.eq_of_toNat_eq (sound.ledger.unstruck blameless.unslashed), fun op after ⟨_, performs⟩ =>
      blameless.safeFor (performs.changes sound.mempool)⟩
  cases resolve_ends returns with
  | decided _ decides => exact blameless.acquitted decides offends

end Calls

section Sample

open Sample

attribute [local instance] Crypto.checksum Runtime.echo

/-- A sample node after calls, when each of them is fair to an identity. -/
def Sample.fairAfter (id : Identity) (ops : List NodeOp) :
    Option (NodeHandle × Lock NodeInner × Lock NodeInner) :=
  match NodeHandle.new alice funded with
  | .ok (node, start) =>
      match (ops.foldlM (fun lock op =>
          if op.FairTo node id lock.state then .ok (op.perform node lock) else .error ()) start :
        Except Unit (Lock NodeInner)) with
      | .ok lock => some (node, start, lock)
      | .error _ => none
  | .error _ => none

theorem Sample.fairAfter_eq_some {id : Identity} {ops : List NodeOp} {node : NodeHandle}
    {start lock : Lock NodeInner} (ran : fairAfter id ops = some (node, start, lock)) :
    NodeHandle.new alice funded = .ok (node, start) ∧ Run (Fair node id) start ops lock := by
  rw [fairAfter] at ran
  split at ran
  · rename_i opened
    split at ran
    · rename_i folded
      simp only [Option.some.injEq, Prod.mk.injEq] at ran
      obtain ⟨rfl, rfl, rfl⟩ := ran
      refine ⟨opened, (Run.of_foldlM folded).mono fun op _ before after taken => ?_⟩
      split at taken
      · rename_i fair
        exact ⟨fair, Except.ok.inj taken⟩
      · cases taken
    · cases ran
  · cases ran

/-- An honest settlement is challenged, and acquitted. -/
theorem honest_unharmed_challenged :
    ∃ (node : NodeHandle) (lock after : Lock NodeInner),
      echoTask ∈ lock.state.state.pendingChallenges ∧
      lock.state.state.offender echoTask = some bob ∧
      (node.resolvePendingChallenge echoTask).Returns lock false after ∧
      (lock.state.state.standingRecord bob).strikes = 0 ∧
      (NodeOp.resolvePendingChallenge echoTask).SafeFor bob lock.state.state after.state.state := by
  have challenged : (fairAfter bob (echoBlobs ++ echoSettled echoProof ++
      [.submit echoChallenge])).any (fun ran =>
        echoTask ∈ ran.2.2.state.state.pendingChallenges ∧
          ran.2.2.state.state.offender echoTask = some bob ∧
          (ran.1.resolvePendingChallenge echoTask ran.2.2).1 = .ok (.ok false)) = true := by
    decide +kernel
  obtain ⟨⟨node, start, lock⟩, ran, challenged⟩ := (Option.any_eq_true _ _).mp challenged
  obtain ⟨pending, offends, acquits⟩ := of_decide_eq_true challenged
  obtain ⟨opened, run⟩ := fairAfter_eq_some ran
  obtain ⟨_, _, unstruck, safe⟩ := honest_unharmed opened run
  exact ⟨node, lock, _, pending, offends, Prod.ext acquits rfl, unstruck,
    safe (.resolvePendingChallenge echoTask) _ ⟨trivial, rfl⟩ (by simp)⟩

end Sample

end Ducp
