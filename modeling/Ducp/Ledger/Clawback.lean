import Ducp.Ledger.Consistency
import Ducp.Ledger.Lifecycle

/-!
# The clawback window

A stake is released from the epoch at which its window ends, and a challenge is admitted up to and
including that epoch.  A released task is therefore safe from challenges except at the boundary
epoch itself.
-/

namespace Ducp

open MapSum Outcome Std

/-- The windows of the released tasks have ended. -/
def ReleasedEnded (s : State) : Prop :=
  ∀ task, (s.view task).released →
    ∃ receipt, (s.view task).receipt = some receipt ∧
      receipt.clawbackUntil.toNat ≤ s.epoch.toNat

section Invariant

variable {s s' : State}

/-- An event which releases nothing and does not turn back the epoch. -/
theorem ReleasedEnded.kept (ended : ReleasedEnded s)
    (extended : ∀ task, (s.view task).Extends (s'.view task))
    (released : s'.released = s.released)
    (epoch : s.epoch.toNat ≤ s'.epoch.toNat) : ReleasedEnded s' := by
  intro task member
  have before : (s.view task).released := by
    change task ∈ s.released
    rw [← released]
    exact member
  obtain ⟨receipt, found, closed⟩ := ended task before
  exact ⟨receipt, (extended task).receipt receipt found, closed.trans epoch⟩

variable [Crypto]

theorem Event.releasedEnded (phases : InPhase s) (ended : ReleasedEnded s) (event : Event s s') :
    ReleasedEnded s' := by
  have extended := event.extends phases
  cases event with
  | nonce _ _ => exact ended
  | payload payload =>
      exact ended.kept extended payload.released_eq (congrArg BitVec.toNat payload.epoch_eq).ge
  | tick epoch_eq =>
      exact ended.kept extended rfl (by rw [epoch_eq]; exact Nat.le_succ _)
  | @release matured receipt sub _ releases =>
      have epoch : s'.epoch = s.epoch := congrArg Records.epoch releases.records
      intro task member
      rw [epoch]
      by_cases same : task = matured.1
      · subst same
        have found : (s.view matured.1).receipt = some receipt := releases.receipt_eq
        exact ⟨receipt, (extended matured.1).receipt receipt found, releases.closed⟩
      · rw [releases.view task, if_neg same] at member
        obtain ⟨found, found_eq, closed⟩ := ended task member
        exact ⟨found, (extended task).receipt found found_eq, closed⟩
  | slash slashes =>
      obtain ⟨moved, penalizes, rfl⟩ := slashes.penalizes
      have epoch : moved.epoch = s.epoch := congrArg Records.epoch penalizes.records
      exact ended.kept extended (congrArg Records.released penalizes.records)
        (congrArg BitVec.toNat epoch).ge
  | close _ => exact ended.kept extended rfl (Nat.le_refl _)
  | unlock moves =>
      have epoch : s'.epoch = s.epoch := congrArg Records.epoch moves.records
      exact ended.kept extended (congrArg Records.released moves.records)
        (congrArg BitVec.toNat epoch).ge
  | forfeit moves =>
      have epoch : s'.epoch = s.epoch := congrArg Records.epoch moves.records
      exact ended.kept extended (congrArg Records.released moves.records)
        (congrArg BitVec.toNat epoch).ge

theorem Reachable.releasedEnded (reachable : Reachable s) : ReleasedEnded s := by
  have carried := reachable.invariant (fun state => InPhase state ∧ ReleasedEnded state)
    (fun {start epoch} genesis => ⟨genesis.inPhase, fun task member => by
      rw [State.view, genesis.records] at member
      simp [Records.view, State.records, State.empty] at member⟩)
    fun held event => ⟨event.inPhase held.1, event.releasedEnded held.1 held.2⟩
  exact carried.2

end Invariant

/-! ## The release of a receipted task -/

/-- A receipted task has a provider. -/
theorem InPhase.provided [Crypto] {s : State} (phases : InPhase s) {task : TaskId}
    {receipt : Receipt} (receipt_eq : s.receipts[task]? = some receipt) :
    ∃ sub provider, s.tasks[task]? = some sub ∧ sub.provider = some provider := by
  have found : (s.view task).receipt = some receipt := receipt_eq
  obtain ⟨body, sub, proof, entry, _, sub_eq, _, _, agrees⟩ := (phases task).agreement found
  exact ⟨sub, proof.provider, sub_eq, agrees.provider⟩

/-- An epoch boundary releases the receipted tasks which are not slashed and whose windows have
ended, whatever else the ledger says about them. -/
theorem State.Advances.released_iff [Crypto] {s s' ticked : State} {params : Params}
    (phases : InPhase s) (advances : State.Advances s params ticked s') {task : TaskId}
    {receipt : Receipt} (receipt_eq : s.receipts[task]? = some receipt) :
    task ∈ s'.released ↔
      task ∈ s.released ∨ receipt.clawbackUntil ≤ s'.epoch ∧ task ∉ s.slashed := by
  obtain ⟨sub, provider, sub_eq, provider_eq⟩ := phases.provided receipt_eq
  have released := advances.released task
  obtain ⟨epoch, standing, _, rfl, _⟩ := advances.ticks
  have epoch_eq : s'.epoch = epoch := congrArg Records.epoch advances.records
  have matures : task ∈ ({ s with epoch, standing } : State).toRelease.map Prod.fst ↔
      receipt.clawbackUntil ≤ epoch ∧ task ∉ s.released ∧ task ∉ s.slashed := by
    simp only [List.mem_map]
    constructor
    · rintro ⟨matured, member, rfl⟩
      obtain ⟨found, found_eq, matures⟩ := State.mem_toRelease.mp member
      obtain ⟨_, closed, unreleased, unslashed, _⟩ := State.maturedStake_eq_some.mp matures
      obtain rfl : receipt = found := Option.some.inj (receipt_eq.symm.trans found_eq)
      exact ⟨closed, unreleased, unslashed⟩
    · rintro ⟨closed, unreleased, unslashed⟩
      exact ⟨(task, provider, sub.claimStake), State.mem_toRelease.mpr ⟨receipt, receipt_eq,
        State.maturedStake_eq_some.mpr ⟨rfl, closed, unreleased, unslashed, sub, sub_eq,
          provider_eq, rfl⟩⟩, rfl⟩
  rw [released, matures, epoch_eq]
  tauto

/-- An epoch boundary counts the epoch and leaves the receipts, the open challenges and the slashed
tasks alone. -/
theorem State.Advances.kept {s s' ticked : State} {params : Params}
    (advances : State.Advances s params ticked s') :
    s'.epoch.toNat = s.epoch.toNat + 1 ∧ s'.receipts = s.receipts ∧ s'.slashed = s.slashed ∧
      s'.pendingChallenges = s.pendingChallenges := by
  obtain ⟨_, _, _, records⟩ := advances.records_eq
  exact ⟨advances.epoch_eq, congrArg Records.receipts records, congrArg Records.slashed records,
    congrArg Records.pendingChallenges records⟩

/-- From a reachable state with a pending challenge on an unreleased task, any number of epoch
boundaries leaves the challenge pending, and releases the task exactly when its window has ended and
it has not been slashed. -/
theorem challenge_holds_nothing [Crypto] {s : State} (reachable : Reachable s) {task : TaskId}
    {pc : ChallengeRecord} (pending : s.pendingChallenges[task]? = some pc)
    (unreleased : task ∉ s.released) :
    ∃ receipt, s.receipts[task]? = some receipt ∧
      ∀ ops s', ops ≠ [] → (∀ op ∈ ops, ∃ params, op = Op.advanceEpoch params) →
        Run Step s ops s' →
        s'.pendingChallenges[task]? = some pc ∧ s'.epoch.toNat = s.epoch.toNat + ops.length ∧
          (task ∈ s'.released ↔ receipt.clawbackUntil ≤ s'.epoch ∧ task ∉ s.slashed) := by
  have receipted := (reachable.inPhase task).receipted (.inl (Option.isSome_of_eq_some pending))
  obtain ⟨receipt, found⟩ := Option.isSome_iff_exists.mp receipted
  have receipt_eq : s.receipts[task]? = some receipt := found
  refine ⟨receipt, receipt_eq, fun ops s' nonempty advancing run => ?_⟩
  have advances : Run (fun before _ after => ∃ params ticked,
      State.Advances before params ticked after ∧ Step before (.advanceEpoch params) after)
      s ops s' := by
    refine run.mono fun op member before after step => ?_
    obtain ⟨params, rfl⟩ := advancing op member
    cases step.effect with
    | advanceEpoch advances => exact ⟨params, _, advances, step⟩
  -- a released task has been released because its window has ended
  have carried : InPhase s' ∧ s'.receipts = s.receipts ∧ s'.slashed = s.slashed ∧
      s'.pendingChallenges = s.pendingChallenges ∧
      s'.epoch.toNat = s.epoch.toNat + ops.length ∧
      (task ∈ s'.released → receipt.clawbackUntil ≤ s'.epoch ∧ task ∉ s.slashed) ∧
      (ops ≠ [] → receipt.clawbackUntil ≤ s'.epoch ∧ task ∉ s.slashed → task ∈ s'.released) := by
    apply advances.traced fun ops state => InPhase state ∧ state.receipts = s.receipts ∧
      state.slashed = s.slashed ∧ state.pendingChallenges = s.pendingChallenges ∧
      state.epoch.toNat = s.epoch.toNat + ops.length ∧
      (task ∈ state.released → receipt.clawbackUntil ≤ state.epoch ∧ task ∉ s.slashed) ∧
      (ops ≠ [] → receipt.clawbackUntil ≤ state.epoch ∧ task ∉ s.slashed → task ∈ state.released)
    · exact ⟨reachable.inPhase, rfl, rfl, rfl, rfl, fun released => (unreleased released).elim,
        fun nonempty => (nonempty rfl).elim⟩
    · rintro ops before op after
        ⟨phases, receipts, slashed, challenges, epoch, ended, _⟩ ⟨params, ticked, advances, step⟩
      obtain ⟨epoch', receipts', slashed', challenges'⟩ := advances.kept
      have found : before.receipts[task]? = some receipt := by rw [receipts, receipt_eq]
      have released := advances.released_iff phases found
      rw [slashed] at released
      refine ⟨step.preserves InPhase Event.inPhase phases, receipts'.trans receipts,
        slashed'.trans slashed, challenges'.trans challenges, ?_, fun member => ?_,
        fun _ closed => released.mpr (.inr closed)⟩
      · rw [epoch', epoch, List.length_append]
        rfl
      · rcases released.mp member with earlier | closed
        · obtain ⟨closed, unslashed⟩ := ended earlier
          rw [BitVec.le_def] at closed ⊢
          exact ⟨by omega, unslashed⟩
        · exact closed
  obtain ⟨_, _, _, challenges, epoch, ended, releases⟩ := carried
  exact ⟨by rw [challenges, pending], epoch, ended, releases nonempty⟩

/-! ## Challenges of a released task -/

/-- The window of an unslashed, unchallenged task ends at the current epoch. -/
def AtBoundary (s : State) (task : TaskId) : Prop :=
  ∃ receipt, s.receipts[task]? = some receipt ∧ receipt.clawbackUntil = s.epoch ∧
    task ∉ s.slashed ∧ task ∉ s.pendingChallenges

/-- A challenge of a released task is only admitted at the boundary. -/
theorem Opens.atBoundary [Crypto] {s s' : State} {challenger : Identity} {task : TaskId}
    {bond : Ucu} {params : Params} {receipt : Receipt} {sub : Submission}
    (ended : ReleasedEnded s) (released : task ∈ s.released)
    (opens : Opens s challenger task bond params receipt sub s') : AtBoundary s task := by
  obtain ⟨found, found_eq, closed⟩ := ended task released
  have same : receipt = found := Option.some.inj (opens.receipt_eq.symm.trans found_eq)
  subst same
  exact ⟨receipt, opens.receipt_eq, BitVec.le_antisymm closed opens.window, opens.unslashed,
    (notMem_iff_eq_none s.pendingChallenges task).mpr opens.idle⟩

/-- At the boundary a challenge without a bond is admitted when the parameters ask for none. -/
theorem AtBoundary.admits [Crypto] {s : State} {task : TaskId} (phases : InPhase s)
    (boundary : AtBoundary s task) (challenger : Identity) :
    ∃ s', (s.openChallenge challenger task 0 { Params.devnet with bondMinPpm := 0 }).Returns
      s' := by
  obtain ⟨receipt, receipt_eq, epoch_eq, unslashed, idle⟩ := boundary
  obtain ⟨body, sub, proof, entry, pending, released, view_eq, _, _, settled, _⟩ :=
    (phases task).of_unslashed receipt_eq unslashed
  have sub_eq : s.tasks[task]? = some sub := congrArg View.sub view_eq
  have bondMin_eq : Params.bondMin { Params.devnet with bondMinPpm := 0 }
      receipt.paidToProvider = .ok 0 := by
    rw [Params.bondMin, ppmOf_eq_ok]
    simp
  have locked : ∃ moved, s.lock challenger 0 = .ok moved := by
    simp only [State.lock, Checked.bind_eq_ok, Checked.pure_eq_ok]
    exact ⟨_, (s.acct challenger).balance, Checked.sub_eq_ok.mpr (by simp),
      (s.acct challenger).bonded, Checked.add_eq_ok.mpr (by simp), rfl⟩
  obtain ⟨moved, locked⟩ := locked
  simp only [State.openChallenge, returns_bind, returns_rejectIf, returns_lift, returns_okOr,
    returns_pure]
  refine ⟨_, receipt, receipt_eq, sub, sub_eq, ⟨⟩, by simp [settled], ⟨⟩, ?_, ⟨⟩, ?_, 0, bondMin_eq,
    ⟨⟩, by simp, ⟨⟩, by simp, moved, locked, rfl⟩
  · simp [epoch_eq]
  · simp [unslashed, idle]

/-- A released task stays unchallengeable in every later state which is not at the boundary of the
task; and it can be challenged exactly at the boundary. -/
theorem released_unchallengeable [Crypto] {s : State} (reachable : Reachable s) {task : TaskId}
    (released : task ∈ s.released) :
    (∀ ops later, Run Step s ops later → ¬AtBoundary later task →
      ∀ (stx : SignedTx) (params : Params) (bond : Ucu), stx.tx = .challenge task bond →
        ∀ s', ¬Step later (.apply stx params) s') ∧
    ((∃ challenger bond params s', (s.openChallenge challenger task bond params).Returns s') ↔
      AtBoundary s task) := by
  constructor
  · intro ops later run inside stx params bond tx_eq s' step
    have reached := reachable.run run
    have member : task ∈ later.released :=
      ((lifecycle reachable).2 ops later run task).released released
    cases step.effect with
    | @apply _ _ next _ _ _ _ payload =>
        rw [tx_eq] at payload
        cases payload with
        | challenge opens =>
            have ended : ReleasedEnded
                { later with nonces := later.nonces.insert stx.author next } :=
              reached.releasedEnded
            have bounded : AtBoundary
                { later with nonces := later.nonces.insert stx.author next } task :=
              opens.atBoundary ended member
            exact inside bounded
  · constructor
    · rintro ⟨challenger, bond, params, s', returned⟩
      obtain ⟨receipt, sub, opens⟩ := State.openChallenge_effect returned
      exact opens.atBoundary reachable.releasedEnded released
    · intro boundary
      obtain ⟨s', returned⟩ := boundary.admits reachable.inPhase (Bytes.fill 32 0)
      exact ⟨_, 0, _, s', returned⟩

section Sample

open Sample

attribute [local instance] Crypto.checksum

/-- The epochs of the devnet window after a settlement. -/
def window : List Op := List.replicate 32 (.advanceEpoch .devnet)

/-- A challenge which is still pending when the window ends does not hold the stake. -/
theorem released_pending : ∃ s s', Reachable s ∧ task 0 ∈ s.pendingChallenges ∧
    task 0 ∉ s.released ∧ Step s (.advanceEpoch .devnet) s' ∧ task 0 ∈ s'.pendingChallenges ∧
    task 0 ∈ s'.released ∧ (s'.acct bob).bonded = 0 := by
  have challenged : (outcomeOf allocations 0 (settled 400 ++
      [sent carol 0 (.challenge (task 0) 200)] ++ List.replicate 31 (.advanceEpoch .devnet))).any
      (fun s => task 0 ∈ s.pendingChallenges ∧ task 0 ∉ s.released) = true := by decide +kernel
  have released : (outcomeOf allocations 0 (settled 400 ++
      [sent carol 0 (.challenge (task 0) 200)] ++ List.replicate 31 (.advanceEpoch .devnet) ++
      [.advanceEpoch .devnet])).any
      (fun s => task 0 ∈ s.pendingChallenges ∧ task 0 ∈ s.released ∧ (s.acct bob).bonded = 0) =
        true := by decide +kernel
  obtain ⟨s', ran, ends⟩ := (Option.any_eq_true _ _).mp released
  obtain ⟨s, earlier, step⟩ := outcomeOf_snoc ran
  rw [earlier, Option.any_some, decide_eq_true_eq] at challenged
  obtain ⟨still, released, unbonded⟩ := of_decide_eq_true ends
  exact ⟨s, s', reachable_of_outcomeOf earlier, challenged.1, challenged.2, step, still, released,
    unbonded⟩

theorem challenge_holds_nothing_contested : ∃ s pc receipt,
    outcomeOf allocations 0 (settled 400 ++ [sent carol 0 (.challenge (task 0) 200)]) = some s ∧
      s.pendingChallenges[task 0]? = some pc ∧ s.receipts[task 0]? = some receipt ∧
      ∀ ops s', ops ≠ [] → (∀ op ∈ ops, ∃ params, op = Op.advanceEpoch params) →
        Run Step s ops s' →
        s'.pendingChallenges[task 0]? = some pc ∧ s'.epoch.toNat = s.epoch.toNat + ops.length ∧
          (task 0 ∈ s'.released ↔ receipt.clawbackUntil ≤ s'.epoch ∧ task 0 ∉ s.slashed) := by
  have challenged : (outcomeOf allocations 0
      (settled 400 ++ [sent carol 0 (.challenge (task 0) 200)])).any (fun s =>
        s.pendingChallenges[task 0]? = some { challenger := carol, bond := 200 } ∧
          task 0 ∉ s.released) = true := by decide +kernel
  obtain ⟨s, ran, challenged⟩ := (Option.any_eq_true _ _).mp challenged
  obtain ⟨pending, unreleased⟩ := of_decide_eq_true challenged
  obtain ⟨receipt, receipt_eq, released⟩ :=
    challenge_holds_nothing (reachable_of_outcomeOf ran) pending unreleased
  exact ⟨s, _, receipt, ran, pending, receipt_eq, released⟩

/-- When its window ends a stake is released, and its task is challenged all the same. -/
theorem released_challenged :
    ∃ s s', outcomeOf allocations 0 (settled 400 ++ window) = some s ∧ task 0 ∈ s.released ∧
      Step s (sent carol 0 (.challenge (task 0) 200)) s' := by
  have released : (outcomeOf allocations 0 (settled 400 ++ window)).any
      (fun s => task 0 ∈ s.released) = true := by decide +kernel
  have challenged : (outcomeOf allocations 0 (settled 400 ++ window ++
      [sent carol 0 (.challenge (task 0) 200)])).isSome = true := by decide +kernel
  obtain ⟨s', ran⟩ := Option.isSome_iff_exists.mp challenged
  obtain ⟨s, earlier, step⟩ := outcomeOf_snoc ran
  rw [earlier, Option.any_some, decide_eq_true_eq] at released
  exact ⟨s, s', earlier, released, step⟩

theorem released_unchallengeable_later :
    ∃ s, outcomeOf allocations 0 (settled 400 ++ window ++ [.advanceEpoch .devnet]) = some s ∧
      task 0 ∈ s.released ∧ ¬AtBoundary s (task 0) ∧
      (∀ (stx : SignedTx) (params : Params) (bond : Ucu), stx.tx = .challenge (task 0) bond →
        ∀ s', ¬Step s (.apply stx params) s') ∧
      ((∃ challenger bond params s',
        (s.openChallenge challenger (task 0) bond params).Returns s') ↔
          AtBoundary s (task 0)) := by
  have ended : (outcomeOf allocations 0 (settled 400 ++ window ++ [.advanceEpoch .devnet])).any
      (fun s => task 0 ∈ s.released ∧
        ∀ receipt ∈ s.receipts[task 0]?, receipt.clawbackUntil ≠ s.epoch) = true := by
    decide +kernel
  obtain ⟨s, ran, ended⟩ := (Option.any_eq_true _ _).mp ended
  obtain ⟨released, past⟩ := of_decide_eq_true ended
  have inside : ¬AtBoundary s (task 0) := by
    rintro ⟨receipt, found, epoch_eq, _⟩
    exact past receipt found epoch_eq
  have settled_for := released_unchallengeable (reachable_of_outcomeOf ran) released
  exact ⟨s, ran, released, inside, settled_for.1 [] s .nil inside, settled_for.2⟩

end Sample

end Ducp
