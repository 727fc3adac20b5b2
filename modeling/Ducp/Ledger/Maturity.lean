import Ducp.Ledger.Clawback
import Ducp.Ledger.Faultless

/-!
# Stakes return in full and on time

Without a conviction, and with a window of at least one epoch, a settled task is released exactly
when its window ends, and the epoch boundary at which it ends moves its whole stake back.
-/

namespace Ducp

open DoubleEntry MapSum Outcome Std
open Finsupp (single single_apply)

/-- The stake of an identity whose window ends at an epoch. -/
def View.maturing (id : Identity) (epoch : Epoch) (view : View) : ℕ :=
  view.sub.elim 0 fun sub => view.receipt.elim 0 fun receipt =>
    if sub.provider = some id ∧ receipt.clawbackUntil = epoch then sub.claimStake.toNat else 0

open scoped Classical in
/-- The stake of an identity whose window has ended at an epoch, as long as it is not released. -/
noncomputable def View.due (id : Identity) (epoch : Epoch) (view : View) : ℕ :=
  view.sub.elim 0 fun sub => view.receipt.elim 0 fun receipt =>
    if sub.provider = some id ∧ receipt.clawbackUntil ≤ epoch ∧ ¬view.released then
      sub.claimStake.toNat
    else 0

theorem View.due_unknown (id : Identity) (epoch : Epoch) (view : View) (unknown : view.sub = none) :
    view.due id epoch = 0 := by
  simp [due, unknown]

/-- A receipted task is released exactly when its window has ended. -/
def Punctual (s : State) : Prop :=
  ∀ (task : TaskId) (receipt : Receipt), s.receipts[task]? = some receipt →
    (task ∈ s.released ↔ receipt.clawbackUntil ≤ s.epoch)

/-! ## On time -/

section OnTime

variable [Crypto] {s s' : State}

/-- Only a proof writes a receipt. -/
theorem Payload.receipts_eq {author : Identity} {params : Params} {tx : Tx}
    (payload : Payload s author params tx s') (other : ∀ proof, tx ≠ .submitProof proof) :
    s'.receipts = s.receipts := by
  cases payload with
  | submitTask submits => exact congrArg Records.receipts submits.records
  | claimTask claims => exact congrArg Records.receipts claims.records
  | submitProof _ => exact (other _ rfl).elim
  | challenge opens => exact congrArg Records.receipts opens.records
  | transfer moves => exact congrArg Records.receipts moves.records

/-- A receipt opens a window of at least one epoch. -/
theorem Payload.punctual {author : Identity} {params : Params} {tx : Tx} (phases : InPhase s)
    (window : 1 ≤ params.clawbackEpochs) (punctual : Punctual s)
    (payload : Payload s author params tx s') : Punctual s' := by
  intro task receipt found
  rw [payload.released_eq, payload.epoch_eq]
  by_cases proves : ∃ proof, tx = .submitProof proof
  · obtain ⟨proof, rfl⟩ := proves
    cases payload with
    | @submitProof _ body sub written record _ settles =>
        have viewed := congrArg View.receipt (settles.view task)
        by_cases same : task = proof.task
        · subst same
          rw [if_pos rfl] at viewed
          obtain rfl : receipt = written := Option.some.inj (found.symm.trans viewed)
          obtain ⟨body, provider, view_eq, _⟩ :=
            (phases proof.task).of_executing settles.sub_eq settles.executing
          have unreleased : ¬(s.view proof.task).released := by
            rw [view_eq]
            exact id
          have closes := settles.clawbackUntil
          have opened : ¬receipt.clawbackUntil ≤ s.epoch := by
            rw [BitVec.le_def] at window ⊢
            simp at window
            omega
          exact iff_of_false unreleased opened
        · rw [if_neg same] at viewed
          exact punctual task receipt (viewed.symm.trans found)
  · rw [payload.receipts_eq fun proof tx_eq => proves ⟨proof, tx_eq⟩] at found
    exact punctual task receipt found

/-- Every epoch boundary releases what has matured. -/
theorem State.Advances.punctual {params : Params} {ticked : State} (clean : Unblemished s)
    (punctual : Punctual s) (advances : State.Advances s params ticked s') : Punctual s' := by
  intro task receipt found
  obtain ⟨epoch_eq, receipts_eq, _⟩ := advances.kept
  rw [receipts_eq] at found
  rw [advances.released_iff clean.phases found, punctual task receipt found, BitVec.le_def,
    BitVec.le_def]
  have unslashed := clean.unslashed task
  constructor
  · rintro (early | ⟨closed, _⟩) <;> omega
  · exact fun closed => .inr ⟨closed, unslashed⟩

/-- Without a conviction and with windows of at least one epoch, releases are on time. -/
theorem FaultlessStep.punctual {op : Op} (window : 1 ≤ op.params.clawbackEpochs)
    (clean : Unblemished s) (punctual : Punctual s) (step : FaultlessStep s op s') :
    Punctual s' := by
  obtain ⟨step, faultless⟩ := step
  cases step.effect with
  | @apply stx _ next _ _ _ _ payload =>
      have bumped : InPhase { s with nonces := s.nonces.insert stx.author next } := clean.phases
      have before : Punctual { s with nonces := s.nonces.insert stx.author next } := punctual
      exact payload.punctual bumped window before
  | advanceEpoch advances => exact advances.punctual clean punctual
  | resolveFraud _ => cases faultless
  | resolveChallenge closes =>
      obtain ⟨standing, tasks, slashed, pendingChallenges, records⟩ := closes.records_eq
      have receipts_eq : s'.receipts = s.receipts := congrArg Records.receipts records
      have released_eq : s'.released = s.released := congrArg Records.released records
      have epoch_eq : s'.epoch = s.epoch := congrArg Records.epoch records
      intro task receipt found
      rw [released_eq, epoch_eq]
      rw [receipts_eq] at found
      exact punctual task receipt found

end OnTime

/-! ## In full -/

/-- One state is another after these stakes of an identity have moved from bond to balance. -/
structure Returned (s : State) (id : Identity) (stakes : ℕ) (s' : State) : Prop where
  balance : (s'.acct id).balance.toNat = (s.acct id).balance.toNat + stakes
  bonded : (s'.acct id).bonded.toNat + stakes = (s.acct id).bonded.toNat
  escrowed : (s'.acct id).escrowed = (s.acct id).escrowed

section InFull

variable {s s' : State}

/-- After an epoch boundary nothing is due. -/
theorem Punctual.nothing_due (punctual : Punctual s) (id : Identity) :
    viewTotal (View.due id s.epoch) s = 0 := by
  apply total_eq_zero
  intro task sub found
  have sub_eq : (s.view task).sub = some sub := found
  cases receipt_eq : (s.view task).receipt with
  | none => simp [View.due, sub_eq, receipt_eq]
  | some receipt =>
      have released : (s.view task).released ↔ receipt.clawbackUntil ≤ s.epoch :=
        punctual task receipt receipt_eq
      simp only [View.due, sub_eq, receipt_eq, Option.elim_some, released]
      rw [if_neg]
      exact fun due => due.2.2 due.2.1

/-- What is due at the next epoch are the stakes whose windows end there. -/
theorem Punctual.due_next (punctual : Punctual s) {ticked : State} {epoch : Epoch}
    (views : ∀ task, ticked.view task = s.view task) (tasks : ticked.tasks = s.tasks)
    (epoch_eq : epoch.toNat = s.epoch.toNat + 1) (id : Identity) :
    viewTotal (View.due id epoch) ticked = viewTotal (View.maturing id epoch) s := by
  rw [viewTotal, viewTotal, tasks]
  apply total_congr_on
  intro task sub found
  have sub_eq : (s.view task).sub = some sub := found
  rw [views]
  cases receipt_eq : (s.view task).receipt with
  | none => simp [View.due, View.maturing, sub_eq, receipt_eq]
  | some receipt =>
      have released : (s.view task).released ↔ receipt.clawbackUntil ≤ s.epoch :=
        punctual task receipt receipt_eq
      have matures : receipt.clawbackUntil ≤ epoch ∧ ¬receipt.clawbackUntil ≤ s.epoch ↔
          receipt.clawbackUntil = epoch := by
        rw [BitVec.le_def, BitVec.le_def, ← BitVec.toNat_inj]
        omega
      simp only [View.due, View.maturing, sub_eq, receipt_eq, Option.elim_some, released, matures]

variable [Crypto]

/-- A release pays off the stake which is due. -/
theorem State.ReleaseStep.returned {matured : TaskId × Identity × Ucu} (id : Identity)
    (backed : Backed s) (released : State.ReleaseStep s matured s') :
    ∃ stake, Returned s id stake s' ∧ s'.epoch = s.epoch ∧
      viewTotal (View.due id s.epoch) s' + stake = viewTotal (View.due id s.epoch) s := by
  obtain ⟨receipt, sub, releases⟩ := released
  have posts := releases.full backed
  have balance := posts.apply (.balance id)
  have bonded := posts.apply (.bonded id)
  have escrowed := posts.apply (.escrowed id)
  have moved := viewTotal_update (View.due_unknown id s.epoch) releases.view
  have receipt_eq : (s.view matured.1).receipt = some receipt := releases.receipt_eq
  have sub_eq : (s.view matured.1).sub = some sub := releases.sub_eq
  have unreleased : ¬(s.view matured.1).released := releases.unreleased
  have paid : View.due id s.epoch { s.view matured.1 with released := True } = 0 := by
    simp [View.due, sub_eq, receipt_eq]
  have owed : (s.view matured.1).due id s.epoch =
      if matured.2.1 = id then sub.claimStake.toNat else 0 := by
    simp [View.due, sub_eq, receipt_eq, releases.provider, releases.closed, unreleased]
  rw [paid, owed] at moved
  simp [single_apply] at balance bonded escrowed
  exact ⟨_, ⟨balance, bonded, BitVec.eq_of_toNat_eq escrowed⟩,
    congrArg Records.epoch releases.records, moved⟩

/-- An epoch boundary moves every stake whose window ends there, in full. -/
theorem State.Advances.returned {params : Params} {ticked : State} (clean : Unblemished s)
    (punctual : Punctual s) (advances : State.Advances s params ticked s') (id : Identity) :
    Returned s id (viewTotal (View.maturing id s'.epoch) s) s' := by
  have ended := (advances.punctual clean punctual).nothing_due id
  obtain ⟨epoch, standing, epoch_eq, rfl, _⟩ := advances.ticks
  have views (task : TaskId) : ({ s with epoch, standing } : State).view task = s.view task := rfl
  have due := punctual.due_next views rfl epoch_eq id
  have backed : Backed { s with epoch, standing } := ⟨clean.phases, clean.backed⟩
  have carried : Backed s' ∧ s'.epoch = epoch ∧ ∃ stakes, Returned s id stakes s' ∧
      viewTotal (View.due id epoch) s' + stakes =
        viewTotal (View.due id epoch) { s with epoch, standing } := by
    apply advances.run.invariant fun state => Backed state ∧ state.epoch = epoch ∧
      ∃ stakes, Returned s id stakes state ∧ viewTotal (View.due id epoch) state + stakes =
        viewTotal (View.due id epoch) { s with epoch, standing }
    · exact ⟨backed, rfl, 0, ⟨rfl, rfl, rfl⟩, rfl⟩
    · rintro before matured after ⟨held, same, stakes, returned, paid⟩ released
      obtain ⟨stake, returns, epoch_kept, pays⟩ := released.returned id held
      rw [same] at pays epoch_kept
      refine ⟨released.backed held, epoch_kept, stakes + stake, ⟨?_, ?_, ?_⟩, ?_⟩
      · rw [returns.balance, returned.balance, add_assoc]
      · rw [← returned.bonded, ← returns.bonded]
        omega
      · rw [returns.escrowed, returned.escrowed]
      · omega
  obtain ⟨_, same, stakes, returned, paid⟩ := carried
  rw [same] at ended ⊢
  rw [ended, zero_add, due] at paid
  exact paid ▸ returned

end InFull

/-! ## The bonds of dismissed challenges -/

section Bonds

variable [Crypto] {start s s' : State}

/-- A challenge is pending because a transaction has posted its bond. -/
def Posted (ops : List Op) (s : State) : Prop :=
  ∀ (task : TaskId) (pc : ChallengeRecord), s.pendingChallenges[task]? = some pc →
    ∃ stx params, Op.apply stx params ∈ ops ∧ stx.author = pc.challenger ∧
      stx.tx = .challenge task pc.bond

omit [Crypto] in
theorem Posted.mono {ops ops' : List Op} (posted : Posted ops s) (more : ops ⊆ ops')
    (fewer : ∀ (task : TaskId) (pc : ChallengeRecord), s'.pendingChallenges[task]? = some pc →
      s.pendingChallenges[task]? = some pc) : Posted ops' s' := by
  intro task pc found
  obtain ⟨stx, params, member, poster⟩ := posted task pc (fewer task pc found)
  exact ⟨stx, params, more member, poster⟩

theorem Step.posted {ops : List Op} {op : Op} (posted : Posted ops s) (step : Step s op s') :
    Posted (ops ++ [op]) s' := by
  have more : ops ⊆ ops ++ [op] := List.subset_append_left _ _
  cases step.effect with
  | @apply stx params next _ _ _ _ payload =>
      by_cases opens : ∃ task bond, stx.tx = .challenge task bond
      · obtain ⟨task, bond, tx_eq⟩ := opens
        rw [tx_eq] at payload
        cases payload with
        | challenge opens =>
            intro probe pc found
            have pending := congrArg View.pending (opens.view probe)
            by_cases same : probe = task
            · rw [if_pos same] at pending
              obtain rfl := Option.some.inj (found.symm.trans pending)
              exact ⟨stx, params, by simp, rfl, same ▸ tx_eq⟩
            · rw [if_neg same] at pending
              obtain ⟨poster, under, member, posts⟩ := posted probe pc (pending.symm.trans found)
              exact ⟨poster, under, more member, posts⟩
      · have kept := payload.pendingChallenges_eq fun task bond tx_eq => opens ⟨task, bond, tx_eq⟩
        exact posted.mono more fun task pc found => by rwa [kept] at found
  | advanceEpoch advances =>
      obtain ⟨_, _, _, kept⟩ := advances.kept
      exact posted.mono more fun task pc found => by rwa [kept] at found
  | resolveFraud convicts =>
      exact posted.mono more fun task pc found => by rwa [convicts.pendingChallenges_eq] at found
  | resolveChallenge closes =>
      refine posted.mono more fun task pc found => ?_
      rw [closes.pendingChallenges_eq task] at found
      split at found
      · cases found
      · exact found

/-- A dismissal burns the bond. -/
theorem FaultlessStep.burns {task : TaskId} {params : Params} {pc : ChallengeRecord}
    (backed : Backed s) (step : Step s (.resolveChallenge task false params) s')
    (pending : s.pendingChallenges[task]? = some pc) :
    s'.supply.burned.toNat = s.supply.burned.toNat + pc.bond.toNat ∧
      (s'.acct pc.challenger).bonded.toNat + pc.bond.toNat =
        (s.acct pc.challenger).bonded.toNat := by
  cases step.effect with
  | resolveChallenge closes =>
      have posts := (closes.dismissed backed pending).posts
      have burned := posts.apply .burned
      have bonded := posts.apply (.bonded pc.challenger)
      simp at burned bonded
      exact ⟨burned, bonded⟩

end Bonds

/-- Along every run of transactions, epoch boundaries and dismissed challenges, under windows of at
least one epoch: a receipted task is released exactly when its window has ended; an epoch boundary
moves exactly the whole stakes of the windows which end there from bonds to balances; and a
dismissed challenge burns exactly the bond which a transaction has posted for it. -/
theorem stakes_return [Crypto] {allocations : List (Identity × Ucu)} {epoch : Epoch}
    {start s : State} {ops : List Op}
    (genesis_eq : State.genesis allocations epoch = .ok start) (run : Run Step start ops s)
    (faultless : ∀ op ∈ ops, op.Faultless ∧ 1 ≤ op.params.clawbackEpochs) :
    (∀ (task : TaskId) (receipt : Receipt), s.receipts[task]? = some receipt →
      (task ∈ s.released ↔ receipt.clawbackUntil ≤ s.epoch)) ∧
    (∀ params s', Step s (.advanceEpoch params) s' → ∀ id : Identity,
      Returned s id (viewTotal (View.maturing id s'.epoch) s) s') ∧
    ∀ task params s' pc, s.pendingChallenges[task]? = some pc →
      Step s (.resolveChallenge task false params) s' →
      s'.supply.burned.toNat = s.supply.burned.toNat + pc.bond.toNat ∧
      (s'.acct pc.challenger).bonded.toNat + pc.bond.toNat =
        (s.acct pc.challenger).bonded.toNat ∧
      ∃ stx params, Op.apply stx params ∈ ops ∧ stx.author = pc.challenger ∧
        stx.tx = .challenge task pc.bond := by
  have genesis := State.genesis_effect genesis_eq
  have clean_run : Run (fun before op after =>
      1 ≤ op.params.clawbackEpochs ∧ FaultlessStep before op after) start ops s :=
    run.mono fun op member before after step =>
      ⟨(faultless op member).2, step, (faultless op member).1⟩
  have initial : Unblemished start ∧ Punctual start := by
    refine ⟨genesis.unblemished, fun task receipt found => ?_⟩
    have receipts_eq : start.receipts = ∅ := congrArg Records.receipts genesis.records
    simp [receipts_eq] at found
  obtain ⟨clean, punctual⟩ : Unblemished s ∧ Punctual s :=
    clean_run.invariant (fun state => Unblemished state ∧ Punctual state) initial
      fun held taken => ⟨taken.2.unblemished held.1, taken.2.punctual taken.1 held.1 held.2⟩
  have posted : Posted ops s := by
    refine run.traced Posted (fun task pc found => ?_) fun held step => step.posted held
    have pending_eq : start.pendingChallenges = ∅ :=
      congrArg Records.pendingChallenges genesis.records
    simp [pending_eq] at found
  refine ⟨punctual, fun params s' step id => ?_, fun task params s' pc pending step => ?_⟩
  · cases step.effect with
    | advanceEpoch advances => exact advances.returned clean punctual id
  · obtain ⟨burned, bonded⟩ := FaultlessStep.burns clean.toBacked step pending
    exact ⟨burned, bonded, posted task pc pending⟩

section Sample

open Sample

attribute [local instance] Crypto.checksum

/-- Two tasks of one provider, both settled, the second of them challenged, one epoch before their
windows end. -/
def Sample.ripening : List Op :=
  [sent alice 0 (.submitTask (body 0)), sent alice 1 (.submitTask (body 1)),
    sent bob 0 (.claimTask (task 0)), sent bob 1 (.claimTask (task 1)),
    sent bob 2 (.submitProof (proof 0 400)), sent bob 3 (.submitProof (proof 1 1000)),
    sent carol 0 (.challenge (task 1) 500)] ++ List.replicate 31 (.advanceEpoch .devnet)

theorem stakes_return_ripening : ∃ s s' s'',
    outcomeOf allocations 0 ripening = some s ∧ Step s (.advanceEpoch .devnet) s' ∧
    Step s (.resolveChallenge (task 1) false .devnet) s'' ∧
    (∀ (task : TaskId) (receipt : Receipt), s.receipts[task]? = some receipt →
      (task ∈ s.released ↔ receipt.clawbackUntil ≤ s.epoch)) ∧
    viewTotal (View.maturing bob s'.epoch) s = 1000 ∧
    Returned s bob (viewTotal (View.maturing bob s'.epoch) s) s' ∧
    s''.supply.burned.toNat = s.supply.burned.toNat + 500 := by
  have pending : (outcomeOf allocations 0 ripening).any (fun s =>
      viewTotal (View.maturing bob 32) s = 1000 ∧
        s.pendingChallenges[task 1]? = some { challenger := carol, bond := 500 }) = true := by
    decide +kernel
  have advanced : (outcomeOf allocations 0 (ripening ++ [.advanceEpoch .devnet])).any
      (fun s => s.epoch = 32) = true := by decide +kernel
  have dismissed : (outcomeOf allocations 0
      (ripening ++ [.resolveChallenge (task 1) false .devnet])).isSome = true := by decide +kernel
  obtain ⟨s', advanced_ran, epoch_eq⟩ := (Option.any_eq_true _ _).mp advanced
  obtain ⟨s'', dismissed_ran⟩ := Option.isSome_iff_exists.mp dismissed
  obtain ⟨s, ran, advance⟩ := outcomeOf_snoc advanced_ran
  obtain ⟨same, same_ran, dismiss⟩ := outcomeOf_snoc dismissed_ran
  obtain rfl : s = same := Option.some.inj (ran.symm.trans same_ran)
  rw [ran, Option.any_some, decide_eq_true_eq] at pending
  obtain ⟨start, genesis_eq, folded⟩ := outcomeOf_eq_some.mp ran
  have faultless : ∀ op ∈ ripening, op.Faultless ∧ 1 ≤ op.params.clawbackEpochs := by
    intro op member
    rcases List.mem_append.mp member with sends | advances
    · simp only [sent, List.mem_cons, List.not_mem_nil, or_false] at sends
      rcases sends with rfl | rfl | rfl | rfl | rfl | rfl | rfl
      all_goals exact ⟨.apply _ _, by decide⟩
    · rw [List.eq_of_mem_replicate advances]
      exact ⟨.advanceEpoch _, by decide⟩
  obtain ⟨punctual, returns, burns⟩ := stakes_return genesis_eq (Run.of_returns folded) faultless
  have matures : s'.epoch = 32 := of_decide_eq_true epoch_eq
  exact ⟨s, s', s'', ran, advance, dismiss, punctual, matures ▸ pending.1,
    returns _ s' advance bob, (burns _ _ s'' _ pending.2 dismiss).1⟩

end Sample

end Ducp
