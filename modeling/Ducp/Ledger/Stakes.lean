import Ducp.Ledger.Lifecycle
import Ducp.Ledger.Consistency

/-!
# Stakes and bonds

One pooled number per account backs every claim stake and every challenge bond of its owner.  The
surplus of an identity is what its pool holds beyond what it owes; only a fraud resolution against
the identity can lower it, and only when it draws more than the stake behind the slashed task.
-/

namespace Ducp

open DoubleEntry MapSum Outcome Relation Std
open Finsupp (single single_apply)

/-! ## What an identity owes -/

open scoped Classical in
/-- The claim stake which a task still needs from an identity. -/
noncomputable def View.stakeOwed (id : Identity) (view : View) : ℕ :=
  view.sub.elim 0 fun sub =>
    if sub.provider = some id ∧
        (sub.status = .executing ∨ sub.status = .settled ∧ ¬view.released ∧ ¬view.slashed) then
      sub.claimStake.toNat
    else 0

/-- The challenge bond which a known task still needs from an identity. -/
def View.bondOwed (id : Identity) (view : View) : ℕ :=
  view.sub.elim 0 fun _ => view.pending.elim 0 fun pc =>
    if pc.challenger = id then pc.bond.toNat else 0

/-- What a task needs from an identity. -/
noncomputable def View.owed (id : Identity) (view : View) : ℕ :=
  view.stakeOwed id + view.bondOwed id

theorem View.owed_unknown (id : Identity) (view : View) (unknown : view.sub = none) :
    view.owed id = 0 := by
  simp [owed, stakeOwed, bondOwed, unknown]

open scoped Classical in
theorem View.stakeOwed_of_settled (id : Identity) {view : View} {sub : Submission}
    {provider : Identity} (found : view.sub = some sub) (claimed : sub.provider = some provider)
    (status : sub.status = .settled) (unslashed : ¬view.slashed) :
    view.stakeOwed id =
      if provider = id then if view.released then 0 else sub.claimStake.toNat else 0 := by
  by_cases released : view.released <;>
    simp [stakeOwed, found, claimed, status, released, unslashed]

theorem View.stakeOwed_of_free (id : Identity) {view : View} {sub : Submission}
    (found : view.sub = some sub)
    (free : sub.status = .failed ∨ sub.status = .settled ∧ view.released) :
    view.stakeOwed id = 0 := by
  rcases free with failed | ⟨settled, released⟩
  · simp [stakeOwed, found, failed]
  · simp [stakeOwed, found, settled, released]

/-- What the pool of an identity holds beyond what the identity owes. -/
noncomputable def surplus (id : Identity) (s : State) : ℤ :=
  s.book (.bonded id) - viewTotal (View.owed id) s

/-! ## What an event does to the surplus -/

section Events

variable {s s' : State} (id : Identity)

/-- An event which rewrites one view and posts on the pools. -/
theorem surplus_update {debits credits : Bucket →₀ ℕ} {task : TaskId} {view : View}
    (posts : Posts s.book debits credits s'.book)
    (views : ∀ probe, s'.view probe = if probe = task then view else s.view probe) :
    surplus id s' + debits (.bonded id) + view.owed id =
      surplus id s + credits (.bonded id) + (s.view task).owed id := by
  have booked := posts.apply (.bonded id)
  have moved := viewTotal_update (View.owed_unknown id) views
  unfold surplus
  omega

/-- A movement of funds changes the surplus by what it posts on the pool. -/
theorem Moves.surplus {debits credits : Bucket →₀ ℕ} (moves : Moves s debits credits s') :
    surplus id s' + debits (.bonded id) = surplus id s + credits (.bonded id) := by
  have booked := moves.posts.apply (.bonded id)
  have kept := viewTotal_unchanged (View.owed_unknown id)
    fun probe => congrArg (View.owed id) (moves.view probe)
  unfold Ducp.surplus
  omega

theorem Payload.surplus [Crypto] {author : Identity} {params : Params} {tx : Tx}
    (phases : InPhase s) (payload : Payload s author params tx s') :
    surplus id s' = surplus id s := by
  cases payload with
  | @submitTask body task fee _ submits =>
      have moved := surplus_update id submits.posts submits.view
      rw [(phases task).of_fresh submits.fresh] at moved
      simpa [View.owed, View.stakeOwed, View.bondOwed] using moved
  | @claimTask task body sub stake _ claims =>
      have moved := surplus_update id claims.posts claims.view
      obtain ⟨body, view_eq, _, _, unclaimed⟩ :=
        (phases task).of_submitted claims.sub_eq claims.submitted
      rw [view_eq] at moved
      simpa [View.owed, View.stakeOwed, View.bondOwed, unclaimed, single_apply] using moved
  | @submitProof proof body sub receipt record _ settles =>
      have moved := surplus_update id settles.posts settles.view
      obtain ⟨body, provider, view_eq, _⟩ :=
        (phases proof.task).of_executing settles.sub_eq settles.executing
      rw [view_eq] at moved
      simpa [View.owed, View.stakeOwed, View.bondOwed, settles.executing] using moved
  | @challenge task bond receipt sub _ opens =>
      have moved := surplus_update id opens.posts opens.view
      have found : (s.view task).sub = some sub := opens.sub_eq
      have idle : (s.view task).pending = none := opens.idle
      have stakes : View.stakeOwed id { s.view task with pending := some ⟨author, bond⟩ } =
          (s.view task).stakeOwed id := rfl
      have bonds : View.bondOwed id { s.view task with pending := some ⟨author, bond⟩ } =
          if author = id then bond.toNat else 0 := by
        simp [View.bondOwed, found]
      have none_owed : (s.view task).bondOwed id = 0 := by
        simp [View.bondOwed, found, idle]
      rw [View.owed, View.owed, stakes, bonds, none_owed] at moved
      simp [single_apply] at moved
      omega
  | transfer moves =>
      have moved := moves.surplus id
      simpa using moved

/-- A release pays off the stake which is owed, as far as the pool goes. -/
theorem Releases.surplus_eq [Crypto] {matured : TaskId × Identity × Ucu} {receipt : Receipt}
    {sub : Submission} (phases : InPhase s) (releases : Releases s matured receipt sub s') :
    let returned := if matured.2.1 = id then
        min matured.2.2.toNat (s.acct id).bonded.toNat
      else 0
    surplus id s' + returned =
        surplus id s + (if matured.2.1 = id then matured.2.2.toNat else 0 : ℕ) ∧
      (s'.acct id).bonded.toNat + returned = (s.acct id).bonded.toNat := by
  have moved := surplus_update id releases.posts releases.view
  have booked := releases.posts.apply (.bonded id)
  have found : (s.view matured.1).sub = some sub := releases.sub_eq
  have unreleased : ¬(s.view matured.1).released := releases.unreleased
  have settled := phases.settled releases.receipt_eq releases.sub_eq releases.unslashed
  have before := View.stakeOwed_of_settled id found releases.provider settled releases.unslashed
  have after : View.stakeOwed id { s.view matured.1 with released := True } = 0 :=
    View.stakeOwed_of_free id found (.inr ⟨settled, trivial⟩)
  have bonds : View.bondOwed id { s.view matured.1 with released := True } =
      (s.view matured.1).bondOwed id := rfl
  rw [if_neg unreleased, releases.stake] at before
  simp only [View.owed, before, after, bonds] at moved
  by_cases mine : matured.2.1 = id
  · subst mine
    simp at moved booked
    simp only [if_true]
    omega
  · simp [mine] at moved booked
    simp only [mine, if_false]
    omega

/-- A release gives back at most the stake which is owed. -/
theorem Releases.surplus [Crypto] {matured : TaskId × Identity × Ucu} {receipt : Receipt}
    {sub : Submission} (phases : InPhase s) (releases : Releases s matured receipt sub s') :
    surplus id s ≤ surplus id s' := by
  have returned := (releases.surplus_eq id phases).1
  by_cases mine : matured.2.1 = id
  · simp only [mine, if_true] at returned
    omega
  · simp only [mine, if_false] at returned
    omega

/-- The stake which a slashing sets free. -/
def freedStake (s : State) (task : TaskId) (sub : Submission) : ℕ :=
  if task ∈ s.released then 0 else sub.claimStake.toNat

/-- A slashing draws the clawback and the fine from the offender, as far as its pool goes, and sets
the stake free. -/
theorem Slashes.surplus_eq [Crypto] {task : TaskId} {rewardTo : Option Identity} {params : Params}
    {receipt : Receipt} {sub : Submission} {provider : Identity} {penalty : Penalty}
    {record : StandingRecord} (phases : InPhase s)
    (slashes : Slashes s task rewardTo params receipt sub provider penalty record s') :
    let drawn := if provider = id then
        min (receipt.paidToProvider.toNat + penalty.fine.toNat) (s.acct id).bonded.toNat
      else 0
    surplus id s' + drawn =
        surplus id s + (if provider = id then freedStake s task sub else 0 : ℕ) ∧
      (s'.acct id).bonded.toNat + drawn = (s.acct id).bonded.toNat := by
  obtain ⟨moved, penalizes, moved_eq⟩ := slashes.penalizes
  have book_eq : s'.book = moved.book := by rw [moved_eq]; rfl
  have posts := penalizes.posts
  rw [← book_eq] at posts
  have updated := surplus_update id posts slashes.view
  have booked := posts.apply (.bonded id)
  have recovered := penalizes.recovered_eq
  have fined := penalizes.fineAvail_eq
  have found : (s.view task).sub = some sub := slashes.sub_eq
  have before := View.stakeOwed_of_settled id found slashes.offender (slashes.settled phases)
    slashes.unslashed
  have after : View.stakeOwed id
      { s.view task with sub := some { sub with status := .failed }, slashed := True } = 0 :=
    View.stakeOwed_of_free id rfl (.inl rfl)
  have bonds : View.bondOwed id
      { s.view task with sub := some { sub with status := .failed }, slashed := True } =
      (s.view task).bondOwed id := by
    simp [View.bondOwed, found]
  have freed : (s.view task).stakeOwed id =
      if provider = id then freedStake s task sub else 0 := by
    rw [before]
    by_cases released : task ∈ s.released
    · have viewed : (s.view task).released := released
      simp [freedStake, released, viewed]
    · have viewed : ¬(s.view task).released := released
      simp [freedStake, released, viewed]
  simp only [View.owed, freed, after, bonds] at updated
  have unrewarded : (single (rewardBucket rewardTo) penalty.reward) (.bonded id) = 0 := by
    cases rewardTo <;> simp [rewardBucket]
  by_cases mine : provider = id
  · subst mine
    simp [unrewarded] at updated booked
    simp only [if_true]
    omega
  · simp [mine, unrewarded] at updated booked
    simp only [mine, if_false]
    omega

/-- A slashing draws at most the clawback and the fine. -/
theorem Slashes.surplus [Crypto] {task : TaskId} {rewardTo : Option Identity} {params : Params}
    {receipt : Receipt} {sub : Submission} {provider : Identity} {penalty : Penalty}
    {record : StandingRecord} (phases : InPhase s)
    (slashes : Slashes s task rewardTo params receipt sub provider penalty record s') :
    surplus id s + (if provider = id then freedStake s task sub else 0 : ℕ) ≤
      surplus id s' + (if provider = id then
        receipt.paidToProvider.toNat + penalty.fine.toNat else 0 : ℕ) := by
  have drawn := (slashes.surplus_eq id phases).1
  by_cases mine : provider = id
  · simp only [mine, if_true] at drawn ⊢
    omega
  · simp only [mine, if_false] at drawn ⊢
    omega

/-- The bond of a pending challenge on a known task. -/
theorem close_surplus {task : TaskId} {sub : Submission} {pc : ChallengeRecord}
    (found : s.tasks[task]? = some sub) (pending : s.pendingChallenges[task]? = some pc) :
    surplus id { s with pendingChallenges := s.pendingChallenges.erase task } =
      surplus id s + (if pc.challenger = id then pc.bond.toNat else 0 : ℕ) := by
  let closed : State := { s with pendingChallenges := s.pendingChallenges.erase task }
  have posts : Posts s.book 0 0 closed.book := Posts.refl s.book
  have moved := surplus_update id posts (close_view task)
  have sub_eq : (s.view task).sub = some sub := found
  have pending_eq : (s.view task).pending = some pc := pending
  have stakes : View.stakeOwed id { s.view task with pending := none } =
      (s.view task).stakeOwed id := rfl
  have before : (s.view task).bondOwed id = if pc.challenger = id then pc.bond.toNat else 0 := by
    simp [View.bondOwed, sub_eq, pending_eq]
  have after : View.bondOwed id { s.view task with pending := none } = 0 := by
    simp [View.bondOwed, sub_eq]
  simp only [View.owed, stakes, before, after, Finsupp.zero_apply] at moved
  change surplus id closed = _
  omega

end Events

/-! ## What an operation does to the surplus -/

/-- The parameters in force for an operation. -/
def Op.params : Op → Params
  | .apply _ params => params
  | .advanceEpoch params => params
  | .resolveFraud _ _ params => params
  | .resolveChallenge _ _ params => params

/-- An operation slashes a task of the identity: the amounts drawn and the stake set free. -/
structure Draws (s : State) (params : Params) (id : Identity) (task : TaskId) (sub : Submission)
    (receipt : Receipt) (fine : Ucu) (s' : State) : Prop where
  unslashed : task ∉ s.slashed
  slashed : task ∈ s'.slashed
  sub_eq : s.tasks[task]? = some sub
  provider : sub.provider = some id
  receipt_eq : s.receipts[task]? = some receipt
  fine_eq : params.fine receipt.paidToProvider = .ok fine

section Operations

variable [Crypto] {s s' : State} (id : Identity)

/-- A fraud resolution keeps the surplus of everyone but the offender, from whom it draws the
clawback and the fine. -/
theorem Convicts.surplus {task : TaskId} {rewardTo : Option Identity} {params : Params}
    (phases : InPhase s) (convicts : Convicts s task rewardTo params s') :
    surplus id s ≤ surplus id s' ∨
      ∃ task sub receipt fine, Draws s params id task sub receipt fine s' ∧
        surplus id s + freedStake s task sub ≤
          surplus id s' + receipt.paidToProvider.toNat + fine.toNat := by
  cases convicts with
  | idle _ => exact .inl le_rfl
  | @slash receipt sub provider penalty record _ slashes =>
      have moved := slashes.surplus id phases
      by_cases mine : provider = id
      · subst mine
        simp only [if_true, Nat.cast_add] at moved
        have slashed : (s'.view task).slashed := by
          rw [slashes.view task, if_pos rfl]
          trivial
        obtain ⟨_, penalizes, _⟩ := slashes.penalizes
        exact .inr ⟨task, sub, receipt, penalty.fine,
          ⟨slashes.unslashed, slashed, slashes.sub_eq, slashes.offender, slashes.receipt_eq,
            penalizes.fine_eq⟩, by omega⟩
      · simp only [if_neg mine, Nat.cast_zero] at moved
        exact .inl (by omega)

theorem State.Advances.surplus {params : Params} {ticked : State} (phases : InPhase s)
    (advances : State.Advances s params ticked s') : surplus id s ≤ surplus id s' := by
  apply advances.invariant (fun state => Ducp.surplus id s ≤ Ducp.surplus id state) phases
  case ticked => exact fun _ _ => le_rfl
  case released => exact fun held least releases => least.trans (releases.surplus id held)

theorem Closes.surplus {task : TaskId} {fraud : Bool} {params : Params} (phases : InPhase s)
    (closes : Closes s task params fraud s') :
    surplus id s ≤ surplus id s' ∨
      ∃ task sub receipt fine, Draws s params id task sub receipt fine s' ∧
        surplus id s + freedStake s task sub ≤
          surplus id s' + receipt.paidToProvider.toNat + fine.toNat := by
  have closed_phases := Event.inPhase phases (.close task)
  cases closes with
  | idle _ => exact .inl le_rfl
  | @won pc convicted _ pending convicts moves =>
      obtain ⟨sub, found⟩ := (phases task).known_of_pending pending
      have freed := close_surplus id found pending
      have unlocked := moves.surplus id
      have returned : (min pc.bond.toNat (convicted.acct pc.challenger).bonded.toNat) ≤
        pc.bond.toNat := min_le_left _ _
      have settled_up : Ducp.surplus id convicted ≤ Ducp.surplus id s' +
          (if pc.challenger = id then pc.bond.toNat else 0 : ℕ) := by
        by_cases mine : pc.challenger = id <;> simp [mine] at unlocked ⊢ <;> omega
      rcases convicts.surplus id closed_phases with
        kept | ⟨slashed, sub, receipt, fine, draws, drawn⟩
      · exact .inl (by omega)
      · have slashed_eq : s'.slashed = convicted.slashed := congrArg Records.slashed moves.records
        have member : slashed ∈ s'.slashed := by
          rw [slashed_eq]
          exact draws.slashed
        refine .inr ⟨slashed, sub, receipt, fine, ⟨draws.unslashed, member, draws.sub_eq,
          draws.provider, draws.receipt_eq, draws.fine_eq⟩, ?_⟩
        change Ducp.surplus id _ + (freedStake s slashed sub : ℤ) ≤ _ at drawn
        omega
  | @lost pc _ pending moves =>
      obtain ⟨sub, found⟩ := (phases task).known_of_pending pending
      have freed := close_surplus id found pending
      have forfeited := moves.surplus id
      have taken : (min pc.bond.toNat (s.acct pc.challenger).bonded.toNat) ≤ pc.bond.toNat :=
        min_le_left _ _
      by_cases mine : pc.challenger = id <;> simp [mine] at forfeited freed <;>
        exact .inl (by omega)

/-- An accepted operation keeps the surplus of an identity, unless it slashes a task of the identity
and draws the clawback and the fine. -/
theorem Step.surplus {op : Op} (phases : InPhase s) (step : Step s op s') :
    surplus id s ≤ surplus id s' ∨
      ∃ task sub receipt fine, Draws s op.params id task sub receipt fine s' ∧
        surplus id s + freedStake s task sub ≤
          surplus id s' + receipt.paidToProvider.toNat + fine.toNat := by
  cases step.effect with
  | @apply stx _ next _ _ _ _ payload =>
      have bumped : InPhase { s with nonces := s.nonces.insert stx.author next } := phases
      exact .inl (payload.surplus id bumped).ge
  | advanceEpoch advances => exact .inl (advances.surplus id phases)
  | resolveFraud convicts => exact convicts.surplus id phases
  | resolveChallenge closes => exact closes.surplus id phases

end Operations

/-! ## Outstanding stakes and bonds -/

/-- The stakes of the executing tasks and of the settled tasks neither released nor slashed, and
the bonds of the pending challenges. -/
def State.outstanding (s : State) (id : Identity) : ℕ :=
  total (fun (task : TaskId) (sub : Submission) =>
    if sub.provider = some id ∧
        (sub.status = .executing ∨
          sub.status = .settled ∧ task ∉ s.released ∧ task ∉ s.slashed) then
      sub.claimStake.toNat
    else 0) s.tasks +
  total (fun (_ : TaskId) (pc : ChallengeRecord) =>
    if pc.challenger = id then pc.bond.toNat else 0) s.pendingChallenges

theorem InPhase.outstanding_eq [Crypto] {s : State} (phases : InPhase s) (id : Identity) :
    s.outstanding id = viewTotal (View.owed id) s := by
  have split : viewTotal (View.owed id) s =
      viewTotal (View.stakeOwed id) s + viewTotal (View.bondOwed id) s :=
    total_add _ _ s.tasks
  rw [split, State.outstanding]
  congr 1
  · apply total_congr_on
    intro task sub found
    have sub_eq : (s.view task).sub = some sub := found
    have released_eq : (s.view task).released = (task ∈ s.released) := rfl
    have slashed_eq : (s.view task).slashed = (task ∈ s.slashed) := rfl
    simp [View.stakeOwed, sub_eq, released_eq, slashed_eq]
  · apply total_congr
    intro task
    have unknown (view : View) (missing : view.sub = none) : view.bondOwed id = 0 := by
      simp [View.bondOwed, missing]
    rw [weight_view unknown]
    cases pending : s.pendingChallenges[task]? with
    | none =>
        have pending_eq : (s.view task).pending = none := pending
        rw [weight_of_none pending]
        cases found : (s.view task).sub <;> simp [View.bondOwed, pending_eq, found]
    | some pc =>
        have pending_eq : (s.view task).pending = some pc := pending
        obtain ⟨sub, found⟩ := (phases task).known_of_pending pending_eq
        rw [weight_of_some pending]
        simp [View.bondOwed, pending_eq, found]

/-- An operation slashes a task of the identity, and draws more than the stake this sets free. -/
def Overdraws (id : Identity) (s : State) (op : Op) (s' : State) : Prop :=
  ∃ task sub receipt fine, Draws s op.params id task sub receipt fine s' ∧
    freedStake s task sub < receipt.paidToProvider.toNat + fine.toNat

/-- An accepted operation which does not overdraw an identity. -/
def CoveredStep [Crypto] (id : Identity) (s : State) (op : Op) (s' : State) : Prop :=
  Step s op s' ∧ ¬Overdraws id s op s'

section Backing

variable [Crypto] {s s' : State}

theorem InPhase.surplus_eq (phases : InPhase s) (id : Identity) :
    surplus id s = ((s.acct id).bonded.toNat : ℤ) - s.outstanding id := by
  rw [surplus, State.book_bonded, phases.outstanding_eq id]

theorem CoveredStep.surplus {id : Identity} {op : Op} (phases : InPhase s)
    (covered : CoveredStep id s op s') : surplus id s ≤ surplus id s' := by
  obtain ⟨step, covers⟩ := covered
  rcases step.surplus id phases with kept | ⟨task, sub, receipt, fine, draws, drawn⟩
  · exact kept
  · have enough : receipt.paidToProvider.toNat + fine.toNat ≤ freedStake s task sub := by
      by_contra short
      exact covers ⟨task, sub, receipt, fine, draws, Nat.not_le.mp short⟩
    omega

omit [Crypto] in
theorem State.IsGenesis.surplus {epoch : Epoch} (genesis : State.IsGenesis s epoch)
    (id : Identity) : Ducp.surplus id s = 0 := by
  have tasks_eq : s.tasks = ∅ := congrArg Records.tasks genesis.records
  rw [Ducp.surplus, genesis.unbonded id, viewTotal, tasks_eq, total_empty]
  rfl

/-- A run which never slashes a task of the identity never overdraws it. -/
theorem covered_of_unslashed {start : State} {ops : List Op} {id : Identity}
    (phases : InPhase start) (run : Run Step start ops s)
    (unslashed : ∀ (task : TaskId) (sub : Submission), s.tasks[task]? = some sub →
      sub.provider = some id → task ∉ s.slashed) : Run (CoveredStep id) start ops s := by
  induction run with
  | nil => exact .nil
  | @snoc earlier op before after earlier_run step ih =>
      have held : InPhase before := earlier_run.invariant InPhase phases
        fun held step => step.preserves InPhase Event.inPhase held
      have recorded (task : TaskId) (sub : Submission) (found : before.tasks[task]? = some sub)
          (claimed : sub.provider = some id) : task ∉ after.slashed := by
        obtain ⟨sub', found', _, _, kept⟩ := (step.extends held task).sub sub found
        have claimed' : sub'.provider = some id := by
          rw [(kept (by simp [claimed])).1, claimed]
        exact unslashed task sub' found' claimed'
      refine (ih fun task sub found claimed slashed => ?_).snoc ⟨step, ?_⟩
      · exact recorded task sub found claimed ((step.extends held task).slashed slashed)
      · rintro ⟨task, sub, receipt, fine, draws, _⟩
        exact recorded task sub draws.sub_eq draws.provider draws.slashed

end Backing

/-- Along a run in which no slashing draws more than the stake it sets free, what an identity has
bonded covers its outstanding stakes and bonds.  In any run a shortfall grows only by a slashing of
the identity's own task, by at most the clawback and the fine less the stake set free. -/
theorem stakes_backed [Crypto] :
    (∀ (id : Identity) (allocations : List (Identity × Ucu)) (epoch : Epoch) (start s : State)
      (ops : List Op), State.genesis allocations epoch = .ok start →
      Run (CoveredStep id) start ops s → s.outstanding id ≤ (s.acct id).bonded.toNat) ∧
    ∀ (s s' : State) (op : Op), Reachable s → Step s op s' → ∀ id : Identity,
      s'.outstanding id + (s.acct id).bonded.toNat ≤
        s.outstanding id + (s'.acct id).bonded.toNat ∨
      ∃ task sub receipt fine, Draws s op.params id task sub receipt fine s' ∧
        s'.outstanding id + (s.acct id).bonded.toNat + freedStake s task sub ≤
          s.outstanding id + (s'.acct id).bonded.toNat + receipt.paidToProvider.toNat +
            fine.toNat := by
  constructor
  · intro id allocations epoch start s ops genesis_eq run
    have genesis := State.genesis_effect genesis_eq
    have initial : InPhase start ∧ 0 ≤ surplus id start :=
      ⟨genesis.inPhase, (genesis.surplus id).ge⟩
    obtain ⟨phases, backed⟩ := run.invariant
      (fun state => InPhase state ∧ 0 ≤ surplus id state) initial fun held covered =>
        ⟨covered.1.preserves InPhase Event.inPhase held.1,
          held.2.trans (covered.surplus held.1)⟩
    rw [phases.surplus_eq] at backed
    omega
  · intro s s' op reachable step id
    have before := reachable.inPhase.surplus_eq id
    have after := (reachable.step step).inPhase.surplus_eq id
    rcases step.surplus id reachable.inPhase with kept | ⟨task, sub, receipt, fine, draws, drawn⟩
    · exact .inl (by omega)
    · exact .inr ⟨task, sub, receipt, fine, draws, by omega⟩

section Sample

open Sample

attribute [local instance] Crypto.checksum

/-- A provider with two claims is slashed for the whole ceiling of the first. -/
theorem stake_consumed : ∃ s, Reachable s ∧ (s.acct bob).bonded.toNat < s.outstanding bob := by
  have consumed : (outcomeOf allocations 0
      [sent alice 0 (.submitTask (body 0)), sent alice 1 (.submitTask (body 1)),
        sent bob 0 (.claimTask (task 0)), sent bob 1 (.claimTask (task 1)),
        sent bob 2 (.submitProof (proof 0 1000)), .resolveFraud (task 0) none .devnet]).any
      (fun s => (s.acct bob).bonded.toNat < s.outstanding bob) = true := by
    decide +kernel
  obtain ⟨s, ran, consumed⟩ := (Option.any_eq_true _ _).mp consumed
  exact ⟨s, reachable_of_outcomeOf ran, of_decide_eq_true consumed⟩

theorem stakes_backed_settled :
    ∃ s s', outcomeOf allocations 0 (settled 400) = some s ∧ s.outstanding bob = 500 ∧
      s.outstanding bob ≤ (s.acct bob).bonded.toNat ∧
      (s'.outstanding bob + (s.acct bob).bonded.toNat ≤
        s.outstanding bob + (s'.acct bob).bonded.toNat ∨
      ∃ task sub receipt fine, Draws s Params.devnet bob task sub receipt fine s' ∧
        s'.outstanding bob + (s.acct bob).bonded.toNat + freedStake s task sub ≤
          s.outstanding bob + (s'.acct bob).bonded.toNat + receipt.paidToProvider.toNat +
            fine.toNat) := by
  have owes : (outcomeOf allocations 0 (settled 400)).any
      (fun s => s.outstanding bob = 500 ∧ s.slashed = ∅) = true := by decide +kernel
  have slashes : (outcomeOf allocations 0
      (settled 400 ++ [.resolveFraud (task 0) none .devnet])).isSome = true := by decide +kernel
  obtain ⟨s', slashed⟩ := Option.isSome_iff_exists.mp slashes
  obtain ⟨s, ran, step⟩ := outcomeOf_snoc slashed
  rw [ran, Option.any_some, decide_eq_true_eq] at owes
  obtain ⟨start, genesis_eq, folded⟩ := outcomeOf_eq_some.mp ran
  have covered : Run (CoveredStep bob) start (settled 400) s :=
    covered_of_unslashed (State.genesis_effect genesis_eq).inPhase (Run.of_returns folded)
      fun task sub _ _ => by
        rw [owes.2]
        exact ExtTreeSet.not_mem_empty
  exact ⟨s, s', ran, owes.1, stakes_backed.1 bob allocations 0 start s _ genesis_eq covered,
    stakes_backed.2 s s' _ (reachable_of_outcomeOf ran) step bob⟩

end Sample

end Ducp
