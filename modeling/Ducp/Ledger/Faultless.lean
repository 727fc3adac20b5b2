import Ducp.Ledger.Stakes

/-!
# Histories without a conviction

As long as nobody is convicted no pool is drawn on beyond what it owes, so the clamps of a release
and of a forfeit never bite: a matured stake returns in full, and a lost bond is burned in full.
-/

namespace Ducp

open DoubleEntry MapSum Outcome Std
open Finsupp (single single_apply)

/-- A transaction, an epoch boundary, or the dismissal of a challenge. -/
inductive Op.Faultless : Op → Prop
  | apply (stx : SignedTx) (params : Params) : Op.Faultless (.apply stx params)
  | advanceEpoch (params : Params) : Op.Faultless (.advanceEpoch params)
  | dismiss (task : TaskId) (params : Params) : Op.Faultless (.resolveChallenge task false params)

/-- An accepted operation which convicts nobody. -/
def FaultlessStep [Crypto] (s : State) (op : Op) (s' : State) : Prop :=
  Step s op s' ∧ op.Faultless

/-- Every task is in phase, and every pool holds what its owner owes. -/
structure Backed [Crypto] (s : State) : Prop where
  phases : InPhase s
  backed : ∀ id, 0 ≤ surplus id s

/-- A state in which nobody has been convicted. -/
structure Unblemished [Crypto] (s : State) : Prop extends Backed s where
  unslashed : ∀ task : TaskId, task ∉ s.slashed

section Pools

variable [Crypto] {s : State}

/-- What one task needs of an identity lies in its pool. -/
theorem Backed.covers (backed : Backed s) (id : Identity) {task : TaskId} {sub : Submission}
    (found : s.tasks[task]? = some sub) : (s.view task).owed id ≤ (s.acct id).bonded.toNat := by
  have least := backed.backed id
  have part := le_viewTotal (View.owed id) found
  rw [surplus, State.book_bonded] at least
  omega

/-- The bond of a pending challenge lies in the pool of the challenger. -/
theorem Backed.covers_bond (backed : Backed s) {task : TaskId} {pc : ChallengeRecord}
    (pending : s.pendingChallenges[task]? = some pc) :
    pc.bond.toNat ≤ (s.acct pc.challenger).bonded.toNat := by
  have pending_eq : (s.view task).pending = some pc := pending
  obtain ⟨sub, found⟩ := (backed.phases task).known_of_pending pending_eq
  have covered := backed.covers pc.challenger found
  have owed : (s.view task).bondOwed pc.challenger = pc.bond.toNat := by
    simp [View.bondOwed, found, pending_eq]
  rw [View.owed, owed] at covered
  omega

/-- The stake of a settled task which is neither released nor slashed lies in the pool of its
provider. -/
theorem Backed.covers_stake (backed : Backed s) {task : TaskId} {sub : Submission}
    {provider : Identity} (found : s.tasks[task]? = some sub)
    (claimed : sub.provider = some provider) (settled : sub.status = .settled)
    (unreleased : task ∉ s.released) (unslashed : task ∉ s.slashed) :
    sub.claimStake.toNat ≤ (s.acct provider).bonded.toNat := by
  have covered := backed.covers provider found
  have sub_eq : (s.view task).sub = some sub := found
  have kept : ¬(s.view task).released := unreleased
  have owed := View.stakeOwed_of_settled provider sub_eq claimed settled unslashed
  rw [if_pos rfl, if_neg kept] at owed
  rw [View.owed, owed] at covered
  omega

/-- A release from a backed state returns the whole stake. -/
theorem Releases.full (backed : Backed s) {matured : TaskId × Identity × Ucu} {receipt : Receipt}
    {sub : Submission} {s' : State} (releases : Releases s matured receipt sub s') :
    Posts s.book (single (.bonded matured.2.1) sub.claimStake.toNat)
      (single (.balance matured.2.1) sub.claimStake.toNat) s'.book := by
  have settled := backed.phases.settled releases.receipt_eq releases.sub_eq releases.unslashed
  have covered := backed.covers_stake releases.sub_eq releases.provider settled
    releases.unreleased releases.unslashed
  have posts := releases.posts
  rw [← releases.stake, min_eq_left covered] at posts
  exact posts

/-- The dismissal of a challenge in a backed state burns the whole bond. -/
theorem Closes.dismissed (backed : Backed s) {task : TaskId} {params : Params} {s' : State}
    {pc : ChallengeRecord} (closes : Closes s task params false s')
    (pending : s.pendingChallenges[task]? = some pc) :
    Moves { s with pendingChallenges := s.pendingChallenges.erase task }
      (single (.bonded pc.challenger) pc.bond.toNat) (single .burned pc.bond.toNat) s' := by
  cases closes with
  | idle absent => simp [pending] at absent
  | @lost found _ found_eq moves =>
      obtain rfl : pc = found := Option.some.inj (pending.symm.trans found_eq)
      rwa [min_eq_left (backed.covers_bond pending)] at moves

end Pools

section Preservation

variable [Crypto] {s s' : State} {op : Op}

/-- Only a conviction slashes a task. -/
theorem FaultlessStep.slashed_eq (step : FaultlessStep s op s') : s'.slashed = s.slashed := by
  obtain ⟨step, faultless⟩ := step
  cases step.effect with
  | apply _ _ _ payload => exact payload.slashed_eq
  | advanceEpoch advances =>
      obtain ⟨_, _, _, records⟩ := advances.records_eq
      exact congrArg Records.slashed records
  | resolveFraud _ => cases faultless
  | resolveChallenge closes =>
      cases faultless
      cases closes with
      | idle _ => rfl
      | lost _ moves => exact congrArg Records.slashed moves.records

theorem FaultlessStep.unblemished (clean : Unblemished s) (step : FaultlessStep s op s') :
    Unblemished s' where
  phases := step.1.preserves InPhase Event.inPhase clean.phases
  backed id := by
    have before := clean.backed id
    rcases step.1.surplus id clean.phases with kept | ⟨task, sub, receipt, fine, draws, _⟩
    · exact before.trans kept
    · have slashed := draws.slashed
      rw [step.slashed_eq] at slashed
      exact (clean.unslashed task slashed).elim
  unslashed task := by
    rw [step.slashed_eq]
    exact clean.unslashed task

omit [Crypto] in
theorem State.IsGenesis.unslashed {epoch : Epoch} (genesis : State.IsGenesis s epoch)
    (task : TaskId) : task ∉ s.slashed := by
  have slashed_eq : s.slashed = ∅ := congrArg Records.slashed genesis.records
  rw [slashed_eq]
  exact ExtTreeSet.not_mem_empty

theorem State.IsGenesis.unblemished {epoch : Epoch} (genesis : State.IsGenesis s epoch) :
    Unblemished s where
  phases := genesis.inPhase
  backed id := (genesis.surplus id).ge
  unslashed := genesis.unslashed

/-- The release loop keeps a state backed. -/
theorem State.ReleaseStep.backed {matured : TaskId × Identity × Ucu} (backed : Backed s)
    (released : State.ReleaseStep s matured s') : Backed s' := by
  obtain ⟨receipt, sub, releases⟩ := released
  exact ⟨Event.inPhase backed.phases (.release releases),
    fun id => (backed.backed id).trans (releases.surplus id backed.phases)⟩

end Preservation

end Ducp
