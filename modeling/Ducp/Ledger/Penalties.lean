import Ducp.Ledger.Accounts

/-!
# Penalties fall on the offender

A verdict takes from the provider of its task, or from the challenger whose bond is forfeited, and
from nobody else.  What it takes goes to the requester, to the auditor or the fee pool, and out of
the supply, whichever of these are one and the same.
-/

namespace Ducp

open DoubleEntry MapSum Outcome Std
open Finsupp (single single_apply applyAddHom)

/-- The provider of a task. -/
def State.offender (s : State) (task : TaskId) : Option Identity :=
  (s.tasks[task]?).bind (·.provider)

/-- The requester of a task. -/
def State.requesters (s : State) (task : TaskId) : Finset Identity :=
  ((s.tasks[task]?).map (·.requester)).toFinset

/-- The challenger of a task. -/
def State.challengers (s : State) (task : TaskId) : Finset Identity :=
  ((s.pendingChallenges[task]?).map (·.challenger)).toFinset

/-- What a verdict on a task leaves as it is. -/
structure Spares (task : TaskId) (offender : Option Identity) (s s' : State) : Prop where
  epoch : s'.epoch = s.epoch
  nonces : s'.nonces = s.nonces
  bodies : s'.bodies = s.bodies
  proofs : s'.proofs = s.proofs
  receipts : s'.receipts = s.receipts
  qLedger : s'.qLedger = s.qLedger
  released : s'.released = s.released
  minted : s'.supply.minted = s.supply.minted
  elsewhere : ∀ other, other ≠ task → s'.view other = s.view other
  standing : ∀ id, offender ≠ some id → s'.standing[id]? = s.standing[id]?

/-- No part of the account is lowered. -/
structure Unharmed (s : State) (id : Identity) (s' : State) : Prop where
  balance : (s.acct id).balance ≤ (s'.acct id).balance
  escrowed : (s.acct id).escrowed ≤ (s'.acct id).escrowed
  bonded : (s.acct id).bonded ≤ (s'.acct id).bonded

/-- What the identity loses is what these identities gain, and what the pool and the burned counter
gain. -/
def Repays (s : State) (loser : Identity) (gainers : Finset Identity) (s' : State) : Prop :=
  (s.holdings loser : ℤ) - s'.holdings loser =
    ∑ id ∈ gainers.erase loser, ((s'.holdings id : ℤ) - s.holdings id) +
      ((s'.feePool.toNat : ℤ) - s.feePool.toNat) +
      ((s'.supply.burned.toNat : ℤ) - s.supply.burned.toNat)

/-! ## Frames -/

section Frames

variable {s s' moved : State} {task : TaskId} {offender : Option Identity}

theorem Spares.refl (s : State) : Spares task offender s s :=
  ⟨rfl, rfl, rfl, rfl, rfl, rfl, rfl, rfl, fun _ _ => rfl, fun _ _ => rfl⟩

theorem Spares.trans (first : Spares task offender s moved)
    (second : Spares task offender moved s') : Spares task offender s s' where
  epoch := second.epoch.trans first.epoch
  nonces := second.nonces.trans first.nonces
  bodies := second.bodies.trans first.bodies
  proofs := second.proofs.trans first.proofs
  receipts := second.receipts.trans first.receipts
  qLedger := second.qLedger.trans first.qLedger
  released := second.released.trans first.released
  minted := second.minted.trans first.minted
  elsewhere other apart := (second.elsewhere other apart).trans (first.elsewhere other apart)
  standing id other := (second.standing id other).trans (first.standing id other)

/-- A movement of funds leaves every record alone. -/
theorem Moves.spares {debits credits : Bucket →₀ ℕ} (moves : Moves s debits credits s') :
    Spares task offender s s' := by
  have records := moves.records
  have minted := moves.minted
  obtain ⟨accounts, supply, feePool, rfl⟩ := moves.exists_funds
  exact ⟨rfl, rfl, rfl, rfl, rfl, rfl, rfl, minted, fun _ _ => rfl, fun _ _ => rfl⟩

theorem close_spares (task : TaskId) (offender : Option Identity) :
    Spares task offender s
      { s with pendingChallenges := s.pendingChallenges.erase task } where
  epoch := rfl
  nonces := rfl
  bodies := rfl
  proofs := rfl
  receipts := rfl
  qLedger := rfl
  released := rfl
  minted := rfl
  elsewhere other apart := by rw [close_view, if_neg apart]
  standing _ _ := rfl

theorem Slashes.spares {rewardTo : Option Identity} {params : Params} {receipt : Receipt}
    {sub : Submission} {provider : Identity} {penalty : Penalty} {record : StandingRecord}
    (slashes : Slashes s task rewardTo params receipt sub provider penalty record s') :
    Spares task (some provider) s s' := by
  have views := slashes.view
  obtain ⟨moved, penalizes, rfl⟩ := slashes.penalizes
  have spared : Spares task (some provider) s moved := penalizes.toMoves.spares
  exact
    { spared with
      elsewhere := fun other apart => by rw [views, if_neg apart]
      standing := fun id other => by
        rw [getElem?_insert, if_neg (fun same => other (congrArg some same.symm))] }

theorem Slashes.offends {rewardTo : Option Identity} {params : Params} {receipt : Receipt}
    {sub : Submission} {provider : Identity} {penalty : Penalty} {record : StandingRecord}
    (slashes : Slashes s task rewardTo params receipt sub provider penalty record s') :
    s.offender task = some provider := by
  rw [State.offender, slashes.sub_eq, Option.bind_some, slashes.offender]

theorem Convicts.spares {rewardTo : Option Identity} {params : Params}
    (convicts : Convicts s task rewardTo params s') : Spares task (s.offender task) s s' := by
  cases convicts with
  | idle _ => exact .refl s
  | slash slashes =>
      rw [slashes.offends]
      exact slashes.spares

/-- A verdict on a challenge spares everything but its task and, when it convicts, the Standing of
the provider. -/
theorem Closes.spares {params : Params} {fraud : Bool} (closes : Closes s task params fraud s') :
    Spares task (if fraud then s.offender task else none) s s' := by
  cases closes with
  | idle _ => exact .refl s
  | won _ convicts moves =>
      rw [if_pos rfl]
      exact (close_spares task _).trans (convicts.spares.trans moves.spares)
  | lost _ moves => exact (close_spares task _).trans moves.spares

/-! ## Amounts -/

/-- What the accounts of these identities, the pool and the burned counter hold of a book. -/
noncomputable def within (ids : Finset Identity) : (Bucket →₀ ℕ) →+ ℕ :=
  ∑ id ∈ ids, (applyAddHom (.balance id) + applyAddHom (.escrowed id) +
    applyAddHom (.bonded id)) + applyAddHom .pool + applyAddHom .burned

theorem within_book (ids : Finset Identity) (s : State) :
    within ids s.book = ∑ id ∈ ids, s.holdings id + s.feePool.toNat + s.supply.burned.toNat := by
  simp [within, State.holdings]

/-- When nothing leaves or enters these accounts, the pool and the burned counter together, what one
identity loses the others gain. -/
theorem repays_of_within {loser : Identity} {gainers : Finset Identity}
    (balanced : within (insert loser gainers) s'.book = within (insert loser gainers) s.book) :
    Repays s loser gainers s' := by
  simp only [within_book, ← Finset.add_sum_erase _ _ (Finset.mem_insert_self loser gainers),
    Finset.erase_insert_eq_erase] at balanced
  rw [Repays]
  rw [Finset.sum_sub_distrib]
  push_cast [← Nat.cast_sum]
  omega

theorem repays_refl (s : State) (loser : Identity) (gainers : Finset Identity) :
    Repays s loser gainers s := repays_of_within rfl

theorem Unharmed.refl (s : State) (id : Identity) : Unharmed s id s :=
  ⟨le_refl _, le_refl _, le_refl _⟩

theorem Unharmed.holdings_le {id : Identity} (unharmed : Unharmed s id s') :
    s.holdings id ≤ s'.holdings id := by
  have balance := BitVec.le_def.mp unharmed.balance
  have escrowed := BitVec.le_def.mp unharmed.escrowed
  have bonded := BitVec.le_def.mp unharmed.bonded
  unfold State.holdings
  omega

/-- A posting which debits nothing of an account does not harm it. -/
theorem Moves.unharmed {debits credits : Bucket →₀ ℕ} {id : Identity}
    (moves : Moves s debits credits s') (balance : debits (.balance id) = 0)
    (escrowed : debits (.escrowed id) = 0) (bonded : debits (.bonded id) = 0) :
    Unharmed s id s' := by
  have balance_eq := moves.posts.apply (.balance id)
  have escrowed_eq := moves.posts.apply (.escrowed id)
  have bonded_eq := moves.posts.apply (.bonded id)
  simp only [State.book_balance, State.book_escrowed, State.book_bonded, balance, escrowed, bonded]
    at balance_eq escrowed_eq bonded_eq
  exact ⟨BitVec.le_def.mpr (by omega), BitVec.le_def.mpr (by omega),
    BitVec.le_def.mpr (by omega)⟩

section Convictions

variable {rewardTo : Option Identity} {params : Params} {receipt : Receipt} {sub : Submission}
  {provider : Identity} {penalty : Penalty} {record : StandingRecord}

/-- The penalties debit the provider alone. -/
theorem Penalizes.unharmed {requester id : Identity}
    (penalizes : Penalizes s provider requester receipt rewardTo params penalty s')
    (other : id ≠ provider) : Unharmed s id s' := by
  apply penalizes.toMoves.unharmed
  all_goals simp [other.symm]

/-- The penalties stay with the provider, the requester, the recipient of the reward, the pool and
the burned counter. -/
theorem Penalizes.repays {requester : Identity} {gainers : Finset Identity}
    (penalizes : Penalizes s provider requester receipt rewardTo params penalty s')
    (refunded : requester ∈ gainers) (rewarded : ∀ id, rewardTo = some id → id ∈ gainers) :
    Repays s provider gainers s' := by
  apply repays_of_within
  have posted := congrArg (within (insert provider gainers)) penalizes.posts
  have capped : penalty.reward ≤ penalty.fineAvail := by
    rw [penalizes.reward_eq]
    exact min_le_right _ _
  have taken : within (insert provider gainers) (single (.bonded provider) penalty.recovered +
      single (.balance provider) penalty.burnW + single (.bonded provider) penalty.fineAvail) =
      penalty.recovered + penalty.burnW + penalty.fineAvail := by
    simp [within, single_apply, Finset.sum_add_distrib]
    omega
  have reward : within (insert provider gainers) (single (rewardBucket rewardTo) penalty.reward) =
      penalty.reward := by
    cases rewardTo with
    | none => simp [within, rewardBucket]
    | some id => simp [within, rewardBucket, single_apply, rewarded id rfl]
  have given : within (insert provider gainers) (single (.balance requester) penalty.recovered +
      single .burned penalty.burnW + single (rewardBucket rewardTo) penalty.reward +
      single .burned (penalty.fineAvail - penalty.reward)) =
      penalty.recovered + penalty.burnW + penalty.reward +
        (penalty.fineAvail - penalty.reward) := by
    rw [map_add, map_add, reward]
    simp [within, single_apply, refunded]
  rw [map_add _ s'.book, map_add _ s.book, taken, given] at posted
  omega

/-- A conviction harms the provider of its task alone. -/
theorem Convicts.unharmed {id : Identity} (convicts : Convicts s task rewardTo params s')
    (other : s.offender task ≠ some id) : Unharmed s id s' := by
  cases convicts with
  | idle _ => exact .refl s id
  | slash slashes =>
      have offends := slashes.offends
      obtain ⟨moved, penalizes, rfl⟩ := slashes.penalizes
      have unharmed : Unharmed s id moved :=
        penalizes.unharmed fun same => other (offends.trans (congrArg some same.symm))
      exact { unharmed with }

/-- What the provider of a task loses by a conviction is what the requester, the recipient of the
reward, the pool and the burned counter gain. -/
theorem Convicts.repays (convicts : Convicts s task rewardTo params s')
    (offender_eq : s.offender task = some provider) :
    Repays s provider (s.requesters task ∪ rewardTo.toFinset) s' := by
  cases convicts with
  | idle _ => exact repays_refl s provider _
  | @slash receipt sub found penalty record _ slashes =>
      obtain rfl : provider = found :=
        Option.some.inj (offender_eq.symm.trans slashes.offends)
      have refunded : sub.requester ∈ s.requesters task ∪ rewardTo.toFinset := by
        simp [State.requesters, slashes.sub_eq]
      obtain ⟨moved, penalizes, rfl⟩ := slashes.penalizes
      exact penalizes.repays refunded fun id rewarded => by simp [rewarded]

/-- A reward which somebody receives does not go to the pool. -/
theorem Convicts.feePool_eq (convicts : Convicts s task rewardTo params s')
    (rewarded : rewardTo ≠ none) : s'.feePool = s.feePool := by
  cases convicts with
  | idle _ => rfl
  | slash slashes =>
      obtain ⟨id, rfl⟩ := Option.ne_none_iff_exists'.mp rewarded
      obtain ⟨moved, penalizes, rfl⟩ := slashes.penalizes
      have pool := penalizes.posts.apply .pool
      simp [rewardBucket] at pool
      exact BitVec.eq_of_toNat_eq pool

end Convictions

/-! ## Resolutions of a challenge -/

section Resolutions

variable {params : Params} {id : Identity} {amount : ℕ}

/-- A bond which is returned stays with its owner. -/
theorem Moves.unlock_holdings {owner : Identity}
    (moves : Moves s (single (.bonded owner) amount) (single (.balance owner) amount) s')
    (id : Identity) : s'.holdings id = s.holdings id := by
  have held := holdings_posts id moves.posts
  simp [single_apply] at held
  omega

/-- The return of a bond changes nothing of what has been repaid. -/
theorem Repays.unlock {loser owner : Identity} {gainers : Finset Identity}
    (repays : Repays s loser gainers moved)
    (moves : Moves moved (single (.bonded owner) amount) (single (.balance owner) amount) s') :
    Repays s loser gainers s' := by
  have pool := moves.posts.apply .pool
  have burned := moves.posts.apply .burned
  simp at pool burned
  unfold Repays at *
  simp only [moves.unlock_holdings, pool, burned]
  exact repays

/-- A challenge which is won lowers the holdings of nobody but the provider. -/
theorem Closes.holdings_le (closes : Closes s task params true s')
    (other : s.offender task ≠ some id) : s.holdings id ≤ s'.holdings id := by
  cases closes with
  | idle _ => exact Nat.le_refl _
  | won _ convicts moves =>
      rw [moves.unlock_holdings]
      exact (convicts.unharmed other).holdings_le

/-- What the provider of a task loses by a challenge is what the requester, the challenger, the pool
and the burned counter gain. -/
theorem Closes.repays {provider : Identity} (closes : Closes s task params true s')
    (offender_eq : s.offender task = some provider) :
    Repays s provider (s.requesters task ∪ s.challengers task) s' := by
  cases closes with
  | idle _ => exact repays_refl s provider _
  | won pending convicts moves =>
      rw [State.challengers, pending]
      exact (convicts.repays offender_eq).unlock moves

/-- A challenge pays nothing to the pool. -/
theorem Closes.feePool_eq {fraud : Bool} (closes : Closes s task params fraud s') :
    s'.feePool = s.feePool := by
  cases closes with
  | idle _ => rfl
  | @won pc convicted _ _ convicts moves =>
      have kept : convicted.feePool = s.feePool := convicts.feePool_eq (Option.some_ne_none _)
      have pool := moves.posts.apply .pool
      simp at pool
      exact (BitVec.eq_of_toNat_eq pool).trans kept
  | lost _ moves =>
      have pool := moves.posts.apply .pool
      simp at pool
      exact BitVec.eq_of_toNat_eq pool

/-- A challenge which is lost harms nobody but the challenger. -/
theorem Closes.dismissed_unharmed (closes : Closes s task params false s')
    (other : id ∉ s.challengers task) : Unharmed s id s' := by
  cases closes with
  | idle _ => exact .refl s id
  | @lost pc _ pending moves =>
      have apart : ¬pc.challenger = id := by
        rintro rfl
        simp [State.challengers, pending] at other
      have unharmed : Unharmed { s with pendingChallenges := s.pendingChallenges.erase task } id
          s' := by
        apply moves.unharmed
        all_goals simp [apart]
      exact { unharmed with }

/-- What a dismissed challenger loses is burned, and is at most the bond. -/
theorem Closes.dismissed_burned {pc : ChallengeRecord} (closes : Closes s task params false s')
    (pending : s.pendingChallenges[task]? = some pc) :
    Repays s pc.challenger ∅ s' ∧
      s.holdings pc.challenger ≤ s'.holdings pc.challenger + pc.bond.toNat := by
  cases closes with
  | idle absent => simp [pending] at absent
  | @lost found _ found_eq moves =>
      obtain rfl : pc = found := Option.some.inj (pending.symm.trans found_eq)
      have held := holdings_posts pc.challenger moves.posts
      have pool := moves.posts.apply .pool
      have burned := moves.posts.apply .burned
      have same : ({ s with
          pendingChallenges := s.pendingChallenges.erase task } : State).holdings pc.challenger =
        s.holdings pc.challenger := rfl
      simp [same] at held pool burned
      refine ⟨?_, by omega⟩
      rw [Repays]
      simp only [Finset.erase_empty, Finset.sum_empty]
      omega

end Resolutions

end Frames

/-! ## The verdicts -/

/-- A conviction harms nobody but the provider of its task, and what the provider loses is what the
requester, the recipient of the reward or the pool, and the burned counter gain.  The resolution of
a challenge takes from nobody but the provider when it convicts, and otherwise from nobody but the
challenger, at most the bond.  Neither touches another task, or the Standing of anyone else. -/
theorem penalties_fall_on_offender (s s' : State) (task : TaskId) (params : Params) :
    (∀ rewardTo, s.resolveFraud task rewardTo params = .ok s' →
      Spares task (s.offender task) s s' ∧
      (∀ id, s.offender task ≠ some id → Unharmed s id s') ∧
      (rewardTo ≠ none → s'.feePool = s.feePool) ∧
      ∀ provider, s.offender task = some provider →
        Repays s provider (s.requesters task ∪ rewardTo.toFinset) s') ∧
    (s.resolveChallenge task true params = .ok s' →
      Spares task (s.offender task) s s' ∧
      (∀ id, s.offender task ≠ some id → s.holdings id ≤ s'.holdings id) ∧
      s'.feePool = s.feePool ∧
      ∀ provider, s.offender task = some provider →
        Repays s provider (s.requesters task ∪ s.challengers task) s') ∧
    (s.resolveChallenge task false params = .ok s' →
      Spares task none s s' ∧
      (∀ id, id ∉ s.challengers task → Unharmed s id s') ∧
      s'.feePool = s.feePool ∧
      ∀ pc, s.pendingChallenges[task]? = some pc →
        Repays s pc.challenger ∅ s' ∧
          s.holdings pc.challenger ≤ s'.holdings pc.challenger + pc.bond.toNat) := by
  refine ⟨fun rewardTo resolved => ?_, fun resolved => ?_, fun resolved => ?_⟩
  · have convicts := State.resolveFraud_effect resolved
    exact ⟨convicts.spares, fun _ other => convicts.unharmed other, convicts.feePool_eq,
      fun _ => convicts.repays⟩
  · have closes := State.resolveChallenge_effect resolved
    exact ⟨closes.spares, fun _ other => closes.holdings_le other, closes.feePool_eq,
      fun _ => closes.repays⟩
  · have closes := State.resolveChallenge_effect resolved
    exact ⟨closes.spares, fun _ other => closes.dismissed_unharmed other, closes.feePool_eq,
      fun _ pending => closes.dismissed_burned pending⟩

section Sample

open Sample

attribute [local instance] Crypto.checksum

/-- A settlement which its own provider challenges. -/
def Sample.selfChallenged : List Op := settled 400 ++ [sent bob 2 (.challenge (task 0) 200)]

theorem penalties_fall_on_offender_selfChallenged : ∃ s audited won lost,
    outcomeOf allocations 0 selfChallenged = some s ∧
      s.resolveFraud (task 0) (some alice) .devnet = .ok audited ∧
      audited.holdings bob < s.holdings bob ∧
      Repays s bob (s.requesters (task 0) ∪ (some alice).toFinset) audited ∧
      s.resolveChallenge (task 0) true .devnet = .ok won ∧
      Repays s bob (s.requesters (task 0) ∪ s.challengers (task 0)) won ∧
      s.resolveChallenge (task 0) false .devnet = .ok lost ∧
      (∀ id, id ∉ s.challengers (task 0) → Unharmed s id lost) := by
  have ran : (outcomeOf allocations 0 selfChallenged).any (fun s =>
      s.offender (task 0) = some bob ∧
        ((s.resolveFraud (task 0) (some alice) .devnet).toOption.any fun audited =>
          audited.holdings bob < s.holdings bob) ∧
        ((s.resolveChallenge (task 0) true .devnet).toOption.any fun _ => true) ∧
        ((s.resolveChallenge (task 0) false .devnet).toOption.any fun _ => true)) = true := by
    decide +kernel
  obtain ⟨s, ran, holds⟩ := (Option.any_eq_true _ _).mp ran
  obtain ⟨offender_eq, audit, challenge, dismissal⟩ := of_decide_eq_true holds
  obtain ⟨audited, audit_eq, lowered⟩ := (Option.any_eq_true _ _).mp audit
  obtain ⟨won, won_eq, _⟩ := (Option.any_eq_true _ _).mp challenge
  obtain ⟨lost, lost_eq, _⟩ := (Option.any_eq_true _ _).mp dismissal
  have audit_eq := Checked.toOption_eq_some.mp audit_eq
  have won_eq := Checked.toOption_eq_some.mp won_eq
  have lost_eq := Checked.toOption_eq_some.mp lost_eq
  have audit := (penalties_fall_on_offender s audited (task 0) .devnet).1 (some alice) audit_eq
  have challenge := (penalties_fall_on_offender s won (task 0) .devnet).2.1 won_eq
  have dismissal := (penalties_fall_on_offender s lost (task 0) .devnet).2.2 lost_eq
  exact ⟨s, audited, won, lost, ran, audit_eq, of_decide_eq_true lowered,
    audit.2.2.2 bob offender_eq, won_eq, challenge.2.2.2 bob offender_eq, lost_eq, dismissal.2.1⟩

end Sample

end Ducp
