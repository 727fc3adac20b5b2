import Ducp.Ledger.Arithmetic
import Ducp.Ledger.Audit

/-!
# Verdicts which cannot be applied

Every movement of a verdict is clamped to what is there, and the book bounds every sum.  So a
dismissal is always applied, and a conviction unless its fine, its reward or its strike leaves the
type.
-/

namespace Ducp

open Checked DoubleEntry MapSum Outcome Std
open Finsupp (single degree)

namespace State

variable {s : State} {id : Identity} {amount : Ucu} {fault : Fault} {params : Params}

/-! ## Clamped movements -/

theorem takeBalance_total : Avoids fault (s.takeBalance id amount) := by
  have clamped : (lesser amount (s.acct id).balance).toNat = _ := toNat_lesser
  simp only [takeBalance, Checked.avoids_bind, Checked.avoids_pure, implies_true, and_true]
  exact avoids_sub_of_le (by omega)

theorem takeBonded_total : Avoids fault (s.takeBonded id amount) := by
  have clamped : (lesser amount (s.acct id).bonded).toNat = _ := toNat_lesser
  simp only [takeBonded, Checked.avoids_bind, Checked.avoids_pure, implies_true, and_true]
  exact avoids_sub_of_le (by omega)

theorem unlock_in_range (bounded : degree s.book < 2 ^ 128) :
    Avoids fault (s.unlock id amount) := by
  have owned := book_add_le_degree s (show Bucket.balance id ≠ .bonded id by simp)
  have clamped : (lesser amount (s.acct id).bonded).toNat = _ := toNat_lesser
  rw [book_balance, book_bonded] at owned
  simp only [unlock, Checked.avoids_bind, Checked.avoids_pure, implies_true, and_true]
  exact ⟨avoids_sub_of_le (by omega), fun _ _ => avoids_add_of_lt (by omega)⟩

theorem countBurned_in_range (fits : degree s.book + amount.toNat < 2 ^ 128) :
    Avoids fault (s.countBurned amount) := by
  have burned := book_le_degree s .burned
  rw [book_burned] at burned
  simp only [countBurned, Checked.avoids_bind, Checked.avoids_pure, implies_true, and_true]
  exact avoids_add_of_lt (by omega)

theorem payReward_in_range {rewardTo : Option Identity}
    (fits : degree s.book + amount.toNat < 2 ^ 128) :
    Avoids fault (s.payReward amount rewardTo) := by
  cases rewardTo with
  | none => exact creditPool_in_range fits
  | some id => exact credit_in_range fits

/-- What is taken and then burned is applied. -/
theorem forfeit_in_range (bounded : degree s.book < 2 ^ 128) :
    Avoids fault (do
      let (s, forfeited) ← s.takeBonded id amount
      s.countBurned forfeited) := by
  simp only [Checked.avoids_bind, takeBonded_total, true_and, Prod.forall]
  intro taken forfeited taken_eq
  have posted := (takeBonded_moves taken_eq).2.posts.degree
  simp only [map_zero, Finsupp.degree_single] at posted
  exact countBurned_in_range (by omega)

/-! ## Penalties -/

/-- Penalties whose fine and reward are computed are applied. -/
theorem penalize_in_range {provider requester : Identity} {receipt : Receipt}
    {rewardTo : Option Identity} {fine rewardCap : Ucu} (bounded : degree s.book < 2 ^ 128)
    (fine_eq : params.fine receipt.paidToProvider = .ok fine)
    (reward_eq : params.challengerReward fine = .ok rewardCap) :
    Avoids fault (s.penalize provider requester receipt rewardTo params) := by
  simp only [penalize, Checked.avoids_bind, takeBonded_total, takeBalance_total, fine_eq,
    reward_eq, avoids_ok, Except.ok.injEq, forall_eq', true_and, Prod.forall]
  intro clawed recovered clawed_eq
  have claw := (takeBonded_moves clawed_eq).2.posts.degree
  simp only [map_zero, Finsupp.degree_single] at claw
  refine ⟨credit_in_range (by omega), fun refunded refunded_eq stripped burnW stripped_eq => ?_⟩
  have refund := (credit_moves refunded_eq).posts.degree
  have strip := (takeBalance_moves stripped_eq).2.posts.degree
  simp only [map_zero, Finsupp.degree_single] at refund strip
  refine ⟨countBurned_in_range (by omega),
    fun offset offset_eq fined fineAvail fined_eq => ?_⟩
  have burn := (countBurned_moves offset_eq).posts.degree
  have take := (takeBonded_moves fined_eq).2.posts.degree
  simp only [map_zero, Finsupp.degree_single] at burn take
  have clamped : (lesser rewardCap fineAvail).toNat = _ := toNat_lesser
  refine ⟨payReward_in_range (by omega), fun rewarded rewarded_eq =>
    ⟨avoids_sub_of_le (by omega), fun remainder remainder_eq => ?_⟩⟩
  have paid := (payReward_moves rewarded_eq).posts.degree
  simp only [map_zero, Finsupp.degree_single] at paid
  have left_over := Checked.sub_eq_ok.mp remainder_eq
  exact countBurned_in_range (by omega)

end State

/-! ## Convictions -/

/-- The fine for a payment and the reward out of it fit their type. -/
def Params.Fines (params : Params) (p : Ucu) : Prop :=
  p.toNat * params.fineMultPpm.toNat < 2 ^ 128 ∧
    p.toNat * params.fineMultPpm.toNat / 1000000 * params.challengerRewardPpm.toNat < 2 ^ 128

instance (params : Params) (p : Ucu) : Decidable (params.Fines p) :=
  inferInstanceAs (Decidable (_ ∧ _))

theorem Params.fines_iff {params : Params} {p : Ucu} :
    params.Fines p ↔
      ∃ fine rewardCap, params.fine p = .ok fine ∧
        params.challengerReward fine = .ok rewardCap := by
  constructor
  · rintro ⟨fits, reward_fits⟩
    obtain ⟨fine, fine_eq⟩ := exists_ok_of_avoids fun _ => ppmOf_in_range fits
    rw [← (ppmOf_eq_ok.mp fine_eq).2] at reward_fits
    obtain ⟨rewardCap, reward_eq⟩ := exists_ok_of_avoids fun _ => ppmOf_in_range reward_fits
    exact ⟨fine, rewardCap, fine_eq, reward_eq⟩
  · rintro ⟨fine, rewardCap, fine_eq, reward_eq⟩
    obtain ⟨fits, fine_toNat⟩ := ppmOf_eq_ok.mp fine_eq
    obtain ⟨reward_fits, _⟩ := ppmOf_eq_ok.mp reward_eq
    exact ⟨fits, fine_toNat ▸ reward_fits⟩

/-- A task which would be slashed now can be: its fine and its reward are computed, and the strike
of its provider is counted. -/
def Punishable (s : State) (task : TaskId) (params : Params) : Prop :=
  ∀ receipt provider, s.receipts[task]? = some receipt →
    (s.tasks[task]?).bind (·.provider) = some provider → task ∉ s.slashed →
      params.Fines receipt.paidToProvider ∧ s.strikesOf provider + 1 < 2 ^ 32

section Verdicts

variable {s s' : State} {task : TaskId} {rewardTo : Option Identity} {params : Params}

theorem Convicts.punishable (convicts : Convicts s task rewardTo params s') :
    Punishable s task params := by
  intro receipt provider receipt_eq provider_eq unslashed
  cases convicts with
  | idle idle => simp [unslashed, receipt_eq, provider_eq] at idle
  | @slash found sub offender penalty record _ slashes =>
      obtain rfl : receipt = found := Option.some.inj (receipt_eq.symm.trans slashes.receipt_eq)
      obtain rfl : offender = provider := by
        rw [slashes.sub_eq] at provider_eq
        exact Option.some.inj (slashes.offender.symm.trans provider_eq)
      obtain ⟨moved, penalizes, _⟩ := slashes.penalizes
      refine ⟨Params.fines_iff.mpr ⟨_, _, penalizes.fine_eq, penalizes.rewardCap_eq⟩, ?_⟩
      rw [State.strikesOf, ← slashes.struck]
      exact record.strikes.isLt

/-- A punishable task of a conserving state is convicted. -/
theorem Punishable.resolves (punishable : Punishable s task params) (conserved : Conserved s) :
    ∃ s', s.resolveFraud task rewardTo params = .ok s' := by
  have bounded : degree s.book < 2 ^ 128 := by
    rw [conserved]
    exact s.supply.minted.isLt
  unfold State.resolveFraud
  split
  · exact ⟨s, rfl⟩
  · rename_i unslashed
    split
    · rename_i receipt provider receipt_eq provider_eq
      obtain ⟨fines, room⟩ := punishable receipt provider receipt_eq provider_eq unslashed
      obtain ⟨fine, rewardCap, fine_eq, reward_eq⟩ := Params.fines_iff.mp fines
      obtain ⟨sub, sub_eq, _⟩ := Option.bind_eq_some_iff.mp provider_eq
      have avoids (fault : Fault) :
          Avoids fault (s.penalize provider sub.requester receipt rewardTo params) :=
        State.penalize_in_range bounded fine_eq reward_eq
      obtain ⟨moved, penalized⟩ := exists_ok_of_avoids avoids
      obtain ⟨_, penalizes⟩ := State.penalize_effect penalized
      obtain ⟨accounts, supply, feePool, rfl⟩ := penalizes.exists_funds
      obtain ⟨strikes, strikes_eq, _⟩ : ∃ strikes : BitVec 32, Checked.add
        (s.standingRecord provider).strikes 1 = .ok strikes ∧ _ := exists_add room
      simp only [sub_eq, Checked.bind_eq_ok, Checked.expect_eq_ok, Option.some.injEq,
        exists_eq_left', penalized, Except.ok.injEq, State.strike_eq_ok, Checked.pure_eq_ok]
      exact ⟨_, _, ⟨strikes, Checked.add_eq_ok.mp strikes_eq, rfl⟩, rfl⟩
    · exact ⟨s, rfl⟩

/-- A fraud resolution completes exactly on a punishable task. -/
theorem resolveFraud_returns_iff (conserved : Conserved s) :
    (∃ s', s.resolveFraud task rewardTo params = .ok s') ↔ Punishable s task params :=
  ⟨fun ⟨_, resolved⟩ => (State.resolveFraud_effect resolved).punishable,
    fun punishable => punishable.resolves conserved⟩

/-- A conviction of a conserving state completes exactly when the challenged task is punishable. -/
theorem convict_returns_iff [Crypto] (conserved : Conserved s) :
    (∃ s', s.resolveChallenge task true params = .ok s') ↔
      (task ∈ s.pendingChallenges → Punishable s task params) := by
  unfold State.resolveChallenge
  split
  · rename_i absent
    have idle := (notMem_iff_eq_none _ task).mpr absent
    exact ⟨fun _ pending => (idle pending).elim, fun _ => ⟨s, rfl⟩⟩
  · rename_i pc pending
    have known := (mem_iff_exists s.pendingChallenges task).mpr ⟨pc, pending⟩
    let closed : State := { s with pendingChallenges := s.pendingChallenges.erase task }
    have held : Conserved closed := conserved
    have returns_iff : (∃ s', closed.resolveFraud task (some pc.challenger) params = .ok s') ↔
      Punishable s task params := resolveFraud_returns_iff held
    simp only [if_true, known, forall_const, ← returns_iff]
    constructor
    · rintro ⟨s', resolved⟩
      obtain ⟨convicted, convicts, _⟩ := Checked.bind_eq_ok.mp resolved
      exact ⟨convicted, convicts⟩
    · rintro ⟨convicted, convicts⟩
      have step : Step closed (.resolveFraud task (some pc.challenger) params) convicted :=
        returns_lift.mpr convicts
      have kept := step.preserves Conserved Event.conserved held
      have bounded : degree convicted.book < 2 ^ 128 := by
        rw [kept]
        exact convicted.supply.minted.isLt
      obtain ⟨s', unlocked⟩ := exists_ok_of_avoids fun _ => State.unlock_in_range bounded
      exact ⟨s', Checked.bind_eq_ok.mpr ⟨convicted, convicts, unlocked⟩⟩

/-- A dismissal always completes. -/
theorem dismiss_returns (conserved : Conserved s) :
    ∃ s', s.resolveChallenge task false params = .ok s' := by
  unfold State.resolveChallenge
  split
  · exact ⟨s, rfl⟩
  · rename_i pc _
    have bounded :
        degree { s with pendingChallenges := s.pendingChallenges.erase task }.book < 2 ^ 128 := by
      rw [show Conserved { s with pendingChallenges := s.pendingChallenges.erase task }
        from conserved]
      exact s.supply.minted.isLt
    exact exists_ok_of_avoids fun _ => State.forfeit_in_range bounded

/-- The defaults punish every task, as long as the supply and the strikes are in range. -/
theorem Solvent.punishable [Crypto] (solvent : Solvent s)
    (minted : s.supply.minted.toNat ≤ 2 ^ 96)
    (struck : ∀ id, s.strikesOf id + 1 < 2 ^ 32) : Punishable s task .devnet := by
  intro receipt provider receipt_eq _ _
  obtain ⟨body, _, proof, _, body_eq, _, _, _, agrees⟩ :=
    (solvent.phases task).agreement receipt_eq
  have paid_le : receipt.paidToProvider.toNat ≤ 2 ^ 96 := by
    rw [agrees.paid]
    exact agrees.within.trans ((solvent.affordable task body body_eq).trans minted)
  have fineMult : Params.devnet.fineMultPpm.toNat = 2000000 := rfl
  have challengerReward : Params.devnet.challengerRewardPpm.toNat = 500000 := rfl
  refine ⟨⟨?_, ?_⟩, struck provider⟩ <;> simp only [fineMult, challengerReward] <;> omega

/-- On every reachable state, under any parameters, a dismissal is applied, and a conviction is
applied exactly when the fine, the reward and the strike fit their types: no movement of funds ever
panics.  The defaults convict every task, as long as the supply and the strikes are in range. -/
theorem verdicts_complete [Crypto] (reachable : Reachable s) (task : TaskId) (params : Params) :
    (∀ rewardTo, (∃ s', s.resolveFraud task rewardTo params = .ok s') ↔
      Punishable s task params) ∧
    ((∃ s', s.resolveChallenge task true params = .ok s') ↔
      (task ∈ s.pendingChallenges → Punishable s task params)) ∧
    (∃ s', s.resolveChallenge task false params = .ok s') ∧
    (s.supply.minted.toNat ≤ 2 ^ 96 → (∀ id, s.strikesOf id + 1 < 2 ^ 32) →
      Punishable s task .devnet) :=
  have conserved := reachable.conserved
  ⟨fun _ => resolveFraud_returns_iff conserved, convict_returns_iff conserved,
    dismiss_returns conserved, reachable.solvent.punishable⟩

end Verdicts

section Sample

open Sample

attribute [local instance] Crypto.checksum

/-- The defaults convict a challenged task; a fine which leaves its type does not. -/
theorem verdicts_complete_selfChallenged : ∃ s params,
    outcomeOf allocations 0 (settled 400 ++ [sent bob 2 (.challenge (task 0) 200)]) = some s ∧
      task 0 ∈ s.pendingChallenges ∧
      (∃ s', s.resolveChallenge (task 0) true .devnet = .ok s') ∧
      s.resolveChallenge (task 0) true params = .error .overflow ∧
      ¬Punishable s (task 0) params := by
  let params : Params := { Params.devnet with fineMultPpm := -1 }
  have ran : (outcomeOf allocations 0
      (settled 400 ++ [sent bob 2 (.challenge (task 0) 200)])).any (fun s =>
        task 0 ∈ s.pendingChallenges ∧
        ((s.resolveFraud (task 0) none .devnet).toOption.any fun _ => true) ∧
        s.resolveChallenge (task 0) true params = .error .overflow) = true := by
    decide +kernel
  obtain ⟨s, ran, holds⟩ := (Option.any_eq_true _ _).mp ran
  obtain ⟨pending, convicted, overflows⟩ := of_decide_eq_true holds
  obtain ⟨convicted, resolved, _⟩ := (Option.any_eq_true _ _).mp convicted
  have resolved := Checked.toOption_eq_some.mp resolved
  have reachable := reachable_of_outcomeOf ran
  have complete := verdicts_complete reachable (task 0) .devnet
  refine ⟨s, params, ran, pending, complete.2.1.mpr fun _ => (complete.1 none).mp ⟨_, resolved⟩,
    overflows, fun punishable => ?_⟩
  obtain ⟨s', applied⟩ := (verdicts_complete reachable (task 0) params).2.1.mpr fun _ => punishable
  cases overflows.symm.trans applied

end Sample

end Ducp
