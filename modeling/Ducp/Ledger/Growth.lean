import Ducp.Ledger.Effects
import Ducp.Ledger.Events

/-!
# Growth of the ledger

A movement of funds touches one account, so a transaction or a verdict adds a few entries at most.
An epoch boundary may add one for every receipt.
-/

namespace Ducp

open Outcome Std

/-- The number of entries of every map and set of the records. -/
def Records.sizes (records : Records) : List ℕ :=
  [records.standing.size, records.bodies.size, records.tasks.size, records.proofs.size,
    records.receipts.size, records.qLedger.size, records.pendingChallenges.size,
    records.slashed.size, records.released.size, records.nonces.size]

/-- The number of entries of every map and set of the ledger. -/
def State.sizes (s : State) : List ℕ := s.accounts.size :: s.records.sizes

namespace State

variable {s s' : State} {id : Identity} {amount taken : Ucu} {params : Params}

/-! ## Accounts -/

theorem size_setAcct {account : Account} :
    (s.setAcct id account).accounts.size ≤ s.accounts.size + 1 := ExtTreeMap.size_insert_le

theorem credit_size (credited : s.credit id amount = .ok s') :
    s'.accounts.size ≤ s.accounts.size + 1 := by
  obtain ⟨_, _, credited⟩ := Checked.bind_eq_ok.mp credited
  obtain rfl := Checked.pure_eq_ok.mp credited
  exact size_setAcct

theorem escrow_size (escrowed : s.escrow id amount = .ok s') :
    s'.accounts.size ≤ s.accounts.size + 1 := by
  simp only [escrow, Checked.bind_eq_ok, Checked.pure_eq_ok] at escrowed
  obtain ⟨_, _, _, _, rfl⟩ := escrowed
  exact size_setAcct

theorem lock_size (locked : s.lock id amount = .ok s') :
    s'.accounts.size ≤ s.accounts.size + 1 := by
  simp only [lock, Checked.bind_eq_ok, Checked.pure_eq_ok] at locked
  obtain ⟨_, _, _, _, rfl⟩ := locked
  exact size_setAcct

theorem unlock_size (unlocked : s.unlock id amount = .ok s') :
    s'.accounts.size ≤ s.accounts.size + 1 := by
  simp only [unlock, Checked.bind_eq_ok, Checked.pure_eq_ok] at unlocked
  obtain ⟨_, _, _, _, rfl⟩ := unlocked
  exact size_setAcct

theorem takeBalance_size (taking : s.takeBalance id amount = .ok (s', taken)) :
    s'.accounts.size ≤ s.accounts.size + 1 := by
  simp only [takeBalance, Checked.bind_eq_ok, Checked.pure_eq_ok, Prod.mk.injEq] at taking
  obtain ⟨_, _, rfl, _⟩ := taking
  exact size_setAcct

theorem takeBonded_size (taking : s.takeBonded id amount = .ok (s', taken)) :
    s'.accounts.size ≤ s.accounts.size + 1 := by
  simp only [takeBonded, Checked.bind_eq_ok, Checked.pure_eq_ok, Prod.mk.injEq] at taking
  obtain ⟨_, _, rfl, _⟩ := taking
  exact size_setAcct

theorem drainEscrow_size {maxUcu fee u : Ucu} (drained : s.drainEscrow id maxUcu fee u = .ok s') :
    s'.accounts.size ≤ s.accounts.size + 1 := by
  simp only [drainEscrow, Checked.bind_eq_ok, Checked.pure_eq_ok] at drained
  obtain ⟨_, _, _, _, _, _, _, _, rfl⟩ := drained
  exact size_setAcct

theorem creditPool_size (credited : s.creditPool amount = .ok s') :
    s'.accounts = s.accounts := by
  obtain ⟨_, _, credited⟩ := Checked.bind_eq_ok.mp credited
  obtain rfl := Checked.pure_eq_ok.mp credited
  rfl

theorem countBurned_size (burned : s.countBurned amount = .ok s') : s'.accounts = s.accounts := by
  obtain ⟨_, _, burned⟩ := Checked.bind_eq_ok.mp burned
  obtain rfl := Checked.pure_eq_ok.mp burned
  rfl

theorem payReward_size {rewardTo : Option Identity} (paid : s.payReward amount rewardTo = .ok s') :
    s'.accounts.size ≤ s.accounts.size + 1 := by
  cases rewardTo with
  | none =>
      rw [creditPool_size paid]
      exact Nat.le_succ _
  | some id => exact credit_size paid

theorem settle_size {body : TaskBody} {sub : Submission} {proof : ComputeProof}
    (settled : s.settle body sub proof params = .ok s') :
    s'.accounts.size ≤ s.accounts.size + 3 := by
  simp only [settle, Checked.bind_eq_ok, Checked.pure_eq_ok] at settled
  obtain ⟨drained, drain, pooled, pool, paid, pay, _, _, issued, issue, counted, count, _, _,
    accrued, accrue, _, _, _, _, rfl⟩ := settled
  obtain ⟨_, _, rfl⟩ := countMinted_eq_ok.mp count
  obtain ⟨_, _, rfl⟩ := accrue_eq_ok.mp accrue
  have first := drainEscrow_size drain
  have second := creditPool_size pool
  have third := credit_size pay
  have fourth := credit_size issue
  rw [second] at third
  exact fourth.trans (by omega)

/-- A transaction touches three accounts at most. -/
theorem applyTx_size [Crypto] {author : Identity} {tx : Tx}
    (returned : (s.applyTx author params tx).Returns s') :
    s'.accounts.size ≤ s.accounts.size + 3 := by
  cases tx with
  | submitTask body =>
      simp only [applyTx, submitTask, returns_bind, returns_lift, returns_pure] at returned
      obtain ⟨_, _, _, _, _, _, _, _, _, _, _, _, moved, escrowed, rfl⟩ := returned
      exact (escrow_size escrowed).trans (by omega)
  | claimTask task =>
      simp only [applyTx, claimTask, returns_bind, returns_lift, returns_pure] at returned
      obtain ⟨_, _, _, _, _, _, _, _, _, _, _, _, moved, locked, _, _, rfl⟩ := returned
      exact (lock_size locked).trans (by omega)
  | submitProof proof =>
      simp only [applyTx, submitProof, returns_bind, returns_lift] at returned
      obtain ⟨_, _, _, _, _, _, _, _, _, _, _, _, _, _, settled⟩ := returned
      have grown := settle_size settled
      exact grown
  | challenge task bond =>
      simp only [applyTx, openChallenge, returns_bind, returns_lift, returns_pure] at returned
      obtain ⟨_, _, _, _, _, _, _, _, _, _, _, _, _, _, _, _, moved, locked, rfl⟩ := returned
      exact (lock_size locked).trans (by omega)
  | transfer recipient amount =>
      simp only [applyTx, transfer, returns_bind, returns_lift] at returned
      obtain ⟨_, _, balance, _, credited⟩ := returned
      exact (credit_size credited).trans <|
        (Nat.add_le_add_right size_setAcct 1).trans (by omega)

theorem penalize_size {provider requester : Identity} {receipt : Receipt}
    {rewardTo : Option Identity}
    (penalized : s.penalize provider requester receipt rewardTo params = .ok s') :
    s'.accounts.size ≤ s.accounts.size + 5 := by
  simp only [penalize, Checked.bind_eq_ok, Prod.exists] at penalized
  obtain ⟨clawed, _, clawed_eq, refunded, refunded_eq, stripped, _, stripped_eq, offset, offset_eq,
    _, _, fined, _, fined_eq, _, _, rewarded, rewarded_eq, _, _, burned_eq⟩ := penalized
  have claw := takeBonded_size clawed_eq
  have refund := credit_size refunded_eq
  have strip := takeBalance_size stripped_eq
  have fine := takeBonded_size fined_eq
  have reward := payReward_size rewarded_eq
  rw [countBurned_size offset_eq] at fine
  rw [countBurned_size burned_eq]
  omega

theorem markFailed_accounts {task : TaskId} : (s.markFailed task).accounts = s.accounts := by
  simp only [markFailed]
  split <;> rfl

theorem resolveFraud_size {task : TaskId} {rewardTo : Option Identity}
    (resolved : s.resolveFraud task rewardTo params = .ok s') :
    s'.accounts.size ≤ s.accounts.size + 5 := by
  unfold resolveFraud at resolved
  split at resolved
  · obtain rfl := Checked.pure_eq_ok.mp resolved
    exact Nat.le_add_right _ _
  · split at resolved
    · simp only [Checked.bind_eq_ok, Checked.expect_eq_ok, strike_eq_ok, Checked.pure_eq_ok]
        at resolved
      obtain ⟨sub, _, moved, penalized, _, ⟨strikes, _, rfl⟩, rfl⟩ := resolved
      have grown := penalize_size penalized
      rw [markFailed_accounts]
      exact grown
    · obtain rfl := Checked.pure_eq_ok.mp resolved
      exact Nat.le_add_right _ _

/-- A verdict touches six accounts at most. -/
theorem resolveChallenge_size {task : TaskId} {fraud : Bool}
    (resolved : s.resolveChallenge task fraud params = .ok s') :
    s'.accounts.size ≤ s.accounts.size + 6 := by
  unfold resolveChallenge at resolved
  split at resolved
  · obtain rfl := Checked.pure_eq_ok.mp resolved
    exact Nat.le_add_right _ _
  · cases fraud with
    | true =>
        simp only [if_true, Checked.bind_eq_ok] at resolved
        obtain ⟨convicted, convicts, unlocked⟩ := resolved
        have grown := resolveFraud_size convicts
        exact (unlock_size unlocked).trans (Nat.add_le_add_right grown 1)
    | false =>
        simp only [Bool.false_eq_true, if_false, Checked.bind_eq_ok, Prod.exists] at resolved
        obtain ⟨taken, forfeited, taken_eq, burned⟩ := resolved
        have grown := takeBonded_size taken_eq
        rw [countBurned_size burned]
        exact grown.trans (Nat.add_le_add_left (by norm_num) _)

/-- A release touches one account and marks one task. -/
theorem release_size {matured : TaskId × Identity × Ucu} (released : s.release matured = .ok s') :
    s'.accounts.size ≤ s.accounts.size + 1 ∧ s'.released.size ≤ s.released.size + 1 := by
  simp only [release, Checked.bind_eq_ok, Checked.pure_eq_ok] at released
  obtain ⟨moved, unlocked, rfl⟩ := released
  have kept : moved.released = s.released :=
    congrArg Records.released (unlock_moves unlocked).records
  have touched := unlock_size unlocked
  exact ⟨touched, kept ▸ ExtTreeSet.size_insert_le⟩

theorem toRelease_length : s.toRelease.length ≤ s.receipts.size :=
  (List.length_filterMap_le _ _).trans ExtTreeMap.length_toList.le

/-- The decay rewrites every Standing record. -/
theorem decayStanding_size (decayed : s.decayStanding params = .ok s') :
    s'.standing.size ≤ s.standing.size + s.standing.size := by
  simp only [decayStanding, Checked.bind_eq_ok, Checked.pure_eq_ok] at decayed
  obtain ⟨standing, folded, rfl⟩ := decayed
  have grown := (Run.of_foldlM folded).grows ExtTreeMap.size 1
    fun {before entry after} inserted => by
      obtain ⟨_, _, inserted⟩ := Checked.bind_eq_ok.mp inserted
      obtain rfl := Checked.pure_eq_ok.mp inserted
      exact ExtTreeMap.size_insert_le
  rwa [ExtTreeMap.length_toList, mul_one] at grown

/-- An epoch boundary touches one account for every receipt at most. -/
theorem advanceEpoch_size (advanced : s.advanceEpoch params = .ok s') :
    s'.accounts.size ≤ s.accounts.size + s.receipts.size ∧
      s'.released.size ≤ s.released.size + s.receipts.size := by
  simp only [advanceEpoch, Checked.bind_eq_ok] at advanced
  obtain ⟨epoch, _, ticked, decayed, folded⟩ := advanced
  simp only [decayStanding, Checked.bind_eq_ok, Checked.pure_eq_ok] at decayed
  obtain ⟨standing, _, rfl⟩ := decayed
  have run := Run.of_foldlM folded
  have touched := run.grows (·.accounts.size) 1 fun released => (release_size released).1
  have marked := run.grows (·.released.size) 1 fun released => (release_size released).2
  rw [mul_one] at touched marked
  exact ⟨touched.trans (Nat.add_le_add_left toRelease_length _),
    marked.trans (Nat.add_le_add_left toRelease_length _)⟩

end State

/-! ## Every map -/

/-- No map or set of the ledger has more entries. -/
def Sized (most : ℕ) (s : State) : Prop := ∀ size ∈ s.sizes, size ≤ most

instance (most : ℕ) (s : State) : Decidable (Sized most s) :=
  inferInstanceAs (Decidable (∀ size ∈ s.sizes, size ≤ most))

section Steps

variable {s s' : State} {params : Params} {most : ℕ}

/-- Every map and set has so many entries more at most. -/
def Records.Grows (few : ℕ) (before after : Records) : Prop :=
  List.Forall₂ (fun old new => new ≤ old + few) before.sizes after.sizes

theorem Records.grows_self (few : ℕ) (records : Records) : Records.Grows few records records := by
  simp [Records.Grows, Records.sizes]

theorem Records.Grows.trans {few more : ℕ} {first second third : Records}
    (former : Records.Grows few first second) (latter : Records.Grows more second third) :
    Records.Grows (few + more) first third := by
  simp only [Records.Grows, Records.sizes, List.forall₂_cons, List.Forall₂.nil, and_true] at *
  omega

theorem Sized.mono {more : ℕ} (sized : Sized most s) (within : most ≤ more) : Sized more s :=
  fun size member => (sized size member).trans within

/-- A step which adds so many accounts, and so many entries to each other map. -/
theorem Sized.grown {few : ℕ} (sized : Sized most s)
    (accounts : s'.accounts.size ≤ s.accounts.size + few)
    (records : Records.Grows few s.records s'.records) : Sized (most + few) s' := by
  rw [Sized, State.sizes, List.forall_mem_cons] at *
  refine ⟨accounts.trans (Nat.add_le_add_right sized.1 few), fun size member => ?_⟩
  obtain ⟨position, inside, rfl⟩ := List.mem_iff_getElem.mp member
  obtain ⟨length_eq, grows⟩ := List.forall₂_iff_get.mp records
  have inside' : position < s.records.sizes.length := by omega
  exact (grows position inside' inside).trans
    (Nat.add_le_add_right (sized.2 _ (List.getElem_mem inside')) few)

variable [Crypto]

/-- A payload writes one entry of a map at most. -/
theorem Payload.grows {author : Identity} {tx : Tx} (payload : Payload s author params tx s') :
    Records.Grows 1 s.records s'.records := by
  cases payload with
  | submitTask submits =>
      rw [submits.records]
      simp [Records.Grows, Records.sizes, State.records, ExtTreeMap.size_insert_le]
  | claimTask claims =>
      rw [claims.records]
      simp [Records.Grows, Records.sizes, State.records, ExtTreeMap.size_insert_le]
  | submitProof settles =>
      rw [settles.records]
      simp [Records.Grows, Records.sizes, State.records, ExtTreeMap.size_insert_le]
  | challenge opens =>
      rw [opens.records]
      simp [Records.Grows, Records.sizes, State.records, ExtTreeMap.size_insert_le]
  | transfer moves =>
      rw [moves.records]
      exact Records.grows_self 1 s.records

omit [Crypto] in
theorem Convicts.grows {task : TaskId} {rewardTo : Option Identity}
    (convicts : Convicts s task rewardTo params s') : Records.Grows 1 s.records s'.records := by
  cases convicts with
  | idle _ => exact Records.grows_self 1 s.records
  | slash slashes =>
      obtain ⟨moved, penalizes, rfl⟩ := slashes.penalizes
      obtain ⟨accounts, supply, feePool, rfl⟩ := penalizes.exists_funds
      simp [Records.Grows, Records.sizes, State.records, ExtTreeMap.size_insert_le,
        ExtTreeSet.size_insert_le]

omit [Crypto] in
theorem Closes.grows {task : TaskId} {fraud : Bool} (closes : Closes s task params fraud s') :
    Records.Grows 1 s.records s'.records := by
  have closed : Records.Grows 0 s.records
      { s with pendingChallenges := s.pendingChallenges.erase task }.records := by
    simp [Records.Grows, Records.sizes, State.records, ExtTreeMap.size_erase_le]
  cases closes with
  | idle _ => exact Records.grows_self 1 s.records
  | won _ convicts moves =>
      rw [moves.records]
      exact closed.trans convicts.grows
  | lost _ moves =>
      rw [moves.records]
      exact closed.trans (Records.grows_self 1 _)

omit [Crypto] in
/-- A boundary rewrites every Standing record, and touches one account for every receipt. -/
theorem State.advanceEpoch_grows (sized : Sized most s)
    (advanced : s.advanceEpoch params = .ok s') : Sized (most + most) s' := by
  have receipts : s.receipts.size ≤ most :=
    sized _ (by simp [State.sizes, Records.sizes, State.records])
  have standing : s.standing.size ≤ most :=
    sized _ (by simp [State.sizes, Records.sizes, State.records])
  obtain ⟨touched, marked⟩ := State.advanceEpoch_size advanced
  obtain ⟨ticked, advances⟩ := State.advanceEpoch_effect advanced
  refine sized.grown (by omega) ?_
  obtain ⟨epoch, standing', _, rfl, decayed⟩ := advances.ticks
  have rewritten := State.decayStanding_size decayed
  rw [advances.records]
  simp only [Records.Grows, Records.sizes, State.records, List.forall₂_cons, List.Forall₂.nil,
    and_true] at *
  omega

/-- An accepted operation adds six entries to a map at most, or doubles it. -/
theorem Step.sized {op : Op} (sized : Sized most s) (step : Step s op s') :
    Sized (most + (most + 6)) s' := by
  cases op with
  | apply stx params =>
      simp only [Step, Op.exec, State.apply, State.checkAndBumpNonce, returns_bind, returns_lift,
        returns_rejectIf, returns_pure] at step
      obtain ⟨_, _, _, _, _, ⟨_, _, next, _, rfl⟩, applied⟩ := step
      let bumped : State := { s with nonces := s.nonces.insert stx.author next }
      have nonced : Records.Grows 1 s.records bumped.records := by
        simp [Records.Grows, Records.sizes, State.records, bumped, ExtTreeMap.size_insert_le]
      have payload : Records.Grows 1 bumped.records s'.records :=
        (State.applyTx_effect applied).grows
      have written : Records.Grows 3 s.records s'.records :=
        (nonced.trans payload).trans (Records.grows_self 1 _)
      have touched := State.applyTx_size applied
      have accounts : s'.accounts.size ≤ s.accounts.size + 3 := touched
      have grown : Sized (most + 3) s' := sized.grown accounts written
      exact grown.mono (by omega)
  | advanceEpoch params =>
      exact (State.advanceEpoch_grows sized (returns_lift.mp step)).mono (by omega)
  | resolveFraud task rewardTo params =>
      have resolved := returns_lift.mp step
      have written : Records.Grows 5 s.records s'.records :=
        (State.resolveFraud_effect resolved).grows.trans (Records.grows_self 4 _)
      have grown : Sized (most + 5) s' := sized.grown (State.resolveFraud_size resolved) written
      exact grown.mono (by omega)
  | resolveChallenge task fraud params =>
      have resolved := returns_lift.mp step
      have written : Records.Grows 6 s.records s'.records :=
        (State.resolveChallenge_effect resolved).grows.trans (Records.grows_self 5 _)
      have grown : Sized (most + 6) s' :=
        sized.grown (State.resolveChallenge_size resolved) written
      exact grown.mono (by omega)

end Steps

end Ducp
