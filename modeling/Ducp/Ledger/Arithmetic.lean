import Ducp.Ledger.Conservation
import Ducp.Ledger.Escrow

/-!
# Arithmetic in range

Every amount on the ledger is part of what has been minted, and every ceiling was once somebody's
balance.  While the supply, the Standings, the epoch and the nonces are far from the ends of their
types, no product and no sum of a transaction leaves its type.  Only the fee of a new task is
computed before its ceiling has been compared with a balance.
-/

namespace Ducp

open Checked DoubleEntry MapSum Outcome Std
open Finsupp (single degree)

/-! ## Bounds on the amounts -/

section Bounds

variable {s s' : State}

theorem book_le_degree (s : State) (bucket : Bucket) : s.book bucket ≤ degree s.book :=
  Finsupp.le_degree bucket s.book

/-- Two buckets hold no more than the whole book. -/
theorem book_add_le_degree (s : State) {first second : Bucket} (distinct : first ≠ second) :
    s.book first + s.book second ≤ degree s.book := by
  have parts : single first (s.book first) + single second (s.book second) ≤ s.book := by
    intro bucket
    simp only [Finsupp.add_apply, Finsupp.single_apply]
    split <;> split <;> simp_all
  simpa using Finsupp.degree_mono parts

/-- The ceiling of every known task has been minted. -/
def Affordable (s : State) : Prop :=
  ∀ (task : TaskId) (body : TaskBody), s.bodies[task]? = some body →
    body.limits.maxUcu.toNat ≤ s.supply.minted.toNat

theorem Affordable.kept (affordable : Affordable s) (bodies_eq : s'.bodies = s.bodies)
    (grown : s.supply.minted.toNat ≤ s'.supply.minted.toNat) : Affordable s' := by
  intro task body found
  rw [bodies_eq] at found
  exact (affordable task body found).trans grown

theorem Becomes.affordable {records : Records} {minted : ℕ} {debits credits : Bucket →₀ ℕ}
    (becomes : Becomes s records minted debits credits s') (bodies_eq : records.bodies = s.bodies)
    (affordable : Affordable s) : Affordable s' := by
  refine affordable.kept ?_ ?_
  · exact (congrArg Records.bodies becomes.records).trans bodies_eq
  · rw [becomes.minted]
    exact Nat.le_add_right _ _

theorem Moves.affordable {debits credits : Bucket →₀ ℕ} (moves : Moves s debits credits s')
    (affordable : Affordable s) : Affordable s' := by
  refine affordable.kept (congrArg Records.bodies moves.records) ?_
  rw [moves.minted]

variable [Crypto]

/-- A new ceiling is covered by the balance of its requester. -/
theorem Submits.affordable {requester : Identity} {body : TaskBody} {params : Params}
    {task : TaskId} {fee : Ucu} (submits : Submits s requester body params task fee s')
    (conserved : Conserved s) (affordable : Affordable s) : Affordable s' := by
  have covered := submits.posts.apply (.balance requester)
  have owned := book_le_degree s (.balance requester)
  have minted := submits.minted
  have bodies_eq : s'.bodies = s.bodies.insert task body :=
    congrArg Records.bodies submits.records
  rw [Conserved] at conserved
  intro probe found found_eq
  rw [bodies_eq, getElem?_insert] at found_eq
  split at found_eq
  · obtain rfl := Option.some.inj found_eq
    simp at covered
    simp at owned
    omega
  · exact (affordable probe found found_eq).trans (by omega)

/-- Every event keeps the ceilings affordable. -/
theorem Event.affordable (conserved : Conserved s) (affordable : Affordable s)
    (event : Event s s') : Affordable s' := by
  cases event with
  | nonce _ _ => exact affordable
  | payload payload =>
      cases payload with
      | submitTask submits => exact submits.affordable conserved affordable
      | claimTask claims => exact claims.affordable rfl affordable
      | submitProof settles => exact settles.affordable rfl affordable
      | challenge opens => exact opens.affordable rfl affordable
      | transfer moves => exact moves.affordable affordable
  | tick _ => exact affordable
  | release releases => exact releases.affordable rfl affordable
  | slash slashes =>
      obtain ⟨moved, penalizes, rfl⟩ := slashes.penalizes
      have afforded : Affordable moved := penalizes.affordable affordable
      exact afforded
  | close _ => exact affordable
  | unlock moves => exact moves.affordable affordable
  | forfeit moves => exact moves.affordable affordable

theorem Reachable.affordable (reachable : Reachable s) : Affordable s := by
  have carried := reachable.invariant (fun state => Conserved state ∧ Affordable state)
    (fun {start epoch} genesis => by
      have bodies_eq : start.bodies = ∅ := congrArg Records.bodies genesis.records
      refine ⟨genesis.minted, fun task body found => ?_⟩
      simp [bodies_eq] at found)
    fun held event => ⟨event.conserved held.1, event.affordable held.1 held.2⟩
  exact carried.2

end Bounds

/-! ## Parameters in range -/

section Parameters

variable {fault : Fault} {amount rate : Ucu} {sp : Sp}

theorem ppmOf_in_range (fits : amount.toNat * rate.toNat < 2 ^ 128) :
    Avoids fault (ppmOf amount rate) :=
  fun failed => fits.not_ge (ppmOf_eq_error failed).2

/-- A rate of at most a million takes a bounded amount to a product in range. -/
theorem ppmOf_bounded (bounded : amount.toNat ≤ 2 ^ 96) (rated : rate.toNat ≤ 2 ^ 20) :
    Avoids fault (ppmOf amount rate) := by
  refine ppmOf_in_range ?_
  calc
    amount.toNat * rate.toNat ≤ 2 ^ 96 * 2 ^ 20 := Nat.mul_le_mul bounded rated
    _ < 2 ^ 128 := by norm_num

theorem ppmOf_le {result : Ucu} (computed : ppmOf amount rate = .ok result)
    (rated : rate.toNat ≤ 1000000) : result.toNat ≤ amount.toNat := by
  rw [(ppmOf_eq_ok.mp computed).2]
  refine Nat.div_le_of_le_mul ?_
  rw [mul_comm 1000000]
  exact Nat.mul_le_mul_left _ rated

theorem standingAccrual_in_range (bounded : amount.toNat ≤ 2 ^ 96) :
    Avoids fault (Params.devnet.standingAccrual amount Params.devnet.efficiencyMultPpm) := by
  have first : Avoids fault (ppmOf amount Params.devnet.spRatePpm) :=
    ppmOf_bounded bounded (by decide)
  simp only [Params.standingAccrual, Checked.avoids_bind, first, true_and]
  intro base base_eq
  exact ppmOf_bounded ((ppmOf_le base_eq (by decide)).trans bounded) (by decide)

theorem standingAccrual_le {delta : Sp}
    (accrued : Params.devnet.standingAccrual amount Params.devnet.efficiencyMultPpm = .ok delta) :
    delta.toNat ≤ amount.toNat := by
  obtain ⟨base, base_eq, delta_eq⟩ := Checked.bind_eq_ok.mp accrued
  exact (ppmOf_le delta_eq (by decide)).trans (ppmOf_le base_eq (by decide))

theorem toNat_le_of_toInt_le (nonnegative : ¬sp.toInt < 0) (bounded : sp.toInt ≤ 2 ^ 96) :
    sp.toNat ≤ 2 ^ 96 := by
  have small := sp.isLt
  rw [BitVec.toInt_eq_toNat_cond] at nonnegative bounded
  split at bounded <;> omega

theorem discountReductionPpm_in_range (standing : sp.toInt ≤ 2 ^ 96) :
    Avoids fault (Params.devnet.discountReductionPpm sp) := by
  have spPos_le : (if sp.toInt < 0 then 0 else sp : Ucu).toNat ≤ 2 ^ 96 := by
    split
    · simp
    · exact toNat_le_of_toInt_le ‹_› standing
  have positive : ¬Params.devnet.spRef.toInt ≤ 0 := by decide
  simp only [Params.discountReductionPpm, if_neg positive, Checked.avoids_bind,
    Checked.avoids_pure, implies_true, and_true]
  refine ⟨avoids_mul_of_lt ?_, fun _ _ => avoids_div_of_ne (by decide)⟩
  rw [ppm_toNat]
  omega

theorem discountReductionPpm_le {reduction : Ucu}
    (reduced : Params.devnet.discountReductionPpm sp = .ok reduction) :
    reduction.toNat ≤ 800000 := by
  have positive : ¬Params.devnet.spRef.toInt ≤ 0 := by decide
  simp only [Params.discountReductionPpm, if_neg positive, Checked.bind_eq_ok,
    Checked.pure_eq_ok] at reduced
  obtain ⟨_, _, quotient, _, rfl⟩ := reduced
  rw [Checked.toNat_lesser]
  exact min_le_right _ _

theorem claimStake_in_range (bounded : amount.toNat ≤ 2 ^ 96) (standing : sp.toInt ≤ 2 ^ 96) :
    Avoids fault (Params.devnet.claimStake amount sp) := by
  simp only [Params.claimStake, Checked.avoids_bind]
  refine ⟨ppmOf_bounded bounded (by decide), fun base base_eq =>
    ⟨discountReductionPpm_in_range standing, fun reduction reduced => ?_⟩⟩
  have capped := discountReductionPpm_le reduced
  refine ⟨avoids_sub_of_le (by rw [ppm_toNat]; omega), fun kept kept_eq => ?_⟩
  have remaining := Checked.sub_eq_ok.mp kept_eq
  rw [ppm_toNat] at remaining
  exact ppmOf_bounded ((ppmOf_le base_eq (by decide)).trans bounded) (by omega)

end Parameters

/-! ## Movements in range -/

namespace State

variable {s : State} {id : Identity} {amount : Ucu} {fault : Fault}

theorem credit_in_range (fits : degree s.book + amount.toNat < 2 ^ 128) :
    Avoids fault (s.credit id amount) := by
  have owned := book_le_degree s (.balance id)
  rw [book_balance] at owned
  simp only [credit, Checked.avoids_bind, Checked.avoids_pure, implies_true, and_true]
  exact avoids_add_of_lt (by omega)

theorem creditPool_in_range (fits : degree s.book + amount.toNat < 2 ^ 128) :
    Avoids fault (s.creditPool amount) := by
  have pooled := book_le_degree s .pool
  rw [book_pool] at pooled
  simp only [creditPool, Checked.avoids_bind, Checked.avoids_pure, implies_true, and_true]
  exact avoids_add_of_lt (by omega)

theorem escrow_in_range (bounded : degree s.book < 2 ^ 128)
    (covered : amount.toNat ≤ (s.acct id).balance.toNat) : Avoids fault (s.escrow id amount) := by
  have owned := book_add_le_degree s (show Bucket.balance id ≠ .escrowed id by simp)
  rw [book_balance, book_escrowed] at owned
  simp only [escrow, Checked.avoids_bind, Checked.avoids_pure, implies_true, and_true]
  exact ⟨avoids_sub_of_le covered, fun _ _ => avoids_add_of_lt (by omega)⟩

theorem lock_in_range (bounded : degree s.book < 2 ^ 128)
    (covered : amount.toNat ≤ (s.acct id).balance.toNat) : Avoids fault (s.lock id amount) := by
  have owned := book_add_le_degree s (show Bucket.balance id ≠ .bonded id by simp)
  rw [book_balance, book_bonded] at owned
  simp only [lock, Checked.avoids_bind, Checked.avoids_pure, implies_true, and_true]
  exact ⟨avoids_sub_of_le covered, fun _ _ => avoids_add_of_lt (by omega)⟩

theorem drainEscrow_in_range {maxUcu fee u : Ucu} (bounded : degree s.book < 2 ^ 128)
    (covered : maxUcu.toNat + fee.toNat ≤ (s.acct id).escrowed.toNat)
    (within : u.toNat ≤ maxUcu.toNat) : Avoids fault (s.drainEscrow id maxUcu fee u) := by
  have owned := book_add_le_degree s (show Bucket.balance id ≠ .escrowed id by simp)
  rw [book_balance, book_escrowed] at owned
  simp only [drainEscrow, Checked.avoids_bind, Checked.avoids_pure, implies_true, and_true]
  refine ⟨avoids_add_of_lt (by omega), fun drained drained_eq => ?_⟩
  rw [Checked.add_eq_ok] at drained_eq
  refine ⟨avoids_sub_of_le (by omega), fun _ _ =>
    ⟨avoids_sub_of_le within, fun refund refund_eq => ?_⟩⟩
  rw [Checked.sub_eq_ok] at refund_eq
  exact avoids_add_of_lt (by omega)

theorem sadd_in_range {sp delta : Sp} (standing : sp.toInt ≤ 2 ^ 96)
    (bounded : delta.toNat ≤ 2 ^ 96) : Avoids fault (Checked.sadd sp delta) := by
  have delta_eq : delta.toInt = delta.toNat := BitVec.toInt_eq_toNat_of_lt (by omega)
  have least := BitVec.le_toInt sp
  exact avoids_sadd_of_lt (by omega) (by omega)

theorem standingRecord_sp (s : State) (id : Identity) :
    (s.standingRecord id).sp = s.standingOf id := by
  rw [standingRecord, standingOf]
  cases s.standing[id]? <;> rfl

end State

/-! ## Transitions in range -/

/-- The supply, the Standings and the epoch are far from the ends of their types. -/
structure Bounded (s : State) : Prop where
  minted : s.supply.minted.toNat ≤ 2 ^ 96
  standing : ∀ id, (s.standingOf id).toInt ≤ 2 ^ 96
  epoch : s.epoch.toNat ≤ 2 ^ 63

/-- A bounded state, every nonce of which can be counted on. -/
structure InRange (s : State) : Prop extends Bounded s where
  nonces : ∀ (id : Identity) (nonce : BitVec 64), s.nonces[id]? = some nonce →
    nonce.toNat < 2 ^ 64 - 1

/-- A state is in range when its entries are. -/
theorem inRange_iff {s : State} :
    InRange s ↔ s.supply.minted.toNat ≤ 2 ^ 96 ∧ s.epoch.toNat ≤ 2 ^ 63 ∧
      (∀ entry ∈ s.standing.toList, entry.2.sp.toInt ≤ 2 ^ 96) ∧
      ∀ entry ∈ s.nonces.toList, entry.2.toNat < 2 ^ 64 - 1 := by
  constructor
  · rintro ⟨⟨minted, standing, epoch⟩, nonces⟩
    refine ⟨minted, epoch, fun entry member => ?_, fun entry member => ?_⟩
    · have found := ExtTreeMap.mem_toList_iff_getElem?_eq_some.mp member
      have bounded := standing entry.1
      rwa [State.standingOf, found] at bounded
    · exact nonces _ _ (ExtTreeMap.mem_toList_iff_getElem?_eq_some.mp member)
  · rintro ⟨minted, epoch, standing, nonces⟩
    refine ⟨⟨minted, fun id => ?_, epoch⟩, fun id nonce found => ?_⟩
    · rw [State.standingOf]
      cases found : s.standing[id]? with
      | none => simp
      | some record =>
          exact standing (id, record) (ExtTreeMap.mem_toList_iff_getElem?_eq_some.mpr found)
    · exact nonces (id, nonce) (ExtTreeMap.mem_toList_iff_getElem?_eq_some.mpr found)

instance (s : State) : Decidable (InRange s) := decidable_of_iff _ inRange_iff.symm

namespace State

variable {s : State} {fault : Fault}

/-- A covered settlement avoids every fault which its issuance and its accrual avoid. -/
theorem settle_avoids {body : TaskBody} {sub : Submission} {proof : ComputeProof} {params : Params}
    (conserved : Conserved s) (found : proof.task ∈ s.tasks)
    (covered : body.limits.maxUcu.toNat + sub.fee.toNat ≤ (s.acct sub.requester).escrowed.toNat)
    (within : proof.ucuCount.toNat ≤ body.limits.maxUcu.toNat)
    (issuance : Checked.Avoids fault (params.issuance proof.ucuCount))
    (issues : ∀ w, params.issuance proof.ucuCount = .ok w →
      s.supply.minted.toNat + w.toNat < 2 ^ 128)
    (accrual : Checked.Avoids fault
      (params.standingAccrual proof.ucuCount params.efficiencyMultPpm))
    (accrues : ∀ delta,
      params.standingAccrual proof.ucuCount params.efficiencyMultPpm = .ok delta →
      Checked.Avoids fault (Checked.sadd (s.standingOf proof.provider) delta))
    (window : s.epoch.toNat + params.clawbackEpochs.toNat < 2 ^ 64) :
    Checked.Avoids fault (s.settle body sub proof params) := by
  have held := book_le_degree s (.escrowed sub.requester)
  have minted := s.supply.minted.isLt
  rw [book_escrowed] at held
  rw [Conserved] at conserved
  simp only [settle, Checked.avoids_bind, Checked.avoids_pure, implies_true, and_true]
  refine ⟨drainEscrow_in_range (by omega) covered within, fun drained drain_eq => ?_⟩
  have drain := (drainEscrow_moves drain_eq).2
  have drain_degree := drain.posts.degree
  simp only [Finsupp.degree_single] at drain_degree
  refine ⟨creditPool_in_range (by omega), fun pooled pool_eq => ?_⟩
  have pool := creditPool_moves pool_eq
  have pool_degree := pool.posts.degree
  simp only [map_zero, Finsupp.degree_single] at pool_degree
  refine ⟨credit_in_range (by omega), fun paid paid_eq => ?_⟩
  have pay := credit_moves paid_eq
  have pay_degree := pay.posts.degree
  simp only [map_zero, Finsupp.degree_single] at pay_degree
  refine ⟨issuance, fun w w_eq => ?_⟩
  have w_fits := issues w w_eq
  refine ⟨credit_in_range (by omega), fun issued issued_eq => ?_⟩
  have moves := drain.trans pool |>.trans pay |>.trans (credit_moves issued_eq)
  obtain ⟨accounts, supply, feePool, rfl⟩ := moves.exists_funds
  have minted_eq : supply.minted = s.supply.minted := moves.minted
  refine ⟨?_, fun counted counted_eq => ?_⟩
  · simp only [countMinted, Checked.avoids_bind, Checked.avoids_pure, implies_true, and_true]
    exact avoids_add_of_lt (by rw [minted_eq]; omega)
  obtain ⟨_, _, rfl⟩ := countMinted_eq_ok.mp counted_eq
  refine ⟨accrual, fun delta delta_eq => ⟨?_, fun accrued accrued_eq => ?_⟩⟩
  · simp only [accrue, Checked.avoids_bind, Checked.avoids_pure, implies_true, and_true]
    rw [standingRecord_sp]
    exact accrues delta delta_eq
  obtain ⟨_, _, rfl⟩ := accrue_eq_ok.mp accrued_eq
  refine ⟨avoids_add_of_lt window, fun clawbackUntil _ => ?_⟩
  obtain ⟨known, known_eq⟩ := (mem_iff_exists s.tasks proof.task).mp found
  change Checked.Avoids fault (Checked.expect s.tasks[proof.task]?)
  rw [known_eq]
  exact avoids_ok

/-- A covered settlement stays in range at every step. -/
theorem settle_in_range {body : TaskBody} {sub : Submission} {proof : ComputeProof}
    (conserved : Conserved s) (range : Bounded s) (found : proof.task ∈ s.tasks)
    (covered : body.limits.maxUcu.toNat + sub.fee.toNat ≤ (s.acct sub.requester).escrowed.toNat)
    (within : proof.ucuCount.toNat ≤ body.limits.maxUcu.toNat) :
    Checked.Avoids fault (s.settle body sub proof .devnet) := by
  have held := book_le_degree s (.escrowed sub.requester)
  have minted := range.minted
  have epoch := range.epoch
  rw [book_escrowed, conserved] at held
  have counted : proof.ucuCount.toNat ≤ 2 ^ 96 := by omega
  refine settle_avoids conserved found covered within (ppmOf_bounded counted (by decide))
    (fun w w_eq => ?_) (standingAccrual_in_range counted) (fun delta delta_eq => ?_) ?_
  · have w_le := ppmOf_le w_eq (by decide)
    omega
  · exact sadd_in_range (range.standing proof.provider)
      ((standingAccrual_le delta_eq).trans counted)
  · have window : Params.devnet.clawbackEpochs.toNat = 32 := rfl
    omega

end State

/-- The invariants which bound the amounts of a transaction. -/
structure Solvent [Crypto] (s : State) : Prop where
  conserved : Conserved s
  escrowed : EscrowExact s
  affordable : Affordable s
  phases : InPhase s

theorem Reachable.solvent [Crypto] {s : State} (reachable : Reachable s) : Solvent s :=
  ⟨reachable.conserved, reachable.escrowExact, reachable.affordable, reachable.inPhase⟩

section Transitions

variable [Crypto] {s : State} {fault : Fault}

theorem taskId_total (body : TaskBody) : ∃ task, body.taskId = .ok task :=
  ⟨_, hashCanonical_eq_ok.mpr ⟨rfl, rfl⟩⟩

theorem Solvent.degree_le (solvent : Solvent s) (range : Bounded s) :
    degree s.book ≤ 2 ^ 96 := by
  rw [solvent.conserved]
  exact range.minted

/-- Every ceiling on the ledger is in range. -/
theorem Solvent.ceiling_le (solvent : Solvent s) (range : Bounded s) {task : TaskId}
    {body : TaskBody} (found : s.bodies[task]? = some body) :
    body.limits.maxUcu.toNat ≤ 2 ^ 96 :=
  (solvent.affordable task body found).trans range.minted

namespace State

theorem submitTask_in_range (solvent : Solvent s) (range : Bounded s) {requester : Identity}
    {body : TaskBody} (ceiling : body.limits.maxUcu.toNat * 1000 < 2 ^ 128) :
    (s.submitTask requester body .devnet).Avoids fault := by
  obtain ⟨task, taskId⟩ := taskId_total body
  have bounded := solvent.degree_le range
  simp only [submitTask, Outcome.avoids_bind, Outcome.avoids_rejectIf, Outcome.avoids_lift,
    Outcome.avoids_okOr, Outcome.avoids_pure, returns_rejectIf, taskId, avoids_ok, implies_true,
    true_and, and_true]
  intro _ _ task _ _ _
  refine ⟨ppmOf_in_range ceiling, fun fee _ need _ _ unrefused => ?_⟩
  exact escrow_in_range (by omega) (BitVec.le_def.mp (BitVec.not_lt.mp unrefused))

theorem claimTask_in_range (solvent : Solvent s) (range : Bounded s) {provider : Identity}
    {task : TaskId} : (s.claimTask provider task .devnet).Avoids fault := by
  have bounded := solvent.degree_le range
  simp only [claimTask, Outcome.avoids_bind, Outcome.avoids_rejectIf, Outcome.avoids_lift,
    Outcome.avoids_okOr, Outcome.avoids_pure, returns_rejectIf, returns_okOr, implies_true,
    true_and, and_true]
  intro body body_eq sub sub_eq _ _ _ _
  refine ⟨claimStake_in_range (solvent.ceiling_le range body_eq) (range.standing provider),
    fun stake _ _ unrefused => ?_⟩
  refine ⟨lock_in_range (by omega) (BitVec.le_def.mp (BitVec.not_lt.mp unrefused)),
    fun moved locked => ?_⟩
  obtain ⟨accounts, supply, feePool, rfl⟩ := (lock_moves (returns_lift.mp locked)).exists_funds
  rw [sub_eq]
  exact avoids_ok

theorem submitProof_in_range (solvent : Solvent s) (range : Bounded s) {author : Identity}
    {proof : ComputeProof} : (s.submitProof author proof .devnet).Avoids fault := by
  simp only [submitProof, Outcome.avoids_bind, Outcome.avoids_rejectIf, Outcome.avoids_lift,
    Outcome.avoids_okOr, returns_rejectIf, returns_okOr, returns_lift, not_not, true_and]
  intro body body_eq sub sub_eq _ executing _ _ _ within _ _
  rw [sub_eq]
  refine ⟨avoids_ok, fun verified _ => ?_⟩
  have covered := solvent.escrowed.covered body_eq sub_eq (.inr executing)
  have proven : Bounded { s with
      proofs := s.proofs.insert proof.task proof
      tasks := s.tasks.insert proof.task
        { verified with status := .verified, ucuCount := proof.ucuCount } } := { range with }
  exact settle_in_range (s := { s with
      proofs := s.proofs.insert proof.task proof
      tasks := s.tasks.insert proof.task
        { verified with status := .verified, ucuCount := proof.ucuCount } })
    solvent.conserved proven ExtTreeMap.mem_insert_self covered
    (BitVec.le_def.mp (BitVec.not_lt.mp within))

theorem openChallenge_in_range (solvent : Solvent s) (range : Bounded s) {challenger : Identity}
    {task : TaskId} {bond : Ucu} :
    (s.openChallenge challenger task bond .devnet).Avoids fault := by
  have bounded := solvent.degree_le range
  simp only [openChallenge, Outcome.avoids_bind, Outcome.avoids_rejectIf, Outcome.avoids_lift,
    Outcome.avoids_okOr, Outcome.avoids_pure, returns_rejectIf, returns_okOr, implies_true,
    true_and, and_true]
  intro receipt receipt_eq sub sub_eq _ _ _ _ _ _
  obtain ⟨body, _, proof, _, body_eq, _, _, _, agrees⟩ :=
    (solvent.phases task).agreement receipt_eq
  have paid_le : receipt.paidToProvider.toNat ≤ 2 ^ 96 := by
    rw [agrees.paid]
    exact agrees.within.trans (solvent.ceiling_le range body_eq)
  refine ⟨ppmOf_bounded paid_le (by decide), fun bondMin _ _ _ _ unrefused => ?_⟩
  exact lock_in_range (by omega) (BitVec.le_def.mp (BitVec.not_lt.mp unrefused))

theorem transfer_in_range (solvent : Solvent s) (range : Bounded s) {sender recipient : Identity}
    {amount : Ucu} : (s.transfer sender recipient amount).Avoids fault := by
  have bounded := solvent.degree_le range
  simp only [transfer, Outcome.avoids_bind, Outcome.avoids_rejectIf, Outcome.avoids_lift,
    returns_rejectIf, returns_lift, true_and]
  intro _ unrefused
  refine ⟨avoids_sub_of_le (BitVec.le_def.mp (BitVec.not_lt.mp unrefused)),
    fun balance balance_eq => ?_⟩
  have posted := (debit_moves (Checked.sub_eq_ok.mp balance_eq)).posts.degree
  simp only [map_zero, Finsupp.degree_single] at posted
  exact credit_in_range (by omega)

/-- A transaction on a solvent state in range can fail to encode, and only the fee of a new task can
leave its type. -/
theorem apply_in_range (solvent : Solvent s) (range : InRange s) {stx : SignedTx}
    (encoding : fault ≠ .encoding)
    (ceiling : ∀ body, stx.tx = .submitTask body → body.limits.maxUcu.toNat * 1000 < 2 ^ 128) :
    (s.apply stx .devnet).Avoids fault := by
  have counted : Checked.Avoids fault (Checked.add ((s.nonces[stx.author]?).getD 0) 1) := by
    refine avoids_add_of_lt ?_
    cases found : s.nonces[stx.author]? with
    | none => simp
    | some nonce =>
        have room := range.nonces stx.author nonce found
        change nonce.toNat + 1 < 2 ^ 64
        omega
  simp only [apply, checkAndBumpNonce, Outcome.avoids_bind, Outcome.avoids_rejectIf,
    Outcome.avoids_lift, Outcome.avoids_pure, returns_bind, returns_rejectIf, returns_lift,
    returns_pure, verifySig_avoids encoding, counted, implies_true, true_and, and_true]
  rintro _ _ _ _ bumped ⟨_, _, next, _, rfl⟩
  have held : Solvent { s with nonces := s.nonces.insert stx.author next } := { solvent with }
  have bounded : Bounded { s with nonces := s.nonces.insert stx.author next } :=
    { range.toBounded with }
  cases kind : stx.tx with
  | submitTask body => exact submitTask_in_range held bounded (ceiling body kind)
  | claimTask task => exact claimTask_in_range held bounded
  | submitProof proof => exact submitProof_in_range held bounded
  | challenge task bond => exact openChallenge_in_range held bounded
  | transfer recipient amount => exact transfer_in_range held bounded

end State

end Transitions

end Ducp
