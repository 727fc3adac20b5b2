import Ducp.Library.Fade
import Ducp.Ledger.Arithmetic
import Ducp.Ledger.Stakes

/-!
# Standing is earned and decays

A Standing never falls below zero and never exceeds what the receipts of its provider have accrued.
Only a settlement raises it, every record carries the stamp of the current epoch, and every epoch
boundary takes a part off it.
-/

namespace Ducp

open Checked DoubleEntry MapSum Outcome Std
open Finsupp (single)

/-! ## Decay -/

namespace Params

variable {params : Params} {sp result : Sp}

theorem decayRate_toInt (bounded : params.decayRatePpm.toNat ≤ 1000000) :
    params.decayRatePpm.toInt = params.decayRatePpm.toNat :=
  BitVec.toInt_eq_toNat_of_lt (by omega)

theorem ppm_toInt : ppm.toInt = 1000000 := by decide

/-- Decay keeps the part which the rate leaves, rounded down. -/
theorem decay_eq_ok (bounded : params.decayRatePpm.toNat ≤ 1000000) (nonneg : 0 ≤ sp.toInt)
    (decayed : params.decay sp = .ok result) :
    result.toInt = (sp.toInt.toNat * (1000000 - params.decayRatePpm.toNat) / 1000000 : ℕ) := by
  simp only [decay, Checked.bind_eq_ok, ssub_eq_ok, smul_eq_ok, ppm_toInt,
    decayRate_toInt bounded] at decayed
  obtain ⟨kept, kept_eq, product, product_eq, divided⟩ := decayed
  obtain ⟨quotient, quotient_eq, truncated⟩ := exists_sdiv product (by rw [ppm_toInt]; decide)
  obtain rfl := Except.ok.inj (quotient_eq.symm.trans divided)
  have exact_product : product.toInt =
      (sp.toInt.toNat * (1000000 - params.decayRatePpm.toNat) : ℕ) := by
    rw [product_eq, kept_eq, Nat.cast_mul, Int.toNat_of_nonneg nonneg, Nat.cast_sub bounded]
    rfl
  rw [truncated, exact_product, ppm_toInt]
  exact (Int.ofNat_tdiv _ 1000000).symm

/-- A decay whose product fits its type is computed. -/
theorem exists_decay (bounded : params.decayRatePpm.toNat ≤ 1000000) (nonneg : 0 ≤ sp.toInt)
    (fits : sp.toInt * (1000000 - params.decayRatePpm.toNat) < 2 ^ 127) :
    ∃ result, params.decay sp = .ok result := by
  obtain ⟨kept, kept_eq, kept_toInt⟩ : ∃ kept, ssub ppm params.decayRatePpm = .ok kept ∧ _ :=
    exists_ssub (by rw [ppm_toInt, decayRate_toInt bounded]; omega)
      (by rw [ppm_toInt, decayRate_toInt bounded]; omega)
  rw [ppm_toInt, decayRate_toInt bounded] at kept_toInt
  have least : 0 ≤ sp.toInt * kept.toInt := Int.mul_nonneg nonneg (by omega)
  obtain ⟨product, product_eq, _⟩ : ∃ product, smul sp kept = .ok product ∧ _ :=
    exists_smul (by omega) (by rw [kept_toInt]; exact fits)
  obtain ⟨result, result_eq, _⟩ := exists_sdiv product (by rw [ppm_toInt]; decide)
  refine ⟨result, ?_⟩
  simp only [decay, Checked.bind_eq_ok]
  exact ⟨kept, kept_eq, product, product_eq, result_eq⟩

/-- An accrual is a part of a product which fits 128 bits, so that its cast keeps the sign. -/
theorem standingAccrual_nonneg {u efficiencyMultPpm : Ucu} {delta : Sp}
    (accrual : params.standingAccrual u efficiencyMultPpm = .ok delta) :
    delta.toInt = delta.toNat := by
  simp only [standingAccrual, Checked.bind_eq_ok, ppmOf_eq_ok] at accrual
  obtain ⟨base, _, fits, quotient⟩ := accrual
  exact BitVec.toInt_eq_toNat_of_lt (by omega)

end Params

namespace State

variable {s s' : State} {params : Params} {id : Identity}

/-- The Standing of an identity as a number. -/
def points (s : State) (id : Identity) : ℤ := (s.standingOf id).toInt

theorem points_congr (standing_eq : s'.standing = s.standing) : s'.points id = s.points id := by
  rw [points, standingOf, standing_eq]
  rfl

theorem points_insert {owner : Identity} {record : StandingRecord}
    (standing_eq : s'.standing = s.standing.insert owner record) :
    s'.points id = if id = owner then record.sp.toInt else s.points id := by
  rw [points, standingOf, standing_eq, getElem?_insert]
  split <;> rfl

/-- Decaying the Standings rewrites every record once, and adds none. -/
theorem decayStanding_getElem? (decayed : s.decayStanding params = .ok s') (id : Identity) :
    (s.standing[id]? = none → s'.standing[id]? = none) ∧
      ∀ record, s.standing[id]? = some record → ∃ sp, params.decay record.sp = .ok sp ∧
        s'.standing[id]? = some { record with sp, lastDecayEpoch := s.epoch } := by
  simp only [decayStanding, Checked.bind_eq_ok, Checked.pure_eq_ok] at decayed
  obtain ⟨standing, folded, rfl⟩ := decayed
  have run := (Run.of_foldlM folded).mono fun entry member before after decays =>
    And.intro member decays
  -- The records rewritten so far are those of the entries passed so far.
  have passed := run.traced (fun labels records =>
    (id ∉ labels.map Prod.fst → records[id]? = s.standing[id]?) ∧
      (id ∈ labels.map Prod.fst → ∃ record sp, s.standing[id]? = some record ∧
        params.decay record.sp = .ok sp ∧
        records[id]? = some { record with sp, lastDecayEpoch := s.epoch }))
    (by simp) (by
      rintro labels before ⟨owner, record⟩ after ⟨kept, rewritten⟩ ⟨member, decays⟩
      simp only [Checked.bind_eq_ok, Checked.pure_eq_ok] at decays
      obtain ⟨sp, sp_eq, rfl⟩ := decays
      have found := ExtTreeMap.mem_toList_iff_getElem?_eq_some.mp member
      simp only [List.map_append, List.map_cons, List.map_nil, List.mem_append,
        List.mem_singleton, getElem?_insert, not_or]
      by_cases same : id = owner
      · subst same
        simp only [if_true]
        exact ⟨fun apart => (apart.2 trivial).elim, fun _ => ⟨record, sp, found, sp_eq, rfl⟩⟩
      · simp only [same, if_false, or_false, not_false_eq_true, and_true]
        exact ⟨kept, rewritten⟩)
  have listed : id ∈ s.standing.toList.map Prod.fst ↔ id ∈ s.standing := by
    rw [ExtTreeMap.map_fst_toList_eq_keys, ExtTreeMap.mem_keys]
  constructor
  · intro absent
    have unlisted : id ∉ s.standing.toList.map Prod.fst := by
      rwa [listed, notMem_iff_eq_none]
    rw [passed.1 unlisted, absent]
  · intro record found
    obtain ⟨old, sp, old_eq, sp_eq, rewritten⟩ :=
      passed.2 (listed.mpr ((mem_iff_exists _ _).mpr ⟨record, found⟩))
    obtain rfl : record = old := Option.some.inj (found.symm.trans old_eq)
    exact ⟨sp, sp_eq, rewritten⟩

end State

/-! ## The invariant -/

/-- What a settled task has accrued to its provider. -/
def View.accrued (id : Identity) (view : View) : ℕ :=
  view.sub.elim 0 fun sub => view.receipt.elim 0 fun receipt =>
    if sub.provider = some id then receipt.standingDelta.toNat else 0

theorem View.accrued_unknown (id : Identity) (view : View) (unknown : view.sub = none) :
    view.accrued id = 0 := by
  simp [accrued, unknown]

/-- Every Standing is non-negative and accounted for by receipts. -/
structure Reputed (s : State) : Prop where
  nonneg : ∀ id, 0 ≤ s.points id
  earned : ∀ id, s.points id ≤ viewTotal (View.accrued id) s
  accruals : ∀ (task : TaskId) (receipt : Receipt), s.receipts[task]? = some receipt →
    receipt.standingDelta.toInt = receipt.standingDelta.toNat

/-- Every Standing record is stamped with the epoch. -/
def Stamped (s : State) : Prop :=
  ∀ (id : Identity) (record : StandingRecord), s.standing[id]? = some record →
    record.lastDecayEpoch = s.epoch

section Steps

variable {s s' : State} {params : Params} {id : Identity}

/-- An event which touches neither the Standings nor the receipts. -/
theorem Reputed.kept (reputed : Reputed s) (standing_eq : s'.standing = s.standing)
    (receipts_eq : s'.receipts = s.receipts)
    (accrued : ∀ id, viewTotal (View.accrued id) s' = viewTotal (View.accrued id) s) :
    Reputed s' where
  nonneg id := by
    rw [State.points_congr standing_eq]
    exact reputed.nonneg id
  earned id := by
    rw [State.points_congr standing_eq, accrued]
    exact reputed.earned id
  accruals task receipt found := by
    rw [receipts_eq] at found
    exact reputed.accruals task receipt found

/-- An event which rewrites one view, but not what its task has accrued. -/
theorem accrued_update {task : TaskId} {view : View}
    (views : ∀ probe, s'.view probe = if probe = task then view else s.view probe)
    (same : ∀ id, view.accrued id = (s.view task).accrued id) (id : Identity) :
    viewTotal (View.accrued id) s' = viewTotal (View.accrued id) s := by
  have moved := viewTotal_update (View.accrued_unknown id) views
  rw [same] at moved
  exact Nat.add_right_cancel moved

theorem accrued_unchanged (views : ∀ probe, s'.view probe = s.view probe) (id : Identity) :
    viewTotal (View.accrued id) s' = viewTotal (View.accrued id) s :=
  viewTotal_unchanged (View.accrued_unknown id) fun probe => by rw [views]

theorem Moves.reputed {debits credits : Bucket →₀ ℕ} (reputed : Reputed s)
    (moves : Moves s debits credits s') : Reputed s' :=
  reputed.kept (congrArg Records.standing moves.records)
    (congrArg Records.receipts moves.records) (accrued_unchanged moves.view)

/-- A settlement accrues to its author what its receipt says. -/
theorem Settles.reputed [Crypto] {author : Identity} {proof : ComputeProof} {body : TaskBody}
    {sub : Submission} {receipt : Receipt} {record : StandingRecord} (reputed : Reputed s)
    (phases : InPhase s) (settles : Settles s author proof params body sub receipt record s') :
    Reputed s' := by
  have standing_eq : s'.standing = s.standing.insert author record :=
    congrArg Records.standing settles.records
  have receipts_eq : s'.receipts = s.receipts.insert proof.task receipt :=
    congrArg Records.receipts settles.records
  have delta := Params.standingAccrual_nonneg settles.accrual
  have sum := sadd_eq_ok.mp settles.accrued
  rw [State.standingRecord_sp, delta] at sum
  have sp_eq : record.sp.toInt = s.points author + receipt.standingDelta.toNat := sum
  obtain ⟨_, _, view_eq, _⟩ := (phases proof.task).of_executing settles.sub_eq settles.executing
  constructor
  · intro id
    have before := reputed.nonneg id
    rw [State.points_insert standing_eq]
    split
    · rename_i same
      subst same
      omega
    · exact before
  · intro id
    have moved := viewTotal_update (View.accrued_unknown id) settles.view
    have before := reputed.earned id
    rw [view_eq] at moved
    simp only [View.accrued, Option.elim_some, Option.elim_none, settles.provider,
      Option.some.injEq] at moved
    rw [State.points_insert standing_eq]
    by_cases same : id = author
    · subst same
      rw [if_pos rfl] at moved ⊢
      omega
    · rw [if_neg (Ne.symm same)] at moved
      rw [if_neg same]
      omega
  · intro task found found_eq
    rw [receipts_eq, getElem?_insert] at found_eq
    split at found_eq
    · obtain rfl := Option.some.inj found_eq
      exact delta
    · exact reputed.accruals task found found_eq

theorem Payload.reputed [Crypto] {author : Identity} {tx : Tx} (reputed : Reputed s)
    (phases : InPhase s) (payload : Payload s author params tx s') : Reputed s' := by
  cases payload with
  | @submitTask body task fee _ submits =>
      refine reputed.kept (congrArg Records.standing submits.records)
        (congrArg Records.receipts submits.records)
        (accrued_update submits.view fun id => ?_)
      rw [(phases task).of_fresh submits.fresh]
      simp [View.accrued]
  | @claimTask task body sub stake _ claims =>
      refine reputed.kept (congrArg Records.standing claims.records)
        (congrArg Records.receipts claims.records)
        (accrued_update claims.view fun id => ?_)
      obtain ⟨body, view_eq, _⟩ := (phases task).of_submitted claims.sub_eq claims.submitted
      rw [view_eq]
      simp [View.accrued]
  | submitProof settles => exact settles.reputed reputed phases
  | challenge opens =>
      exact reputed.kept (congrArg Records.standing opens.records)
        (congrArg Records.receipts opens.records)
        (accrued_update opens.view fun _ => rfl)
  | transfer moves => exact moves.reputed reputed

/-- A conviction floors the Standing of the provider, and no other. -/
theorem Slashes.points_eq {task : TaskId} {rewardTo : Option Identity} {receipt : Receipt}
    {sub : Submission} {provider : Identity} {penalty : Penalty} {record : StandingRecord}
    (slashes : Slashes s task rewardTo params receipt sub provider penalty record s') :
    s'.points id = if id = provider then 0 else s.points id := by
  have floored : record.sp.toInt = 0 := by rw [slashes.floored]; rfl
  obtain ⟨moved, penalizes, rfl⟩ := slashes.penalizes
  rw [State.points_insert rfl, floored]

theorem Slashes.reputed {task : TaskId} {rewardTo : Option Identity} {receipt : Receipt}
    {sub : Submission} {provider : Identity} {penalty : Penalty} {record : StandingRecord}
    (reputed : Reputed s)
    (slashes : Slashes s task rewardTo params receipt sub provider penalty record s') :
    Reputed s' := by
  have points (id : Identity) : s'.points id ≤ s.points id ∧ 0 ≤ s'.points id := by
    have before := reputed.nonneg id
    rw [slashes.points_eq]
    split <;> omega
  have accrued := accrued_update slashes.view fun id => by
    have sub_eq : (s.view task).sub = some sub := slashes.sub_eq
    simp [View.accrued, sub_eq]
  have receipts_eq : s'.receipts = s.receipts := by
    obtain ⟨_, _, _, records⟩ := (Convicts.slash slashes).records_eq
    exact congrArg Records.receipts records
  refine ⟨fun id => (points id).2, fun id => ?_, fun task receipt found => ?_⟩
  · rw [accrued]
    exact (points id).1.trans (reputed.earned id)
  · rw [receipts_eq] at found
    exact reputed.accruals task receipt found

/-- A conviction lowers Standings only. -/
theorem Convicts.reputed {task : TaskId} {rewardTo : Option Identity} (reputed : Reputed s)
    (convicts : Convicts s task rewardTo params s') :
    Reputed s' ∧ ∀ id, s'.points id ≤ s.points id := by
  cases convicts with
  | idle _ => exact ⟨reputed, fun _ => le_rfl⟩
  | slash slashes =>
      refine ⟨slashes.reputed reputed, fun id => ?_⟩
      have before := reputed.nonneg id
      rw [slashes.points_eq]
      split <;> omega

theorem Closes.reputed {task : TaskId} {fraud : Bool} (reputed : Reputed s)
    (closes : Closes s task params fraud s') :
    Reputed s' ∧ ∀ id, s'.points id ≤ s.points id := by
  have closed : Reputed { s with pendingChallenges := s.pendingChallenges.erase task } :=
    reputed.kept rfl rfl (accrued_update (close_view task) fun _ => rfl)
  cases closes with
  | idle _ => exact ⟨reputed, fun _ => le_rfl⟩
  | won _ convicts moves =>
      obtain ⟨convicted, lowered⟩ := convicts.reputed closed
      refine ⟨moves.reputed convicted, fun id => ?_⟩
      rw [State.points_congr (congrArg Records.standing moves.records)]
      exact lowered id
  | lost _ moves =>
      refine ⟨moves.reputed closed, fun id => ?_⟩
      rw [State.points_congr (congrArg Records.standing moves.records)]

/-- An epoch boundary keeps of every Standing what the decay rate leaves, rounded down. -/
theorem State.Advances.points_eq {ticked : State} (advances : State.Advances s params ticked s')
    (bounded : params.decayRatePpm.toNat ≤ 1000000) (nonneg : 0 ≤ s.points id) :
    s'.points id =
      ((s.points id).toNat * (1000000 - params.decayRatePpm.toNat) / 1000000 : ℕ) := by
  obtain ⟨epoch, standing, _, rfl, decayed⟩ := advances.ticks
  have standing_eq : s'.standing = standing := congrArg Records.standing advances.records
  obtain ⟨unknown, known⟩ := State.decayStanding_getElem? decayed id
  cases found : s.standing[id]? with
  | none =>
      have absent : s'.points id = 0 := by
        rw [points, standingOf, standing_eq, unknown found]
        rfl
      have zero : s.points id = 0 := by
        rw [points, standingOf, found]
        rfl
      simp [absent, zero]
  | some record =>
      obtain ⟨sp, sp_eq, rewritten⟩ := known record found
      have before : s.points id = record.sp.toInt := by rw [points, standingOf, found]; rfl
      have after : s'.points id = sp.toInt := by
        rw [points, standingOf, standing_eq, rewritten]
        rfl
      rw [before] at nonneg ⊢
      rw [after]
      exact Params.decay_eq_ok bounded nonneg sp_eq

/-- A Standing fades at every epoch boundary with a positive rate. -/
theorem State.Advances.fades {ticked : State} (advances : State.Advances s params ticked s')
    (rated : 0 < params.decayRatePpm.toNat) (bounded : params.decayRatePpm.toNat ≤ 1000000)
    (nonneg : 0 ≤ s.points id) : Fades 1000000 (s.points id).toNat (s'.points id).toNat := by
  rw [advances.points_eq bounded nonneg, Int.toNat_natCast]
  exact .of_floor rated bounded

theorem State.Advances.reputed {ticked : State} (reputed : Reputed s)
    (advances : State.Advances s params ticked s')
    (bounded : params.decayRatePpm.toNat ≤ 1000000) :
    Reputed s' ∧ ∀ id, s'.points id ≤ s.points id := by
  have lowered (id : Identity) : s'.points id ≤ s.points id := by
    have before := reputed.nonneg id
    have kept : (s.points id).toNat * (1000000 - params.decayRatePpm.toNat) / 1000000 ≤
        (s.points id).toNat :=
      Nat.div_le_of_le_mul (by
        rw [Nat.mul_comm]
        exact Nat.mul_le_mul_right _ (Nat.sub_le _ _))
    rw [advances.points_eq bounded before]
    omega
  have accrued (id : Identity) :
      viewTotal (View.accrued id) s' = viewTotal (View.accrued id) s := by
    obtain ⟨epoch, standing, _, rfl, _⟩ := advances.ticks
    apply advances.run.invariant fun state =>
      viewTotal (View.accrued id) state = viewTotal (View.accrued id) s
    · rfl
    · rintro before stake after same ⟨receipt, sub, releases⟩
      exact (accrued_update releases.view (fun _ => rfl) id).trans same
  refine ⟨⟨fun id => ?_, fun id => ?_, fun task receipt found => ?_⟩, lowered⟩
  · rw [advances.points_eq bounded (reputed.nonneg id)]
    exact Int.natCast_nonneg _
  · rw [accrued]
    exact (lowered id).trans (reputed.earned id)
  · obtain ⟨_, _, _, records⟩ := advances.records_eq
    have receipts_eq : s'.receipts = s.receipts := congrArg Records.receipts records
    rw [receipts_eq] at found
    exact reputed.accruals task receipt found

/-! ## Stamps -/

theorem Stamped.kept (stamped : Stamped s) (standing_eq : s'.standing = s.standing)
    (epoch_eq : s'.epoch = s.epoch) : Stamped s' := by
  intro id record found
  rw [standing_eq] at found
  rw [epoch_eq]
  exact stamped id record found

/-- Rewriting one record keeps its stamp, or gives a fresh one the epoch. -/
theorem Stamped.insert (stamped : Stamped s) {owner : Identity} {record : StandingRecord}
    (standing_eq : s'.standing = s.standing.insert owner record) (epoch_eq : s'.epoch = s.epoch)
    (kept : record.lastDecayEpoch = (s.standingRecord owner).lastDecayEpoch) : Stamped s' := by
  intro id found found_eq
  rw [standing_eq, getElem?_insert] at found_eq
  rw [epoch_eq]
  split at found_eq
  · obtain rfl := Option.some.inj found_eq
    rw [kept, State.standingRecord]
    cases old : s.standing[owner]? with
    | none => rfl
    | some record => exact stamped owner record old
  · exact stamped id found found_eq

theorem Moves.stamped {debits credits : Bucket →₀ ℕ} (stamped : Stamped s)
    (moves : Moves s debits credits s') : Stamped s' :=
  stamped.kept (congrArg Records.standing moves.records) (congrArg Records.epoch moves.records)

/-- A payload rewrites the Standing of its author when it settles, and no other. -/
theorem Payload.standing_cases [Crypto] {author : Identity} {tx : Tx}
    (payload : Payload s author params tx s') :
    s'.standing = s.standing ∨ ∃ proof body sub receipt record, tx = .submitProof proof ∧
      Settles s author proof params body sub receipt record s' := by
  cases payload with
  | submitTask submits => exact .inl (congrArg Records.standing submits.records)
  | claimTask claims => exact .inl (congrArg Records.standing claims.records)
  | submitProof settles => exact .inr ⟨_, _, _, _, _, rfl, settles⟩
  | challenge opens => exact .inl (congrArg Records.standing opens.records)
  | transfer moves => exact .inl (congrArg Records.standing moves.records)

theorem Payload.stamped [Crypto] {author : Identity} {tx : Tx} (stamped : Stamped s)
    (payload : Payload s author params tx s') : Stamped s' := by
  rcases payload.standing_cases with kept | ⟨_, _, _, _, _, _, settles⟩
  · exact stamped.kept kept payload.epoch_eq
  · refine stamped.insert (congrArg Records.standing settles.records) payload.epoch_eq ?_
    rw [settles.kept]

theorem State.Advances.stamped {ticked : State} (advances : State.Advances s params ticked s') :
    Stamped s' := by
  obtain ⟨epoch, standing, _, rfl, decayed⟩ := advances.ticks
  have standing_eq : s'.standing = standing := congrArg Records.standing advances.records
  have epoch_eq : s'.epoch = epoch := congrArg Records.epoch advances.records
  intro id record found
  rw [standing_eq] at found
  obtain ⟨unknown, known⟩ := State.decayStanding_getElem? decayed id
  cases old : s.standing[id]? with
  | none => simp [unknown old] at found
  | some record' =>
      obtain ⟨sp, _, rewritten⟩ := known record' old
      obtain rfl := Option.some.inj (found.symm.trans rewritten)
      exact epoch_eq.symm

/-- The record of a convicted provider keeps its stamp. -/
theorem State.resolveFraud_stamped {task : TaskId} {rewardTo : Option Identity}
    (stamped : Stamped s) (resolved : s.resolveFraud task rewardTo params = .ok s') :
    Stamped s' := by
  rw [resolveFraud] at resolved
  split at resolved
  · obtain rfl := Checked.pure_eq_ok.mp resolved
    exact stamped
  split at resolved
  · simp only [Checked.bind_eq_ok, Checked.expect_eq_ok, strike_eq_ok, Checked.pure_eq_ok]
      at resolved
    obtain ⟨sub, sub_eq, moved, penalized, _, ⟨strikes, _, rfl⟩, rfl⟩ := resolved
    obtain ⟨penalty, penalizes⟩ := penalize_effect penalized
    have fined := penalizes.toMoves.stamped stamped
    obtain ⟨accounts, supply, feePool, rfl⟩ := penalizes.exists_funds
    have marked := fun provider record => markFailed_eq
      (s := { s with accounts, supply, feePool }.setStanding provider record) sub_eq
    rw [marked]
    exact fined.insert rfl rfl rfl
  · obtain rfl := Checked.pure_eq_ok.mp resolved
    exact stamped

theorem State.resolveChallenge_stamped {task : TaskId} {fraud : Bool} (stamped : Stamped s)
    (resolved : s.resolveChallenge task fraud params = .ok s') : Stamped s' := by
  rw [resolveChallenge] at resolved
  split at resolved
  · obtain rfl := Checked.pure_eq_ok.mp resolved
    exact stamped
  · have closed : Stamped { s with pendingChallenges := s.pendingChallenges.erase task } :=
      stamped.kept rfl rfl
    cases fraud with
    | true =>
        simp only [if_true, Checked.bind_eq_ok] at resolved
        obtain ⟨convicted, convicts, unlocked⟩ := resolved
        exact (unlock_moves unlocked).stamped (resolveFraud_stamped closed convicts)
    | false =>
        simp only [Bool.false_eq_true, if_false, Checked.bind_eq_ok, Prod.exists] at resolved
        obtain ⟨taken, forfeited, taken_eq, burned⟩ := resolved
        have moves := (takeBonded_moves taken_eq).2.trans (countBurned_moves burned)
        exact moves.stamped closed

theorem Step.stamped [Crypto] {op : Op} (stamped : Stamped s) (step : Step s op s') :
    Stamped s' := by
  cases op with
  | apply stx params =>
      obtain ⟨_, _, next, _, payload⟩ := State.apply_effect step
      have bumped : Stamped { s with nonces := s.nonces.insert stx.author next } := stamped
      exact payload.stamped bumped
  | advanceEpoch params =>
      obtain ⟨ticked, advances⟩ := State.advanceEpoch_effect (returns_lift.mp step)
      exact advances.stamped
  | resolveFraud task rewardTo params =>
      exact State.resolveFraud_stamped stamped (returns_lift.mp step)
  | resolveChallenge task fraud params =>
      exact State.resolveChallenge_stamped stamped (returns_lift.mp step)

/-! ## Steps -/

/-- The operation settles a proof of the identity. -/
def Op.SettledBy (id : Identity) (op : Op) : Prop :=
  ∃ stx params proof, op = .apply stx params ∧ stx.tx = .submitProof proof ∧ stx.author = id

/-- The decay rate in force takes something, and not more than there is. -/
def Op.Rated (op : Op) : Prop :=
  0 < op.params.decayRatePpm.toNat ∧ op.params.decayRatePpm.toNat ≤ 1000000

/-- An accepted operation keeps every Standing accounted for, and raises none but that of the author
of a settlement. -/
theorem Step.reputed [Crypto] {op : Op} (phases : InPhase s) (reputed : Reputed s)
    (rated : op.Rated) (step : Step s op s') :
    Reputed s' ∧ ∀ id, ¬op.SettledBy id → s'.points id ≤ s.points id := by
  cases step.effect with
  | @apply stx params next _ _ _ _ payload =>
      let bumped : State := { s with nonces := s.nonces.insert stx.author next }
      have counted : Reputed bumped := reputed.kept rfl rfl fun _ => rfl
      have held : InPhase bumped := phases
      refine ⟨payload.reputed counted held, fun id unsettled => ?_⟩
      rcases payload.standing_cases with kept | ⟨proof, _, _, _, _, tx_eq, settles⟩
      · exact (State.points_congr kept).le
      · have other : id ≠ stx.author := fun same =>
          unsettled ⟨stx, params, proof, rfl, tx_eq, same.symm⟩
        rw [State.points_insert (congrArg Records.standing settles.records), if_neg other]
        exact (State.points_congr rfl).le
  | advanceEpoch advances =>
      obtain ⟨kept, lowered⟩ := advances.reputed reputed rated.2
      exact ⟨kept, fun id _ => lowered id⟩
  | resolveFraud convicts =>
      obtain ⟨kept, lowered⟩ := convicts.reputed reputed
      exact ⟨kept, fun id _ => lowered id⟩
  | resolveChallenge closes =>
      obtain ⟨kept, lowered⟩ := closes.reputed reputed
      exact ⟨kept, fun id _ => lowered id⟩

end Steps

end Ducp
