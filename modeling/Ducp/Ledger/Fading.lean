import Ducp.Ledger.Standing

/-!
# Standing runs out

Without a settlement a Standing fades at every epoch boundary, and a hundred and twenty-seven
million of them take any Standing to zero.  Advancing to an epoch is a loop which always gets there.
-/

namespace Ducp

open Checked DoubleEntry MapSum Outcome Std
open Finsupp (single degree)

/-! ## Advancing to an epoch -/

namespace State

/-- The loop of `advanceToEpoch`, with a bound on its iterations. -/
def advanceWhile (target : Epoch) (params : Params) : ℕ → State → Checked State
  | 0, s => return s
  | iterations + 1, s =>
      if s.epoch < target then do
        let s ← s.advanceEpoch params
        advanceWhile target params iterations s
      else
        return s

/-- Cross epoch boundaries until the target.  Every boundary counts one epoch, so that the bound on
the iterations is never what stops the loop. -/
def advanceToEpoch (s : State) (target : Epoch) (params : Params) : Checked State :=
  advanceWhile target params (target.toNat - s.epoch.toNat) s

variable {s s' : State} {target : Epoch} {params : Params}

/-- The loop of the source: test, cross a boundary, repeat. -/
theorem advanceToEpoch_eq (s : State) (target : Epoch) (params : Params) :
    s.advanceToEpoch target params =
      if s.epoch < target then do
        let s ← s.advanceEpoch params
        s.advanceToEpoch target params
      else
        return s := by
  rw [advanceToEpoch]
  cases size : target.toNat - s.epoch.toNat with
  | zero =>
      have reached : ¬s.epoch < target := by
        rw [BitVec.lt_def]
        omega
      rw [if_neg reached]
      rfl
  | succ iterations =>
      rw [advanceWhile]
      cases advanced : s.advanceEpoch params with
      | error fault => rfl
      | ok next =>
          obtain ⟨ticked, advances⟩ := advanceEpoch_effect advanced
          have left : target.toNat - next.epoch.toNat = iterations := by
            rw [advances.epoch_eq]
            omega
          subst left
          rfl

end State

/-! ## Every boundary can be crossed -/

section Returns

variable {s s' : State} {params : Params} {target : Epoch}

/-- The next decay of every Standing fits its type. -/
def Decayable (params : Params) (s : State) : Prop :=
  ∀ id, s.points id * (1000000 - params.decayRatePpm.toNat) < 2 ^ 127

/-- Only recorded Standings decay. -/
theorem decayable_of_entries (entries : ∀ entry ∈ s.standing.toList,
    entry.2.sp.toInt * (1000000 - params.decayRatePpm.toNat) < 2 ^ 127) : Decayable params s := by
  intro id
  rw [State.points, State.standingOf]
  cases found : s.standing[id]? with
  | none => simp
  | some record =>
      exact entries (id, record) (ExtTreeMap.mem_toList_iff_getElem?_eq_some.mpr found)

/-- A release from a conserving state stays in range. -/
theorem State.exists_release (conserved : Conserved s) (matured : TaskId × Identity × Ucu) :
    ∃ s', s.release matured = .ok s' ∧ Conserved s' := by
  have owned := book_add_le_degree s (show Bucket.balance matured.2.1 ≠ .bonded matured.2.1 by simp)
  rw [State.book_balance, State.book_bonded, conserved] at owned
  have minted := s.supply.minted.isLt
  have returns : ∃ s', s.release matured = .ok s' := by
    apply exists_ok_of_avoids
    intro fault
    simp only [release, unlock, Checked.avoids_bind, Checked.avoids_pure, implies_true, and_true]
    have clamped : (lesser matured.2.2 (s.acct matured.2.1).bonded).toNat = _ := toNat_lesser
    exact ⟨avoids_sub_of_le (by omega), fun _ _ => avoids_add_of_lt (by omega)⟩
  obtain ⟨s', released⟩ := returns
  obtain ⟨moved, moves, rfl⟩ := State.release_effect released
  exact ⟨_, released, moves.conserved (by simp) conserved⟩

theorem State.exists_decayStanding (reputed : Reputed s) (decayable : Decayable params s)
    (bounded : params.decayRatePpm.toNat ≤ 1000000) :
    ∃ s', s.decayStanding params = .ok s' := by
  have stepwise : ∀ entry ∈ s.standing.toList,
      ∀ records : ExtTreeMap Identity StandingRecord, True → ∃ after, (do
        let sp ← params.decay entry.2.sp
        return records.insert entry.1 { entry.2 with sp, lastDecayEpoch := s.epoch }) =
          Except.ok after ∧ True := by
    rintro ⟨id, record⟩ member records _
    have found := ExtTreeMap.mem_toList_iff_getElem?_eq_some.mp member
    have points : s.points id = record.sp.toInt := by
      rw [points, standingOf, found]
      rfl
    obtain ⟨sp, sp_eq⟩ := Params.exists_decay bounded (points ▸ reputed.nonneg id)
      (points ▸ decayable id)
    exact ⟨_, Checked.bind_eq_ok.mpr ⟨sp, sp_eq, rfl⟩, trivial⟩
  obtain ⟨standing, folded, _⟩ := Run.exists_foldlM _ trivial stepwise
  refine ⟨{ s with standing }, ?_⟩
  simp only [decayStanding, Checked.bind_eq_ok, Checked.pure_eq_ok]
  exact ⟨standing, folded, rfl⟩

/-- An epoch boundary can be crossed while the epoch can be counted and the Standings decay. -/
theorem State.exists_advanceEpoch (conserved : Conserved s) (reputed : Reputed s)
    (decayable : Decayable params s) (bounded : params.decayRatePpm.toNat ≤ 1000000)
    (counts : s.epoch.toNat + 1 < 2 ^ 64) : ∃ s', s.advanceEpoch params = .ok s' := by
  obtain ⟨epoch, epoch_eq, _⟩ : ∃ epoch, Checked.add s.epoch 1 = .ok epoch ∧ _ := exists_add counts
  let ticking : State := { s with epoch }
  have held : Reputed ticking := reputed.kept rfl rfl fun _ => rfl
  obtain ⟨ticked, decayed⟩ := exists_decayStanding (s := ticking) held decayable bounded
  have kept : Conserved ticked := by
    simp only [decayStanding, Checked.bind_eq_ok, Checked.pure_eq_ok] at decayed
    obtain ⟨standing, _, rfl⟩ := decayed
    exact conserved
  obtain ⟨final, folded, _⟩ := Run.exists_foldlM Conserved kept
    fun matured (_ : matured ∈ ticked.toRelease) before held => before.exists_release held matured
  refine ⟨final, ?_⟩
  simp only [advanceEpoch, Checked.bind_eq_ok]
  exact ⟨epoch, epoch_eq, ticked, decayed, folded⟩

/-- A boundary keeps the next decay in range. -/
theorem Decayable.advance {ticked : State} (reputed : Reputed s) (decayable : Decayable params s)
    (bounded : params.decayRatePpm.toNat ≤ 1000000)
    (advances : State.Advances s params ticked s') : Decayable params s' := by
  intro id
  have lowered := (advances.reputed reputed bounded).2 id
  have kept : (0 : ℤ) ≤ 1000000 - params.decayRatePpm.toNat := by omega
  exact (mul_le_mul_of_nonneg_right lowered kept).trans_lt (decayable id)

/-- Advancing to an epoch returns, after one boundary for every epoch on the way. -/
theorem State.exists_advanceToEpoch [Crypto] (conserved : Conserved s) (reputed : Reputed s)
    (decayable : Decayable params s) (bounded : params.decayRatePpm.toNat ≤ 1000000)
    (target : Epoch) :
    ∃ s', s.advanceToEpoch target params = .ok s' ∧
      Run Step s (List.replicate (target.toNat - s.epoch.toNat) (.advanceEpoch params)) s' ∧
      s'.epoch.toNat = max s.epoch.toNat target.toNat := by
  induction size : target.toNat - s.epoch.toNat generalizing s with
  | zero =>
      have reached : ¬s.epoch < target := by
        rw [BitVec.lt_def]
        omega
      rw [advanceToEpoch_eq, if_neg reached]
      exact ⟨s, rfl, .nil, by omega⟩
  | succ iterations ih =>
      have before : s.epoch < target := by
        rw [BitVec.lt_def]
        omega
      obtain ⟨next, advanced⟩ := exists_advanceEpoch conserved reputed decayable bounded
        (by have last := target.isLt; omega)
      have step : Step s (.advanceEpoch params) next := returns_lift.mpr advanced
      obtain ⟨ticked, advances⟩ := advanceEpoch_effect advanced
      obtain ⟨final, returned, run, final_epoch⟩ :=
        ih (step.preserves Conserved Event.conserved conserved) (advances.reputed reputed bounded).1
          (decayable.advance reputed bounded advances) (by rw [advances.epoch_eq]; omega)
      refine ⟨final, ?_, (Run.single step).trans run, ?_⟩
      · rw [advanceToEpoch_eq, if_pos before, advanced]
        exact returned
      · rw [final_epoch, advances.epoch_eq]
        omega

end Returns

/-! ## Runs -/

section Runs

variable [Crypto] {start s s' : State} {ops : List Op}

/-- An operation which crosses an epoch boundary. -/
def Op.ticks : Op → Bool
  | .advanceEpoch _ => true
  | _ => false

/-- A state in which every task is in phase and every Standing is accounted for. -/
structure Regarded (s : State) : Prop extends Reputed s where
  phases : InPhase s
  stamped : Stamped s

theorem State.IsGenesis.regarded {epoch : Epoch} (genesis : State.IsGenesis s epoch) :
    Regarded s := by
  have standing : s.standing = ∅ := congrArg Records.standing genesis.records
  have receipts : s.receipts = ∅ := congrArg Records.receipts genesis.records
  have points (id : Identity) : s.points id = 0 := by
    simp [State.points, State.standingOf, standing]
  exact
    { nonneg := fun id => (points id).ge
      earned := fun id => by
        rw [points]
        exact Int.natCast_nonneg _
      accruals := by simp [receipts]
      phases := genesis.inPhase
      stamped := by simp [Stamped, standing] }

/-- An accepted operation, with a decay rate which takes something and not more than there is. -/
def RatedStep (s : State) (op : Op) (s' : State) : Prop := op.Rated ∧ Step s op s'

theorem RatedStep.regarded {op : Op} (regarded : Regarded s) (step : RatedStep s op s') :
    Regarded s' :=
  { (step.2.reputed regarded.phases regarded.toReputed step.1).1 with
    phases := step.2.preserves InPhase Event.inPhase regarded.phases
    stamped := step.2.stamped regarded.stamped }

theorem ratedStep_run (run : Run Step start ops s) (rated : ∀ op ∈ ops, op.Rated) :
    Run RatedStep start ops s :=
  run.mono fun op member _ _ step => ⟨rated op member, step⟩

/-- Every epoch boundary fades every Standing. -/
theorem RatedStep.fades {op : Op} (regarded : Regarded s) (step : RatedStep s op s')
    (ticks : op.ticks = true) (id : Identity) :
    Fades 1000000 (s.points id).toNat (s'.points id).toNat := by
  obtain ⟨rated, step⟩ := step
  cases step.effect with
  | advanceEpoch advances => exact advances.fades rated.1 rated.2 (regarded.nonneg id)
  | _ => cases ticks

/-- Without a settlement of the identity, a hundred and twenty-seven million boundaries take its
Standing to zero. -/
theorem points_eq_zero {id : Identity} (regarded : Regarded s) (run : Run RatedStep s ops s')
    (unsettled : ∀ op ∈ ops, ¬op.SettledBy id) (enough : 127000000 ≤ ops.countP Op.ticks) :
    s'.points id = 0 := by
  have kept : Run (fun before op after => Regarded before ∧ RatedStep before op after) s ops s' :=
    run.guarded Regarded regarded fun held step => step.regarded held
  have quiet : Run (fun before op after => ¬op.SettledBy id ∧ Regarded before ∧
      RatedStep before op after) s ops s' :=
    kept.mono fun op member _ _ step => ⟨unsettled op member, step⟩
  have keeps : ∀ before op after, (¬op.SettledBy id ∧ Regarded before ∧ RatedStep before op after) →
      (after.points id).toNat ≤ (before.points id).toNat := by
    rintro before op after ⟨silent, held, step⟩
    have lowered := (step.2.reputed held.phases held.toReputed step.1).2 id silent
    omega
  have fading : ∀ before op after,
      (¬op.SettledBy id ∧ Regarded before ∧ RatedStep before op after) → op.ticks = true →
        Fades (999999 + 1) (before.points id).toNat (after.points id).toNat := by
    rintro before op after ⟨_, held, step⟩ ticks
    exact step.fades held ticks id
  have rounds : (999999 + 1) * 127 ≤ ops.countP Op.ticks := enough
  have halved := quiet.halves keeps fading rounds
  have ranged : s.points id < 2 ^ 127 := BitVec.toInt_lt
  have final := (run.invariant Regarded regarded fun held step => step.regarded held).nonneg id
  omega

/-- What the receipts of the tasks which an identity provides have accrued. -/
def State.accruedTo (s : State) (id : Identity) : ℤ :=
  total (fun task receipt => if (s.tasks[task]?).bind (·.provider) = some id then
    receipt.standingDelta.toInt else 0) s.receipts

/-- The sum over the views of what they have accrued is the sum over the receipts. -/
theorem Regarded.accruedTo_eq (regarded : Regarded s) (id : Identity) :
    (viewTotal (View.accrued id) s : ℤ) = s.accruedTo id := by
  have cast : (viewTotal (View.accrued id) s : ℤ) =
      total (fun task _ => ((s.view task).accrued id : ℤ)) s.tasks :=
    map_total (Nat.castAddMonoidHom ℤ)
  rw [cast, State.accruedTo, regarded.phases.total_receipts]
  apply total_congr_on
  intro task sub found
  have sub_eq : (s.view task).sub = some sub := found
  rw [View.accrued, sub_eq, Option.elim_some]
  cases receipt_eq : s.receipts[task]? with
  | none =>
      have unreceipted : (s.view task).receipt = none := receipt_eq
      rw [weight_of_none receipt_eq, unreceipted]
      rfl
  | some receipt =>
      have receipted : (s.view task).receipt = some receipt := receipt_eq
      rw [weight_of_some receipt_eq, receipted, Option.elim_some, found, Option.bind_some,
        regarded.accruals task receipt receipt_eq]
      split <;> rfl

/-- In every run from genesis under decay rates between one and a million parts per million, a
Standing lies between zero and what the receipts of its owner have accrued, every record is stamped
with the epoch, only a settlement raises the Standing of its author, and an epoch boundary lowers
every positive one.  Without further settlements it ends at zero, and advancing far enough gets
there. -/
theorem standing_earned_and_fades {allocations : List (Identity × Ucu)} {epoch : Epoch}
    (genesis_eq : State.genesis allocations epoch = .ok start) (run : Run Step start ops s)
    (rated : ∀ op ∈ ops, op.Rated) :
    (∀ id, 0 ≤ s.points id ∧ s.points id ≤ s.accruedTo id) ∧
      (∀ (id : Identity) (record : StandingRecord), s.standing[id]? = some record →
        record.lastDecayEpoch = s.epoch) ∧
      (∀ op s', op.Rated → Step s op s' → ∀ id,
        (s.points id < s'.points id → op.SettledBy id) ∧
          (op.ticks = true → 0 < s.points id → s'.points id < s.points id)) ∧
      (∀ later s' id, Run Step s later s' → (∀ op ∈ later, op.Rated ∧ ¬op.SettledBy id) →
        127000000 ≤ later.countP Op.ticks → s'.points id = 0) ∧
      ∀ (target : Epoch) (params : Params), (Op.advanceEpoch params).Rated → Decayable params s →
        ∃ s', s.advanceToEpoch target params = .ok s' ∧
          s'.epoch.toNat = max s.epoch.toNat target.toNat ∧
          (s.epoch.toNat + 127000000 ≤ target.toNat → ∀ id, s'.points id = 0) := by
  have genesis := State.genesis_effect genesis_eq
  have regarded : Regarded s := (ratedStep_run run rated).invariant Regarded genesis.regarded
    fun held step => step.regarded held
  have reachable : Reachable s := ⟨allocations, epoch, start, ops, genesis_eq, run⟩
  refine ⟨fun id => ⟨regarded.nonneg id, ?_⟩, regarded.stamped, fun op s' rate step id => ⟨?_, ?_⟩,
    fun later s' id run silent enough => ?_, fun target params rate decayable => ?_⟩
  · rw [← regarded.accruedTo_eq]
    exact regarded.earned id
  · intro raised
    by_contra unsettled
    exact raised.not_ge ((step.reputed regarded.phases regarded.toReputed rate).2 id unsettled)
  · intro ticks positive
    have stepped : RatedStep s op s' := ⟨rate, step⟩
    have lowered := (stepped.fades regarded ticks id).lt (by omega)
    have nonneg := (stepped.regarded regarded).nonneg id
    omega
  · exact points_eq_zero regarded (ratedStep_run run fun op member => (silent op member).1)
      (fun op member => (silent op member).2) enough
  · obtain ⟨s', returned, run, reached⟩ :=
      State.exists_advanceToEpoch reachable.conserved regarded.toReputed decayable rate.2 target
    refine ⟨s', returned, reached, fun far id => ?_⟩
    have member : ∀ op ∈ List.replicate (target.toNat - s.epoch.toNat) (Op.advanceEpoch params),
        op = .advanceEpoch params := fun op member => List.eq_of_mem_replicate member
    have unsettled : ∀ op ∈ List.replicate (target.toNat - s.epoch.toNat) (Op.advanceEpoch params),
        ¬op.SettledBy id := by
      rintro op listed ⟨stx, params, proof, same, _⟩
      cases (member op listed).symm.trans same
    refine points_eq_zero regarded (ratedStep_run run ?_) unsettled ?_
    · rintro op listed
      exact member op listed ▸ rate
    · have ticks : (Op.advanceEpoch params).ticks = true := rfl
      rw [List.countP_replicate, if_pos ticks]
      omega

end Runs

section Sample

open Sample

attribute [local instance] Crypto.checksum

/-- The Standing of a settlement is there until it has run out. -/
theorem standing_earned_and_fades_settled : ∃ s s',
    outcomeOf allocations 0 (settled 400) = some s ∧ s.points bob = 400 ∧
      s.points bob ≤ s.accruedTo bob ∧ s.advanceToEpoch 127000000 .devnet = .ok s' ∧
      s'.points bob = 0 := by
  have ran : (outcomeOf allocations 0 (settled 400)).any (fun s =>
      s.points bob = 400 ∧ s.epoch = 0 ∧ ∀ entry ∈ s.standing.toList,
        entry.2.sp.toInt * ((1000000 : ℤ) - Params.devnet.decayRatePpm.toNat) < 2 ^ 127) =
      true := by
    decide +kernel
  obtain ⟨s, ran, holds⟩ := (Option.any_eq_true _ _).mp ran
  obtain ⟨points, epoch, entries⟩ := of_decide_eq_true holds
  obtain ⟨start, genesis_eq, folded⟩ := outcomeOf_eq_some.mp ran
  have rated : ∀ op ∈ settled 400, op.Rated := by
    simp [settled, sent, Op.Rated, Op.params, Params.devnet]
  have rate : (Op.advanceEpoch .devnet).Rated := ⟨by decide, by decide⟩
  obtain ⟨between, _, _, _, advances⟩ :=
    standing_earned_and_fades genesis_eq (Run.of_returns folded) rated
  obtain ⟨s', returned, _, faded⟩ :=
    advances 127000000 .devnet rate (decayable_of_entries entries)
  exact ⟨s, s', ran, points, (between bob).2, returned, faded (by rw [epoch]; decide) bob⟩

end Sample

end Ducp
