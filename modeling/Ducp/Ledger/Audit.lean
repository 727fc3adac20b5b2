import Ducp.Ledger.Consistency
import Ducp.Ledger.Lifecycle

/-!
# The audit trail

The running counters of the ledger against the records which they count: the minted supply against
the receipts, the strikes of a provider against its slashed tasks, and the fee pool against the fees
of the receipts.  Every counter moves in one place, together with its record.
-/

namespace Ducp

open DoubleEntry MapSum Outcome Std
open Finsupp (single single_apply)

/-- What the receipt of a task has issued. -/
def View.issued (view : View) : ℕ :=
  view.sub.elim 0 fun _ => view.receipt.elim 0 (·.workIssuance.toNat)

/-- What the receipt of a task has charged for the validators. -/
def View.charged (view : View) : ℕ :=
  view.sub.elim 0 fun _ => view.receipt.elim 0 (·.validatorFee.toNat)

open scoped Classical in
/-- Whether a task counts as a strike against an identity. -/
noncomputable def View.struck (id : Identity) (view : View) : ℕ :=
  view.sub.elim 0 fun sub => if view.slashed ∧ sub.provider = some id then 1 else 0

/-- The strikes on the Standing record of an identity. -/
def State.strikesOf (s : State) (id : Identity) : ℕ := (s.standingRecord id).strikes.toNat

/-- Between two states every counter moves with what it counts.  A reward which is `drawn` to the
pool is the only other thing which moves the pool. -/
structure Accounts (drawn : Prop) (s s' : State) : Prop where
  minted : s'.supply.minted.toNat + viewTotal View.issued s =
    s.supply.minted.toNat + viewTotal View.issued s'
  strikes : ∀ id, s'.strikesOf id + viewTotal (View.struck id) s =
    s.strikesOf id + viewTotal (View.struck id) s'
  burned : s.supply.burned.toNat ≤ s'.supply.burned.toNat
  collected : s.feePool.toNat + viewTotal View.charged s' ≤
    s'.feePool.toNat + viewTotal View.charged s
  undrawn : ¬drawn → s'.feePool.toNat + viewTotal View.charged s ≤
    s.feePool.toNat + viewTotal View.charged s'

theorem View.issued_unknown (view : View) (unknown : view.sub = none) : view.issued = 0 := by
  simp [issued, unknown]

theorem View.charged_unknown (view : View) (unknown : view.sub = none) : view.charged = 0 := by
  simp [charged, unknown]

theorem View.struck_unknown (id : Identity) (view : View) (unknown : view.sub = none) :
    view.struck id = 0 := by
  simp [struck, unknown]

namespace Accounts

variable {drawn : Prop} {s s' s'' : State}

theorem refl (s : State) : Accounts drawn s s :=
  ⟨rfl, fun _ => rfl, le_rfl, le_rfl, fun _ => le_rfl⟩

theorem trans (first : Accounts drawn s s') (second : Accounts drawn s' s'') :
    Accounts drawn s s'' where
  minted := by
    have earlier := first.minted
    have later := second.minted
    omega
  strikes id := by
    have earlier := first.strikes id
    have later := second.strikes id
    omega
  burned := first.burned.trans second.burned
  collected := by
    have earlier := first.collected
    have later := second.collected
    omega
  undrawn undrawn := by
    have earlier := first.undrawn undrawn
    have later := second.undrawn undrawn
    omega

/-- A posting which rewrites one view, mints `minted` and charges `fee` for it. -/
theorem update {debits credits : Bucket →₀ ℕ} {task : TaskId} {view : View} {minted fee : ℕ}
    (minted_eq : s'.supply.minted.toNat = s.supply.minted.toNat + minted)
    (posts : Posts s.book debits credits s'.book)
    (views : ∀ probe, s'.view probe = if probe = task then view else s.view probe)
    (issues : view.issued = (s.view task).issued + minted)
    (charges : view.charged = (s.view task).charged + fee)
    (strikes : ∀ id, s'.strikesOf id + (s.view task).struck id = s.strikesOf id + view.struck id)
    (unspent : debits .pool = 0) (unburned : debits .burned = 0) (paid : fee ≤ credits .pool)
    (undrawn : ¬drawn → credits .pool ≤ fee) : Accounts drawn s s' := by
  have pool := posts.apply .pool
  have burned := posts.apply .burned
  have issuance := viewTotal_update View.issued_unknown views
  have fees := viewTotal_update View.charged_unknown views
  rw [State.book_pool, State.book_pool] at pool
  rw [State.book_burned, State.book_burned] at burned
  refine ⟨by omega, fun id => ?_, by omega, by omega, fun absent => ?_⟩
  · have struck := viewTotal_update (View.struck_unknown id) views
    have same := strikes id
    omega
  · have exact_paid := undrawn absent
    omega

/-- A posting beside the pool, under which no view issues, charges or strikes anything new. -/
theorem rewrite {debits credits : Bucket →₀ ℕ} {task : TaskId} {view : View}
    (minted_eq : s'.supply.minted.toNat = s.supply.minted.toNat)
    (posts : Posts s.book debits credits s'.book)
    (views : ∀ probe, s'.view probe = if probe = task then view else s.view probe)
    (issues : view.issued = (s.view task).issued) (charges : view.charged = (s.view task).charged)
    (strikes : ∀ id, s'.strikesOf id + (s.view task).struck id = s.strikesOf id + view.struck id)
    (unspent : debits .pool = 0) (unburned : debits .burned = 0) (unpaid : credits .pool = 0) :
    Accounts drawn s s' := by
  have kept_issues : view.issued = (s.view task).issued + 0 := issues
  have kept_charges : view.charged = (s.view task).charged + 0 := charges
  exact update minted_eq posts views kept_issues kept_charges strikes unspent unburned
    (Nat.zero_le _) fun _ => unpaid.le

end Accounts

/-! ## Strikes -/

section Strikes

variable {s s' : State} {id : Identity}

theorem strikesOf_congr (standing_eq : s'.standing = s.standing) :
    s'.strikesOf id = s.strikesOf id := by
  unfold State.strikesOf State.standingRecord
  rw [standing_eq]
  cases s.standing[id]? <;> rfl

theorem strikesOf_insert {author : Identity} {record : StandingRecord}
    (standing_eq : s'.standing = s.standing.insert author record) :
    s'.strikesOf id = if id = author then record.strikes.toNat else s.strikesOf id := by
  unfold State.strikesOf State.standingRecord
  rw [standing_eq, getElem?_insert]
  split
  · rfl
  · cases s.standing[id]? <;> rfl

/-- Decay leaves every strike alone. -/
theorem State.decayStanding_strikes {params : Params}
    (decayed : s.decayStanding params = .ok s') : s'.strikesOf id = s.strikesOf id := by
  simp only [decayStanding, Checked.bind_eq_ok, Checked.pure_eq_ok] at decayed
  obtain ⟨standing, folded, rfl⟩ := decayed
  have kept : (standing[id]?).map (·.strikes) = (s.standing[id]?).map (·.strikes) := by
    have run := (Run.of_foldlM folded).mono fun entry member before after decays =>
      And.intro member decays
    apply run.invariant fun records => (records[id]?).map (·.strikes) =
      (s.standing[id]?).map (·.strikes)
    · rfl
    · rintro before ⟨owner, record⟩ after held ⟨member, decays⟩
      simp only [Checked.bind_eq_ok, Checked.pure_eq_ok] at decays
      obtain ⟨sp, _, rfl⟩ := decays
      rw [getElem?_insert]
      split
      · rename_i same
        rw [same, ExtTreeMap.mem_toList_iff_getElem?_eq_some.mp member]
        rfl
      · exact held
  unfold State.strikesOf State.standingRecord
  cases found : s.standing[id]? with
  | none =>
      rw [found] at kept
      simp [Option.map_eq_none_iff.mp kept, StandingRecord.new]
  | some record =>
      rw [found] at kept
      obtain ⟨record', found', same⟩ := Option.map_eq_some_iff.mp kept
      simp [found', same]

end Strikes

/-! ## What an operation counts -/

section Events

variable [Crypto] {s s' : State} {drawn : Prop} {params : Params}

omit [Crypto] in
/-- A movement of funds beside the pool and the burned counter. -/
theorem Moves.accounts {debits credits : Bucket →₀ ℕ} (moves : Moves s debits credits s')
    (unspent : debits .pool = 0) (unburned : debits .burned = 0) (unpaid : credits .pool = 0) :
    Accounts drawn s s' := by
  have views (probe : TaskId) : s'.view probe =
      if probe = Bytes.fill 32 0 then s.view (Bytes.fill 32 0) else s.view probe := by
    rw [moves.view]
    split <;> simp_all
  refine .rewrite (by rw [moves.minted]) moves.posts views rfl rfl (fun id => ?_) unspent unburned
    unpaid
  rw [strikesOf_congr (congrArg Records.standing moves.records)]

theorem Payload.accounts {author : Identity} {tx : Tx} (phases : InPhase s)
    (payload : Payload s author params tx s') : Accounts drawn s s' := by
  cases payload with
  | @submitTask body task fee _ submits =>
      have fresh := (phases task).of_fresh submits.fresh
      refine .rewrite submits.minted submits.posts submits.view ?_ ?_ (fun id => ?_) (by simp)
        (by simp) (by simp)
      · simp [fresh, View.issued]
      · simp [fresh, View.charged]
      · rw [strikesOf_congr (congrArg Records.standing submits.records), fresh]
        simp [View.struck]
  | @claimTask task body sub stake _ claims =>
      obtain ⟨found, view_eq, _⟩ := (phases task).of_submitted claims.sub_eq claims.submitted
      refine .rewrite claims.minted claims.posts claims.view ?_ ?_ (fun id => ?_) (by simp)
        (by simp) (by simp)
      · simp [view_eq, View.issued]
      · simp [view_eq, View.charged]
      · rw [strikesOf_congr (congrArg Records.standing claims.records), view_eq]
        simp [View.struck]
  | @submitProof proof body sub receipt record _ settles =>
      obtain ⟨found, provider, view_eq, _⟩ :=
        (phases proof.task).of_executing settles.sub_eq settles.executing
      have charges : sub.fee.toNat = (s.view proof.task).charged + sub.fee.toNat := by
        simp [view_eq, View.charged]
      have paid : (single (Bucket.balance sub.requester)
          (body.limits.maxUcu.toNat - proof.ucuCount.toNat) + single Bucket.pool sub.fee.toNat +
          single (Bucket.balance author) proof.ucuCount.toNat +
          single (Bucket.balance author) receipt.workIssuance.toNat) Bucket.pool =
            sub.fee.toNat := by simp
      refine .update settles.minted settles.posts settles.view ?_ ?_ (fun id => ?_) (by simp)
        (by simp) paid.ge fun _ => paid.le
      · simp [view_eq, View.issued]
      · simpa [View.charged, settles.validatorFee] using charges
      · rw [strikesOf_insert (congrArg Records.standing settles.records), view_eq]
        simp only [View.struck]
        split
        · rename_i same
          have kept : record.strikes = (s.standingRecord author).strikes := by rw [settles.kept]
          simp [kept, same, State.strikesOf]
        · simp
  | @challenge task bond receipt sub _ opens =>
      refine .rewrite opens.minted opens.posts opens.view rfl rfl (fun id => ?_) (by simp)
        (by simp) (by simp)
      rw [strikesOf_congr (congrArg Records.standing opens.records)]
      rfl
  | transfer moves => exact moves.accounts (by simp) (by simp) (by simp)

omit [Crypto] in
theorem Releases.accounts {matured : TaskId × Identity × Ucu} {receipt : Receipt}
    {sub : Submission} (releases : Releases s matured receipt sub s') : Accounts drawn s s' := by
  refine .rewrite releases.minted releases.posts releases.view rfl rfl (fun id => ?_) (by simp)
    (by simp) (by simp)
  rw [strikesOf_congr (congrArg Records.standing releases.records)]
  rfl

omit [Crypto] in
/-- An epoch boundary leaves every counter alone. -/
theorem State.Advances.accounts {ticked : State} (advances : State.Advances s params ticked s') :
    Accounts drawn s s' := by
  obtain ⟨epoch, standing, _, rfl, decayed⟩ := advances.ticks
  have boundary : Accounts drawn s { s with epoch, standing } := by
    refine ⟨rfl, fun id => ?_, le_rfl, le_rfl, fun _ => le_rfl⟩
    have strikes : ({ s with epoch } : State).strikesOf id = s.strikesOf id := strikesOf_congr rfl
    rw [State.decayStanding_strikes decayed, strikes]
    rfl
  apply advances.run.invariant (Accounts drawn s) boundary
  rintro before stake after counted ⟨receipt, sub, releases⟩
  exact counted.trans releases.accounts

omit [Crypto] in
/-- A slashed task is one more strike against its provider. -/
theorem Slashes.accounts {task : TaskId} {rewardTo : Option Identity} {receipt : Receipt}
    {sub : Submission} {provider : Identity} {penalty : Penalty} {record : StandingRecord}
    (slashes : Slashes s task rewardTo params receipt sub provider penalty record s') :
    Accounts (rewardTo = none) s s' := by
  have sub_eq : (s.view task).sub = some sub := slashes.sub_eq
  have unslashed : ¬(s.view task).slashed := slashes.unslashed
  have views := slashes.view
  obtain ⟨moved, penalizes, rfl⟩ := slashes.penalizes
  have minted : moved.supply.minted.toNat = s.supply.minted.toNat + 0 :=
    congrArg BitVec.toNat penalizes.minted
  refine .update minted penalizes.posts views ?_ ?_ (fun id => ?_) (by simp) (by simp)
    (Nat.zero_le _) fun audited => Nat.le_of_eq ?_
  · simp [View.issued, sub_eq]
  · simp [View.charged, sub_eq]
  · rw [strikesOf_insert (s := s) rfl]
    simp only [View.struck, sub_eq, unslashed, Option.elim_some, false_and, if_false, true_and,
      slashes.offender, Option.some.injEq, add_zero]
    by_cases same : provider = id
    · subst same
      simp only [if_true, slashes.struck]
      rfl
    · simp [same, Ne.symm same]
  · cases rewardTo with
    | none => exact (audited rfl).elim
    | some id => simp [rewardBucket]

omit [Crypto] in
theorem Convicts.accounts {task : TaskId} {rewardTo : Option Identity}
    (convicts : Convicts s task rewardTo params s') : Accounts (rewardTo = none) s s' := by
  cases convicts with
  | idle _ => exact .refl s
  | slash slashes => exact slashes.accounts

omit [Crypto] in
/-- Closing a challenge counts nothing. -/
theorem close_accounts (s : State) (task : TaskId) :
    Accounts drawn s { s with pendingChallenges := s.pendingChallenges.erase task } := by
  have posts : Posts s.book 0 0 s.book := rfl
  exact .rewrite rfl posts (close_view task) rfl rfl (fun _ => rfl) rfl rfl rfl

omit [Crypto] in
theorem Accounts.of_undrawn {drawn' : Prop} (counted : Accounts drawn s s')
    (implies : drawn → drawn') : Accounts drawn' s s' :=
  { counted with undrawn := fun undrawn => counted.undrawn fun held => undrawn (implies held) }

omit [Crypto] in
/-- The resolution of a challenge rewards the challenger, never the pool. -/
theorem Closes.accounts {task : TaskId} {fraud : Bool}
    (closes : Closes s task params fraud s') : Accounts drawn s s' := by
  cases closes with
  | idle _ => exact .refl s
  | won _ convicts moves =>
      have convicted : Accounts drawn _ _ := convicts.accounts.of_undrawn (by simp)
      exact (close_accounts s task).trans convicted |>.trans
        (moves.accounts (by simp) (by simp) (by simp))
  | lost _ moves =>
      exact (close_accounts s task).trans (moves.accounts (by simp) (by simp) (by simp))

/-- An audit which pays its reward to the pool. -/
def Op.Draws (op : Op) : Prop := ∃ task params, op = .resolveFraud task none params

/-- Every operation moves the counters with their records. -/
theorem Step.accounts {op : Op} (phases : InPhase s) (step : Step s op s') :
    Accounts op.Draws s s' := by
  cases step.effect with
  | @apply stx params next _ _ _ _ payload =>
      have bumped : InPhase { s with nonces := s.nonces.insert stx.author next } := phases
      have counted : Accounts (Op.Draws (.apply stx params)) _ s' := payload.accounts bumped
      exact ⟨counted.minted, counted.strikes, counted.burned, counted.collected, counted.undrawn⟩
  | advanceEpoch advances => exact advances.accounts
  | @resolveFraud task rewardTo params _ convicts =>
      refine convicts.accounts.of_undrawn ?_
      rintro rfl
      exact ⟨task, params, rfl⟩
  | resolveChallenge closes => exact closes.accounts

end Events

/-! ## The trail -/

section Trail

variable {allocations : List (Identity × Ucu)} {epoch : Epoch} {start : State}

theorem degree_granted (allocations : List (Identity × Ucu)) :
    Finsupp.degree (State.granted allocations) =
      (allocations.map fun allocation => allocation.2.toNat).sum := by
  induction allocations with
  | nil => simp [State.granted]
  | cons allocation allocations ih => simpa [State.granted] using ih

theorem granted_pool (allocations : List (Identity × Ucu)) :
    State.granted allocations .pool = 0 := by
  induction allocations with
  | nil => simp [State.granted]
  | cons allocation allocations ih => simpa [State.granted] using ih

/-- The counters of a genesis state: the allocations are minted, and nothing else has happened. -/
theorem genesis_counters (genesis : State.genesis allocations epoch = .ok start) :
    start.supply.minted.toNat = (allocations.map fun allocation => allocation.2.toNat).sum ∧
      (∀ id, start.strikesOf id = 0) ∧ start.feePool.toNat = 0 ∧
      ∀ gives : View → ℕ, viewTotal gives start = 0 := by
  have initial := State.genesis_effect genesis
  have book := State.genesis_book genesis
  have standing : start.standing = ∅ := congrArg Records.standing initial.records
  have tasks : start.tasks = ∅ := congrArg Records.tasks initial.records
  refine ⟨?_, fun id => ?_, ?_, fun gives => ?_⟩
  · rw [← initial.minted, book, degree_granted]
  · simp [State.strikesOf, State.standingRecord, standing, StandingRecord.new]
  · rw [← State.book_pool, book, granted_pool]
  · rw [viewTotal, tasks, total_empty]

/-- The sum over the views of what their receipts give is the sum over the receipts. -/
theorem viewTotal_receipts [Crypto] {s : State} (phases : InPhase s) (amount : Receipt → ℕ) :
    viewTotal (fun view => view.sub.elim 0 fun _ => view.receipt.elim 0 amount) s =
      total (fun _ receipt => amount receipt) s.receipts := by
  rw [phases.total_receipts]
  apply total_congr_on
  intro task sub found
  have sub_eq : (s.view task).sub = some sub := found
  simp only [sub_eq, Option.elim_some]
  rfl

/-- The strikes counted over the views are the slashed tasks of the provider. -/
theorem viewTotal_struck (s : State) (id : Identity) :
    viewTotal (View.struck id) s =
      total (fun task sub => if task ∈ s.slashed ∧ sub.provider = some id then 1 else 0)
        s.tasks := by
  apply total_congr_on
  intro task sub found
  have sub_eq : (s.view task).sub = some sub := found
  have slashed : (s.view task).slashed ↔ task ∈ s.slashed := Iff.rfl
  simp [View.struck, sub_eq, slashed]

/-- A run moves the counters with what they count, and draws when one of its operations does. -/
theorem accounts_of_run [Crypto] {drawn : Prop} {ops : List Op} {s : State}
    (phases : InPhase start) (run : Run Step start ops s)
    (draws : ∀ op ∈ ops, op.Draws → drawn) : Accounts drawn start s := by
  have drawing : Run (fun before op after => (op.Draws → drawn) ∧ Step before op after) start ops
      s := run.mono fun op member before after step => ⟨draws op member, step⟩
  have carried : InPhase s ∧ Accounts drawn start s := by
    apply drawing.invariant fun state => InPhase state ∧ Accounts drawn start state
    · exact ⟨phases, .refl start⟩
    · rintro before op after ⟨held, counts⟩ ⟨implies, step⟩
      exact ⟨step.preserves InPhase Event.inPhase held,
        counts.trans ((step.accounts held).of_undrawn implies)⟩
  exact carried.2

/-- In every run from genesis the minted supply is the genesis total with the issuance of the
receipts, the strikes of every identity count its slashed tasks, nothing is unburned, and the fee
pool holds the fees of the receipts, with nothing else unless an audit paid its reward to it. -/
theorem audit_trail [Crypto] {ops : List Op} {s : State}
    (genesis : State.genesis allocations epoch = .ok start) (run : Run Step start ops s) :
    s.supply.minted.toNat = (allocations.map fun allocation => allocation.2.toNat).sum +
        total (fun _ receipt => receipt.workIssuance.toNat) s.receipts ∧
      (∀ id, (s.standingRecord id).strikes.toNat =
        total (fun task sub => if task ∈ s.slashed ∧ sub.provider = some id then 1 else 0)
          s.tasks) ∧
      (∀ op s', Step s op s' → s.supply.burned.toNat ≤ s'.supply.burned.toNat ∧
        ∀ (task : TaskId) (receipt : Receipt), s.receipts[task]? = some receipt →
          s'.receipts[task]? = some receipt) ∧
      total (fun _ receipt => receipt.validatorFee.toNat) s.receipts ≤ s.feePool.toNat ∧
      ((∀ op ∈ ops, ∀ task params, op ≠ .resolveFraud task none params) →
        s.feePool.toNat = total (fun _ receipt => receipt.validatorFee.toNat) s.receipts) := by
  have phases : InPhase start := (State.genesis_effect genesis).inPhase
  have reached : InPhase s := run.invariant InPhase phases fun held step =>
    step.preserves InPhase Event.inPhase held
  obtain ⟨minted, strikes, pool, unknown⟩ := genesis_counters genesis
  have audited : Accounts True start s := accounts_of_run phases run fun _ _ _ => trivial
  have issued : viewTotal View.issued s = _ := viewTotal_receipts reached (·.workIssuance.toNat)
  have charged : viewTotal View.charged s = _ := viewTotal_receipts reached (·.validatorFee.toNat)
  refine ⟨?_, fun id => ?_, fun op s' step => ⟨(step.accounts reached).burned, ?_⟩, ?_, ?_⟩
  · have balance := audited.minted
    rwa [unknown, minted, issued, add_zero] at balance
  · have balance := audited.strikes id
    rw [unknown, strikes id] at balance
    rw [← viewTotal_struck]
    simpa [State.strikesOf] using balance
  · intro task receipt found
    exact (step.extends reached task).receipt receipt found
  · have balance := audited.collected
    rwa [unknown, pool, charged, zero_add, add_zero] at balance
  · intro undrawn
    have unpaid : Accounts False start s := accounts_of_run phases run
      fun op member ⟨task, params, same⟩ => undrawn op member task params same
    have least := unpaid.collected
    have most := unpaid.undrawn not_false
    rw [unknown, pool, charged, zero_add, add_zero] at least most
    exact Nat.le_antisymm most least

end Trail

section Sample

open Sample

attribute [local instance] Crypto.checksum

/-- A settlement which a sampling audit convicts. -/
def Sample.sampled : List Op := settled 400 ++ [.resolveFraud (task 0) none .devnet]

theorem audit_trail_sampled : ∃ start s, State.genesis allocations 0 = .ok start ∧
    Run Step start sampled s ∧ (s.standingRecord bob).strikes = 1 ∧ 1 < s.feePool.toNat ∧
      s.supply.minted.toNat = (allocations.map fun allocation => allocation.2.toNat).sum +
        total (fun _ receipt => receipt.workIssuance.toNat) s.receipts ∧
      (∀ id, (s.standingRecord id).strikes.toNat =
        total (fun task sub => if task ∈ s.slashed ∧ sub.provider = some id then 1 else 0)
          s.tasks) ∧
      total (fun _ receipt => receipt.validatorFee.toNat) s.receipts ≤ s.feePool.toNat := by
  have convicted : (outcomeOf allocations 0 sampled).any (fun s =>
      (s.standingRecord bob).strikes = 1 ∧ 1 < s.feePool.toNat) = true := by decide +kernel
  obtain ⟨s, ran, convicted⟩ := (Option.any_eq_true _ _).mp convicted
  obtain ⟨strikes, pool⟩ := of_decide_eq_true convicted
  obtain ⟨start, genesis, folded⟩ := outcomeOf_eq_some.mp ran
  have run : Run Step start sampled s := Run.of_returns folded
  obtain ⟨minted, struck, _, collected, _⟩ := audit_trail genesis run
  exact ⟨start, s, genesis, run, strikes, pool, minted, struck, collected⟩

end Sample

end Ducp
