import Ducp.Ledger.Stakes

/-!
# Stranded bonds

A slashing draws the clawback and the fine from the pool of the offender and drops the whole stake
from what the pool owes.  When it draws less than the stake, the rest stays in the pool with nothing
left to release it; when every slashing draws enough, a pool never holds more than it owes.
-/

namespace Ducp

open DoubleEntry MapSum Outcome Std
open Finsupp (single single_apply)

/-- A conviction of a task would slash the identity. -/
structure Convictable (s : State) (params : Params) (id : Identity) (task : TaskId)
    (sub : Submission) (receipt : Receipt) (fine : Ucu) : Prop where
  unslashed : task ∉ s.slashed
  sub_eq : s.tasks[task]? = some sub
  provider : sub.provider = some id
  receipt_eq : s.receipts[task]? = some receipt
  fine_eq : params.fine receipt.paidToProvider = .ok fine

/-- The task which an operation convicts. -/
def Op.convicted (s : State) : Op → Option TaskId
  | .resolveFraud task _ _ => some task
  | .resolveChallenge task true _ => if task ∈ s.pendingChallenges then some task else none
  | _ => none

/-- When an operation slashes the identity, the clawback and the fine take everything that the pool
holds beyond what the other tasks and challenges of the identity need. -/
def Exhausts (id : Identity) (s : State) (op : Op) : Prop :=
  ∀ task, op.convicted s = some task → ∀ sub receipt fine,
    Convictable s op.params id task sub receipt fine →
      (s.acct id).bonded.toNat + freedStake s task sub ≤
        s.outstanding id + receipt.paidToProvider.toNat + fine.toNat

/-! ## What is left in a pool -/

section Pools

variable {s s' : State} (id : Identity)

/-- A conviction draws on the pool of the offender and leaves the other pools alone. -/
theorem Convicts.pool [Crypto] {task : TaskId} {rewardTo : Option Identity} {params : Params}
    (phases : InPhase s) (convicts : Convicts s task rewardTo params s') :
    (Ducp.surplus id s' = Ducp.surplus id s ∧
      (s'.acct id).bonded.toNat = (s.acct id).bonded.toNat ∧
      ∀ sub receipt fine, ¬Convictable s params id task sub receipt fine) ∨
    ∃ sub receipt fine, Convictable s params id task sub receipt fine ∧
      Ducp.surplus id s' +
          min (receipt.paidToProvider.toNat + fine.toNat) (s.acct id).bonded.toNat =
        Ducp.surplus id s + freedStake s task sub ∧
      (s'.acct id).bonded.toNat +
          min (receipt.paidToProvider.toNat + fine.toNat) (s.acct id).bonded.toNat =
        (s.acct id).bonded.toNat := by
  cases convicts with
  | idle excuse =>
      refine .inl ⟨rfl, rfl, fun sub receipt fine convictable => ?_⟩
      have idle : Convicts s task rewardTo params s := .idle excuse
      obtain ⟨_, _, slashes⟩ := idle.slashes convictable.receipt_eq convictable.sub_eq
        convictable.provider convictable.unslashed
      exact slashes.unslashed slashes.slashed
  | @slash receipt sub provider penalty record _ slashes =>
      have drawn := slashes.surplus_eq id phases
      by_cases mine : provider = id
      · subst mine
        simp only [if_true] at drawn
        obtain ⟨_, penalizes, _⟩ := slashes.penalizes
        exact .inr ⟨sub, receipt, penalty.fine, ⟨slashes.unslashed, slashes.sub_eq,
          slashes.offender, slashes.receipt_eq, penalizes.fine_eq⟩, by simpa using drawn⟩
      · simp only [mine, if_false] at drawn
        refine .inl ⟨by omega, by omega, fun sub' receipt' fine convictable => mine ?_⟩
        have same := slashes.sub_eq.symm.trans convictable.sub_eq
        have provided := convictable.provider
        rw [← Option.some.inj same, slashes.offender] at provided
        exact Option.some.inj provided

theorem Convictable.unique {s : State} {params : Params} {id : Identity} {task : TaskId}
    {sub sub' : Submission} {receipt receipt' : Receipt} {fine fine' : Ucu}
    (convictable : Convictable s params id task sub receipt fine)
    (convictable' : Convictable s params id task sub' receipt' fine') :
    sub = sub' ∧ receipt = receipt' ∧ fine = fine' := by
  obtain rfl := Option.some.inj (convictable.sub_eq.symm.trans convictable'.sub_eq)
  obtain rfl := Option.some.inj (convictable.receipt_eq.symm.trans convictable'.receipt_eq)
  exact ⟨rfl, rfl, Except.ok.inj (convictable.fine_eq.symm.trans convictable'.fine_eq)⟩

theorem surplus_le (s : State) : surplus id s ≤ (s.acct id).bonded.toNat := by
  rw [surplus, State.book_bonded]
  omega

/-- A pool which is drawn on, as far as it goes, while some of what it owes is set free holds no
more than it owes exactly when what was held beyond is drawn too. -/
theorem drained_iff {freed drawn : ℕ}
    (pool : (s'.acct id).bonded.toNat + min drawn (s.acct id).bonded.toNat =
      (s.acct id).bonded.toNat)
    (settled : surplus id s' + (min drawn (s.acct id).bonded.toNat : ℕ) = surplus id s + freed) :
    surplus id s' ≤ 0 ↔ surplus id s + freed ≤ drawn := by
  simp only [surplus, State.book_bonded] at *
  omega

theorem Releases.tight [Crypto] {matured : TaskId × Identity × Ucu} {receipt : Receipt}
    {sub : Submission} (phases : InPhase s) (releases : Releases s matured receipt sub s')
    (tight : Ducp.surplus id s ≤ 0) : Ducp.surplus id s' ≤ 0 := by
  obtain ⟨settled, pool⟩ := releases.surplus_eq id phases
  by_cases mine : matured.2.1 = id
  · simp only [mine, if_true] at settled pool
    rw [drained_iff id pool settled]
    omega
  · simp only [mine, if_false] at settled
    omega

variable [Crypto]

theorem State.Advances.tight {params : Params} {ticked : State} (phases : InPhase s)
    (advances : State.Advances s params ticked s') (tight : Ducp.surplus id s ≤ 0) :
    Ducp.surplus id s' ≤ 0 := by
  apply advances.invariant (fun state => Ducp.surplus id state ≤ 0) phases
  case ticked => exact fun _ _ => tight
  case released => exact fun held least releases => releases.tight id held least

end Pools

/-! ## What an operation leaves in a pool -/

section Operations

variable {s s' : State} {op : Op} (id : Identity)

/-- The settling of a bond, as far as the pool of its challenger goes. -/
theorem Moves.tight_iff {challenger : Identity} {bond : ℕ} {credits : Bucket →₀ ℕ}
    (moves : Moves s (single (.bonded challenger) (min bond (s.acct challenger).bonded.toNat))
      credits s') (elsewhere : credits (.bonded id) = 0) :
    Ducp.surplus id s' ≤ 0 ↔ Ducp.surplus id s ≤ (if challenger = id then bond else 0 : ℕ) := by
  have settled := moves.surplus id
  have pool := moves.posts.apply (.bonded id)
  rw [elsewhere] at settled pool
  by_cases mine : challenger = id
  · subst mine
    simp at settled pool
    have freed : Ducp.surplus challenger s' + (min bond (s.acct challenger).bonded.toNat : ℕ) =
        Ducp.surplus challenger s + (0 : ℕ) := by
      simpa using settled
    have drained := drained_iff challenger pool freed
    simpa using drained
  · simp [mine] at settled
    simp [mine, settled]

variable [Crypto]

/-- An operation which convicts no task of the identity leaves its pool tight.  One which does
leaves it tight exactly when it draws all that the pool held beyond what is still owed. -/
theorem Step.excess (phases : InPhase s) (step : Step s op s') :
    ((∀ task, op.convicted s = some task → ∀ sub receipt fine,
        ¬Convictable s op.params id task sub receipt fine) ∧
      (Ducp.surplus id s ≤ 0 → Ducp.surplus id s' ≤ 0)) ∨
    ∃ task sub receipt fine, op.convicted s = some task ∧
      Convictable s op.params id task sub receipt fine ∧
      (Ducp.surplus id s' ≤ 0 ↔ Ducp.surplus id s + freedStake s task sub ≤
        (receipt.paidToProvider.toNat + fine.toNat : ℕ)) := by
  cases step.effect with
  | @apply stx _ next _ _ _ _ payload =>
      have bumped : InPhase { s with nonces := s.nonces.insert stx.author next } := phases
      have same := payload.surplus id bumped
      change Ducp.surplus id s' = Ducp.surplus id s at same
      exact .inl ⟨fun task convicted => by simp [Op.convicted] at convicted, fun tight => by omega⟩
  | advanceEpoch advances =>
      exact .inl ⟨fun task convicted => by simp [Op.convicted] at convicted,
        advances.tight id phases⟩
  | @resolveFraud task rewardTo params _ convicts =>
      rcases convicts.pool id phases with
        ⟨same, _, safe⟩ | ⟨sub, receipt, fine, convictable, settled, pool⟩
      · refine .inl ⟨fun probe convicted => ?_, fun tight => by omega⟩
        obtain rfl := Option.some.inj convicted
        exact safe
      · exact .inr ⟨task, sub, receipt, fine, rfl, convictable, drained_iff id pool settled⟩
  | @resolveChallenge task fraud params _ closes =>
      have closed_phases := Event.inPhase phases (.close task)
      cases closes with
      | idle absent =>
          refine .inl ⟨fun probe convicted => ?_, fun tight => tight⟩
          have missing := (notMem_iff_eq_none s.pendingChallenges task).mpr absent
          cases fraud <;> simp [Op.convicted, missing] at convicted
      | @won pc convicted _ pending convicts moves =>
          obtain ⟨sub, found⟩ := (phases task).known_of_pending pending
          have closed := close_surplus id found pending
          have returned := moves.tight_iff id (by simp)
          have present : task ∈ s.pendingChallenges :=
            (mem_iff_exists s.pendingChallenges task).mpr ⟨pc, pending⟩
          have accused : (Op.resolveChallenge task true params).convicted s = some task := by
            simp [Op.convicted, present]
          rcases convicts.pool id closed_phases with
            ⟨same, _, safe⟩ | ⟨sub, receipt, fine, convictable, settled, pool⟩
          · refine .inl ⟨fun probe convicted sub receipt fine convictable => ?_, fun tight => ?_⟩
            · obtain rfl := Option.some.inj (accused.symm.trans convicted)
              exact safe sub receipt fine { convictable with }
            · rw [returned]
              omega
          · refine .inr ⟨task, sub, receipt, fine, accused, { convictable with }, ?_⟩
            have least := surplus_le id convicted
            change Ducp.surplus id convicted + _ = _ + (freedStake s task sub : ℤ) at settled
            rw [returned]
            omega
      | @lost pc _ pending moves =>
          obtain ⟨sub, found⟩ := (phases task).known_of_pending pending
          have closed := close_surplus id found pending
          have forfeited := Moves.tight_iff id moves (by simp)
          refine .inl ⟨fun probe convicted => by simp [Op.convicted] at convicted, fun tight => ?_⟩
          rw [forfeited]
          omega

/-- An operation which slashes the identity leaves its pool tight exactly when it exhausts the
stake which it sets free. -/
theorem Step.tight_iff (phases : InPhase s) (step : Step s op s') {task : TaskId}
    {sub : Submission} {receipt : Receipt} {fine : Ucu} (convicted : op.convicted s = some task)
    (convictable : Convictable s op.params id task sub receipt fine) :
    Ducp.surplus id s' ≤ 0 ↔ Ducp.surplus id s + freedStake s task sub ≤
      (receipt.paidToProvider.toNat + fine.toNat : ℕ) := by
  rcases step.excess id phases with
    ⟨safe, _⟩ | ⟨probe, sub', receipt', fine', convicted', convictable', exact⟩
  · exact (safe task convicted sub receipt fine convictable).elim
  · obtain rfl := Option.some.inj (convicted.symm.trans convicted')
    obtain ⟨rfl, rfl, rfl⟩ := convictable.unique convictable'
    exact exact

theorem Step.tight (phases : InPhase s) (step : Step s op s') (exhausts : Exhausts id s op)
    (tight : Ducp.surplus id s ≤ 0) : Ducp.surplus id s' ≤ 0 := by
  rcases step.excess id phases with
    ⟨_, kept⟩ | ⟨task, sub, receipt, fine, convicted, convictable, exact⟩
  · exact kept tight
  · have drawn := exhausts task convicted sub receipt fine convictable
    rw [exact, phases.surplus_eq]
    omega

end Operations

/-! ## Whole runs -/

/-- An accepted operation which draws enough when it slashes the identity. -/
def ExhaustingStep [Crypto] (id : Identity) (s : State) (op : Op) (s' : State) : Prop :=
  Step s op s' ∧ Exhausts id s op

/-- An identity which nothing obliges: it executes no task, all its settled tasks are released, and
none of its challenges is pending. -/
structure Unobliged (s : State) (id : Identity) : Prop where
  tasks : ∀ (task : TaskId) (sub : Submission), s.tasks[task]? = some sub →
    sub.provider = some id → sub.status ≠ .executing ∧ (sub.status = .settled → task ∈ s.released)
  challenges : ∀ (task : TaskId) (pc : ChallengeRecord), s.pendingChallenges[task]? = some pc →
    pc.challenger ≠ id

/-- Nothing is outstanding for an identity which nothing obliges. -/
theorem Unobliged.outstanding_eq {s : State} {id : Identity} (unobliged : Unobliged s id) :
    s.outstanding id = 0 := by
  rw [State.outstanding, Nat.add_eq_zero_iff]
  constructor
  · apply total_eq_zero
    intro task sub found
    rw [if_neg]
    rintro ⟨provided, executing | ⟨settled, unreleased, _⟩⟩
    · exact (unobliged.tasks task sub found provided).1 executing
    · exact unreleased ((unobliged.tasks task sub found provided).2 settled)
  · apply total_eq_zero
    intro task pc found
    exact if_neg (unobliged.challenges task pc found)

theorem Unobliged.of_failed {s : State} (id : Identity) (unchallenged : s.pendingChallenges = ∅)
    (failed : ∀ entry ∈ s.tasks.toList, entry.2.status = .failed) : Unobliged s id where
  tasks task sub found _ := by
    have status : sub.status = .failed :=
      failed (task, sub) (ExtTreeMap.mem_toList_iff_getElem?_eq_some.mpr found)
    simp [status]
  challenges task pc found := by simp [unchallenged] at found

/-- Along every run in which each slashing of an identity draws all that its pool held beyond what
is still owed, the identity has nothing bonded once nothing obliges it.  A slashing which draws less
leaves more bonded than is outstanding. -/
theorem no_stranded_bonds [Crypto] (id : Identity) :
    (∀ (allocations : List (Identity × Ucu)) (epoch : Epoch) (start s : State) (ops : List Op),
      State.genesis allocations epoch = .ok start → Run (ExhaustingStep id) start ops s →
      Unobliged s id → (s.acct id).bonded = 0) ∧
    ∀ (s s' : State) (op : Op) (task : TaskId) (sub : Submission) (receipt : Receipt) (fine : Ucu),
      Reachable s → Step s op s' → op.convicted s = some task →
      Convictable s op.params id task sub receipt fine →
      ((s'.acct id).bonded.toNat ≤ s'.outstanding id ↔
        (s.acct id).bonded.toNat + freedStake s task sub ≤
          s.outstanding id + receipt.paidToProvider.toNat + fine.toNat) := by
  constructor
  · intro allocations epoch start s ops genesis_eq run unobliged
    have genesis := State.genesis_effect genesis_eq
    have initial : InPhase start ∧ surplus id start ≤ 0 :=
      ⟨genesis.inPhase, (genesis.surplus id).le⟩
    obtain ⟨phases, tight⟩ := run.invariant
      (fun state => InPhase state ∧ surplus id state ≤ 0) initial fun held taken =>
        ⟨taken.1.preserves InPhase Event.inPhase held.1, taken.1.tight id held.1 taken.2 held.2⟩
    rw [phases.surplus_eq, unobliged.outstanding_eq] at tight
    apply BitVec.eq_of_toNat_eq
    change (s.acct id).bonded.toNat = 0
    omega
  · intro s s' op task sub receipt fine reachable step convicted convictable
    have before := reachable.inPhase.surplus_eq id
    have after := (reachable.step step).inPhase.surplus_eq id
    have exact := step.tight_iff id reachable.inPhase convicted convictable
    omega

section Sample

open Sample

attribute [local instance] Crypto.checksum

/-- A provider which is slashed for a small payment keeps the rest of its stake bonded, long after
the window has ended. -/
theorem stake_stranded : ∃ s, Reachable s ∧ Unobliged s bob ∧ (s.acct bob).bonded = 470 := by
  have stranded : (outcomeOf allocations 0 (settled 10 ++ [.resolveFraud (task 0) none .devnet] ++
      List.replicate 40 (.advanceEpoch .devnet))).any (fun s =>
        (s.acct bob).bonded = 470 ∧ s.pendingChallenges = ∅ ∧
          ∀ entry ∈ s.tasks.toList, entry.2.status = .failed) = true := by decide +kernel
  obtain ⟨s, ran, stranded⟩ := (Option.any_eq_true _ _).mp stranded
  obtain ⟨bonded, unchallenged, failed⟩ := of_decide_eq_true stranded
  exact ⟨s, reachable_of_outcomeOf ran, .of_failed bob unchallenged failed, bonded⟩

theorem no_stranded_bonds_drained : ∃ s s', outcomeOf allocations 0 (settled 400) = some s ∧
    (s.acct bob).bonded = 500 ∧ Step s (.resolveFraud (task 0) none .devnet) s' ∧
    Unobliged s' bob ∧ (s'.acct bob).bonded = 0 ∧
    (s'.acct bob).bonded.toNat ≤ s'.outstanding bob := by
  have slashable : (outcomeOf allocations 0 (settled 400)).any (fun s =>
      (s.acct bob).bonded = 500 ∧ task 0 ∉ s.slashed ∧
        (s.tasks[task 0]?).any fun sub => sub.provider = some bob ∧
          (s.receipts[task 0]?).any fun receipt =>
            (Params.devnet.fine receipt.paidToProvider).toOption.any fun fine =>
              (s.acct bob).bonded.toNat + freedStake s (task 0) sub ≤
                s.outstanding bob + receipt.paidToProvider.toNat + fine.toNat) = true := by
    decide +kernel
  have drained : (outcomeOf allocations 0 (settled 400 ++
      [.resolveFraud (task 0) none .devnet])).any (fun s => s.pendingChallenges = ∅ ∧
        ∀ entry ∈ s.tasks.toList, entry.2.status = .failed) = true := by decide +kernel
  obtain ⟨s', ran, drained⟩ := (Option.any_eq_true _ _).mp drained
  obtain ⟨s, earlier, step⟩ := outcomeOf_snoc ran
  rw [earlier, Option.any_some, decide_eq_true_eq] at slashable
  obtain ⟨bonded, unslashed, provided⟩ := slashable
  obtain ⟨sub, sub_eq, provided⟩ := (Option.any_eq_true _ _).mp provided
  obtain ⟨provider_eq, receipted⟩ := of_decide_eq_true provided
  obtain ⟨receipt, receipt_eq, fined⟩ := (Option.any_eq_true _ _).mp receipted
  obtain ⟨fine, fine_eq, drawn⟩ := (Option.any_eq_true _ _).mp fined
  have convictable : Convictable s .devnet bob (task 0) sub receipt fine :=
    ⟨unslashed, sub_eq, provider_eq, receipt_eq,
      Checked.toOption_eq_some.mp fine_eq⟩
  have drawn := of_decide_eq_true drawn
  have exhausts : Exhausts bob s (.resolveFraud (task 0) none .devnet) := by
    intro probe convicted sub' receipt' fine' convictable'
    obtain rfl := Option.some.inj convicted
    obtain ⟨rfl, rfl, rfl⟩ := convictable.unique convictable'
    exact drawn
  obtain ⟨start, genesis_eq, folded⟩ := outcomeOf_eq_some.mp earlier
  have exhausting : Run (ExhaustingStep bob) start (settled 400) s := by
    refine (Run.of_returns folded).mono fun op member before after taken => ⟨taken, ?_⟩
    simp only [settled, sent, List.mem_cons, List.not_mem_nil, or_false] at member
    rcases member with rfl | rfl | rfl
    all_goals
      intro probe convicted
      cases convicted
  obtain ⟨unchallenged, failed⟩ := of_decide_eq_true drained
  have unobliged : Unobliged s' bob := .of_failed bob unchallenged failed
  exact ⟨s, s', earlier, bonded, step, unobliged,
    (no_stranded_bonds bob).1 allocations 0 start s' _ genesis_eq
      (exhausting.snoc ⟨step, exhausts⟩) unobliged,
    ((no_stranded_bonds bob).2 s s' _ (task 0) sub receipt fine
      (reachable_of_outcomeOf earlier) step rfl convictable).mpr drawn⟩

end Sample

end Ducp
