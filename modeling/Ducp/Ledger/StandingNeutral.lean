import Ducp.Ledger.Ordering

/-!
# Standing is not money

Standing enters a claim through its stake alone, and a stake only moves funds between the balance
and the bond of one account.  Two runs over the same transactions and epoch boundaries from states
with different Standings agree on everything which does not tell balance from bond.
-/

namespace Ducp

open DoubleEntry MapSum Outcome Std
open Finsupp (single)

/-! ## Alike states -/

/-- What of a book does not tell a balance from a bond. -/
inductive Gauge
  | owned (id : Identity)
  | escrowed (id : Identity)
  | pool
  | burned

/-- The reading of a book. -/
noncomputable def Gauge.read : Gauge → (Bucket →₀ ℕ) →+ ℕ
  | owned id => Finsupp.applyAddHom (.balance id) + Finsupp.applyAddHom (.bonded id)
  | escrowed id => Finsupp.applyAddHom (.escrowed id)
  | pool => Finsupp.applyAddHom .pool
  | burned => Finsupp.applyAddHom .burned

/-- A submission up to its claim stake. -/
def Submission.unstaked (sub : Submission) : Submission := { sub with claimStake := 0 }

/-- The records beside the Standings and the submissions. -/
def Records.settlements (records : Records) : Records :=
  { records with standing := ∅, tasks := ∅ }

/-- Two states which agree up to Standings, claim stakes, and the part of an account which is
bonded. -/
structure Alike (s t : State) : Prop where
  settlements : s.records.settlements = t.records.settlements
  tasks : ∀ task : TaskId,
    (s.tasks[task]?).map Submission.unstaked = (t.tasks[task]?).map Submission.unstaked
  minted : s.supply.minted = t.supply.minted
  book : ReadAlike Gauge.read s.book t.book

section Fields

variable {s t : State}

namespace Alike

theorem field {α : Type} (alike : Alike s t) (field : Records → α) :
    field s.records.settlements = field t.records.settlements :=
  congrArg field alike.settlements

theorem sub (alike : Alike s t) {task : TaskId} {sub : Submission}
    (found : s.tasks[task]? = some sub) :
    ∃ sub', t.tasks[task]? = some sub' ∧ sub'.unstaked = sub.unstaked := by
  have same := alike.tasks task
  rw [found, Option.map_some] at same
  exact Option.map_eq_some_iff.mp same.symm

end Alike

/-- Corresponding submissions differ in their stakes alone. -/
theorem unstaked_fields {sub sub' : Submission} (same : sub'.unstaked = sub.unstaked) :
    sub' = { sub with claimStake := sub'.claimStake } := by
  cases sub
  cases sub'
  simp only [Submission.unstaked, Submission.mk.injEq] at same ⊢
  tauto

/-- Corresponding submissions stay so when both are rewritten. -/
theorem tasks_insert {tasks tasks' : ExtTreeMap TaskId Submission} {task : TaskId}
    {sub sub' : Submission}
    (alike : ∀ probe : TaskId,
      (tasks[probe]?).map Submission.unstaked = (tasks'[probe]?).map Submission.unstaked)
    (same : sub.unstaked = sub'.unstaked) (probe : TaskId) :
    ((tasks.insert task sub)[probe]?).map Submission.unstaked =
      ((tasks'.insert task sub')[probe]?).map Submission.unstaked := by
  rw [getElem?_insert, getElem?_insert]
  split
  · exact congrArg some same
  · exact alike probe

variable {s' t' : State}

/-- Corresponding effects on alike states lead to alike states. -/
theorem Becomes.alike {records records' : Records} {minted minted' : ℕ}
    {debits credits debits' credits' : Bucket →₀ ℕ} (alike : Alike s t)
    (becomes : Becomes s records minted debits credits s')
    (becomes' : Becomes t records' minted' debits' credits' t')
    (settlements : records.settlements = records'.settlements)
    (tasks : ∀ task : TaskId, (records.tasks[task]?).map Submission.unstaked =
      (records'.tasks[task]?).map Submission.unstaked)
    (issued : minted = minted')
    (net : ReadAlike Gauge.read (credits + debits') (credits' + debits)) : Alike s' t' where
  settlements := by rw [becomes.records, becomes'.records, settlements]
  tasks task := by
    have rewritten : s'.tasks = records.tasks := congrArg Records.tasks becomes.records
    have rewritten' : t'.tasks = records'.tasks := congrArg Records.tasks becomes'.records
    rw [rewritten, rewritten', tasks]
  minted := by
    apply BitVec.eq_of_toNat_eq
    rw [becomes.minted, becomes'.minted, alike.minted, issued]
  book := alike.book.posts becomes.posts becomes'.posts net

theorem readAlike_refl (book : Bucket →₀ ℕ) : ReadAlike Gauge.read book book := fun _ => rfl

/-- The stakes of two claims differ, but either one stays within the account. -/
theorem Claims.alike {author : Identity} {params : Params} {task : TaskId} {body body' : TaskBody}
    {sub sub' : Submission} {stake stake' : Ucu} (alike : Alike s t)
    (claims : Claims s author task params body sub stake s')
    (claims' : Claims t author task params body' sub' stake' t') : Alike s' t' := by
  obtain ⟨found, found_eq, same⟩ := alike.sub claims.sub_eq
  obtain rfl : sub' = found := Option.some.inj (claims'.sub_eq.symm.trans found_eq)
  refine claims.toBecomes.alike alike claims'.toBecomes alike.settlements ?_ rfl fun gauge => ?_
  · refine tasks_insert alike.tasks ?_
    rw [unstaked_fields same]
    rfl
  · cases gauge with
    | owned id => simp [Gauge.read, Finsupp.single_apply]; omega
    | escrowed id => simp [Gauge.read]
    | pool => simp [Gauge.read]
    | burned => simp [Gauge.read]

/-- Two settlements of one proof write the same receipt. -/
theorem Settles.alike {author : Identity} {params : Params} {proof : ComputeProof}
    {body body' : TaskBody} {sub sub' : Submission} {receipt receipt' : Receipt}
    {record record' : StandingRecord} (alike : Alike s t)
    (settles : Settles s author proof params body sub receipt record s')
    (settles' : Settles t author proof params body' sub' receipt' record' t') : Alike s' t' := by
  obtain ⟨found, found_eq, same⟩ := alike.sub settles.sub_eq
  obtain rfl : sub' = found := Option.some.inj (settles'.sub_eq.symm.trans found_eq)
  have bodies : s.bodies = t.bodies := alike.field Records.bodies
  have epoch : s.epoch = t.epoch := alike.field Records.epoch
  obtain rfl : body = body' := by
    have body_eq := settles.body_eq
    rw [bodies, settles'.body_eq] at body_eq
    exact (Option.some.inj body_eq).symm
  have sub_eq := unstaked_fields same
  have fee : sub'.fee = sub.fee := by rw [sub_eq]
  have requester : sub'.requester = sub.requester := by rw [sub_eq]
  have settlement' : Settlement t author proof params sub.fee receipt' record' := by
    rw [← fee]
    exact settles'.toSettlement
  obtain rfl := settles.toSettlement.receipt_unique settlement' epoch
  refine settles.toBecomes.alike alike settles'.toBecomes ?_ ?_ rfl ?_
  · exact alike.field fun records => { records with
      proofs := records.proofs.insert proof.task proof
      receipts := records.receipts.insert proof.task receipt
      qLedger := records.qLedger.insert proof.task
        (.unmeasured proof.task proof.ucuCount body.benchmark) }
  · refine tasks_insert alike.tasks ?_
    rw [sub_eq]
    rfl
  · rw [fee, requester]
    exact readAlike_refl _

/-- A payload on alike states leads to alike states. -/
theorem Payload.alike [Crypto] {author : Identity} {params : Params} {tx : Tx} (alike : Alike s t)
    (payload : Payload s author params tx s') (payload' : Payload t author params tx t') :
    Alike s' t' := by
  cases payload with
  | @submitTask body task fee _ submits =>
      cases payload' with
      | submitTask submits' =>
          obtain ⟨rfl, rfl⟩ := submits.unique submits'
          refine submits.toBecomes.alike alike submits'.toBecomes ?_ ?_ rfl (readAlike_refl _)
          · exact alike.field fun records => { records with
              bodies := records.bodies.insert task body }
          · exact tasks_insert alike.tasks rfl
  | claimTask claims =>
      cases payload' with
      | claimTask claims' =>
          exact claims.alike alike claims'
  | submitProof settles =>
      cases payload' with
      | submitProof settles' =>
          exact settles.alike alike settles'
  | @challenge task bond receipt sub _ opens =>
      cases payload' with
      | challenge opens' =>
          refine opens.toBecomes.alike alike opens'.toBecomes ?_ alike.tasks rfl (readAlike_refl _)
          exact alike.field fun records => { records with
            pendingChallenges :=
              records.pendingChallenges.insert task { challenger := author, bond } }
  | transfer moves =>
      cases payload' with
      | transfer moves' =>
          have becomes := moves.becomes moves.records rfl rfl
          have becomes' := moves'.becomes moves'.records rfl rfl
          exact becomes.alike alike becomes' alike.settlements alike.tasks rfl (readAlike_refl _)

/-! ## Epoch boundaries -/

/-- A release moves a stake within one account. -/
theorem Releases.readAlike {matured : TaskId × Identity × Ucu} {receipt : Receipt}
    {sub : Submission} (releases : Releases s matured receipt sub s') :
    ReadAlike Gauge.read s'.book s.book := by
  refine .of_posts releases.posts fun gauge => ?_
  cases gauge with
  | owned id => simp [Gauge.read, Finsupp.single_apply]
  | escrowed id => simp [Gauge.read]
  | pool => simp [Gauge.read]
  | burned => simp [Gauge.read]

/-- An epoch boundary neither mints nor moves anything between accounts. -/
theorem State.Advances.readAlike {params : Params} {ticked : State}
    (advances : State.Advances s params ticked s') :
    s'.supply.minted = s.supply.minted ∧ ReadAlike Gauge.read s'.book s.book := by
  obtain ⟨epoch, standing, _, rfl, _⟩ := advances.ticks
  apply advances.run.invariant fun state =>
    state.supply.minted = s.supply.minted ∧ ReadAlike Gauge.read state.book s.book
  · exact ⟨rfl, readAlike_refl _⟩
  · rintro before stake after ⟨minted, book⟩ ⟨receipt, sub, releases⟩
    refine ⟨?_, releases.readAlike.trans book⟩
    rw [← minted]
    exact BitVec.eq_of_toNat_eq releases.minted

/-- Alike states release the stakes of the same tasks. -/
theorem Alike.released_iff {params : Params} {ticked ticked' : State} (alike : Alike s t)
    (advances : State.Advances s params ticked s')
    (advances' : State.Advances t params ticked' t') (task : TaskId)
    (released : task ∈ s'.released) : task ∈ t'.released := by
  have released_eq : s.released = t.released := alike.field Records.released
  have receipts_eq : s.receipts = t.receipts := alike.field Records.receipts
  have slashed_eq : s.slashed = t.slashed := alike.field Records.slashed
  have epoch_eq : s.epoch = t.epoch := alike.field Records.epoch
  rw [advances'.released]
  rcases (advances.released task).mp released with earlier | matures
  · exact .inl (released_eq ▸ earlier)
  · right
    obtain ⟨epoch, standing, epoch_next, rfl, _⟩ := advances.ticks
    obtain ⟨epoch', standing', epoch_next', rfl, _⟩ := advances'.ticks
    obtain rfl : epoch = epoch' := by
      apply BitVec.eq_of_toNat_eq
      rw [epoch_next, epoch_next', epoch_eq]
    obtain ⟨matured, member, rfl⟩ := List.mem_map.mp matures
    obtain ⟨receipt, receipt_eq, matures⟩ := State.mem_toRelease.mp member
    obtain ⟨_, closed, unreleased, unslashed, sub, sub_eq, provider, _⟩ :=
      State.maturedStake_eq_some.mp matures
    obtain ⟨sub', sub_eq', same⟩ := alike.sub sub_eq
    have provider' : sub'.provider = some matured.2.1 := by
      rw [unstaked_fields same]
      exact provider
    refine List.mem_map.mpr ⟨(matured.1, matured.2.1, sub'.claimStake), ?_, rfl⟩
    refine State.mem_toRelease.mpr ⟨receipt, receipts_eq ▸ receipt_eq, ?_⟩
    exact State.maturedStake_eq_some.mpr ⟨rfl, closed, released_eq ▸ unreleased,
      slashed_eq ▸ unslashed, sub', sub_eq', provider', rfl⟩

theorem Alike.symm (alike : Alike s t) : Alike t s :=
  ⟨alike.settlements.symm, fun task => (alike.tasks task).symm, alike.minted.symm,
    alike.book.symm⟩

/-- An epoch boundary of alike states leads to alike states. -/
theorem State.Advances.alike {params : Params} {ticked ticked' : State} (alike : Alike s t)
    (advances : State.Advances s params ticked s')
    (advances' : State.Advances t params ticked' t') : Alike s' t' := by
  have released : s'.released = t'.released := ExtTreeSet.ext_mem fun task =>
    ⟨alike.released_iff advances advances' task, alike.symm.released_iff advances' advances task⟩
  obtain ⟨minted, book⟩ := advances.readAlike
  obtain ⟨minted', book'⟩ := advances'.readAlike
  obtain ⟨epoch, standing, epoch_next, records⟩ := advances.records_eq
  obtain ⟨epoch', standing', epoch_next', records'⟩ := advances'.records_eq
  have epoch_eq : epoch = epoch' := by
    have same : s.epoch = t.epoch := alike.field Records.epoch
    apply BitVec.eq_of_toNat_eq
    rw [epoch_next, epoch_next', same]
  refine ⟨?_, fun task => ?_, ?_, book.trans (alike.book.trans book'.symm)⟩
  · rw [records, records', released, epoch_eq]
    exact alike.field fun records => { records with epoch := epoch', released := t'.released }
  · have tasks : s'.tasks = s.tasks := congrArg Records.tasks records
    have tasks' : t'.tasks = t.tasks := congrArg Records.tasks records'
    rw [tasks, tasks', alike.tasks]
  · rw [minted, minted', alike.minted]

/-! ## Runs -/

/-- A transaction or an epoch boundary. -/
inductive Op.Ordinary : Op → Prop
  | apply (stx : SignedTx) (params : Params) : Op.Ordinary (.apply stx params)
  | advanceEpoch (params : Params) : Op.Ordinary (.advanceEpoch params)

variable [Crypto]

/-- An accepted transaction or an epoch boundary. -/
def OrdinaryStep (s : State) (op : Op) (s' : State) : Prop := Step s op s' ∧ op.Ordinary

/-- One operation on alike states, accepted from both, leads to alike states. -/
theorem OrdinaryStep.alike {op : Op} (alike : Alike s t) (step : OrdinaryStep s op s')
    (step' : OrdinaryStep t op t') : Alike s' t' := by
  cases step.2 with
  | apply stx params =>
      cases step.1.effect with
      | @apply _ _ next _ _ nonce next_eq payload =>
          cases step'.1.effect with
          | @apply _ _ next' _ _ _ next_eq' payload' =>
              obtain rfl : next = next' := BitVec.eq_of_toNat_eq (next_eq.trans next_eq'.symm)
              have bumped : Alike { s with nonces := s.nonces.insert stx.author next }
                  { t with nonces := t.nonces.insert stx.author next } :=
                { alike with
                  settlements := alike.field fun records => { records with
                    nonces := records.nonces.insert stx.author next } }
              exact payload.alike bumped payload'
  | advanceEpoch params =>
      cases step.1.effect with
      | advanceEpoch advances =>
          cases step'.1.effect with
          | advanceEpoch advances' => exact advances.alike alike advances'

end Fields

/-- From two states which differ in their Standings alone, the same transactions and epoch
boundaries, accepted in both runs, lead to states which agree on every record up to claim stakes,
on the supply and the fee pool, and for every identity on what is escrowed and on what is balance
or bond. -/
theorem standing_not_money [Crypto] {s t s' t' : State} {ops : List Op}
    (differ : ∃ standing, t = { s with standing }) (run : Run OrdinaryStep s ops s')
    (run' : Run OrdinaryStep t ops t') :
    s'.bodies = t'.bodies ∧ s'.proofs = t'.proofs ∧ s'.receipts = t'.receipts ∧
      s'.qLedger = t'.qLedger ∧ s'.pendingChallenges = t'.pendingChallenges ∧
      s'.slashed = t'.slashed ∧ s'.released = t'.released ∧ s'.nonces = t'.nonces ∧
      s'.supply = t'.supply ∧ s'.feePool = t'.feePool ∧ s'.epoch = t'.epoch ∧
      (∀ task : TaskId, (s'.tasks[task]?).map Submission.unstaked =
        (t'.tasks[task]?).map Submission.unstaked) ∧
      ∀ id, (s'.acct id).escrowed = (t'.acct id).escrowed ∧
        (s'.acct id).balance.toNat + (s'.acct id).bonded.toNat =
          (t'.acct id).balance.toNat + (t'.acct id).bonded.toNat := by
  obtain ⟨standing, rfl⟩ := differ
  have start : Alike s { s with standing } := ⟨rfl, fun _ => rfl, rfl, readAlike_refl _⟩
  have alike : Alike s' t' := by
    refine Run.paired Alike start ?_ run run'
    exact fun held step step' => step.alike held step'
  have pool := alike.book .pool
  have burned := alike.book .burned
  simp only [Gauge.read, Finsupp.applyAddHom_apply, State.book_pool, State.book_burned]
    at pool burned
  have supply : s'.supply = t'.supply := by
    have minted := alike.minted
    have burned_eq := BitVec.eq_of_toNat_eq burned
    cases left : s'.supply
    cases right : t'.supply
    simp_all
  refine ⟨alike.field Records.bodies, alike.field Records.proofs, alike.field Records.receipts,
    alike.field Records.qLedger, alike.field Records.pendingChallenges,
    alike.field Records.slashed, alike.field Records.released, alike.field Records.nonces, supply,
    BitVec.eq_of_toNat_eq pool, alike.field Records.epoch, alike.tasks, fun id => ⟨?_, ?_⟩⟩
  · have escrowed := alike.book (.escrowed id)
    simp only [Gauge.read, Finsupp.applyAddHom_apply, State.book_escrowed] at escrowed
    exact BitVec.eq_of_toNat_eq escrowed
  · have owned := alike.book (.owned id)
    simpa only [Gauge.read, AddMonoidHom.add_apply, Finsupp.applyAddHom_apply,
      State.book_balance, State.book_bonded] using owned

section Sample

open Sample

attribute [local instance] Crypto.checksum

/-- A Standing which takes four fifths off the stake of bob. -/
def Sample.reputed (s : State) : State :=
  { s with standing := s.standing.insert bob { StandingRecord.new bob 0 with sp := 10 ^ 12 } }

/-- A settlement, a challenge and an epoch boundary. -/
def Sample.ordinary : List Op :=
  settled 400 ++ [sent carol 0 (.challenge (task 0) 200), .advanceEpoch .devnet]

/-- The state after the history, when every operation is accepted. -/
def Sample.ordinaryFrom (s : State) : Option State :=
  match (ordinary.foldlM Op.exec s).run with
  | .ok (.ok s') => some s'
  | _ => none

/-- The history is a run of transactions and epoch boundaries. -/
theorem ordinaryFrom_eq_some {s s' : State} (ran : ordinaryFrom s = some s') :
    Run OrdinaryStep s ordinary s' := by
  have returned : (ordinary.foldlM Op.exec s).Returns s' := by
    unfold ordinaryFrom at ran
    unfold Returns
    split at ran <;> simp_all
  have run : Run Step s ordinary s' := Run.of_returns returned
  refine run.mono fun op member before after step => ⟨step, ?_⟩
  simp only [ordinary, settled, sent, List.cons_append, List.nil_append, List.mem_cons,
    List.not_mem_nil, or_false] at member
  rcases member with rfl | rfl | rfl | rfl | rfl
  all_goals constructor

/-- The reputed provider has bonded less, and owns the same. -/
theorem standing_not_money_reputed : ∃ s s' t', State.genesis allocations 0 = .ok s ∧
    Run OrdinaryStep s ordinary s' ∧ Run OrdinaryStep (reputed s) ordinary t' ∧
      (s'.acct bob).bonded = 500 ∧ (t'.acct bob).bonded = 100 ∧ s'.receipts = t'.receipts ∧
      (s'.acct bob).balance.toNat + (s'.acct bob).bonded.toNat =
        (t'.acct bob).balance.toNat + (t'.acct bob).bonded.toNat := by
  have ran : (State.genesis allocations 0).toOption.any (fun s =>
      (ordinaryFrom s).any fun s' => (ordinaryFrom (reputed s)).any fun t' =>
        (s'.acct bob).bonded = 500 ∧ (t'.acct bob).bonded = 100) = true := by decide +kernel
  obtain ⟨s, genesis, ran⟩ := (Option.any_eq_true _ _).mp ran
  obtain ⟨s', left, ran⟩ := (Option.any_eq_true _ _).mp ran
  obtain ⟨t', right, bonded⟩ := (Option.any_eq_true _ _).mp ran
  obtain ⟨bonded, bonded'⟩ := of_decide_eq_true bonded
  have run := ordinaryFrom_eq_some left
  have run' := ordinaryFrom_eq_some right
  obtain ⟨_, _, receipts, _, _, _, _, _, _, _, _, _, owned⟩ :=
    standing_not_money ⟨_, rfl⟩ run run'
  exact ⟨s, s', t', Checked.toOption_eq_some.mp genesis, run, run', bonded, bonded', receipts,
    (owned bob).2⟩

end Sample

end Ducp
