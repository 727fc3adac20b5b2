import Ducp.Ledger.Fading
import Ducp.Ledger.Growth
import Ducp.Ledger.Penalties
import Ducp.Ledger.Verdicts
import Ducp.Node.Chain
import Ducp.Node.Rpc
import Ducp.Signing

/-!
# Availability

A panic under the lock poisons the node for good.  In range no request causes one, whatever it
carries, as long as the ledger is small enough to be hashed.
-/

namespace Ducp

open Borsh Guarded MapSum Std

/-! ## What can be hashed -/

section Encoding

variable {s s' : State}

/-- Every recorded proof can be encoded. -/
def ProofsFit (s : State) : Prop :=
  ∀ (task : TaskId) (proof : ComputeProof), s.proofs[task]? = some proof → fits proof = true

/-- A map of few entries, all of which can be encoded, can be encoded. -/
theorem fits_map {size : ℕ} {β : Type} [Borsh β] {entries : ExtTreeMap (Bytes size) β}
    (few : entries.size < 2 ^ 32)
    (each : ∀ (key : Bytes size) (value : β), entries[key]? = some value → fits value = true) :
    fits entries = true := by
  have listed : ∀ entry ∈ entries.toList, fits entry = true := fun entry member => by
    have found := ExtTreeMap.mem_toList_iff_getElem?_eq_some.mp member
    exact Bool.and_eq_true_iff.mpr ⟨rfl, each _ _ found⟩
  exact Bool.and_eq_true_iff.mpr
    ⟨decide_eq_true (by rwa [ExtTreeMap.length_toList]), List.all_eq_true.mpr listed⟩

theorem fits_set {size : ℕ} {elements : ExtTreeSet (Bytes size)} (few : elements.size < 2 ^ 32) :
    fits elements = true :=
  Bool.and_eq_true_iff.mpr
    ⟨decide_eq_true (by rwa [ExtTreeSet.length_toList]), List.all_eq_true.mpr fun _ _ => rfl⟩

theorem fits_pair {α β : Type} [Borsh α] [Borsh β] {first : α} {second : β}
    (first_fits : fits first = true) (second_fits : fits second = true) :
    fits (first, second) = true :=
  Bool.and_eq_true_iff.mpr ⟨first_fits, second_fits⟩

/-- The encoding of a state is limited by its sizes alone. -/
theorem fits_of_proofsFit (proofsFit : ProofsFit s) (sized : Sized (2 ^ 32 - 1) s) :
    fits s = true := by
  simp only [Sized, State.sizes, Records.sizes, State.records, List.forall_mem_cons,
    Nat.le_sub_one_iff_lt (show 0 < 2 ^ 32 by norm_num)] at sized
  obtain ⟨accounts, standing, bodies, tasks, proofs, receipts, qLedger, pendingChallenges, slashed,
    released, nonces, _⟩ := sized
  have tasks_fit : fits s.tasks = true := fits_map tasks fun _ sub _ => by
    simp only [fits, Bool.true_and, Bool.and_true]
    cases sub.provider <;> rfl
  have entries_fit : fits s.qLedger = true := fits_map qLedger fun _ entry _ => by
    simp only [fits, Bool.true_and, Bool.and_true]
    cases entry.q <;> cases entry.sealGrade <;> cases entry.boundary <;> rfl
  exact fits_pair (fits_map accounts fun _ _ _ => rfl) <|
    fits_pair (fits_map standing fun _ _ _ => rfl) <|
    fits_pair (fits_map bodies fun _ _ _ => rfl) <| fits_pair tasks_fit <|
    fits_pair (fits_map proofs proofsFit) <| fits_pair (fits_map receipts fun _ _ _ => rfl) <|
    fits_pair entries_fit <| fits_pair (fits_map pendingChallenges fun _ _ _ => rfl) <|
    fits_pair (fits_set slashed) <| fits_pair (fits_set released) <|
    fits_pair (fits_map nonces fun _ _ _ => rfl) rfl

variable [Crypto]

/-- Only a proof which has been signed, and so encoded, is recorded. -/
theorem Step.proofsFit {op : Op} (proofsFit : ProofsFit s) (step : Step s op s') :
    ProofsFit s' := by
  have kept (proofs_eq : s'.proofs = s.proofs) : ProofsFit s' := by
    rwa [ProofsFit, proofs_eq]
  cases step.effect with
  | @apply stx params next _ verified _ _ payload =>
      obtain ⟨_, signed, _⟩ := Checked.bind_eq_ok.mp verified
      have encodes := (signingPayload_eq_ok.mp signed).1
      generalize stx.tx = tx at payload encodes
      cases payload with
      | submitTask submits => exact kept (congrArg Records.proofs submits.records)
      | claimTask claims => exact kept (congrArg Records.proofs claims.records)
      | @submitProof proof _ _ _ _ _ settles =>
          have proofs_eq : s'.proofs = s.proofs.insert proof.task proof :=
            congrArg Records.proofs settles.records
          intro task found found_eq
          rw [proofs_eq, getElem?_insert] at found_eq
          split at found_eq
          · obtain rfl := Option.some.inj found_eq
            exact encodes
          · exact proofsFit task found found_eq
      | challenge opens => exact kept (congrArg Records.proofs opens.records)
      | transfer moves => exact kept (congrArg Records.proofs moves.records)
  | advanceEpoch advances =>
      obtain ⟨_, _, _, records⟩ := advances.records_eq
      exact kept (congrArg Records.proofs records)
  | resolveFraud convicts => exact kept convicts.spares.proofs
  | resolveChallenge closes => exact kept closes.spares.proofs

theorem Reachable.proofsFit (reachable : Reachable s) : ProofsFit s := by
  obtain ⟨allocations, epoch, start, ops, genesis_eq, run⟩ := reachable
  have proofs_eq : start.proofs = ∅ :=
    congrArg Records.proofs (State.genesis_effect genesis_eq).records
  refine run.invariant ProofsFit (fun task proof found => ?_) Step.proofsFit
  simp [proofs_eq] at found

/-- A reachable state whose maps are short enough for their length prefixes is hashed. -/
theorem Reachable.exists_stateRoot (reachable : Reachable s) {most : ℕ} (sized : Sized most s)
    (short : most < 2 ^ 32) : ∃ root, s.stateRoot = .ok root :=
  ⟨_, hashCanonical_eq_ok.mpr
    ⟨fits_of_proofsFit reachable.proofsFit (sized.mono (by omega)), rfl⟩⟩

/-- The state after a step is hashed as well. -/
theorem Reachable.step_stateRoot (reachable : Reachable s) (sized : Sized (2 ^ 30 + 6) s) {op : Op}
    (step : Step s op s') : ∃ root, s'.stateRoot = .ok root :=
  (reachable.step step).exists_stateRoot (step.sized sized) (by norm_num)

/-- A transaction which is encoded to be identified is encoded to be verified. -/
theorem apply_encodes {stx : SignedTx} {txId : TxId} {params : Params}
    (identified : stx.txId = .ok txId) : (s.apply stx params).Avoids .encoding := by
  have encodes : fits stx.tx = true := by
    have fits_stx := (hashCanonical_eq_ok.mp identified).1
    exact (Bool.and_eq_true_iff.mp (Bool.and_eq_true_iff.mp fits_stx).2).1
  have verified : Checked.Avoids .encoding stx.verifySig := by
    simp [SignedTx.verifySig, signingPayload_eq_ok.mpr ⟨encodes, rfl⟩]
  simp only [State.apply, State.checkAndBumpNonce, Outcome.avoids_bind, Outcome.avoids_lift,
    Outcome.avoids_rejectIf, Outcome.avoids_pure, verified, true_and]
  refine fun _ _ _ _ => ⟨by simp, fun bumped _ => ?_⟩
  cases stx.tx with
  | submitTask body =>
      obtain ⟨task, taskId⟩ := taskId_total body
      simp [State.applyTx, State.submitTask, taskId]
  | claimTask task => simp [State.applyTx, State.claimTask]
  | submitProof proof => simp [State.applyTx, State.submitProof, State.settle]
  | challenge task bond => simp [State.applyTx, State.openChallenge]
  | transfer recipient amount => simp [State.applyTx, State.transfer]

end Encoding

/-! ## Critical sections which complete -/

section Sections

variable [Crypto] {node : NodeHandle} {inner : NodeInner} {engine : SingleSequencer}
  {post : State} {root : Hash}

/-- A block of few transactions is appended. -/
theorem exists_append {block : Block} (few : block.txs.length < 2 ^ 32) (txs : List SignedTx) :
    ∃ inner', inner.append block txs post = .ok inner' := by
  have txs_fit : fits block.txs = true :=
    Bool.and_eq_true_iff.mpr ⟨decide_eq_true few, List.all_eq_true.mpr fun _ _ => rfl⟩
  have block_fits : fits block = true :=
    fits_pair rfl <| fits_pair rfl <| fits_pair rfl <| fits_pair txs_fit rfl
  obtain ⟨parent, hashed⟩ : ∃ parent, block.blockHash = .ok parent :=
    ⟨_, hashCanonical_eq_ok.mpr ⟨block_fits, rfl⟩⟩
  simp only [NodeInner.append, SingleSequencer.adopt, hashed, Checked.bind_eq_ok,
    Checked.pure_eq_ok]
  exact ⟨_, _, ⟨_, rfl, rfl⟩, rfl⟩

/-- A transition is sealed and appended while there is room for its height. -/
theorem exists_seal (room : engine.height.toNat + 1 < 2 ^ 64) (hashed : post.stateRoot = .ok root) :
    ∃ block, engine.sealBlock post = .ok block ∧
      ∀ inner : NodeInner, ∃ inner', inner.append block [] post = .ok inner' := by
  obtain ⟨height, height_eq, _⟩ : ∃ height, Checked.add engine.height 1 = .ok height ∧ _ :=
    Checked.exists_add room
  simp only [SingleSequencer.sealBlock, height_eq, hashed, Checked.bind_eq_ok, Checked.pure_eq_ok]
  exact ⟨_, ⟨_, rfl, _, rfl, rfl⟩, fun inner => exists_append (by simp) []⟩

/-- A verdict which can be applied and hashed is sealed. -/
theorem exists_applyVerdict {task : TaskId} {fraud : Bool}
    (room : inner.sequencer.height.toNat + 1 < 2 ^ 64)
    (resolved : inner.state.resolveChallenge task fraud node.params = .ok post)
    (hashed : post.stateRoot = .ok root) :
    ∃ inner', node.applyVerdict task fraud inner = .ok inner' := by
  obtain ⟨block, sealed, appends⟩ := exists_seal room hashed
  obtain ⟨inner', appended⟩ := appends inner
  simp only [NodeHandle.applyVerdict, Checked.bind_eq_ok]
  exact ⟨inner', post, resolved, block, sealed, appended⟩

/-- An epoch boundary which can be crossed and hashed is sealed. -/
theorem exists_crossEpoch (room : inner.sequencer.height.toNat + 1 < 2 ^ 64)
    (advanced : inner.state.advanceEpoch node.params = .ok post)
    (hashed : post.stateRoot = .ok root) : ∃ inner', node.crossEpoch inner = .ok inner' := by
  let engine : SingleSequencer := { inner.sequencer with epoch := post.epoch }
  have counts : engine.height.toNat + 1 < 2 ^ 64 := room
  obtain ⟨block, sealed, appends⟩ := exists_seal counts hashed
  obtain ⟨inner', appended⟩ := appends { inner with sequencer := engine }
  simp only [NodeHandle.crossEpoch, SingleSequencer.advanceEpoch, advanced, Checked.bind_eq_ok,
    Checked.pure_eq_ok]
  exact ⟨inner', _, ⟨post, rfl, rfl⟩, block, sealed, appended⟩

/-- A transaction which is processed without a fault is produced, when the states before and after
it can be hashed. -/
theorem exists_produce {stx : SignedTx} {txId : TxId} {state : State} {params : Params}
    (room : engine.height.toNat + 1 < 2 ^ 64) (identified : stx.txId = .ok txId)
    (processed : ∀ fault, (state.apply stx params).Avoids fault)
    (hashed : ∃ root, state.stateRoot = .ok root)
    (hashes : ∀ s', (state.apply stx params).Returns s' → ∃ root, s'.stateRoot = .ok root) :
    ∃ proposal, engine.produce [stx] state params = .ok proposal ∧
      proposal.block.txs.length ≤ 1 := by
  obtain ⟨height, height_eq, _⟩ : ∃ height, Checked.add engine.height 1 = .ok height ∧ _ :=
    Checked.exists_add room
  obtain ⟨outcome, applied⟩ := Checked.exists_ok_of_avoids processed
  simp only [SingleSequencer.produce, List.foldlM_cons, List.foldlM_nil, bind_pure,
    SingleSequencer.tallyTx, identified, applied, height_eq, Checked.bind_eq_ok,
    Checked.pure_eq_ok, Except.ok.injEq, exists_eq_left']
  cases outcome with
  | ok s' =>
      obtain ⟨root, root_eq⟩ := hashes s' applied
      exact ⟨_, ⟨_, rfl, root, root_eq, rfl⟩, by simp⟩
  | error reason =>
      obtain ⟨root, root_eq⟩ := hashed
      exact ⟨_, ⟨_, rfl, root, root_eq, rfl⟩, by simp⟩

/-- A produced transaction is answered. -/
theorem exists_produceWith {stx : SignedTx} {txId : TxId} {proposal : Proposal}
    (idle : inner.mempool = [])
    (produced : inner.sequencer.produce [stx] inner.state node.params = .ok proposal)
    (few : proposal.block.txs.length ≤ 1) :
    ∃ result, node.produceWith stx txId inner = .ok result := by
  have emptied : ({ inner with mempool := [] } : NodeInner) = inner := by rw [← idle]
  obtain ⟨inner', appended⟩ : ∃ inner', inner.append proposal.block proposal.txs proposal.state =
    .ok inner' := exists_append (by omega) proposal.txs
  simp only [NodeHandle.produceWith, idle, List.nil_append, emptied, produced, Checked.bind_eq_ok,
    Except.ok.injEq, exists_eq_left']
  split
  · exact ⟨_, rfl⟩
  · exact ⟨_, Checked.bind_eq_ok.mpr ⟨inner', appended, rfl⟩⟩

end Sections

/-! ## Calls which do not poison the lock -/

section Calls

variable [Crypto] [Runtime] {node : NodeHandle} {lock : Lock NodeInner} {stx : SignedTx}
  {task : TaskId}

/-- A node whose ledger is bounded and short, with room for a block and for a strike. -/
structure Judgeable (inner : NodeInner) : Prop extends Bounded inner.state where
  strikes : ∀ id, inner.state.strikesOf id + 1 < 2 ^ 32
  height : inner.sequencer.height.toNat + 1 < 2 ^ 64
  sized : Sized (2 ^ 30 + 6) inner.state

omit [Runtime] in
/-- A submission whose ceiling can be charged for completes its section. -/
theorem submit_unpoisoned (devnet : node.params = .devnet) (sound : Sound lock.state)
    (free : lock.poisoned = false) (range : InRange lock.state.state)
    (room : lock.state.sequencer.height.toNat + 1 < 2 ^ 64)
    (sized : Sized (2 ^ 30 + 6) lock.state.state)
    (ceiling : ∀ body, stx.tx = .submitTask body → body.limits.maxUcu.toNat * 1000 < 2 ^ 128) :
    (node.submit stx).Unpoisoned lock := by
  refine .bind (still_lift.unpoisoned free) fun txId middle _ returned => ?_
  obtain ⟨identified, rfl⟩ := returns_lift.mp returned
  have txId_eq := Outcome.returns_lift.mp identified
  have processed (fault : Fault) : (middle.state.state.apply stx node.params).Avoids fault := by
    by_cases encoding : fault = .encoding
    · exact encoding ▸ apply_encodes txId_eq
    · rw [devnet]
      exact State.apply_in_range sound.ledger.solvent range encoding ceiling
  have hashed := sound.ledger.exists_stateRoot sized (by norm_num)
  have hashes (s' : State) (returns : (middle.state.state.apply stx node.params).Returns s') :
      ∃ root, s'.stateRoot = .ok root := by
    have step : Step middle.state.state (.apply stx node.params) s' := returns
    exact sound.ledger.step_stateRoot sized step
  obtain ⟨proposal, produced, few⟩ := exists_produce room txId_eq processed hashed hashes
  exact unpoisoned_locked free (exists_produceWith sound.mempool produced few)

/-- A resolution completes its last section, whatever its verdict. -/
theorem resolve_unpoisoned (devnet : node.params = .devnet) (sound : Sound lock.state)
    (free : lock.poisoned = false) (judgeable : Judgeable lock.state) :
    (node.resolvePendingChallenge task).Unpoisoned lock := by
  refine .bind (still_read.unpoisoned free) fun evidence middle _ gathered => ?_
  obtain ⟨_, _, rfl⟩ := returns_read.mp gathered
  refine .bind (still_lift.unpoisoned free) fun program middle _ found => ?_
  obtain ⟨_, rfl⟩ := returns_lift.mp found
  refine .bind (still_lift.unpoisoned free) fun input middle _ found => ?_
  obtain ⟨_, rfl⟩ := returns_lift.mp found
  refine .bind (still_lift.unpoisoned free) fun outcome middle _ checked => ?_
  obtain ⟨_, rfl⟩ := returns_lift.mp checked
  have conserved := sound.ledger.conserved
  obtain ⟨s', resolved⟩ : ∃ s', middle.state.state.resolveChallenge task outcome.isFraud
      node.params = .ok s' := by
    rw [devnet]
    cases outcome.isFraud with
    | true => exact (convict_returns_iff conserved).mpr fun _ =>
        sound.ledger.solvent.punishable judgeable.minted judgeable.strikes
    | false => exact dismiss_returns conserved
  have step : Step middle.state.state (.resolveChallenge task outcome.isFraud node.params) s' :=
    Outcome.returns_lift.mpr resolved
  obtain ⟨root, hashed⟩ := sound.ledger.step_stateRoot judgeable.sized step
  refine .bind (unpoisoned_update free (exists_applyVerdict judgeable.height resolved hashed))
    fun _ _ free _ => still_pure.unpoisoned free

omit [Runtime] in
/-- An epoch boundary completes its section. -/
theorem advanceEpoch_unpoisoned (devnet : node.params = .devnet) (sound : Sound lock.state)
    (free : lock.poisoned = false) (judgeable : Judgeable lock.state)
    (reputed : Reputed lock.state.state) : node.advanceEpoch.Unpoisoned lock := by
  have epoch := judgeable.epoch
  have decayable : Decayable node.params lock.state.state := fun id => by
    have points := judgeable.standing id
    rw [devnet, show Params.devnet.decayRatePpm.toNat = 20000 from rfl, State.points]
    omega
  obtain ⟨s', advanced⟩ := State.exists_advanceEpoch sound.ledger.conserved reputed decayable
    (by rw [devnet]; decide) (by omega)
  have step : Step lock.state.state (.advanceEpoch node.params) s' :=
    Outcome.returns_lift.mpr advanced
  obtain ⟨root, hashed⟩ := sound.ledger.step_stateRoot judgeable.sized step
  exact unpoisoned_update free (exists_crossEpoch judgeable.height advanced hashed)

omit [Runtime] in
theorem putBlob_unpoisoned (bytes : List UInt8) (free : lock.poisoned = false) :
    (NodeHandle.putBlob bytes).Unpoisoned lock := by
  refine .bind (unpoisoned_update free ⟨lock.state.putBlob bytes, rfl⟩) fun _ _ free _ => ?_
  exact still_pure.unpoisoned free

/-- A node in range: with room for two blocks, for a strike, and for some more entries. -/
structure Ready (inner : NodeInner) : Prop extends InRange inner.state where
  strikes : ∀ id, inner.state.strikesOf id + 1 < 2 ^ 32
  height : inner.sequencer.height.toNat + 2 < 2 ^ 64
  sized : Sized (2 ^ 29) inner.state

omit [Crypto] [Runtime] in
/-- A node is in range when the entries of its ledger are. -/
theorem ready_iff {inner : NodeInner} :
    Ready inner ↔ InRange inner.state ∧
      (∀ entry ∈ inner.state.standing.toList, entry.2.strikes.toNat + 1 < 2 ^ 32) ∧
      inner.sequencer.height.toNat + 2 < 2 ^ 64 ∧ Sized (2 ^ 29) inner.state := by
  constructor
  · rintro ⟨range, strikes, height, sized⟩
    refine ⟨range, fun entry member => ?_, height, sized⟩
    have found := ExtTreeMap.mem_toList_iff_getElem?_eq_some.mp member
    have counted := strikes entry.1
    rwa [State.strikesOf, State.standingRecord, found] at counted
  · rintro ⟨range, strikes, height, sized⟩
    refine ⟨range, fun id => ?_, height, sized⟩
    rw [State.strikesOf, State.standingRecord]
    cases found : inner.state.standing[id]? with
    | none => simp [StandingRecord.new]
    | some record =>
        exact strikes (id, record) (ExtTreeMap.mem_toList_iff_getElem?_eq_some.mpr found)

instance (inner : NodeInner) : Decidable (Ready inner) := decidable_of_iff _ ready_iff.symm

omit [Crypto] [Runtime] in
theorem Ready.judgeable {inner : NodeInner} (ready : Ready inner) : Judgeable inner :=
  { ready.toBounded with
    strikes := ready.strikes
    height := Nat.lt_of_succ_lt ready.height
    sized := ready.sized.mono (by norm_num) }

omit [Runtime] in
/-- A node in range can judge the challenge which it has just admitted. -/
theorem Ready.challenged {inner inner' : NodeInner} {bond : Ucu} {proposal : Proposal}
    (ready : Ready inner) (tx_eq : stx.tx = .challenge task bond)
    (admits : Admits node inner stx proposal inner') : Judgeable inner' := by
  obtain ⟨step, _⟩ := admits.step
  obtain ⟨_, _, next, _, payload⟩ := State.apply_effect step
  obtain ⟨sequencer, adopted, rfl⟩ := append_effect admits.appended
  rw [tx_eq] at payload
  cases payload with
  | @challenge _ _ receipt sub _ opens =>
      have standing_eq : proposal.state.standing = inner.state.standing :=
        congrArg Records.standing opens.records
      have epoch_eq : proposal.state.epoch = inner.state.epoch :=
        congrArg Records.epoch opens.records
      have minted_eq : proposal.state.supply.minted.toNat = inner.state.supply.minted.toNat :=
        opens.minted
      obtain ⟨parent, _, adopted⟩ := Checked.bind_eq_ok.mp adopted
      obtain rfl := Checked.pure_eq_ok.mp adopted
      have height_eq : proposal.block.height.toNat = inner.sequencer.height.toNat + 1 :=
        (produce_continues admits.produced).height
      have room := ready.height
      have sized : Sized (2 ^ 29 + (2 ^ 29 + 6)) proposal.state := step.sized ready.sized
      exact
        { minted := minted_eq.trans_le ready.minted
          standing := fun id => by
            have kept : proposal.state.points id = inner.state.points id :=
              State.points_congr standing_eq
            exact kept.trans_le (ready.standing id)
          epoch := epoch_eq ▸ ready.epoch
          strikes := fun id => by
            have kept : proposal.state.strikesOf id = inner.state.strikesOf id :=
              strikesOf_congr standing_eq
            exact kept ▸ ready.strikes id
          height := by
            change proposal.block.height.toNat + 1 < 2 ^ 64
            omega
          sized := sized.mono (by norm_num) }

/-! ## Requests and calls in range -/

omit [Runtime] in
/-- A request which submits its transaction and then answers. -/
theorem request_unpoisoned {α : Type} {answer : Guarded NodeInner ErrorObject α}
    (submitted : (node.submit stx).Unpoisoned lock) (still : answer.Still) :
    ((node.submit stx).mapErr rejectErr >>= fun _ => answer).Unpoisoned lock :=
  submitted.mapErr.bind fun _ _ free _ => still.unpoisoned free

omit [Runtime] in
/-- A transaction without a ceiling completes. -/
theorem Ready.submits (ready : Ready lock.state) (devnet : node.params = .devnet)
    (sound : Sound lock.state) (free : lock.poisoned = false)
    (ceiling : ∀ body, stx.tx = .submitTask body → body.limits.maxUcu.toNat * 1000 < 2 ^ 128) :
    (node.submit stx).Unpoisoned lock :=
  submit_unpoisoned devnet sound free ready.toInRange (Nat.lt_of_succ_lt ready.height)
    ready.judgeable.sized ceiling

/-- No request poisons the lock of a node in range.  The answer to a submitted task is quoted before
the lock is entered, so that a ceiling which cannot be charged for panics outside it. -/
theorem serve_unpoisoned [Hex] (devnet : node.params = .devnet) (sound : Sound lock.state)
    (free : lock.poisoned = false) (ready : Ready lock.state) (call : Call) :
    (call.serve node lock).poisoned = false := by
  cases call with
  | submitTask stx =>
      change (Rpc.submitTask node stx).Unpoisoned lock
      unfold Rpc.submitTask
      split
      · rename_i body tx_eq
        refine .bind (still_lift.unpoisoned free) fun quoted middle _ returned => ?_
        obtain ⟨quote_eq, rfl⟩ := returns_lift.mp returned
        obtain ⟨_, _, quote_eq⟩ := Checked.bind_eq_ok.mp (Outcome.returns_lift.mp quote_eq)
        obtain ⟨fee, fee_eq, _⟩ := Checked.bind_eq_ok.mp quote_eq
        rw [devnet] at fee_eq
        refine request_unpoisoned (ready.submits devnet sound free fun body' tx_eq' => ?_)
          still_pure
        obtain rfl : body = body' := by simpa using tx_eq.symm.trans tx_eq'
        exact (ppmOf_eq_ok.mp fee_eq).1
      · exact still_lift.unpoisoned free
  | claimTask stx =>
      change (Rpc.claimTask node stx).Unpoisoned lock
      unfold Rpc.claimTask
      split
      · rename_i task tx_eq
        exact request_unpoisoned (ready.submits devnet sound free fun _ other => by simp_all)
          (still_read.bind fun _ => still_pure)
      · exact still_lift.unpoisoned free
  | submitProof stx =>
      change (Rpc.submitProof node stx).Unpoisoned lock
      unfold Rpc.submitProof
      split
      · exact request_unpoisoned (ready.submits devnet sound free fun _ other => by simp_all)
          still_pure
      · exact still_lift.unpoisoned free
  | transfer stx =>
      change (Rpc.transfer node stx).Unpoisoned lock
      unfold Rpc.transfer
      split
      · exact request_unpoisoned (ready.submits devnet sound free fun _ other => by simp_all)
          still_pure
      · exact still_lift.unpoisoned free
  | challenge stx =>
      change (Rpc.challenge node stx).Unpoisoned lock
      unfold Rpc.challenge
      split
      · rename_i task bond tx_eq
        have submitted : (node.submit stx).Unpoisoned lock :=
          ready.submits devnet sound free fun _ other => by simp_all
        refine submitted.mapErr.bind fun txId middle free' returned => ?_
        cases submit_ends sound.mempool (returns_mapErr.mp returned) with
        | accepted _ admits =>
            obtain ⟨step, mempool, _⟩ := admits.step
            exact (resolve_unpoisoned devnet (sound.step step mempool) free'
              (ready.challenged tx_eq admits)).mapErr.bind fun _ _ free _ =>
                still_pure.unpoisoned free
      · exact still_lift.unpoisoned free
  | putBlob data =>
      change (Rpc.putBlob data).Unpoisoned lock
      unfold Rpc.putBlob
      split
      · rename_i bytes _
        exact (putBlob_unpoisoned bytes free).mapErr.bind fun _ _ free _ =>
          still_pure.unpoisoned free
      · exact still_lift.unpoisoned free

/-- The Standings of a devnet node are accounted for. -/
theorem Changes.regarded {inner inner' : NodeInner} {op : NodeOp} (devnet : node.params = .devnet)
    (regarded : Regarded inner.state) (changes : Changes node inner op inner') :
    Regarded inner'.state := by
  have kept {op : Op} (params : op.params = node.params)
      (step : Step inner.state op inner'.state) : Regarded inner'.state := by
    refine RatedStep.regarded regarded ⟨?_, step⟩
    rw [Op.Rated, params, devnet]
    decide
  cases changes with
  | idle => exact regarded
  | accept admits => exact kept rfl admits.step.1
  | decide decides => exact kept rfl (applyVerdict_step decides.applied).1
  | cross crossed => exact kept rfl (crossEpoch_step crossed).1
  | store _ => exact regarded

/-- No request poisons the lock of a reachable node in range, whatever it carries.  Of the calls of
the node itself only the submission of a task whose ceiling cannot be charged for may. -/
theorem node_available [Hex] (reachable : NodeReachable node lock)
    (free : lock.poisoned = false) (ready : Ready lock.state) :
    (∀ call : Call, (call.serve node lock).poisoned = false) ∧
      ∀ op : NodeOp, (∀ stx body, op = .submit stx → stx.tx = .submitTask body →
        body.limits.maxUcu.toNat * 1000 < 2 ^ 128) → (op.perform node lock).poisoned = false := by
  obtain ⟨proposer, allocations, start, ops, opened, run⟩ := reachable
  have devnet : node.params = .devnet := by
    obtain ⟨_, _, _, _, rfl, _⟩ := new_effect opened
    rfl
  have founded : Sound start.state ∧ Regarded start.state.state := by
    refine ⟨new_sound opened, ?_⟩
    obtain ⟨_, state, _, minted, _, rfl⟩ := new_effect opened
    exact (State.genesis_effect minted).regarded
  obtain ⟨sound, regarded⟩ := run.invariant
    (fun lock => Sound lock.state ∧ Regarded lock.state.state) founded
    fun ⟨sound, regarded⟩ performs =>
      have changes := performs.changes sound.mempool
      ⟨changes.sound sound, changes.regarded devnet regarded⟩
  refine ⟨serve_unpoisoned devnet sound free ready, fun op ceiling => ?_⟩
  cases op with
  | submit stx =>
      exact ready.submits devnet sound free fun body tx_eq => ceiling stx body rfl tx_eq
  | resolvePendingChallenge task => exact resolve_unpoisoned devnet sound free ready.judgeable
  | advanceEpoch =>
      exact advanceEpoch_unpoisoned devnet sound free ready.judgeable regarded.toReputed
  | putBlob bytes => exact putBlob_unpoisoned bytes free

end Calls

section Sample

open Sample

attribute [local instance] Crypto.checksum Runtime.echo Hex.lower

/-- A task whose ceiling cannot be charged for. -/
def Sample.greedy : SignedTx :=
  signed alice 1 (.submitTask { echoBody with limits := { echoBody.limits with maxUcu := -1 } })

/-- The same transaction poisons the lock as a call of the node, and not as a request. -/
theorem node_available_greedy :
    ∃ node lock, NodeReachable node lock ∧ Ready lock.state ∧
      (NodeOp.perform node lock (.submit greedy)).poisoned = true ∧
      ∀ call : Call, (call.serve node lock).poisoned = false := by
  have sampled : (nodeAfter (echoBlobs ++ echoSettled echoProof)).any (fun ran =>
      ran.2.2.poisoned = false ∧ Ready ran.2.2.state ∧
        (NodeOp.perform ran.1 ran.2.2 (.submit greedy)).poisoned = true) = true := by
    decide +kernel
  obtain ⟨⟨node, start, lock⟩, ran, sampled⟩ := (Option.any_eq_true _ _).mp sampled
  obtain ⟨free, ready, poisons⟩ := of_decide_eq_true sampled
  have reachable := nodeAfter_reachable ran
  exact ⟨node, lock, reachable, ready, poisons, (node_available reachable free ready).1⟩

end Sample

end Ducp
