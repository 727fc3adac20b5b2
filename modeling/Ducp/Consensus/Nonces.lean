import Ducp.Consensus.Agreement

/-!
# Replay protection

A chain grows by produced blocks and by system transitions.  The accepted transactions of an author
carry the nonces from zero on, in order, and the nonce of the author counts them; so no content is
accepted twice, under whatever signature.
-/

namespace Ducp

open Outcome Std MapSum

/-! ## Who counts a nonce -/

section Records

variable {s s' : State} {params : Params}

theorem Convicts.nonces_eq {task : TaskId} {rewardTo : Option Identity}
    (convicts : Convicts s task rewardTo params s') : s'.nonces = s.nonces := by
  obtain ⟨_, _, _, records⟩ := convicts.records_eq
  exact congrArg Records.nonces records

theorem Closes.nonces_eq {task : TaskId} {fraud : Bool} (closes : Closes s task params fraud s') :
    s'.nonces = s.nonces := by
  obtain ⟨_, _, _, _, records⟩ := closes.records_eq
  exact congrArg Records.nonces records

theorem State.Advances.nonces_eq {ticked : State} (advances : State.Advances s params ticked s') :
    s'.nonces = s.nonces := by
  obtain ⟨_, _, _, records⟩ := advances.records_eq
  exact congrArg Records.nonces records

end Records

/-! ## Chains -/

/-- The ledger state of a chain, with the transactions its blocks have accepted. -/
structure Chain where
  state : State
  accepted : List SignedTx

/-- An operation on a chain: a block over any mempool, or a system transition. -/
inductive ChainOp
  | produce (engine : SingleSequencer) (mempool : List SignedTx) (params : Params)
  | advanceEpoch (params : Params)
  | resolveFraud (task : TaskId) (rewardTo : Option Identity) (params : Params)
  | resolveChallenge (task : TaskId) (fraud : Bool) (params : Params)

/-- The operation produces no block of transactions. -/
def ChainOp.IsSystem : ChainOp → Prop
  | .produce _ _ _ => False
  | _ => True

section Runs

variable [Crypto]

/-- The chain after an operation. -/
def ChainOp.exec (chain : Chain) : ChainOp → Checked Chain
  | .produce engine mempool params => do
      let proposal ← engine.produce mempool chain.state params
      return { state := proposal.state, accepted := chain.accepted ++ proposal.txs }
  | .advanceEpoch params => do
      let state ← chain.state.advanceEpoch params
      return { chain with state }
  | .resolveFraud task rewardTo params => do
      let state ← chain.state.resolveFraud task rewardTo params
      return { chain with state }
  | .resolveChallenge task fraud params => do
      let state ← chain.state.resolveChallenge task fraud params
      return { chain with state }

/-- One operation of a chain. -/
def ChainOp.Grows (before : Chain) (op : ChainOp) (after : Chain) : Prop :=
  op.exec before = .ok after

/-- The nonces of the accepted transactions of each author are counted from zero. -/
def Counted (chain : Chain) : Prop :=
  ∀ author : Identity,
    (chain.accepted.filter fun stx => stx.author = author).map (fun stx => stx.nonce.toNat) =
      List.range ((chain.state.nonces[author]?).getD 0).toNat

variable {chain after : Chain} {op : ChainOp}

/-- An accepted transaction carries the next nonce of its author. -/
theorem Counted.accept {s s' : State} {log : List SignedTx} {stx : SignedTx} {params : Params}
    (counted : Counted { state := s, accepted := log })
    (applied : (s.apply stx params).Returns s') :
    Counted { state := s', accepted := log ++ [stx] } := by
  obtain ⟨_, expected, next, next_eq, payload⟩ := State.apply_effect applied
  have nonces : s'.nonces = s.nonces.insert stx.author next := payload.nonces_eq
  intro author
  have before := counted author
  simp only [nonces, getElem?_insert, List.filter_append, List.map_append, before]
  by_cases same : author = stx.author
  · subst same
    rw [if_pos rfl, Option.getD_some, next_eq, List.range_succ, ← expected]
    simp
  · have other : stx.author ≠ author := fun equality => same equality.symm
    rw [if_neg same]
    simp [other]

theorem Counted.applyAll {s s' : State} {log txs : List SignedTx} {params : Params}
    (counted : Counted { state := s, accepted := log })
    (applied : (applyAll params s txs).Returns s') :
    Counted { state := s', accepted := log ++ txs } := by
  apply (Run.of_returns applied).traced
    fun txs state => Counted { state, accepted := log ++ txs }
  · simpa using counted
  · intro labels before stx after held taken
    rw [← List.append_assoc]
    exact held.accept taken

/-- A system transition counts no nonce. -/
theorem ChainOp.Grows.system (grows : op.Grows chain after) (system : op.IsSystem) :
    after.state.nonces = chain.state.nonces ∧ after.accepted = chain.accepted := by
  cases op with
  | produce engine mempool params => exact system.elim
  | advanceEpoch params =>
      obtain ⟨s, advanced, grows⟩ := Checked.bind_eq_ok.mp grows
      obtain rfl := Checked.pure_eq_ok.mp grows
      obtain ⟨ticked, advances⟩ := State.advanceEpoch_effect advanced
      exact ⟨advances.nonces_eq, rfl⟩
  | resolveFraud task rewardTo params =>
      obtain ⟨s, resolved, grows⟩ := Checked.bind_eq_ok.mp grows
      obtain rfl := Checked.pure_eq_ok.mp grows
      exact ⟨(State.resolveFraud_effect resolved).nonces_eq, rfl⟩
  | resolveChallenge task fraud params =>
      obtain ⟨s, resolved, grows⟩ := Checked.bind_eq_ok.mp grows
      obtain rfl := Checked.pure_eq_ok.mp grows
      exact ⟨(State.resolveChallenge_effect resolved).nonces_eq, rfl⟩

omit [Crypto] in
theorem Counted.kept (counted : Counted chain)
    (kept : after.state.nonces = chain.state.nonces ∧ after.accepted = chain.accepted) :
    Counted after := by
  intro author
  rw [kept.1, kept.2]
  exact counted author

theorem ChainOp.Grows.counted (counted : Counted chain) (grows : op.Grows chain after) :
    Counted after := by
  cases op with
  | produce engine mempool params =>
      obtain ⟨proposal, produced, grows⟩ := Checked.bind_eq_ok.mp grows
      obtain rfl := Checked.pure_eq_ok.mp grows
      exact counted.applyAll (produce_tallied produced).built
  | advanceEpoch params => exact counted.kept (grows.system trivial)
  | resolveFraud task rewardTo params => exact counted.kept (grows.system trivial)
  | resolveChallenge task fraud params => exact counted.kept (grows.system trivial)

omit [Crypto] in
/-- A counted chain has accepted every content at most once. -/
theorem Counted.once (counted : Counted chain) (author : Identity) (tx : Tx)
    (nonce : BitVec 64) :
    chain.accepted.countP (fun stx => stx.author = author ∧ stx.tx = tx ∧ stx.nonce = nonce) ≤
      1 := by
  have distinct : ((chain.accepted.filter fun stx => stx.author = author).map
      fun stx => stx.nonce.toNat).Nodup := by
    rw [counted author]
    exact List.nodup_range
  calc
    _ ≤ (chain.accepted.filter fun stx => stx.author = author).countP
        (fun stx => stx.nonce.toNat = nonce.toNat) := by
      rw [List.countP_filter]
      apply List.countP_mono_left
      intro stx _ content
      simp_all
    _ = ((chain.accepted.filter fun stx => stx.author = author).map
        fun stx => stx.nonce.toNat).count nonce.toNat := by
      rw [List.count_eq_countP, List.countP_map]
      rfl
    _ ≤ 1 := List.nodup_iff_count_le_one.mp distinct _

/-- A transaction which does not apply leaves the tally where it is. -/
theorem tallyTx_rejected {params : Params} {tally tally' : Tally} {stx : SignedTx}
    {reason : Reject} (taken : SingleSequencer.tallyTx params tally stx = .ok tally')
    (rejects : (tally.state.apply stx params).Rejects reason) :
    tally'.state = tally.state ∧ tally'.txs = tally.txs := by
  obtain ⟨txId, _, taken⟩ := Checked.bind_eq_ok.mp taken
  obtain ⟨outcome, applied, taken⟩ := Checked.bind_eq_ok.mp taken
  obtain rfl : outcome = .error reason := Except.ok.inj (applied.symm.trans rejects)
  obtain rfl := Checked.pure_eq_ok.mp taken
  exact ⟨rfl, rfl⟩

end Runs

/-- Along every run of blocks and system transitions from a genesis, the accepted transactions of
an author carry the nonces 0, 1, 2, … in order, as many as the nonce of the author counts; no
content is accepted twice; and neither a system transition nor a rejected transaction counts. -/
theorem replay_protected [Crypto] {allocations : List (Identity × Ucu)} {epoch : Epoch}
    {start : State} {ops : List ChainOp} {chain : Chain}
    (genesis_eq : State.genesis allocations epoch = .ok start)
    (run : Run ChainOp.Grows { state := start, accepted := [] } ops chain) :
    (∀ author : Identity, ∃ count < 2 ^ 64,
      (chain.accepted.filter fun stx => stx.author = author).map (fun stx => stx.nonce.toNat) =
        List.range count ∧ ((chain.state.nonces[author]?).getD 0).toNat = count) ∧
    (∀ (author : Identity) (tx : Tx) (nonce : BitVec 64),
      chain.accepted.countP
        (fun stx => stx.author = author ∧ stx.tx = tx ∧ stx.nonce = nonce) ≤ 1) ∧
    (∀ (op : ChainOp) (after : Chain), op.Grows chain after → op.IsSystem →
      after.state.nonces = chain.state.nonces ∧ after.accepted = chain.accepted) ∧
    ∀ (params : Params) (tally tally' : Tally) (stx : SignedTx) (reason : Reject),
      SingleSequencer.tallyTx params tally stx = .ok tally' →
      (tally.state.apply stx params).Rejects reason →
        tally'.state = tally.state ∧ tally'.txs = tally.txs := by
  have nonces_eq : start.nonces = ∅ :=
    congrArg Records.nonces (State.genesis_effect genesis_eq).records
  have initial : Counted { state := start, accepted := [] } := by
    intro author
    simp [nonces_eq]
  have counted : Counted chain := run.invariant Counted initial fun held grows => grows.counted held
  refine ⟨fun author => ⟨_, BitVec.isLt _, counted author, rfl⟩, counted.once,
    fun op after grows => grows.system, fun _ _ _ _ _ => tallyTx_rejected⟩

section Sample

open Sample

attribute [local instance] Crypto.checksum

/-- The same mempool is produced on both sides of an epoch boundary. -/
def Sample.replayed : List ChainOp :=
  [.produce (.new alice) mempool .devnet, .advanceEpoch .devnet,
    .produce (.new alice) (mempool ++ [transferred alice 1 bob 7]) .devnet]

theorem replay_protected_replayed : ∃ start chain,
    State.genesis allocations 0 = .ok start ∧
      Run ChainOp.Grows { state := start, accepted := [] } replayed chain ∧
      chain.accepted = [transferred alice 0 bob 5, transferred bob 0 carol 10005,
        transferred carol 0 bob 10001, transferred alice 1 bob 7] ∧
      (∀ author : Identity, ∃ count < 2 ^ 64,
        (chain.accepted.filter fun stx => stx.author = author).map (fun stx => stx.nonce.toNat) =
          List.range count ∧ ((chain.state.nonces[author]?).getD 0).toNat = count) ∧
      ∀ (author : Identity) (tx : Tx) (nonce : BitVec 64),
        chain.accepted.countP
          (fun stx => stx.author = author ∧ stx.tx = tx ∧ stx.nonce = nonce) ≤ 1 := by
  have ran : (do
      let start ← State.genesis allocations 0
      let chain ← replayed.foldlM ChainOp.exec { state := start, accepted := [] }
      return decide (chain.accepted = [transferred alice 0 bob 5, transferred bob 0 carol 10005,
        transferred carol 0 bob 10001, transferred alice 1 bob 7]) : Checked Bool) = .ok true := by
    decide +kernel
  obtain ⟨start, genesis_eq, ran⟩ := Checked.bind_eq_ok.mp ran
  obtain ⟨chain, folded, ran⟩ := Checked.bind_eq_ok.mp ran
  have accepted_eq := of_decide_eq_true (Checked.pure_eq_ok.mp ran)
  have run : Run ChainOp.Grows { state := start, accepted := [] } replayed chain :=
    Run.of_foldlM folded
  obtain ⟨counted, once, _⟩ := replay_protected genesis_eq run
  exact ⟨start, chain, genesis_eq, run, accepted_eq, counted, once⟩

end Sample

end Ducp
