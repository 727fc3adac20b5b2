import Ducp.Ledger.Transitions

/-!
# The single sequencer

One node orders the admitted transactions, applies them in order and commits to the state after
them.  A replica replays a block and compares the commitment.  A transition which no transaction
asked for is sealed as a block without transactions.
-/

namespace Ducp

open Outcome

/-- The outcome of one transaction of a proposal. -/
structure TxResult where
  txId : TxId
  accepted : Bool
  reject : Option Reject
  deriving DecidableEq

/-- A produced block with its accepted transactions, the state after it, and all the outcomes. -/
structure Proposal where
  block : Block
  txs : List SignedTx
  state : State
  results : List TxResult

/-- The engine: the designated proposer and the head of the chain. -/
structure SingleSequencer where
  proposer : Identity
  height : BitVec 64
  parent : Hash
  epoch : Epoch
  deriving DecidableEq

/-- What a proposal has accumulated over a prefix of the mempool. -/
structure Tally where
  state : State
  ids : List TxId
  txs : List SignedTx
  results : List TxResult

namespace SingleSequencer

variable [Crypto]

/-- The engine at genesis. -/
def new (proposer : Identity) : SingleSequencer where
  proposer
  height := 0
  parent := Bytes.fill 32 0
  epoch := 0

/-- Advance the head to a block. -/
def adopt (engine : SingleSequencer) (block : Block) : Checked SingleSequencer := do
  let parent ← block.blockHash
  return { engine with height := block.height, parent, epoch := block.epoch }

/-- Seal a system transition as a block without transactions. -/
def sealBlock (engine : SingleSequencer) (postState : State) : Checked Block := do
  let height ← Checked.add engine.height 1
  let stateRoot ← postState.stateRoot
  return {
    height
    parent := engine.parent
    epoch := engine.epoch
    txs := []
    stateRoot
    proposer := engine.proposer }

/-- Cross an epoch boundary, and carry the new epoch in the next block. -/
def advanceEpoch (engine : SingleSequencer) (state : State) (params : Params) :
    Checked (SingleSequencer × State) := do
  let s ← state.advanceEpoch params
  return ({ engine with epoch := s.epoch }, s)

/-- Apply one transaction of the mempool, keeping the state when it is rejected. -/
def tallyTx (params : Params) (tally : Tally) (tx : SignedTx) : Checked Tally := do
  let txId ← tx.txId
  match ← (tally.state.apply tx params).run with
  | .ok state => return {
      state
      ids := tally.ids ++ [txId]
      txs := tally.txs ++ [tx]
      results := tally.results ++ [{ txId, accepted := true, reject := none }] }
  | .error reason => return {
      tally with results := tally.results ++ [{ txId, accepted := false, reject := some reason }] }

/-- Order and apply a mempool, first come first served, into a candidate block. -/
def produce (engine : SingleSequencer) (mempool : List SignedTx) (state : State)
    (params : Params) : Checked Proposal := do
  let tally ← mempool.foldlM (tallyTx params) { state, ids := [], txs := [], results := [] }
  let height ← Checked.add engine.height 1
  let stateRoot ← tally.state.stateRoot
  return {
    block := {
      height
      parent := engine.parent
      epoch := engine.epoch
      txs := tally.ids
      stateRoot
      proposer := engine.proposer }
    txs := tally.txs
    state := tally.state
    results := tally.results }

/-- Replay one transaction under its identifier in the block. -/
def replay (params : Params) (s : State) (entry : SignedTx × TxId) : Outcome Reject State := do
  let txId ← entry.1.txId
  rejectIf (txId ≠ entry.2) .invalid
  s.apply entry.1 params

/-- Replay a block on a state and compare the commitment. -/
def commit (_engine : SingleSequencer) (block : Block) (txs : List SignedTx) (state : State)
    (params : Params) : Outcome Reject State := do
  rejectIf (txs.length ≠ block.txs.length) .invalid
  let s ← (txs.zip block.txs).foldlM (replay params) state
  let stateRoot ← s.stateRoot
  rejectIf (stateRoot ≠ block.stateRoot) .invalid
  return s

/-! ## A replica replays what was produced -/

variable {engine replica : SingleSequencer} {state : State} {params : Params}

/-- The accepted transactions of a tally, under their identifiers, replay to its state. -/
structure Replays (params : Params) (start : State) (tally : Tally) : Prop where
  length_eq : tally.txs.length = tally.ids.length
  replayed : ((tally.txs.zip tally.ids).foldlM (replay params) start).Returns tally.state

theorem tallyTx_replays {start : State} {tally tally' : Tally} {tx : SignedTx}
    (replays : Replays params start tally) (admitted : tallyTx params tally tx = .ok tally') :
    Replays params start tally' := by
  obtain ⟨txId, txId_eq, admitted⟩ := Checked.bind_eq_ok.mp admitted
  obtain ⟨outcome, applied, admitted⟩ := Checked.bind_eq_ok.mp admitted
  cases outcome with
  | error reason =>
      obtain rfl := Checked.pure_eq_ok.mp admitted
      exact ⟨replays.length_eq, replays.replayed⟩
  | ok state =>
      obtain rfl := Checked.pure_eq_ok.mp admitted
      refine ⟨by simp [replays.length_eq], ?_⟩
      rw [List.zip_append replays.length_eq, List.foldlM_append, returns_bind]
      refine ⟨tally.state, replays.replayed, ?_⟩
      simp only [List.zip_cons_cons, List.zip_nil_left, List.foldlM_cons, List.foldlM_nil,
        bind_pure, replay, returns_bind, returns_lift, returns_rejectIf]
      exact ⟨txId, txId_eq, ⟨⟩, by simp, applied⟩

theorem produce_replays {mempool : List SignedTx} {proposal : Proposal}
    (produced : engine.produce mempool state params = .ok proposal) :
    Replays params state
        { state := proposal.state, ids := proposal.block.txs, txs := proposal.txs
          results := proposal.results } ∧
      proposal.state.stateRoot = .ok proposal.block.stateRoot := by
  obtain ⟨tally, folded, produced⟩ := Checked.bind_eq_ok.mp produced
  obtain ⟨height, _, produced⟩ := Checked.bind_eq_ok.mp produced
  obtain ⟨stateRoot, root_eq, produced⟩ := Checked.bind_eq_ok.mp produced
  obtain rfl := Checked.pure_eq_ok.mp produced
  refine ⟨?_, root_eq⟩
  exact (Run.of_foldlM folded).invariant (Replays params state) ⟨rfl, by simp⟩ tallyTx_replays

/-- A mempool of one transaction is accepted with its state, or rejected without effect. -/
theorem produce_singleton {stx : SignedTx} {proposal : Proposal}
    (produced : engine.produce [stx] state params = .ok proposal) :
    ∃ txId, stx.txId = .ok txId ∧
      (((state.apply stx params).Returns proposal.state ∧ proposal.txs = [stx] ∧
          proposal.block.txs = [txId] ∧
          proposal.results = [{ txId, accepted := true, reject := none }]) ∨
        ∃ reason, (state.apply stx params).Rejects reason ∧ proposal.block.txs = [] ∧
          proposal.results = [{ txId, accepted := false, reject := some reason }]) := by
  obtain ⟨tally, folded, produced⟩ := Checked.bind_eq_ok.mp produced
  obtain ⟨height, _, produced⟩ := Checked.bind_eq_ok.mp produced
  obtain ⟨stateRoot, _, produced⟩ := Checked.bind_eq_ok.mp produced
  obtain rfl := Checked.pure_eq_ok.mp produced
  simp only [List.foldlM_cons, List.foldlM_nil, bind_pure] at folded
  obtain ⟨txId, txId_eq, admitted⟩ := Checked.bind_eq_ok.mp folded
  obtain ⟨outcome, applied, admitted⟩ := Checked.bind_eq_ok.mp admitted
  refine ⟨txId, txId_eq, ?_⟩
  cases outcome with
  | ok s' =>
      obtain rfl := Checked.pure_eq_ok.mp admitted
      exact .inl ⟨applied, rfl, rfl, rfl⟩
  | error reason =>
      obtain rfl := Checked.pure_eq_ok.mp admitted
      exact .inr ⟨reason, applied, rfl, rfl⟩

/-- A replica at the producer's state accepts a produced block and reaches the state after it. -/
theorem commit_produce {mempool : List SignedTx} {proposal : Proposal}
    (produced : engine.produce mempool state params = .ok proposal) :
    (replica.commit proposal.block proposal.txs state params).Returns proposal.state := by
  obtain ⟨⟨length_eq, replayed⟩, root_eq⟩ := produce_replays produced
  simp only [commit, returns_bind, returns_rejectIf, returns_lift, returns_pure, not_not]
  exact ⟨⟨⟩, length_eq, _, replayed, _, root_eq, ⟨⟩, rfl, rfl⟩

theorem sealBlock_eq_ok {postState : State} {block : Block}
    (sealed : engine.sealBlock postState = .ok block) :
    block.txs = [] ∧ postState.stateRoot = .ok block.stateRoot := by
  obtain ⟨height, _, sealed⟩ := Checked.bind_eq_ok.mp sealed
  obtain ⟨stateRoot, root_eq, sealed⟩ := Checked.bind_eq_ok.mp sealed
  obtain rfl := Checked.pure_eq_ok.mp sealed
  exact ⟨rfl, root_eq⟩

/-- A replica accepts a sealed block only without changing its state, and only when its own state
has the sealed root. -/
theorem commit_sealed {postState s : State} {block : Block}
    (sealed : engine.sealBlock postState = .ok block) :
    (replica.commit block [] state params).Returns s ↔
      s = state ∧ state.stateRoot = postState.stateRoot := by
  obtain ⟨empty, root_eq⟩ := sealBlock_eq_ok sealed
  simp only [commit, empty, List.zip_nil_left, List.foldlM_nil, returns_bind, returns_rejectIf,
    returns_lift, returns_pure, not_not, root_eq]
  constructor
  · rintro ⟨_, _, _, rfl, _, root_eq', _, rfl, rfl⟩
    exact ⟨rfl, root_eq'⟩
  · rintro ⟨rfl, root_eq'⟩
    exact ⟨⟨⟩, rfl, _, rfl, _, root_eq', ⟨⟩, rfl, rfl⟩

end SingleSequencer

end Ducp
