import Ducp.Node.Effects

/-!
# Replication

A replica starts from the genesis of the node and replays its blocks.  It follows the node as long
as every change of the ledger is carried by the transactions of a block.  A system transition is
sealed as a block without transactions, which a replica cannot reproduce.
-/

namespace Ducp

open MapSum Outcome Std

section Node

variable [Crypto]

/-- A replica: an engine and a ledger state of its own. -/
structure Replica where
  engine : SingleSequencer
  state : State
  deriving DecidableEq

namespace Replica

/-- Replay one block: commit it, then adopt it. -/
def take (params : Params) (replica : Replica) (entry : Block × List SignedTx) :
    Outcome Reject Replica := do
  let state ← replica.engine.commit entry.1 entry.2 replica.state params
  let engine ← replica.engine.adopt entry.1
  return { engine, state }

/-- Replay the blocks of a node in order. -/
def follow (params : Params) (replica : Replica) (inner : NodeInner) : Outcome Reject Replica :=
  (inner.blocks.zip inner.blockTxs).foldlM (take params) replica

/-- A fresh replica over a genesis. -/
def fresh (proposer : Identity) (genesis : State) : Replica :=
  { engine := .new proposer, state := genesis }

end Replica

/-- The replica which a node would be. -/
def NodeInner.replica (inner : NodeInner) : Replica :=
  { engine := inner.sequencer, state := inner.state }

/-- The change of the ledger by a call is carried by the transactions of its block: the call is no
epoch boundary, and it resolves no pending challenge. -/
def NodeOp.Carried (inner : NodeInner) : NodeOp → Prop
  | .submit _ | .putBlob _ => True
  | .advanceEpoch => False
  | .resolvePendingChallenge task =>
      inner.state.pendingChallenges[task]? = none ∨
        ¬∃ body proof program input, Evidenced inner task body proof program input

/-- Every block has its list of transactions. -/
def Paired (inner : NodeInner) : Prop := inner.blocks.length = inner.blockTxs.length

section Calls

variable [Runtime] {node : NodeHandle} {inner inner' : NodeInner} {op : NodeOp}

omit [Runtime] in
theorem append_blocks {engine : SingleSequencer} {block : Block} {txs : List SignedTx}
    {state : State} (paired : Paired inner)
    (appended : ({ inner with sequencer := engine } : NodeInner).append block txs state =
      .ok inner') :
    Paired inner' ∧
      inner'.blocks.zip inner'.blockTxs = inner.blocks.zip inner.blockTxs ++ [(block, txs)] := by
  obtain ⟨sequencer, _, rfl⟩ := append_effect appended
  have lengths : inner.blocks.length = inner.blockTxs.length := paired
  exact ⟨by simp [Paired, lengths], by simp [List.zip_append lengths]⟩

omit [Runtime] in
/-- A replica at the state of the node takes an appended block which it can commit. -/
theorem take_append {params : Params} {engine : SingleSequencer} {block : Block}
    {txs : List SignedTx} {state : State}
    (appended : ({ inner with sequencer := engine } : NodeInner).append block txs state =
      .ok inner')
    (committed : (inner.sequencer.commit block txs inner.state params).Returns state)
    (adopts : inner.sequencer.adopt block = engine.adopt block) :
    (Replica.take params inner.replica (block, txs)).Returns inner'.replica := by
  obtain ⟨sequencer, adopted, rfl⟩ := append_effect appended
  simp only [Replica.take, NodeInner.replica, returns_bind, returns_lift, returns_pure]
  exact ⟨state, committed, sequencer, adopts.trans adopted, rfl⟩

/-- A carried call appends nothing, or one block which takes the replica to the next state. -/
theorem Changes.logs (paired : Paired inner) (changes : Changes node inner op inner')
    (carried : op.Carried inner) :
    Paired inner' ∧
      Run.Logs (Replica.take node.params) (inner.blocks.zip inner.blockTxs) inner.replica
        (inner'.blocks.zip inner'.blockTxs) inner'.replica := by
  cases changes with
  | idle => exact ⟨paired, .keep⟩
  | @accept stx proposal _ admits =>
      obtain ⟨paired', zip_eq⟩ := append_blocks paired admits.appended
      rw [zip_eq]
      have committed : (inner.sequencer.commit _ _ _ _).Returns proposal.state :=
        SingleSequencer.commit_produce admits.produced
      exact ⟨paired', .entry (take_append admits.appended committed rfl)⟩
  | @decide task _ _ _ _ _ fraud _ decides =>
      obtain ⟨resolved, block, resolve_eq, seals⟩ := applyVerdict_effect decides.applied
      have absent : inner.state.pendingChallenges[task]? = none :=
        carried.resolve_right fun missing => missing ⟨_, _, _, _, decides.toEvidenced⟩
      obtain ⟨paired', zip_eq⟩ := append_blocks paired seals.appended
      rw [zip_eq]
      refine ⟨paired', .entry (take_append seals.appended ?_ rfl)⟩
      have same : resolved = inner.state := by
        cases State.resolveChallenge_effect resolve_eq with
        | idle _ => rfl
        | won pending _ _ => simp [absent] at pending
        | lost pending _ => simp [absent] at pending
      rw [SingleSequencer.commit_sealed seals.sealed, same]
      exact ⟨rfl, rfl⟩
  | cross _ => exact carried.elim
  | store bytes => exact ⟨paired, .keep⟩

omit [Runtime] in
/-- A sealed transition is followed only when the states before and after it hash alike. -/
theorem Seals.followed {engine : SingleSequencer} {post : State} {block : Block}
    {params : Params} {first replica : Replica}
    (paired : Paired inner)
    (followed : (first.follow params inner).Returns inner.replica)
    (seals : Seals inner engine post block inner')
    (continued : (first.follow params inner').Returns replica) :
    inner.state.stateRoot = post.stateRoot := by
  obtain ⟨_, zip_eq⟩ := append_blocks paired seals.appended
  have blocks_eq : inner'.blocks.zip inner'.blockTxs =
      inner.blocks.zip inner.blockTxs ++ [(block, [])] := zip_eq
  rw [Replica.follow, blocks_eq, List.foldlM_append, returns_bind] at continued
  obtain ⟨middle, earlier, taken⟩ := continued
  obtain rfl : middle = inner.replica := earlier.unique followed
  simp only [List.foldlM_cons, List.foldlM_nil, bind_pure, Replica.take, returns_bind] at taken
  obtain ⟨state, committed, _⟩ := taken
  exact ((SingleSequencer.commit_sealed seals.sealed).mp committed).2

/-- An uncarried call which completes seals a different state. -/
theorem Changes.uncarried (changes : Changes node inner op inner') (moved : inner' ≠ inner)
    (uncarried : ¬op.Carried inner) :
    ∃ engine post block, Seals inner engine post block inner' ∧ post ≠ inner.state := by
  cases changes with
  | idle => exact (moved rfl).elim
  | accept _ => exact (uncarried trivial).elim
  | @decide task _ _ _ _ _ fraud _ decides =>
      obtain ⟨resolved, block, resolve_eq, seals⟩ := applyVerdict_effect decides.applied
      refine ⟨_, resolved, block, seals, fun same => uncarried (.inl ?_)⟩
      have closed := (State.resolveChallenge_effect resolve_eq).pendingChallenges_eq task
      rwa [same, if_pos rfl] at closed
  | cross crossed =>
      obtain ⟨s, block, advance_eq, seals⟩ := crossEpoch_effect crossed
      refine ⟨_, s, block, seals, fun same => ?_⟩
      obtain ⟨ticked, advances⟩ := State.advanceEpoch_effect advance_eq
      have epoch_eq := advances.epoch_eq
      rw [same] at epoch_eq
      omega
  | store _ => exact (uncarried trivial).elim

end Calls

/-- A call which is performed and carried. -/
def Carries [Runtime] (node : NodeHandle) (before : Lock NodeInner) (op : NodeOp)
    (after : Lock NodeInner) : Prop :=
  op.Performs node before after ∧ op.Carried before.state

/-- Between calls the node is sound, and its blocks are paired with their transactions. -/
def Chained (lock : Lock NodeInner) : Prop := Sound lock.state ∧ Paired lock.state

theorem Carries.logs [Runtime] {node : NodeHandle} {before after : Lock NodeInner} {op : NodeOp}
    (chained : Chained before) (carries : Carries node before op after) :
    Chained after ∧
      Run.Logs (Replica.take node.params) (before.state.blocks.zip before.state.blockTxs)
        before.state.replica (after.state.blocks.zip after.state.blockTxs)
        after.state.replica := by
  obtain ⟨sound, paired⟩ := chained
  have changes := carries.1.changes sound.mempool
  obtain ⟨paired', logs⟩ := changes.logs paired carries.2
  exact ⟨⟨changes.sound sound, paired'⟩, logs⟩

/-- A node at genesis is chained, and is the fresh replica. -/
theorem new_chained [Runtime] {node : NodeHandle} {proposer : Identity}
    {allocations : List (Identity × Ucu)} {start : Lock NodeInner}
    (opened : NodeHandle.new proposer allocations = .ok (node, start)) :
    Chained start ∧ start.state.blocks.zip start.state.blockTxs = [] ∧
      start.state.replica = .fresh proposer start.state.state := by
  have sound := new_sound opened
  obtain ⟨_, _, _, _, _, rfl⟩ := new_effect opened
  exact ⟨⟨sound, rfl⟩, rfl, rfl⟩

/-- In every run of carried calls a fresh replica accepts every block, and ends as the node itself.
A call which is not carried and completes seals a block which no replica accepts, unless the states
before and after it collide under the hash. -/
theorem replica_follows [Runtime] {node : NodeHandle} {proposer : Identity}
    {allocations : List (Identity × Ucu)} {start lock : Lock NodeInner} {ops : List NodeOp}
    (opened : NodeHandle.new proposer allocations = .ok (node, start))
    (run : Run (Carries node) start ops lock) :
    ((Replica.fresh proposer start.state.state).follow node.params lock.state).Returns
        lock.state.replica ∧
      ∀ (op : NodeOp) (after : Lock NodeInner), op.Performs node lock after →
        after.state ≠ lock.state → ¬op.Carried lock.state →
        (∀ replica, ¬((Replica.fresh proposer start.state.state).follow node.params
          after.state).Returns replica) ∨
        (after.state.state ≠ lock.state.state ∧
          lock.state.state.stateRoot = after.state.state.stateRoot) := by
  obtain ⟨initial, empty, fresh_eq⟩ := new_chained opened
  have kept {before after : Lock NodeInner} {op : NodeOp} (chained : Chained before)
      (carries : Carries node before op after) : Chained after := (carries.logs chained).1
  have followed := run.log_replays Chained (fun lock => lock.state.blocks.zip lock.state.blockTxs)
    (fun lock => lock.state.replica) initial kept empty
    fun chained carries => (carries.logs chained).2
  rw [fresh_eq] at followed
  refine ⟨followed, fun op after performs moved uncarried => ?_⟩
  obtain ⟨sound, paired⟩ := run.invariant Chained initial kept
  obtain ⟨engine, post, block, seals, distinct⟩ :=
    (performs.changes sound.mempool).uncarried moved uncarried
  rw [seals.state_eq.1]
  by_cases collision : lock.state.state.stateRoot = post.stateRoot
  · exact .inr ⟨distinct, collision⟩
  · exact .inl fun replica continued => collision (seals.followed paired followed continued)

end Node

section Sample

open Sample

attribute [local instance] Crypto.checksum Runtime.echo

theorem replica_follows_transfer :
    ∃ node start lock, NodeHandle.new alice funded = .ok (node, start) ∧
      lock.state.blocks.length = 1 ∧
      ((Replica.fresh alice start.state.state).follow node.params lock.state).Returns
        lock.state.replica ∧
      ∀ (op : NodeOp) (after : Lock NodeInner), op.Performs node lock after →
        after.state ≠ lock.state → ¬op.Carried lock.state →
        (∀ replica, ¬((Replica.fresh alice start.state.state).follow node.params
          after.state).Returns replica) ∨
        (after.state.state ≠ lock.state.state ∧
          lock.state.state.stateRoot = after.state.state.stateRoot) := by
  have sent : (nodeAfter [.submit (signed alice 0 (.transfer bob 5))]).any (fun ran =>
      ran.2.2.state.blocks.length = 1) = true := by decide +kernel
  obtain ⟨⟨node, start, lock⟩, ran, sent⟩ := (Option.any_eq_true _ _).mp sent
  obtain ⟨opened, run⟩ := nodeAfter_eq_some ran
  have carried : Run (Carries node) start _ lock :=
    run.mono fun op member before after performs =>
      ⟨performs, by simp_all [NodeOp.Carried]⟩
  exact ⟨node, start, lock, opened, of_decide_eq_true sent, replica_follows opened carried⟩

/-- An epoch boundary alone makes a fresh replica reject the chain of the node. -/
theorem replica_diverges :
    ∃ node start lock, NodeHandle.new alice funded = .ok (node, start) ∧
      Run (NodeOp.Performs node) start [.advanceEpoch] lock ∧
      ((Replica.fresh alice start.state.state).follow node.params lock.state).Rejects
        .invalid := by
  have rejected : (nodeAfter [.advanceEpoch]).any (fun ran =>
      ((Replica.fresh alice ran.2.1.state.state).follow ran.1.params ran.2.2.state).run =
        .ok (.error .invalid)) = true := by decide +kernel
  obtain ⟨⟨node, start, lock⟩, ran, rejected⟩ := (Option.any_eq_true _ _).mp rejected
  obtain ⟨opened, run⟩ := nodeAfter_eq_some ran
  have rejects : (_ : Checked (Except Reject Replica)) = _ := of_decide_eq_true rejected
  exact ⟨node, start, lock, opened, run, rejects⟩

end Sample

end Ducp
