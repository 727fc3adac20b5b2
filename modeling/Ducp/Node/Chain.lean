import Ducp.Consensus.Following
import Ducp.Node.Effects

/-!
# The chain of a node

The head of the sequencer, the blocks with their transactions, the ledger state and its snapshot are
updated one by one.  Between the calls of a node they describe one hash chain, which ends in the
current state.
-/

namespace Ducp

open Guarded MapSum Std

section Node

variable [Crypto]

/-- The parts of a node describe one chain from the genesis state to the current one. -/
structure WellFormed (genesis : State) (inner : NodeInner) : Prop where
  mempool : inner.mempool = []
  paired : inner.blocks.length = inner.blockTxs.length
  height : inner.sequencer.height.toNat = inner.blocks.length
  heights : ∀ (position : ℕ) (block : Block), inner.blocks[position]? = some block →
    block.height.toNat = position + 1
  parents : ∀ (position : ℕ) (block : Block), inner.blocks[position]? = some block →
    parentAt inner.blocks position = .ok block.parent
  head : parentAt inner.blocks inner.blocks.length = .ok inner.sequencer.parent
  ids : ∀ (position : ℕ) (block : Block) (txs : List SignedTx),
    inner.blocks[position]? = some block → inner.blockTxs[position]? = some txs →
      txs.map SignedTx.txId = block.txs.map .ok
  epochs : inner.blocks.Pairwise fun earlier later => earlier.epoch.toNat ≤ later.epoch.toNat
  reached : ∀ block ∈ inner.blocks, block.epoch.toNat ≤ inner.sequencer.epoch.toNat
  epoch : inner.sequencer.epoch = inner.state.epoch
  root : ∀ block, inner.blocks.getLast? = some block →
    inner.state.stateRoot = .ok block.stateRoot
  untouched : inner.blocks = [] → inner.state = genesis
  storage : inner.storage = some inner.state

/-! ## One more block -/

section Append

variable {genesis post : State} {inner inner' : NodeInner} {engine : SingleSequencer}
  {block : Block} {txs : List SignedTx}

/-- Adopting a block which continues the head keeps the chain well formed.  The head may have moved
to a later epoch before the block. -/
theorem WellFormed.append (formed : WellFormed genesis inner)
    (height : engine.height = inner.sequencer.height)
    (parent : engine.parent = inner.sequencer.parent)
    (later : inner.sequencer.epoch.toNat ≤ engine.epoch.toNat)
    (post_epoch : engine.epoch = post.epoch)
    (continues : Continues engine txs post block)
    (appended : ({ inner with sequencer := engine } : NodeInner).append block txs post =
      .ok inner') : WellFormed genesis inner' := by
  obtain ⟨sequencer, adopted, rfl⟩ := append_effect appended
  obtain ⟨hash, hashed, adopted⟩ := Checked.bind_eq_ok.mp adopted
  obtain rfl := Checked.pure_eq_ok.mp adopted
  have block_height : block.height.toNat = inner.blocks.length + 1 := by
    rw [continues.height, height, formed.height]
  have block_epoch (earlier : Block) (member : earlier ∈ inner.blocks) :
      earlier.epoch.toNat ≤ block.epoch.toNat := by
    rw [continues.epoch]
    exact (formed.reached earlier member).trans later
  exact
    { mempool := formed.mempool
      paired := by simp [formed.paired]
      height := by simp [block_height]
      heights := by
        intro position found found_eq
        rcases getElem?_snoc found_eq with old | ⟨rfl, rfl⟩
        · exact formed.heights position found old
        · exact block_height
      parents := by
        intro position found found_eq
        have within : position ≤ inner.blocks.length := by
          have bound := (List.getElem?_eq_some_iff.mp found_eq).1
          simp only [List.length_append, List.length_singleton] at bound
          omega
        change parentAt (inner.blocks ++ [block]) position = _
        rw [parentAt_append within]
        rcases getElem?_snoc found_eq with old | ⟨rfl, rfl⟩
        · exact formed.parents position found old
        · rw [formed.head, continues.parent, parent]
      head := by
        change parentAt (inner.blocks ++ [block]) (inner.blocks ++ [block]).length = .ok hash
        rw [List.length_append, List.length_singleton, parentAt_last, hashed]
      ids := by
        intro position found found_txs found_eq txs_eq
        rcases getElem?_snoc found_eq with old | ⟨rfl, rfl⟩
        · rcases getElem?_snoc txs_eq with old_txs | ⟨rfl, _⟩
          · exact formed.ids position found found_txs old old_txs
          · rw [← formed.paired] at old
            simp at old
        · rw [formed.paired] at txs_eq
          obtain rfl : txs = found_txs := by simpa using txs_eq
          exact continues.ids
      epochs := by
        rw [List.pairwise_append]
        refine ⟨formed.epochs, List.pairwise_singleton _ _, fun earlier member last last_mem => ?_⟩
        rw [List.mem_singleton.mp last_mem]
        exact block_epoch earlier member
      reached := by
        intro probe member
        rcases List.mem_append.mp member with old | last
        · exact block_epoch probe old
        · rw [List.mem_singleton.mp last]
      epoch := continues.epoch.trans post_epoch
      root := by
        intro last last_eq
        obtain rfl : block = last := by simpa using last_eq
        exact continues.root
      untouched := fun empty => by simp at empty
      storage := rfl }

end Append

/-! ## Calls and runs -/

section Calls

variable [Runtime] {node : NodeHandle} {genesis : State} {inner inner' : NodeInner} {op : NodeOp}

omit [Runtime] in
theorem Admits.epoch_eq {stx : SignedTx} {proposal : Proposal}
    (admits : Admits node inner stx proposal inner') :
    inner.state.epoch = proposal.state.epoch := by
  obtain ⟨_, _, next, _, payload⟩ := State.apply_effect admits.applied
  exact payload.epoch_eq.symm

/-- Every call keeps the chain of a node well formed. -/
theorem Changes.wellFormed (formed : WellFormed genesis inner)
    (changes : Changes node inner op inner') : WellFormed genesis inner' := by
  cases changes with
  | idle => exact formed
  | accept admits =>
      exact formed.append rfl rfl le_rfl (formed.epoch.trans admits.epoch_eq)
        (produce_continues admits.produced) admits.appended
  | decide decides =>
      obtain ⟨resolved, block, resolve_eq, seals⟩ := applyVerdict_effect decides.applied
      obtain ⟨_, _, _, _, records⟩ := (State.resolveChallenge_effect resolve_eq).records_eq
      have resolved_epoch : resolved.epoch = inner.state.epoch := congrArg Records.epoch records
      exact formed.append rfl rfl le_rfl (formed.epoch.trans resolved_epoch.symm)
        (sealBlock_continues seals.sealed) seals.appended
  | cross crossed =>
      obtain ⟨s, block, advance_eq, seals⟩ := crossEpoch_effect crossed
      obtain ⟨ticked, advances⟩ := State.advanceEpoch_effect advance_eq
      have later : inner.sequencer.epoch.toNat ≤ s.epoch.toNat := by
        rw [formed.epoch, advances.epoch_eq]
        exact Nat.le_succ _
      have continues := sealBlock_continues seals.sealed
      refine formed.append ?_ ?_ later ?_ continues seals.appended <;> rfl
  | store bytes => exact { formed with }

theorem new_wellFormed {proposer : Identity} {allocations : List (Identity × Ucu)}
    {start : Lock NodeInner} (opened : NodeHandle.new proposer allocations = .ok (node, start)) :
    WellFormed start.state.state start.state := by
  obtain ⟨_, state, _, genesis_eq, _, rfl⟩ := new_effect opened
  have epoch : state.epoch = 0 :=
    congrArg Records.epoch (State.genesis_effect genesis_eq).records
  exact
    { mempool := rfl
      paired := rfl
      height := rfl
      heights := fun _ _ found => by simp [Lock.new] at found
      parents := fun _ _ found => by simp [Lock.new] at found
      head := rfl
      ids := fun _ _ _ found => by simp [Lock.new] at found
      epochs := .nil
      reached := fun _ member => by simp [Lock.new] at member
      epoch := epoch.symm
      root := fun _ last => by simp [Lock.new] at last
      untouched := fun _ => rfl
      storage := rfl }

/-- The call reports an error. -/
def NodeOp.Fails (node : NodeHandle) (before : Lock NodeInner) (op : NodeOp) (reason : Reject)
    (after : Lock NodeInner) : Prop :=
  match op with
  | .submit stx => (node.submit stx).Ends before (.ok (.error reason)) after
  | .resolvePendingChallenge task =>
      (node.resolvePendingChallenge task).Ends before (.ok (.error reason)) after
  | .advanceEpoch => node.advanceEpoch.Ends before (.ok (.error reason)) after
  | .putBlob bytes => (NodeHandle.putBlob bytes).Ends before (.ok (.error reason)) after

/-- A call which reports an error leaves the node as it is. -/
theorem NodeOp.Fails.unchanged {before after : Lock NodeInner} {reason : Reject}
    (idle : before.state.mempool = []) (fails : op.Fails node before reason after) :
    after = before := by
  cases op with
  | submit stx =>
      cases submit_ends idle fails with
      | rejected _ _ => rfl
  | resolvePendingChallenge task =>
      cases resolve_ends fails with
      | unresolvable _ => rfl
  | advanceEpoch =>
      have ends : (update node.crossEpoch : Guarded NodeInner Reject PUnit).Ends before
        (.ok (.error reason)) after := fails
      simp [ends_update] at ends
  | putBlob bytes =>
      have ends : (NodeHandle.putBlob bytes).Ends before (.ok (.error reason)) after := fails
      rw [NodeHandle.putBlob, ends_bind] at ends
      rcases ends with ⟨_, middle, _, ends⟩ | ⟨_, stopped, _⟩ | ⟨_, _, absurd_ending⟩
      · cases (ends_pure.mp ends).1
      · simp [ends_update] at stopped
      · cases absurd_ending

end Calls

/-- After every run of calls the chain of a node is well formed, and a call which reports an error
changes nothing. -/
theorem node_wellFormed [Runtime] {node : NodeHandle} {proposer : Identity}
    {allocations : List (Identity × Ucu)} {start lock : Lock NodeInner} {ops : List NodeOp}
    (opened : NodeHandle.new proposer allocations = .ok (node, start))
    (run : Run (NodeOp.Performs node) start ops lock) :
    WellFormed start.state.state lock.state ∧
      ∀ (op : NodeOp) (reason : Reject) (after : Lock NodeInner),
        op.Fails node lock reason after → after = lock := by
  have formed : WellFormed start.state.state lock.state :=
    run.invariant (fun lock => WellFormed start.state.state lock.state) (new_wellFormed opened)
      fun held performs => (performs.changes held.mempool).wellFormed held
  exact ⟨formed, fun op reason after fails => fails.unchanged formed.mempool⟩

end Node

section Sample

open Sample

attribute [local instance] Crypto.checksum Runtime.echo

/-- A settlement, a rejected duplicate, a lost challenge, and an epoch boundary. -/
def Sample.eventful : List NodeOp :=
  echoBlobs ++ echoSettled echoProof ++ [.submit (signed bob 1 (.submitProof echoProof)),
    .submit echoChallenge, .resolvePendingChallenge echoTask, .resolvePendingChallenge (task 0),
    .advanceEpoch]

theorem node_wellFormed_eventful : ∃ node start lock,
    NodeHandle.new alice funded = .ok (node, start) ∧
      Run (NodeOp.Performs node) start eventful lock ∧ lock.state.blocks.length = 6 ∧
      WellFormed start.state.state lock.state ∧
      ∀ (op : NodeOp) (reason : Reject) (after : Lock NodeInner),
        op.Fails node lock reason after → after = lock := by
  have ran : (nodeAfter eventful).any (fun ran => ran.2.2.state.blocks.length = 6) = true := by
    decide +kernel
  obtain ⟨⟨node, start, lock⟩, ran, length_eq⟩ := (Option.any_eq_true _ _).mp ran
  obtain ⟨opened, run⟩ := nodeAfter_eq_some ran
  exact ⟨node, start, lock, opened, run, of_decide_eq_true length_eq, node_wellFormed opened run⟩

end Sample

end Ducp
