import Ducp.Library.HashChain
import Ducp.Node.Views

/-!
# The head commits to the history

A block hashes its parent, its transactions by their hashes, and the state after them.  Without
collisions the head of a node determines its blocks, its transactions and its ledger.
-/

namespace Ducp

open Borsh

section Commitment

variable [Crypto]

/-- The byte strings whose hashes make up the chain of a node. -/
def NodeInner.committed (inner : NodeInner) : List (List UInt8) :=
  layout inner.state :: (inner.blocks.map layout ++ inner.blockTxs.flatten.map layout)

/-- No two of the byte strings which two nodes commit to have the same hash. -/
def NodeInner.CollisionFree (inner inner' : NodeInner) : Prop :=
  ∀ bytes ∈ inner.committed, ∀ bytes' ∈ inner'.committed,
    Crypto.hashBytes bytes = Crypto.hashBytes bytes' → bytes = bytes'

instance (inner inner' : NodeInner) : Decidable (inner.CollisionFree inner') :=
  inferInstanceAs (Decidable (∀ bytes ∈ inner.committed, ∀ bytes' ∈ inner'.committed,
    Crypto.hashBytes bytes = Crypto.hashBytes bytes' → bytes = bytes'))

omit [Crypto] in
theorem state_mem_committed (inner : NodeInner) : layout inner.state ∈ inner.committed :=
  List.mem_cons_self

omit [Crypto] in
theorem block_mem_committed {inner : NodeInner} {block : Block} (member : block ∈ inner.blocks) :
    layout block ∈ inner.committed :=
  List.mem_cons_of_mem _ (List.mem_append_left _ (List.mem_map_of_mem member))

omit [Crypto] in
theorem tx_mem_committed {inner : NodeInner} {txs : List SignedTx} {stx : SignedTx}
    (inside : txs ∈ inner.blockTxs) (member : stx ∈ txs) : layout stx ∈ inner.committed :=
  List.mem_cons_of_mem _ (List.mem_append_right _
    (List.mem_map_of_mem (List.mem_flatten.mpr ⟨txs, inside, member⟩)))

variable {genesis genesis' : State} {inner inner' : NodeInner}

/-- Committed values of one kind with the same hash are equal. -/
theorem NodeInner.CollisionFree.eq_of_hash {α : Type} [Borsh α] {left right : α} {hash : Hash}
    (collisionFree : inner.CollisionFree inner') (member : layout left ∈ inner.committed)
    (member' : layout right ∈ inner'.committed) (hashed : hashCanonical left = .ok hash)
    (hashed' : hashCanonical right = .ok hash) : left = right := by
  obtain ⟨fits, hash_eq⟩ := hashCanonical_eq_ok.mp hashed
  obtain ⟨fits', hash_eq'⟩ := hashCanonical_eq_ok.mp hashed'
  exact layout_injective fits fits'
    (collisionFree _ member _ member' (hash_eq.trans hash_eq'.symm))

theorem NodeInner.CollisionFree.symm (collisionFree : inner.CollisionFree inner') :
    inner'.CollisionFree inner := fun bytes member bytes' member' same =>
  (collisionFree bytes' member' bytes member same.symm).symm

/-- The blocks of a well-formed node are a hash chain. -/
theorem WellFormed.hashChain (formed : WellFormed genesis inner) :
    HashChain Block.blockHash (fun block => .ok block.parent) (·.height.toNat) inner.blocks where
  linked found found' := by
    have parent := formed.parents _ _ found'
    simpa [parentAt, found, Checked.expect, bind, Except.bind] using parent
  counted found := formed.heights _ _ found

/-- Every adopted block has been hashed. -/
theorem WellFormed.hashed (formed : WellFormed genesis inner) {block : Block}
    (member : block ∈ inner.blocks) : ∃ hash, block.blockHash = .ok hash := by
  obtain ⟨position, found⟩ := List.mem_iff_getElem?.mp member
  have inside := (List.getElem?_eq_some_iff.mp found).1
  have next : parentAt inner.blocks (position + 1) = block.blockHash := by
    simp [parentAt, found, Checked.expect, bind, Except.bind]
  rw [← next]
  rcases Nat.lt_or_ge (position + 1) inner.blocks.length with before | last
  · exact ⟨_, formed.parents _ _ (List.getElem?_eq_getElem before)⟩
  · rw [show position + 1 = inner.blocks.length by omega]
    exact ⟨_, formed.head⟩

/-- Blocks of two nodes with the same hash are equal. -/
theorem WellFormed.block_eq (formed : WellFormed genesis inner)
    (collisionFree : inner.CollisionFree inner')
    {block block' : Block} (member : block ∈ inner.blocks) (member' : block' ∈ inner'.blocks)
    (same : block.blockHash = block'.blockHash) : block = block' := by
  obtain ⟨hash, hashed⟩ := formed.hashed member
  exact collisionFree.eq_of_hash (block_mem_committed member) (block_mem_committed member') hashed
    (same.symm.trans hashed)

/-- Nodes which share their blocks up to a point share the transactions up to there. -/
theorem WellFormed.blockTxs_prefix (formed : WellFormed genesis inner)
    (formed' : WellFormed genesis' inner')
    (collisionFree : inner.CollisionFree inner')
    (blocks : inner.blocks <+: inner'.blocks) : inner.blockTxs <+: inner'.blockTxs := by
  have paired := formed.paired
  have paired' := formed'.paired
  have shorter := blocks.length_le
  refine List.prefix_iff_getElem?.mpr fun position inside => ?_
  have found := List.getElem?_eq_getElem (paired ▸ inside)
  have found' := getElem?_of_prefix blocks found
  have txs_eq := List.getElem?_eq_getElem inside
  have inside' : position < inner'.blockTxs.length := by omega
  have txs_eq' := List.getElem?_eq_getElem inside'
  have free : CollisionFree inner.blockTxs[position] inner'.blockTxs[position] :=
    fun stx member stx' member' =>
      collisionFree _ (tx_mem_committed (List.getElem_mem inside) member) _
        (tx_mem_committed (List.getElem_mem inside') member')
  rw [txs_eq', free.eq_of_ids (formed.ids _ _ _ found txs_eq) (formed'.ids _ _ _ found' txs_eq')]

/-- The head names the last block. -/
theorem WellFormed.last_hashed (formed : WellFormed genesis inner) {block : Block}
    (last : inner.blocks.getLast? = some block) :
    block.blockHash = .ok inner.sequencer.parent := by
  obtain ⟨earlier, blocks_eq⟩ := List.getLast?_eq_some_iff.mp last
  have head := formed.head
  rwa [blocks_eq, List.length_append, List.length_singleton, parentAt_last] at head

/-- A node whose head names a block of another node has a prefix of that node's history. -/
theorem WellFormed.prefix_of_head (formed : WellFormed genesis inner)
    (formed' : WellFormed genesis' inner') (nonempty : inner.blocks ≠ [])
    (collisionFree : inner.CollisionFree inner')
    {block : Block} (member : block ∈ inner'.blocks)
    (head : block.blockHash = .ok inner.sequencer.parent) :
    inner.blocks <+: inner'.blocks ∧ inner.blockTxs <+: inner'.blockTxs := by
  have last := List.getLast?_eq_some_getLast nonempty
  obtain rfl : inner.blocks.getLast nonempty = block :=
    formed.block_eq collisionFree (List.getLast_mem nonempty) member
      ((formed.last_hashed last).trans head.symm)
  have blocks := formed.hashChain.prefix_of_last formed'.hashChain
    (fun _ found _ found' => formed.block_eq collisionFree found found') last member
  exact ⟨blocks, formed.blockTxs_prefix formed' collisionFree blocks⟩

/-- Two nodes with the same head have the same ledger. -/
theorem WellFormed.state_eq (formed : WellFormed genesis inner)
    (formed' : WellFormed genesis' inner') (nonempty : inner.blocks ≠ [])
    (collisionFree : inner.CollisionFree inner')
    (blocks : inner.blocks = inner'.blocks) : inner.state = inner'.state := by
  have last := List.getLast?_eq_some_getLast nonempty
  have last' : inner'.blocks.getLast? = some (inner.blocks.getLast nonempty) := by
    rw [← blocks, last]
  exact collisionFree.eq_of_hash (state_mem_committed _) (state_mem_committed _)
    (formed.root _ last) (formed'.root _ last')

variable [Runtime]

theorem wellFormed_of_run {node : NodeHandle} {proposer : Identity}
    {allocations : List (Identity × Ucu)} {start lock : Lock NodeInner} {ops : List NodeOp}
    (opened : NodeHandle.new proposer allocations = .ok (node, start))
    (run : Run (NodeOp.Performs node) start ops lock) : WellFormed start.state.state lock.state :=
  run.invariant (fun lock => WellFormed start.state.state lock.state) (new_wellFormed opened)
    fun held performs => (performs.changes held.mempool).wellFormed held

/-- The head of a node commits to its history: another node which has a block with that hash,
whatever has happened to it since, holds the same blocks and transactions up to it; and if the block
is its head as well, the same ledger. -/
theorem head_commits {node node' : NodeHandle} {proposer proposer' : Identity}
    {allocations allocations' : List (Identity × Ucu)} {start start' lock lock' : Lock NodeInner}
    {ops ops' : List NodeOp}
    (opened : NodeHandle.new proposer allocations = .ok (node, start))
    (opened' : NodeHandle.new proposer' allocations' = .ok (node', start'))
    (run : Run (NodeOp.Performs node) start ops lock)
    (run' : Run (NodeOp.Performs node') start' ops' lock')
    (nonempty : lock.state.blocks ≠ [])
    (collisionFree : lock.state.CollisionFree lock'.state) :
    (∀ block ∈ lock'.state.blocks, block.blockHash = .ok lock.state.sequencer.parent →
      lock.state.blocks <+: lock'.state.blocks ∧ lock.state.blockTxs <+: lock'.state.blockTxs) ∧
    (lock'.state.blocks ≠ [] → lock'.state.sequencer.parent = lock.state.sequencer.parent →
      lock.state.blocks = lock'.state.blocks ∧ lock.state.blockTxs = lock'.state.blockTxs ∧
        lock.state.state = lock'.state.state) := by
  have formed := wellFormed_of_run opened run
  have formed' := wellFormed_of_run opened' run'
  refine ⟨fun block member head =>
    formed.prefix_of_head formed' nonempty collisionFree member head, fun nonempty' same => ?_⟩
  have last' := formed'.last_hashed (List.getLast?_eq_some_getLast nonempty')
  have last := formed.last_hashed (List.getLast?_eq_some_getLast nonempty)
  obtain ⟨blocks, txs⟩ := formed.prefix_of_head formed' nonempty collisionFree
    (List.getLast_mem nonempty') (same ▸ last')
  obtain ⟨blocks', txs'⟩ := formed'.prefix_of_head formed nonempty' collisionFree.symm
    (List.getLast_mem nonempty) (same ▸ last)
  have blocks_eq := blocks.eq_of_length_le blocks'.length_le
  exact ⟨blocks_eq, txs.eq_of_length_le txs'.length_le,
    formed.state_eq formed' nonempty collisionFree blocks_eq⟩

end Commitment

section Sample

open Sample

attribute [local instance] Crypto.checksum Runtime.echo

/-- One transfer. -/
def Sample.paid : List NodeOp := [.submit (signed alice 0 (.transfer bob 5))]

/-- A node after a transfer, and another one which has gone on from there. -/
theorem head_commits_paid :
    ∃ node start lock node' start' lock', NodeHandle.new alice funded = .ok (node, start) ∧
      NodeHandle.new alice funded = .ok (node', start') ∧
      Run (NodeOp.Performs node) start paid lock ∧
      Run (NodeOp.Performs node') start' (paid ++ [.advanceEpoch]) lock' ∧
      lock.state.blocks.length = 1 ∧ lock'.state.blocks.length = 2 ∧
      lock.state.blocks <+: lock'.state.blocks ∧ lock.state.blockTxs <+: lock'.state.blockTxs := by
  have sampled : (nodeAfter paid).any (fun ran => (nodeAfter (paid ++ [.advanceEpoch])).any
      fun ran' => ran.2.2.state.CollisionFree ran'.2.2.state ∧ ran.2.2.state.blocks.length = 1 ∧
        ran'.2.2.state.blocks.length = 2 ∧ ∃ block ∈ ran'.2.2.state.blocks,
          block.blockHash = .ok ran.2.2.state.sequencer.parent) = true := by decide +kernel
  obtain ⟨⟨node, start, lock⟩, ran, sampled⟩ := (Option.any_eq_true _ _).mp sampled
  obtain ⟨⟨node', start', lock'⟩, ran', sampled⟩ := (Option.any_eq_true _ _).mp sampled
  obtain ⟨collisionFree, length_eq, length_eq', block, member, head⟩ := of_decide_eq_true sampled
  obtain ⟨opened, run⟩ := nodeAfter_eq_some ran
  obtain ⟨opened', run'⟩ := nodeAfter_eq_some ran'
  have nonempty : lock.state.blocks ≠ [] := by
    rintro empty
    simp [empty] at length_eq
  exact ⟨node, start, lock, node', start', lock', opened, opened', run, run', length_eq, length_eq',
    (head_commits opened opened' run run' nonempty collisionFree).1 block member head⟩

end Sample

end Ducp
