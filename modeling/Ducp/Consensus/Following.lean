import Ducp.Consensus.Agreement

/-!
# Following a chain

A block names its position by its height and by the hash of its parent.  An engine produces only
blocks which extend its own head; a replica which commits a block compares the transactions and the
state after them, and adopts whatever position the block names.
-/

namespace Ducp

open Outcome

section Following

variable [Crypto]

/-! ## Chains -/

/-- The hash a block at a position must carry as its parent: zero at the first position. -/
def parentAt (blocks : List Block) : ℕ → Checked Hash
  | 0 => .ok (Bytes.fill 32 0)
  | position + 1 => do
      let block ← Checked.expect blocks[position]?
      block.blockHash

/-- One hash-linked chain from genesis with consecutive heights, sealed by one proposer. -/
structure Linked (proposer : Identity) (blocks : List Block) : Prop where
  heights : ∀ (position : ℕ) (block : Block), blocks[position]? = some block →
    block.height.toNat = position + 1
  parents : ∀ (position : ℕ) (block : Block), blocks[position]? = some block →
    parentAt blocks position = .ok block.parent
  proposers : ∀ (position : ℕ) (block : Block), blocks[position]? = some block →
    block.proposer = proposer

/-- A block which continues the head of an engine with some transactions and commits to a state. -/
structure Continues (engine : SingleSequencer) (txs : List SignedTx) (post : State)
    (block : Block) : Prop where
  height : block.height.toNat = engine.height.toNat + 1
  parent : block.parent = engine.parent
  epoch : block.epoch = engine.epoch
  ids : txs.map SignedTx.txId = block.txs.map .ok
  root : post.stateRoot = .ok block.stateRoot

theorem produce_continues {engine : SingleSequencer} {mempool : List SignedTx} {state : State}
    {params : Params} {proposal : Proposal}
    (produced : engine.produce mempool state params = .ok proposal) :
    Continues engine proposal.txs proposal.state proposal.block := by
  have ids := (produce_tallied produced).ids_eq
  obtain ⟨tally, _, produced⟩ := Checked.bind_eq_ok.mp produced
  obtain ⟨height, height_eq, produced⟩ := Checked.bind_eq_ok.mp produced
  obtain ⟨stateRoot, root_eq, produced⟩ := Checked.bind_eq_ok.mp produced
  obtain rfl := Checked.pure_eq_ok.mp produced
  exact ⟨Checked.add_eq_ok.mp height_eq, rfl, rfl, ids, root_eq⟩

theorem sealBlock_continues {engine : SingleSequencer} {post : State} {block : Block}
    (sealed : engine.sealBlock post = .ok block) : Continues engine [] post block := by
  obtain ⟨height, height_eq, sealed⟩ := Checked.bind_eq_ok.mp sealed
  obtain ⟨stateRoot, root_eq, sealed⟩ := Checked.bind_eq_ok.mp sealed
  obtain rfl := Checked.pure_eq_ok.mp sealed
  exact ⟨Checked.add_eq_ok.mp height_eq, rfl, rfl, rfl, root_eq⟩

/-- A block at the next position of an engine, sealed by its proposer. -/
structure Extends (engine : SingleSequencer) (block : Block) : Prop where
  height : block.height.toNat = engine.height.toNat + 1
  parent : block.parent = engine.parent
  proposer : block.proposer = engine.proposer

theorem produce_extends {engine : SingleSequencer} {mempool : List SignedTx} {state : State}
    {params : Params} {proposal : Proposal}
    (produced : engine.produce mempool state params = .ok proposal) :
    Extends engine proposal.block := by
  have continues := produce_continues produced
  obtain ⟨tally, _, produced⟩ := Checked.bind_eq_ok.mp produced
  obtain ⟨height, _, produced⟩ := Checked.bind_eq_ok.mp produced
  obtain ⟨stateRoot, _, produced⟩ := Checked.bind_eq_ok.mp produced
  obtain rfl := Checked.pure_eq_ok.mp produced
  exact ⟨continues.height, rfl, rfl⟩

theorem sealBlock_extends {engine : SingleSequencer} {post : State} {block : Block}
    (sealed : engine.sealBlock post = .ok block) : Extends engine block := by
  have continues := sealBlock_continues sealed
  obtain ⟨height, _, sealed⟩ := Checked.bind_eq_ok.mp sealed
  obtain ⟨stateRoot, _, sealed⟩ := Checked.bind_eq_ok.mp sealed
  obtain rfl := Checked.pure_eq_ok.mp sealed
  exact ⟨continues.height, rfl, rfl⟩

/-! ## One more block -/

section Append

variable {blocks : List Block} {block : Block} {position : ℕ} {proposer : Identity}

/-- A new block leaves the parents up to its own position alone. -/
theorem parentAt_append (within : position ≤ blocks.length) :
    parentAt (blocks ++ [block]) position = parentAt blocks position := by
  cases position with
  | zero => rfl
  | succ position => simp only [parentAt, List.getElem?_append_left within]

theorem parentAt_last : parentAt (blocks ++ [block]) (blocks.length + 1) = block.blockHash := by
  simp [parentAt, Checked.expect, bind, Except.bind]

omit [Crypto] in
/-- An entry of an extended list is an old one or the new one. -/
theorem getElem?_snoc {α : Type} {entries : List α} {last entry : α}
    (found : (entries ++ [last])[position]? = some entry) :
    entries[position]? = some entry ∨ position = entries.length ∧ last = entry := by
  by_cases inside : position < entries.length
  · left
    rwa [List.getElem?_append_left inside] at found
  · right
    rw [List.getElem?_append_right (Nat.not_lt.mp inside)] at found
    have offset : position - entries.length = 0 := by
      have bound := (List.getElem?_eq_some_iff.mp found).1
      simpa using bound
    rw [offset] at found
    exact ⟨by omega, by simpa using found⟩

theorem linked_nil : Linked proposer [] := by constructor <;> simp

/-- A chain with one more block is a chain before it, and the block is at the next position. -/
theorem linked_snoc :
    Linked proposer (blocks ++ [block]) ↔
      Linked proposer blocks ∧ block.height.toNat = blocks.length + 1 ∧
        parentAt blocks blocks.length = .ok block.parent ∧ block.proposer = proposer := by
  have inside {position : ℕ} {found : Block} (found_eq : blocks[position]? = some found) :
      position < blocks.length ∧ (blocks ++ [block])[position]? = some found := by
    obtain ⟨bound, _⟩ := List.getElem?_eq_some_iff.mp found_eq
    exact ⟨bound, by rwa [List.getElem?_append_left bound]⟩
  have last : (blocks ++ [block])[blocks.length]? = some block := by simp
  constructor
  · intro linked
    refine ⟨⟨fun position found found_eq => ?_, fun position found found_eq => ?_,
      fun position found found_eq => ?_⟩, linked.heights _ _ last, ?_, linked.proposers _ _ last⟩
    · exact linked.heights position found (inside found_eq).2
    · exact (parentAt_append (inside found_eq).1.le).symm.trans
        (linked.parents position found (inside found_eq).2)
    · exact linked.proposers position found (inside found_eq).2
    · exact (parentAt_append le_rfl).symm.trans (linked.parents _ _ last)
  · rintro ⟨linked, height, parent, proposer_eq⟩
    refine ⟨fun position found found_eq => ?_, fun position found found_eq => ?_,
      fun position found found_eq => ?_⟩ <;>
        rcases getElem?_snoc found_eq with old | ⟨rfl, rfl⟩
    · exact linked.heights position found old
    · exact height
    · rw [parentAt_append (inside old).1.le]
      exact linked.parents position found old
    · rw [parentAt_append le_rfl]
      exact parent
    · exact linked.proposers position found old
    · exact proposer_eq

end Append

/-! ## Replicas -/

/-- A block with its transactions, as a replica receives it, and the state it is replayed on. -/
structure Delivery where
  block : Block
  txs : List SignedTx
  state : State
  params : Params

/-- The replica commits a block and adopts it. -/
def Follows (replica : SingleSequencer) (delivery : Delivery) (replica' : SingleSequencer) : Prop :=
  (∃ s, (replica.commit delivery.block delivery.txs delivery.state delivery.params).Returns s) ∧
    replica.adopt delivery.block = .ok replica'

/-- The head of a replica is the last of the blocks it has adopted. -/
structure Head (proposer : Identity) (blocks : List Block) (replica : SingleSequencer) : Prop where
  proposer : replica.proposer = proposer
  height : replica.height = ((blocks.getLast?).map (·.height)).getD 0
  parent : parentAt blocks blocks.length = .ok replica.parent
  epoch : replica.epoch = ((blocks.getLast?).map (·.epoch)).getD 0

variable {proposer : Identity} {deliveries : List Delivery} {replica replica' : SingleSequencer}
  {delivery : Delivery}

theorem Head.follows {blocks : List Block} (head : Head proposer blocks replica)
    (follows : Follows replica delivery replica') :
    Head proposer (blocks ++ [delivery.block]) replica' := by
  obtain ⟨hash, hashed, adopted⟩ := Checked.bind_eq_ok.mp follows.2
  obtain rfl := Checked.pure_eq_ok.mp adopted
  refine ⟨head.proposer, by simp, ?_, by simp⟩
  rw [List.length_append, List.length_singleton, parentAt_last, hashed]

/-- A replica at the head of its blocks is where its last block is. -/
theorem following_head (run : Run Follows (.new proposer) deliveries replica) :
    Head proposer (deliveries.map (·.block)) replica := by
  apply run.traced fun deliveries replica => Head proposer (deliveries.map (·.block)) replica
  · exact ⟨rfl, rfl, rfl, rfl⟩
  · intro _ _ _ _ head follows
    rw [List.map_append]
    exact head.follows follows

/-- On a linked chain, the next position of the head is the next position of the chain. -/
theorem Head.linked_snoc {blocks : List Block} {block : Block}
    (head : Head proposer blocks replica) :
    Linked proposer (blocks ++ [block]) ↔ Linked proposer blocks ∧ Extends replica block := by
  rw [Ducp.linked_snoc]
  refine and_congr_right fun linked => ?_
  have height : replica.height.toNat = blocks.length := by
    rw [head.height]
    cases last : blocks.getLast? with
    | none => simp [List.getLast?_eq_none_iff.mp last]
    | some tip =>
        obtain ⟨earlier, rfl⟩ := List.getLast?_eq_some_iff.mp last
        simpa using linked.heights earlier.length tip (by simp)
  rw [head.parent, ← height, Except.ok.injEq]
  constructor
  · rintro ⟨height_eq, parent_eq, proposer_eq⟩
    exact ⟨height_eq, parent_eq.symm, proposer_eq.trans head.proposer.symm⟩
  · rintro ⟨height_eq, parent_eq, proposer_eq⟩
    exact ⟨height_eq, parent_eq.symm, proposer_eq.trans head.proposer⟩

theorem follows_unique {before : SingleSequencer} {delivery : Delivery}
    {first second : SingleSequencer} (left : Follows before delivery first)
    (right : Follows before delivery second) : first = second :=
  Except.ok.inj (left.2.symm.trans right.2)

/-- The blocks of a replica are one linked chain when each extended the head it was committed on. -/
theorem following_linked_iff (run : Run Follows (.new proposer) deliveries replica) :
    Linked proposer (deliveries.map (·.block)) ↔
      ∀ earlier delivery later before, deliveries = earlier ++ delivery :: later →
        Run Follows (.new proposer) earlier before → Extends before delivery.block := by
  induction run with
  | nil => simp [linked_nil]
  | @snoc deliveries last middle final run taken ih =>
      rw [List.map_append, List.map_singleton, (following_head run).linked_snoc, ih]
      constructor
      · rintro ⟨extended, extends_last⟩ earlier delivery later before split earlier_run
        rcases List.eq_nil_or_concat later with rfl | ⟨rest, tip, rfl⟩
        · obtain ⟨rfl, same⟩ := List.append_inj' split rfl
          obtain rfl := List.singleton_inj.mp same
          have same : before = middle := by
            refine Run.unique ?_ earlier_run run
            exact follows_unique
          subst same
          exact extends_last
        · have split_init : deliveries = earlier ++ delivery :: rest := by
            rw [List.concat_eq_append, ← List.cons_append, ← List.append_assoc] at split
            exact (List.append_inj' split rfl).1
          exact extended earlier delivery rest before split_init earlier_run
      · intro extended
        refine ⟨fun earlier delivery later before split earlier_run => ?_,
          extended deliveries last [] middle rfl run⟩
        exact extended earlier delivery (later ++ [last]) before (by simp [split]) earlier_run

omit [Crypto] in
/-- An engine at the head of a replica produces and seals only blocks which extend that head. -/
theorem Extends.of_head {engine : SingleSequencer} {block : Block}
    (extended : Extends engine block) (height : engine.height = replica.height)
    (parent : engine.parent = replica.parent) (proposer : engine.proposer = replica.proposer) :
    Extends replica block :=
  ⟨height ▸ extended.height, parent ▸ extended.parent, proposer ▸ extended.proposer⟩

/-- A replica is where the last block it has adopted is, and accepts a block for its transactions
and its state root alone.  What it has accepted is one linked chain exactly when each block extended
the head it was committed on, which every block of an engine at that head does. -/
theorem follows_linked_iff (run : Run Follows (.new proposer) deliveries replica) :
    Head proposer (deliveries.map (·.block)) replica ∧
      (∀ (engine : SingleSequencer) (block block' : Block) (txs : List SignedTx) (state : State)
        (params : Params), block.txs = block'.txs → block.stateRoot = block'.stateRoot →
        replica.commit block txs state params = engine.commit block' txs state params) ∧
      (Linked proposer (deliveries.map (·.block)) ↔
        ∀ earlier delivery later before, deliveries = earlier ++ delivery :: later →
          Run Follows (.new proposer) earlier before → Extends before delivery.block) ∧
      ∀ engine : SingleSequencer, engine.height = replica.height →
        engine.parent = replica.parent → engine.proposer = replica.proposer →
        (∀ mempool state params proposal, engine.produce mempool state params = .ok proposal →
          Extends replica proposal.block) ∧
        ∀ post block, engine.sealBlock post = .ok block → Extends replica block := by
  refine ⟨following_head run, ?_, following_linked_iff run, ?_⟩
  · intro engine block block' txs state params txs_eq root_eq
    simp only [SingleSequencer.commit, txs_eq, root_eq]
  · intro engine height parent proposer
    exact ⟨fun _ _ _ _ produced => (produce_extends produced).of_head height parent proposer,
      fun _ _ sealed => (sealBlock_extends sealed).of_head height parent proposer⟩

end Following

section Sample

open Sample

attribute [local instance] Crypto.checksum

/-- An empty block of another proposer, far from the head of a fresh replica. -/
def Sample.foreign (stateRoot : Hash) : Block where
  height := 7
  parent := Bytes.fill 32 1
  epoch := 3
  txs := []
  stateRoot
  proposer := bob

/-- A fresh replica commits a block which extends no head of its own. -/
theorem foreign_committed :
    (∃ start root, State.genesis allocations 0 = .ok start ∧ start.stateRoot = .ok root ∧
      ((SingleSequencer.new alice).commit (foreign root) [] start .devnet).Returns start) ∧
    ¬∀ proposer deliveries replica, Run Follows (.new proposer) deliveries replica →
      ∀ block txs state params s, (replica.commit block txs state params).Returns s →
        Extends replica block := by
  have committed : ∃ start root, State.genesis allocations 0 = .ok start ∧
      start.stateRoot = .ok root ∧
      ((SingleSequencer.new alice).commit (foreign root) [] start .devnet).Returns start := by
    have rooted : (State.genesis allocations 0).toOption.any (fun start =>
        start.stateRoot.toOption.isSome) = true := by decide +kernel
    obtain ⟨start, genesis, rooted⟩ := (Option.any_eq_true _ _).mp rooted
    obtain ⟨root, root_eq⟩ := Option.isSome_iff_exists.mp rooted
    rw [Checked.toOption_eq_some] at genesis root_eq
    refine ⟨start, root, genesis, root_eq, ?_⟩
    simp only [SingleSequencer.commit, foreign, List.zip_nil_left, List.foldlM_nil, returns_bind,
      returns_lift, returns_pure]
    exact ⟨⟨⟩, by simp, _, rfl, _, root_eq, ⟨⟩, by simp, rfl⟩
  refine ⟨committed, fun extended => ?_⟩
  obtain ⟨start, root, _, _, returns⟩ := committed
  have height := (extended alice [] _ .nil _ _ _ _ _ returns).height
  simp [foreign, SingleSequencer.new] at height

/-- A replica which follows the sample proposal. -/
theorem follows_linked_iff_proposal : ∃ start proposal replica,
    Sample.proposal = .ok (start, proposal) ∧
      Run Follows (.new alice) [⟨proposal.block, proposal.txs, start, .devnet⟩] replica ∧
      Head alice [proposal.block] replica ∧
      (Linked alice [proposal.block] ↔
        ∀ earlier delivery later before,
          [⟨proposal.block, proposal.txs, start, .devnet⟩] = earlier ++ delivery :: later →
          Run Follows (.new alice) earlier before → Extends before delivery.block) := by
  have adopted : Sample.proposal.toOption.any (fun entry =>
      ((SingleSequencer.new alice).adopt entry.2.block).toOption.isSome) = true := by
    decide +kernel
  obtain ⟨⟨start, proposal⟩, ran, adopted⟩ := (Option.any_eq_true _ _).mp adopted
  obtain ⟨replica, adopted⟩ := Option.isSome_iff_exists.mp adopted
  rw [Checked.toOption_eq_some] at ran adopted
  have ran_eq := ran
  obtain ⟨_, _, ran⟩ := Checked.bind_eq_ok.mp ran
  obtain ⟨_, produced, ran⟩ := Checked.bind_eq_ok.mp ran
  obtain ⟨rfl, rfl⟩ := Prod.mk.inj (Checked.pure_eq_ok.mp ran)
  have follows : Follows (.new alice) ⟨_, _, _, .devnet⟩ replica :=
    ⟨⟨_, SingleSequencer.commit_produce produced⟩, adopted⟩
  obtain ⟨head, _, linked, _⟩ := follows_linked_iff (Run.single follows)
  exact ⟨_, _, replica, ran_eq, .single follows, head, linked⟩

end Sample

end Ducp
