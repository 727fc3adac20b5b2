import Ducp.Node.Commitment
import Ducp.Node.Replication
import Ducp.Wire

/-!
# Synchronizing over the interface

A remote replica asks for the head, fetches the blocks up to its height one request at a time, and
replays them.  Answers arrive in their wire form, and the node goes on between the requests.
-/

namespace Ducp

open Guarded Serde Serde.Codec Serde.Fields

/-! ## Requests of a client -/

/-- The answer to a request, as the client reads it; there is none when the request is refused. -/
def Client.request {α : Type} (codec : Codec α) (action : Guarded NodeInner ErrorObject α)
    (lock : Lock NodeInner) : Option α :=
  match (action lock).1 with
  | .ok (.ok value) => (codec.deserialize (codec.serialize value)).toOption
  | _ => none

theorem Client.request_eq_some {α : Type} {codec : Codec α} (faithful : codec.Faithful)
    {action : Guarded NodeInner ErrorObject α} {lock : Lock NodeInner} {value : α} :
    Client.request codec action lock = some value ↔
      ∃ after, action.Returns lock value after := by
  simp only [Client.request, Guarded.Returns, Guarded.Ends, Prod.ext_iff]
  split
  · rename_i found ended
    simp [ended, faithful found, Except.toOption]
  · rename_i refused
    simpa using refused value

/-- The fields of the view of a head. -/
def HeadView.wire : Codec HeadView :=
  (record <| .both (.one "height" (.unsigned 64)) <|
    .both (.one "state_root" (.text id .ok)) <| .one "epoch" (.unsigned 64)).via
    (fun view => (view.height, view.stateRoot, view.epoch))
    fun (height, stateRoot, epoch) => { height, stateRoot, epoch }

theorem HeadView.wire_faithful : HeadView.wire.Faithful := by
  refine via_faithful (record_faithful ?_ (by simp)) fun _ => rfl
  exact both_lawful (one_lawful unsigned_faithful) <|
    both_lawful (one_lawful (text_faithful fun _ => rfl)) (one_lawful unsigned_faithful)

section Sync

variable [Crypto] [Hex]

/-! ## The loop of a replica -/

/-- When the two requests for a height arrive at the node. -/
structure Moment where
  block : Lock NodeInner
  txs : Lock NodeInner

namespace Replica

/-- Fetch the block at a height with its transactions, and replay it. -/
def fetch (moments : BitVec 64 → Moment) (replica : Replica) (height : BitVec 64) :
    Option Replica := do
  let block ← Client.request Block.wire (Rpc.getBlock height) (moments height).block
  let txs ← Client.request SignedTx.wire.list (Rpc.getBlockTxs height) (moments height).txs
  match (replica.take .devnet (block, txs)).run with
  | .ok (.ok replica) => some replica
  | _ => none

/-- Fetch and replay the heights from one to that of a head. -/
def sync (moments : BitVec 64 → Moment) (replica : Replica) (head : HeadView) : Option Replica :=
  ((List.range' 1 head.height.toNat).map (BitVec.ofNat 64)).foldlM (fetch moments) replica

end Replica

variable {moments : BitVec 64 → Moment} {lock : Lock NodeInner} {replica replica' : Replica}

/-- What is shown at a height at the moments of its requests is replayed. -/
theorem fetch_eq_some (lawful : Hex.Lawful) {height : BitVec 64} {block : Block}
    {txs : List SignedTx} (shown : Shows (moments height).block height block txs)
    (shown' : Shows (moments height).txs height block txs) :
    replica.fetch moments height = some replica' ↔
      (replica.take .devnet (block, txs)).Returns replica' := by
  have block_eq := (Client.request_eq_some (Block.wire_faithful lawful)).mpr ⟨_, shown.block_eq⟩
  have txs_eq := (Client.request_eq_some (list_faithful (SignedTx.wire_faithful lawful))).mpr
    ⟨_, shown'.txs_eq⟩
  simp only [Replica.fetch, block_eq, txs_eq, Option.bind_eq_bind, Option.bind_some,
    Outcome.Returns]
  split
  · rename_i ended
    simp [ended]
  · rename_i refused
    simpa using refused replica'

/-- Fetching the heights of consecutive entries replays the entries. -/
theorem fetches_eq_some (lawful : Hex.Lawful) {entries : List (Block × List SignedTx)} {first : ℕ}
    (shown : ∀ position entry, entries[position]? = some entry →
      Shows (moments (BitVec.ofNat 64 (first + position))).block
          (BitVec.ofNat 64 (first + position)) entry.1 entry.2 ∧
        Shows (moments (BitVec.ofNat 64 (first + position))).txs
          (BitVec.ofNat 64 (first + position)) entry.1 entry.2) :
    ((List.range' first entries.length).map (BitVec.ofNat 64)).foldlM (Replica.fetch moments)
        replica = some replica' ↔
      (entries.foldlM (Replica.take .devnet) replica).Returns replica' := by
  induction entries generalizing first replica with
  | nil => simp [eq_comm]
  | cons entry entries ih =>
      have rest (middle : Replica) :
          ((List.range' (first + 1) entries.length).map (BitVec.ofNat 64)).foldlM
              (Replica.fetch moments) middle = some replica' ↔
            (entries.foldlM (Replica.take .devnet) middle).Returns replica' :=
        ih fun position later found => by
          have shown_later := shown (position + 1) later (by simpa using found)
          rwa [show first + (position + 1) = first + 1 + position by omega] at shown_later
      obtain ⟨shown_block, shown_txs⟩ := shown 0 entry rfl
      rw [Nat.add_zero] at shown_block shown_txs
      simp only [List.length_cons, List.range'_succ, List.map_cons, List.foldlM_cons,
        Option.bind_eq_bind, Option.bind_eq_some_iff, Outcome.returns_bind, rest,
        fetch_eq_some lawful shown_block shown_txs]

/-! ## What the loop ends with -/

/-- A moment after a lock at which the node still answers. -/
def Later [Runtime] (node : NodeHandle) (lock later : Lock NodeInner) : Prop :=
  later.poisoned = false ∧ ∃ ops, Run (NodeOp.Performs node) lock ops later

variable {genesis : State}

omit [Hex] in
/-- A replayed block commits to the state which the replica reaches. -/
theorem SingleSequencer.root_of_commit {engine : SingleSequencer} {block : Block}
    {txs : List SignedTx} {before after : State} {params : Params}
    (committed : (engine.commit block txs before params).Returns after) :
    after.stateRoot = .ok block.stateRoot := by
  simp only [SingleSequencer.commit, Outcome.returns_bind, Outcome.returns_rejectIf,
    Outcome.returns_lift, Outcome.returns_pure, not_not] at committed
  obtain ⟨_, _, _, _, _, root_eq, _, rfl, rfl⟩ := committed
  exact root_eq

omit [Hex] in
/-- Every block of a well-formed node is shown at its height. -/
theorem WellFormed.shows (formed : WellFormed genesis lock.state) (free : lock.poisoned = false)
    {position : ℕ} {entry : Block × List SignedTx}
    (found : (lock.state.blocks.zip lock.state.blockTxs)[position]? = some entry) :
    Shows lock (BitVec.ofNat 64 (1 + position)) entry.1 entry.2 := by
  obtain ⟨found_block, found_txs⟩ := List.getElem?_zip_eq_some.mp found
  have within := (List.getElem?_eq_some_iff.mp found_block).1
  have bounded := lock.state.sequencer.height.isLt
  have height_eq := formed.height
  refine shows_iff.mpr ⟨free, position, ?_, found_block, found_txs⟩
  rw [BitVec.toNat_ofNat, Nat.mod_eq_of_lt (by omega), Nat.add_comm]

omit [Hex] in
/-- A replica which has accepted every block of a node stands on its head, with the same root. -/
theorem WellFormed.followed (formed : WellFormed genesis lock.state) {params : Params}
    {proposer : Identity}
    (followed : ((Replica.fresh proposer genesis).follow params lock.state).Returns replica) :
    replica.engine.height = lock.state.sequencer.height ∧
      replica.engine.parent = lock.state.sequencer.parent ∧
      replica.state.stateRoot = lock.state.state.stateRoot := by
  have height_eq := formed.height
  have paired := formed.paired
  rw [Replica.follow] at followed
  rcases (lock.state.blocks.zip lock.state.blockTxs).eq_nil_or_concat' with
    empty | ⟨earlier, ⟨block, txs⟩, zip_eq⟩
  · rw [empty, List.foldlM_nil, Outcome.returns_pure] at followed
    subst followed
    have untouched : lock.state.blocks = [] := by
      rcases List.zip_eq_nil_iff.mp empty with untouched | untouched
      · exact untouched
      · exact List.length_eq_zero_iff.mp (by rw [paired, untouched, List.length_nil])
    have head := formed.head
    rw [untouched] at height_eq head
    rw [formed.untouched untouched]
    exact ⟨BitVec.eq_of_toNat_eq height_eq.symm, Except.ok.inj head, rfl⟩
  · rw [zip_eq, List.foldlM_append, Outcome.returns_bind] at followed
    obtain ⟨middle, _, taken⟩ := followed
    simp only [List.foldlM_cons, List.foldlM_nil, bind_pure, Replica.take, Outcome.returns_bind,
      Outcome.returns_lift, Outcome.returns_pure] at taken
    obtain ⟨state, committed, engine, adopted, rfl⟩ := taken
    have last : lock.state.blocks.getLast? = some block := by
      have blocks_eq := congrArg (List.map Prod.fst) zip_eq
      rw [List.map_fst_zip paired.le, List.map_append] at blocks_eq
      rw [blocks_eq, List.map_singleton, List.getLast?_concat]
    obtain ⟨parent, hashed, adopted⟩ := Checked.bind_eq_ok.mp adopted
    obtain rfl := Checked.pure_eq_ok.mp adopted
    refine ⟨?_, Except.ok.inj (hashed.symm.trans (formed.last_hashed last)), ?_⟩
    · rw [List.getLast?_eq_getElem?] at last
      have counted := formed.heights _ _ last
      have within := (List.getElem?_eq_some_iff.mp last).1
      have reached : block.height = lock.state.sequencer.height :=
        BitVec.eq_of_toNat_eq (by omega)
      exact reached
    · rw [formed.root block last]
      exact SingleSequencer.root_of_commit committed

/-- An answered head describes the node. -/
theorem head_of_returns {head : HeadView} {after : Lock NodeInner}
    (answered : Rpc.getHead.Returns lock head after) :
    lock.poisoned = false ∧ ∃ root, lock.state.state.stateRoot = .ok root ∧ head = {
      height := lock.state.sequencer.height
      stateRoot := Hex.encode root.toList
      epoch := lock.state.sequencer.epoch } := by
  rw [Rpc.getHead, NodeHandle.head, returns_locked] at answered
  obtain ⟨free, state, described, _⟩ := answered
  obtain ⟨root, hashed, described⟩ := Checked.bind_eq_ok.mp described
  have view_eq := (Prod.mk.inj (Checked.pure_eq_ok.mp described)).1
  exact ⟨free, root, hashed, (Except.ok.inj view_eq).symm⟩

omit [Hex] in
/-- What a node shows, it shows at every later moment. -/
theorem Later.shows [Runtime] {node : NodeHandle} {later : Lock NodeInner} {height : BitVec 64}
    {block : Block} {txs : List SignedTx} (reached : Later node lock later)
    (formed : WellFormed genesis lock.state) (shown : Shows lock height block txs) :
    Shows later height block txs := by
  obtain ⟨free, _, run⟩ := reached
  have appends : Appends lock.state later.state :=
    run.related (fun lock => WellFormed genesis lock.state)
      (fun lock later => Appends lock.state later.state) formed
      (fun held performs => (performs.changes held.mempool).wellFormed held) (fun _ => .refl _)
      Appends.trans fun held performs => (performs.changes held.mempool).appends
  exact appends.shows free shown

/-- The loop replays the blocks of the node, when they are still shown as it asks for them. -/
theorem WellFormed.syncs (formed : WellFormed genesis lock.state) (lawful : Hex.Lawful)
    (free : lock.poisoned = false) {head : HeadView}
    (height_eq : head.height = lock.state.sequencer.height)
    (shown : ∀ height block txs, Shows lock height block txs →
      Shows (moments height).block height block txs ∧
        Shows (moments height).txs height block txs) :
    replica.sync moments head = some replica' ↔
      (replica.follow .devnet lock.state).Returns replica' := by
  have length_eq : head.height.toNat = (lock.state.blocks.zip lock.state.blockTxs).length := by
    rw [height_eq, formed.height, List.length_zip, ← formed.paired, Nat.min_self]
  rw [Replica.sync, Replica.follow, length_eq]
  exact fetches_eq_some lawful fun position entry found => shown _ _ _ (formed.shows free found)

/-- A replica which synchronizes with a node from its genesis, block by block while the node goes
on, ends at the head it was answered: with that height and that root, so with the ledger of the node
then unless two ledgers collide under the hash.  It gets there whenever every change of the ledger
was carried by a block. -/
theorem replica_syncs [Runtime] (lawful : Hex.Lawful) {node : NodeHandle} {proposer : Identity}
    {allocations : List (Identity × Ucu)} {start : Lock NodeInner} {ops : List NodeOp}
    {head : HeadView} (opened : NodeHandle.new proposer allocations = .ok (node, start))
    (minted : State.genesis allocations 0 = .ok genesis)
    (run : Run (NodeOp.Performs node) start ops lock)
    (answered : Client.request HeadView.wire Rpc.getHead lock = some head)
    (later : ∀ height, Later node lock (moments height).block ∧
      Later node lock (moments height).txs) :
    (∀ replica, (Replica.fresh proposer genesis).sync moments head = some replica →
      replica.engine.height = head.height ∧
      replica.engine.parent = lock.state.sequencer.parent ∧
      (∃ root, replica.state.stateRoot = .ok root ∧ Hex.encode root.toList = head.stateRoot) ∧
      (replica.state = lock.state.state ∨
        Borsh.layout replica.state ≠ Borsh.layout lock.state.state ∧
          Crypto.hashBytes (Borsh.layout replica.state) =
            Crypto.hashBytes (Borsh.layout lock.state.state))) ∧
    (Run (Carries node) start ops lock →
      (Replica.fresh proposer genesis).sync moments head = some lock.state.replica) := by
  have formed := wellFormed_of_run opened run
  obtain ⟨_, state, _, minted', rfl, rfl⟩ := new_effect opened
  obtain rfl : genesis = state := Except.ok.inj (minted.symm.trans minted')
  obtain ⟨_, answered⟩ := (Client.request_eq_some HeadView.wire_faithful).mp answered
  obtain ⟨free, root, hashed, head_eq⟩ := head_of_returns answered
  have syncs (replica : Replica) :
      (Replica.fresh proposer genesis).sync moments head = some replica ↔
        ((Replica.fresh proposer genesis).follow .devnet lock.state).Returns replica :=
    formed.syncs lawful free (congrArg HeadView.height head_eq) fun height _ _ shown =>
      ⟨(later height).1.shows formed shown, (later height).2.shows formed shown⟩
  refine ⟨fun replica synced => ?_, fun carried => ?_⟩
  · obtain ⟨height_eq, parent_eq, root_eq⟩ := formed.followed ((syncs replica).mp synced)
    refine ⟨height_eq.trans (congrArg HeadView.height head_eq).symm, parent_eq,
      ⟨root, root_eq.trans hashed, (congrArg HeadView.stateRoot head_eq).symm⟩, ?_⟩
    obtain ⟨fits, hash_eq⟩ := hashCanonical_eq_ok.mp hashed
    obtain ⟨fits', hash_eq'⟩ := hashCanonical_eq_ok.mp (root_eq.trans hashed)
    by_cases same : Borsh.layout replica.state = Borsh.layout lock.state.state
    · exact .inl (Borsh.layout_injective fits' fits same)
    · exact .inr ⟨same, hash_eq'.trans hash_eq.symm⟩
  · obtain ⟨initial, empty, fresh_eq⟩ := new_chained opened
    have followed := carried.log_replays Chained
      (fun lock => lock.state.blocks.zip lock.state.blockTxs) (fun lock => lock.state.replica)
      initial (fun chained carries => (carries.logs chained).1) empty
      fun chained carries => (carries.logs chained).2
    rw [fresh_eq] at followed
    exact (syncs _).mpr followed

end Sync

section Sample

open Sample

attribute [local instance] Crypto.checksum Runtime.echo Hex.lower

/-- The node crosses an epoch boundary between the answer of its head and the requests. -/
theorem replica_syncs_paid :
    ∃ node start lock head genesis, NodeHandle.new alice funded = .ok (node, start) ∧
      Run (NodeOp.Performs node) start paid lock ∧
      Client.request HeadView.wire Rpc.getHead lock = some head ∧ head.height = 1 ∧
      (Replica.fresh alice genesis).sync (fun _ =>
        ⟨NodeOp.perform node lock .advanceEpoch, NodeOp.perform node lock .advanceEpoch⟩) head =
          some lock.state.replica := by
  have sampled : (nodeAfter paid).any (fun ran =>
      (Client.request HeadView.wire Rpc.getHead ran.2.2).any (fun head => head.height = 1) ∧
        (NodeOp.perform ran.1 ran.2.2 .advanceEpoch).poisoned = false) = true := by
    decide +kernel
  obtain ⟨⟨node, start, lock⟩, ran, sampled⟩ := (Option.any_eq_true _ _).mp sampled
  obtain ⟨opened, run⟩ := nodeAfter_eq_some ran
  obtain ⟨answered, free⟩ := of_decide_eq_true sampled
  obtain ⟨head, answered, height_eq⟩ := (Option.any_eq_true _ _).mp answered
  obtain ⟨_, genesis, _, minted, _⟩ := new_effect opened
  have crossed : Run (NodeOp.Performs node) lock [.advanceEpoch]
    (NodeOp.perform node lock .advanceEpoch) := Run.of_foldl
  have carried : Run (Carries node) start paid lock :=
    run.mono fun op member before after performs =>
      ⟨performs, by simp_all [paid, NodeOp.Carried]⟩
  exact ⟨node, start, lock, head, genesis, opened, run, answered, of_decide_eq_true height_eq,
    (replica_syncs Hex.lower_lawful opened minted run answered
      fun _ => ⟨⟨free, _, crossed⟩, free, _, crossed⟩).2 carried⟩

end Sample

end Ducp
