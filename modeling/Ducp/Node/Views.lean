import Ducp.Node.Chain
import Ducp.Node.Rpc

/-!
# Reading a node

The read methods copy something out of one critical section, and the interface answers with the
copy or with an error.  What a remote reader sees of the chain is immutable, linked, and ends in the
head.
-/

namespace Ducp

open Guarded Outcome

/-! ## Views -/

/-- The holdings of an account, in decimal texts. -/
structure AccountView where
  balance : String
  escrowed : String
  bonded : String
  deriving DecidableEq

/-- The Standing of an identity. -/
structure StandingView where
  sp : String
  strikes : BitVec 32
  deriving DecidableEq

/-- The head of the chain. -/
structure HeadView where
  height : BitVec 64
  stateRoot : String
  epoch : Epoch
  deriving DecidableEq

/-- A submission with its status, and the records of its settlement. -/
structure TaskView where
  submission : Submission
  status : String
  receipt : Option Receipt
  qEntry : Option QLedgerEntry
  deriving DecidableEq

/-- The response to an estimate. -/
structure EstimateResp where
  ucu : String
  deriving DecidableEq

/-- The response with a payload. -/
structure GetBlobResp where
  data : String
  deriving DecidableEq

/-- The name of a status. -/
def TaskStatus.name : TaskStatus → String
  | submitted => "Submitted"
  | matched => "Matched"
  | executing => "Executing"
  | verified => "Verified"
  | settled => "Settled"
  | failed => "Failed"

/-! ## Read methods -/

namespace NodeHandle

variable {ε : Type}

/-- The view of an account, fresh when unknown. -/
def accountView (id : Identity) : Guarded NodeInner ε AccountView :=
  Guarded.read fun inner =>
    let account := inner.state.acct id
    .ok {
      balance := toString account.balance.toNat
      escrowed := toString account.escrowed.toNat
      bonded := toString account.bonded.toNat }

/-- The view of a Standing record, zero when unknown. -/
def standingView (id : Identity) : Guarded NodeInner ε StandingView :=
  Guarded.read fun inner =>
    match inner.state.standing[id]? with
    | some record => .ok { sp := toString record.sp.toInt, strikes := record.strikes }
    | none => .ok { sp := "0", strikes := 0 }

/-- The view of the head; the state is hashed inside the lock. -/
def head [Crypto] [Hex] : Guarded NodeInner ε HeadView :=
  Guarded.locked fun inner => do
    let root ← inner.state.stateRoot
    return (.ok {
      height := inner.sequencer.height
      stateRoot := Hex.encode root.toList
      epoch := inner.sequencer.epoch }, inner)

/-- The view of a known task. -/
def taskView (task : TaskId) : Guarded NodeInner ε (Option TaskView) :=
  Guarded.read fun inner =>
    .ok <| (inner.state.tasks[task]?).map fun submission => {
      submission
      status := submission.status.name
      receipt := inner.state.receipts[task]?
      qEntry := inner.state.qLedger[task]? }

/-- The efficiency entry of a task. -/
def qEntry (task : TaskId) : Guarded NodeInner ε (Option QLedgerEntry) :=
  Guarded.read fun inner => .ok inner.state.qLedger[task]?

/-- The entry at a height, counted from one; there is none at height zero. -/
def entryAt {α : Type} (entries : NodeInner → List α) (height : BitVec 64) :
    Guarded NodeInner ε (Option α) :=
  if height = 0 then return none
  else Guarded.read fun inner => .ok (entries inner)[(height - 1).toNat]?

/-- The block at a height. -/
def blockAt (height : BitVec 64) : Guarded NodeInner ε (Option Block) := entryAt (·.blocks) height

/-- The transactions of the block at a height. -/
def blockTxsAt (height : BitVec 64) : Guarded NodeInner ε (Option (List SignedTx)) :=
  entryAt (·.blockTxs) height

/-- The payload at a content address. -/
def getBlob (id : ContentId) : Guarded NodeInner ε (Option (List UInt8)) :=
  Guarded.read fun inner => .ok inner.blobs[id]?

end NodeHandle

/-! ## Read requests -/

/-- The error of a missing thing. -/
def notFound (what : String) : ErrorObject := { code := -32004, message := what ++ " not found" }

namespace Rpc

variable [Crypto] [Hex]

/-- A result which has been computed outside the lock. -/
def given {α : Type} : Except ErrorObject α → Guarded NodeInner ErrorObject α
  | .ok value => pure value
  | .error reason => liftM (throw reason : Outcome ErrorObject α)

omit [Crypto] in
/-- A hash from a hexadecimal text of 32 bytes. -/
def parseHash (text : String) : Except ErrorObject Hash := do
  let bytes ← parseHex text
  if full : bytes.length = 32 then return ⟨bytes, full⟩
  else throw (invalid "expected 32-byte hex")

/-- The view of a task. -/
def getTask (taskId : String) : Guarded NodeInner ErrorObject TaskView := do
  let task ← given (parseHash taskId)
  let found ← NodeHandle.taskView task
  (liftM (okOr found (notFound "task")) : Guarded NodeInner ErrorObject TaskView)

/-- The view of an account. -/
def getAccount (id : String) : Guarded NodeInner ErrorObject AccountView := do
  let id ← given (parseHash id)
  NodeHandle.accountView id

/-- The view of a Standing record. -/
def getStanding (id : String) : Guarded NodeInner ErrorObject StandingView := do
  let id ← given (parseHash id)
  NodeHandle.standingView id

/-- The view of the head. -/
def getHead : Guarded NodeInner ErrorObject HeadView := NodeHandle.head

/-- The block at a height. -/
def getBlock (height : BitVec 64) : Guarded NodeInner ErrorObject Block := do
  let found ← NodeHandle.blockAt height
  (liftM (okOr found (notFound "block")) : Guarded NodeInner ErrorObject Block)

/-- The transactions of the block at a height. -/
def getBlockTxs (height : BitVec 64) : Guarded NodeInner ErrorObject (List SignedTx) := do
  let found ← NodeHandle.blockTxsAt height
  (liftM (okOr found (notFound "block")) : Guarded NodeInner ErrorObject (List SignedTx))

/-- The efficiency entry of a task. -/
def getQEntry (taskId : String) : Guarded NodeInner ErrorObject QLedgerEntry := do
  let task ← given (parseHash taskId)
  let found ← NodeHandle.qEntry task
  (liftM (okOr found (notFound "q-entry")) : Guarded NodeInner ErrorObject QLedgerEntry)

/-- The error of an estimate which is not made. -/
def estimateErr : EstimateError → ErrorObject
  | .missingProgram => notFound "program blob"
  | .missingInput => notFound "input blob"

/-- Meter a pair of stored payloads; the benchmark version is ignored. -/
def estimateUcu [Runtime] (node : NodeHandle) (program input : String)
    (_benchmark : BenchmarkVersion) : Guarded NodeInner ErrorObject EstimateResp := do
  let program ← given (parseHash program)
  let input ← given (parseHash input)
  let ucu ← (node.estimate program input).mapErr estimateErr
  return { ucu := toString ucu.toNat }

/-- The payload at a content address. -/
def getBlob (contentId : String) : Guarded NodeInner ErrorObject GetBlobResp := do
  let id ← given (parseHash contentId)
  let found ← NodeHandle.getBlob id
  let bytes ← (liftM (okOr found (notFound "blob")) : Guarded NodeInner ErrorObject (List UInt8))
  return { data := Hex.encode bytes }

end Rpc

/-! ## What a reader is answered -/

namespace Rpc

variable {α : Type} {before after : Lock NodeInner} {result : Except ErrorObject α} {value : α}

@[simp]
theorem returns_given :
    (given result).Returns before value after ↔ result = .ok value ∧ after = before := by
  cases result with
  | ok found => simp [given]
  | error reason =>
      simp [given, Outcome.Returns, throw, throwThe, MonadExceptOf.throw, ExceptT.run, ExceptT.mk,
        pure, Except.pure]

@[simp]
theorem returns_found {found : Option α} {missing : ErrorObject} :
    (liftM (okOr found missing) : Guarded NodeInner ErrorObject α).Returns before value after ↔
      found = some value ∧ after = before := by
  cases found <;> simp [okOr]

/-- An entry is answered at every height but zero which has one. -/
theorem returns_entryAt {entries : NodeInner → List α} {height : BitVec 64}
    {missing : ErrorObject} :
    (NodeHandle.entryAt entries height >>= fun found =>
        (liftM (okOr found missing) : Guarded NodeInner ErrorObject α)).Returns before value after ↔
      before.poisoned = false ∧ height ≠ 0 ∧
        (entries before.state)[(height - 1).toNat]? = some value ∧ after = before := by
  rw [NodeHandle.entryAt, Guarded.returns_bind]
  split
  · simp [*]
  · simp only [returns_read, returns_found, Except.ok.injEq]
    constructor
    · rintro ⟨_, _, ⟨free, rfl, rfl⟩, found, rfl⟩
      exact ⟨free, ‹_›, found, rfl⟩
    · rintro ⟨free, _, found, rfl⟩
      exact ⟨_, _, ⟨free, rfl, rfl⟩, found, rfl⟩

section Texts

variable [Hex] {bytes : List UInt8}

/-- An encoded byte string has no prefix, and is read back. -/
theorem parseHex_encode (lawful : Hex.Lawful) : parseHex (Hex.encode bytes) = .ok bytes := by
  have bare : (Hex.encode bytes).startsWith "0x" = false := by
    rw [Bool.eq_false_iff, ne_eq, String.startsWith_string_iff]
    intro prefixed
    have digit := lawful.digits bytes 'x' (prefixed.subset (by decide))
    exact absurd digit (by decide)
  simp only [parseHex, bare, Bool.false_eq_true, if_false, lawful.decode_encode]

theorem parseHex_prefixed (lawful : Hex.Lawful) :
    parseHex ("0x" ++ Hex.encode bytes) = .ok bytes := by
  have front : ("0x" ++ Hex.encode bytes).startsWith "0x" = true := by simp
  have rest : (("0x" ++ Hex.encode bytes).drop 2).toString = Hex.encode bytes := by
    apply String.ext
    simp [String.Slice.toString]
  simp only [parseHex, front, if_true, rest, lawful.decode_encode]

/-- A hash is read back from its text, with or without the prefix. -/
theorem parseHash_encode (lawful : Hex.Lawful) (hash : Hash) :
    parseHash (Hex.encode hash.toList) = .ok hash ∧
      parseHash ("0x" ++ Hex.encode hash.toList) = .ok hash := by
  rw [parseHash, parseHash, parseHex_encode lawful, parseHex_prefixed lawful]
  exact ⟨dif_pos hash.length_toList, dif_pos hash.length_toList⟩

end Texts

end Rpc

/-! ## The chain seen from outside -/

/-- The block and the transactions which a reader is answered at a height. -/
structure Shows (lock : Lock NodeInner) (height : BitVec 64) (block : Block)
    (txs : List SignedTx) : Prop where
  block_eq : (Rpc.getBlock height).Returns lock block lock
  txs_eq : (Rpc.getBlockTxs height).Returns lock txs lock

/-- A height is answered exactly when the position before it holds a block. -/
theorem shows_iff {lock : Lock NodeInner} {height : BitVec 64} {block : Block}
    {txs : List SignedTx} :
    Shows lock height block txs ↔ lock.poisoned = false ∧ ∃ position,
      height.toNat = position + 1 ∧ lock.state.blocks[position]? = some block ∧
        lock.state.blockTxs[position]? = some txs := by
  have position_eq (positive : height ≠ 0) : height.toNat = (height - 1).toNat + 1 := by bv_omega
  constructor
  · rintro ⟨block_eq, txs_eq⟩
    obtain ⟨free, positive, found, _⟩ := Rpc.returns_entryAt.mp block_eq
    obtain ⟨_, _, found_txs, _⟩ := Rpc.returns_entryAt.mp txs_eq
    exact ⟨free, (height - 1).toNat, position_eq positive, found, found_txs⟩
  · rintro ⟨free, position, height_eq, found, found_txs⟩
    have positive : height ≠ 0 := by bv_omega
    obtain rfl : position = (height - 1).toNat := by
      have := position_eq positive
      omega
    exact ⟨Rpc.returns_entryAt.mpr ⟨free, positive, found, rfl⟩,
      Rpc.returns_entryAt.mpr ⟨free, positive, found_txs, rfl⟩⟩

section Chain

variable [Crypto]

/-- What a reader is answered describes one chain, from a block without a parent to the head. -/
structure Browsable [Hex] (lock : Lock NodeInner) : Prop where
  answered : ∀ height : BitVec 64, (∃ block txs, Shows lock height block txs) ↔
    height ≠ 0 ∧ height ≤ lock.state.sequencer.height
  height : ∀ {height block txs}, Shows lock height block txs → block.height = height
  ids : ∀ {height block txs}, Shows lock height block txs →
    txs.map SignedTx.txId = block.txs.map .ok
  first : ∀ {block txs}, Shows lock 1 block txs → block.parent = Bytes.fill 32 0
  linked : ∀ {height block txs block' txs'}, Shows lock height block txs →
    Shows lock (height + 1) block' txs' → block.blockHash = .ok block'.parent
  epochs : ∀ {height block txs height' block' txs'}, Shows lock height block txs →
    Shows lock height' block' txs' → height ≤ height' → block.epoch ≤ block'.epoch
  head : ∀ {block txs}, Shows lock lock.state.sequencer.height block txs →
    Rpc.getHead.Returns lock {
      height := block.height
      stateRoot := Hex.encode block.stateRoot.toList
      epoch := lock.state.sequencer.epoch } lock

variable {genesis : State} {lock : Lock NodeInner} {height : BitVec 64} {block : Block}
  {txs : List SignedTx}

/-- The head of a poisoned lock is not answered; that of a free one is, once a block has committed
to the state. -/
theorem getHead_returns [Hex] {root : Hash} (free : lock.poisoned = false)
    (hashed : lock.state.state.stateRoot = .ok root) :
    Rpc.getHead.Returns lock {
      height := lock.state.sequencer.height
      stateRoot := Hex.encode root.toList
      epoch := lock.state.sequencer.epoch } lock := by
  rw [Rpc.getHead, NodeHandle.head, returns_locked]
  refine ⟨free, lock.state, ?_, rfl⟩
  simp [hashed, bind, Except.bind, pure, Except.pure]

theorem WellFormed.height_of_shows (formed : WellFormed genesis lock.state)
    (shows : Shows lock height block txs) : block.height = height := by
  obtain ⟨_, position, height_eq, found, _⟩ := shows_iff.mp shows
  have counted := formed.heights position block found
  exact BitVec.eq_of_toNat_eq (by omega)

/-- A well-formed node shows a chain. -/
theorem WellFormed.browsable [Hex] (formed : WellFormed genesis lock.state)
    (free : lock.poisoned = false) : Browsable lock where
  answered height := by
    have length_eq := formed.height
    have paired := formed.paired
    constructor
    · rintro ⟨block, txs, shows⟩
      obtain ⟨_, position, height_eq, found, _⟩ := shows_iff.mp shows
      have within := (List.getElem?_eq_some_iff.mp found).1
      exact ⟨by bv_omega, by bv_omega⟩
    · rintro ⟨positive, within⟩
      have inside : height.toNat - 1 < lock.state.blocks.length := by bv_omega
      exact ⟨_, _, shows_iff.mpr ⟨free, height.toNat - 1, by bv_omega,
        List.getElem?_eq_getElem inside, List.getElem?_eq_getElem (paired ▸ inside)⟩⟩
  height shows := formed.height_of_shows shows
  ids shows := by
    obtain ⟨_, position, _, found, found_txs⟩ := shows_iff.mp shows
    exact formed.ids position _ _ found found_txs
  first shows := by
    obtain ⟨_, position, height_eq, found, _⟩ := shows_iff.mp shows
    obtain rfl : position = 0 := by bv_omega
    exact (Except.ok.inj (formed.parents 0 _ found)).symm
  linked {height block txs block' txs'} shows shows' := by
    obtain ⟨_, position, height_eq, found, _⟩ := shows_iff.mp shows
    obtain ⟨_, position', height_eq', found', _⟩ := shows_iff.mp shows'
    obtain rfl : position' = position + 1 := by bv_omega
    have parent := formed.parents _ block' found'
    simpa [parentAt, found, Checked.expect, bind, Except.bind] using parent
  epochs {height block txs height' block' txs'} shows shows' later := by
    obtain ⟨_, position, height_eq, found, _⟩ := shows_iff.mp shows
    obtain ⟨_, position', height_eq', found', _⟩ := shows_iff.mp shows'
    rcases Nat.lt_or_ge position position' with before | after
    · obtain ⟨inside, rfl⟩ := List.getElem?_eq_some_iff.mp found
      obtain ⟨inside', rfl⟩ := List.getElem?_eq_some_iff.mp found'
      exact List.pairwise_iff_getElem.mp formed.epochs position position' inside inside' before
    · obtain rfl : position' = position := by bv_omega
      rw [Option.some.inj (found.symm.trans found')]
      exact BitVec.le_refl _
  head {block txs} shows := by
    obtain ⟨_, position, height_eq, found, _⟩ := shows_iff.mp shows
    have last : lock.state.blocks.getLast? = some block := by
      rw [List.getLast?_eq_getElem?, ← found]
      congr 1
      have := formed.height
      omega
    rw [formed.height_of_shows shows]
    exact getHead_returns free (formed.root block last)

/-! ## Runs -/

/-- Blocks and their transactions are only ever appended. -/
structure Appends (inner inner' : NodeInner) : Prop where
  blocks : inner.blocks <+: inner'.blocks
  blockTxs : inner.blockTxs <+: inner'.blockTxs

omit [Crypto] in
theorem Appends.refl (inner : NodeInner) : Appends inner inner :=
  ⟨List.prefix_rfl, List.prefix_rfl⟩

omit [Crypto] in
theorem Appends.trans {first second third : NodeInner} (former : Appends first second)
    (latter : Appends second third) : Appends first third :=
  ⟨former.blocks.trans latter.blocks, former.blockTxs.trans latter.blockTxs⟩

theorem append_appends {inner inner' : NodeInner} {engine : SingleSequencer} {state : State}
    (appended : ({ inner with sequencer := engine } : NodeInner).append block txs state =
      .ok inner') : Appends inner inner' := by
  obtain ⟨_, _, rfl⟩ := append_effect appended
  exact ⟨List.prefix_append _ _, List.prefix_append _ _⟩

variable [Runtime] {node : NodeHandle}

theorem Changes.appends {inner inner' : NodeInner} {op : NodeOp}
    (changes : Changes node inner op inner') : Appends inner inner' := by
  cases changes with
  | idle => exact .refl _
  | accept admits => exact append_appends admits.appended
  | decide decides =>
      obtain ⟨_, _, _, seals⟩ := applyVerdict_effect decides.applied
      exact append_appends seals.appended
  | cross crossed =>
      obtain ⟨_, _, _, seals⟩ := crossEpoch_effect crossed
      exact append_appends seals.appended
  | store bytes => exact ⟨List.prefix_rfl, List.prefix_rfl⟩

omit [Crypto] [Runtime] in
theorem getElem?_of_prefix {α : Type} {old new : List α} {position : ℕ} {entry : α}
    (extends_old : old <+: new) (found : old[position]? = some entry) :
    new[position]? = some entry := by
  obtain ⟨inside, rfl⟩ := List.getElem?_eq_some_iff.mp found
  exact List.prefix_iff_getElem?.mp extends_old position inside

omit [Crypto] [Runtime] in
/-- What is shown at a height stays, as long as the lock is not poisoned. -/
theorem Appends.shows {lock' : Lock NodeInner} (appends : Appends lock.state lock'.state)
    (free : lock'.poisoned = false) (shown : Shows lock height block txs) :
    Shows lock' height block txs := by
  obtain ⟨_, position, height_eq, found, found_txs⟩ := shows_iff.mp shown
  exact shows_iff.mpr ⟨free, position, height_eq, getElem?_of_prefix appends.blocks found,
    getElem?_of_prefix appends.blockTxs found_txs⟩

/-- At every moment of every run, unless the lock is poisoned, a reader is answered a hash chain
which ends in the head, and whatever it has been answered before at a height it is answered
again. -/
theorem chain_immutable [Hex] {proposer : Identity} {allocations : List (Identity × Ucu)}
    {start before after : Lock NodeInner} {earlier later : List NodeOp}
    (opened : NodeHandle.new proposer allocations = .ok (node, start))
    (reached : Run (NodeOp.Performs node) start earlier before)
    (continued : Run (NodeOp.Performs node) before later after)
    (free : after.poisoned = false) :
    Browsable after ∧ ∀ height block txs, Shows before height block txs →
      Shows after height block txs := by
  have kept {before after : Lock NodeInner} {op : NodeOp}
      (formed : WellFormed start.state.state before.state)
      (performs : op.Performs node before after) : WellFormed start.state.state after.state :=
    (performs.changes formed.mempool).wellFormed formed
  have formed := reached.invariant (fun lock => WellFormed start.state.state lock.state)
    (new_wellFormed opened) kept
  have formed' := continued.invariant (fun lock => WellFormed start.state.state lock.state)
    formed kept
  refine ⟨formed'.browsable free, fun height block txs shown => ?_⟩
  have appends : Appends before.state after.state :=
    continued.related (fun lock => WellFormed start.state.state lock.state)
      (fun lock lock' => Appends lock.state lock'.state) formed kept (fun _ => .refl _)
      Appends.trans fun held performs => (performs.changes held.mempool).appends
  exact appends.shows free shown

end Chain

section Sample

open Sample

attribute [local instance] Crypto.checksum Runtime.echo Hex.lower

theorem chain_immutable_echo :
    ∃ node start before after, NodeHandle.new alice funded = .ok (node, start) ∧
      Run (NodeOp.Performs node) start (echoBlobs ++ echoSettled echoProof) before ∧
      Run (NodeOp.Performs node) before [.advanceEpoch, .submit echoChallenge] after ∧
      before.state.sequencer.height = 3 ∧ after.state.sequencer.height = 5 ∧
      Browsable after ∧ ∀ height block txs, Shows before height block txs →
        Shows after height block txs := by
  have ran : (nodeAfter (echoBlobs ++ echoSettled echoProof)).any (fun ran =>
      ran.2.2.state.sequencer.height = 3 ∧
        (([.advanceEpoch, .submit echoChallenge] : List NodeOp).foldl (NodeOp.perform ran.1)
          ran.2.2).state.sequencer.height = 5 ∧
        (([.advanceEpoch, .submit echoChallenge] : List NodeOp).foldl (NodeOp.perform ran.1)
          ran.2.2).poisoned = false) = true := by decide +kernel
  obtain ⟨⟨node, start, before⟩, ran, sampled⟩ := (Option.any_eq_true _ _).mp ran
  obtain ⟨opened, run⟩ := nodeAfter_eq_some ran
  obtain ⟨height, height', free⟩ := of_decide_eq_true sampled
  exact ⟨node, start, before, _, opened, run, Run.of_foldl, height, height',
    chain_immutable opened run Run.of_foldl free⟩

end Sample

end Ducp
