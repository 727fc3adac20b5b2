import Ducp.Consensus
import Ducp.Library.Lock
import Ducp.Verification

/-!
# The node

The node wires the ledger, the sequencer, the verifier and a blob store behind one lock.  Every
method is a computation over the guarded state; the resolution of a challenge enters the lock
twice, and re-executes in between.
-/

namespace Ducp

open Outcome Std

variable [Crypto]

/-- What the lock guards, with the snapshot which the storage keeps of it. -/
structure NodeInner where
  state : State
  sequencer : SingleSequencer
  mempool : List SignedTx
  blobs : ExtTreeMap ContentId (List UInt8)
  blocks : List Block
  blockTxs : List (List SignedTx)
  storage : Option State

/-- The immutable configuration of a node. -/
structure NodeHandle where
  params : Params
  benchmark : Benchmark

/-- What a re-execution reads: the body, the proof, and the two blobs. -/
structure Evidence where
  body : TaskBody
  proof : ComputeProof
  program : Option (List UInt8)
  input : Option (List UInt8)

/-- Why an estimate is not made. -/
inductive EstimateError
  | missingProgram
  | missingInput

namespace NodeInner

/-- Adopt a block: the head, the state after it, the block with its transactions, the snapshot. -/
def append (inner : NodeInner) (block : Block) (txs : List SignedTx) (state : State) :
    Checked NodeInner := do
  let sequencer ← inner.sequencer.adopt block
  return { inner with
    sequencer
    state
    blocks := inner.blocks ++ [block]
    blockTxs := inner.blockTxs ++ [txs]
    storage := some state }

/-- The body and the proof of a task, and the blobs the body names. -/
def gather (task : TaskId) (inner : NodeInner) : Except Reject Evidence :=
  match inner.state.bodies[task]? with
  | none => .error .unknownTask
  | some body =>
      match inner.state.proofs[task]? with
      | none => .error .unknownTask
      | some proof => .ok {
          body
          proof
          program := inner.blobs[body.program]?
          input := inner.blobs[body.input]? }

/-- Store a payload under its content address. -/
def putBlob (bytes : List UInt8) (inner : NodeInner) : NodeInner :=
  { inner with blobs := inner.blobs.insert (contentId bytes) bytes }

end NodeInner

namespace NodeHandle

/-- A node over its genesis. -/
def new [Runtime] (proposer : Identity) (allocations : List (Identity × Ucu)) :
    Checked (NodeHandle × Lock NodeInner) := do
  let benchmark ← Benchmark.devnet
  let state ← State.genesis allocations 0
  return ({ params := .devnet, benchmark }, .new {
    state
    sequencer := .new proposer
    mempool := []
    blobs := ∅
    blocks := []
    blockTxs := []
    storage := some state })

variable (node : NodeHandle)

/-! ## Critical sections -/

/-- The result of a transaction in the outcomes of a proposal. -/
def resultOf (txId : TxId) (results : List TxResult) : Except Reject TxId :=
  match results.find? (·.txId = txId) with
  | some result => if result.accepted then .ok txId else .error (result.reject.getD .invalid)
  | none => .error .invalid

/-- Admit a transaction and produce a block, which is adopted unless it is empty. -/
def produceWith (stx : SignedTx) (txId : TxId) (inner : NodeInner) :
    Checked (Except Reject TxId × NodeInner) := do
  let mempool := inner.mempool ++ [stx]
  let inner := { inner with mempool := [] }
  let proposal ← inner.sequencer.produce mempool inner.state node.params
  let outcome := resultOf txId proposal.results
  if proposal.block.txs = [] then
    return (outcome, inner)
  else
    return (outcome, ← inner.append proposal.block proposal.txs proposal.state)

/-- Apply a verdict and seal it. -/
def applyVerdict (task : TaskId) (fraud : Bool) (inner : NodeInner) : Checked NodeInner := do
  let resolved ← inner.state.resolveChallenge task fraud node.params
  let block ← inner.sequencer.sealBlock resolved
  inner.append block [] resolved

/-- Cross an epoch boundary and seal it. -/
def crossEpoch (inner : NodeInner) : Checked NodeInner := do
  let (sequencer, newState) ← inner.sequencer.advanceEpoch inner.state node.params
  let inner := { inner with sequencer }
  let block ← inner.sequencer.sealBlock newState
  inner.append block [] newState

/-! ## Methods -/

/-- Admit a signed transaction and produce a block immediately. -/
def submit (stx : SignedTx) : Guarded NodeInner Reject TxId := do
  let txId ← (liftM stx.txId : Outcome Reject TxId)
  Guarded.locked (node.produceWith stx txId)

/-- Re-execute the proof of a task and apply the verdict. -/
def resolvePendingChallenge [Runtime] (task : TaskId) : Guarded NodeInner Reject Bool := do
  let evidence ← Guarded.read (NodeInner.gather task)
  let program ← (okOr evidence.program .unknownTask : Outcome Reject (List UInt8))
  let input ← (okOr evidence.input .unknownTask : Outcome Reject (List UInt8))
  let outcome ← (liftM (SampledReexecVerifier.check evidence.proof program input
    evidence.body.limits node.benchmark) : Outcome Reject VerifyOutcome)
  let fraud := outcome.isFraud
  Guarded.update (node.applyVerdict task fraud)
  return fraud

/-- Cross an epoch boundary. -/
def advanceEpoch : Guarded NodeInner Reject PUnit := Guarded.update node.crossEpoch

/-- Store a payload and return its content address. -/
def putBlob (bytes : List UInt8) : Guarded NodeInner Reject ContentId := do
  Guarded.update fun inner => return inner.putBlob bytes
  return contentId bytes

/-- Meter a pair of payloads. -/
def estimate [Runtime] (program input : ContentId) : Guarded NodeInner EstimateError Ucu := do
  let (prog, inp) ← Guarded.read fun inner => .ok (inner.blobs[program]?, inner.blobs[input]?)
  let prog ← (okOr prog .missingProgram : Outcome EstimateError (List UInt8))
  let inp ← (okOr inp .missingInput : Outcome EstimateError (List UInt8))
  (liftM (WasmtimeDvm.meter prog inp node.benchmark) : Outcome EstimateError Ucu)

end NodeHandle

/-! ## Runs of a node -/

/-- One call of a state-changing method. -/
inductive NodeOp
  | submit (stx : SignedTx)
  | resolvePendingChallenge (task : TaskId)
  | advanceEpoch
  | putBlob (bytes : List UInt8)

/-- The node after a call, however the call ends. -/
def NodeOp.perform [Runtime] (node : NodeHandle) (lock : Lock NodeInner) : NodeOp → Lock NodeInner
  | .submit stx => (node.submit stx lock).2
  | .resolvePendingChallenge task => (node.resolvePendingChallenge task lock).2
  | .advanceEpoch => (node.advanceEpoch lock).2
  | .putBlob bytes => (NodeHandle.putBlob bytes lock).2

/-- One call of a node. -/
def NodeOp.Performs [Runtime] (node : NodeHandle) (before : Lock NodeInner) (op : NodeOp)
    (after : Lock NodeInner) : Prop := op.perform node before = after

end Ducp
