import Ducp.Library.Borsh
import Ducp.Library.MapSum

/-!
# The data model

Identifiers, tasks, on-ledger records, transactions and blocks, with their canonical layouts.
Hashing and signature verification belong to third-party libraries; a `Crypto` instance stands for
them.
-/

namespace Ducp

open Borsh

/-! ## Identifiers -/

/-- A BLAKE3-256 digest. -/
abbrev Hash := Bytes 32
/-- An Ed25519 public key. -/
abbrev Identity := Bytes 32
/-- An Ed25519 signature. -/
abbrev Signature := Bytes 64
/-- The hash of an off-ledger payload. -/
abbrev ContentId := Hash
/-- The hash of a canonical task body. -/
abbrev TaskId := Hash
/-- The hash of a canonical signed transaction. -/
abbrev TxId := Hash
/-- An amount in base units, a `u128`. -/
abbrev Ucu := BitVec 128
/-- Standing points, an `i128` in two's complement. -/
abbrev Sp := BitVec 128
/-- An epoch number, a `u64`. -/
abbrev Epoch := BitVec 64
/-- A benchmark version, a `u32`. -/
abbrev BenchmarkVersion := BitVec 32

/-- Identifiers of 32 bytes are the keys of the ledger maps. -/
instance Hash.transOrd : Std.TransOrd Hash := inferInstance

instance Hash.lawfulEqOrd : Std.LawfulEqOrd Hash := inferInstance

/-- The number of base units in one UCU. -/
def ucuScale : Ucu := 1000000000

/-! ## Hashing -/

/-- The primitives of the hashing and signature libraries. -/
class Crypto where
  /-- BLAKE3-256 of a byte string. -/
  hashBytes : List UInt8 → Hash
  /-- Whether the signature over the message verifies; false on a malformed key. -/
  verify : Identity → List UInt8 → Signature → Bool

/-- A computable instance for evaluation: a positional checksum, and no signature is refused. -/
@[reducible]
def Crypto.checksum : Crypto where
  hashBytes bytes :=
    ⟨littleEndian 32 (bytes.foldl (fun digest byte => digest * 257 + byte.toNat + 1) 0), by simp⟩
  verify _ _ _ := true

/-- The content address of a payload. -/
def contentId [Crypto] (payload : List UInt8) : ContentId := Crypto.hashBytes payload

/-- The hash of a canonical encoding. -/
def hashCanonical {α : Type} [Crypto] [Borsh α] (value : α) : Checked Hash := do
  let bytes ← canonicalBytes value
  return Crypto.hashBytes bytes

theorem hashCanonical_eq_ok {α : Type} [Crypto] [Borsh α] {value : α} {hash : Hash} :
    hashCanonical value = .ok hash ↔
      fits value = true ∧ Crypto.hashBytes (layout value) = hash := by
  unfold hashCanonical
  simp only [Checked.bind_eq_ok, canonicalBytes_eq_ok, Checked.pure_eq_ok]
  constructor
  · rintro ⟨_, ⟨value_fits, rfl⟩, hashed⟩
    exact ⟨value_fits, hashed⟩
  · rintro ⟨value_fits, hashed⟩
    exact ⟨_, ⟨value_fits, rfl⟩, hashed⟩

/-! ## Rejections -/

/-- Why a transaction was rejected. -/
inductive Reject
  | badSignature
  | badNonce
  | unknownAccount
  | unknownTask
  | insufficientBalance
  | badStatus
  | deadlinePassed
  | alreadyClaimed
  | wrongProvider
  | ucuExceedsLimit
  | benchmarkMismatch
  | notInClawbackWindow
  | bondTooSmall
  | unsupportedFeature
  | conservationViolated
  | invalid
  deriving DecidableEq, Repr

/-! ## Tasks -/

/-- The intermediate representation of a program. -/
inductive IrId
  | wasm
  deriving DecidableEq

/-- Declared resource caps. -/
structure Limits where
  maxUcu : Ucu
  maxMemoryBytes : BitVec 64
  deriving DecidableEq

/-- The verification tier of a task. -/
inductive VerificationTier
  | sampledReexec
  | tee
  | zk
  deriving DecidableEq

/-- What happens to a task which fails execution. -/
inductive FailurePolicy
  | autoRequeue
  | returnOnFailure
  | retryThenReturn (retries : UInt8)
  deriving DecidableEq

/-- What a requester asks for. -/
structure TaskBody where
  ir : IrId
  program : ContentId
  input : ContentId
  limits : Limits
  tier : VerificationTier
  benchmark : BenchmarkVersion
  deadline : Epoch
  failurePolicy : FailurePolicy
  nonce : BitVec 64
  deriving DecidableEq

/-! ## On-ledger records -/

/-- The lifecycle status of a task. -/
inductive TaskStatus
  | submitted
  | matched
  | executing
  | verified
  | settled
  | failed
  deriving DecidableEq, Repr

/-- The ledger's record of a submitted task. -/
structure Submission where
  task : TaskId
  requester : Identity
  ucuCount : Ucu
  fee : Ucu
  status : TaskStatus
  provider : Option Identity
  claimStake : Ucu
  deriving DecidableEq

/-- Tier-specific evidence. -/
inductive TierData
  | sampledReexec
  | tee (attestation : List UInt8)
  | zk (proof : List UInt8)
  deriving DecidableEq

/-- The strength of a power-cap attestation. -/
inductive SealGrade
  | s0Identity
  | s1Witnessed
  | s2Locked
  deriving DecidableEq

/-- Where energy was bounded. -/
inductive Boundary
  | chip
  | node
  | facility
  deriving DecidableEq

/-- A recorded efficiency in fixed-point millionths. -/
structure Quant where
  microQ : BitVec 64
  deriving DecidableEq

/-- An optional energy attestation. -/
structure PowerSeal where
  sealGrade : SealGrade
  boundary : Boundary
  powerCapMilliwatts : BitVec 64
  windowMillis : BitVec 64
  tMaxMillikelvin : BitVec 64
  attestationEvidence : ContentId
  benchmark : BenchmarkVersion
  deriving DecidableEq

/-- The provider's evidence for a settled task. -/
structure ComputeProof where
  task : TaskId
  provider : Identity
  output : ContentId
  resultHash : Hash
  ucuCount : Ucu
  benchmark : BenchmarkVersion
  tierData : TierData
  powerSeal : Option PowerSeal
  deriving DecidableEq

/-- The effect of a settlement. -/
structure Receipt where
  task : TaskId
  paidToProvider : Ucu
  workIssuance : Ucu
  validatorFee : Ucu
  standingDelta : Sp
  settledEpoch : Epoch
  clawbackUntil : Epoch
  deriving DecidableEq

/-- A spendable account. -/
structure Account where
  id : Identity
  balance : Ucu
  escrowed : Ucu
  bonded : Ucu
  deriving DecidableEq

/-- A fresh, empty account. -/
def Account.new (id : Identity) : Account :=
  { id, balance := 0, escrowed := 0, bonded := 0 }

/-- The reputation record of an identity. -/
structure StandingRecord where
  id : Identity
  sp : Sp
  lastDecayEpoch : Epoch
  strikes : BitVec 32
  deriving DecidableEq

/-- A fresh record at zero. -/
def StandingRecord.new (id : Identity) (epoch : Epoch) : StandingRecord :=
  { id, sp := 0, lastDecayEpoch := epoch, strikes := 0 }

/-- One entry of the efficiency ledger. -/
structure QLedgerEntry where
  task : TaskId
  ucu : Ucu
  q : Option Quant
  sealGrade : Option SealGrade
  boundary : Option Boundary
  benchmark : BenchmarkVersion
  deriving DecidableEq

/-- An entry without an energy attestation. -/
def QLedgerEntry.unmeasured (task : TaskId) (ucu : Ucu) (benchmark : BenchmarkVersion) :
    QLedgerEntry :=
  { task, ucu, q := none, sealGrade := none, boundary := none, benchmark }

/-! ## Transactions and blocks -/

/-- A state-changing operation. -/
inductive Tx
  | submitTask (body : TaskBody)
  | claimTask (task : TaskId)
  | submitProof (proof : ComputeProof)
  | challenge (task : TaskId) (bond : Ucu)
  | transfer (recipient : Identity) (amount : Ucu)
  deriving DecidableEq

/-- A transaction with its author, nonce and signature. -/
structure SignedTx where
  author : Identity
  tx : Tx
  nonce : BitVec 64
  sig : Signature
  deriving DecidableEq

/-- Ordered transactions and the commitment to the state after them. -/
structure Block where
  height : BitVec 64
  parent : Hash
  epoch : Epoch
  txs : List TxId
  stateRoot : Hash
  proposer : Identity
  deriving DecidableEq

/-! ## Canonical layouts -/

/-- The variant index of an intermediate representation. -/
def IrId.tag : IrId → UInt8
  | wasm => 0

instance : Borsh IrId := via IrId.tag fun left right _ => by cases left; cases right; rfl

instance : Borsh Limits :=
  via (fun limits => (limits.maxUcu, limits.maxMemoryBytes)) fun left right same => by
    cases left; cases right; simpa using same

/-- The variant index of a tier. -/
def VerificationTier.tag : VerificationTier → UInt8
  | sampledReexec => 0
  | tee => 1
  | zk => 2

instance : Borsh VerificationTier :=
  via VerificationTier.tag fun left right same => by
    cases left <;> cases right <;> simp_all [VerificationTier.tag]

instance : Borsh FailurePolicy where
  layout
    | .autoRequeue => [0]
    | .returnOnFailure => [1]
    | .retryThenReturn retries => 2 :: layout retries
  fits _ := true
  layout_cancel {left right _ _} _ _ same := by
    cases left <;> cases right <;> simp_all [layout]

instance : Borsh TaskBody :=
  via (fun body => (body.ir, body.program, body.input, body.limits, body.tier, body.benchmark,
    body.deadline, body.failurePolicy, body.nonce)) fun left right same => by
    cases left; cases right; simpa using same

/-- The variant index of a status. -/
def TaskStatus.tag : TaskStatus → UInt8
  | submitted => 0
  | matched => 1
  | executing => 2
  | verified => 3
  | settled => 4
  | failed => 5

instance : Borsh TaskStatus :=
  via TaskStatus.tag fun left right same => by
    cases left <;> cases right <;> simp_all [TaskStatus.tag]

instance : Borsh Submission :=
  via (fun sub => (sub.task, sub.requester, sub.ucuCount, sub.fee, sub.status, sub.provider,
    sub.claimStake)) fun left right same => by
    cases left; cases right; simpa using same

instance : Borsh TierData where
  layout
    | .sampledReexec => [0]
    | .tee attestation => 1 :: layout attestation
    | .zk proof => 2 :: layout proof
  fits
    | .sampledReexec => true
    | .tee attestation => fits attestation
    | .zk proof => fits proof
  layout_cancel {left right _ _} left_fits right_fits same := by
    cases left <;> cases right <;>
      simp only [List.cons_append, List.nil_append, List.cons.injEq] at same
    any_goals (have mismatch := same.1; contradiction)
    case sampledReexec.sampledReexec => exact ⟨rfl, same.2⟩
    case tee.tee =>
      obtain ⟨rfl, rests⟩ := layout_cancel left_fits right_fits same.2
      exact ⟨rfl, rests⟩
    case zk.zk =>
      obtain ⟨rfl, rests⟩ := layout_cancel left_fits right_fits same.2
      exact ⟨rfl, rests⟩

/-- The variant index of a seal grade. -/
def SealGrade.tag : SealGrade → UInt8
  | s0Identity => 0
  | s1Witnessed => 1
  | s2Locked => 2

instance : Borsh SealGrade :=
  via SealGrade.tag fun left right same => by
    cases left <;> cases right <;> simp_all [SealGrade.tag]

/-- The variant index of a boundary. -/
def Boundary.tag : Boundary → UInt8
  | chip => 0
  | node => 1
  | facility => 2

instance : Borsh Boundary :=
  via Boundary.tag fun left right same => by
    cases left <;> cases right <;> simp_all [Boundary.tag]

instance : Borsh Quant :=
  via Quant.microQ fun left right same => by cases left; cases right; simpa using same

instance : Borsh PowerSeal :=
  via (fun powerSeal => (powerSeal.sealGrade, powerSeal.boundary, powerSeal.powerCapMilliwatts,
    powerSeal.windowMillis, powerSeal.tMaxMillikelvin, powerSeal.attestationEvidence,
    powerSeal.benchmark)) fun left right same => by
    cases left; cases right; simpa using same

instance : Borsh ComputeProof :=
  via (fun proof => (proof.task, proof.provider, proof.output, proof.resultHash, proof.ucuCount,
    proof.benchmark, proof.tierData, proof.powerSeal)) fun left right same => by
    cases left; cases right; simpa using same

instance : Borsh Receipt :=
  via (fun receipt => (receipt.task, receipt.paidToProvider, receipt.workIssuance,
    receipt.validatorFee, receipt.standingDelta, receipt.settledEpoch, receipt.clawbackUntil))
    fun left right same => by cases left; cases right; simpa using same

instance : Borsh Account :=
  via (fun account => (account.id, account.balance, account.escrowed, account.bonded))
    fun left right same => by cases left; cases right; simpa using same

instance : Borsh StandingRecord :=
  via (fun record => (record.id, record.sp, record.lastDecayEpoch, record.strikes))
    fun left right same => by cases left; cases right; simpa using same

instance : Borsh QLedgerEntry :=
  via (fun entry => (entry.task, entry.ucu, entry.q, entry.sealGrade, entry.boundary,
    entry.benchmark)) fun left right same => by
    cases left; cases right; simpa using same

instance : Borsh Tx where
  layout
    | .submitTask body => 0 :: layout body
    | .claimTask task => 1 :: layout task
    | .submitProof proof => 2 :: layout proof
    | .challenge task bond => 3 :: layout (task, bond)
    | .transfer recipient amount => 4 :: layout (recipient, amount)
  fits
    | .submitProof proof => fits proof
    | _ => true
  layout_cancel {left right _ _} left_fits right_fits same := by
    cases left <;> cases right <;> simp only [List.cons_append, List.cons.injEq] at same
    any_goals (have mismatch := same.1; contradiction)
    case submitTask.submitTask =>
      obtain ⟨rfl, rests⟩ := layout_cancel rfl rfl same.2
      exact ⟨rfl, rests⟩
    case claimTask.claimTask =>
      obtain ⟨rfl, rests⟩ := layout_cancel rfl rfl same.2
      exact ⟨rfl, rests⟩
    case submitProof.submitProof =>
      obtain ⟨rfl, rests⟩ := layout_cancel left_fits right_fits same.2
      exact ⟨rfl, rests⟩
    case challenge.challenge =>
      obtain ⟨pairs, rests⟩ := layout_cancel rfl rfl same.2
      obtain ⟨rfl, rfl⟩ := Prod.mk.inj pairs
      exact ⟨rfl, rests⟩
    case transfer.transfer =>
      obtain ⟨pairs, rests⟩ := layout_cancel rfl rfl same.2
      obtain ⟨rfl, rfl⟩ := Prod.mk.inj pairs
      exact ⟨rfl, rests⟩

instance : Borsh SignedTx :=
  via (fun stx => (stx.author, stx.tx, stx.nonce, stx.sig)) fun left right same => by
    cases left; cases right; simpa using same

instance : Borsh Block :=
  via (fun block => (block.height, block.parent, block.epoch, block.txs, block.stateRoot,
    block.proposer)) fun left right same => by
    cases left; cases right; simpa using same

/-! ## Derived identifiers and signatures -/

section Derived

variable [Crypto]

/-- The identifier of a task. -/
def TaskBody.taskId (body : TaskBody) : Checked TaskId := hashCanonical body

/-- The bytes a signature is computed over. -/
def SignedTx.signingPayload (author : Identity) (tx : Tx) (nonce : BitVec 64) :
    Checked (List UInt8) := do
  let bytes ← canonicalBytes tx
  return author.toList ++ bytes ++ littleEndian 8 nonce.toNat

/-- Whether the signature binds the author to the transaction and the nonce. -/
def SignedTx.verifySig (stx : SignedTx) : Checked Bool := do
  let payload ← SignedTx.signingPayload stx.author stx.tx stx.nonce
  return Crypto.verify stx.author payload stx.sig

/-- The identifier of a signed transaction. -/
def SignedTx.txId (stx : SignedTx) : Checked TxId := hashCanonical stx

/-- The identity of a block. -/
def Block.blockHash (block : Block) : Checked Hash := hashCanonical block

end Derived

end Ducp
