import Ducp.Library.Decimal
import Ducp.Library.Serde
import Ducp.Types

/-!
# The wire form

Requests and answers carry values as trees: byte strings as hexadecimal texts, amounts of 128 bits
as decimal texts, the names of fields and variants as they are declared.  The hexadecimal codec
belongs to a third-party library; a `Hex` instance stands for it.
-/

namespace Ducp

open Serde Codec Fields

/-! ## Hexadecimal texts -/

/-- The primitives of the hexadecimal codec; a decoding error is given by its text. -/
class Hex where
  /-- The text of a byte string. -/
  encode : List UInt8 → String
  /-- The byte string of a text. -/
  decode : String → Except String (List UInt8)

/-- A computable instance for evaluation, with lower-case digits. -/
@[reducible]
def Hex.lower : Hex where
  encode bytes := String.ofList
    (bytes.flatMap fun byte => [(byte.toNat / 16).digitChar, (byte.toNat % 16).digitChar])
  decode text :=
    let digit (character : Char) : Option ℕ :=
      (List.range 16).find? fun value => value.digitChar = character.toLower
    let rec bytes : List Char → Option (List UInt8)
      | high :: low :: rest => do
          return UInt8.ofNat ((← digit high) * 16 + (← digit low)) :: (← bytes rest)
      | _ => some []
    if text.length % 2 = 1 then .error "Odd number of digits"
    else (bytes text.toList).elim (.error "Invalid character") .ok

/-- The digits of a hexadecimal text. -/
def hexDigits : List Char := "0123456789abcdef".toList

/-- What an encoder and its decoder promise: a byte string is encoded in lower-case digits, and is
decoded from them. -/
structure Hex.Lawful [Hex] : Prop where
  digits : ∀ bytes, ∀ digit ∈ (Hex.encode bytes).toList, digit ∈ hexDigits
  decode_encode : ∀ bytes, Hex.decode (Hex.encode bytes) = .ok bytes

/-- What an encoder promises of lengths: a byte takes two digits. -/
def Hex.Paired [Hex] : Prop := ∀ bytes, (Hex.encode bytes).toList.length = 2 * bytes.length

namespace Hex

/-- A digit reads as its value. -/
theorem lower_digit {value : ℕ} (small : value < 16) :
    value.digitChar ∈ hexDigits ∧
      (List.range 16).find? (fun found => found.digitChar = value.digitChar.toLower) =
        some value := by
  have all : ∀ value ∈ List.range 16, value.digitChar ∈ hexDigits ∧
      (List.range 16).find? (fun found => found.digitChar = value.digitChar.toLower) =
        some value := by decide
  exact all value (List.mem_range.mpr small)

theorem lower_bytes (bytes : List UInt8) :
    lower.bytes (fun character =>
        (List.range 16).find? fun value => value.digitChar = character.toLower)
      (bytes.flatMap fun byte => [(byte.toNat / 16).digitChar, (byte.toNat % 16).digitChar]) =
        some bytes := by
  induction bytes with
  | nil => rfl
  | cons byte rest ih =>
      have high := (lower_digit (show byte.toNat / 16 < 16 by have := byte.toNat_lt; omega)).2
      have low := (lower_digit (show byte.toNat % 16 < 16 by omega)).2
      have joined : UInt8.ofNat (byte.toNat / 16 * 16 + byte.toNat % 16) = byte := by
        rw [Nat.div_add_mod']
        exact UInt8.ofNat_toNat
      simp only [List.flatMap_cons, List.cons_append, List.nil_append, lower.bytes, high, low, ih,
        Option.bind_eq_bind, Option.bind_some, Option.pure_def, joined]

section Sample

attribute [local instance] lower

theorem toList_lower_encode (bytes : List UInt8) : (encode bytes).toList =
    bytes.flatMap fun byte => [(byte.toNat / 16).digitChar, (byte.toNat % 16).digitChar] :=
  String.toList_ofList

/-- The computable instance keeps the promise. -/
theorem lower_lawful : Hex.Lawful where
  digits bytes digit member := by
    simp only [toList_lower_encode, List.mem_flatMap, List.mem_cons, List.not_mem_nil,
      or_false] at member
    obtain ⟨byte, _, rfl | rfl⟩ := member
    · exact (lower_digit (by have := byte.toNat_lt; omega)).1
    · exact (lower_digit (by omega)).1
  decode_encode bytes := by
    have even : ¬(encode bytes).length % 2 = 1 := by
      rw [← String.length_toList, toList_lower_encode, List.length_flatMap]
      simp
    simp only [decode, even, if_false, toList_lower_encode, lower_bytes]
    rfl

theorem lower_paired : Hex.Paired := fun bytes => by
  rw [toList_lower_encode, List.length_flatMap]
  simp [Nat.mul_comm]

end Sample

end Hex

namespace Wire

variable [Hex]

/-- A text without its prefix. -/
def stripPrefix (text : String) : String :=
  match text.toList with
  | '0' :: 'x' :: rest => String.ofList rest
  | _ => text

/-- An array of bytes from a hexadecimal text. -/
def fromHex (size : ℕ) (text : String) : Except String (Bytes size) := do
  let bytes ← Hex.decode (stripPrefix text)
  if full : bytes.length = size then return ⟨bytes, full⟩
  else throw ("expected " ++ toString size ++ " bytes")

/-- An array of 32 bytes. -/
def bytes32 : Codec (Bytes 32) := .text (fun array => Hex.encode array.toList) (fromHex 32)

/-- An array of 64 bytes. -/
def bytes64 : Codec (Bytes 64) := .text (fun array => Hex.encode array.toList) (fromHex 64)

/-- An optional array of 32 bytes. -/
def optBytes32 : Codec (Option (Bytes 32)) := bytes32.option

/-- A sequence of arrays of 32 bytes. -/
def vecBytes32 : Codec (List (Bytes 32)) := bytes32.list

/-- A byte string. -/
def bytesVec : Codec (List UInt8) := .text Hex.encode fun text => Hex.decode (stripPrefix text)

/-- An unsigned amount. -/
def decU128 : Codec (BitVec 128) := .text Decimal.ofUnsigned (Decimal.toUnsigned 128)

/-- A signed amount. -/
def decI128 : Codec (BitVec 128) := .text Decimal.ofSigned (Decimal.toSigned 128)

/-! ### Round trips -/

/-- A digit is no prefix character, so that an encoded text keeps its front. -/
theorem stripPrefix_encode (lawful : Hex.Lawful) (bytes : List UInt8) :
    stripPrefix (Hex.encode bytes) = Hex.encode bytes := by
  have digits := lawful.digits bytes
  unfold stripPrefix
  split
  · rename_i rest characters
    have digit : 'x' ∈ hexDigits := digits 'x' (by simp [characters])
    exact absurd digit (by decide)
  · rfl

omit [Hex] in
/-- The prefix of a text is optional. -/
theorem stripPrefix_prefixed (text : String) : stripPrefix ("0x" ++ text) = text := by
  have characters : ("0x" ++ text).toList = '0' :: 'x' :: text.toList := by
    rw [String.toList_append]
    rfl
  rw [stripPrefix, characters]
  exact String.ofList_toList

theorem fromHex_encode (lawful : Hex.Lawful) {size : ℕ} (array : Bytes size) :
    fromHex size (Hex.encode array.toList) = .ok array := by
  rw [fromHex, stripPrefix_encode lawful, lawful.decode_encode]
  exact dif_pos array.length_toList

/-- An array is read from its text with the prefix as well. -/
theorem fromHex_prefixed (lawful : Hex.Lawful) {size : ℕ} (array : Bytes size) :
    fromHex size ("0x" ++ Hex.encode array.toList) = .ok array := by
  rw [fromHex, stripPrefix_prefixed, lawful.decode_encode]
  exact dif_pos array.length_toList

theorem bytes32_faithful (lawful : Hex.Lawful) : bytes32.Faithful :=
  text_faithful (fromHex_encode lawful)

theorem bytes64_faithful (lawful : Hex.Lawful) : bytes64.Faithful :=
  text_faithful (fromHex_encode lawful)

theorem optBytes32_faithful (lawful : Hex.Lawful) : optBytes32.Faithful :=
  option_faithful (bytes32_faithful lawful) fun _ => nofun

theorem vecBytes32_faithful (lawful : Hex.Lawful) : vecBytes32.Faithful :=
  list_faithful (bytes32_faithful lawful)

theorem bytesVec_faithful (lawful : Hex.Lawful) : bytesVec.Faithful :=
  text_faithful fun bytes => by rw [stripPrefix_encode lawful, lawful.decode_encode]

omit [Hex] in
theorem decU128_faithful : decU128.Faithful := text_faithful Decimal.toUnsigned_ofUnsigned

omit [Hex] in
theorem decI128_faithful : decI128.Faithful := text_faithful Decimal.toSigned_ofSigned

end Wire

/-! ## Tasks -/

/-- The names of the representations. -/
def IrId.wire : Codec IrId := .units [.wasm] fun
  | .wasm => "wasm"

theorem IrId.wire_faithful : IrId.wire.Faithful :=
  units_faithful (fun ir => by cases ir; simp) fun left right _ => by cases left; cases right; rfl

/-- Declared resource caps. -/
def Limits.wire : Codec Limits :=
  (record (.both (.one "max_ucu" Wire.decU128) (.one "max_memory_bytes" (.unsigned 64)))).via
    (fun limits => (limits.maxUcu, limits.maxMemoryBytes))
    fun (maxUcu, maxMemoryBytes) => { maxUcu, maxMemoryBytes }

theorem Limits.wire_faithful : Limits.wire.Faithful :=
  via_faithful (record_faithful (both_lawful (one_lawful Wire.decU128_faithful)
    (one_lawful unsigned_faithful)) (by simp)) fun _ => rfl

/-- The names of the tiers. -/
def VerificationTier.wire : Codec VerificationTier :=
  .units [.sampledReexec, .tee, .zk] fun
    | .sampledReexec => "sampled_reexec"
    | .tee => "tee"
    | .zk => "zk"

theorem VerificationTier.wire_faithful : VerificationTier.wire.Faithful :=
  units_faithful (fun tier => by cases tier <;> simp) fun left right same => by
    cases left <;> cases right <;> simp_all

/-- A byte, as a number. -/
def Wire.u8 : Codec UInt8 := (unsigned 8).via UInt8.toBitVec UInt8.ofBitVec

theorem Wire.u8_faithful : Wire.u8.Faithful := via_faithful unsigned_faithful fun _ => rfl

/-- The content of a retrying policy. -/
def FailurePolicy.retryThenReturnWire : Codec UInt8 := record (.one "retries" Wire.u8)

/-- A policy, by its name. -/
def FailurePolicy.wire : Codec FailurePolicy where
  serialize
    | .autoRequeue => .str "auto_requeue"
    | .returnOnFailure => .str "return_on_failure"
    | .retryThenReturn retries =>
        .obj [("retry_then_return", retryThenReturnWire.serialize retries)]
  deserialize json := do
    match ← tagged json with
    | ("auto_requeue", content) => bare .autoRequeue content
    | ("return_on_failure", content) => bare .returnOnFailure content
    | ("retry_then_return", content) =>
        carrying retryThenReturnWire FailurePolicy.retryThenReturn content
    | (name, _) => throw (.unknownVariant name)

theorem FailurePolicy.wire_faithful : FailurePolicy.wire.Faithful := by
  have retries_faithful : retryThenReturnWire.Faithful :=
    record_faithful (one_lawful Wire.u8_faithful) (by simp)
  intro policy
  cases policy with
  | autoRequeue => simp [FailurePolicy.wire, tagged, bare, bind, Except.bind]
  | returnOnFailure => simp [FailurePolicy.wire, tagged, bare, bind, Except.bind]
  | retryThenReturn retries =>
      simp [FailurePolicy.wire, tagged, bind, Except.bind, carrying_faithful retries_faithful]

section Records

variable [Hex]

/-- What a requester asks for. -/
def TaskBody.wire : Codec TaskBody :=
  (record <| .both (.one "ir" IrId.wire) <| .both (.one "program" Wire.bytes32) <|
    .both (.one "input" Wire.bytes32) <| .both (.one "limits" Limits.wire) <|
    .both (.one "tier" VerificationTier.wire) <| .both (.one "benchmark" (.unsigned 32)) <|
    .both (.one "deadline" (.unsigned 64)) <| .both (.one "failure_policy" FailurePolicy.wire) <|
    .one "nonce" (.unsigned 64)).via
    (fun body => (body.ir, body.program, body.input, body.limits, body.tier, body.benchmark,
      body.deadline, body.failurePolicy, body.nonce))
    fun (ir, program, input, limits, tier, benchmark, deadline, failurePolicy, nonce) =>
      { ir, program, input, limits, tier, benchmark, deadline, failurePolicy, nonce }

theorem TaskBody.wire_faithful (lawful : Hex.Lawful) : TaskBody.wire.Faithful := by
  have hash_faithful := Wire.bytes32_faithful lawful
  refine via_faithful (record_faithful ?_ (by simp)) fun _ => rfl
  exact both_lawful (one_lawful IrId.wire_faithful) <| both_lawful (one_lawful hash_faithful) <|
    both_lawful (one_lawful hash_faithful) <| both_lawful (one_lawful Limits.wire_faithful) <|
    both_lawful (one_lawful VerificationTier.wire_faithful) <|
    both_lawful (one_lawful unsigned_faithful) <| both_lawful (one_lawful unsigned_faithful) <|
    both_lawful (one_lawful FailurePolicy.wire_faithful) (one_lawful unsigned_faithful)

/-! ## On-ledger records -/

/-- The names of the statuses. -/
def TaskStatus.wire : Codec TaskStatus :=
  .units [.submitted, .matched, .executing, .verified, .settled, .failed] fun
    | .submitted => "submitted"
    | .matched => "matched"
    | .executing => "executing"
    | .verified => "verified"
    | .settled => "settled"
    | .failed => "failed"

omit [Hex] in
theorem TaskStatus.wire_faithful : TaskStatus.wire.Faithful :=
  units_faithful (fun status => by cases status <;> simp) fun left right same => by
    cases left <;> cases right <;> simp_all

/-- The ledger's record of a submitted task. -/
def Submission.wire : Codec Submission :=
  (record <| .both (.one "task" Wire.bytes32) <| .both (.one "requester" Wire.bytes32) <|
    .both (.one "ucu_count" Wire.decU128) <| .both (.one "fee" Wire.decU128) <|
    .both (.one "status" TaskStatus.wire) <| .both (.one "provider" Wire.optBytes32) <|
    .one "claim_stake" Wire.decU128).via
    (fun sub => (sub.task, sub.requester, sub.ucuCount, sub.fee, sub.status, sub.provider,
      sub.claimStake))
    fun (task, requester, ucuCount, fee, status, provider, claimStake) =>
      { task, requester, ucuCount, fee, status, provider, claimStake }

theorem Submission.wire_faithful (lawful : Hex.Lawful) : Submission.wire.Faithful := by
  have hash_faithful := Wire.bytes32_faithful lawful
  refine via_faithful (record_faithful ?_ (by simp)) fun _ => rfl
  exact both_lawful (one_lawful hash_faithful) <| both_lawful (one_lawful hash_faithful) <|
    both_lawful (one_lawful Wire.decU128_faithful) <|
    both_lawful (one_lawful Wire.decU128_faithful) <|
    both_lawful (one_lawful TaskStatus.wire_faithful) <|
    both_lawful (one_lawful (Wire.optBytes32_faithful lawful)) (one_lawful Wire.decU128_faithful)

/-- The content of the evidence of an enclave. -/
def TierData.teeWire : Codec (List UInt8) := record (.one "attestation" Wire.bytesVec)

/-- The content of a zero-knowledge proof. -/
def TierData.zkWire : Codec (List UInt8) := record (.one "proof" Wire.bytesVec)

/-- Tier-specific evidence, by the name of its tier. -/
def TierData.wire : Codec TierData where
  serialize
    | .sampledReexec => .str "sampled_reexec"
    | .tee attestation => .obj [("tee", teeWire.serialize attestation)]
    | .zk proof => .obj [("zk", zkWire.serialize proof)]
  deserialize json := do
    match ← tagged json with
    | ("sampled_reexec", content) => bare .sampledReexec content
    | ("tee", content) => carrying teeWire TierData.tee content
    | ("zk", content) => carrying zkWire TierData.zk content
    | (name, _) => throw (.unknownVariant name)

theorem TierData.wire_faithful (lawful : Hex.Lawful) : TierData.wire.Faithful := by
  have bytes_faithful := Wire.bytesVec_faithful lawful
  have tee_faithful : teeWire.Faithful :=
    record_faithful (one_lawful bytes_faithful) (by simp)
  have zk_faithful : zkWire.Faithful := record_faithful (one_lawful bytes_faithful) (by simp)
  intro data
  cases data with
  | sampledReexec => simp [TierData.wire, tagged, bare, bind, Except.bind]
  | tee attestation =>
      simp [TierData.wire, tagged, bind, Except.bind, carrying_faithful tee_faithful]
  | zk proof => simp [TierData.wire, tagged, bind, Except.bind, carrying_faithful zk_faithful]

/-- The names of the seal grades. -/
def SealGrade.wire : Codec SealGrade :=
  .units [.s0Identity, .s1Witnessed, .s2Locked] fun
    | .s0Identity => "S0"
    | .s1Witnessed => "S1"
    | .s2Locked => "S2"

omit [Hex] in
theorem SealGrade.wire_faithful : SealGrade.wire.Faithful :=
  units_faithful (fun grade => by cases grade <;> simp) fun left right same => by
    cases left <;> cases right <;> simp_all

/-- The names of the boundaries. -/
def Boundary.wire : Codec Boundary :=
  .units [.chip, .node, .facility] fun
    | .chip => "chip"
    | .node => "node"
    | .facility => "facility"

omit [Hex] in
theorem Boundary.wire_faithful : Boundary.wire.Faithful :=
  units_faithful (fun boundary => by cases boundary <;> simp) fun left right same => by
    cases left <;> cases right <;> simp_all

/-- A recorded efficiency. -/
def Quant.wire : Codec Quant :=
  (record (.one "micro_q" (.unsigned 64))).via Quant.microQ fun microQ => { microQ }

omit [Hex] in
theorem Quant.wire_faithful : Quant.wire.Faithful :=
  via_faithful (record_faithful (one_lawful unsigned_faithful) (by simp)) fun _ => rfl

/-- An energy attestation. -/
def PowerSeal.wire : Codec PowerSeal :=
  (record <| .both (.one "seal_grade" SealGrade.wire) <| .both (.one "boundary" Boundary.wire) <|
    .both (.one "power_cap_milliwatts" (.unsigned 64)) <|
    .both (.one "window_millis" (.unsigned 64)) <|
    .both (.one "t_max_millikelvin" (.unsigned 64)) <|
    .both (.one "attestation_evidence" Wire.bytes32) <| .one "benchmark" (.unsigned 32)).via
    (fun powerSeal => (powerSeal.sealGrade, powerSeal.boundary, powerSeal.powerCapMilliwatts,
      powerSeal.windowMillis, powerSeal.tMaxMillikelvin, powerSeal.attestationEvidence,
      powerSeal.benchmark))
    fun (sealGrade, boundary, powerCapMilliwatts, windowMillis, tMaxMillikelvin,
        attestationEvidence, benchmark) =>
      { sealGrade, boundary, powerCapMilliwatts, windowMillis, tMaxMillikelvin,
        attestationEvidence, benchmark }

theorem PowerSeal.wire_faithful (lawful : Hex.Lawful) : PowerSeal.wire.Faithful := by
  refine via_faithful (record_faithful ?_ (by simp)) fun _ => rfl
  exact both_lawful (one_lawful SealGrade.wire_faithful) <|
    both_lawful (one_lawful Boundary.wire_faithful) <|
    both_lawful (one_lawful unsigned_faithful) <| both_lawful (one_lawful unsigned_faithful) <|
    both_lawful (one_lawful unsigned_faithful) <|
    both_lawful (one_lawful (Wire.bytes32_faithful lawful)) (one_lawful unsigned_faithful)

/-- The provider's evidence for a settled task. -/
def ComputeProof.wire : Codec ComputeProof :=
  (record <| .both (.one "task" Wire.bytes32) <| .both (.one "provider" Wire.bytes32) <|
    .both (.one "output" Wire.bytes32) <| .both (.one "result_hash" Wire.bytes32) <|
    .both (.one "ucu_count" Wire.decU128) <| .both (.one "benchmark" (.unsigned 32)) <|
    .both (.one "tier_data" TierData.wire) <| .optional "power_seal" PowerSeal.wire).via
    (fun proof => (proof.task, proof.provider, proof.output, proof.resultHash, proof.ucuCount,
      proof.benchmark, proof.tierData, proof.powerSeal))
    fun (task, provider, output, resultHash, ucuCount, benchmark, tierData, powerSeal) =>
      { task, provider, output, resultHash, ucuCount, benchmark, tierData, powerSeal }

theorem ComputeProof.wire_faithful (lawful : Hex.Lawful) : ComputeProof.wire.Faithful := by
  have hash_faithful := Wire.bytes32_faithful lawful
  refine via_faithful (record_faithful ?_ (by simp)) fun _ => rfl
  exact both_lawful (one_lawful hash_faithful) <| both_lawful (one_lawful hash_faithful) <|
    both_lawful (one_lawful hash_faithful) <| both_lawful (one_lawful hash_faithful) <|
    both_lawful (one_lawful Wire.decU128_faithful) <| both_lawful (one_lawful unsigned_faithful) <|
    both_lawful (one_lawful (TierData.wire_faithful lawful))
      (optional_lawful (PowerSeal.wire_faithful lawful) fun _ => record_present _)

/-- The effect of a settlement. -/
def Receipt.wire : Codec Receipt :=
  (record <| .both (.one "task" Wire.bytes32) <| .both (.one "paid_to_provider" Wire.decU128) <|
    .both (.one "work_issuance" Wire.decU128) <| .both (.one "validator_fee" Wire.decU128) <|
    .both (.one "standing_delta" Wire.decI128) <| .both (.one "settled_epoch" (.unsigned 64)) <|
    .one "clawback_until" (.unsigned 64)).via
    (fun receipt => (receipt.task, receipt.paidToProvider, receipt.workIssuance,
      receipt.validatorFee, receipt.standingDelta, receipt.settledEpoch, receipt.clawbackUntil))
    fun (task, paidToProvider, workIssuance, validatorFee, standingDelta, settledEpoch,
        clawbackUntil) =>
      { task, paidToProvider, workIssuance, validatorFee, standingDelta, settledEpoch,
        clawbackUntil }

theorem Receipt.wire_faithful (lawful : Hex.Lawful) : Receipt.wire.Faithful := by
  refine via_faithful (record_faithful ?_ (by simp)) fun _ => rfl
  exact both_lawful (one_lawful (Wire.bytes32_faithful lawful)) <|
    both_lawful (one_lawful Wire.decU128_faithful) <|
    both_lawful (one_lawful Wire.decU128_faithful) <|
    both_lawful (one_lawful Wire.decU128_faithful) <|
    both_lawful (one_lawful Wire.decI128_faithful) <|
    both_lawful (one_lawful unsigned_faithful) (one_lawful unsigned_faithful)

/-- One entry of the efficiency ledger. -/
def QLedgerEntry.wire : Codec QLedgerEntry :=
  (record <| .both (.one "task" Wire.bytes32) <| .both (.one "ucu" Wire.decU128) <|
    .both (.optional "q" Quant.wire) <| .both (.optional "seal_grade" SealGrade.wire) <|
    .both (.optional "boundary" Boundary.wire) <| .one "benchmark" (.unsigned 32)).via
    (fun entry => (entry.task, entry.ucu, entry.q, entry.sealGrade, entry.boundary,
      entry.benchmark))
    fun (task, ucu, q, sealGrade, boundary, benchmark) =>
      { task, ucu, q, sealGrade, boundary, benchmark }

theorem QLedgerEntry.wire_faithful (lawful : Hex.Lawful) : QLedgerEntry.wire.Faithful := by
  refine via_faithful (record_faithful ?_ (by simp)) fun _ => rfl
  exact both_lawful (one_lawful (Wire.bytes32_faithful lawful)) <|
    both_lawful (one_lawful Wire.decU128_faithful) <|
    both_lawful (optional_lawful Quant.wire_faithful fun _ => record_present _) <|
    both_lawful (optional_lawful SealGrade.wire_faithful units_present) <|
    both_lawful (optional_lawful Boundary.wire_faithful units_present)
      (one_lawful unsigned_faithful)

/-! ## Transactions and blocks -/

/-- The content of a claim. -/
def Tx.claimTaskWire : Codec TaskId := record (.one "task" Wire.bytes32)

/-- The content of a challenge. -/
def Tx.challengeWire : Codec (TaskId × Ucu) :=
  record (.both (.one "task" Wire.bytes32) (.one "bond" Wire.decU128))

/-- The content of a transfer. -/
def Tx.transferWire : Codec (Identity × Ucu) :=
  record (.both (.one "to" Wire.bytes32) (.one "amount" Wire.decU128))

/-- A state-changing operation, by its name. -/
def Tx.wire : Codec Tx where
  serialize
    | .submitTask body => .obj [("submit_task", TaskBody.wire.serialize body)]
    | .claimTask task => .obj [("claim_task", claimTaskWire.serialize task)]
    | .submitProof proof => .obj [("submit_proof", ComputeProof.wire.serialize proof)]
    | .challenge task bond => .obj [("challenge", challengeWire.serialize (task, bond))]
    | .transfer recipient amount => .obj [("transfer", transferWire.serialize (recipient, amount))]
  deserialize json := do
    match ← tagged json with
    | ("submit_task", content) => carrying TaskBody.wire Tx.submitTask content
    | ("claim_task", content) => carrying claimTaskWire Tx.claimTask content
    | ("submit_proof", content) => carrying ComputeProof.wire Tx.submitProof content
    | ("challenge", content) =>
        carrying challengeWire (fun (task, bond) => .challenge task bond) content
    | ("transfer", content) =>
        carrying transferWire (fun (recipient, amount) => .transfer recipient amount) content
    | (name, _) => throw (.unknownVariant name)

theorem Tx.wire_faithful (lawful : Hex.Lawful) : Tx.wire.Faithful := by
  have hash_faithful := Wire.bytes32_faithful lawful
  have claim_faithful : claimTaskWire.Faithful :=
    record_faithful (one_lawful hash_faithful) (by simp)
  have challenge_faithful : challengeWire.Faithful :=
    record_faithful (both_lawful (one_lawful hash_faithful) (one_lawful Wire.decU128_faithful))
      (by simp)
  have transfer_faithful : transferWire.Faithful :=
    record_faithful (both_lawful (one_lawful hash_faithful) (one_lawful Wire.decU128_faithful))
      (by simp)
  intro tx
  cases tx with
  | submitTask body =>
      simp [Tx.wire, tagged, bind, Except.bind,
        carrying_faithful (TaskBody.wire_faithful lawful)]
  | claimTask task =>
      simp [Tx.wire, tagged, bind, Except.bind, carrying_faithful claim_faithful]
  | submitProof proof =>
      simp [Tx.wire, tagged, bind, Except.bind,
        carrying_faithful (ComputeProof.wire_faithful lawful)]
  | challenge task bond =>
      simp [Tx.wire, tagged, bind, Except.bind, carrying_faithful challenge_faithful]
  | transfer recipient amount =>
      simp [Tx.wire, tagged, bind, Except.bind, carrying_faithful transfer_faithful]

/-- A transaction with its author, nonce and signature. -/
def SignedTx.wire : Codec SignedTx :=
  (record <| .both (.one "author" Wire.bytes32) <| .both (.one "tx" Tx.wire) <|
    .both (.one "nonce" (.unsigned 64)) <| .one "sig" Wire.bytes64).via
    (fun stx => (stx.author, stx.tx, stx.nonce, stx.sig))
    fun (author, tx, nonce, sig) => { author, tx, nonce, sig }

theorem SignedTx.wire_faithful (lawful : Hex.Lawful) : SignedTx.wire.Faithful := by
  refine via_faithful (record_faithful ?_ (by simp)) fun _ => rfl
  exact both_lawful (one_lawful (Wire.bytes32_faithful lawful)) <|
    both_lawful (one_lawful (Tx.wire_faithful lawful)) <|
    both_lawful (one_lawful unsigned_faithful) (one_lawful (Wire.bytes64_faithful lawful))

/-- Ordered transactions and the commitment to the state after them. -/
def Block.wire : Codec Block :=
  (record <| .both (.one "height" (.unsigned 64)) <| .both (.one "parent" Wire.bytes32) <|
    .both (.one "epoch" (.unsigned 64)) <| .both (.one "txs" Wire.vecBytes32) <|
    .both (.one "state_root" Wire.bytes32) <| .one "proposer" Wire.bytes32).via
    (fun block => (block.height, block.parent, block.epoch, block.txs, block.stateRoot,
      block.proposer))
    fun (height, parent, epoch, txs, stateRoot, proposer) =>
      { height, parent, epoch, txs, stateRoot, proposer }

theorem Block.wire_faithful (lawful : Hex.Lawful) : Block.wire.Faithful := by
  have hash_faithful := Wire.bytes32_faithful lawful
  refine via_faithful (record_faithful ?_ (by simp)) fun _ => rfl
  exact both_lawful (one_lawful unsigned_faithful) <| both_lawful (one_lawful hash_faithful) <|
    both_lawful (one_lawful unsigned_faithful) <|
    both_lawful (one_lawful (Wire.vecBytes32_faithful lawful)) <|
    both_lawful (one_lawful hash_faithful) (one_lawful hash_faithful)

/-! ## Transport -/

/-- Every transaction, block and record is read back from its wire form, so that identifiers and
signatures are unchanged by the transport; the prefix of a hexadecimal text is optional. -/
theorem transport_faithful [Crypto] (lawful : Hex.Lawful) :
    SignedTx.wire.Faithful ∧ Block.wire.Faithful ∧ Submission.wire.Faithful ∧
      Receipt.wire.Faithful ∧ QLedgerEntry.wire.Faithful ∧
      (∀ stx received : SignedTx,
        SignedTx.wire.deserialize (SignedTx.wire.serialize stx) = .ok received →
          received.txId = stx.txId ∧ received.verifySig = stx.verifySig) ∧
      (∀ block received : Block,
        Block.wire.deserialize (Block.wire.serialize block) = .ok received →
          received.blockHash = block.blockHash) ∧
      ∀ (size : ℕ) (array : Bytes size),
        Wire.fromHex size ("0x" ++ Hex.encode array.toList) = .ok array := by
  refine ⟨SignedTx.wire_faithful lawful, Block.wire_faithful lawful,
    Submission.wire_faithful lawful, Receipt.wire_faithful lawful,
    QLedgerEntry.wire_faithful lawful, ?_, ?_, fun _ => Wire.fromHex_prefixed lawful⟩
  · intro stx received read
    obtain rfl := Except.ok.inj ((SignedTx.wire_faithful lawful stx).symm.trans read)
    exact ⟨rfl, rfl⟩
  · intro block received read
    obtain rfl := Except.ok.inj ((Block.wire_faithful lawful block).symm.trans read)
    rfl

end Records

section Sample

attribute [local instance] Crypto.checksum Hex.lower

theorem transport_faithful_lower :
    SignedTx.wire.Faithful ∧ Block.wire.Faithful ∧ Submission.wire.Faithful ∧
      Receipt.wire.Faithful ∧ QLedgerEntry.wire.Faithful :=
  have faithful := transport_faithful Hex.lower_lawful
  ⟨faithful.1, faithful.2.1, faithful.2.2.1, faithful.2.2.2.1, faithful.2.2.2.2.1⟩

end Sample

end Ducp
