import Ducp.Types

/-!
# What a signature covers

The signed bytes are an author, a transaction of variable length and a nonce, with no separators.
They are still read in one way only, because both ends have a fixed length and the layout in the
middle cancels.
-/

namespace Ducp

open Borsh

/-- The signed bytes, spelled out. -/
theorem signingPayload_eq_ok {author : Identity} {tx : Tx} {nonce : BitVec 64}
    {payload : List UInt8} :
    SignedTx.signingPayload author tx nonce = .ok payload ↔
      fits tx = true ∧ author.toList ++ (layout tx ++ layout nonce) = payload := by
  simp only [SignedTx.signingPayload, Checked.bind_eq_ok, canonicalBytes_eq_ok,
    Checked.pure_eq_ok]
  constructor
  · rintro ⟨_, ⟨encodes, rfl⟩, rfl⟩
    exact ⟨encodes, (List.append_assoc ..).symm⟩
  · rintro ⟨encodes, rfl⟩
    exact ⟨_, ⟨encodes, rfl⟩, List.append_assoc ..⟩

/-- The signed bytes determine the author, the transaction and the nonce. -/
theorem signingPayload_injective {author author' : Identity} {tx tx' : Tx}
    {nonce nonce' : BitVec 64} {payload : List UInt8}
    (signed : SignedTx.signingPayload author tx nonce = .ok payload)
    (signed' : SignedTx.signingPayload author' tx' nonce' = .ok payload) :
    author = author' ∧ tx = tx' ∧ nonce = nonce' := by
  obtain ⟨encodes, bytes⟩ := signingPayload_eq_ok.mp signed
  obtain ⟨encodes', bytes'⟩ := signingPayload_eq_ok.mp signed'
  have framed : author.toList.length = author'.toList.length :=
    author.length_toList.trans author'.length_toList.symm
  obtain ⟨authors, middle⟩ := fixed_cancel framed (bytes.trans bytes'.symm)
  obtain ⟨txs, nonces⟩ := layout_cancel encodes encodes' middle
  exact ⟨Bytes.ext authors, txs, layout_injective rfl rfl nonces⟩

/-- Bodies with one identifier are equal when the hash tells their layouts apart. -/
theorem taskId_injective [Crypto] {body body' : TaskBody} {task : TaskId}
    (identified : body.taskId = .ok task) (identified' : body'.taskId = .ok task)
    (collisionless : Crypto.hashBytes (layout body) = Crypto.hashBytes (layout body') →
      layout body = layout body') : body = body' := by
  obtain ⟨encodes, hashed⟩ := hashCanonical_eq_ok.mp identified
  obtain ⟨encodes', hashed'⟩ := hashCanonical_eq_ok.mp identified'
  exact layout_injective encodes encodes' (collisionless (hashed.trans hashed'.symm))

/-- One string of signed bytes authorises one transaction of one author under one nonce, and one
canonical encoding stands for one task. -/
theorem signed_content_unique (author author' : Identity) (tx tx' : Tx) (nonce nonce' : BitVec 64)
    (body body' : TaskBody) :
    (∀ payload, SignedTx.signingPayload author tx nonce = .ok payload →
      SignedTx.signingPayload author' tx' nonce' = .ok payload →
        author = author' ∧ tx = tx' ∧ nonce = nonce') ∧
    (canonicalBytes body = canonicalBytes body' → body = body') ∧
    ∀ (_ : Crypto) (task : TaskId), body.taskId = .ok task → body'.taskId = .ok task →
      (Crypto.hashBytes (layout body) = Crypto.hashBytes (layout body') →
        layout body = layout body') → body = body' := by
  refine ⟨fun _ => signingPayload_injective, fun same => ?_, fun _ _ => taskId_injective⟩
  have encoded : canonicalBytes body = .ok (layout body) := canonicalBytes_eq_ok.mpr ⟨rfl, rfl⟩
  exact canonicalBytes_injective encoded (same ▸ encoded)

/-! ## Signing -/

/-- The primitives of a signing library: what a seed of 32 bytes derives. -/
class Keys where
  /-- The public key of a seed. -/
  identity : Bytes 32 → Identity
  /-- The signature of a message with a seed. -/
  sign : Bytes 32 → List UInt8 → Signature

/-- A computable instance for evaluation: a seed is its own public key, and every signature is
blank. -/
@[reducible]
def Keys.plain : Keys where
  identity seed := seed
  sign _ _ := Bytes.fill 64 0

/-- What a signing library promises: its signatures verify under the public key of their seed. -/
def Keys.Lawful [Crypto] [Keys] : Prop :=
  ∀ (seed : Bytes 32) (message : List UInt8),
    Crypto.verify (Keys.identity seed) message (Keys.sign seed message) = true

/-- Construct and sign a transaction with a seed. -/
def SignedTx.sign [Keys] (seed : Bytes 32) (tx : Tx) (nonce : BitVec 64) : Checked SignedTx := do
  let author := Keys.identity seed
  let payload ← SignedTx.signingPayload author tx nonce
  return { author, tx, nonce, sig := Keys.sign seed payload }

/-- A transaction which can be encoded is signed, and the signature verifies. -/
theorem SignedTx.exists_sign [Crypto] [Keys] (lawful : Keys.Lawful) {seed : Bytes 32} {tx : Tx}
    {nonce : BitVec 64} (encodes : fits tx = true) :
    ∃ stx, SignedTx.sign seed tx nonce = .ok stx ∧ stx.author = Keys.identity seed ∧ stx.tx = tx ∧
      stx.nonce = nonce ∧ stx.verifySig = .ok true ∧ ∃ txId, stx.txId = .ok txId := by
  have payload_eq : signingPayload (Keys.identity seed) tx nonce = .ok _ :=
    signingPayload_eq_ok.mpr ⟨encodes, rfl⟩
  refine ⟨_, Checked.bind_eq_ok.mpr ⟨_, payload_eq, rfl⟩, rfl, rfl, rfl, ?_, _,
    hashCanonical_eq_ok.mpr ⟨?_, rfl⟩⟩
  · exact Checked.bind_eq_ok.mpr ⟨_, payload_eq, congrArg Except.ok (lawful seed _)⟩
  · exact Bool.and_eq_true_iff.mpr ⟨rfl, Bool.and_eq_true_iff.mpr ⟨encodes, rfl⟩⟩

section Sample

/-- A proof with a variable-length attestation and a seal. -/
def Sample.attestedProof : ComputeProof where
  task := Bytes.fill 32 1
  provider := Bytes.fill 32 2
  output := Bytes.fill 32 3
  resultHash := Bytes.fill 32 4
  ucuCount := 400
  benchmark := 1
  tierData := .tee [0, 255, 7]
  powerSeal := some
    { sealGrade := .s1Witnessed
      boundary := .node
      powerCapMilliwatts := 274
      windowMillis := 50000
      tMaxMillikelvin := 350000
      attestationEvidence := Bytes.fill 32 5
      benchmark := 1 }

theorem signed_content_unique_attestedProof :
    ∃ payload, SignedTx.signingPayload (Bytes.fill 32 2) (.submitProof Sample.attestedProof) 9 =
        .ok payload ∧
      ∀ author tx nonce, SignedTx.signingPayload author tx nonce = .ok payload →
        Bytes.fill 32 2 = author ∧ Tx.submitProof Sample.attestedProof = tx ∧ 9 = nonce := by
  have signed : SignedTx.signingPayload (Bytes.fill 32 2) (.submitProof Sample.attestedProof) 9 =
      .ok _ :=
    signingPayload_eq_ok.mpr ⟨by decide, rfl⟩
  refine ⟨_, signed, fun author tx nonce => ?_⟩
  let body : TaskBody :=
    { ir := .wasm
      program := Bytes.fill 32 1
      input := Bytes.fill 32 2
      limits := { maxUcu := 1000, maxMemoryBytes := 65536 }
      tier := .sampledReexec
      benchmark := 1
      deadline := 10
      failurePolicy := .retryThenReturn 3
      nonce := 0 }
  exact (signed_content_unique _ author _ tx 9 nonce body body).1 _ signed

end Sample

end Ducp
