import Ducp.Ledger.Consistency
import Ducp.Node.Rpc

/-!
# Conviction

A challenge whose evidence is stored slashes its task exactly when the recorded proof differs from
the honest execution in its result hash or its count.  The content identifier of the output is part
of the proof and is not compared.
-/

namespace Ducp

open MapSum Outcome Std

section Requests

variable [Crypto] {node : NodeHandle} {inner opened : NodeInner} {stx : SignedTx} {task : TaskId}
  {bond : Ucu} {proposal : Proposal}

/-- An accepted challenge locks its bond in the ledger. -/
theorem Admits.opens (admits : Admits node inner stx proposal opened)
    (tx_eq : stx.tx = .challenge task bond) :
    ∃ next receipt sub,
      Opens { inner.state with nonces := inner.state.nonces.insert stx.author next } stx.author task
        bond node.params receipt sub opened.state := by
  have step : Step inner.state (.apply stx node.params) opened.state := by
    rw [admits.state_eq.1]
    exact admits.applied
  cases step.effect with
  | apply _ _ _ payload =>
      rw [tx_eq] at payload
      cases payload with
      | challenge opens => exact ⟨_, _, _, opens⟩

/-- After an accepted challenge the settled, unslashed task has a pending challenge; its body, its
proof and the blobs are as before. -/
structure Bonded (inner : NodeInner) (task : TaskId) (opened : NodeInner) (receipt : Receipt)
    (sub : Submission) (provider : Identity) (pc : ChallengeRecord) : Prop where
  bodies : opened.state.bodies = inner.state.bodies
  proofs : opened.state.proofs = inner.state.proofs
  blobs : opened.blobs = inner.blobs
  idle : inner.state.pendingChallenges[task]? = none
  pending : ∀ probe, opened.state.pendingChallenges[probe]? =
    if probe = task then some pc else inner.state.pendingChallenges[probe]?
  unslashed : task ∉ opened.state.slashed
  receipt_eq : opened.state.receipts[task]? = some receipt
  sub_eq : opened.state.tasks[task]? = some sub
  provider_eq : sub.provider = some provider

theorem Admits.bonded (sound : Sound inner) (admits : Admits node inner stx proposal opened)
    (tx_eq : stx.tx = .challenge task bond) :
    ∃ receipt sub provider pc, Bonded inner task opened receipt sub provider pc := by
  obtain ⟨next, receipt, sub, opens⟩ := admits.opens tx_eq
  have claimed : sub.provider ≠ none := by
    have unclaimed := sound.ledger.inPhase.consistent.provider task sub opens.sub_eq
    simp [unclaimed, opens.settled]
  obtain ⟨provider, provider_eq⟩ := Option.ne_none_iff_exists'.mp claimed
  have kept {α : Type} (field : Records → α) : field opened.state.records = field _ :=
    congrArg field opens.records
  refine ⟨receipt, sub, provider, { challenger := stx.author, bond }, ?_⟩
  exact
    { bodies := kept Records.bodies
      proofs := kept Records.proofs
      blobs := admits.state_eq.2.2
      idle := opens.idle
      pending := fun probe => by
        have inserted : opened.state.pendingChallenges = _ := kept Records.pendingChallenges
        rw [inserted, getElem?_insert]
      unslashed := fun member => by
        have same : opened.state.slashed = _ := kept Records.slashed
        rw [same] at member
        exact opens.unslashed member
      receipt_eq := by
        have same : opened.state.receipts = _ := kept Records.receipts
        rw [same]
        exact opens.receipt_eq
      sub_eq := by
        have same : opened.state.tasks = _ := kept Records.tasks
        rw [same]
        exact opens.sub_eq
      provider_eq }

omit [Crypto] in
/-- A locked bond does not touch the evidence. -/
theorem Bonded.evidenced_iff {receipt : Receipt} {sub : Submission} {provider : Identity}
    {pc : ChallengeRecord} (bonded : Bonded inner task opened receipt sub provider pc)
    {body : TaskBody} {proof : ComputeProof} {program input : List UInt8} :
    Evidenced opened task body proof program input ↔
      Evidenced inner task body proof program input := by
  constructor
  · intro evidenced
    exact ⟨bonded.bodies ▸ evidenced.body_eq, bonded.proofs ▸ evidenced.proof_eq,
      bonded.blobs ▸ evidenced.program_eq, bonded.blobs ▸ evidenced.input_eq⟩
  · intro evidenced
    exact ⟨bonded.bodies.symm ▸ evidenced.body_eq, bonded.proofs.symm ▸ evidenced.proof_eq,
      bonded.blobs.symm ▸ evidenced.program_eq, bonded.blobs.symm ▸ evidenced.input_eq⟩

omit [Crypto] in
/-- The evidence of a task is unique. -/
theorem Evidenced.unique {body body' : TaskBody} {proof proof' : ComputeProof}
    {program program' input input' : List UInt8}
    (left : Evidenced inner task body proof program input)
    (right : Evidenced inner task body' proof' program' input') :
    body = body' ∧ proof = proof' ∧ program = program' ∧ input = input' := by
  obtain rfl : body = body' := Option.some.inj (left.body_eq.symm.trans right.body_eq)
  exact ⟨rfl, Option.some.inj (left.proof_eq.symm.trans right.proof_eq),
    Option.some.inj (left.program_eq.symm.trans right.program_eq),
    Option.some.inj (left.input_eq.symm.trans right.input_eq)⟩

/-- A verdict on a bonded task closes its challenge, and slashes it exactly on refutation. -/
theorem Decides.verdict_effect [Runtime] {state : NodeInner} {receipt : Receipt}
    {sub : Submission} {provider : Identity} {pc : ChallengeRecord} {body : TaskBody}
    {proof : ComputeProof} {program input : List UInt8} {honest : ExecOutcome} {fraud : Bool}
    (bonded : Bonded inner task opened receipt sub provider pc)
    (decides : Decides node opened task body proof program input honest fraud state) :
    (∀ probe, state.state.pendingChallenges[probe]? =
        if probe = task then none else inner.state.pendingChallenges[probe]?) ∧
      (task ∈ state.state.slashed ↔ honest.Refutes proof) := by
  obtain ⟨resolved, block, resolve_eq, seals⟩ := applyVerdict_effect decides.applied
  have closes := State.resolveChallenge_effect resolve_eq
  rw [seals.state_eq.1]
  constructor
  · intro probe
    rw [closes.pendingChallenges_eq probe, bonded.pending probe]
    split <;> rfl
  · have pending : opened.state.pendingChallenges[task]? = some pc := by
      rw [bonded.pending task, if_pos rfl]
    rw [closes.slashed_iff pending bonded.receipt_eq bonded.sub_eq bonded.provider_eq
      bonded.unslashed]
    exact decides.verdict

end Requests

/-- A challenge request whose transaction is accepted, on a task whose evidence is stored, ends by
slashing the task exactly when the honest execution refutes the recorded proof. -/
theorem challenge_convicts [Crypto] [Runtime] {node : NodeHandle} {before after : Lock NodeInner}
    (reachable : NodeReachable node before) {stx : SignedTx} {task : TaskId} {bond : Ucu}
    (tx_eq : stx.tx = .challenge task bond) {body : TaskBody} {proof : ComputeProof}
    {program input : List UInt8}
    (evidenced : Evidenced before.state task body proof program input) {txId : TxId}
    {locked : Lock NodeInner} (accepted : (node.submit stx).Returns before txId locked)
    {answer : Except ErrorObject OkResp}
    (answered : (Rpc.challenge node stx).Ends before (.ok answer) after) :
    ∃ honest, WasmtimeDvm.execute program input body.limits node.benchmark = .ok honest ∧
      (task ∈ after.state.state.slashed ↔
        honest.resultHash ≠ proof.resultHash ∨ honest.ucuCount ≠ proof.ucuCount) := by
  have sound := reachable.sound
  cases challenge_ends sound.mempool tx_eq answered with
  | refused _ rejects =>
      cases submit_ends sound.mempool accepted with
      | accepted _ admits => exact (admits.applied.not_rejects rejects).elim
  | unresolvable _ admits missing =>
      obtain ⟨receipt, sub, provider, pc, bonded⟩ := admits.bonded sound tx_eq
      exact (missing ⟨body, proof, program, input, bonded.evidenced_iff.mpr evidenced⟩).elim
  | decided _ admits decides =>
      obtain ⟨receipt, sub, provider, pc, bonded⟩ := admits.bonded sound tx_eq
      obtain ⟨rfl, rfl, rfl, rfl⟩ :=
        evidenced.unique (bonded.evidenced_iff.mp decides.toEvidenced)
      exact ⟨_, decides.executed, (decides.verdict_effect bonded).2⟩

section Sample

open Sample

attribute [local instance] Crypto.checksum Runtime.echo

/-- The honest execution of the task. -/
def echoHonest : ExecOutcome where
  resultHash := Crypto.hashBytes [7, 8, 9]
  output := [7, 8, 9]
  ucuCount := 50000
  status := .ok

/-- A proof which names some other output. -/
def forgedOutput : ComputeProof := { echoProof with output := Bytes.fill 32 13 }

/-- A proof which claims some other result. -/
def forgedResult : ComputeProof := { echoProof with resultHash := Bytes.fill 32 13 }

/-- The task is settled with a proof, and its evidence and its honest execution are at hand. -/
abbrev EchoStored (proof : ComputeProof) (node : NodeHandle) (inner : NodeInner) : Prop :=
  inner.state.bodies[echoTask]? = some echoBody ∧ inner.state.proofs[echoTask]? = some proof ∧
    inner.blobs[echoBody.program]? = some [1] ∧ inner.blobs[echoBody.input]? = some [7, 8, 9] ∧
    WasmtimeDvm.execute [1] [7, 8, 9] echoBody.limits node.benchmark = .ok echoHonest

theorem EchoStored.evidenced {proof : ComputeProof} {node : NodeHandle} {inner : NodeInner}
    (stored : EchoStored proof node inner) :
    Evidenced inner echoTask echoBody proof [1] [7, 8, 9] :=
  ⟨stored.1, stored.2.1, stored.2.2.1, stored.2.2.2.1⟩

/-- The challenge of a settled proof is accepted and answered. -/
structure EchoChallenged (proof : ComputeProof) (node : NodeHandle) (before : Lock NodeInner) :
    Prop where
  reachable : NodeReachable node before
  stored : EchoStored proof node before.state
  accepted : ∃ txId locked, (node.submit echoChallenge).Returns before txId locked
  answered : (Rpc.challenge node echoChallenge).Returns before { ok := true }
    (Rpc.challenge node echoChallenge before).2

/-- Whether the challenge of a proof slashes the task, when it is accepted and answered. -/
def echoVerdict (proof : ComputeProof) : Option Bool :=
  (nodeAfter (echoBlobs ++ echoSettled proof)).bind fun ran =>
    if EchoStored proof ran.1 ran.2.2.state ∧
        (ran.1.submit echoChallenge ran.2.2).1 =
          .ok (.ok (Crypto.hashBytes (Borsh.layout echoChallenge))) ∧
        (Rpc.challenge ran.1 echoChallenge ran.2.2).1 = .ok (.ok { ok := true }) then
      some (decide (echoTask ∈ (Rpc.challenge ran.1 echoChallenge ran.2.2).2.state.state.slashed))
    else none

theorem echoVerdict_eq_some {proof : ComputeProof} {slashed : Bool}
    (verdict : echoVerdict proof = some slashed) :
    ∃ node before, EchoChallenged proof node before ∧
      (slashed = true ↔
        echoTask ∈ (Rpc.challenge node echoChallenge before).2.state.state.slashed) := by
  obtain ⟨⟨node, start, before⟩, ran, verdict⟩ := Option.bind_eq_some_iff.mp verdict
  split at verdict
  · rename_i checks
    obtain ⟨stored, submitted, answered⟩ := checks
    obtain rfl := Option.some.inj verdict
    refine ⟨node, before, ⟨nodeAfter_reachable ran, stored, ⟨_, _, Prod.ext submitted rfl⟩,
      Prod.ext answered rfl⟩, ?_⟩
    exact decide_eq_true_iff
  · cases verdict

/-- A settled proof of an output which the execution does not produce survives its challenge. -/
theorem forged_output_survives :
    ∃ node before, EchoChallenged forgedOutput node before ∧
      forgedOutput.output ≠ contentId echoHonest.output ∧
      echoTask ∉ (Rpc.challenge node echoChallenge before).2.state.state.slashed := by
  have verdict : echoVerdict forgedOutput = some false := by decide +kernel
  obtain ⟨node, before, challenged, slashed_iff⟩ := echoVerdict_eq_some verdict
  refine ⟨node, before, challenged, by decide +kernel, ?_⟩
  rw [← slashed_iff]
  exact Bool.false_ne_true

theorem challenge_convicts_forged :
    ∃ node before, EchoChallenged forgedResult node before ∧
      ∃ honest, WasmtimeDvm.execute [1] [7, 8, 9] echoBody.limits node.benchmark = .ok honest ∧
        (echoTask ∈ (Rpc.challenge node echoChallenge before).2.state.state.slashed ↔
          honest.resultHash ≠ forgedResult.resultHash ∨
            honest.ucuCount ≠ forgedResult.ucuCount) := by
  have verdict : echoVerdict forgedResult = some true := by decide +kernel
  obtain ⟨node, before, challenged, _⟩ := echoVerdict_eq_some verdict
  obtain ⟨txId, locked, accepted⟩ := challenged.accepted
  exact ⟨node, before, challenged, challenge_convicts challenged.reachable rfl
    challenged.stored.evidenced accepted challenged.answered⟩

end Sample

end Ducp
