import Ducp.Ledger.Events
import Ducp.Node.Handle

/-!
# What a call of a node can do

One inversion per method: how the call ends, and the guarded state it leaves.  A call which does
not complete its last critical section leaves the state of the section before.
-/

namespace Ducp

open Borsh Guarded MapSum Std

section Node

variable [Crypto] {node : NodeHandle}

/-- An accepted transaction has been produced as a block of its own and adopted. -/
structure Admits (node : NodeHandle) (inner : NodeInner) (stx : SignedTx) (proposal : Proposal)
    (inner' : NodeInner) : Prop where
  produced : inner.sequencer.produce [stx] inner.state node.params = .ok proposal
  applied : (inner.state.apply stx node.params).Returns proposal.state
  appended : inner.append proposal.block proposal.txs proposal.state = .ok inner'

/-- How a submission ends. -/
inductive Submitted (node : NodeHandle) (stx : SignedTx) (before : Lock NodeInner) :
    Checked (Except Reject TxId) → Lock NodeInner → Prop
  | accepted {txId : TxId} {proposal : Proposal} {state : NodeInner} :
      before.poisoned = false → Admits node before.state stx proposal state →
      Submitted node stx before (.ok (.ok txId)) { before with state }
  | rejected {reason : Reject} :
      before.poisoned = false → (before.state.state.apply stx node.params).Rejects reason →
      Submitted node stx before (.ok (.error reason)) before
  | faulted {fault : Fault} : stx.txId = .error fault →
      Submitted node stx before (.error fault) before
  | poisoned {fault : Fault} {after : Lock NodeInner} :
      after.state = before.state → after.poisoned = true →
      Submitted node stx before (.error fault) after

/-- What a re-execution needs is there: the body, the proof, and the two blobs. -/
structure Evidenced (inner : NodeInner) (task : TaskId) (body : TaskBody) (proof : ComputeProof)
    (program input : List UInt8) : Prop where
  body_eq : inner.state.bodies[task]? = some body
  proof_eq : inner.state.proofs[task]? = some proof
  program_eq : inner.blobs[body.program]? = some program
  input_eq : inner.blobs[body.input]? = some input

instance {inner : NodeInner} {task : TaskId} {body : TaskBody} {proof : ComputeProof}
    {program input : List UInt8} : Decidable (Evidenced inner task body proof program input) :=
  decidable_of_iff (inner.state.bodies[task]? = some body ∧
      inner.state.proofs[task]? = some proof ∧ inner.blobs[body.program]? = some program ∧
      inner.blobs[body.input]? = some input)
    ⟨fun ⟨body, proof, program, input⟩ => ⟨body, proof, program, input⟩,
      fun ⟨body, proof, program, input⟩ => ⟨body, proof, program, input⟩⟩

/-- The proof of a task has been re-executed, and the verdict applied and sealed. -/
structure Decides [Runtime] (node : NodeHandle) (inner : NodeInner) (task : TaskId)
    (body : TaskBody) (proof : ComputeProof) (program input : List UInt8) (honest : ExecOutcome)
    (fraud : Bool) (inner' : NodeInner) : Prop extends
    Evidenced inner task body proof program input where
  executed : WasmtimeDvm.execute program input body.limits node.benchmark = .ok honest
  verdict : fraud = true ↔ honest.Refutes proof
  applied : node.applyVerdict task fraud inner = .ok inner'

/-- How the resolution of a challenge ends. -/
inductive Resolved [Runtime] (node : NodeHandle) (task : TaskId) (before : Lock NodeInner) :
    Checked (Except Reject Bool) → Lock NodeInner → Prop
  | unresolvable :
      (¬∃ body proof program input, Evidenced before.state task body proof program input) →
      Resolved node task before (.ok (.error .unknownTask)) before
  | decided {body : TaskBody} {proof : ComputeProof} {program input : List UInt8}
      {honest : ExecOutcome} {fraud : Bool} {state : NodeInner} :
      before.poisoned = false →
      Decides node before.state task body proof program input honest fraud state →
      Resolved node task before (.ok (.ok fraud)) { before with state }
  | faulted {body : TaskBody} {proof : ComputeProof} {program input : List UInt8}
      {fault : Fault} :
      Evidenced before.state task body proof program input →
      WasmtimeDvm.execute program input body.limits node.benchmark = .error fault →
      Resolved node task before (.error fault) before
  | poisoned {fault : Fault} {after : Lock NodeInner} :
      after.state = before.state → after.poisoned = true →
      Resolved node task before (.error fault) after

section Inversions

variable {before after : Lock NodeInner} {stx : SignedTx} {task : TaskId}

omit [Crypto] in
theorem resultOf_singleton {txId : TxId} {accepted : Bool} {reject : Option Reject} :
    NodeHandle.resultOf txId [{ txId, accepted, reject }] =
      if accepted then .ok txId else .error (reject.getD .invalid) := by
  simp [NodeHandle.resultOf]

/-- From an empty mempool a submission processes its own transaction only. -/
theorem submit_ends {ending : Checked (Except Reject TxId)}
    (idle : before.state.mempool = []) (ends : (node.submit stx).Ends before ending after) :
    Submitted node stx before ending after := by
  rw [NodeHandle.submit, ends_checked_bind] at ends
  rcases ends with ⟨txId, txId_eq, ends⟩ | ⟨fault, failed, rfl, rfl⟩
  swap
  · exact .faulted failed
  rcases ends_locked.mp ends with
    ⟨poisoned, rfl, rfl⟩ | ⟨free, result, state, produced, rfl, rfl⟩ | ⟨free, fault, _, rfl, rfl⟩
  · exact .poisoned rfl poisoned
  · have emptied : ({ before.state with mempool := [] } : NodeInner) = before.state := by
      rw [← idle]
    simp only [NodeHandle.produceWith, idle, List.nil_append, emptied,
      Checked.bind_eq_ok] at produced
    obtain ⟨proposal, produced, completed⟩ := produced
    obtain ⟨found, found_eq, outcome⟩ := SingleSequencer.produce_singleton produced
    obtain rfl : found = txId := Except.ok.inj (found_eq.symm.trans txId_eq)
    rcases outcome with
      ⟨applied, txs_eq, ids_eq, results_eq⟩ | ⟨reason, rejects, ids_eq, results_eq⟩
    · rw [ids_eq, results_eq, resultOf_singleton] at completed
      simp only [List.cons_ne_nil, if_false, if_true, Checked.bind_eq_ok,
        Checked.pure_eq_ok, Prod.mk.injEq] at completed
      obtain ⟨_, appended, rfl, rfl⟩ := completed
      exact .accepted free ⟨produced, applied, appended⟩
    · rw [ids_eq, results_eq, resultOf_singleton] at completed
      simp only [if_true, Checked.pure_eq_ok, Prod.mk.injEq, Bool.false_eq_true, if_false,
        Option.getD_some] at completed
      obtain ⟨rfl, rfl⟩ := completed
      exact .rejected free rejects
  · exact .poisoned rfl rfl

omit [Crypto] in
theorem gather_eq_ok {inner : NodeInner} {evidence : Evidence}
    (gathered : NodeInner.gather task inner = .ok evidence) :
    inner.state.bodies[task]? = some evidence.body ∧
      inner.state.proofs[task]? = some evidence.proof ∧
      evidence.program = inner.blobs[evidence.body.program]? ∧
      evidence.input = inner.blobs[evidence.body.input]? := by
  rw [NodeInner.gather] at gathered
  split at gathered
  · cases gathered
  · split at gathered
    · cases gathered
    · obtain rfl := Except.ok.inj gathered
      exact ⟨‹_›, ‹_›, rfl, rfl⟩

omit [Crypto] in
theorem gather_eq_error {inner : NodeInner} {reason : Reject}
    (missing : NodeInner.gather task inner = .error reason) :
    reason = .unknownTask ∧
      (inner.state.bodies[task]? = none ∨ inner.state.proofs[task]? = none) := by
  rw [NodeInner.gather] at missing
  split at missing
  · obtain rfl := Except.error.inj missing
    exact ⟨rfl, .inl ‹_›⟩
  · split at missing
    · obtain rfl := Except.error.inj missing
      exact ⟨rfl, .inr ‹_›⟩
    · cases missing

/-- A resolution misses its evidence, or re-executes and seals the verdict. -/
theorem resolve_ends [Runtime] {ending : Checked (Except Reject Bool)}
    (ends : (node.resolvePendingChallenge task).Ends before ending after) :
    Resolved node task before ending after := by
  rw [NodeHandle.resolvePendingChallenge, ends_bind] at ends
  rcases ends with
    ⟨evidence, middle, gathered, ends⟩ | ⟨reason, missing, rfl⟩ | ⟨fault, stopped, rfl⟩
  · obtain ⟨free, gathered, rfl⟩ := returns_read.mp gathered
    obtain ⟨body_eq, proof_eq, program_eq, input_eq⟩ := gather_eq_ok gathered
    rw [ends_okOr_bind, program_eq] at ends
    rcases ends with ⟨program, program_eq, ends⟩ | ⟨missing, rfl, rfl⟩
    swap
    · refine .unresolvable ?_
      rintro ⟨body, proof, program, input, evidenced⟩
      obtain rfl : evidence.body = body :=
        Option.some.inj (body_eq.symm.trans evidenced.body_eq)
      simp [evidenced.program_eq] at missing
    rw [ends_okOr_bind, input_eq] at ends
    rcases ends with ⟨input, input_eq, ends⟩ | ⟨missing, rfl, rfl⟩
    swap
    · refine .unresolvable ?_
      rintro ⟨body, proof, program, input, evidenced⟩
      obtain rfl : evidence.body = body :=
        Option.some.inj (body_eq.symm.trans evidenced.body_eq)
      simp [evidenced.input_eq] at missing
    have evidenced : Evidenced middle.state task evidence.body evidence.proof program input :=
      ⟨body_eq, proof_eq, program_eq, input_eq⟩
    rw [ends_checked_bind] at ends
    rcases ends with ⟨outcome, checked, ends⟩ | ⟨fault, failed, rfl, rfl⟩
    swap
    · exact .faulted evidenced (check_eq_error failed)
    obtain ⟨honest, executed, verdict⟩ := check_eq_ok checked
    rw [ends_bind] at ends
    rcases ends with ⟨_, _, updated, ends⟩ | ⟨reason, stopped, rfl⟩ | ⟨fault, stopped, rfl⟩
    · obtain ⟨_, state, applied, rfl⟩ := returns_update.mp updated
      obtain ⟨rfl, rfl⟩ := ends_pure.mp ends
      exact .decided free { evidenced with executed, verdict, applied }
    · simp [ends_update] at stopped
    · rcases ends_update.mp stopped with
        ⟨poisoned, _, rfl⟩ | ⟨_, _, _, absurd_ending, _⟩ | ⟨_, _, _, _, rfl⟩
      · exact .poisoned rfl poisoned
      · cases absurd_ending
      · exact .poisoned rfl rfl
  · rcases ends_read.mp missing with ⟨rfl, ⟨_, absurd_ending⟩ | ⟨_, missing⟩⟩
    · cases absurd_ending
    · obtain ⟨rfl, absent⟩ := gather_eq_error (Except.ok.inj missing).symm
      refine .unresolvable ?_
      rintro ⟨body, proof, program, input, evidenced⟩
      simp [evidenced.body_eq, evidenced.proof_eq] at absent
  · rcases ends_read.mp stopped with ⟨rfl, ⟨poisoned, _⟩ | ⟨_, absurd_ending⟩⟩
    · exact .poisoned rfl poisoned
    · cases absurd_ending

omit [Crypto] in
theorem update_leaves {change : NodeInner → Checked NodeInner}
    (leaves : (update change : Guarded NodeInner Reject PUnit).Leaves before after) :
    after.state = before.state ∨ change before.state = .ok after.state := by
  obtain ⟨ending, ends⟩ := leaves.ends
  rcases ends_update.mp ends with ⟨_, _, rfl⟩ | ⟨_, _, changed, _, rfl⟩ | ⟨_, _, _, _, rfl⟩
  · exact .inl rfl
  · exact .inr changed
  · exact .inl rfl

/-- A payload is stored, unless the lock is poisoned. -/
theorem putBlob_ends {bytes : List UInt8} {ending : Checked (Except Reject ContentId)}
    (ends : (NodeHandle.putBlob bytes).Ends before ending after) :
    after = before ∨ after = { before with state := before.state.putBlob bytes } := by
  rw [NodeHandle.putBlob, ends_bind] at ends
  rcases ends with ⟨_, middle, updated, ends⟩ | ⟨_, stopped, _⟩ | ⟨_, stopped, _⟩
  · obtain ⟨_, state, stored, rfl⟩ := returns_update.mp updated
    obtain rfl := Checked.pure_eq_ok.mp stored
    exact .inr (ends_pure.mp ends).2
  · simp [ends_update] at stopped
  · rcases ends_update.mp stopped with
      ⟨_, _, rfl⟩ | ⟨_, _, _, absurd_ending, _⟩ | ⟨_, _, failed, _, _⟩
    · exact .inl rfl
    · cases absurd_ending
    · exact (Checked.pure_ne_error failed).elim

end Inversions

/-! ## The blocks of a call -/

section Blocks

variable {inner inner' : NodeInner} {block : Block} {txs : List SignedTx} {state : State}
  {task : TaskId}

theorem append_effect (appended : inner.append block txs state = .ok inner') :
    ∃ sequencer, inner.sequencer.adopt block = .ok sequencer ∧
      inner' =
        { inner with
          sequencer
          state
          blocks := inner.blocks ++ [block]
          blockTxs := inner.blockTxs ++ [txs]
          storage := some state } := by
  obtain ⟨sequencer, adopted, appended⟩ := Checked.bind_eq_ok.mp appended
  exact ⟨sequencer, adopted, (Checked.pure_eq_ok.mp appended).symm⟩

/-- A system transition has been sealed as a block without transactions and adopted. -/
structure Seals (inner : NodeInner) (engine : SingleSequencer) (post : State) (block : Block)
    (inner' : NodeInner) : Prop where
  sealed : engine.sealBlock post = .ok block
  appended : ({ inner with sequencer := engine } : NodeInner).append block [] post = .ok inner'

theorem applyVerdict_effect {fraud : Bool}
    (applied : node.applyVerdict task fraud inner = .ok inner') :
    ∃ resolved block, inner.state.resolveChallenge task fraud node.params = .ok resolved ∧
      Seals inner inner.sequencer resolved block inner' := by
  obtain ⟨resolved, resolve_eq, applied⟩ := Checked.bind_eq_ok.mp applied
  obtain ⟨block, sealed, appended⟩ := Checked.bind_eq_ok.mp applied
  exact ⟨resolved, block, resolve_eq, sealed, appended⟩

theorem crossEpoch_effect (crossed : node.crossEpoch inner = .ok inner') :
    ∃ s block, inner.state.advanceEpoch node.params = .ok s ∧
      Seals inner { inner.sequencer with epoch := s.epoch } s block inner' := by
  obtain ⟨⟨engine, s⟩, advanced, crossed⟩ := Checked.bind_eq_ok.mp crossed
  obtain ⟨_, advance_eq, advanced⟩ := Checked.bind_eq_ok.mp advanced
  obtain ⟨rfl, rfl⟩ := Prod.mk.inj (Checked.pure_eq_ok.mp advanced)
  obtain ⟨block, sealed, appended⟩ := Checked.bind_eq_ok.mp crossed
  exact ⟨_, block, advance_eq, sealed, appended⟩

theorem Seals.state_eq {engine : SingleSequencer} {post : State}
    (seals : Seals inner engine post block inner') :
    inner'.state = post ∧ inner'.mempool = inner.mempool ∧ inner'.blobs = inner.blobs := by
  obtain ⟨sequencer, _, rfl⟩ := append_effect seals.appended
  exact ⟨rfl, rfl, rfl⟩

theorem Admits.state_eq {stx : SignedTx} {proposal : Proposal}
    (admits : Admits node inner stx proposal inner') :
    inner'.state = proposal.state ∧ inner'.mempool = inner.mempool ∧
      inner'.blobs = inner.blobs := by
  obtain ⟨sequencer, _, rfl⟩ := append_effect admits.appended
  exact ⟨rfl, rfl, rfl⟩

end Blocks

/-! ## Calls and runs -/

/-- How a call changes the guarded state. -/
inductive Changes [Runtime] (node : NodeHandle) (inner : NodeInner) : NodeOp → NodeInner → Prop
  | idle {op : NodeOp} : Changes node inner op inner
  | accept {stx : SignedTx} {proposal : Proposal} {inner' : NodeInner} :
      Admits node inner stx proposal inner' → Changes node inner (.submit stx) inner'
  | decide {task : TaskId} {body : TaskBody} {proof : ComputeProof} {program input : List UInt8}
      {honest : ExecOutcome} {fraud : Bool} {inner' : NodeInner} :
      Decides node inner task body proof program input honest fraud inner' →
      Changes node inner (.resolvePendingChallenge task) inner'
  | cross {inner' : NodeInner} :
      node.crossEpoch inner = .ok inner' → Changes node inner .advanceEpoch inner'
  | store (bytes : List UInt8) : Changes node inner (.putBlob bytes) (inner.putBlob bytes)

theorem NodeOp.Performs.changes [Runtime] {before after : Lock NodeInner} {op : NodeOp}
    (idle : before.state.mempool = []) (performs : op.Performs node before after) :
    Changes node before.state op after.state := by
  cases op with
  | submit stx =>
      have leaves : (node.submit stx).Leaves before after := performs
      obtain ⟨ending, ends⟩ := leaves.ends
      cases submit_ends idle ends with
      | accepted _ admits => exact .accept admits
      | rejected _ _ => exact .idle
      | faulted _ => exact .idle
      | poisoned state_eq _ => rw [state_eq]; exact .idle
  | resolvePendingChallenge task =>
      have leaves : (node.resolvePendingChallenge task).Leaves before after := performs
      obtain ⟨ending, ends⟩ := leaves.ends
      cases resolve_ends ends with
      | unresolvable _ => exact .idle
      | decided _ decides => exact .decide decides
      | faulted _ _ => exact .idle
      | poisoned state_eq _ => rw [state_eq]; exact .idle
  | advanceEpoch =>
      have leaves : node.advanceEpoch.Leaves before after := performs
      rcases update_leaves leaves with same | crossed
      · rw [same]; exact .idle
      · exact .cross crossed
  | putBlob bytes =>
      have leaves : (NodeHandle.putBlob bytes).Leaves before after := performs
      obtain ⟨ending, ends⟩ := leaves.ends
      rcases putBlob_ends ends with rfl | rfl
      · exact .idle
      · exact .store bytes

/-- The states a node reaches from its genesis, whatever its calls return. -/
def NodeReachable [Runtime] (node : NodeHandle) (lock : Lock NodeInner) : Prop :=
  ∃ proposer allocations start ops, NodeHandle.new proposer allocations = .ok (node, start) ∧
    Run (NodeOp.Performs node) start ops lock

/-- Between calls the mempool is empty, and the ledger has been reached by its own operations. -/
structure Sound (inner : NodeInner) : Prop where
  mempool : inner.mempool = []
  ledger : Reachable inner.state

/-- A verdict is one step of the ledger. -/
theorem applyVerdict_step {inner inner' : NodeInner} {task : TaskId} {fraud : Bool}
    (applied : node.applyVerdict task fraud inner = .ok inner') :
    Step inner.state (.resolveChallenge task fraud node.params) inner'.state ∧
      inner'.mempool = inner.mempool ∧ inner'.blobs = inner.blobs := by
  obtain ⟨resolved, block, resolve_eq, seals⟩ := applyVerdict_effect applied
  obtain ⟨rfl, kept⟩ := seals.state_eq
  exact ⟨Outcome.returns_lift.mpr resolve_eq, kept⟩

/-- An epoch boundary is one step of the ledger. -/
theorem crossEpoch_step {inner inner' : NodeInner} (crossed : node.crossEpoch inner = .ok inner') :
    Step inner.state (.advanceEpoch node.params) inner'.state ∧
      inner'.mempool = inner.mempool ∧ inner'.blobs = inner.blobs := by
  obtain ⟨s, block, advance_eq, seals⟩ := crossEpoch_effect crossed
  obtain ⟨rfl, kept⟩ := seals.state_eq
  exact ⟨Outcome.returns_lift.mpr advance_eq, kept⟩

/-- An accepted transaction is one step of the ledger. -/
theorem Admits.step {inner inner' : NodeInner} {stx : SignedTx} {proposal : Proposal}
    (admits : Admits node inner stx proposal inner') :
    Step inner.state (.apply stx node.params) inner'.state ∧
      inner'.mempool = inner.mempool ∧ inner'.blobs = inner.blobs := by
  obtain ⟨state_eq, kept⟩ := admits.state_eq
  refine ⟨?_, kept⟩
  rw [state_eq]
  exact admits.applied

theorem Sound.step {inner inner' : NodeInner} (sound : Sound inner) {op : Op}
    (step : Step inner.state op inner'.state) (mempool : inner'.mempool = inner.mempool) :
    Sound inner' :=
  ⟨mempool.trans sound.mempool, sound.ledger.step step⟩

theorem Changes.sound [Runtime] {inner inner' : NodeInner} {op : NodeOp} (sound : Sound inner)
    (changes : Changes node inner op inner') : Sound inner' := by
  cases changes with
  | idle => exact sound
  | accept admits =>
      obtain ⟨step, mempool, _⟩ := admits.step
      exact sound.step step mempool
  | decide decides =>
      obtain ⟨step, mempool, _⟩ := applyVerdict_step decides.applied
      exact sound.step step mempool
  | cross crossed =>
      obtain ⟨step, mempool, _⟩ := crossEpoch_step crossed
      exact sound.step step mempool
  | store bytes => exact ⟨sound.mempool, sound.ledger⟩

theorem new_effect [Runtime] {proposer : Identity} {allocations : List (Identity × Ucu)}
    {start : Lock NodeInner} (opened : NodeHandle.new proposer allocations = .ok (node, start)) :
    ∃ benchmark state, Benchmark.devnet = .ok benchmark ∧
      State.genesis allocations 0 = .ok state ∧ node = { params := .devnet, benchmark } ∧
      start = .new {
        state
        sequencer := .new proposer
        mempool := []
        blobs := ∅
        blocks := []
        blockTxs := []
        storage := some state } := by
  obtain ⟨benchmark, devnet_eq, opened⟩ := Checked.bind_eq_ok.mp opened
  obtain ⟨state, genesis_eq, opened⟩ := Checked.bind_eq_ok.mp opened
  obtain ⟨rfl, rfl⟩ := Prod.mk.inj (Checked.pure_eq_ok.mp opened)
  exact ⟨benchmark, state, devnet_eq, genesis_eq, rfl, rfl⟩

theorem new_sound [Runtime] {proposer : Identity} {allocations : List (Identity × Ucu)}
    {start : Lock NodeInner} (opened : NodeHandle.new proposer allocations = .ok (node, start)) :
    Sound start.state := by
  obtain ⟨benchmark, state, _, genesis_eq, _, rfl⟩ := new_effect opened
  exact ⟨rfl, allocations, 0, state, [], genesis_eq, .nil⟩

/-- Every run of a node keeps the mempool empty and the ledger reachable. -/
theorem Sound.run [Runtime] {start lock : Lock NodeInner} {ops : List NodeOp}
    (sound : Sound start.state) (run : Run (NodeOp.Performs node) start ops lock) :
    Sound lock.state :=
  run.invariant (fun lock => Sound lock.state) sound
    fun held performs => (performs.changes held.mempool).sound held

theorem NodeReachable.sound [Runtime] {lock : Lock NodeInner}
    (reachable : NodeReachable node lock) : Sound lock.state := by
  obtain ⟨proposer, allocations, start, ops, opened, run⟩ := reachable
  exact (new_sound opened).run run

end Node

/-! ## A sample node -/

namespace Sample

attribute [local instance] Crypto.checksum Runtime.echo

/-- A task which copies three bytes. -/
def echoBody : TaskBody :=
  { body 0 with
    program := contentId [1]
    input := contentId [7, 8, 9]
    limits := { maxUcu := 100000, maxMemoryBytes := 65536 } }

/-- The identifier of the task. -/
def echoTask : TaskId := Crypto.hashBytes (layout echoBody)

/-- The honest proof of the task. -/
def echoProof : ComputeProof :=
  { proof 0 50000 with
    task := echoTask
    output := contentId [7, 8, 9]
    resultHash := Crypto.hashBytes [7, 8, 9] }

/-- A transaction of a sample author. -/
def signed (author : Identity) (nonce : BitVec 64) (tx : Tx) : SignedTx :=
  { author, tx, nonce, sig := Bytes.fill 64 0 }

/-- The initial balances of the node. -/
def funded : List (Identity × Ucu) := [(alice, 1000000), (bob, 1000000), (carol, 1000000)]

/-- The blobs of the task are stored. -/
def echoBlobs : List NodeOp := [.putBlob [1], .putBlob [7, 8, 9]]

/-- The task is submitted, claimed and settled with a proof. -/
def echoSettled (proof : ComputeProof) : List NodeOp :=
  [.submit (signed alice 0 (.submitTask echoBody)), .submit (signed bob 0 (.claimTask echoTask)),
    .submit (signed bob 1 (.submitProof proof))]

/-- The challenge of the task. -/
def echoChallenge : SignedTx := signed carol 0 (.challenge echoTask 30000)

/-- A sample node, its genesis, and its state after some calls. -/
def nodeAfter (ops : List NodeOp) : Option (NodeHandle × Lock NodeInner × Lock NodeInner) :=
  match NodeHandle.new alice funded with
  | .ok (node, start) => some (node, start, ops.foldl (NodeOp.perform node) start)
  | .error _ => none

theorem nodeAfter_eq_some {ops : List NodeOp} {node : NodeHandle} {start lock : Lock NodeInner}
    (ran : nodeAfter ops = some (node, start, lock)) :
    NodeHandle.new alice funded = .ok (node, start) ∧
      Run (NodeOp.Performs node) start ops lock := by
  rw [nodeAfter] at ran
  split at ran
  · rename_i opened
    simp only [Option.some.injEq, Prod.mk.injEq] at ran
    obtain ⟨rfl, rfl, rfl⟩ := ran
    exact ⟨opened, Run.of_foldl⟩
  · cases ran

theorem nodeAfter_reachable {ops : List NodeOp} {node : NodeHandle} {start lock : Lock NodeInner}
    (ran : nodeAfter ops = some (node, start, lock)) : NodeReachable node lock := by
  obtain ⟨opened, run⟩ := nodeAfter_eq_some ran
  exact ⟨alice, funded, start, ops, opened, run⟩

end Sample

end Ducp
