import Ducp.Node.Blobs
import Ducp.Node.Jobs
import Ducp.Node.Quotes

/-!
# What a worker completes

A worker is not alone on its node: between two of its requests other clients submit, claim, prove,
challenge and transfer, and epochs pass.  As long as nobody takes its tasks and the node stays in
range, none of this stops it, and every one of its tasks is settled and paid.
-/

namespace Ducp

open Finset Guarded MapSum Serde Serde.Codec Std

section Nodes

variable [Crypto] [Keys] [Runtime] {job : Job} {node : NodeHandle} {funds : State} {counts : Counts}
  {lock : Lock NodeInner} {stx : SignedTx} {txId : TxId}

/-- A call of others. -/
def Job.Interferes (job : Job) (node : NodeHandle) (before : Lock NodeInner) (op : NodeOp)
    (after : Lock NodeInner) : Prop :=
  op.Foreign job before.state ∧ op.Performs node before after

/-- Others have called the node, which still answers and is in range. -/
def Job.Others (job : Job) (node : NodeHandle) (before after : Lock NodeInner) : Prop :=
  after.poisoned = false ∧ Ready after.state ∧ ∃ ops, Run (job.Interferes node) before ops after

theorem Job.Progress.others (progress : job.Progress node funds counts lock.state)
    {arrived : Lock NodeInner} (others : job.Others node lock arrived) :
    job.Progress node funds counts arrived.state := by
  obtain ⟨_, _, ops, run⟩ := others
  exact run.invariant (fun lock => job.Progress node funds counts lock.state) progress
    fun held ⟨foreign, performs⟩ => held.foreign foreign (performs.changes held.sound.mempool)

omit [Keys] [Runtime] in
/-- A transaction which is not rejected is accepted by a node in range. -/
theorem Ready.accepts (ready : Ready lock.state) (devnet : node.params = .devnet)
    (sound : Sound lock.state) (free : lock.poisoned = false)
    (ceiling : ∀ body, stx.tx = .submitTask body → body.limits.maxUcu.toNat * 1000 < 2 ^ 128)
    (identified : stx.txId = .ok txId)
    (accepted : ∀ reason, ¬(lock.state.state.apply stx .devnet).Rejects reason) :
    ∃ txId' proposal inner', (node.submit stx).Returns lock txId' { lock with state := inner' } ∧
      Admits node lock.state stx proposal inner' := by
  have unpoisoned := ready.submits devnet sound free ceiling
  obtain ⟨ending, ends⟩ := Leaves.ends (rfl : (node.submit stx).Leaves lock _)
  rw [Unpoisoned, ends.leaves] at unpoisoned
  have submitted := submit_ends sound.mempool ends
  generalize (node.submit stx lock).2 = after at ends submitted unpoisoned
  cases submitted with
  | @accepted txId' proposal inner' _ admits => exact ⟨txId', proposal, inner', ends, admits⟩
  | rejected _ rejects => exact (accepted _ (devnet ▸ rejects)).elim
  | faulted unsent => cases identified.symm.trans unsent
  | poisoned _ poisoned => cases poisoned.symm.trans unpoisoned

namespace Job

omit [Crypto] [Keys] [Runtime] in
theorem payloads_program : job.payloads[0]? = some job.program := rfl

omit [Crypto] [Keys] [Runtime] in
theorem payloads_input {i : ℕ} (within : i < job.count) :
    job.payloads[i + 1]? = some (input i) := by
  simp [payloads, within]

/-- An uploaded payload is stored. -/
theorem Store.uploaded {inner : NodeInner} {uploaded position : ℕ} {payload : List UInt8}
    (store : Store job node uploaded inner) (found : job.payloads[position]? = some payload)
    (early : position < uploaded) : inner.blobs[contentId payload]? = some payload := by
  refine store.uploads payload (List.mem_of_getElem? (i := position) ?_)
  rw [List.getElem?_take, if_pos early, found]

/-- The worker proves what its payloads execute to. -/
theorem Progress.honest {inner : NodeInner} (running : job.Running node funds)
    (progress : job.Progress node funds counts inner) (within : counts.submitted ≤ job.count)
    (executing : counts.proved < counts.claimed) (uploaded : counts.proved + 1 < counts.uploaded) :
    Honest node inner (job.task counts.proved) (job.proof counts.proved) := by
  have books := progress.books
  have proving := (executing.trans_le books.claimed_le).trans_le within
  have claimed := books.executing within executing
  have program_eq := progress.uploaded payloads_program (Nat.zero_lt_of_lt uploaded)
  have input_eq := progress.uploaded (payloads_input proving) uploaded
  refine ⟨job.outcome counts.proved, ?_, by simp [ExecOutcome.Refutes, proof, Worker.taskProof]⟩
  simp only [NodeHandle.reexecute, claimed.body, Option.bind_eq_bind, Option.bind_some]
  rw [show (job.body counts.proved).program = contentId job.program from rfl, program_eq,
    show (job.body counts.proved).input = contentId (input counts.proved) from rfl]
  simp only [Option.bind_some, input_eq]
  exact Checked.toOption_eq_some.mpr (running.executes _ proving)

/-- A transaction which the worker has signed. -/
structure Signs (stx : SignedTx) (author : Identity) (tx : Tx) (nonce : ℕ) : Prop where
  author : stx.author = author
  tx : stx.tx = tx
  nonce : stx.nonce.toNat = nonce
  verified : stx.verifySig = .ok true
  identified : ∃ txId, stx.txId = .ok txId

/-- A node in range accepts a transaction of the worker which is not rejected, and progresses as the
ledger does. -/
theorem Progress.accepts {author : Identity} {tx : Tx} {nonce : ℕ} {counts' : Counts}
    (running : job.Running node funds) (progress : job.Progress node funds counts lock.state)
    (free : lock.poisoned = false) (ready : Ready lock.state) (signs : Signs stx author tx nonce)
    (charged : ∀ body, tx = .submitTask body → body.limits.maxUcu.toNat * 1000 < 2 ^ 128)
    (honest : ∀ proof ∈ tx.proof?, Honest node lock.state proof.task proof)
    (accepted : ∀ reason, ¬(lock.state.state.apply stx .devnet).Rejects reason)
    (moves : ∀ s', Step lock.state.state (.apply stx .devnet) s' → job.Books funds counts' s')
    (uploaded : counts'.uploaded = counts.uploaded) :
    ∃ txId inner', (node.submit stx).Returns lock txId { lock with state := inner' } ∧
      job.Progress node funds counts' inner' := by
  obtain ⟨_, identified⟩ := signs.identified
  rw [← signs.tx] at charged honest
  obtain ⟨txId, proposal, inner', submits, admits⟩ :=
    ready.accepts running.devnet progress.sound free charged identified accepted
  have step := admits.step.1
  rw [running.devnet] at step
  have stored := progress.toStore.changes (.accept admits) (fun _ _ => honest)
    (fun _ _ => honest) fun _ stores => by cases stores
  exact ⟨txId, inner', submits, ⟨uploaded ▸ stored, moves _ step⟩⟩

section Requests

variable [Hex]

/-- The worker submits its next task. -/
theorem Progress.submitTask (running : job.Running node funds) (hex : Hex.Lawful)
    (progress : job.Progress node funds counts lock.state)
    (within : counts.submitted < job.count)
    (signs : Signs stx job.asker (.submitTask (job.body counts.submitted)) counts.submitted) :
    (Client.submitTask stx).Certain (Request.answer node) (job.Others node) (fun _ after =>
      job.Progress node funds { counts with submitted := counts.submitted + 1 } after.state)
      lock := by
  refine Client.certain_send SubmitTaskResp.wire_faithful fun arrived arrives => ?_
  have arrived_at := progress.others arrives
  obtain ⟨free, ready, _⟩ := arrives
  have ceiling : (job.body counts.submitted).limits.maxUcu.toNat * 1000 < 2 ^ 128 :=
    show Worker.taskLimits.maxUcu.toNat * 1000 < 2 ^ 128 by decide +kernel
  obtain ⟨_, inner', submits, moved⟩ := arrived_at.accepts running free ready signs
    (by rintro _ ⟨⟩; exact ceiling) (by rintro _ ⟨⟩)
    (fun _ => arrived_at.books.submit_accepted running within signs.verified signs.author
      signs.nonce signs.tx)
    (fun _ => arrived_at.books.submit running within signs.author signs.tx) rfl
  obtain ⟨quoted, quotes⟩ := Checked.exists_ok_of_avoids fun _ =>
    quote_in_range running.devnet ceiling
  have returns : ∃ response, (Rpc.submitTask node stx).Returns arrived response
      { arrived with state := inner' } := by
    simp only [Rpc.submitTask, signs.tx, returns_bind, returns_lift, Outcome.returns_lift,
      returns_mapErr, returns_pure]
    exact ⟨_, quoted, arrived, ⟨quotes, rfl⟩, _, _, submits, rfl, rfl⟩
  obtain ⟨response, returns⟩ := returns
  exact ⟨response, _, Client.respond_returns (SignedTx.wire_faithful hex) returns, moved⟩

/-- The worker claims the task which it has submitted. -/
theorem Progress.claimTask (running : job.Running node funds) (hex : Hex.Lawful)
    (progress : job.Progress node funds counts lock.state) (within : counts.submitted ≤ job.count)
    (waiting : counts.claimed < counts.submitted)
    (signs : Signs stx job.worker (.claimTask (job.task counts.claimed))
      (counts.claimed + counts.proved)) :
    (Client.claimTask stx).Certain (Request.answer node) (job.Others node) (fun _ after =>
      job.Progress node funds { counts with claimed := counts.claimed + 1 } after.state) lock := by
  refine Client.certain_send ClaimResp.wire_faithful fun arrived arrives => ?_
  have arrived_at := progress.others arrives
  obtain ⟨free, ready, _⟩ := arrives
  obtain ⟨_, inner', submits, moved⟩ := arrived_at.accepts running free ready signs
    (by rintro _ ⟨⟩) (by rintro _ ⟨⟩)
    (fun _ => arrived_at.books.claim_accepted running within waiting signs.verified signs.author
      signs.nonce signs.tx)
    (fun _ => arrived_at.books.claim running within waiting signs.author signs.tx) rfl
  have returns : ∃ response, (Rpc.claimTask node stx).Returns arrived response
      { arrived with state := inner' } := by
    simp only [Rpc.claimTask, signs.tx, returns_bind, returns_mapErr, returns_read, returns_pure]
    exact ⟨_, _, _, submits, _, _, ⟨free, rfl, rfl⟩, rfl, rfl⟩
  obtain ⟨response, returns⟩ := returns
  exact ⟨response, _, Client.respond_returns (SignedTx.wire_faithful hex) returns, moved⟩

/-- The worker proves the task which it has claimed. -/
theorem Progress.submitProof (running : job.Running node funds) (hex : Hex.Lawful)
    (progress : job.Progress node funds counts lock.state) (within : counts.submitted ≤ job.count)
    (executing : counts.proved < counts.claimed) (uploaded : counts.proved + 1 < counts.uploaded)
    (signs : Signs stx job.worker (.submitProof (job.proof counts.proved))
      (counts.claimed + counts.proved)) :
    (Client.submitProof stx).Certain (Request.answer node) (job.Others node) (fun _ after =>
      job.Progress node funds { counts with proved := counts.proved + 1 } after.state) lock := by
  refine Client.certain_send OkResp.wire_faithful fun arrived arrives => ?_
  have arrived_at := progress.others arrives
  obtain ⟨free, ready, _⟩ := arrives
  have honest := arrived_at.honest running within executing uploaded
  obtain ⟨_, inner', submits, moved⟩ := arrived_at.accepts running free ready signs
    (by rintro _ ⟨⟩) (by rintro _ ⟨⟩; exact honest)
    (fun _ => arrived_at.books.prove_accepted running within executing signs.verified signs.author
      signs.nonce signs.tx)
    (fun _ => arrived_at.books.prove running within executing signs.author signs.tx) rfl
  have returns : ∃ response, (Rpc.submitProof node stx).Returns arrived response
      { arrived with state := inner' } := by
    simp only [Rpc.submitProof, signs.tx, returns_bind, returns_mapErr, returns_pure]
    exact ⟨_, _, _, submits, rfl, rfl⟩
  obtain ⟨response, returns⟩ := returns
  exact ⟨response, _, Client.respond_returns (SignedTx.wire_faithful hex) returns, moved⟩

/-- The worker uploads its next payload. -/
theorem Progress.putBlob (running : job.Running node funds) (hex : Hex.Lawful)
    (progress : job.Progress node funds counts lock.state) {payload : List UInt8}
    (found : job.payloads[counts.uploaded]? = some payload) :
    (Client.putBlob (Hex.encode payload)).Certain (Request.answer node) (job.Others node)
      (fun response after => response.contentId = Hex.encode (contentId payload).toList ∧
        job.Progress node funds { counts with uploaded := counts.uploaded + 1 } after.state)
      lock := by
  refine Client.certain_send PutBlobResp.wire_faithful fun arrived arrives => ?_
  have arrived_at := progress.others arrives
  obtain ⟨free, _⟩ := arrives
  have member := List.mem_of_getElem? found
  have returns := Rpc.putBlob_returns.mpr ⟨payload, Rpc.parseHex_encode hex, free, rfl, rfl⟩
  refine ⟨_, _, Client.respond_returns Wire.string_faithful returns, rfl, ?_⟩
  have fair (id : Identity) : (NodeOp.putBlob payload).FairTo node id arrived.state :=
    arrived_at.pristine payload member
  have stored := arrived_at.toStore.changes (.store payload) (fair _) (fair _)
    fun bytes stores other member' same => by
      cases stores
      exact running.collisionFree other member' payload member same
  refine ⟨{ stored with uploads := fun other member' => ?_ }, { arrived_at.books with }⟩
  rw [List.take_add_one, found, Option.toList_some, List.mem_append, List.mem_singleton] at member'
  rcases member' with earlier | rfl
  · exact stored.uploads other earlier
  · simp [NodeInner.putBlob]

/-- The worker asks for the entry of a task which it has proved. -/
theorem Progress.getQEntry (hex : Hex.Lawful)
    (progress : job.Progress node funds counts lock.state) {i : ℕ} (settled : i < counts.proved)
    (within : i < job.count) :
    (Client.getQEntry (Hex.encode (job.task i).toList)).Certain (Request.answer node)
      (job.Others node) (fun entry after => entry.q = none ∧
        job.Progress node funds counts after.state) lock := by
  refine Client.certain_send (QLedgerEntry.wire_faithful hex) fun arrived arrives => ?_
  have arrived_at := progress.others arrives
  obtain ⟨free, _⟩ := arrives
  have records := arrived_at.books.settled settled within
  have returns : (Rpc.getQEntry (Hex.encode (job.task i).toList)).Returns arrived
      (.unmeasured (job.task i) (job.outcome i).ucuCount 0) arrived := by
    simp only [Rpc.getQEntry, NodeHandle.qEntry, returns_bind, Rpc.returns_given,
      Rpc.parseHash_encode hex, returns_read, Rpc.returns_found, Except.ok.injEq]
    exact ⟨_, _, ⟨rfl, rfl⟩, _, _, ⟨free, rfl, rfl⟩, records.2.2, rfl⟩
  exact ⟨_, _, Client.respond_returns Wire.string_faithful returns, rfl, arrived_at⟩

/-- The worker asks for the head. -/
theorem Progress.getHead (progress : job.Progress node funds counts lock.state) :
    Client.getHead.Certain (Request.answer node) (job.Others node) (fun head after =>
      (∃ root : Hash, head.stateRoot = Hex.encode root.toList) ∧
        job.Progress node funds counts after.state) lock := by
  refine Client.certain_send HeadView.wire_faithful fun arrived arrives => ?_
  have arrived_at := progress.others arrives
  obtain ⟨free, ready, _⟩ := arrives
  obtain ⟨root, hashed⟩ := arrived_at.sound.ledger.exists_stateRoot ready.sized (by norm_num)
  have returns : (Request.getHead.serve node).Returns arrived _ arrived :=
    returns_bind.mpr ⟨_, _, getHead_returns free hashed, returns_pure.mpr ⟨rfl, rfl⟩⟩
  exact ⟨_, arrived, returns, ⟨root, rfl⟩, arrived_at⟩

/-! ## The worker -/

omit [Runtime] [Hex] in
theorem exists_signs (keys : Keys.Lawful) (seed : Bytes 32) {tx : Tx} (nonce : BitVec 64)
    (encodes : Borsh.fits tx = true) : ∃ stx, (SignedTx.sign seed tx nonce).toOption = some stx ∧
      Signs stx (Keys.identity seed) tx nonce.toNat := by
  obtain ⟨stx, signed, author, tx_eq, nonce_eq, verified, identified⟩ :=
    @SignedTx.exists_sign _ _ keys seed tx nonce encodes
  exact ⟨stx, Checked.toOption_eq_some.mpr signed, author, tx_eq,
    congrArg BitVec.toNat nonce_eq, verified, identified⟩

/-- The name under which a task is reported. -/
def name (job : Job) (i : ℕ) : String :=
  String.ofList ((Hex.encode (job.task i).toList).toList.take 16)

/-- What the worker reports of a task. -/
def line (job : Job) (i : ℕ) : String :=
  Worker.settledLine (BitVec.ofNat 64 i) (job.outcome i).ucuCount none (job.name i)

/-- What the worker has counted after its first tasks. -/
structure Reckons (job : Job) (i : ℕ) (loop : Worker.Loop) (lines : List String) : Prop where
  provNonce : loop.provNonce.toNat = i + i
  totalUcu : loop.totalUcu.toNat = ∑ j ∈ range i, (job.outcome j).ucuCount.toNat
  lines : loop.lines = lines ++ (List.range i).map job.line

omit [Hex] in
/-- The worker can add up what its tasks have used. -/
theorem Running.total_lt (running : job.Running node funds) {i : ℕ} (within : i ≤ job.count) :
    ∑ j ∈ range i, (job.outcome j).ucuCount.toNat < 2 ^ 128 := by
  have funded := running.funded.trans_lt (funds.acct job.asker).balance.isLt
  have paid := (running.paid_le within).trans (Nat.mul_le_mul_right need within)
  rw [sum_add_distrib] at paid
  omega

omit [Hex] in
/-- The worker counts its nonce as the ledger does. -/
theorem Progress.exists_next (progress : job.Progress node funds counts lock.state)
    {nonce : BitVec 64} (counted : nonce.toNat + 1 = counts.claimed + counts.proved) :
    ∃ next, (Checked.add nonce 1).toOption = some next ∧
      next.toNat = counts.claimed + counts.proved := by
  have small := progress.books.workerNonce ▸ BitVec.isLt _
  have fits : nonce.toNat + (1 : BitVec 64).toNat < 2 ^ 64 := counted.trans_lt small
  obtain ⟨next, added, next_eq⟩ := Checked.exists_add fits
  exact ⟨next, Checked.toOption_eq_some.mpr added, next_eq.trans counted⟩

/-- The worker runs its next task. -/
theorem Progress.runTask (running : job.Running node funds) (hex : Hex.Lawful)
    (paired : Hex.Paired) (keys : Keys.Lawful) {i : ℕ} (within : i < job.count)
    {lines : List String} {loop : Worker.Loop}
    (progress : job.Progress node funds ⟨i + 1, i, i, i⟩ lock.state)
    (reckons : job.Reckons i loop lines) :
    (Worker.runTask job.requester job.provider node.benchmark job.program
        (Hex.encode (contentId job.program).toList) loop (BitVec.ofNat 64 i)).Certain
      (Request.answer node) (job.Others node) (fun loop after =>
        job.Progress node funds ⟨i + 2, i + 1, i + 1, i + 1⟩ after.state ∧
          job.Reckons (i + 1) loop lines) lock := by
  obtain ⟨provNonce, totalUcu, lines_eq⟩ := reckons
  rw [Worker.runTask]
  -- The body of the task.
  refine (progress.putBlob running hex (payloads_input within)).bind fun stored lock held => ?_
  obtain ⟨inId, progress⟩ := held
  rw [inId]
  refine Session.certain_given (Worker.array32_encode hex _) ?_
  refine Session.certain_given (Worker.array32_encode hex _) ?_
  refine Session.certain_given (Checked.toOption_eq_some.mpr (taskId i)) ?_
  -- Submit.
  obtain ⟨submission, signed, signs⟩ := exists_signs keys job.requester (BitVec.ofNat 64 i)
    (show Borsh.fits (Tx.submitTask (job.body i)) = true from rfl)
  refine Session.certain_given signed ?_
  have nonce_eq : (BitVec.ofNat 64 i).toNat = i := by
    have small : ((lock.state.state.nonces[job.asker]?).getD 0).toNat = i :=
      progress.books.askerNonce
    rw [BitVec.toNat_ofNat, Nat.mod_eq_of_lt (small ▸ BitVec.isLt _)]
  rw [nonce_eq] at signs
  refine (progress.submitTask running hex within signs).bind fun _ lock progress => ?_
  -- Claim.
  obtain ⟨claim, signed, signs⟩ := exists_signs keys job.provider loop.provNonce
    (show Borsh.fits (Tx.claimTask (job.task i)) = true from rfl)
  refine Session.certain_given signed ?_
  rw [provNonce] at signs
  refine (progress.claimTask running hex within (Nat.lt_succ_self i) signs).bind
    fun _ lock progress => ?_
  obtain ⟨proving, added, proving_eq⟩ := progress.exists_next
    (show loop.provNonce.toNat + 1 = i + 1 + i by omega)
  refine Session.certain_given added ?_
  -- Execute and prove.
  refine Session.certain_given (Checked.toOption_eq_some.mpr (running.executes i within)) ?_
  obtain ⟨proven, signed, signs⟩ := exists_signs keys job.provider proving
    (show Borsh.fits (Tx.submitProof (job.proof i)) = true from rfl)
  refine Session.certain_given signed ?_
  rw [proving_eq] at signs
  refine (progress.submitProof running hex within (Nat.lt_succ_self i) (Nat.lt_succ_self _)
    signs).bind fun _ lock progress => ?_
  obtain ⟨next, added, next_eq⟩ := progress.exists_next
    (show proving.toNat + 1 = i + 1 + (i + 1) by rw [proving_eq]; rfl)
  refine Session.certain_given added ?_
  -- Report.
  refine (progress.getQEntry hex (Nat.lt_succ_self i) within).bind fun entry lock held => ?_
  obtain ⟨unmeasured, progress⟩ := held
  have total_lt := running.total_lt (Nat.succ_le_of_lt within)
  rw [sum_range_succ, ← totalUcu] at total_lt
  obtain ⟨total, added, total_eq⟩ := Checked.exists_add total_lt
  refine Session.certain_given (Checked.toOption_eq_some.mpr added) ?_
  refine Session.certain_given (Worker.short_encode hex paired _) ?_
  refine ⟨progress, ?_, ?_, ?_⟩
  · exact next_eq
  · rw [total_eq, totalUcu, sum_range_succ]
  · rw [lines_eq, unmeasured, List.range_succ, List.map_append, List.append_assoc]
    rfl

end Requests

/-! ## The start of a job -/

variable {proposer : Identity} {allocations : List (Identity × Ucu)} {start : Lock NodeInner}

theorem Viable.running (viable : job.Viable node funds)
    (opened : NodeHandle.new proposer allocations = .ok (node, start)) :
    job.Running node funds := by
  obtain ⟨benchmark, _, devnet, _, rfl, _⟩ := new_effect opened
  refine ⟨viable, rfl, fun i within => ?_⟩
  refine WasmtimeDvm.execute_within (Benchmark.devnet_calibrated devnet) ?_
    (viable.executes i within)
  have rate := benchmark.fuelPerUcu.isLt
  have limit : Worker.taskLimits.maxUcu.toNat = 10000000000 := rfl
  rw [limit]
  omega

/-- Nothing of a job is done on a node which has just been opened. -/
theorem new_progress (opened : NodeHandle.new proposer allocations = .ok (node, start)) :
    job.Progress node start.state.state ⟨0, 0, 0, 0⟩ start.state := by
  have sound := new_sound opened
  have asker : Blameless node job.asker start.state := new_blameless opened
  have worker : Blameless node job.worker start.state := new_blameless opened
  obtain ⟨_, state, _, genesis_eq, _, rfl⟩ := new_effect opened
  have records := (State.genesis_effect genesis_eq).records
  have nonces : state.nonces = ∅ := congrArg Records.nonces records
  have tasks : state.tasks = ∅ := congrArg Records.tasks records
  exact
    { sound
      asker
      worker
      pristine := fun _ _ => by simp [Lock.new]
      uploads := fun _ member => by cases member
      books :=
        { proved_le := le_rfl
          claimed_le := le_rfl
          askerNonce := by simp [Lock.new, nonces]
          workerNonce := by simp [Lock.new, nonces]
          spent := by simp
          earned := by simp
          records := fun i _ => by
            change state.tasks[job.task i]? = none
            simp [tasks] } }

/-! ## The end of a job -/

omit [Runtime] in
/-- A task of the job is settled by the worker, which has been paid what the task executes to and
has not been slashed for it. -/
structure Paid (job : Job) (s : State) (i : ℕ) : Prop
    extends Recorded job s i .settled (some job.worker) where
  proof : s.proofs[job.task i]? = some (job.proof i)
  receipt : ∃ receipt, s.receipts[job.task i]? = some receipt ∧
    receipt.paidToProvider = (job.outcome i).ucuCount ∧ receipt.validatorFee = fee
  unslashed : job.task i ∉ s.slashed

/-- All tasks of a job are paid.  The requester has spent no more than their counts and fees, and
the provider has earned their counts, up to what it has staked. -/
structure Completed (job : Job) (funds s : State) : Prop where
  paid : ∀ i < job.count, job.Paid s i
  askerNonce : ((s.nonces[job.asker]?).getD 0).toNat = job.count
  workerNonce : ((s.nonces[job.worker]?).getD 0).toNat = job.count + job.count
  spent : (funds.acct job.asker).balance.toNat ≤ (s.acct job.asker).balance.toNat +
    ∑ i ∈ range job.count, ((job.outcome i).ucuCount.toNat + fee.toNat)
  earned : (funds.acct job.worker).balance.toNat +
    ∑ i ∈ range job.count, (job.outcome i).ucuCount.toNat ≤
      (s.acct job.worker).balance.toNat + job.count * stake

omit [Runtime] in
theorem Records.paid {s : State} {i : ℕ} (records : job.Records s i .settled)
    (phases : InPhase s) : job.Paid s i := by
  obtain ⟨recorded, proof_eq, _⟩ := records
  obtain ⟨sub, sub_eq, status, _, _, fee_eq⟩ := recorded.sub
  have phase := phases (job.task i)
  have receipted := phase.concluded_iff.1.mpr ⟨sub, sub_eq, .inl status⟩
  obtain ⟨receipt, receipt_eq⟩ := Option.isSome_iff_exists.mp receipted
  obtain ⟨_, found, proof, _, _, found_eq, found_proof, _, agrees⟩ := phase.agreement receipt_eq
  obtain rfl := Option.some.inj (sub_eq.symm.trans found_eq)
  obtain rfl := Option.some.inj (proof_eq.symm.trans found_proof)
  refine ⟨recorded, proof_eq, ⟨receipt, receipt_eq, agrees.paid, ?_⟩, fun slashed => ?_⟩
  · rw [agrees.validatorFee, fee_eq]
  · obtain ⟨failed, failed_eq, status'⟩ := phase.slashed_iff.mp slashed
    obtain rfl := Option.some.inj (sub_eq.symm.trans failed_eq)
    cases status.symm.trans status'

theorem Progress.completed {uploaded : ℕ} {inner : NodeInner}
    (progress : job.Progress node funds ⟨uploaded, job.count, job.count, job.count⟩ inner) :
    job.Completed funds inner.state := by
  have books := progress.books
  refine ⟨fun i within => ?_, books.askerNonce, books.workerNonce, ?_, books.earned⟩
  · exact (books.settled within within).paid progress.sound.ledger.inPhase
  · have spent := books.spent
    simpa using spent

variable [Hex]

/-- What a worker prints when it has completed its job. -/
def Reports (job : Job) (cli : Worker.Cli) (lines : List String) : Prop :=
  ∃ head last total root, total.toNat = ∑ i ∈ range job.count, (job.outcome i).ucuCount.toNat ∧
    Worker.short last.stateRoot = some root ∧
    lines = (Worker.connectedLine cli head :: (List.range job.count).map job.line) ++
      [Worker.doneLine cli total last root]

/-- A worker with a viable job completes it. -/
theorem Progress.main (running : job.Running node funds) (hex : Hex.Lawful) (paired : Hex.Paired)
    (keys : Keys.Lawful) {cli : Worker.Cli}
    (requester : Worker.array32 cli.requesterSeed = some job.requester)
    (provider : Worker.array32 cli.providerSeed = some job.provider)
    (devnet : Benchmark.devnet = .ok node.benchmark) (program : echoModule = .ok job.program)
    (count : job.count = cli.tasks.toNat)
    (progress : job.Progress node funds ⟨0, 0, 0, 0⟩ lock.state) :
    (Worker.main cli).Certain (Request.answer node) (job.Others node) (fun lines after =>
      job.Completed funds after.state.state ∧ job.Reports cli lines) lock := by
  rw [Worker.main]
  refine Session.certain_given requester ?_
  refine Session.certain_given provider ?_
  refine Session.certain_given (Checked.toOption_eq_some.mpr devnet) ?_
  refine Session.certain_given (Checked.toOption_eq_some.mpr program) ?_
  refine (progress.putBlob running hex payloads_program).bind fun stored lock held => ?_
  obtain ⟨progId, progress⟩ := held
  rw [progId]
  refine progress.getHead.bind fun head lock held => ?_
  obtain ⟨_, progress⟩ := held
  -- After some tasks, each of them has been settled and reported.
  refine (Session.certain_foldlM (fun i loop lock =>
    job.Progress node funds ⟨i + 1, i, i, i⟩ lock.state ∧
      job.Reckons i loop [Worker.connectedLine cli head])
    ⟨progress, rfl, rfl, rfl⟩ fun i item loop lock item_eq held => ?_).bind
      fun loop lock held => ?_
  · obtain ⟨progress, reckons⟩ := held
    obtain ⟨within, rfl⟩ : i < job.count ∧ BitVec.ofNat 64 i = item := by
      simpa [count, List.getElem?_eq_some_iff] using item_eq
    exact progress.runTask running hex paired keys within reckons
  · obtain ⟨progress, reckons⟩ := held
    rw [List.length_map, List.length_range, ← count] at progress reckons
    refine progress.getHead.bind fun last lock held => ?_
    obtain ⟨⟨root, root_eq⟩, progress⟩ := held
    have shortened := Worker.short_encode hex paired root
    rw [← root_eq] at shortened
    refine Session.certain_given shortened ?_
    refine ⟨progress.completed, head, last, loop.totalUcu, _, reckons.totalUcu, shortened, ?_⟩
    rw [reckons.lines, List.singleton_append]

end Job

/-- A worker which runs on a fresh node completes its job, whatever others do between its requests:
it ends, and all of its tasks are settled, paid and reported. -/
theorem worker_completes [Hex] (hex : Hex.Lawful) (paired : Hex.Paired) (keys : Keys.Lawful)
    {proposer : Identity} {allocations : List (Identity × Ucu)} {start : Lock NodeInner}
    (opened : NodeHandle.new proposer allocations = .ok (node, start)) {cli : Worker.Cli}
    (requester : Worker.array32 cli.requesterSeed = some job.requester)
    (provider : Worker.array32 cli.providerSeed = some job.provider)
    (program : echoModule = .ok job.program) (count : job.count = cli.tasks.toNat)
    (viable : job.Viable node start.state.state) {ending : Option (List String)}
    {last : Lock NodeInner}
    (ended : (Worker.main cli).Ends (Request.answer node) (job.Others node) start ending last) :
    job.Completed start.state.state last.state.state ∧
      ∃ lines, ending = some lines ∧ job.Reports cli lines := by
  obtain ⟨benchmark, _, devnet, _, rfl, _⟩ := new_effect opened
  have certain := Job.Progress.main (viable.running opened) hex paired keys requester provider
    devnet program count (Job.new_progress opened)
  obtain ⟨lines, rfl, completed, reports⟩ := Session.certain_iff.mp certain ending last ended
  exact ⟨completed, lines, rfl, reports⟩

end Nodes

section Sample

open Sample

/-- A runtime which also assembles the echo workload. -/
@[reducible]
def Sample.assembling : Runtime where
  report := Runtime.echo.report
  parseStr text := if text = echoWat then some [1] else some [0]

attribute [local instance] Crypto.checksum Sample.assembling Hex.lower Keys.plain

/-- A worker with one task. -/
def Sample.cli : Worker.Cli := { tasks := 1 }

/-- The job of the worker. -/
def Sample.job : Job where
  requester := alice
  provider := bob
  program := [1]
  count := 1
  outcome i :=
    { resultHash := Crypto.hashBytes (Job.input i)
      output := Job.input i
      ucuCount := 50000
      status := .ok }

/-- Enough funds for the job. -/
def Sample.wealthy : List (Identity × Ucu) :=
  [(alice, 30000000000), (bob, 30000000000), (carol, 1000000)]

/-- What others do before each request: a transfer to the requester, an epoch boundary while a task
executes, and a challenge of the settled task, which is lost. -/
def Sample.interruptions : List (List NodeOp) :=
  [[.submit (signed carol 0 (.transfer alice 5))], [], [], [], [], [.advanceEpoch],
    [.submit (signed carol 1 (.challenge (job.task 0) 30000))],
    [.resolvePendingChallenge (job.task 0)]]

/-- The node after others have called it, when they leave the job alone and the node in range. -/
def Sample.interrupt (node : NodeHandle) (ops : List NodeOp) (before : Lock NodeInner) :
    Option (Lock NodeInner) :=
  match (ops.foldlM (fun lock op =>
      if op.Foreign job lock.state then .ok (op.perform node lock) else .error ()) before :
    Except Unit (Lock NodeInner)) with
  | .ok after => if after.poisoned = false ∧ Ready after.state then some after else none
  | .error _ => none

theorem Sample.interrupt_others {node : NodeHandle} {ops : List NodeOp}
    {before after : Lock NodeInner} (interrupted : interrupt node ops before = some after) :
    job.Others node before after := by
  rw [interrupt] at interrupted
  split at interrupted
  · rename_i folded
    split at interrupted
    · rename_i held
      obtain rfl := Option.some.inj interrupted
      refine ⟨held.1, held.2, ops, (Run.of_foldlM folded).mono fun op _ lock next taken => ?_⟩
      split at taken
      · rename_i foreign
        exact ⟨foreign, Except.ok.inj taken⟩
      · cases taken
    · cases interrupted
  · cases interrupted

/-- The worker among the others, from a fresh node on. -/
def Sample.played : Option (NodeHandle × Lock NodeInner × Option (List String) × Lock NodeInner) :=
  (NodeHandle.new alice wealthy).toOption.bind fun (node, start) =>
    ((Worker.main cli).play (Request.answer node) (interruptions.map (interrupt node)) start).map
      fun (ending, last) => (node, start, ending, last)

theorem Sample.played_eq_some {node : NodeHandle} {start last : Lock NodeInner}
    {ending : Option (List String)} (ran : played = some (node, start, ending, last)) :
    NodeHandle.new alice wealthy = .ok (node, start) ∧
      (Worker.main cli).Ends (Request.answer node) (job.Others node) start ending last := by
  obtain ⟨⟨node', start'⟩, opened, rest⟩ := Option.bind_eq_some_iff.mp ran
  obtain ⟨⟨ending', last'⟩, plays, same⟩ := Option.map_eq_some_iff.mp rest
  simp only [Prod.mk.injEq] at same
  obtain ⟨rfl, rfl, rfl, rfl⟩ := same
  refine ⟨Checked.toOption_eq_some.mp opened, Session.ends_of_play (fun move member => ?_) plays⟩
  obtain ⟨ops, _, rfl⟩ := List.mem_map.mp member
  exact fun _ _ => interrupt_others

/-- The worker completes its task among the others, whose transactions are in the same chain. -/
theorem worker_completes_interrupted :
    ∃ node start last lines,
      (Worker.main cli).Ends (Request.answer node) (job.Others node) start (some lines) last ∧
      last.state.blocks.length = 7 ∧ job.Completed start.state.state last.state.state ∧
      job.Reports cli lines := by
  have sampled : played.any (fun ran => job.Viable ran.1 ran.2.1.state.state ∧
      ran.2.2.2.state.blocks.length = 7) = true := by
    decide +kernel
  obtain ⟨⟨node, start, ending, last⟩, ran, sampled⟩ := (Option.any_eq_true _ _).mp sampled
  obtain ⟨viable, blocks⟩ := of_decide_eq_true sampled
  obtain ⟨opened, ended⟩ := played_eq_some ran
  obtain ⟨completed, lines, rfl, reports⟩ := worker_completes Hex.lower_lawful Hex.lower_paired
    (fun _ _ => rfl) opened (by decide +kernel) (by decide +kernel) (by decide +kernel) (by rfl)
    viable ended
  exact ⟨node, start, last, lines, ended, blocks, completed, reports⟩

end Sample

end Ducp
