import Ducp.Dvm.Limits
import Ducp.Ledger.Acceptance
import Ducp.Node.Availability
import Ducp.Node.Honest
import Ducp.Node.Worker

/-!
# The job of a worker

A job is the list of tasks which a worker is about to run.  Its progress is how many of them have
been submitted, claimed and proved; what the ledger and the node record of it follows from these
counts, and only the worker itself moves them.
-/

namespace Ducp

open Borsh Finset MapSum Std
open Finsupp (single single_apply)

/-- The tasks which a worker is about to run, with what they execute to. -/
structure Job where
  requester : Bytes 32
  provider : Bytes 32
  program : List UInt8
  count : ℕ
  outcome : ℕ → ExecOutcome

/-- How much of a job is done. -/
structure Counts where
  uploaded : ℕ
  submitted : ℕ
  claimed : ℕ
  proved : ℕ

/-- How far a task has got. -/
inductive Stage
  | waiting
  | submitted
  | executing
  | settled

/-- How far a task of a job has got. -/
def Counts.stage (counts : Counts) (i : ℕ) : Stage :=
  if i < counts.proved then .settled
  else if i < counts.claimed then .executing
  else if i < counts.submitted then .submitted
  else .waiting

namespace Counts

variable {counts : Counts}

/-- The task which is submitted next waits. -/
theorem stage_waiting (proved_le : counts.proved ≤ counts.claimed)
    (claimed_le : counts.claimed ≤ counts.submitted) :
    counts.stage counts.submitted = .waiting := by
  simp [stage, claimed_le.not_gt, (proved_le.trans claimed_le).not_gt]

/-- The task which is claimed next is submitted. -/
theorem stage_submitted (proved_le : counts.proved ≤ counts.claimed)
    (waiting : counts.claimed < counts.submitted) : counts.stage counts.claimed = .submitted := by
  simp [stage, proved_le.not_gt, waiting]

/-- The task which is proved next executes. -/
theorem stage_executing (executing : counts.proved < counts.claimed) :
    counts.stage counts.proved = .executing := by
  simp [stage, executing]

theorem stage_settled {i : ℕ} (settled : i < counts.proved) : counts.stage i = .settled := by
  simp [stage, settled]

end Counts

/-- A transaction which submits or claims a task. -/
def Tx.Takes [Crypto] (task : TaskId) : Tx → Prop
  | .submitTask body => body.taskId = .ok task
  | .claimTask claimed => claimed = task
  | _ => False

instance [Crypto] (task : TaskId) (tx : Tx) : Decidable (tx.Takes task) := by
  cases tx <;> unfold Tx.Takes <;> infer_instance

namespace Job

/-- The input of a task. -/
def input (i : ℕ) : List UInt8 := Worker.taskInput (BitVec.ofNat 64 i)

/-- The fee of a task. -/
def fee : Ucu := 10000000

/-- What is escrowed for a task. -/
def need : ℕ := Worker.taskLimits.maxUcu.toNat + fee.toNat

/-- The most that is staked on a task. -/
def stake : ℕ := Worker.taskLimits.maxUcu.toNat / 2

/-- The payloads of a job: the program, and the inputs. -/
def payloads (job : Job) : List (List UInt8) := job.program :: (List.range job.count).map input

variable [Crypto] (job : Job)

/-- The body of a task. -/
def body (i : ℕ) : TaskBody :=
  Worker.taskBody (contentId job.program) (contentId (input i)) (BitVec.ofNat 64 i)

/-- The identifier of a task. -/
def task (i : ℕ) : TaskId := Crypto.hashBytes (layout (job.body i))

variable [Keys]

/-- The identity which submits. -/
def asker : Identity := Keys.identity job.requester

/-- The identity which claims and proves. -/
def worker : Identity := Keys.identity job.provider

/-- The proof of a task. -/
def proof (i : ℕ) : ComputeProof := Worker.taskProof (job.task i) job.worker (job.outcome i)

/-- The ledger has a task of the job, in a status and with a provider. -/
structure Recorded (s : State) (i : ℕ) (status : TaskStatus) (provider : Option Identity) :
    Prop where
  body : s.bodies[job.task i]? = some (job.body i)
  sub : ∃ sub, s.tasks[job.task i]? = some sub ∧ sub.status = status ∧ sub.provider = provider ∧
    sub.requester = job.asker ∧ sub.fee = fee

/-- What the ledger records of a task which has got so far. -/
def Records (s : State) (i : ℕ) : Stage → Prop
  | .waiting => s.tasks[job.task i]? = none
  | .submitted => job.Recorded s i .submitted none
  | .executing => job.Recorded s i .executing (some job.worker)
  | .settled => job.Recorded s i .settled (some job.worker) ∧
      s.proofs[job.task i]? = some (job.proof i) ∧
      s.qLedger[job.task i]? = some (.unmeasured (job.task i) (job.outcome i).ucuCount 0)

/-- What the ledger records of a job which has got so far, when it was funded so. -/
structure Books (funds : State) (counts : Counts) (s : State) : Prop where
  proved_le : counts.proved ≤ counts.claimed
  claimed_le : counts.claimed ≤ counts.submitted
  askerNonce : ((s.nonces[job.asker]?).getD 0).toNat = counts.submitted
  workerNonce : ((s.nonces[job.worker]?).getD 0).toNat = counts.claimed + counts.proved
  spent : (funds.acct job.asker).balance.toNat ≤ (s.acct job.asker).balance.toNat +
    ∑ i ∈ range counts.proved, ((job.outcome i).ucuCount.toNat + fee.toNat) +
      (counts.submitted - counts.proved) * need
  earned : (funds.acct job.worker).balance.toNat +
    ∑ i ∈ range counts.proved, (job.outcome i).ucuCount.toNat ≤
      (s.acct job.worker).balance.toNat + counts.claimed * stake
  records : ∀ i < job.count, job.Records s i (counts.stage i)

/-- What a node stores of a job whose first payloads have been uploaded. -/
structure Store [Runtime] (node : NodeHandle) (uploaded : ℕ) (inner : NodeInner) : Prop where
  sound : Sound inner
  asker : Blameless node job.asker inner
  worker : Blameless node job.worker inner
  pristine : ∀ payload ∈ job.payloads, ∀ stored ∈ inner.blobs[contentId payload]?,
    stored = payload
  uploads : ∀ payload ∈ job.payloads.take uploaded, inner.blobs[contentId payload]? = some payload

/-- What a node and its ledger hold of a job which has got so far. -/
structure Progress [Runtime] (node : NodeHandle) (funds : State) (counts : Counts)
    (inner : NodeInner) : Prop extends Store job node counts.uploaded inner where
  books : job.Books funds counts inner.state

/-- What a job needs: two keys with funds for all of its tasks, tasks and payloads without
collisions, and a program which does not panic. -/
structure Viable [Runtime] (node : NodeHandle) (funds : State) : Prop where
  apart : job.asker ≠ job.worker
  distinct : ∀ i < job.count, ∀ j < job.count, job.task i = job.task j → i = j
  collisionFree : ∀ payload ∈ job.payloads, ∀ payload' ∈ job.payloads,
    contentId payload = contentId payload' → payload = payload'
  executes : ∀ i < job.count, WasmtimeDvm.execute job.program (input i) Worker.taskLimits
    node.benchmark = .ok (job.outcome i)
  funded : job.count * need ≤ (funds.acct job.asker).balance.toNat
  staked : job.count * stake ≤ (funds.acct job.worker).balance.toNat

instance [Runtime] (node : NodeHandle) (funds : State) : Decidable (job.Viable node funds) :=
  decidable_of_iff (job.asker ≠ job.worker ∧
      (∀ i < job.count, ∀ j < job.count, job.task i = job.task j → i = j) ∧
      (∀ payload ∈ job.payloads, ∀ payload' ∈ job.payloads,
        contentId payload = contentId payload' → payload = payload') ∧
      (∀ i < job.count, WasmtimeDvm.execute job.program (input i) Worker.taskLimits
        node.benchmark = .ok (job.outcome i)) ∧
      job.count * need ≤ (funds.acct job.asker).balance.toNat ∧
      job.count * stake ≤ (funds.acct job.worker).balance.toNat)
    ⟨fun ⟨apart, distinct, collisionFree, executes, funded, staked⟩ =>
      ⟨apart, distinct, collisionFree, executes, funded, staked⟩,
    fun ⟨apart, distinct, collisionFree, executes, funded, staked⟩ =>
      ⟨apart, distinct, collisionFree, executes, funded, staked⟩⟩

/-- A viable job on a node with the parameters of the devnet, all counts of which are within their
ceiling. -/
structure Running [Runtime] (node : NodeHandle) (funds : State) : Prop
    extends Viable job node funds where
  devnet : node.params = .devnet
  within : ∀ i < job.count, (job.outcome i).ucuCount ≤ Worker.taskLimits.maxUcu

end Job

/-- What others may do to a node: they sign with other keys, leave the tasks of the job alone, and
store no payload which collides with a stored one or with one of the job. -/
def NodeOp.Foreign [Crypto] [Keys] (job : Job) (inner : NodeInner) : NodeOp → Prop
  | .submit stx => stx.verifySig = .ok true →
      stx.author ≠ job.asker ∧ stx.author ≠ job.worker ∧
        ∀ i < job.count, ¬stx.tx.Takes (job.task i)
  | .putBlob bytes => (∀ stored ∈ inner.blobs[contentId bytes]?, stored = bytes) ∧
      ∀ payload ∈ job.payloads, contentId payload = contentId bytes → payload = bytes
  | _ => True

instance [Crypto] [Keys] (job : Job) (inner : NodeInner) (op : NodeOp) :
    Decidable (op.Foreign job inner) :=
  match op with
  | .submit stx => inferInstanceAs (Decidable (stx.verifySig = .ok true →
      stx.author ≠ job.asker ∧ stx.author ≠ job.worker ∧
        ∀ i < job.count, ¬stx.tx.Takes (job.task i)))
  | .putBlob bytes => inferInstanceAs (Decidable (
      (∀ stored ∈ inner.blobs[contentId bytes]?, stored = bytes) ∧
        ∀ payload ∈ job.payloads, contentId payload = contentId bytes → payload = bytes))
  | .resolvePendingChallenge _ => .isTrue trivial
  | .advanceEpoch => .isTrue trivial

/-! ## What others leave of a job -/

section Foreign

variable [Crypto] [Keys] {job : Job} {s s' funds : State} {counts : Counts} {i : ℕ} {stage : Stage}

namespace Job

/-- The provider of a task of the job is the worker, if it has one. -/
theorem Records.provider (records : job.Records s i stage) {sub : Submission}
    (sub_eq : s.tasks[job.task i]? = some sub) :
    sub.provider = none ∨ sub.provider = some job.worker := by
  cases stage with
  | waiting => cases records.symm.trans sub_eq
  | submitted =>
      obtain ⟨found, found_eq, _, provider, _⟩ := records.sub
      obtain rfl := Option.some.inj (found_eq.symm.trans sub_eq)
      exact .inl provider
  | executing =>
      obtain ⟨found, found_eq, _, provider, _⟩ := records.sub
      obtain rfl := Option.some.inj (found_eq.symm.trans sub_eq)
      exact .inr provider
  | settled =>
      obtain ⟨found, found_eq, _, provider, _⟩ := records.1.sub
      obtain rfl := Option.some.inj (found_eq.symm.trans sub_eq)
      exact .inr provider

theorem Recorded.kept {status : TaskStatus} {provider : Option Identity}
    (recorded : job.Recorded s i status provider)
    (tasks_eq : s'.tasks[job.task i]? = s.tasks[job.task i]?)
    (extended : (s.view (job.task i)).Extends (s'.view (job.task i))) :
    job.Recorded s' i status provider where
  body := extended.body _ recorded.body
  sub := by
    rw [tasks_eq]
    exact recorded.sub

/-- A task whose submission stays, and of which nothing is forgotten, stays as far as it got. -/
theorem Records.kept (records : job.Records s i stage)
    (tasks_eq : s'.tasks[job.task i]? = s.tasks[job.task i]?)
    (extended : (s.view (job.task i)).Extends (s'.view (job.task i))) :
    job.Records s' i stage := by
  cases stage with
  | waiting => exact tasks_eq.trans records
  | submitted => exact Recorded.kept records tasks_eq extended
  | executing => exact Recorded.kept records tasks_eq extended
  | settled =>
      obtain ⟨recorded, proof_eq, entry_eq⟩ := records
      exact ⟨recorded.kept tasks_eq extended, extended.proof _ proof_eq,
        extended.entry _ entry_eq⟩

end Job

variable [Runtime] {node : NodeHandle} {inner inner' : NodeInner} {op : NodeOp}

/-- The submissions of a job stay, whatever others do. -/
theorem NodeOp.Foreign.tasks_kept (foreign : op.Foreign job inner) {ledgerOp : Op}
    (amounts : op.Amounts node inner inner' ledgerOp)
    (step : Step inner.state ledgerOp inner'.state) (phases : InPhase inner.state)
    (blameless : Blameless node job.worker inner') (records : job.Records inner.state i stage)
    (within : i < job.count) :
    inner'.state.tasks[job.task i]? = inner.state.tasks[job.task i]? := by
  have move := step.taskMove phases (job.task i)
  generalize before_eq : inner.state.tasks[job.task i]? = before at move ⊢
  generalize after_eq : inner'.state.tasks[job.task i]? = after at move ⊢
  cases move with
  | stay => rfl
  | submit tx_eq taskId _ =>
      cases amounts with
      | apply =>
          have untaken := (foreign (State.apply_effect step).1).2.2 i within
          rw [tx_eq] at untaken
          exact (untaken taskId).elim
  | claim tx_eq _ =>
      cases amounts with
      | apply =>
          have untaken := (foreign (State.apply_effect step).1).2.2 i within
          rw [tx_eq] at untaken
          exact (untaken rfl).elim
  | settle _ _ _ author =>
      cases amounts with
      | apply =>
          have other := (foreign (State.apply_effect step).1).2.1
          rcases records.provider before_eq with unclaimed | claimed
          · cases unclaimed.symm.trans author
          · exact (other (Option.some.inj (author.symm.trans claimed))).elim
  | audit _ => cases amounts
  | @convict params sub settled =>
      -- The verdict would slash a task of the worker.
      have consistent := phases.consistent
      have consistent' := (step.preserves InPhase Event.inPhase phases).consistent
      have slashed : job.task i ∈ inner'.state.slashed :=
        (consistent'.slashed _).mpr ⟨_, after_eq, rfl⟩
      rcases records.provider before_eq with unclaimed | claimed
      · have unsettled := (consistent.provider _ sub before_eq).mp unclaimed
        cases settled.symm.trans unsettled
      · have offends := State.offender_eq_some.mpr ⟨_, after_eq, claimed⟩
        exact (blameless.unslashed _ offends slashed).elim

omit [Runtime] in
/-- Others do not sign as the worker. -/
theorem NodeOp.Foreign.others (foreign : op.Foreign job inner) {id : Identity}
    (own : id = job.asker ∨ id = job.worker) {stx : SignedTx} (submits : op = .submit stx)
    (verified : stx.verifySig = .ok true) : stx.author ≠ id := by
  subst submits
  obtain ⟨asker, worker, _⟩ := foreign verified
  rcases own with rfl | rfl
  · exact asker
  · exact worker

theorem NodeOp.Foreign.fairTo (foreign : op.Foreign job inner) {id : Identity}
    (own : id = job.asker ∨ id = job.worker) : op.FairTo node id inner := by
  cases op with
  | submit stx => exact fun author verified => (foreign.others own rfl verified author).elim
  | putBlob bytes => exact foreign.1
  | resolvePendingChallenge task => trivial
  | advanceEpoch => trivial

namespace Job

/-- A call which is fair to both keys, and stores nothing that collides with a payload of the job,
keeps what is stored of the job. -/
theorem Store.changes {uploaded : ℕ} (store : Store job node uploaded inner)
    (changes : Changes node inner op inner') (fair_asker : op.FairTo node job.asker inner)
    (fair_worker : op.FairTo node job.worker inner)
    (harmless : ∀ bytes, op = .putBlob bytes → ∀ payload ∈ job.payloads,
      contentId payload = contentId bytes → payload = bytes) : Store job node uploaded inner' where
  sound := changes.sound store.sound
  asker := store.asker.changes store.sound fair_asker changes
  worker := store.worker.changes store.sound fair_worker changes
  pristine payload member := by
    cases changes with
    | idle => exact store.pristine payload member
    | accept admits => rw [admits.step.2.2]; exact store.pristine payload member
    | decide decides =>
        rw [(applyVerdict_step decides.applied).2.2]; exact store.pristine payload member
    | cross crossed => rw [(crossEpoch_step crossed).2.2]; exact store.pristine payload member
    | store bytes =>
        rw [NodeInner.putBlob, getElem?_insert]
        split
        · rintro stored ⟨⟩
          exact (harmless bytes rfl payload member ‹_›).symm
        · exact store.pristine payload member
  uploads payload member := changes.blob_kept fair_asker (store.uploads payload member)

/-- Others keep the books of a job. -/
theorem Books.foreign {uploaded : ℕ} (books : job.Books funds counts inner.state)
    (store : Store job node uploaded inner) (foreign : op.Foreign job inner)
    (changes : Changes node inner op inner') : job.Books funds counts inner'.state := by
  have fair {id : Identity} (own : id = job.asker ∨ id = job.worker) :
      op.FairTo node id inner := foreign.fairTo own
  rcases changes.amounts with same | ⟨ledgerOp, amounts, step⟩
  · rw [same]
    exact books
  · have phases := store.sound.ledger.inPhase
    have asker := step.respects
      (store.asker.byOthers amounts (fun _ => foreign.others (.inl rfl)) step)
    have worker := step.respects
      (store.worker.byOthers amounts (fun _ => foreign.others (.inr rfl)) step)
    have blameless := store.worker.changes store.sound (fair (.inr rfl)) changes
    have spent := books.spent
    have earned := books.earned
    have kept_asker := asker.balance
    have kept_worker := worker.balance
    exact
      { books with
        askerNonce := by rw [asker.nonce, books.askerNonce]
        workerNonce := by rw [worker.nonce, books.workerNonce]
        spent := by omega
        earned := by omega
        records := fun i within =>
          (books.records i within).kept
            (foreign.tasks_kept amounts step phases blameless (books.records i within) within)
            (step.extends phases _) }

/-- Others keep the progress of a job. -/
theorem Progress.foreign (progress : job.Progress node funds counts inner)
    (foreign : op.Foreign job inner) (changes : Changes node inner op inner') :
    job.Progress node funds counts inner' where
  toStore := progress.toStore.changes changes (foreign.fairTo (.inl rfl))
    (foreign.fairTo (.inr rfl)) fun bytes stores payload member same => by
      subst stores
      exact foreign.2 payload member same
  books := progress.books.foreign progress.toStore foreign changes

end Job

end Foreign

/-! ## What the worker moves -/

section Own

variable [Crypto] {s s' : State} {stx : SignedTx} {params : Params}

/-- An accepted transaction counts the nonce of its author. -/
theorem Step.counts_nonce (step : Step s (.apply stx params) s') (id : Identity) :
    ((s'.nonces[id]?).getD 0).toNat =
      ((s.nonces[id]?).getD 0).toNat + if stx.author = id then 1 else 0 := by
  obtain ⟨_, expected, next, next_eq, payload⟩ := State.apply_effect step
  rw [payload.nonces_eq, getElem?_insert]
  by_cases same : id = stx.author
  · subst same
    rw [if_pos rfl, if_pos rfl, Option.getD_some, next_eq, expected]
  · rw [if_neg same, if_neg (Ne.symm same), add_zero]

variable [Keys] [Runtime] {job : Job} {node : NodeHandle} {funds : State} {counts : Counts}

namespace Job

omit [Keys] [Runtime] in
theorem taskId (i : ℕ) : (job.body i).taskId = .ok (job.task i) :=
  hashCanonical_eq_ok.mpr ⟨rfl, rfl⟩

omit [Crypto] [Keys] [Runtime] in
theorem fee_eq : Params.devnet.fee Worker.taskLimits.maxUcu = .ok fee := by decide +kernel

/-- One task moves on, and the others stay. -/
theorem Books.move (running : job.Running node funds) (books : job.Books funds counts s) {i : ℕ}
    (within : i < job.count) {view : View} {counts' : Counts}
    (views : ∀ probe, s'.view probe = if probe = job.task i then view else s.view probe)
    (stages : ∀ j, j ≠ i → counts'.stage j = counts.stage j)
    (moved : s'.view (job.task i) = view → job.Records s' i (counts'.stage i)) :
    ∀ j < job.count, job.Records s' j (counts'.stage j) := by
  intro j within'
  by_cases same : j = i
  · subst same
    exact moved ((views _).trans (if_pos rfl))
  · have other : job.task j ≠ job.task i := fun collide =>
      same (running.distinct j within' i within collide)
    have view_eq : s'.view (job.task j) = s.view (job.task j) := (views _).trans (if_neg other)
    rw [stages j same]
    exact (books.records j within').kept (congrArg View.sub view_eq) (view_eq ▸ .refl _)

omit [Runtime] in
theorem Books.waiting (books : job.Books funds counts s) (within : counts.submitted < job.count) :
    s.tasks[job.task counts.submitted]? = none := by
  have records := books.records counts.submitted within
  rwa [Counts.stage_waiting books.proved_le books.claimed_le] at records

omit [Runtime] in
theorem Books.submitted (books : job.Books funds counts s) (within : counts.submitted ≤ job.count)
    (waiting : counts.claimed < counts.submitted) :
    job.Recorded s counts.claimed .submitted none := by
  have records := books.records counts.claimed (waiting.trans_le within)
  rwa [Counts.stage_submitted books.proved_le waiting] at records

omit [Runtime] in
theorem Books.executing (books : job.Books funds counts s) (within : counts.submitted ≤ job.count)
    (executing : counts.proved < counts.claimed) :
    job.Recorded s counts.proved .executing (some job.worker) := by
  have records := books.records counts.proved
    ((executing.trans_le books.claimed_le).trans_le within)
  rwa [Counts.stage_executing executing] at records

omit [Runtime] in
theorem Books.settled (books : job.Books funds counts s) {i : ℕ} (settled : i < counts.proved)
    (within : i < job.count) : job.Records s i .settled := by
  have records := books.records i within
  rwa [Counts.stage_settled settled] at records

/-- A task which is submitted. -/
theorem Books.submit (running : job.Running node funds) (books : job.Books funds counts s)
    (within : counts.submitted < job.count) (author : stx.author = job.asker)
    (tx_eq : stx.tx = .submitTask (job.body counts.submitted))
    (step : Step s (.apply stx .devnet) s') :
    job.Books funds { counts with submitted := counts.submitted + 1 } s' := by
  have apart := running.apart
  have proved_le := books.proved_le
  have claimed_le := books.claimed_le
  have asker_nonce := step.counts_nonce job.asker
  have worker_nonce := step.counts_nonce job.worker
  rw [author, if_pos rfl, books.askerNonce] at asker_nonce
  rw [author, if_neg apart, books.workerNonce] at worker_nonce
  obtain ⟨_, _, next, _, payload⟩ := State.apply_effect step
  rw [author, tx_eq] at payload
  have enriched := (payload.enriches apart).balance
  cases payload with
  | @submitTask _ task fee' _ submits =>
      obtain rfl : job.task counts.submitted = task :=
        Except.ok.inj ((taskId _).symm.trans submits.taskId)
      obtain rfl : fee = fee' := Except.ok.inj (fee_eq.symm.trans submits.fee_eq)
      have posted : (s'.acct job.asker).balance.toNat + need =
          (s.acct job.asker).balance.toNat := by
        have posted := submits.posts.apply (.balance job.asker)
        simp only [State.book_balance, single_apply, reduceCtorEq, if_true, if_false,
          add_zero] at posted
        exact posted
      exact
        { proved_le
          claimed_le := Nat.le_succ_of_le claimed_le
          askerNonce := asker_nonce
          workerNonce := worker_nonce
          spent := by
            have spent := books.spent
            simp only [Nat.sub_add_comm (proved_le.trans claimed_le), Nat.succ_mul]
            omega
          earned := books.earned.trans (Nat.add_le_add_right enriched _)
          records := by
            refine books.move running within submits.view (fun j other => ?_) fun view => ?_
            · simp only [Counts.stage]
              grind
            · rw [show Counts.stage { counts with submitted := counts.submitted + 1 }
                counts.submitted = .submitted by simp only [Counts.stage]; grind]
              exact ⟨congrArg View.body view, _, congrArg View.sub view, rfl, rfl, rfl, rfl⟩ }

/-- A task which is claimed. -/
theorem Books.claim (running : job.Running node funds) (books : job.Books funds counts s)
    (within : counts.submitted ≤ job.count) (waiting : counts.claimed < counts.submitted)
    (author : stx.author = job.worker) (tx_eq : stx.tx = .claimTask (job.task counts.claimed))
    (step : Step s (.apply stx .devnet) s') :
    job.Books funds { counts with claimed := counts.claimed + 1 } s' := by
  have apart := running.apart
  have proved_le := books.proved_le
  have asker_nonce := step.counts_nonce job.asker
  have worker_nonce := step.counts_nonce job.worker
  rw [author, if_neg apart.symm, books.askerNonce] at asker_nonce
  rw [author, if_pos rfl, books.workerNonce] at worker_nonce
  have submitted := books.submitted within waiting
  obtain ⟨found, found_eq, _, _, requester, fee_eq⟩ := submitted.sub
  obtain ⟨_, _, next, _, payload⟩ := State.apply_effect step
  rw [author, tx_eq] at payload
  have enriched := (payload.enriches apart.symm).balance
  cases payload with
  | @claimTask _ body sub staked _ claims =>
      obtain rfl : job.body counts.claimed = body :=
        Option.some.inj (submitted.body.symm.trans claims.body_eq)
      obtain rfl : found = sub := Option.some.inj (found_eq.symm.trans claims.sub_eq)
      have staked_le : staked.toNat ≤ stake := claimStake_le claims.stake_eq
      have posted : (s'.acct job.worker).balance.toNat + staked.toNat =
          (s.acct job.worker).balance.toNat := by
        have posted := claims.posts.apply (.balance job.worker)
        simp only [State.book_balance, single_apply, reduceCtorEq, if_true, if_false,
          add_zero] at posted
        exact posted
      exact
        { proved_le := Nat.le_succ_of_le proved_le
          claimed_le := waiting
          askerNonce := asker_nonce
          workerNonce := by
            rw [worker_nonce]
            simp only
            omega
          spent := by
            have spent := books.spent
            have kept : (s.acct job.asker).balance.toNat ≤ (s'.acct job.asker).balance.toNat :=
              enriched
            simp only
            omega
          earned := by
            have earned := books.earned
            simp only [Nat.succ_mul]
            omega
          records := by
            refine books.move running (waiting.trans_le within) claims.view
              (fun j other => ?_) fun view => ?_
            · simp only [Counts.stage]
              grind
            · rw [show Counts.stage { counts with claimed := counts.claimed + 1 }
                counts.claimed = .executing by simp only [Counts.stage]; grind]
              exact ⟨(congrArg View.body view).trans submitted.body, _, congrArg View.sub view,
                rfl, rfl, requester, fee_eq⟩ }

/-- A task which is proved. -/
theorem Books.prove (running : job.Running node funds) (books : job.Books funds counts s)
    (within : counts.submitted ≤ job.count) (executing : counts.proved < counts.claimed)
    (author : stx.author = job.worker) (tx_eq : stx.tx = .submitProof (job.proof counts.proved))
    (step : Step s (.apply stx .devnet) s') :
    job.Books funds { counts with proved := counts.proved + 1 } s' := by
  have apart := running.apart
  have claimed_le := books.claimed_le
  have proving := (executing.trans_le claimed_le).trans_le within
  have asker_nonce := step.counts_nonce job.asker
  have worker_nonce := step.counts_nonce job.worker
  rw [author, if_neg apart.symm, books.askerNonce] at asker_nonce
  rw [author, if_pos rfl, books.workerNonce] at worker_nonce
  have claimed := books.executing within executing
  obtain ⟨found, found_eq, _, provider, requester, fee_eq⟩ := claimed.sub
  obtain ⟨_, _, next, _, payload⟩ := State.apply_effect step
  rw [author, tx_eq] at payload
  have metered := BitVec.le_def.mp (running.within _ proving)
  cases payload with
  | @submitProof _ body sub receipt record _ settles =>
      obtain rfl : job.body counts.proved = body :=
        Option.some.inj (claimed.body.symm.trans settles.body_eq)
      obtain rfl : found = sub := Option.some.inj (found_eq.symm.trans settles.sub_eq)
      have refunded : (s'.acct job.asker).balance.toNat =
          (s.acct job.asker).balance.toNat +
            (Worker.taskLimits.maxUcu.toNat - (job.outcome counts.proved).ucuCount.toNat) := by
        have posted := settles.posts.apply (.balance job.asker)
        simp [State.book_balance, requester, apart.symm] at posted
        exact posted
      have paid : (s.acct job.worker).balance.toNat +
          (job.outcome counts.proved).ucuCount.toNat ≤ (s'.acct job.worker).balance.toNat := by
        have posted := settles.posts.apply (.balance job.worker)
        simp [State.book_balance, requester, apart] at posted
        change _ = (s.acct job.worker).balance.toNat +
          ((job.outcome counts.proved).ucuCount.toNat + receipt.workIssuance.toNat) at posted
        omega
      exact
        { proved_le := executing
          claimed_le
          askerNonce := asker_nonce
          workerNonce := by
            rw [worker_nonce]
            simp only
            omega
          spent := by
            have spent := books.spent
            have rest : counts.submitted - counts.proved =
              counts.submitted - (counts.proved + 1) + 1 := by omega
            simp only [sum_range_succ]
            rw [rest, Nat.succ_mul] at spent
            have need_eq : need = Worker.taskLimits.maxUcu.toNat + fee.toNat := rfl
            omega
          earned := by
            have earned := books.earned
            simp only [sum_range_succ]
            omega
          records := by
            refine books.move running proving settles.view (fun j other => ?_) fun view => ?_
            · simp only [Counts.stage]
              grind
            · rw [Counts.stage_settled (Nat.lt_succ_self counts.proved)]
              exact ⟨⟨(congrArg View.body view).trans claimed.body, _, congrArg View.sub view, rfl,
                provider, requester, fee_eq⟩, congrArg View.proof view, congrArg View.entry view⟩ }

/-! ## What the ledger accepts of a job -/

variable {reason : Reject}

/-- The first tasks of a job cost no more than what is escrowed for them. -/
theorem Running.paid_le (running : job.Running node funds) {proved : ℕ}
    (within : proved ≤ job.count) :
    ∑ i ∈ range proved, ((job.outcome i).ucuCount.toNat + fee.toNat) ≤ proved * need := by
  refine (sum_le_card_nsmul _ _ need fun i member => ?_).trans_eq (by simp)
  have proving := (mem_range.mp member).trans_le within
  exact Nat.add_le_add_right (BitVec.le_def.mp (running.within i proving)) _

/-- The requester can pay for its next task. -/
theorem Books.need_le (running : job.Running node funds) (books : job.Books funds counts s)
    (within : counts.submitted < job.count) : need ≤ (s.acct job.asker).balance.toNat := by
  have proved_le := books.proved_le.trans books.claimed_le
  have paid := running.paid_le (proved_le.trans within.le)
  have covered := (Nat.mul_le_mul_right need within).trans (running.funded.trans books.spent)
  have split : counts.proved * need + (counts.submitted - counts.proved) * need =
      counts.submitted * need := by rw [← Nat.add_mul, Nat.add_sub_cancel' proved_le]
  rw [Nat.succ_mul] at covered
  omega

/-- The provider can stake on its next task. -/
theorem Books.stake_le (running : job.Running node funds) (books : job.Books funds counts s)
    (within : counts.claimed < job.count) : stake ≤ (s.acct job.worker).balance.toNat := by
  have covered := (Nat.mul_le_mul_right stake within).trans
    (running.staked.trans ((Nat.le_add_right ..).trans books.earned))
  rw [Nat.succ_mul] at covered
  omega

theorem Books.submit_accepted (running : job.Running node funds) (books : job.Books funds counts s)
    (within : counts.submitted < job.count) (verified : stx.verifySig = .ok true)
    (author : stx.author = job.asker) (nonce : stx.nonce.toNat = counts.submitted)
    (tx_eq : stx.tx = .submitTask (job.body counts.submitted)) :
    ¬(s.apply stx .devnet).Rejects reason := by
  have fresh := books.waiting within
  have payable := books.need_le running within
  refine State.apply_accepts verified (BitVec.eq_of_toNat_eq ?_) fun next => ?_
  · rw [nonce, author, books.askerNonce]
  · rw [tx_eq, author]
    exact State.submitTask_accepts rfl (taskId _) fresh fee_eq payable

theorem Books.claim_accepted (running : job.Running node funds) (books : job.Books funds counts s)
    (within : counts.submitted ≤ job.count) (waiting : counts.claimed < counts.submitted)
    (verified : stx.verifySig = .ok true) (author : stx.author = job.worker)
    (nonce : stx.nonce.toNat = counts.claimed + counts.proved)
    (tx_eq : stx.tx = .claimTask (job.task counts.claimed)) :
    ¬(s.apply stx .devnet).Rejects reason := by
  have claiming := waiting.trans_le within
  have submitted := books.submitted within waiting
  have stakeable := books.stake_le running claiming
  obtain ⟨sub, sub_eq, status, _⟩ := submitted.sub
  refine State.apply_accepts verified (BitVec.eq_of_toNat_eq ?_) fun next => ?_
  · rw [nonce, author, books.workerNonce]
  · rw [tx_eq, author]
    refine State.claimTask_accepts submitted.body sub_eq status ?_ fun staked stake_eq => ?_
    · have small := s.epoch.isLt
      rw [BitVec.le_def, show (job.body counts.claimed).deadline = BitVec.allOnes 64 from rfl,
        BitVec.toNat_allOnes]
      exact Nat.le_sub_one_of_lt small
    · exact BitVec.le_def.mpr ((claimStake_le stake_eq).trans stakeable)

theorem Books.prove_accepted (running : job.Running node funds) (books : job.Books funds counts s)
    (within : counts.submitted ≤ job.count) (executing : counts.proved < counts.claimed)
    (verified : stx.verifySig = .ok true) (author : stx.author = job.worker)
    (nonce : stx.nonce.toNat = counts.claimed + counts.proved)
    (tx_eq : stx.tx = .submitProof (job.proof counts.proved)) :
    ¬(s.apply stx .devnet).Rejects reason := by
  have proving := (executing.trans_le books.claimed_le).trans_le within
  have claimed := books.executing within executing
  obtain ⟨sub, sub_eq, status, provider, _⟩ := claimed.sub
  refine State.apply_accepts verified (BitVec.eq_of_toNat_eq ?_) fun next => ?_
  · rw [nonce, author, books.workerNonce]
  · rw [tx_eq, author]
    exact State.submitProof_accepts claimed.body sub_eq status provider rfl
      (running.within _ proving) rfl

end Job

end Own

end Ducp
