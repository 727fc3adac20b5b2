import Ducp.Library.Linear
import Ducp.Node.Blobs

/-!
# Concurrent calls

The server runs the methods of one node in parallel.  Each method is one critical section, with what
it computes before and after, except the resolution of a challenge, which is two.  Whatever order
the sections of concurrent calls take, the calls are answered as if each had been made alone.
-/

namespace Ducp

open Guarded

/-! ## Methods and their sections -/

/-- A read of the node. -/
inductive Query
  | account (id : Identity)
  | standing (id : Identity)
  | head
  | task (task : TaskId)
  | qEntry (task : TaskId)
  | claimStake (task : TaskId)
  | block (height : BitVec 64)
  | blockTxs (height : BitVec 64)
  | blob (id : ContentId)
  | estimate (program input : ContentId)

/-- One call of a method. -/
inductive Method
  | change (op : NodeOp)
  | ask (query : Query)

/-- How a call ends: it returns, reports an error, or panics. -/
inductive Answer
  | submitted (ending : Checked (Except Reject TxId))
  | resolved (ending : Checked (Except Reject Bool))
  | advanced (ending : Checked (Except Reject PUnit))
  | stored (ending : Checked (Except Reject ContentId))
  | account (ending : Checked (Except Reject AccountView))
  | standing (ending : Checked (Except Reject StandingView))
  | head (ending : Checked (Except Reject HeadView))
  | task (ending : Checked (Except Reject (Option TaskView)))
  | qEntry (ending : Checked (Except Reject (Option QLedgerEntry)))
  | claimStake (ending : Checked (Except ErrorObject Ucu))
  | block (ending : Checked (Except Reject (Option Block)))
  | blockTxs (ending : Checked (Except Reject (Option (List SignedTx))))
  | blob (ending : Checked (Except Reject (Option (List UInt8))))
  | estimate (ending : Checked (Except EstimateError Ucu))

/-- How far a call has come: it has not entered the lock, or it has re-executed a proof. -/
inductive Progress
  | called (method : Method)
  | judged (task : TaskId) (fraud : Bool)

section Sections

variable [Crypto] [Runtime] [Hex] (node : NodeHandle)

/-- Report how a computation has ended. -/
def reported {ε α : Type} (report : Checked (Except ε α) → Answer)
    (ended : Checked (Except ε α) × Lock NodeInner) : Answer × Lock NodeInner :=
  (report ended.1, ended.2)

/-- A read in one piece. -/
def Query.perform (lock : Lock NodeInner) : Query → Answer × Lock NodeInner
  | .account owner => reported .account (NodeHandle.accountView owner lock)
  | .standing owner => reported .standing (NodeHandle.standingView owner lock)
  | .head => reported .head (NodeHandle.head lock)
  | .task id => reported .task (NodeHandle.taskView id lock)
  | .qEntry id => reported .qEntry (NodeHandle.qEntry id lock)
  | .claimStake id => reported .claimStake (Guarded.read (Rpc.taskClaimStake id) lock)
  | .block height => reported .block (NodeHandle.blockAt height lock)
  | .blockTxs height => reported .blockTxs (NodeHandle.blockTxsAt height lock)
  | .blob id => reported .blob (NodeHandle.getBlob id lock)
  | .estimate program input => reported .estimate (node.estimate program input lock)

/-- A call in one piece. -/
def Method.perform (method : Method) (lock : Lock NodeInner) : Answer × Lock NodeInner :=
  match method with
  | .change (.submit stx) => reported .submitted (node.submit stx lock)
  | .change (.resolvePendingChallenge task) =>
      reported .resolved (node.resolvePendingChallenge task lock)
  | .change .advanceEpoch => reported .advanced (node.advanceEpoch lock)
  | .change (.putBlob bytes) => reported .stored (NodeHandle.putBlob bytes lock)
  | .ask query => query.perform node lock

/-- The first section of a resolution, and the re-execution after it. -/
def NodeHandle.judge (task : TaskId) : Guarded NodeInner Reject Bool := do
  let evidence ← Guarded.read (NodeInner.gather task)
  let program ← (Outcome.okOr evidence.program .unknownTask : Outcome Reject (List UInt8))
  let input ← (Outcome.okOr evidence.input .unknownTask : Outcome Reject (List UInt8))
  let outcome ← (liftM (SampledReexecVerifier.check evidence.proof program input
    evidence.body.limits node.benchmark) : Outcome Reject VerifyOutcome)
  return outcome.isFraud

/-- The second section of a resolution. -/
def NodeHandle.sentence (task : TaskId) (fraud : Bool) : Guarded NodeInner Reject Bool := do
  Guarded.update (node.applyVerdict task fraud)
  return fraud

/-- The node as an object whose calls are cut into critical sections. -/
def NodeHandle.sections : Sectioned (Lock NodeInner) Method Progress Answer where
  start := .called
  enter
    | .called (.change (.resolvePendingChallenge task)), lock =>
        match node.judge task lock with
        | (.ok (.ok fraud), lock) => (.inl (.judged task fraud), lock)
        | (.ok (.error reason), lock) => (.inr (.resolved (.ok (.error reason))), lock)
        | (.error fault, lock) => (.inr (.resolved (.error fault)), lock)
    | .called method, lock =>
        let (answer, lock) := method.perform node lock
        (.inr answer, lock)
    | .judged task fraud, lock =>
        let (answer, lock) := reported .resolved (node.sentence task fraud lock)
        (.inr answer, lock)

end Sections

/-! ## The two sections of a resolution -/

section Judgement

variable [Crypto] [Runtime] {node : NodeHandle} {before after : Lock NodeInner} {task : TaskId}
  {fraud : Bool}

/-- The evidence of a task is there, and its re-execution comes to a verdict. -/
def Judged (node : NodeHandle) (inner : NodeInner) (task : TaskId) (fraud : Bool) : Prop :=
  ∃ body proof program input outcome, Evidenced inner task body proof program input ∧
    SampledReexecVerifier.check proof program input body.limits node.benchmark = .ok outcome ∧
    outcome.isFraud = fraud

/-- A resolution is its two sections in sequence. -/
theorem resolve_eq_judge (node : NodeHandle) (task : TaskId) :
    node.resolvePendingChallenge task = node.judge task >>= node.sentence task := by
  simp only [NodeHandle.resolvePendingChallenge, NodeHandle.judge, NodeHandle.sentence, bind_assoc,
    pure_bind]

theorem judge_still : (node.judge task).Still :=
  still_read.bind fun _ => still_lift.bind fun _ => still_lift.bind fun _ =>
    still_lift.bind fun _ => still_pure

theorem judge_returns :
    (node.judge task).Returns before fraud after ↔
      before.poisoned = false ∧ Judged node before.state task fraud ∧ after = before := by
  simp only [NodeHandle.judge, returns_bind, returns_read, returns_lift, Outcome.returns_okOr,
    Outcome.returns_lift, returns_pure]
  constructor
  · rintro ⟨evidence, _, ⟨free, gathered, rfl⟩, program, _, ⟨program_eq, rfl⟩, input, _,
      ⟨input_eq, rfl⟩, outcome, _, ⟨checked, rfl⟩, verdict, rfl⟩
    obtain ⟨body_eq, proof_eq, found, found'⟩ := gather_eq_ok gathered
    exact ⟨free, ⟨_, _, program, input, outcome,
      ⟨body_eq, proof_eq, found ▸ program_eq, found' ▸ input_eq⟩, checked, verdict⟩, rfl⟩
  · rintro ⟨free, ⟨_, _, program, input, outcome, evidenced, checked, verdict⟩, rfl⟩
    exact ⟨_, _, ⟨free, evidenced.gather, rfl⟩, program, _, ⟨rfl, rfl⟩, input, _, ⟨rfl, rfl⟩,
      outcome, _, ⟨checked, rfl⟩, verdict, rfl⟩

/-- Where the verdict still stands, the second section does what a whole resolution does. -/
theorem sentence_eq (judged : Judged node before.state task fraud) :
    node.sentence task fraud before = node.resolvePendingChallenge task before := by
  rw [resolve_eq_judge]
  cases free : before.poisoned with
  | false =>
      have returned : node.judge task before = (.ok (.ok fraud), before) :=
        judge_returns.mpr ⟨free, judged, rfl⟩
      simp only [bind, returned]
  | true =>
      have entered : (Guarded.read (NodeInner.gather task) : Guarded NodeInner Reject Evidence)
          before = (.error .poisoned, before) := ends_read.mpr ⟨rfl, .inl ⟨free, rfl⟩⟩
      have updated : (update (node.applyVerdict task fraud) : Guarded NodeInner Reject PUnit)
          before = (.error .poisoned, before) := ends_update.mpr (.inl ⟨free, rfl, rfl⟩)
      simp only [NodeHandle.judge, NodeHandle.sentence, bind, entered, updated]

end Judgement

/-! ## Linearization -/

section Simulation

variable [Crypto] [Runtime] [Hex] {node : NodeHandle} {before after : Lock NodeInner}

/-- A call in progress may still be made in one piece: it has not begun, or its verdict stands. -/
def Apt (node : NodeHandle) (lock : Lock NodeInner) (method : Method) : Progress → Prop
  | .called called => called = method
  | .judged task fraud => method = .change (.resolvePendingChallenge task) ∧
      Judged node lock.state task fraud

/-- A read leaves the guarded state as it is. -/
theorem Query.perform_state (query : Query) (lock : Lock NodeInner) :
    (query.perform node lock).2.state = lock.state := by
  have quiet {ε α : Type} {action : Guarded NodeInner ε α} (report : Checked (Except ε α) → Answer)
      (still : action.Still) : (reported report (action lock)).2.state = lock.state :=
    congrArg Lock.state (still lock)
  have entry {α : Type} (entries : NodeInner → List α) (height : BitVec 64) :
      (NodeHandle.entryAt entries height : Guarded NodeInner Reject (Option α)).Still := by
    rw [NodeHandle.entryAt]
    split
    · exact still_pure
    · exact still_read
  cases query with
  | account owner => exact quiet .account still_read
  | standing owner => exact quiet .standing still_read
  | head =>
      obtain ⟨ending, ends⟩ := Leaves.ends
        (rfl : (NodeHandle.head : Guarded NodeInner Reject HeadView).Leaves lock _)
      change (NodeHandle.head lock : _ × Lock NodeInner).2.state = lock.state
      rw [NodeHandle.head] at ends ⊢
      rcases ends_locked.mp ends with ⟨_, _, after_eq⟩ | ⟨_, _, _, hashed, _, after_eq⟩ |
        ⟨_, _, _, _, after_eq⟩
      · rw [after_eq]
      · obtain ⟨root, _, hashed⟩ := Checked.bind_eq_ok.mp hashed
        rw [after_eq, ← (Prod.mk.inj (Checked.pure_eq_ok.mp hashed)).2]
      · rw [after_eq]
  | task id => exact quiet .task still_read
  | qEntry id => exact quiet .qEntry still_read
  | claimStake id => exact quiet .claimStake still_read
  | block height => exact quiet .block (entry _ height)
  | blockTxs height => exact quiet .blockTxs (entry _ height)
  | blob id => exact quiet .blob still_read
  | estimate program input =>
      exact quiet .estimate (still_read.bind fun _ => still_lift.bind fun _ =>
        still_lift.bind fun _ => still_lift)

/-- The payload of a call is one of those which some turns store. -/
def Method.Stocked (turns : List Turn) (method : Method) : Prop :=
  ∀ bytes, method = .change (.putBlob bytes) → bytes ∈ payloads turns

/-- A call in one piece is a turn, which stores no payload but its own. -/
theorem Method.progresses (node : NodeHandle) (method : Method) {lock : Lock NodeInner}
    (idle : lock.state.mempool = []) :
    ∃ turn, (∀ bytes, turn = .call (.putBlob bytes) → method = .change (.putBlob bytes)) ∧
      Progresses turn lock.state (method.perform node lock).2.state := by
  cases method with
  | change op =>
      have takes : (Turn.call op).Takes node lock (Method.perform node (.change op) lock).2 := by
        cases op <;> rfl
      exact ⟨.call op, fun bytes same => by cases same; rfl, takes.progresses idle⟩
  | ask query =>
      refine ⟨.call .advanceEpoch, by simp, ?_⟩
      rw [Method.perform, query.perform_state]
      exact .idle

omit [Crypto] [Runtime] [Hex] in
theorem payloads_snoc_subset {turns : List Turn} {turn : Turn} {method : Method}
    (stocked : method.Stocked turns)
    (own : ∀ bytes, turn = .call (.putBlob bytes) → method = .change (.putBlob bytes)) :
    payloads (turns ++ [turn]) ⊆ payloads turns := by
  intro bytes member
  rcases List.mem_append.mp member with old | new
  · exact old
  · exact stocked bytes (own bytes (List.mem_singleton.mp new).symm)

/-- Only the first section of a resolution does not end its call. -/
theorem enter_eq_inl {progress progress' : Progress}
    (entered : node.sections.enter progress before = (.inl progress', after)) :
    ∃ task fraud, progress = .called (.change (.resolvePendingChallenge task)) ∧
      progress' = .judged task fraud ∧ (node.judge task).Returns before fraud after := by
  cases progress with
  | judged task fraud => cases entered
  | called method =>
      cases method with
      | ask query => cases entered
      | change op =>
          cases op with
          | resolvePendingChallenge task =>
              simp only [NodeHandle.sections] at entered
              split at entered
              · rename_i fraud lock judged
                cases entered
                exact ⟨task, fraud, rfl, rfl, judged⟩
              · cases entered
              · cases entered
          | submit stx => cases entered
          | advanceEpoch => cases entered
          | putBlob bytes => cases entered

/-- The first section ends a call as the call would end in one piece. -/
theorem enter_eq_inr {method : Method} {answer : Answer}
    (entered : node.sections.enter (.called method) before = (.inr answer, after)) :
    method.perform node before = (answer, after) := by
  have whole {result : Answer × Lock NodeInner}
      (ended : ((.inr result.1, result.2) : (Progress ⊕ Answer) × Lock NodeInner) =
        (.inr answer, after)) : result = (answer, after) := by
    obtain ⟨answer_eq, after_eq⟩ := Prod.mk.inj ended
    exact Prod.ext (Sum.inr.inj answer_eq) after_eq
  cases method with
  | ask query => exact whole entered
  | change op =>
      cases op with
      | submit stx => exact whole entered
      | advanceEpoch => exact whole entered
      | putBlob bytes => exact whole entered
      | resolvePendingChallenge task =>
          simp only [NodeHandle.sections] at entered
          rw [Method.perform, reported, resolve_eq_judge]
          split at entered
          · cases entered
          · rename_i reason lock stopped
            cases entered
            simp only [bind, stopped]
          · rename_i fault lock stopped
            cases entered
            simp only [bind, stopped]

/-- Unless payloads collide, the sections of the node simulate calls in one piece. -/
theorem sections_simulate {turns : List Turn}
    (collisionFree : Set.InjOn contentId (payloads turns)) :
    node.sections.Simulates (Method.perform node) (Method.Stocked turns)
      (fun lock => Addressed turns lock.state) (Apt node) where
  start _ := rfl
  proceed {lock lock' method progress progress'} _ fits entered := by
    obtain ⟨task, fraud, rfl, rfl, returned⟩ := enter_eq_inl entered
    obtain rfl : _ = method := fits
    obtain ⟨_, judged, rfl⟩ := judge_returns.mp returned
    exact ⟨rfl, rfl, judged⟩
  finish {lock lock' method progress answer} _ fits entered := by
    cases progress with
    | called called =>
        obtain rfl : called = method := fits
        exact enter_eq_inr entered
    | judged task fraud =>
        obtain ⟨rfl, judged⟩ := fits
        have ended : (.inr (reported .resolved (node.sentence task fraud lock)).1,
            (reported .resolved (node.sentence task fraud lock)).2) =
              ((.inr answer, lock') : (Progress ⊕ Answer) × Lock NodeInner) := entered
        rw [sentence_eq judged] at ended
        obtain ⟨answer_eq, rfl⟩ := Prod.mk.inj ended
        obtain rfl := Sum.inr.inj answer_eq
        rfl
  kept {lock method} held stocked := by
    obtain ⟨turn, own, progresses⟩ := method.progresses node held.sound.mempool
    have within := payloads_snoc_subset stocked own
    have next := held.progresses progresses
    exact ⟨next.sound, fun id bytes found =>
      ⟨(next.stored id bytes found).1, within (next.stored id bytes found).2⟩⟩
  stable {lock method other progress} held stocked fits := by
    cases progress with
    | called called => exact fits
    | judged task fraud =>
        obtain ⟨turn, own, progresses⟩ := method.progresses node held.sound.mempool
        have within := payloads_snoc_subset stocked own
        obtain ⟨same, body, proof, program, input, outcome, evidenced, checked⟩ := fits
        exact ⟨same, body, proof, program, input, outcome,
          evidenced.kept held progresses (collisionFree.mono within), checked⟩

/-- The changes which have been asked for. -/
def invokedOps (events : List (Sectioned.Event Method Answer)) : List NodeOp :=
  events.filterMap fun
    | .invoke _ (.change op) => some op
    | _ => none

omit [Crypto] [Runtime] [Hex] in
theorem stocked_of_invoked {events : List (Sectioned.Event Method Answer)} {caller : ℕ}
    {method : Method} (invoked : .invoke caller method ∈ events) :
    method.Stocked ((invokedOps events).map .call) := by
  rintro bytes rfl
  have asked : NodeOp.putBlob bytes ∈ invokedOps events :=
    List.mem_filterMap.mpr ⟨_, invoked, rfl⟩
  exact List.mem_map_of_mem asked

/-- Any number of callers may call the methods of a node at once, and a resolution may let go of the
lock while it re-executes.  Unless two payloads collide, there is one sequential order of the calls
which respects real time, leaves the node as the concurrent calls do, and answers each of them the
same. -/
theorem node_linearizable {proposer : Identity} {allocations : List (Identity × Ucu)}
    {start : Lock NodeInner} {events : List (Sectioned.Event Method Answer)}
    {scene : Sectioned.Scene (Lock NodeInner) Method Progress Answer}
    (opened : NodeHandle.new proposer allocations = .ok (node, start))
    (run : Run node.sections.Takes (.quiet start) events scene)
    (collisionFree : Set.InjOn contentId (storedBy (invokedOps events))) :
    ∃ log, Run (Sectioned.Performs (Method.perform node)) start log scene.shared ∧
      Sectioned.Explains events log := by
  have initial : Addressed ((invokedOps events).map .call) start.state := by
    have fresh := new_addressed opened
    exact ⟨fresh.sound, fun id bytes found =>
      ⟨(fresh.stored id bytes found).1, by simpa [payloads] using (fresh.stored id bytes found).2⟩⟩
  exact (sections_simulate collisionFree).linearizable initial
    (fun _ _ invoked => stocked_of_invoked invoked) run

end Simulation

section Sample

open Sample

attribute [local instance] Crypto.checksum Runtime.echo Hex.lower

/-- A call which takes one section is made at once. -/
theorem at_once (node : NodeHandle) (op : NodeOp)
    {scene : Sectioned.Scene (Lock NodeInner) Method Progress Answer} {caller : ℕ}
    (absent : scene.callers caller = .absent)
    (atomic : ∀ task, op ≠ .resolvePendingChallenge task) :
    ∃ scene', Run node.sections.Takes scene [.invoke caller (.change op), .enter caller] scene' ∧
      scene'.shared = op.perform node scene.shared ∧
      ∀ other, other ≠ caller → scene'.callers other = scene.callers other := by
  have entered : node.sections.enter (.called (.change op)) scene.shared =
      (.inr (Method.perform node (.change op) scene.shared).1, op.perform node scene.shared) := by
    cases op with
    | resolvePendingChallenge task => exact (atomic task rfl).elim
    | submit stx => rfl
    | advanceEpoch => rfl
    | putBlob bytes => rfl
  have invoked : node.sections.Takes scene (.invoke caller (.change op)) _ :=
    .invoke (.change op) absent
  have inside : (scene.move caller (.inside (.change op) (.called (.change op)))).callers caller =
      .inside (.change op) (.called (.change op)) := scene.move_self _ _
  refine ⟨_, (Run.single invoked).snoc (.finish inside entered), rfl, fun other apart => ?_⟩
  exact (Sectioned.Scene.move_of_ne _ _ apart).trans (scene.move_of_ne _ apart)

/-- Calls which take one section, one after the other. -/
theorem exists_history (node : NodeHandle) (lock : Lock NodeInner) (ops : List NodeOp)
    (atomic : ∀ op ∈ ops, ∀ task, op ≠ .resolvePendingChallenge task) :
    ∃ events scene, Run node.sections.Takes (.quiet lock) events scene ∧
      scene.shared = ops.foldl (NodeOp.perform node) lock ∧ invokedOps events = ops ∧
      ∀ caller, ops.length ≤ caller → scene.callers caller = .absent := by
  induction ops using List.reverseRecOn with
  | nil => exact ⟨[], _, .nil, rfl, rfl, fun _ _ => rfl⟩
  | append_singleton ops op ih =>
      obtain ⟨events, scene, run, shared, asked, idle⟩ :=
        ih fun op member => atomic op (List.mem_append_left _ member)
      obtain ⟨scene', called, shared', others⟩ :=
        at_once node op (idle ops.length le_rfl) (atomic op (by simp))
      refine ⟨_, scene', run.trans called, ?_, ?_, fun caller beyond => ?_⟩
      · rw [shared', shared, List.foldl_append]
        rfl
      · simp [invokedOps] at asked ⊢
        simp [asked]
      · simp only [List.length_append, List.length_singleton] at beyond
        rw [others caller (by omega), idle caller (by omega)]

/-- An epoch boundary falls between the two sections of a resolution. -/
def overlap : List (Sectioned.Event Method Answer) :=
  [.invoke 6 (.change (.resolvePendingChallenge echoTask)), .enter 6,
    .invoke 7 (.change .advanceEpoch), .enter 7, .enter 6, .respond 6 (.resolved (.ok (.ok false)))]

theorem node_linearizable_overlap :
    ∃ node start events scene log, NodeHandle.new alice funded = .ok (node, start) ∧
      Run node.sections.Takes (.quiet start) (events ++ overlap) scene ∧
      Run (Sectioned.Performs (Method.perform node)) start log scene.shared ∧
      Sectioned.Explains (events ++ overlap) log := by
  have ran : (nodeAfter challenged).any (fun ran =>
      (ran.1.judge echoTask ran.2.2).1 = .ok (.ok false) ∧
        (ran.1.sentence echoTask false (NodeOp.advanceEpoch.perform ran.1 ran.2.2)).1 =
          .ok (.ok false)) = true := by decide +kernel
  obtain ⟨⟨node, start, lock⟩, ran, ended⟩ := (Option.any_eq_true _ _).mp ran
  obtain ⟨judged, sentenced⟩ := of_decide_eq_true ended
  obtain ⟨opened, settled⟩ := nodeAfter_eq_some ran
  obtain ⟨events, scene, run, shared, asked, idle⟩ :=
    exists_history node start challenged (by simp [challenged, echoBlobs, echoSettled])
  obtain rfl : scene.shared = lock :=
    shared.trans (Run.of_foldl.unique (fun first second => first.symm.trans second) settled)
  let resolve := Method.change (.resolvePendingChallenge echoTask)
  let waiting := scene.move 6 (.inside resolve (.called resolve))
  have proceeds : node.sections.enter (.called resolve) scene.shared =
      (.inl (.judged echoTask false), scene.shared) := by
    have whole : node.judge echoTask scene.shared = (.ok (.ok false), scene.shared) :=
      Prod.ext judged (judge_still scene.shared)
    simp only [NodeHandle.sections, resolve, whole]
  let executing : Sectioned.Scene (Lock NodeInner) Method Progress Answer :=
    { waiting.move 6 (.inside resolve (.judged echoTask false)) with shared := scene.shared }
  have entered : Run node.sections.Takes scene [.invoke 6 resolve, .enter 6] executing :=
    (Run.single (.invoke resolve (idle 6 le_rfl))).snoc (.proceed (scene.move_self 6 _) proceeds)
  have still_idle : executing.callers 7 = .absent := by
    have apart : (7 : ℕ) ≠ 6 := by decide
    exact (waiting.move_of_ne _ apart).trans ((scene.move_of_ne _ apart).trans (idle 7 (by decide)))
  obtain ⟨crossed, crosses, crossed_shared, others⟩ :=
    at_once node .advanceEpoch still_idle (by simp)
  have inside : crossed.callers 6 = .inside resolve (.judged echoTask false) :=
    (others 6 (by decide)).trans (waiting.move_self 6 _)
  have finishes : node.sections.enter (.judged echoTask false) crossed.shared =
      (.inr (.resolved (.ok (.ok false))), (node.sentence echoTask false crossed.shared).2) := by
    rw [crossed_shared]
    exact Prod.ext (congrArg (Sum.inr ∘ Answer.resolved) sentenced) rfl
  let answered : Sectioned.Scene (Lock NodeInner) Method Progress Answer :=
    { crossed.move 6 (.answered resolve (.resolved (.ok (.ok false)))) with
      shared := (node.sentence echoTask false crossed.shared).2 }
  have finished : Run node.sections.Takes scene _ answered :=
    (entered.trans crosses).snoc (.finish inside finishes)
  have whole : Run node.sections.Takes (.quiet start) (events ++ overlap) _ :=
    run.trans (finished.snoc (.respond (crossed.move_self 6 _)))
  have collisionFree : Set.InjOn contentId (storedBy (invokedOps (events ++ overlap))) := by
    have invoked : invokedOps (events ++ overlap) =
        challenged ++ [.resolvePendingChallenge echoTask, .advanceEpoch] := by
      rw [invokedOps, List.filterMap_append]
      exact congrArg (· ++ _) asked
    rw [invoked]
    intro left left_mem right right_mem
    simp only [storedBy, payloads, challenged, echoBlobs, echoSettled, List.map_cons, List.map_nil,
      List.cons_append, List.nil_append, List.mem_cons, Set.mem_ofPred_eq, Turn.call.injEq,
      NodeOp.putBlob.injEq, reduceCtorEq, List.not_mem_nil, or_false] at left_mem right_mem
    rcases left_mem with rfl | rfl <;> rcases right_mem with rfl | rfl <;> decide
  obtain ⟨log, performed, explains⟩ := node_linearizable opened whole collisionFree
  exact ⟨node, start, events, _, log, opened, whole, performed, explains⟩

end Sample

end Ducp
