import Ducp.Ledger.Lifecycle
import Ducp.Node.Effects

/-!
# Re-execution outside the lock

A resolution reads its evidence in one critical section and applies the verdict in another.  Bodies
and proofs are written once and blobs are addressed by their content, so that whatever happens in
between, the second section would read the same evidence again.
-/

namespace Ducp

open Guarded MapSum Std

section Reexecution

variable [Crypto] [Runtime] {node : NodeHandle}

/-- What follows the first critical section of a resolution. -/
def NodeHandle.conclude (node : NodeHandle) (task : TaskId) (evidence : Evidence) :
    Guarded NodeInner Reject Bool := do
  let program ← (Outcome.okOr evidence.program .unknownTask : Outcome Reject (List UInt8))
  let input ← (Outcome.okOr evidence.input .unknownTask : Outcome Reject (List UInt8))
  let outcome ← (liftM (SampledReexecVerifier.check evidence.proof program input
    evidence.body.limits node.benchmark) : Outcome Reject VerifyOutcome)
  let fraud := outcome.isFraud
  Guarded.update (node.applyVerdict task fraud)
  return fraud

theorem resolvePendingChallenge_eq (node : NodeHandle) (task : TaskId) :
    node.resolvePendingChallenge task = read (NodeInner.gather task) >>= node.conclude task := rfl

/-- A turn of another thread: a whole call, or the second critical section of a resolution with
whatever verdict it has come to. -/
inductive Turn
  | call (op : NodeOp)
  | verdict (task : TaskId) (fraud : Bool)

/-- One turn. -/
def Turn.Takes (node : NodeHandle) (before : Lock NodeInner) (turn : Turn)
    (after : Lock NodeInner) : Prop :=
  match turn with
  | .call op => op.Performs node before after
  | .verdict task fraud =>
      (update (node.applyVerdict task fraud) : Guarded NodeInner Reject PUnit).Leaves before after

/-! ## What a turn can do -/

/-- A turn keeps the mempool, leaves the ledger alone or takes one step of it, and stores at most
its own payload. -/
structure Progresses (turn : Turn) (inner inner' : NodeInner) : Prop where
  mempool : inner'.mempool = inner.mempool
  ledger : inner'.state = inner.state ∨ ∃ op, Step inner.state op inner'.state
  blobs : inner'.blobs = inner.blobs ∨ ∃ bytes, turn = .call (.putBlob bytes) ∧
    inner'.blobs = inner.blobs.insert (contentId bytes) bytes

variable {turn : Turn} {inner inner' : NodeInner} {before after : Lock NodeInner}

omit [Runtime] in
theorem Progresses.idle : Progresses turn inner inner := ⟨rfl, .inl rfl, .inl rfl⟩

omit [Runtime] in
theorem Progresses.of_step {op : Op}
    (moved : Step inner.state op inner'.state ∧ inner'.mempool = inner.mempool ∧
      inner'.blobs = inner.blobs) : Progresses turn inner inner' :=
  ⟨moved.2.1, .inr ⟨op, moved.1⟩, .inl moved.2.2⟩

theorem Turn.Takes.progresses (idle : before.state.mempool = [])
    (takes : turn.Takes node before after) : Progresses turn before.state after.state := by
  cases turn with
  | call op =>
      have performs : op.Performs node before after := takes
      have changes := performs.changes idle
      generalize after.state = inner' at changes
      cases changes with
      | idle => exact .idle
      | accept admits => exact .of_step admits.step
      | decide decides => exact .of_step (applyVerdict_step decides.applied)
      | cross crossed => exact .of_step (crossEpoch_step crossed)
      | store bytes => exact ⟨rfl, .inl rfl, .inr ⟨bytes, rfl, rfl⟩⟩
  | verdict task fraud =>
      rcases update_leaves takes with same | applied
      · rw [same]
        exact .idle
      · exact .of_step (applyVerdict_step applied)

omit [Runtime] in
theorem Progresses.sound (progresses : Progresses turn inner inner') (sound : Sound inner) :
    Sound inner' := by
  rcases progresses.ledger with same | ⟨op, step⟩
  · exact ⟨progresses.mempool.trans sound.mempool, same ▸ sound.ledger⟩
  · exact sound.step step progresses.mempool

omit [Runtime] in
theorem Progresses.extends (progresses : Progresses turn inner inner') (sound : Sound inner)
    (task : TaskId) : (inner.state.view task).Extends (inner'.state.view task) := by
  rcases progresses.ledger with same | ⟨op, step⟩
  · rw [same]
    exact .refl _
  · exact step.extends sound.ledger.inPhase task

/-! ## Evidence -/

/-- The payloads which have been stored along some turns. -/
def payloads (turns : List Turn) : Set (List UInt8) := {bytes | .call (.putBlob bytes) ∈ turns}

/-- The node is sound, and every blob is a payload of the turns under its content address. -/
structure Addressed (turns : List Turn) (inner : NodeInner) : Prop where
  sound : Sound inner
  stored : ∀ (id : ContentId) (bytes : List UInt8), inner.blobs[id]? = some bytes →
    contentId bytes = id ∧ bytes ∈ payloads turns

variable {turns : List Turn} {task : TaskId} {body : TaskBody} {proof : ComputeProof}
  {program input : List UInt8}

omit [Crypto] [Runtime] in
theorem payloads_mono (turns : List Turn) (turn : Turn) :
    payloads turns ⊆ payloads (turns ++ [turn]) := fun _ member => List.mem_append_left _ member

omit [Runtime] in
theorem Addressed.progresses (addressed : Addressed turns inner)
    (progresses : Progresses turn inner inner') : Addressed (turns ++ [turn]) inner' := by
  refine ⟨progresses.sound addressed.sound, fun id bytes found => ?_⟩
  rcases progresses.blobs with same | ⟨payload, rfl, inserted⟩
  · rw [same] at found
    obtain ⟨id_eq, member⟩ := addressed.stored id bytes found
    exact ⟨id_eq, payloads_mono _ _ member⟩
  · rw [inserted, getElem?_insert] at found
    split at found
    · rename_i id_eq
      obtain rfl := Option.some.inj found
      exact ⟨id_eq.symm, by simp [payloads]⟩
    · obtain ⟨id_eq, member⟩ := addressed.stored id bytes found
      exact ⟨id_eq, payloads_mono _ _ member⟩

omit [Runtime] in
/-- A blob stays as long as no payload collides with it. -/
theorem Addressed.blob_kept (addressed : Addressed turns inner)
    (progresses : Progresses turn inner inner')
    (collisionFree : Set.InjOn contentId (payloads (turns ++ [turn]))) {id : ContentId}
    {bytes : List UInt8} (found : inner.blobs[id]? = some bytes) :
    inner'.blobs[id]? = some bytes := by
  rcases progresses.blobs with same | ⟨payload, rfl, inserted⟩
  · rw [same, found]
  · obtain ⟨rfl, member⟩ := addressed.stored id bytes found
    rw [inserted, getElem?_insert]
    split
    · rename_i same
      have added : payload ∈ payloads (turns ++ [.call (.putBlob payload)]) := by
        simp [payloads]
      rw [collisionFree (payloads_mono _ _ member) added same]
    · exact found

omit [Runtime] in
/-- The evidence of a task stays as long as no payload collides with it. -/
theorem Evidenced.kept (evidenced : Evidenced inner task body proof program input)
    (addressed : Addressed turns inner) (progresses : Progresses turn inner inner')
    (collisionFree : Set.InjOn contentId (payloads (turns ++ [turn]))) :
    Evidenced inner' task body proof program input := by
  have kept := progresses.extends addressed.sound task
  exact ⟨kept.body body evidenced.body_eq, kept.proof proof evidenced.proof_eq,
    addressed.blob_kept progresses collisionFree evidenced.program_eq,
    addressed.blob_kept progresses collisionFree evidenced.input_eq⟩

/-! ## The second section -/

variable {proposer : Identity} {allocations : List (Identity × Ucu)}
  {start later : Lock NodeInner} {earlier between : List Turn} {evidence : Evidence}

theorem new_addressed (opened : NodeHandle.new proposer allocations = .ok (node, start)) :
    Addressed [] start.state := by
  refine ⟨new_sound opened, fun id bytes found => ?_⟩
  obtain ⟨_, _, _, _, _, rfl⟩ := new_effect opened
  simp [Lock.new] at found

theorem Addressed.run (addressed : Addressed earlier before.state)
    (run : Run (Turn.Takes node) before between later) :
    Addressed (earlier ++ between) later.state := by
  apply run.traced fun turns lock => Addressed (earlier ++ turns) lock.state
  · simpa using addressed
  · intro turns middle turn next held takes
    rw [← List.append_assoc]
    exact held.progresses (takes.progresses held.sound.mempool)

/-- What the first section has read is there for the second. -/
theorem Evidenced.run (evidenced : Evidenced before.state task body proof program input)
    (addressed : Addressed earlier before.state)
    (run : Run (Turn.Takes node) before between later)
    (collisionFree : Set.InjOn contentId (payloads (earlier ++ between))) :
    Evidenced later.state task body proof program input := by
  induction run with
  | nil => exact evidenced
  | @snoc turns turn middle last run takes ih =>
      have addressed := addressed.run run
      rw [← List.append_assoc] at collisionFree
      have middle_evidenced := ih (collisionFree.mono (payloads_mono _ _))
      exact middle_evidenced.kept addressed (takes.progresses addressed.sound.mempool)
        collisionFree

omit [Crypto] [Runtime] in
theorem Evidenced.gather (evidenced : Evidenced inner task body proof program input) :
    NodeInner.gather task inner =
      .ok { body, proof, program := some program, input := some input } := by
  simp only [NodeInner.gather, evidenced.body_eq, evidenced.proof_eq, evidenced.program_eq,
    evidenced.input_eq]

/-- With the evidence in hand, a poisoned lock stops the second section as it stops a whole call. -/
theorem conclude_poisoned (poisoned : later.poisoned = true) :
    ∃ fault, (node.conclude task
      { body, proof, program := some program, input := some input }).Ends later (.error fault)
        later := by
  obtain ⟨ending, ends⟩ := Leaves.ends (rfl : (node.conclude task
    { body, proof, program := some program, input := some input }).Leaves later _)
  generalize (node.conclude task _ later).2 = after at ends
  suffices stopped : after = later ∧ ∃ fault, ending = .error fault by
    obtain ⟨rfl, fault, rfl⟩ := stopped
    exact ⟨fault, ends⟩
  rw [NodeHandle.conclude, ends_okOr_bind] at ends
  rcases ends with ⟨_, _, ends⟩ | ⟨missing, _⟩
  swap
  · cases missing
  rw [ends_okOr_bind] at ends
  rcases ends with ⟨_, _, ends⟩ | ⟨missing, _⟩
  swap
  · cases missing
  rw [ends_checked_bind] at ends
  rcases ends with ⟨outcome, _, ends⟩ | ⟨fault, _, rfl, rfl⟩
  swap
  · exact ⟨rfl, fault, rfl⟩
  rw [ends_bind] at ends
  rcases ends with ⟨_, _, updated, _⟩ | ⟨_, stopped, _⟩ | ⟨fault, stopped, rfl⟩
  · simp [poisoned] at updated
  · simp [ends_update] at stopped
  · rcases ends_update.mp stopped with ⟨_, _, rfl⟩ | ⟨free, _⟩ | ⟨free, _⟩
    · exact ⟨rfl, fault, rfl⟩
    · simp [poisoned] at free
    · simp [poisoned] at free

/-- Where the evidence is as it was read, the second section does what a whole call does. -/
theorem conclude_eq (free : later.poisoned = false)
    (gathered : NodeInner.gather task later.state = .ok evidence) :
    node.resolvePendingChallenge task later = node.conclude task evidence later := by
  have entered : (read (NodeInner.gather task) : Guarded NodeInner Reject Evidence) later =
      (.ok (.ok evidence), later) := returns_read.mpr ⟨free, gathered, rfl⟩
  rw [resolvePendingChallenge_eq]
  simp only [bind, entered]

/-- Between the two critical sections of a resolution any number of calls and of other resolutions
may take their turns.  From whatever reachable state the first section has succeeded in, the second
ends as a whole call at its own moment, unless two stored payloads collide. -/
theorem resolve_outside_lock (opened : NodeHandle.new proposer allocations = .ok (node, start))
    (reached : Run (Turn.Takes node) start earlier before)
    (interleaved : Run (Turn.Takes node) before between later)
    (collisionFree : Set.InjOn contentId (payloads (earlier ++ between)))
    (gathered : (read (NodeInner.gather task) : Guarded NodeInner Reject Evidence).Returns before
      evidence before)
    (program_eq : evidence.program = some program) (input_eq : evidence.input = some input) :
    (later.poisoned = false →
      node.conclude task evidence later = node.resolvePendingChallenge task later) ∧
    (node.conclude task evidence later).2 = (node.resolvePendingChallenge task later).2 ∧
    ∀ answer, (node.conclude task evidence later).1 = .ok answer ↔
      (node.resolvePendingChallenge task later).1 = .ok answer := by
  obtain ⟨body, proof, _, _⟩ := evidence
  obtain rfl : _ = some program := program_eq
  obtain rfl : _ = some input := input_eq
  have evidenced : Evidenced before.state task body proof program input := by
    obtain ⟨body_eq, proof_eq, program_eq, input_eq⟩ :=
      gather_eq_ok (returns_read.mp gathered).2.1
    exact ⟨body_eq, proof_eq, program_eq.symm, input_eq.symm⟩
  have addressed : Addressed earlier before.state := by
    simpa using (new_addressed opened).run reached
  have kept := evidenced.run addressed interleaved collisionFree
  have same (free : later.poisoned = false) :
      node.conclude task _ later = node.resolvePendingChallenge task later :=
    (conclude_eq free kept.gather).symm
  refine ⟨same, ?_⟩
  cases free : later.poisoned with
  | false => rw [same free]; exact ⟨rfl, fun _ => Iff.rfl⟩
  | true =>
      obtain ⟨fault, ended⟩ : ∃ fault, (node.conclude task
          { body, proof, program := some program, input := some input }).Ends later (.error fault)
            later := conclude_poisoned free
      have entered : (read (NodeInner.gather task) : Guarded NodeInner Reject Evidence) later =
          (.error .poisoned, later) :=
        ends_read.mpr ⟨rfl, .inl ⟨free, rfl⟩⟩
      have stopped : node.resolvePendingChallenge task later = (.error .poisoned, later) := by
        rw [resolvePendingChallenge_eq]
        simp only [bind, entered]
      have concluded : node.conclude task _ later = (.error fault, later) := ended
      rw [stopped, concluded]
      simp

/-- A run of whole calls is a run of turns. -/
theorem turns_of_calls {ops : List NodeOp} (run : Run (NodeOp.Performs node) start ops later) :
    Run (Turn.Takes node) start (ops.map .call) later := by
  induction run with
  | nil => exact .nil
  | @snoc ops op middle last _ performs ih =>
      have takes : (Turn.call op).Takes node middle last := performs
      simpa using ih.snoc takes

end Reexecution

section Sample

open Sample

attribute [local instance] Crypto.checksum Runtime.echo

/-- The echo task is settled and challenged. -/
def Sample.challenged : List NodeOp :=
  echoBlobs ++ echoSettled echoProof ++ [.submit echoChallenge]

/-- Another payload is stored, and an epoch boundary crossed. -/
def Sample.interlude : List NodeOp := [.putBlob [5], .advanceEpoch]

/-- The evidence of the echo task. -/
def Sample.echoEvidence : Evidence where
  body := echoBody
  proof := echoProof
  program := some [1]
  input := some [7, 8, 9]

theorem resolve_outside_lock_echo :
    ∃ node start before later, NodeHandle.new alice funded = .ok (node, start) ∧
      Run (Turn.Takes node) start (challenged.map .call) before ∧
      Run (Turn.Takes node) before (interlude.map .call) later ∧
      (node.conclude echoTask echoEvidence later).1 = .ok (.ok false) ∧
      node.conclude echoTask echoEvidence later = node.resolvePendingChallenge echoTask later := by
  have ran : (nodeAfter challenged).any (fun ran =>
      ran.2.2.poisoned = false ∧
        (interlude.foldl (NodeOp.perform ran.1) ran.2.2).poisoned = false ∧
        Evidenced ran.2.2.state echoTask echoBody echoProof [1] [7, 8, 9] ∧
        (ran.1.conclude echoTask echoEvidence
          (interlude.foldl (NodeOp.perform ran.1) ran.2.2)).1 = .ok (.ok false)) = true := by
    decide +kernel
  obtain ⟨⟨node, start, before⟩, ran, concluded⟩ := (Option.any_eq_true _ _).mp ran
  obtain ⟨free, later_free, stored, concluded⟩ := of_decide_eq_true concluded
  obtain ⟨opened, run⟩ := nodeAfter_eq_some ran
  have interleaved : Run (NodeOp.Performs node) before interlude _ := Run.of_foldl
  have collisionFree :
      Set.InjOn contentId (payloads (challenged.map .call ++ interlude.map .call)) := by
    intro left left_mem right right_mem
    simp only [payloads, challenged, interlude, echoBlobs, echoSettled, List.map_cons,
      List.map_nil, List.cons_append, List.nil_append, List.mem_cons,
      Set.mem_ofPred_eq, Turn.call.injEq, NodeOp.putBlob.injEq, reduceCtorEq, false_or,
      List.not_mem_nil, or_false] at left_mem right_mem
    rcases left_mem with rfl | rfl | rfl <;> rcases right_mem with rfl | rfl | rfl <;> decide
  have gathered := stored.gather
  exact ⟨node, start, before, _, opened, turns_of_calls run, turns_of_calls interleaved, concluded,
    (resolve_outside_lock opened (turns_of_calls run) (turns_of_calls interleaved) collisionFree
      (returns_read.mpr ⟨free, gathered, rfl⟩) rfl rfl).1 later_free⟩

end Sample

end Ducp
