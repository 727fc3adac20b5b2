import Ducp.Node.Reexecution
import Ducp.Node.Views

/-!
# The blob store

A payload is stored under the hash of its content.  Nothing deletes a payload, and only a payload
with the same hash replaces it.
-/

namespace Ducp

open Guarded

section Blobs

variable [Crypto] [Hex] {before after : Lock NodeInner}

namespace Rpc

/-- A payload is stored under the address which is answered. -/
theorem putBlob_returns {data : String} {response : PutBlobResp} :
    (putBlob data).Returns before response after ↔ ∃ bytes, parseHex data = .ok bytes ∧
      before.poisoned = false ∧ response = { contentId := Hex.encode (contentId bytes).toList } ∧
      after = { before with state := before.state.putBlob bytes } := by
  rw [putBlob]
  split
  · rename_i bytes parsed
    simp only [NodeHandle.putBlob, returns_bind, returns_mapErr, returns_update,
      returns_pure, Checked.pure_eq_ok, parsed, Except.ok.injEq]
    constructor
    · rintro ⟨_, _, ⟨_, _, ⟨free, _, rfl, rfl⟩, rfl, rfl⟩, rfl, rfl⟩
      exact ⟨bytes, rfl, free, rfl, rfl⟩
    · rintro ⟨_, rfl, free, rfl, rfl⟩
      exact ⟨_, _, ⟨⟨⟩, _, ⟨free, _, rfl, rfl⟩, rfl, rfl⟩, rfl, rfl⟩
  · rename_i reason parsed
    simp [parsed, Outcome.Returns, throw, throwThe, MonadExceptOf.throw, ExceptT.run, ExceptT.mk,
      pure, Except.pure]

omit [Crypto] in
/-- The payload at an address is answered in its text. -/
theorem getBlob_returns {text : String} {response : GetBlobResp} :
    (getBlob text).Returns before response after ↔ ∃ id bytes, parseHash text = .ok id ∧
      before.poisoned = false ∧ before.state.blobs[id]? = some bytes ∧
      response = { data := Hex.encode bytes } ∧ after = before := by
  rw [getBlob]
  simp only [NodeHandle.getBlob, returns_bind, returns_given, returns_found, returns_read,
    returns_pure, Except.ok.injEq]
  constructor
  · rintro ⟨id, _, ⟨parsed, rfl⟩, _, _, ⟨free, rfl, rfl⟩, bytes, _, ⟨found, rfl⟩, rfl, rfl⟩
    exact ⟨id, bytes, parsed, free, found, rfl, rfl⟩
  · rintro ⟨id, bytes, parsed, free, found, rfl, rfl⟩
    exact ⟨id, _, ⟨parsed, rfl⟩, _, _, ⟨free, rfl, rfl⟩, bytes, _, ⟨found, rfl⟩, rfl, rfl⟩

omit [Crypto] in
/-- An estimate meters the two payloads which are stored at their addresses. -/
theorem estimateUcu_returns [Runtime] {node : NodeHandle} {program input : String}
    {benchmark : BenchmarkVersion} {response : EstimateResp} :
    (estimateUcu node program input benchmark).Returns before response after ↔
      ∃ programId inputId prog inp ucu, parseHash program = .ok programId ∧
        parseHash input = .ok inputId ∧ before.poisoned = false ∧
        before.state.blobs[programId]? = some prog ∧ before.state.blobs[inputId]? = some inp ∧
        WasmtimeDvm.meter prog inp node.benchmark = .ok ucu ∧
        response = { ucu := toString ucu.toNat } ∧ after = before := by
  rw [estimateUcu]
  simp only [NodeHandle.estimate, returns_bind, returns_given, returns_mapErr, returns_read,
    returns_lift, Outcome.returns_okOr, Outcome.returns_lift, returns_pure, Except.ok.injEq]
  constructor
  · rintro ⟨programId, _, ⟨parsed, rfl⟩, inputId, _, ⟨parsed', rfl⟩, ucu, _,
      ⟨_, _, ⟨free, rfl, rfl⟩, prog, _, ⟨found, rfl⟩, inp, _, ⟨found', rfl⟩, metered, rfl⟩, rfl,
      rfl⟩
    exact ⟨programId, inputId, prog, inp, ucu, parsed, parsed', free, found, found', metered, rfl,
      rfl⟩
  · rintro ⟨programId, inputId, prog, inp, ucu, parsed, parsed', free, found, found', metered, rfl,
      rfl⟩
    exact ⟨programId, _, ⟨parsed, rfl⟩, inputId, _, ⟨parsed', rfl⟩, ucu, _,
      ⟨_, _, ⟨free, rfl, rfl⟩, prog, _, ⟨found, rfl⟩, inp, _, ⟨found', rfl⟩, metered, rfl⟩, rfl,
      rfl⟩

end Rpc

/-! ## Runs -/

variable [Runtime] {node : NodeHandle} {proposer : Identity}
  {allocations : List (Identity × Ucu)} {start last : Lock NodeInner}

omit [Hex] in
/-- A stored payload stays where it is, unless another one with the same hash is stored. -/
theorem Addressed.blob_run {earlier between : List Turn} {id : ContentId} {bytes : List UInt8}
    (addressed : Addressed earlier before.state)
    (run : Run (Turn.Takes node) before between after)
    (collisionFree : Set.InjOn contentId (payloads (earlier ++ between)))
    (found : before.state.blobs[id]? = some bytes) : after.state.blobs[id]? = some bytes := by
  induction run with
  | nil => exact found
  | @snoc turns turn middle last run takes ih =>
      have held := addressed.run run
      rw [← List.append_assoc] at collisionFree
      have kept := ih (collisionFree.mono (payloads_mono _ _))
      exact held.blob_kept (takes.progresses held.sound.mempool) collisionFree kept

/-- The payloads which some calls store. -/
def storedBy (ops : List NodeOp) : Set (List UInt8) := payloads (ops.map .call)

omit [Hex] in
/-- A stored payload stays where it is through further calls. -/
theorem blob_kept {earlier later : List NodeOp} {id : ContentId} {bytes : List UInt8}
    (opened : NodeHandle.new proposer allocations = .ok (node, start))
    (reached : Run (NodeOp.Performs node) start earlier before)
    (continued : Run (NodeOp.Performs node) before later after)
    (collisionFree : Set.InjOn contentId (storedBy (earlier ++ later)))
    (found : before.state.blobs[id]? = some bytes) : after.state.blobs[id]? = some bytes := by
  have addressed : Addressed (earlier.map .call) before.state := by
    simpa using (new_addressed opened).run (turns_of_calls reached)
  rw [storedBy, List.map_append] at collisionFree
  exact addressed.blob_run (turns_of_calls continued) collisionFree found

omit [Hex] in
theorem putBlob_performs {bytes : List UInt8} (free : before.poisoned = false) :
    (NodeOp.putBlob bytes).Performs node before
      { before with state := before.state.putBlob bytes } := by
  have stored : (NodeHandle.putBlob bytes).Returns before (contentId bytes)
      { before with state := before.state.putBlob bytes } := by
    rw [NodeHandle.putBlob, returns_bind]
    exact ⟨⟨⟩, _, returns_update.mpr ⟨free, _, rfl, rfl⟩, returns_pure.mpr ⟨rfl, rfl⟩⟩
  exact Ends.leaves stored

/-- Every payload which is answered has the requested address.  Unless two stored payloads collide
or the lock is poisoned, a payload which has been stored is answered under its address ever after,
and an estimate which has been made is made again, for whatever benchmark. -/
theorem blob_durable {earlier : List NodeOp} (lawful : Hex.Lawful)
    (opened : NodeHandle.new proposer allocations = .ok (node, start))
    (reached : Run (NodeOp.Performs node) start earlier before) :
    (∀ text answer, (Rpc.getBlob text).Returns before answer before → ∃ bytes,
      Rpc.parseHex answer.data = .ok bytes ∧ Rpc.parseHash text = .ok (contentId bytes)) ∧
    (∀ data response middle bytes later after, (Rpc.putBlob data).Returns before response middle →
      Rpc.parseHex data = .ok bytes → Run (NodeOp.Performs node) middle later after →
      after.poisoned = false →
      Set.InjOn contentId (storedBy (earlier ++ .putBlob bytes :: later)) →
      (Rpc.getBlob response.contentId).Returns after { data := Hex.encode bytes } after) ∧
    ∀ program input benchmark answer later after,
      (Rpc.estimateUcu node program input benchmark).Returns before answer before →
      Run (NodeOp.Performs node) before later after → after.poisoned = false →
      Set.InjOn contentId (storedBy (earlier ++ later)) →
      ∀ benchmark', (Rpc.estimateUcu node program input benchmark').Returns after answer after := by
  have addressed : Addressed (earlier.map .call) before.state := by
    simpa using (new_addressed opened).run (turns_of_calls reached)
  refine ⟨?_, ?_, ?_⟩
  · intro text answer answered
    obtain ⟨id, bytes, parsed, _, found, rfl, _⟩ := Rpc.getBlob_returns.mp answered
    obtain ⟨rfl, _⟩ := addressed.stored id bytes found
    exact ⟨bytes, Rpc.parseHex_encode lawful, parsed⟩
  · intro data response middle bytes later after put parsed continued free collisionFree
    obtain ⟨bytes', parsed', locked_free, rfl, rfl⟩ := Rpc.putBlob_returns.mp put
    obtain rfl : bytes' = bytes := Except.ok.inj (parsed'.symm.trans parsed)
    have performs : (NodeOp.putBlob bytes').Performs node before
        { before with state := before.state.putBlob bytes' } := putBlob_performs locked_free
    refine Rpc.getBlob_returns.mpr ⟨_, bytes', (Rpc.parseHash_encode lawful _).1, free, ?_, rfl,
      rfl⟩
    refine blob_kept opened (reached.snoc performs) continued (by simpa using collisionFree) ?_
    simp [NodeInner.putBlob]
  · intro program input benchmark answer later after made continued free collisionFree benchmark'
    obtain ⟨programId, inputId, prog, inp, ucu, parsed, parsed', _, found, found', metered, rfl,
      _⟩ := Rpc.estimateUcu_returns.mp made
    exact Rpc.estimateUcu_returns.mpr ⟨programId, inputId, prog, inp, ucu, parsed, parsed', free,
      blob_kept opened reached continued collisionFree found,
      blob_kept opened reached continued collisionFree found', metered, rfl, rfl⟩

end Blobs

section Sample

open Sample

attribute [local instance] Crypto.checksum Runtime.echo Hex.lower

/-- A payload is stored after those of the echo task, and answered once the task has settled. -/
theorem blob_durable_echo :
    ∃ node start before middle answer after, NodeHandle.new alice funded = .ok (node, start) ∧
      Run (NodeOp.Performs node) start echoBlobs before ∧
      (Rpc.putBlob "0x05").Returns before answer middle ∧
      Run (NodeOp.Performs node) middle (echoSettled echoProof) after ∧
      (Rpc.getBlob answer.contentId).Returns after { data := Hex.encode [5] } after := by
  have ran : (nodeAfter echoBlobs).any (fun ran => ran.2.2.poisoned = false ∧
      ((echoSettled echoProof).foldl (NodeOp.perform ran.1)
        { ran.2.2 with state := ran.2.2.state.putBlob [5] }).poisoned = false) = true := by
    decide +kernel
  obtain ⟨⟨node, start, before⟩, ran, free⟩ := (Option.any_eq_true _ _).mp ran
  obtain ⟨opened, run⟩ := nodeAfter_eq_some ran
  obtain ⟨free, later_free⟩ := of_decide_eq_true free
  have parsed : Rpc.parseHex "0x05" = .ok [5] := by decide +kernel
  have put := Rpc.putBlob_returns.mpr ⟨[5], parsed, free, rfl, rfl⟩
  have continued : Run (NodeOp.Performs node)
      { before with state := before.state.putBlob [5] } (echoSettled echoProof) _ := Run.of_foldl
  have collisionFree :
      Set.InjOn contentId (storedBy (echoBlobs ++ .putBlob [5] :: echoSettled echoProof)) := by
    intro left left_mem right right_mem
    simp only [storedBy, payloads, echoBlobs, echoSettled, List.map_cons,
      List.map_nil, List.cons_append, List.nil_append, List.mem_cons,
      Set.mem_ofPred_eq, Turn.call.injEq, NodeOp.putBlob.injEq, reduceCtorEq,
      List.not_mem_nil, or_false] at left_mem right_mem
    rcases left_mem with rfl | rfl | rfl <;> rcases right_mem with rfl | rfl | rfl <;> decide
  exact ⟨node, start, before, _, _, _, opened, run, put, continued,
    (blob_durable Hex.lower_lawful opened run).2.1 _ _ _ _ _ _ put parsed continued later_free
      collisionFree⟩

end Sample

end Ducp
