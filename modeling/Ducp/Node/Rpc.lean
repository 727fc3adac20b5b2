import Ducp.Node.Effects
import Ducp.Wire

/-!
# The remote interface

Each state-changing method takes one signed transaction of its own kind.  A challenge is two calls
of the node: the transaction which locks the bond, and the resolution.
-/

namespace Ducp

open Guarded Outcome

/-- An error of the interface. -/
structure ErrorObject where
  code : Int
  message : String
  deriving DecidableEq

/-! ## Errors -/

/-- The base of the rejection codes. -/
def errBase : Int := -32000

/-- The distance of a rejection code from the base. -/
def Reject.offset : Reject → Int
  | badSignature => 1
  | badNonce => 2
  | unknownAccount => 3
  | unknownTask => 4
  | insufficientBalance => 5
  | badStatus => 6
  | deadlinePassed => 7
  | alreadyClaimed => 8
  | wrongProvider => 9
  | ucuExceedsLimit => 10
  | benchmarkMismatch => 11
  | notInClawbackWindow => 12
  | bondTooSmall => 13
  | unsupportedFeature => 14
  | conservationViolated => 15
  | invalid => 16

/-- The text of a rejection. -/
def Reject.text : Reject → String
  | badSignature => "bad signature"
  | badNonce => "bad nonce"
  | unknownAccount => "unknown account"
  | unknownTask => "unknown task"
  | insufficientBalance => "insufficient balance"
  | badStatus => "task not in required status"
  | deadlinePassed => "deadline passed"
  | alreadyClaimed => "task already claimed"
  | wrongProvider => "wrong provider"
  | ucuExceedsLimit => "ucu_count exceeds declared limit"
  | benchmarkMismatch => "benchmark mismatch"
  | notInClawbackWindow => "not within clawback window"
  | bondTooSmall => "challenge bond below minimum"
  | unsupportedFeature => "unsupported wasm feature"
  | conservationViolated => "ledger conservation violated"
  | invalid => "invalid transaction"

/-- The code of a rejection. -/
def rejectCode (reason : Reject) : Int := errBase - reason.offset

/-- The error of a rejection. -/
def rejectErr (reason : Reject) : ErrorObject :=
  { code := rejectCode reason, message := reason.text }

/-- The error of a malformed request. -/
def invalid (message : String) : ErrorObject := { code := -32602, message }

/-! ## Methods -/

/-- The response to a submitted task. -/
structure SubmitTaskResp where
  taskId : String
  escrowed : String

/-- The response to a claim. -/
structure ClaimResp where
  ok : Bool
  claimStake : String

/-- A bare confirmation. -/
structure OkResp where
  ok : Bool
  deriving DecidableEq

/-- The response to a stored payload. -/
structure PutBlobResp where
  contentId : String

namespace Rpc

variable [Crypto] (node : NodeHandle)

/-- The amounts and the identifier a submission answers with. -/
def quote (body : TaskBody) : Checked (TaskId × Ucu) := do
  let taskId ← body.taskId
  let fee ← node.params.fee body.limits.maxUcu
  let escrowed ← Checked.add body.limits.maxUcu fee
  return (taskId, escrowed)

/-- Refuse a request outside the node. -/
def refuse {α : Type} (message : String) : Guarded NodeInner ErrorObject α :=
  (liftM (throw (invalid message) : Outcome ErrorObject α))

/-- Submit a task. -/
def submitTask [Hex] (tx : SignedTx) : Guarded NodeInner ErrorObject SubmitTaskResp :=
  match tx.tx with
  | .submitTask body => do
      let (taskId, escrowed) ← (liftM (quote node body) : Outcome ErrorObject (TaskId × Ucu))
      let _ ← (node.submit tx).mapErr rejectErr
      return { taskId := Hex.encode taskId.toList, escrowed := toString escrowed.toNat }
  | _ => refuse "expected a SubmitTask transaction"

/-- The claim stake of a task, zero when unknown. -/
def taskClaimStake (task : TaskId) (inner : NodeInner) : Except ErrorObject Ucu :=
  .ok (((inner.state.tasks[task]?).map (·.claimStake)).getD 0)

/-- Claim a task. -/
def claimTask (tx : SignedTx) : Guarded NodeInner ErrorObject ClaimResp :=
  match tx.tx with
  | .claimTask task => do
      let _ ← (node.submit tx).mapErr rejectErr
      let claimStake ← Guarded.read (taskClaimStake task)
      return { ok := true, claimStake := toString claimStake.toNat }
  | _ => refuse "expected a ClaimTask transaction"

/-- Submit a proof. -/
def submitProof (tx : SignedTx) : Guarded NodeInner ErrorObject OkResp :=
  match tx.tx with
  | .submitProof _ => do
      let _ ← (node.submit tx).mapErr rejectErr
      return { ok := true }
  | _ => refuse "expected a SubmitProof transaction"

/-- Transfer a balance. -/
def transfer (tx : SignedTx) : Guarded NodeInner ErrorObject OkResp :=
  match tx.tx with
  | .transfer _ _ => do
      let _ ← (node.submit tx).mapErr rejectErr
      return { ok := true }
  | _ => refuse "expected a Transfer transaction"

/-- Lock a bond against a task, then re-execute the task and resolve the challenge. -/
def challenge [Runtime] (tx : SignedTx) : Guarded NodeInner ErrorObject OkResp :=
  match tx.tx with
  | .challenge task _ => do
      let _ ← (node.submit tx).mapErr rejectErr
      let _ ← (node.resolvePendingChallenge task).mapErr rejectErr
      return { ok := true }
  | _ => refuse "expected a Challenge transaction"

/-- The bytes of a hexadecimal text, with or without its prefix. -/
def parseHex [Hex] (text : String) : Except ErrorObject (List UInt8) :=
  match Hex.decode (if text.startsWith "0x" then (text.drop 2).toString else text) with
  | .ok bytes => .ok bytes
  | .error reason => .error (invalid ("bad hex: " ++ reason))

/-- Store a payload. -/
def putBlob [Hex] (data : String) : Guarded NodeInner ErrorObject PutBlobResp :=
  match parseHex data with
  | .ok bytes => do
      let contentId ← (NodeHandle.putBlob bytes).mapErr rejectErr
      return { contentId := Hex.encode contentId.toList }
  | .error reason => liftM (throw reason : Outcome ErrorObject PutBlobResp)

end Rpc

/-! ## Runs of the interface -/

/-- One state-changing request. -/
inductive Call
  | submitTask (tx : SignedTx)
  | claimTask (tx : SignedTx)
  | submitProof (tx : SignedTx)
  | transfer (tx : SignedTx)
  | challenge (tx : SignedTx)
  | putBlob (data : String)

/-- The node after a request, however it ends. -/
def Call.serve [Crypto] [Runtime] [Hex] (node : NodeHandle) (lock : Lock NodeInner) :
    Call → Lock NodeInner
  | .submitTask tx => (Rpc.submitTask node tx lock).2
  | .claimTask tx => (Rpc.claimTask node tx lock).2
  | .submitProof tx => (Rpc.submitProof node tx lock).2
  | .transfer tx => (Rpc.transfer node tx lock).2
  | .challenge tx => (Rpc.challenge node tx lock).2
  | .putBlob data => (Rpc.putBlob data lock).2

/-- One request. -/
def Call.Serves [Crypto] [Runtime] [Hex] (node : NodeHandle) (before : Lock NodeInner)
    (call : Call) (after : Lock NodeInner) : Prop := call.serve node before = after

/-! ## How a request ends -/

section Requests

variable [Crypto] [Runtime] {node : NodeHandle} {before after : Lock NodeInner}
  {stx : SignedTx} {task : TaskId} {bond : Ucu}

/-- How a challenge of a task ends. -/
inductive Challenged (node : NodeHandle) (stx : SignedTx) (task : TaskId)
    (before : Lock NodeInner) : Checked (Except ErrorObject OkResp) → Lock NodeInner → Prop
  | refused {reason : Reject} :
      before.poisoned = false → (before.state.state.apply stx node.params).Rejects reason →
      Challenged node stx task before (.ok (.error (rejectErr reason))) before
  | unresolvable {proposal : Proposal} {opened : NodeInner} :
      before.poisoned = false → Admits node before.state stx proposal opened →
      (¬∃ body proof program input, Evidenced opened task body proof program input) →
      Challenged node stx task before (.ok (.error (rejectErr .unknownTask)))
        { before with state := opened }
  | decided {proposal : Proposal} {opened state : NodeInner} {body : TaskBody}
      {proof : ComputeProof} {program input : List UInt8} {honest : ExecOutcome} {fraud : Bool} :
      before.poisoned = false → Admits node before.state stx proposal opened →
      Decides node opened task body proof program input honest fraud state →
      Challenged node stx task before (.ok (.ok { ok := true })) { before with state }
  | unsent {fault : Fault} : stx.txId = .error fault →
      Challenged node stx task before (.error fault) before
  | faulted {proposal : Proposal} {opened : NodeInner} {body : TaskBody} {proof : ComputeProof}
      {program input : List UInt8} {fault : Fault} :
      before.poisoned = false → Admits node before.state stx proposal opened →
      Evidenced opened task body proof program input →
      WasmtimeDvm.execute program input body.limits node.benchmark = .error fault →
      Challenged node stx task before (.error fault) { before with state := opened }
  | poisoned {fault : Fault} {last : Lock NodeInner} : last.poisoned = true →
      (last.state = before.state ∨ ∃ proposal, Admits node before.state stx proposal last.state) →
      Challenged node stx task before (.error fault) last

/-- A challenge locks its bond and then resolves, unless one of the two stops. -/
theorem challenge_ends {ending : Checked (Except ErrorObject OkResp)}
    (idle : before.state.mempool = []) (tx_eq : stx.tx = .challenge task bond)
    (ends : (Rpc.challenge node stx).Ends before ending after) :
    Challenged node stx task before ending after := by
  simp only [Rpc.challenge, tx_eq] at ends
  rw [ends_mapErr_bind] at ends
  rcases ends with
    ⟨txId, middle, submitted, ends⟩ | ⟨reason, submitted, rfl⟩ | ⟨fault, submitted, rfl⟩
  · cases submit_ends idle submitted with
    | @accepted _ proposal opened free admits =>
        rw [ends_mapErr_bind] at ends
        rcases ends with
          ⟨fraud, last, resolved, ends⟩ | ⟨reason, resolved, rfl⟩ | ⟨fault, resolved, rfl⟩
        · obtain ⟨rfl, rfl⟩ := ends_pure.mp ends
          cases resolve_ends resolved with
          | decided _ decides => exact .decided free admits decides
        · cases resolve_ends resolved with
          | unresolvable missing => exact .unresolvable free admits missing
        · cases resolve_ends resolved with
          | faulted evidenced executed => exact .faulted free admits evidenced executed
          | poisoned state_eq poisoned =>
              exact .poisoned poisoned (.inr ⟨proposal, state_eq ▸ admits⟩)
  · cases submit_ends idle submitted with
    | rejected free rejects => exact .refused free rejects
  · cases submit_ends idle submitted with
    | faulted unsent => exact .unsent unsent
    | poisoned state_eq poisoned => exact .poisoned poisoned (.inl state_eq)

omit [Runtime] in
/-- A submission followed by steps which leave the lock alone. -/
theorem submit_then {α : Type} {next : TxId → Guarded NodeInner ErrorObject α}
    (still : ∀ txId middle, middle.poisoned = false → (next txId).Leaves middle after →
      after = middle)
    (idle : before.state.mempool = [])
    (leaves : ((node.submit stx).mapErr rejectErr >>= next).Leaves before after) :
    ∃ ending, Submitted node stx before ending after := by
  obtain ⟨ending, ends⟩ := leaves.ends
  rw [ends_mapErr_bind] at ends
  rcases ends with ⟨txId, middle, submitted, ends⟩ | ⟨reason, submitted, _⟩ | ⟨fault, submitted, _⟩
  · have ended := submit_ends idle submitted
    have free : middle.poisoned = false := by
      cases ended with
      | accepted free _ => exact free
    obtain rfl := still txId middle free ends.leaves
    exact ⟨_, ended⟩
  · exact ⟨_, submit_ends idle submitted⟩
  · exact ⟨_, submit_ends idle submitted⟩

/-- What a request can do. -/
inductive Served (node : NodeHandle) (before : Lock NodeInner) : Call → Lock NodeInner → Prop
  | refused {call : Call} : Served node before call before
  | submitted {call : Call} {stx : SignedTx} {ending : Checked (Except Reject TxId)}
      {last : Lock NodeInner} :
      (∀ task bond, stx.tx ≠ .challenge task bond) → Submitted node stx before ending last →
      Served node before call last
  | challenged {stx : SignedTx} {task : TaskId} {bond : Ucu}
      {ending : Checked (Except ErrorObject OkResp)} {last : Lock NodeInner} :
      stx.tx = .challenge task bond → Challenged node stx task before ending last →
      Served node before (.challenge stx) last
  | stored {call : Call} (bytes : List UInt8) :
      Served node before call { before with state := before.state.putBlob bytes }

omit [Crypto] [Runtime] in
theorem refuse_leaves {α : Type} {message : String}
    (leaves : (Rpc.refuse message : Guarded NodeInner ErrorObject α).Leaves before after) :
    after = before := by
  obtain ⟨ending, ends⟩ := leaves.ends
  exact (ends_lift.mp ends).2

omit [Crypto] [Runtime] in
theorem pure_leaves {α : Type} {value : α}
    (leaves : (pure value : Guarded NodeInner ErrorObject α).Leaves before after) :
    after = before := by
  obtain ⟨ending, ends⟩ := leaves.ends
  exact (ends_pure.mp ends).2

/-- A request which only submits a transaction of another kind. -/
theorem Served.of_submit {α : Type} {call : Call}
    {next : TxId → Guarded NodeInner ErrorObject α}
    (other : ∀ task bond, stx.tx ≠ .challenge task bond)
    (still : ∀ txId middle, middle.poisoned = false → (next txId).Leaves middle after →
      after = middle)
    (idle : before.state.mempool = [])
    (leaves : ((node.submit stx).mapErr rejectErr >>= next).Leaves before after) :
    Served node before call after := by
  obtain ⟨ending, submitted⟩ := submit_then still idle leaves
  exact .submitted other submitted

theorem Call.Serves.served [Hex] {call : Call} (idle : before.state.mempool = [])
    (serves : call.Serves node before after) : Served node before call after := by
  cases call with
  | submitTask stx =>
      have leaves : (Rpc.submitTask node stx).Leaves before after := serves
      unfold Rpc.submitTask at leaves
      split at leaves
      · rename_i body tx_eq
        obtain ⟨ending, ends⟩ := leaves.ends
        rw [ends_checked_bind] at ends
        rcases ends with ⟨quoted, _, ends⟩ | ⟨_, _, _, rfl⟩
        · exact .of_submit (by simp [tx_eq]) (fun _ _ _ => pure_leaves) idle ends.leaves
        · exact .refused
      · rw [refuse_leaves leaves]
        exact .refused
  | claimTask stx =>
      have leaves : (Rpc.claimTask node stx).Leaves before after := serves
      unfold Rpc.claimTask at leaves
      split at leaves
      · rename_i task tx_eq
        refine .of_submit (by simp [tx_eq]) (fun txId middle free left => ?_) idle leaves
        obtain ⟨ending, ends⟩ := left.ends
        rw [ends_bind] at ends
        rcases ends with ⟨_, last, read, ends⟩ | ⟨_, read, _⟩ | ⟨_, read, _⟩
        · obtain ⟨_, rfl⟩ := ends_pure.mp ends
          exact (returns_read.mp read).2.2
        · exact (ends_read.mp read).1
        · exact (ends_read.mp read).1
      · rw [refuse_leaves leaves]
        exact .refused
  | submitProof stx =>
      have leaves : (Rpc.submitProof node stx).Leaves before after := serves
      unfold Rpc.submitProof at leaves
      split at leaves
      · rename_i proof tx_eq
        exact .of_submit (by simp [tx_eq]) (fun _ _ _ => pure_leaves) idle leaves
      · rw [refuse_leaves leaves]
        exact .refused
  | transfer stx =>
      have leaves : (Rpc.transfer node stx).Leaves before after := serves
      unfold Rpc.transfer at leaves
      split at leaves
      · rename_i recipient amount tx_eq
        exact .of_submit (by simp [tx_eq]) (fun _ _ _ => pure_leaves) idle leaves
      · rw [refuse_leaves leaves]
        exact .refused
  | challenge stx =>
      have leaves : (Rpc.challenge node stx).Leaves before after := serves
      cases kind : stx.tx with
      | challenge task bond =>
          obtain ⟨ending, ends⟩ := leaves.ends
          exact .challenged kind (challenge_ends idle kind ends)
      | submitTask _ | claimTask _ | submitProof _ | transfer _ _ =>
          simp only [Rpc.challenge, kind] at leaves
          rw [refuse_leaves leaves]
          exact .refused
  | putBlob data =>
      have leaves : (Rpc.putBlob data).Leaves before after := serves
      unfold Rpc.putBlob at leaves
      split at leaves
      · rename_i bytes _
        obtain ⟨ending, ends⟩ := leaves.ends
        rw [ends_mapErr_bind] at ends
        have put {ending : Checked (Except Reject ContentId)} {middle : Lock NodeInner}
            (ends : (NodeHandle.putBlob bytes).Ends before ending middle) :
            Served node before (.putBlob data) middle := by
          rcases putBlob_ends ends with rfl | rfl
          · exact .refused
          · exact .stored bytes
        rcases ends with ⟨_, middle, stored, ends⟩ | ⟨_, stored, _⟩ | ⟨_, stored, _⟩
        · obtain ⟨_, rfl⟩ := ends_pure.mp ends
          exact put stored
        · exact put stored
        · exact put stored
      · obtain ⟨ending, ends⟩ := leaves.ends
        rw [(ends_lift.mp ends).2]
        exact .refused

end Requests

end Ducp
