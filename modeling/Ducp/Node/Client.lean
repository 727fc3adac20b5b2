import Ducp.Library.Session
import Ducp.Node.Sync

/-!
# Requests over the wire

A client sends the parameters of a method as trees and reads its result from a tree.  It reads what
the method has returned on the node which the request meets, and an error of any kind stops it.
-/

namespace Ducp

open Guarded Serde Serde.Codec Serde.Fields

/-! ## Responses -/

/-- A text. -/
def Wire.string : Codec String := .text id .ok

theorem Wire.string_faithful : Wire.string.Faithful := text_faithful fun _ => rfl

/-- The fields of the response to a submitted task. -/
def SubmitTaskResp.wire : Codec SubmitTaskResp :=
  (record <| .both (.one "task_id" Wire.string) <| .one "escrowed" Wire.string).via
    (fun resp => (resp.taskId, resp.escrowed)) fun (taskId, escrowed) => { taskId, escrowed }

theorem SubmitTaskResp.wire_faithful : SubmitTaskResp.wire.Faithful :=
  via_faithful (record_faithful (both_lawful (one_lawful Wire.string_faithful)
    (one_lawful Wire.string_faithful)) (by simp)) fun _ => rfl

/-- The fields of the response to a claim. -/
def ClaimResp.wire : Codec ClaimResp :=
  (record <| .both (.one "ok" .boolean) <| .one "claim_stake" Wire.string).via
    (fun resp => (resp.ok, resp.claimStake)) fun (ok, claimStake) => { ok, claimStake }

theorem ClaimResp.wire_faithful : ClaimResp.wire.Faithful :=
  via_faithful (record_faithful (both_lawful (one_lawful boolean_faithful)
    (one_lawful Wire.string_faithful)) (by simp)) fun _ => rfl

/-- The field of a bare confirmation. -/
def OkResp.wire : Codec OkResp :=
  (record (.one "ok" .boolean)).via OkResp.ok fun ok => { ok }

theorem OkResp.wire_faithful : OkResp.wire.Faithful :=
  via_faithful (record_faithful (one_lawful boolean_faithful) (by simp)) fun _ => rfl

/-- The field of the response to a stored payload. -/
def PutBlobResp.wire : Codec PutBlobResp :=
  (record (.one "content_id" Wire.string)).via PutBlobResp.contentId fun contentId =>
    { contentId }

theorem PutBlobResp.wire_faithful : PutBlobResp.wire.Faithful :=
  via_faithful (record_faithful (one_lawful Wire.string_faithful) (by simp)) fun _ => rfl

/-! ## Requests -/

/-- A request of a worker: a method with its parameters in their wire form. -/
inductive Request
  | submitTask (tx : Json)
  | claimTask (tx : Json)
  | submitProof (tx : Json)
  | getHead
  | getQEntry (taskId : Json)
  | putBlob (data : Json)

namespace Rpc

/-- Read a parameter, run the method on it, and write its result. -/
def respond {α β : Type} (parameter : Codec α) (result : Codec β)
    (method : α → Guarded NodeInner ErrorObject β) (json : Json) :
    Guarded NodeInner ErrorObject Json := do
  let value ← given ((parameter.deserialize json).mapError fun _ => invalid "Invalid params")
  let response ← method value
  return result.serialize response

end Rpc

section Requests

variable [Crypto] [Hex]

/-- Run the method which a request names. -/
def Request.serve (node : NodeHandle) : Request → Guarded NodeInner ErrorObject Json
  | .submitTask tx =>
      Rpc.respond SignedTx.wire SubmitTaskResp.wire (fun tx => Rpc.submitTask node tx) tx
  | .claimTask tx => Rpc.respond SignedTx.wire ClaimResp.wire (fun tx => Rpc.claimTask node tx) tx
  | .submitProof tx => Rpc.respond SignedTx.wire OkResp.wire (fun tx => Rpc.submitProof node tx) tx
  | .getHead => do return HeadView.wire.serialize (← Rpc.getHead)
  | .getQEntry taskId => Rpc.respond Wire.string QLedgerEntry.wire Rpc.getQEntry taskId
  | .putBlob data => Rpc.respond Wire.string PutBlobResp.wire Rpc.putBlob data

/-- The answer to a request, and the node after it; there is none when the request is refused. -/
def Request.answer (node : NodeHandle) (request : Request) (lock : Lock NodeInner) :
    Option Json × Lock NodeInner :=
  match request.serve node lock with
  | (.ok (.ok json), lock) => (some json, lock)
  | (_, lock) => (none, lock)

theorem Request.answer_eq_some {node : NodeHandle} {request : Request}
    {before after : Lock NodeInner} {json : Json}
    (returns : (request.serve node).Returns before json after) :
    request.answer node before = (some json, after) := by
  rw [Request.answer, show request.serve node before = _ from returns]

end Requests

namespace Client

variable [Crypto] [Hex] {α β : Type}

/-- Send a request and read its answer. -/
def send (result : Codec β) (request : Request) : Session Request Json β := do
  let json ← Session.request request
  (result.deserialize json).toOption

/-- Submit a task. -/
def submitTask (tx : SignedTx) : Session Request Json SubmitTaskResp :=
  send SubmitTaskResp.wire (.submitTask (SignedTx.wire.serialize tx))

/-- Claim a task. -/
def claimTask (tx : SignedTx) : Session Request Json ClaimResp :=
  send ClaimResp.wire (.claimTask (SignedTx.wire.serialize tx))

/-- Submit a proof. -/
def submitProof (tx : SignedTx) : Session Request Json OkResp :=
  send OkResp.wire (.submitProof (SignedTx.wire.serialize tx))

/-- Ask for the head. -/
def getHead : Session Request Json HeadView := send HeadView.wire .getHead

/-- Ask for the efficiency entry of a task. -/
def getQEntry (taskId : String) : Session Request Json QLedgerEntry :=
  send QLedgerEntry.wire (.getQEntry (Wire.string.serialize taskId))

/-- Store a payload. -/
def putBlob (data : String) : Session Request Json PutBlobResp :=
  send PutBlobResp.wire (.putBlob (Wire.string.serialize data))

variable {node : NodeHandle} {others : Lock NodeInner → Lock NodeInner → Prop}
  {lock : Lock NodeInner} {method : α → Guarded NodeInner ErrorObject β} {value : α}
  {post : β → Lock NodeInner → Prop}

omit [Crypto] [Hex] in
/-- A method on a parameter which is read back returns its result in wire form. -/
theorem respond_returns {parameter : Codec α} {result : Codec β} (faithful : parameter.Faithful)
    {before after : Lock NodeInner} {response : β}
    (returns : (method value).Returns before response after) :
    (Rpc.respond parameter result method (parameter.serialize value)).Returns before
      (result.serialize response) after := by
  simp only [Rpc.respond, faithful value, Except.mapError, Guarded.returns_bind,
    Rpc.returns_given, Except.ok.injEq, Guarded.returns_pure]
  exact ⟨_, _, ⟨rfl, rfl⟩, _, _, returns, rfl, rfl⟩

/-- A client which sends a request is certain of what its method returns, on every node which the
request can meet. -/
theorem certain_send {result : Codec β} (faithful : result.Faithful) {request : Request}
    (returned : ∀ arrived, others lock arrived → ∃ response after,
      (request.serve node).Returns arrived (result.serialize response) after ∧
        post response after) :
    (send result request).Certain (Request.answer node) others post lock := by
  refine Session.certain_bind.mpr (Session.certain_request.mpr fun arrived moved => ?_)
  obtain ⟨response, after, returns, holds⟩ := returned arrived moved
  refine ⟨_, after, Request.answer_eq_some returns, Session.certain_lift.mpr ⟨response, ?_, holds⟩⟩
  rw [faithful response]
  rfl

end Client

end Ducp
