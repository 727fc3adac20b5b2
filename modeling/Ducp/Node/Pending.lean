import Ducp.Node.Conviction

/-!
# Pending challenges

A challenge request locks the bond first and resolves afterwards.  When the resolution stops early,
the challenge stays pending, and every later challenge of the task is rejected.  It does not stop
when both blobs of the task are stored and the re-execution completes; one which panics runs outside
the lock, and leaves the challenge pending as well.
-/

namespace Ducp

open MapSum Std

section Requests

variable [Crypto] [Runtime] {node : NodeHandle} {before after : Lock NodeInner}

/-- Every request keeps the node sound. -/
theorem Served.sound {call : Call} (sound : Sound before.state)
    (served : Served node before call after) : Sound after.state := by
  cases served with
  | refused => exact sound
  | submitted _ submitted =>
      cases submitted with
      | accepted _ admits => exact (Changes.accept admits).sound sound
      | rejected _ _ => exact sound
      | faulted _ => exact sound
      | poisoned state_eq _ => rwa [state_eq]
  | challenged _ challenged =>
      cases challenged with
      | refused _ _ => exact sound
      | unresolvable _ admits _ => exact (Changes.accept admits).sound sound
      | decided _ admits decides =>
          exact (Changes.decide decides).sound ((Changes.accept admits).sound sound)
      | unsent _ => exact sound
      | faulted _ admits _ _ => exact (Changes.accept admits).sound sound
      | poisoned _ reached =>
          rcases reached with state_eq | ⟨proposal, admits⟩
          · rwa [state_eq]
          · exact (Changes.accept admits).sound sound
  | stored bytes => exact ⟨sound.mempool, sound.ledger⟩

/-! ## Nothing stays pending -/

/-- The lock is poisoned, so that no request is answered, or no challenge is pending. -/
def Idle (lock : Lock NodeInner) : Prop :=
  lock.poisoned = true ∨ ∀ task : TaskId, lock.state.state.pendingChallenges[task]? = none

/-- A challenge request whose transaction is accepted finds its evidence, and the re-execution
completes. -/
def Call.Answerable (node : NodeHandle) (inner : NodeInner) : Call → Prop
  | .challenge stx => ∀ task bond, stx.tx = .challenge task bond →
      (∃ s', (inner.state.apply stx node.params).Returns s') →
      ∃ body proof program input honest, Evidenced inner task body proof program input ∧
        WasmtimeDvm.execute program input body.limits node.benchmark = .ok honest
  | _ => True

omit [Runtime] in
/-- A submission of another kind leaves the pending challenges alone. -/
theorem Admits.pendingChallenges_eq {inner inner' : NodeInner} {stx : SignedTx}
    {proposal : Proposal} (admits : Admits node inner stx proposal inner')
    (other : ∀ task bond, stx.tx ≠ .challenge task bond) :
    inner'.state.pendingChallenges = inner.state.pendingChallenges := by
  have step : Step inner.state (.apply stx node.params) inner'.state := by
    rw [admits.state_eq.1]
    exact admits.applied
  cases step.effect with
  | apply _ _ _ payload => exact payload.pendingChallenges_eq other

/-- An answerable request leaves no challenge pending. -/
theorem Served.idle {call : Call} (sound : Sound before.state) (idle : Idle before)
    (answerable : call.Answerable node before.state) (served : Served node before call after) :
    Idle after := by
  cases served with
  | refused => exact idle
  | submitted other submitted =>
      cases submitted with
      | accepted free admits =>
          refine .inr fun task => ?_
          rw [admits.pendingChallenges_eq other]
          exact idle.resolve_left (by simp [free]) task
      | rejected _ _ => exact idle
      | faulted _ => exact idle
      | poisoned _ poisoned => exact .inl poisoned
  | @challenged stx task bond _ _ tx_eq challenged =>
      cases challenged with
      | refused _ _ => exact idle
      | unresolvable _ admits missing =>
          obtain ⟨receipt, sub, provider, pc, bonded⟩ := admits.bonded sound tx_eq
          obtain ⟨body, proof, program, input, _, evidenced, _⟩ :=
            answerable task bond tx_eq ⟨_, admits.applied⟩
          exact (missing ⟨body, proof, program, input, bonded.evidenced_iff.mpr evidenced⟩).elim
      | decided free admits decides =>
          obtain ⟨receipt, sub, provider, pc, bonded⟩ := admits.bonded sound tx_eq
          refine .inr fun probe => ?_
          rw [(decides.verdict_effect bonded).1 probe]
          split
          · rfl
          · exact idle.resolve_left (by simp [free]) probe
      | unsent _ => exact idle
      | faulted _ admits evidenced failed =>
          obtain ⟨receipt, sub, provider, pc, bonded⟩ := admits.bonded sound tx_eq
          obtain ⟨body, proof, program, input, honest, stored, executed⟩ :=
            answerable task bond tx_eq ⟨_, admits.applied⟩
          obtain ⟨rfl, rfl, rfl, rfl⟩ := stored.unique (bonded.evidenced_iff.mp evidenced)
          simp [executed] at failed
      | poisoned poisoned _ => exact .inl poisoned
  | stored bytes => exact idle

/-- Only a lock which is not poisoned answers. -/
theorem Challenged.free {stx : SignedTx} {task : TaskId} {answer : Except ErrorObject OkResp}
    (challenged : Challenged node stx task before (.ok answer) after) :
    before.poisoned = false := by
  cases challenged with
  | refused free _ => exact free
  | unresolvable free _ _ => exact free
  | decided free _ _ => exact free

end Requests

section Sample

open Sample

attribute [local instance] Crypto.checksum Runtime.echo Hex.lower

end Sample

end Ducp
