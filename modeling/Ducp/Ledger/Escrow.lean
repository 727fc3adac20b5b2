import Ducp.Ledger.Consistency

/-!
# Escrow

What an account has in escrow is the sum, over its open tasks, of the ceiling and of the fee fixed
at submission.  A settlement therefore never draws on an escrow that is too small.
-/

namespace Ducp

open DoubleEntry MapSum Outcome Std
open Finsupp (single single_apply)

/-- The submission is open: its ceiling and fee are still in escrow. -/
abbrev Submission.IsOpen (sub : Submission) : Prop :=
  sub.status = .submitted ∨ sub.status = .executing

/-- What a task keeps in escrow for an identity. -/
def View.escrow (id : Identity) (view : View) : ℕ :=
  match view.body, view.sub with
  | some body, some sub =>
      if sub.requester = id ∧ sub.IsOpen then body.limits.maxUcu.toNat + sub.fee.toNat else 0
  | _, _ => 0

theorem View.escrow_unknown (id : Identity) (view : View) (unknown : view.sub = none) :
    view.escrow id = 0 := by
  simp [escrow, unknown]

theorem View.escrow_of_open (id : Identity) {view : View} {body : TaskBody} {sub : Submission}
    (body_eq : view.body = some body) (sub_eq : view.sub = some sub) (opened : sub.IsOpen) :
    view.escrow id =
      (single (Bucket.escrowed sub.requester) (body.limits.maxUcu.toNat + sub.fee.toNat))
        (.escrowed id) := by
  rw [single_apply]
  simp [escrow, body_eq, sub_eq, opened]

theorem View.escrow_of_closed (id : Identity) {view : View} {sub : Submission}
    (sub_eq : view.sub = some sub) (closed : ¬sub.IsOpen) : view.escrow id = 0 := by
  simp only [escrow, sub_eq]
  split <;> simp_all

/-- Every escrow is what the open tasks of its owner keep in it. -/
def EscrowExact (s : State) : Prop :=
  ∀ id, s.book (.escrowed id) = viewTotal (View.escrow id) s

section Preservation

variable {s s' : State}

/-- An event which leaves the escrows and what each task keeps in them alone. -/
theorem EscrowExact.untouched {debits credits : Bucket →₀ ℕ} (exact : EscrowExact s)
    (posts : Posts s.book debits credits s'.book)
    (unposted : ∀ id, debits (.escrowed id) = credits (.escrowed id))
    (kept : ∀ id probe, (s'.view probe).escrow id = (s.view probe).escrow id) :
    EscrowExact s' := by
  intro id
  have posted := posts.apply (.escrowed id)
  rw [unposted id] at posted
  rw [viewTotal_unchanged (View.escrow_unknown id) (kept id), ← exact id]
  exact Nat.add_right_cancel posted

/-- An event which posts on the escrows what it changes in the view of one task. -/
theorem EscrowExact.update {debits credits : Bucket →₀ ℕ} {task : TaskId} {view : View}
    (exact : EscrowExact s) (posts : Posts s.book debits credits s'.book)
    (views : ∀ probe, s'.view probe = if probe = task then view else s.view probe)
    (posted : ∀ id, debits (.escrowed id) + view.escrow id =
      credits (.escrowed id) + (s.view task).escrow id) : EscrowExact s' := by
  intro id
  have booked := posts.apply (.escrowed id)
  have moved := viewTotal_update (View.escrow_unknown id) views
  have balanced := posted id
  have before := exact id
  omega

variable [Crypto]

theorem Payload.escrowExact {author : Identity} {params : Params} {tx : Tx}
    (payload : Payload s author params tx s') (exact : EscrowExact s) : EscrowExact s' := by
  cases payload with
  | @submitTask body task fee _ submits =>
      refine exact.update submits.posts submits.view fun id => ?_
      rw [View.escrow_unknown id (s.view task) submits.fresh,
        View.escrow_of_open id rfl rfl (.inl rfl)]
      simp
  | @claimTask task body sub stake _ claims =>
      refine exact.update claims.posts claims.view fun id => ?_
      let claimed : Submission :=
        { sub with provider := some author, status := .executing, claimStake := stake }
      let view : View := { s.view task with sub := some claimed }
      have body_eq : view.body = some body := claims.body_eq
      have before : (s.view task).escrow id = _ :=
        View.escrow_of_open id claims.body_eq claims.sub_eq (.inl claims.submitted)
      have after : view.escrow id = _ := View.escrow_of_open id body_eq rfl (.inr rfl)
      change _ + view.escrow id = _
      rw [before, after]
      simp [claimed]
  | @submitProof proof body sub receipt record _ settles =>
      refine exact.update settles.posts settles.view fun id => ?_
      have before : (s.view proof.task).escrow id = _ :=
        View.escrow_of_open id settles.body_eq settles.sub_eq (.inr settles.executing)
      rw [before, View.escrow_of_closed id rfl (by simp [Submission.IsOpen])]
      simp
  | @challenge task bond receipt sub _ opens =>
      exact exact.update opens.posts opens.view fun id => by simp [View.escrow]
  | transfer moves =>
      exact exact.untouched moves.posts (fun id => by simp) fun id probe => by rw [moves.view]

/-- Every event keeps the escrows exact. -/
theorem Event.escrowExact (phases : InPhase s) (exact : EscrowExact s) (event : Event s s') :
    EscrowExact s' := by
  cases event with
  | nonce _ _ => exact exact
  | payload payload => exact payload.escrowExact exact
  | tick _ => exact exact
  | release releases =>
      exact exact.update releases.posts releases.view fun id => by simp [View.escrow]
  | @slash task rewardTo _ receipt sub _ _ _ _ slashes =>
      have settled := slashes.settled phases
      obtain ⟨moved, penalizes, moved_eq⟩ := slashes.penalizes
      have book_eq : s'.book = moved.book := by rw [moved_eq]; rfl
      have posts := penalizes.posts
      rw [← book_eq] at posts
      refine exact.update posts slashes.view fun id => ?_
      have found : (s.view task).sub = some sub := slashes.sub_eq
      rw [View.escrow_of_closed id found (by simp [Submission.IsOpen, settled]),
        View.escrow_of_closed id rfl (by simp [Submission.IsOpen])]
      cases rewardTo <;> simp [rewardBucket]
  | close task =>
      exact exact.update (Posts.refl _) (close_view task) fun id => by simp [View.escrow]
  | unlock moves =>
      exact exact.untouched moves.posts (fun id => by simp) fun id probe => by rw [moves.view]
  | forfeit moves =>
      exact exact.untouched moves.posts (fun id => by simp) fun id probe => by rw [moves.view]

omit [Crypto] in
theorem State.IsGenesis.escrowExact {epoch : Epoch} (genesis : State.IsGenesis s epoch) :
    EscrowExact s := by
  intro id
  have tasks_eq : s.tasks = ∅ := congrArg Records.tasks genesis.records
  rw [genesis.unescrowed id, viewTotal, tasks_eq, total_empty]

theorem Reachable.escrowExact (reachable : Reachable s) : EscrowExact s := by
  have carried := reachable.invariant (fun state => InPhase state ∧ EscrowExact state)
    (fun genesis => ⟨genesis.inPhase, genesis.escrowExact⟩)
    fun held event => ⟨event.inPhase held.1, event.escrowExact held.1 held.2⟩
  exact carried.2

end Preservation

/-! ## Settlements do not underflow -/

section Underflow

variable {s : State} {params : Params}

/-- A settlement does not underflow when the escrow covers the task and the ceiling the claim. -/
theorem State.settle_covered {body : TaskBody} {sub : Submission} {proof : ComputeProof}
    (covered : body.limits.maxUcu.toNat + sub.fee.toNat ≤ (s.acct sub.requester).escrowed.toNat)
    (within : proof.ucuCount ≤ body.limits.maxUcu) :
    Checked.Avoids .underflow (s.settle body sub proof params) := by
  have drains : Checked.Avoids .underflow
      (s.drainEscrow sub.requester body.limits.maxUcu sub.fee proof.ucuCount) := by
    simp only [drainEscrow, Checked.avoids_bind, Checked.avoids_pure, implies_true, and_true]
    refine ⟨Checked.avoids_add (by simp), fun drained drained_eq => ⟨fun failed => ?_,
      fun escrowed _ => ⟨fun failed => ?_, fun refund _ => Checked.avoids_add (by simp)⟩⟩⟩
    · rw [Checked.add_eq_ok] at drained_eq
      have short := (Checked.sub_eq_error.mp failed).2
      omega
    · have short := (Checked.sub_eq_error.mp failed).2
      rw [BitVec.le_def] at within
      omega
  simp [settle, drains]

/-- The escrow of a requester covers each of its open tasks. -/
theorem EscrowExact.covered (exact : EscrowExact s) {task : TaskId} {body : TaskBody}
    {sub : Submission} (body_eq : s.bodies[task]? = some body)
    (sub_eq : s.tasks[task]? = some sub) (opened : sub.IsOpen) :
    body.limits.maxUcu.toNat + sub.fee.toNat ≤ (s.acct sub.requester).escrowed.toNat := by
  have kept := le_viewTotal (View.escrow sub.requester) sub_eq
  rw [← exact sub.requester, State.book_escrowed,
    View.escrow_of_open sub.requester body_eq sub_eq opened] at kept
  simpa using kept

/-- A proof of an open task of an exact escrow does not underflow. -/
theorem EscrowExact.submitProof_avoids (exact : EscrowExact s) {author : Identity}
    {proof : ComputeProof} : (s.submitProof author proof params).Avoids .underflow := by
  simp [State.submitProof]
  intro body body_eq sub sub_eq executing _ _ within _ verified _
  exact State.settle_covered (exact.covered body_eq sub_eq (.inr executing)) within

end Underflow

/-- In every reachable state the escrow of an identity is the sum, over its submitted and executing
tasks, of the ceiling and the fee; hence no proof makes a settlement underflow. -/
theorem escrow_exact [Crypto] {s : State} (reachable : Reachable s) :
    (∀ id : Identity, (s.acct id).escrowed.toNat =
      total (fun (task : TaskId) (sub : Submission) =>
        if sub.requester = id ∧ (sub.status = .submitted ∨ sub.status = .executing) then
          ((s.bodies[task]?).elim 0 fun body => body.limits.maxUcu.toNat) + sub.fee.toNat
        else 0) s.tasks) ∧
      ∀ (stx : SignedTx) (params : Params) (proof : ComputeProof), stx.tx = .submitProof proof →
        (s.apply stx params).Avoids .underflow := by
  have exact := reachable.escrowExact
  constructor
  · intro id
    rw [← State.book_escrowed, exact id]
    apply total_congr_on
    intro task sub found
    have sub_eq : (s.view task).sub = some sub := found
    obtain ⟨body, body_eq⟩ := (reachable.inPhase task).exists_body sub_eq
    have same : s.bodies[task]? = some body := body_eq
    simp [View.escrow, Submission.IsOpen, sub_eq, body_eq, same]
  · intro stx params proof tx_eq
    simp [State.apply, State.checkAndBumpNonce]
    intro _ _ next _
    rw [tx_eq]
    have bumped : EscrowExact { s with nonces := s.nonces.insert stx.author next } := exact
    exact bumped.submitProof_avoids

section Sample

open Sample

attribute [local instance] Crypto.checksum

theorem escrow_exact_claimed :
    ∃ s, outcomeOf allocations 0 ((settled 400).take 2) = some s ∧
      (s.acct alice).escrowed = 1001 ∧
      (∀ id : Identity, (s.acct id).escrowed.toNat =
        total (fun (task : TaskId) (sub : Submission) =>
          if sub.requester = id ∧ (sub.status = .submitted ∨ sub.status = .executing) then
            ((s.bodies[task]?).elim 0 fun body => body.limits.maxUcu.toNat) + sub.fee.toNat
          else 0) s.tasks) ∧
        ∀ (stx : SignedTx) (params : Params) (proof : ComputeProof), stx.tx = .submitProof proof →
          (s.apply stx params).Avoids .underflow := by
  have escrowed : (outcomeOf allocations 0 ((settled 400).take 2)).any
      (fun s => (s.acct alice).escrowed = 1001) = true := by decide +kernel
  obtain ⟨s, ran, escrowed⟩ := (Option.any_eq_true _ _).mp escrowed
  exact ⟨s, ran, of_decide_eq_true escrowed, escrow_exact (reachable_of_outcomeOf ran)⟩

end Sample

end Ducp
