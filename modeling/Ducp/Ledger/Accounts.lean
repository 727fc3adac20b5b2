import Ducp.Ledger.Faultless

/-!
# What an account is made of

Without a conviction an account holds its genesis allocation, what transfers brought and took, what
its settled tasks earned and cost, and nothing else.  Escrows, stakes and bonds move within the
account; only a lost bond leaves it.
-/

namespace Ducp

open DoubleEntry MapSum Outcome Std
open Finsupp (single single_apply)

/-! ## The entries of an account -/

/-- Everything an account holds. -/
def State.holdings (s : State) (id : Identity) : ℕ :=
  (s.acct id).balance.toNat + (s.acct id).escrowed.toNat + (s.acct id).bonded.toNat

/-- What a settled task pays to its provider. -/
def View.earned (id : Identity) (view : View) : ℕ :=
  view.sub.elim 0 fun sub => view.receipt.elim 0 fun receipt =>
    if sub.status = .settled ∧ sub.provider = some id then
      receipt.paidToProvider.toNat + receipt.workIssuance.toNat
    else 0

/-- What a settled task costs its requester. -/
def View.spent (id : Identity) (view : View) : ℕ :=
  view.sub.elim 0 fun sub => view.receipt.elim 0 fun receipt =>
    if sub.status = .settled ∧ sub.requester = id then
      receipt.paidToProvider.toNat + receipt.validatorFee.toNat
    else 0

/-- What a payload transfers to an identity. -/
def Tx.received (id : Identity) : Tx → ℕ
  | .transfer recipient amount => if recipient = id then amount.toNat else 0
  | _ => 0

/-- What a payload of an author transfers away from an identity. -/
def Tx.sent (id author : Identity) : Tx → ℕ
  | .transfer _ amount => if author = id then amount.toNat else 0
  | _ => 0

/-- What an operation transfers to an identity. -/
def Op.received (id : Identity) : Op → ℕ
  | .apply stx _ => stx.tx.received id
  | _ => 0

/-- What an operation transfers away from an identity. -/
def Op.sent (id : Identity) : Op → ℕ
  | .apply stx _ => stx.tx.sent id stx.author
  | _ => 0

/-- The bond which an identity loses when an operation dismisses its challenge. -/
def Op.forfeited (id : Identity) (s : State) : Op → ℕ
  | .resolveChallenge task false _ =>
      (s.pendingChallenges[task]?).elim 0 fun pc => if pc.challenger = id then pc.bond.toNat else 0
  | _ => 0

/-- What genesis allocates to an identity. -/
def allocated (id : Identity) (allocations : List (Identity × Ucu)) : ℕ :=
  (allocations.map fun allocation => if allocation.1 = id then allocation.2.toNat else 0).sum

/-! ## What a step does to an account -/

/-- What an account holds beyond what its settled tasks account for. -/
def worth (id : Identity) (s : State) : ℤ :=
  s.holdings id + viewTotal (View.spent id) s - viewTotal (View.earned id) s

theorem View.earned_unknown (id : Identity) (view : View) (unknown : view.sub = none) :
    view.earned id = 0 := by
  simp [earned, unknown]

theorem View.spent_unknown (id : Identity) (view : View) (unknown : view.sub = none) :
    view.spent id = 0 := by
  simp [spent, unknown]

section Steps

variable {s s' : State} (id : Identity)

/-- What a posting puts into an account and takes out of it. -/
theorem holdings_posts {debits credits : Bucket →₀ ℕ}
    (posts : Posts s.book debits credits s'.book) :
    s'.holdings id + debits (.balance id) + debits (.escrowed id) + debits (.bonded id) =
      s.holdings id + credits (.balance id) + credits (.escrowed id) + credits (.bonded id) := by
  have balance := posts.apply (.balance id)
  have escrowed := posts.apply (.escrowed id)
  have bonded := posts.apply (.bonded id)
  simp only [State.book_balance, State.book_escrowed, State.book_bonded] at balance escrowed bonded
  unfold State.holdings
  omega

/-- An event which rewrites one view and posts on the accounts. -/
theorem worth_update {debits credits : Bucket →₀ ℕ} {task : TaskId} {view : View}
    (posts : Posts s.book debits credits s'.book)
    (views : ∀ probe, s'.view probe = if probe = task then view else s.view probe) :
    worth id s' + debits (.balance id) + debits (.escrowed id) + debits (.bonded id) +
        view.earned id + (s.view task).spent id =
      worth id s + credits (.balance id) + credits (.escrowed id) + credits (.bonded id) +
        view.spent id + (s.view task).earned id := by
  have held := holdings_posts id posts
  have earned := viewTotal_update (View.earned_unknown id) views
  have spent := viewTotal_update (View.spent_unknown id) views
  unfold worth
  omega

/-- An event which leaves the submission and the receipt of its task alone changes the worth by what
it posts on the account. -/
theorem worth_rewrite {debits credits : Bucket →₀ ℕ} {task : TaskId} {view : View}
    (posts : Posts s.book debits credits s'.book)
    (views : ∀ probe, s'.view probe = if probe = task then view else s.view probe)
    (sub_eq : view.sub = (s.view task).sub) (receipt_eq : view.receipt = (s.view task).receipt) :
    worth id s' + debits (.balance id) + debits (.escrowed id) + debits (.bonded id) =
      worth id s + credits (.balance id) + credits (.escrowed id) + credits (.bonded id) := by
  have moved := worth_update id posts views
  have earned : view.earned id = (s.view task).earned id := by
    simp only [View.earned, sub_eq, receipt_eq]
  have spent : view.spent id = (s.view task).spent id := by
    simp only [View.spent, sub_eq, receipt_eq]
  omega

/-- A movement of funds changes the worth by what it posts on the account. -/
theorem Moves.worth {debits credits : Bucket →₀ ℕ} (moves : Moves s debits credits s') :
    worth id s' + debits (.balance id) + debits (.escrowed id) + debits (.bonded id) =
      worth id s + credits (.balance id) + credits (.escrowed id) + credits (.bonded id) := by
  have held := holdings_posts id moves.posts
  have earned := viewTotal_unchanged (View.earned_unknown id)
    fun probe => congrArg (View.earned id) (moves.view probe)
  have spent := viewTotal_unchanged (View.spent_unknown id)
    fun probe => congrArg (View.spent id) (moves.view probe)
  unfold Ducp.worth
  omega

theorem Payload.worth [Crypto] {author : Identity} {params : Params} {tx : Tx}
    (phases : InPhase s) (payload : Payload s author params tx s') :
    worth id s' + tx.sent id author = worth id s + tx.received id := by
  cases payload with
  | @submitTask body task fee _ submits =>
      have moved := worth_update id submits.posts submits.view
      rw [(phases task).of_fresh submits.fresh] at moved
      simp [View.earned, View.spent, single_apply] at moved
      simp [Tx.sent, Tx.received]
      omega
  | @claimTask task body sub stake _ claims =>
      have moved := worth_update id claims.posts claims.view
      obtain ⟨body, view_eq, _⟩ := (phases task).of_submitted claims.sub_eq claims.submitted
      rw [view_eq] at moved
      simp [View.earned, View.spent, single_apply] at moved
      simp [Tx.sent, Tx.received]
      omega
  | @submitProof proof body sub receipt record _ settles =>
      have moved := worth_update id settles.posts settles.view
      obtain ⟨body, provider, view_eq, _⟩ :=
        (phases proof.task).of_executing settles.sub_eq settles.executing
      rw [view_eq] at moved
      simp [View.earned, View.spent, settles.provider, settles.paid, settles.validatorFee,
        single_apply] at moved
      have within := settles.ucuCount_le
      simp [Tx.sent, Tx.received]
      by_cases provides : author = id <;> by_cases requests : sub.requester = id <;>
        simp [provides, requests] at moved <;> omega
  | @challenge task bond receipt sub _ opens =>
      have moved := worth_rewrite id opens.posts opens.view rfl rfl
      simp [single_apply] at moved
      simp [Tx.sent, Tx.received]
      omega
  | transfer moves =>
      have moved := moves.worth id
      simpa [Tx.sent, Tx.received, single_apply] using moved

/-- A release moves within the account. -/
theorem State.ReleaseStep.worth {matured : TaskId × Identity × Ucu}
    (released : State.ReleaseStep s matured s') : worth id s' = worth id s := by
  obtain ⟨receipt, sub, releases⟩ := released
  have moved := worth_rewrite id releases.posts releases.view rfl rfl
  simp [single_apply] at moved
  omega

theorem State.Advances.worth {params : Params} {ticked : State}
    (advances : State.Advances s params ticked s') : Ducp.worth id s' = Ducp.worth id s := by
  obtain ⟨epoch, standing, _, rfl, _⟩ := advances.ticks
  have ticked : Ducp.worth id { s with epoch, standing } = Ducp.worth id s := rfl
  apply advances.run.invariant (fun state => Ducp.worth id state = Ducp.worth id s) ticked
  rintro before stake after same released
  exact (State.ReleaseStep.worth id released).trans same

theorem close_worth (task : TaskId) :
    Ducp.worth id { s with pendingChallenges := s.pendingChallenges.erase task } =
      Ducp.worth id s := by
  let closed : State := { s with pendingChallenges := s.pendingChallenges.erase task }
  have posts : Posts s.book 0 0 closed.book := Posts.refl s.book
  have moved := worth_rewrite id posts (close_view task) rfl rfl
  simp only [Finsupp.zero_apply] at moved
  change Ducp.worth id closed = _
  omega

/-- A dismissal takes the bond from the challenger. -/
theorem Closes.worth [Crypto] {task : TaskId} {params : Params} (backed : Backed s)
    (closes : Closes s task params false s') :
    Ducp.worth id s' + (Op.resolveChallenge task false params).forfeited id s =
      Ducp.worth id s := by
  cases pending : s.pendingChallenges[task]? with
  | none =>
      cases closes with
      | idle _ => simp [Op.forfeited, pending]
      | lost found _ => simp [pending] at found
  | some pc =>
      have moved := (closes.dismissed backed pending).worth id
      have kept : Ducp.worth id { s with pendingChallenges := s.pendingChallenges.erase task } =
          Ducp.worth id s := close_worth id task
      rw [kept] at moved
      simp [single_apply] at moved
      simp [Op.forfeited, pending]
      omega

/-- An operation which convicts nobody changes the worth of an account by its transfers and by the
bond it forfeits. -/
theorem FaultlessStep.worth [Crypto] {op : Op} (backed : Backed s) (step : FaultlessStep s op s') :
    Ducp.worth id s' + op.sent id + op.forfeited id s = Ducp.worth id s + op.received id := by
  obtain ⟨step, faultless⟩ := step
  cases step.effect with
  | @apply stx _ next _ _ _ _ payload =>
      have bumped : InPhase { s with nonces := s.nonces.insert stx.author next } := backed.phases
      have moved := payload.worth id bumped
      have same : Ducp.worth id { s with nonces := s.nonces.insert stx.author next } =
          Ducp.worth id s := rfl
      rw [same] at moved
      simpa [Op.sent, Op.forfeited, Op.received] using moved
  | advanceEpoch advances =>
      simpa [Op.sent, Op.forfeited, Op.received] using advances.worth id
  | resolveFraud _ => cases faultless
  | resolveChallenge closes =>
      cases faultless
      simpa [Op.sent, Op.received] using closes.worth id backed

theorem State.genesis_worth {allocations : List (Identity × Ucu)} {epoch : Epoch}
    (genesis_eq : State.genesis allocations epoch = .ok s) :
    Ducp.worth id s = allocated id allocations := by
  have genesis := State.genesis_effect genesis_eq
  have book_eq := State.genesis_book genesis_eq
  have tasks_eq : s.tasks = ∅ := congrArg Records.tasks genesis.records
  have balance : (State.granted allocations) (.balance id) = allocated id allocations := by
    clear book_eq genesis_eq
    induction allocations with
    | nil => simp [State.granted, allocated]
    | cons allocation allocations ih =>
        simpa [State.granted, allocated, single_apply] using ih
  have held : s.holdings id = allocated id allocations := by
    rw [State.holdings, ← State.book_balance, ← State.book_escrowed, ← State.book_bonded, book_eq,
      balance, (State.granted_elsewhere allocations id).1,
      (State.granted_elsewhere allocations id).2]
    rfl
  rw [Ducp.worth, held, viewTotal, viewTotal, tasks_eq, total_empty, total_empty]
  simp

end Steps

/-! ## Whole histories -/

/-- The worth of an account has changed by what a history has transferred and forfeited. -/
def Accounted (id : Identity) (start : State) (history : List (State × Op)) (final : State) :
    Prop :=
  worth id final + ((history.map fun entry => entry.2.sent id).sum : ℕ) +
      ((history.map fun entry => entry.2.forfeited id entry.1).sum : ℕ) =
    worth id start + ((history.map fun entry => entry.2.received id).sum : ℕ)

/-- Along every history of transactions, epoch boundaries and dismissed challenges an account holds
its genesis allocation, plus what it received and what the settled tasks it provided paid, less what
it sent, what the settled tasks it requested cost, and the bonds of its dismissed challenges. -/
theorem account_identity [Crypto] {allocations : List (Identity × Ucu)} {epoch : Epoch}
    {start final : State} {history : List (State × Op)}
    (genesis_eq : State.genesis allocations epoch = .ok start)
    (run : Run (Run.Recorded Step) start history final)
    (faultless : ∀ entry ∈ history, entry.2.Faultless) (id : Identity) :
    ((final.acct id).balance.toNat + (final.acct id).escrowed.toNat +
        (final.acct id).bonded.toNat : ℤ) =
      allocated id allocations + (history.map fun entry => entry.2.received id).sum -
        (history.map fun entry => entry.2.sent id).sum + viewTotal (View.earned id) final -
        viewTotal (View.spent id) final -
        (history.map fun entry => entry.2.forfeited id entry.1).sum := by
  have genesis := State.genesis_effect genesis_eq
  have clean_run : Run (fun before entry after =>
      entry.1 = before ∧ FaultlessStep before entry.2 after) start history final :=
    run.mono fun entry member before after recorded =>
      ⟨recorded.1, recorded.2, faultless entry member⟩
  have accounted : Unblemished final ∧ Accounted id start history final := by
    apply clean_run.traced fun history state => Unblemished state ∧ Accounted id start history state
    · exact ⟨genesis.unblemished, by simp [Accounted]⟩
    · rintro history before ⟨state, op⟩ after ⟨clean, held⟩ ⟨same, step⟩
      obtain rfl : state = before := same
      have moved : worth id after + op.sent id + op.forfeited id state =
          worth id state + op.received id := step.worth id clean.toBacked
      refine ⟨step.unblemished clean, ?_⟩
      simp only [Accounted, List.map_append, List.map_cons, List.map_nil, List.sum_append,
        List.sum_singleton] at held ⊢
      omega
  have ended := accounted.2
  rw [Accounted, State.genesis_worth id genesis_eq, worth, State.holdings] at ended
  omega

section Sample

open Sample

attribute [local instance] Crypto.checksum

/-- A settlement, a transfer of the provider to itself, and a challenge by the provider itself which
is dismissed after an epoch boundary. -/
def Sample.dismissed : List Op :=
  settled 400 ++ [sent bob 2 (.transfer bob 30), sent bob 3 (.challenge (task 0) 200),
    .advanceEpoch .devnet, .resolveChallenge (task 0) false .devnet, sent bob 4 (.transfer alice 5)]

theorem account_identity_dismissed : ∃ start final history,
    State.genesis allocations 0 = .ok start ∧ Run (Run.Recorded Step) start history final ∧
      history.map Prod.snd = dismissed ∧ final.holdings bob = 10199 ∧
      ((final.acct bob).balance.toNat + (final.acct bob).escrowed.toNat +
          (final.acct bob).bonded.toNat : ℤ) =
        allocated bob allocations + (history.map fun entry => entry.2.received bob).sum -
          (history.map fun entry => entry.2.sent bob).sum + viewTotal (View.earned bob) final -
          viewTotal (View.spent bob) final -
          (history.map fun entry => entry.2.forfeited bob entry.1).sum := by
  have ran : (outcomeOf allocations 0 dismissed).any (fun s => s.holdings bob = 10199) = true := by
    decide +kernel
  obtain ⟨final, ran, holds⟩ := (Option.any_eq_true _ _).mp ran
  obtain ⟨start, genesis_eq, folded⟩ := outcomeOf_eq_some.mp ran
  obtain ⟨history, ops_eq, run⟩ := (Run.of_returns folded).exists_recorded
  have faultless : ∀ entry ∈ history, entry.2.Faultless := by
    intro entry member
    have member_ops : entry.2 ∈ dismissed := ops_eq ▸ List.mem_map_of_mem member
    simp only [dismissed, settled, sent, List.cons_append, List.nil_append, List.mem_cons,
      List.not_mem_nil, or_false] at member_ops
    rcases member_ops with same | same | same | same | same | same | same | same <;> rw [same]
    all_goals constructor
  exact ⟨start, final, history, genesis_eq, run, ops_eq, of_decide_eq_true holds,
    account_identity genesis_eq run faultless bob⟩

end Sample

end Ducp
