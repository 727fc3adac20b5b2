import Ducp.Ledger.Effects

/-!
# Ledger events

An accepted operation is a sequence of events, each of which changes one thing.  An invariant of
the ledger is proved once for every event, and holds of every reachable state.
-/

namespace Ducp

open Borsh DoubleEntry MapSum Outcome Relation Std
open Finsupp (single degree)

/-- One event on the ledger. -/
inductive Event [Crypto] (s : State) : State → Prop
  | nonce (author : Identity) (next : BitVec 64) :
      Event s { s with nonces := s.nonces.insert author next }
  | payload {author : Identity} {params : Params} {tx : Tx} {s' : State} :
      Payload s author params tx s' → Event s s'
  | tick {epoch : Epoch} {standing : ExtTreeMap Identity StandingRecord} :
      epoch.toNat = s.epoch.toNat + 1 → Event s { s with epoch, standing }
  | release {matured : TaskId × Identity × Ucu} {receipt : Receipt} {sub : Submission}
      {s' : State} :
      Releases s matured receipt sub s' → Event s s'
  | slash {task : TaskId} {rewardTo : Option Identity} {params : Params} {receipt : Receipt}
      {sub : Submission} {provider : Identity} {penalty : Penalty} {record : StandingRecord}
      {s' : State} :
      Slashes s task rewardTo params receipt sub provider penalty record s' → Event s s'
  | close (task : TaskId) :
      Event s { s with pendingChallenges := s.pendingChallenges.erase task }
  | unlock {id : Identity} {returned : ℕ} {s' : State} :
      Moves s (single (.bonded id) returned) (single (.balance id) returned) s' → Event s s'
  | forfeit {id : Identity} {forfeited : ℕ} {s' : State} :
      Moves s (single (.bonded id) forfeited) (single .burned forfeited) s' → Event s s'

section Decomposition

variable [Crypto] {s s' : State}

theorem Convicts.events {task : TaskId} {rewardTo : Option Identity} {params : Params}
    (convicts : Convicts s task rewardTo params s') : ReflTransGen Event s s' := by
  cases convicts with
  | idle _ => exact .refl
  | slash slashes => exact .single (.slash slashes)

theorem Closes.events {task : TaskId} {fraud : Bool} {params : Params}
    (closes : Closes s task params fraud s') : ReflTransGen Event s s' := by
  cases closes with
  | idle _ => exact .refl
  | won _ convicts moves =>
      exact (ReflTransGen.single (.close task)).trans convicts.events |>.tail (.unlock moves)
  | lost _ moves => exact (ReflTransGen.single (.close task)).tail (.forfeit moves)

theorem State.Advances.events {params : Params} {ticked : State}
    (advances : State.Advances s params ticked s') : ReflTransGen Event s s' := by
  obtain ⟨epoch, standing, epoch_eq, rfl, _⟩ := advances.ticks
  have ticks : Event s { s with epoch, standing } := .tick epoch_eq
  apply advances.run.invariant (ReflTransGen Event s) (.single ticks)
  rintro before stake after earlier ⟨receipt, sub, releases⟩
  exact earlier.tail (.release releases)

/-- An accepted operation is a sequence of events. -/
theorem Effect.events {op : Op} (effect : Effect s op s') : ReflTransGen Event s s' := by
  cases effect with
  | apply _ _ _ payload => exact (ReflTransGen.single (.nonce _ _)).tail (.payload payload)
  | advanceEpoch advances => exact advances.events
  | resolveFraud convicts => exact convicts.events
  | resolveChallenge closes => exact closes.events

/-- What every event preserves, every accepted operation preserves. -/
theorem Step.preserves (holds : State → Prop)
    (preserved : ∀ {before after}, holds before → Event before after → holds after)
    {op : Op} (step : Step s op s') (initial : holds s) : holds s' := by
  have events := step.effect.events
  clear step
  induction events with
  | refl => exact initial
  | tail _ event ih => exact preserved ih event

end Decomposition

/-! ## Genesis -/

namespace State

theorem book_empty (epoch : Epoch) : (empty epoch).book = 0 := by
  simp [book, empty]

/-- What the allocations put into the balances. -/
noncomputable def granted (allocations : List (Identity × Ucu)) : Bucket →₀ ℕ :=
  (allocations.map fun allocation => single (.balance allocation.1) allocation.2.toNat).sum

theorem granted_elsewhere (allocations : List (Identity × Ucu)) (id : Identity) :
    granted allocations (.escrowed id) = 0 ∧ granted allocations (.bonded id) = 0 := by
  induction allocations with
  | nil => simp [granted]
  | cons allocation allocations ih => simpa [granted] using ih

/-- A genesis allocation credits balances and nothing else. -/
theorem allocate_moves {allocations : List (Identity × Ucu)} {s s' : State}
    {minted minted' : Ucu} (allocated : allocate allocations s minted = .ok (s', minted')) :
    Moves s 0 (granted allocations) s' ∧
      minted'.toNat = minted.toNat + degree (granted allocations) := by
  induction allocations generalizing s minted with
  | nil =>
      simp only [allocate, Checked.pure_eq_ok, Prod.mk.injEq] at allocated
      obtain ⟨rfl, rfl⟩ := allocated
      exact ⟨Moves.refl s, by simp [granted]⟩
  | cons allocation allocations ih =>
      simp only [allocate, Checked.bind_eq_ok, Checked.add_eq_ok] at allocated
      obtain ⟨credited, credit_eq, running, running_eq, rest⟩ := allocated
      obtain ⟨moves, minted_eq⟩ := ih rest
      have composed := (credit_moves credit_eq).trans moves
      rw [add_zero] at composed
      have split : granted (allocation :: allocations) =
          single (.balance allocation.1) allocation.2.toNat + granted allocations := by
        simp [granted]
      rw [split]
      refine ⟨composed, ?_⟩
      rw [minted_eq, running_eq, map_add, Finsupp.degree_single, add_assoc]

/-- The state at genesis: no record, and every minted unit in a balance. -/
structure IsGenesis (s : State) (epoch : Epoch) : Prop where
  records : s.records = (empty epoch).records
  minted : degree s.book = s.supply.minted.toNat
  unescrowed : ∀ id, s.book (.escrowed id) = 0
  unbonded : ∀ id, s.book (.bonded id) = 0

theorem genesis_book {allocations : List (Identity × Ucu)} {epoch : Epoch} {s : State}
    (initial : genesis allocations epoch = .ok s) : s.book = granted allocations := by
  simp only [genesis, Checked.bind_eq_ok, Prod.exists, Checked.pure_eq_ok] at initial
  obtain ⟨allocated, minted, allocated_eq, rfl⟩ := initial
  have posts := (allocate_moves allocated_eq).1.posts
  rw [Posts, book_empty, add_zero, zero_add] at posts
  exact posts

theorem genesis_effect {allocations : List (Identity × Ucu)} {epoch : Epoch} {s : State}
    (initial : genesis allocations epoch = .ok s) : IsGenesis s epoch := by
  have book_eq := genesis_book initial
  simp only [genesis, Checked.bind_eq_ok, Prod.exists, Checked.pure_eq_ok] at initial
  obtain ⟨allocated, minted, allocated_eq, rfl⟩ := initial
  obtain ⟨moves, minted_eq⟩ := allocate_moves allocated_eq
  exact
    { records := moves.records
      minted := by
        rw [book_eq]
        simpa using minted_eq.symm
      unescrowed := fun id => by rw [book_eq, (granted_elsewhere allocations id).1]
      unbonded := fun id => by rw [book_eq, (granted_elsewhere allocations id).2] }

end State

/-- What holds at genesis and is preserved by every event holds of every reachable state. -/
theorem Reachable.invariant [Crypto] {s : State} (holds : State → Prop)
    (initial : ∀ {start epoch}, State.IsGenesis start epoch → holds start)
    (preserved : ∀ {before after}, holds before → Event before after → holds after)
    (reachable : Reachable s) : holds s := by
  obtain ⟨allocations, epoch, start, ops, genesis_eq, run⟩ := reachable
  exact run.invariant holds (initial (State.genesis_effect genesis_eq))
    fun held step => step.preserves holds preserved held

/-- The state after a genesis and a sequence of operations, when all of them are accepted. -/
def outcomeOf [Crypto] (allocations : List (Identity × Ucu)) (epoch : Epoch) (ops : List Op) :
    Option State :=
  match (do ops.foldlM Op.exec (← liftM (State.genesis allocations epoch)) :
    Outcome Reject State) with
  | .ok (.ok s) => some s
  | _ => none

theorem outcomeOf_eq_some [Crypto] {allocations : List (Identity × Ucu)} {epoch : Epoch}
    {ops : List Op} {s : State} :
    outcomeOf allocations epoch ops = some s ↔
      ∃ start, State.genesis allocations epoch = .ok start ∧
        (ops.foldlM Op.exec start).Returns s := by
  have ran : outcomeOf allocations epoch ops = some s ↔
      (do ops.foldlM Op.exec (← liftM (State.genesis allocations epoch)) :
        Outcome Reject State).Returns s := by
    unfold outcomeOf Outcome.Returns ExceptT.run
    split <;> simp_all
  simp only [ran, returns_bind, returns_lift]

theorem reachable_of_outcomeOf [Crypto] {allocations : List (Identity × Ucu)} {epoch : Epoch}
    {ops : List Op} {s : State} (ran : outcomeOf allocations epoch ops = some s) :
    Reachable s := by
  obtain ⟨start, genesis_eq, folded⟩ := outcomeOf_eq_some.mp ran
  exact ⟨allocations, epoch, start, ops, genesis_eq, Run.of_returns folded⟩

/-- The last operation of a history is a step from the state before it. -/
theorem outcomeOf_snoc [Crypto] {allocations : List (Identity × Ucu)} {epoch : Epoch}
    {ops : List Op} {op : Op} {s' : State}
    (ran : outcomeOf allocations epoch (ops ++ [op]) = some s') :
    ∃ s, outcomeOf allocations epoch ops = some s ∧ Step s op s' := by
  obtain ⟨start, genesis_eq, folded⟩ := outcomeOf_eq_some.mp ran
  rw [List.foldlM_append, returns_bind] at folded
  obtain ⟨s, earlier, last⟩ := folded
  refine ⟨s, outcomeOf_eq_some.mpr ⟨start, genesis_eq, earlier⟩, ?_⟩
  simp only [List.foldlM_cons, List.foldlM_nil, bind_pure] at last
  exact last

theorem Reachable.step [Crypto] {s s' : State} {op : Op} (reachable : Reachable s)
    (step : Step s op s') : Reachable s' := by
  obtain ⟨allocations, epoch, start, ops, genesis_eq, run⟩ := reachable
  exact ⟨allocations, epoch, start, ops ++ [op], genesis_eq, run.snoc step⟩

theorem Reachable.run [Crypto] {s s' : State} {ops : List Op} (reachable : Reachable s)
    (run : Run Step s ops s') : Reachable s' :=
  run.invariant Reachable reachable fun reached step => reached.step step

/-! ## A sample history -/

namespace Sample

attribute [local instance] Crypto.checksum

/-- The requester. -/
def alice : Identity := Bytes.fill 32 1
/-- The provider. -/
def bob : Identity := Bytes.fill 32 2
/-- The challenger. -/
def carol : Identity := Bytes.fill 32 3

/-- The initial balances. -/
def allocations : List (Identity × Ucu) := [(alice, 10000), (bob, 10000), (carol, 10000)]

/-- A task with a ceiling of 1000, told apart by its nonce. -/
def body (nonce : BitVec 64) : TaskBody where
  ir := .wasm
  program := Bytes.fill 32 11
  input := Bytes.fill 32 12
  limits := { maxUcu := 1000, maxMemoryBytes := 65536 }
  tier := .sampledReexec
  benchmark := 1
  deadline := 10
  failurePolicy := .autoRequeue
  nonce

/-- The identifier of a sample task. -/
def task (nonce : BitVec 64) : TaskId := Crypto.hashBytes (layout (body nonce))

/-- The proof of a sample task. -/
def proof (nonce : BitVec 64) (ucuCount : Ucu) : ComputeProof where
  task := task nonce
  provider := bob
  output := Bytes.fill 32 13
  resultHash := Bytes.fill 32 14
  ucuCount
  benchmark := 1
  tierData := .sampledReexec
  powerSeal := none

/-- A transaction under the devnet parameters. -/
def sent (author : Identity) (nonce : BitVec 64) (tx : Tx) : Op :=
  .apply { author, tx, nonce, sig := Bytes.fill 64 0 } .devnet

/-- A task is submitted, claimed and settled for an amount. -/
def settled (ucuCount : Ucu) : List Op :=
  [sent alice 0 (.submitTask (body 0)), sent bob 0 (.claimTask (task 0)),
    sent bob 1 (.submitProof (proof 0 ucuCount))]

/-- A settlement is challenged and slashed across an epoch boundary. -/
def slashed : Option State :=
  outcomeOf allocations 0 (settled 400 ++
    [sent carol 0 (.challenge (task 0) 200), .advanceEpoch .devnet,
      .resolveChallenge (task 0) true .devnet, sent alice 1 (.transfer bob 5)])

end Sample

end Ducp
