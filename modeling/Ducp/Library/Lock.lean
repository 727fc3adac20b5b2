import Ducp.Library.Checked

/-!
# State behind a lock

A computation enters a critical section with the guarded state and leaves it with the next one.  A
panic inside a section poisons the lock, after which every entry panics.  A panic or an error
outside a section leaves the guarded state as the last section left it.
-/

/-- A lock and the state it guards. -/
structure Lock (σ : Type) where
  /-- The guarded state. -/
  state : σ
  /-- Whether a holder of the lock has panicked. -/
  poisoned : Bool
  deriving DecidableEq

/-- A fresh lock. -/
def Lock.new {σ : Type} (state : σ) : Lock σ := { state, poisoned := false }

/-- A computation over a guarded state, which returns, reports an error of type `ε`, or panics. -/
def Guarded (σ ε α : Type) : Type := Lock σ → Checked (Except ε α) × Lock σ

namespace Guarded

variable {σ ε δ α β : Type}

instance : Monad (Guarded σ ε) where
  pure value := fun lock => (.ok (.ok value), lock)
  bind action next := fun lock =>
    match action lock with
    | (.ok (.ok value), lock) => next value lock
    | (.ok (.error reason), lock) => (.ok (.error reason), lock)
    | (.error fault, lock) => (.error fault, lock)

protected theorem map_id (action : Guarded σ ε α) : id <$> action = action := by
  funext lock
  simp only [Functor.map]
  cases action lock with
  | mk result lock => rcases result with fault | reason | value <;> rfl

protected theorem bind_assoc {γ : Type} (action : Guarded σ ε α) (next : α → Guarded σ ε β)
    (last : β → Guarded σ ε γ) :
    action >>= next >>= last = action >>= fun value => next value >>= last := by
  funext lock
  simp only [bind]
  cases action lock with
  | mk result lock => rcases result with fault | reason | value <;> rfl

instance : LawfulMonad (Guarded σ ε) :=
  LawfulMonad.mk' (Guarded σ ε) Guarded.map_id (fun _ _ => rfl) Guarded.bind_assoc

instance : MonadLift (Outcome ε) (Guarded σ ε) where
  monadLift action := fun lock => (action.run, lock)

/-- Enter the lock, panicking when it is poisoned. -/
def locked (critical : σ → Checked (Except ε α × σ)) : Guarded σ ε α := fun lock =>
  if lock.poisoned then (.error .poisoned, lock)
  else
    match critical lock.state with
    | .ok (result, state) => (.ok result, { lock with state })
    | .error fault => (.error fault, { lock with poisoned := true })

/-- A critical section which only reads. -/
def read (query : σ → Except ε α) : Guarded σ ε α := locked fun state => .ok (query state, state)

/-- A critical section which always completes with a next state. -/
def update (change : σ → Checked σ) : Guarded σ ε PUnit := locked fun state => do
  return (.ok ⟨⟩, ← change state)

/-- `map_err`: rephrase the reported error. -/
def mapErr (rephrase : ε → δ) (action : Guarded σ ε α) : Guarded σ δ α := fun lock =>
  match action lock with
  | (.ok result, lock) => (.ok (result.mapError rephrase), lock)
  | (.error fault, lock) => (.error fault, lock)

/-! ## How a computation ends -/

/-- The computation ends so, and leaves the lock behind. -/
def Ends (action : Guarded σ ε α) (before : Lock σ) (ending : Checked (Except ε α))
    (after : Lock σ) : Prop :=
  action before = (ending, after)

/-- The computation returns a value and leaves the lock behind. -/
def Returns (action : Guarded σ ε α) (before : Lock σ) (value : α) (after : Lock σ) : Prop :=
  action.Ends before (.ok (.ok value)) after

/-- The computation leaves the lock behind, however it ends. -/
def Leaves (action : Guarded σ ε α) (before after : Lock σ) : Prop := (action before).2 = after

variable {action : Guarded σ ε α} {before after : Lock σ} {critical : σ → Checked (Except ε α × σ)}

theorem Leaves.ends (leaves : action.Leaves before after) :
    ∃ ending, action.Ends before ending after := ⟨(action before).1, Prod.ext rfl leaves⟩

theorem Ends.leaves {ending : Checked (Except ε α)} (ends : action.Ends before ending after) :
    action.Leaves before after := congrArg Prod.snd ends

theorem ends_pure {value : α} {ending : Checked (Except ε α)} :
    (pure value : Guarded σ ε α).Ends before ending after ↔
      ending = .ok (.ok value) ∧ after = before := by
  simp [Ends, pure, eq_comm]

/-- A sequence ends where its second part ends, or where its first part stops. -/
theorem ends_bind {next : α → Guarded σ ε β} {ending : Checked (Except ε β)} :
    (action >>= next).Ends before ending after ↔
      (∃ value middle, action.Returns before value middle ∧ (next value).Ends middle ending after) ∨
      (∃ reason, action.Ends before (.ok (.error reason)) after ∧ ending = .ok (.error reason)) ∨
      (∃ fault, action.Ends before (.error fault) after ∧ ending = .error fault) := by
  unfold Returns Ends
  change (match action before with
    | (.ok (.ok value), lock) => next value lock
    | (.ok (.error reason), lock) => (.ok (.error reason), lock)
    | (.error fault, lock) => (.error fault, lock)) = _ ↔ _
  split <;> simp_all [and_comm, eq_comm]

theorem ends_lift {outcome : Outcome ε α} {ending : Checked (Except ε α)} :
    (liftM outcome : Guarded σ ε α).Ends before ending after ↔
      ending = outcome.run ∧ after = before := by
  simp [Ends, liftM, monadLift, MonadLift.monadLift, eq_comm]

/-- A computation outside the lock passes its value on, or panics. -/
theorem ends_checked_bind {action : Checked α} {next : α → Guarded σ ε β}
    {ending : Checked (Except ε β)} :
    ((liftM (liftM action : Outcome ε α) : Guarded σ ε α) >>= next).Ends before ending after ↔
      (∃ value, action = .ok value ∧ (next value).Ends before ending after) ∨
      ∃ fault, action = .error fault ∧ ending = .error fault ∧ after = before := by
  rw [ends_bind]
  simp only [Returns, ends_lift, Outcome.run_lift]
  cases action with
  | ok value => simp [Functor.map, Except.map]
  | error fault => simp [Functor.map, Except.map, and_comm]

/-- A missing value is reported, and a found one is passed on. -/
theorem ends_okOr_bind {found : Option α} {reason : ε} {next : α → Guarded σ ε β}
    {ending : Checked (Except ε β)} :
    ((liftM (Outcome.okOr found reason) : Guarded σ ε α) >>= next).Ends before ending after ↔
      (∃ value, found = some value ∧ (next value).Ends before ending after) ∨
      (found = none ∧ ending = .ok (.error reason) ∧ after = before) := by
  rw [ends_bind]
  simp only [Returns, ends_lift]
  cases found with
  | some value => simp [Outcome.okOr, ExceptT.run, pure, ExceptT.pure, ExceptT.mk, Except.pure]
  | none =>
      simp [Outcome.okOr, ExceptT.run, ExceptT.mk, throw, throwThe, MonadExceptOf.throw, pure,
        Except.pure, and_comm]

/-- A rephrased error is reported, and a value is passed on. -/
theorem ends_mapErr_bind {rephrase : ε → δ} {next : α → Guarded σ δ β}
    {ending : Checked (Except δ β)} :
    (action.mapErr rephrase >>= next).Ends before ending after ↔
      (∃ value middle, action.Returns before value middle ∧ (next value).Ends middle ending after) ∨
      (∃ reason, action.Ends before (.ok (.error reason)) after ∧
        ending = .ok (.error (rephrase reason))) ∨
      (∃ fault, action.Ends before (.error fault) after ∧ ending = .error fault) := by
  rw [ends_bind]
  unfold Returns Ends mapErr
  obtain ⟨result, middle⟩ := action before
  rcases result with fault | reason | value <;>
    simp [Except.mapError, and_comm, eq_comm]

/-- An entry meets a poisoned lock, completes its section, or poisons the lock. -/
theorem ends_locked {ending : Checked (Except ε α)} :
    (locked critical).Ends before ending after ↔
      (before.poisoned = true ∧ ending = .error .poisoned ∧ after = before) ∨
      (before.poisoned = false ∧ ∃ result state, critical before.state = .ok (result, state) ∧
        ending = .ok result ∧ after = { before with state }) ∨
      (before.poisoned = false ∧ ∃ fault, critical before.state = .error fault ∧
        ending = .error fault ∧ after = { before with poisoned := true }) := by
  rw [Ends, locked]
  cases before.poisoned with
  | true => simp [eq_comm]
  | false =>
      simp only [Bool.false_eq_true, if_false]
      split <;> simp_all [eq_comm]

/-- A read completes with the answer of the query, or meets a poisoned lock. -/
theorem ends_read {query : σ → Except ε α} {ending : Checked (Except ε α)} :
    (read query).Ends before ending after ↔
      after = before ∧ (before.poisoned = true ∧ ending = .error .poisoned ∨
        before.poisoned = false ∧ ending = .ok (query before.state)) := by
  rw [read, ends_locked]
  cases before
  simp_all
  tauto

/-- An update completes with the next state, poisons the lock, or meets a poisoned one. -/
theorem ends_update {change : σ → Checked σ} {ending : Checked (Except ε PUnit)} :
    (update change : Guarded σ ε PUnit).Ends before ending after ↔
      (before.poisoned = true ∧ ending = .error .poisoned ∧ after = before) ∨
      (before.poisoned = false ∧ ∃ state, change before.state = .ok state ∧
        ending = .ok (.ok ⟨⟩) ∧ after = { before with state }) ∨
      (before.poisoned = false ∧ ∃ fault, change before.state = .error fault ∧
        ending = .error fault ∧ after = { before with poisoned := true }) := by
  rw [update, ends_locked]
  cases changed : change before.state <;> simp [bind, Except.bind, pure, Except.pure]

@[simp]
theorem returns_pure {value result : α} :
    (pure value : Guarded σ ε α).Returns before result after ↔
      value = result ∧ after = before := by
  simp [Returns, ends_pure, eq_comm]

@[simp]
theorem returns_bind {next : α → Guarded σ ε β} {result : β} :
    (action >>= next).Returns before result after ↔
      ∃ value middle, action.Returns before value middle ∧
        (next value).Returns middle result after := by
  simp [Returns, ends_bind]

@[simp]
theorem returns_lift {outcome : Outcome ε α} {result : α} :
    (liftM outcome : Guarded σ ε α).Returns before result after ↔
      outcome.Returns result ∧ after = before := by
  simp [Returns, ends_lift, Outcome.Returns, eq_comm]

/-- Rephrasing an error leaves a returned value as it is. -/
@[simp]
theorem returns_mapErr {rephrase : ε → δ} {value : α} :
    (action.mapErr rephrase).Returns before value after ↔ action.Returns before value after := by
  unfold Returns Ends mapErr
  obtain ⟨result, middle⟩ := action before
  rcases result with fault | reason | found <;> simp [Except.mapError]

@[simp]
theorem returns_locked {value : α} :
    (locked critical).Returns before value after ↔
      before.poisoned = false ∧ ∃ state, critical before.state = .ok (.ok value, state) ∧
        after = { before with state } := by
  simp [Returns, ends_locked]

@[simp]
theorem returns_read {query : σ → Except ε α} {value : α} :
    (read query).Returns before value after ↔
      before.poisoned = false ∧ query before.state = .ok value ∧ after = before := by
  simp only [read, returns_locked, Except.ok.injEq, Prod.mk.injEq]
  constructor
  · rintro ⟨free, _, ⟨found, rfl⟩, rfl⟩
    exact ⟨free, found, rfl⟩
  · rintro ⟨free, found, rfl⟩
    exact ⟨free, _, ⟨found, rfl⟩, rfl⟩

@[simp]
theorem returns_update {change : σ → Checked σ} {value : PUnit} :
    (update change : Guarded σ ε PUnit).Returns before value after ↔
      before.poisoned = false ∧ ∃ state, change before.state = .ok state ∧
        after = { before with state } := by
  simp [update, Checked.map_eq_ok]

/-! ## Computations which only read -/

/-- The computation leaves every lock as it is. -/
def Still (action : Guarded σ ε α) : Prop := ∀ lock, (action lock).2 = lock

theorem still_lift {outcome : Outcome ε α} : (liftM outcome : Guarded σ ε α).Still :=
  fun _ => rfl

theorem still_pure {value : α} : (pure value : Guarded σ ε α).Still := fun _ => rfl

theorem still_read {query : σ → Except ε α} : (read query).Still := fun _ =>
  (ends_read.mp (rfl : (read query).Ends _ _ _)).1

theorem Still.bind {next : α → Guarded σ ε β} (still : action.Still)
    (stills : ∀ value, (next value).Still) : (action >>= next).Still := by
  intro lock
  obtain ⟨ending, ends⟩ := Leaves.ends (rfl : (action >>= next).Leaves lock _)
  rcases ends_bind.mp ends with ⟨value, middle, first, second⟩ | ⟨_, first, _⟩ | ⟨_, first, _⟩
  · have unmoved : middle = lock := first.leaves.symm.trans (still lock)
    exact second.leaves.symm.trans ((stills value middle).trans unmoved)
  · exact first.leaves.symm.trans (still lock)
  · exact first.leaves.symm.trans (still lock)

/-! ## Computations which do not poison the lock -/

/-- The computation does not leave a poisoned lock behind. -/
def Unpoisoned (action : Guarded σ ε α) (lock : Lock σ) : Prop := (action lock).2.poisoned = false

variable {lock : Lock σ}

theorem Still.unpoisoned (still : action.Still) (free : lock.poisoned = false) :
    action.Unpoisoned lock := by
  rw [Unpoisoned, still lock, free]

/-- A critical section which completes does not poison the lock. -/
theorem unpoisoned_locked (free : lock.poisoned = false)
    (completes : ∃ result, critical lock.state = .ok result) :
    (locked critical).Unpoisoned lock := by
  obtain ⟨result, completes⟩ := completes
  simp [Unpoisoned, locked, free, completes]

theorem unpoisoned_update {change : σ → Checked σ} (free : lock.poisoned = false)
    (completes : ∃ state, change lock.state = .ok state) :
    (update change : Guarded σ ε PUnit).Unpoisoned lock := by
  obtain ⟨state, completes⟩ := completes
  exact unpoisoned_locked free ⟨_, Checked.bind_eq_ok.mpr ⟨state, completes, rfl⟩⟩

theorem Unpoisoned.bind {next : α → Guarded σ ε β} (first : action.Unpoisoned lock)
    (rest : ∀ value middle, middle.poisoned = false → action.Returns lock value middle →
      (next value).Unpoisoned middle) :
    (action >>= next).Unpoisoned lock := by
  obtain ⟨ending, ends⟩ := Leaves.ends (rfl : (action >>= next).Leaves lock _)
  rcases ends_bind.mp ends with
    ⟨value, middle, returned, second⟩ | ⟨_, stopped, _⟩ | ⟨_, stopped, _⟩
  · have free : middle.poisoned = false := returned.leaves ▸ first
    rw [Unpoisoned, ← second.leaves]
    exact rest value middle free returned
  · rw [Unpoisoned, ← stopped.leaves]
    exact first
  · rw [Unpoisoned, ← stopped.leaves]
    exact first

theorem Unpoisoned.mapErr {rephrase : ε → δ} (first : action.Unpoisoned lock) :
    (action.mapErr rephrase).Unpoisoned lock := by
  unfold Unpoisoned Guarded.mapErr at *
  split <;> simp_all

end Guarded
