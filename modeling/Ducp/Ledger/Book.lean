import Ducp.Library.DoubleEntry
import Ducp.Library.MapSum
import Ducp.Ledger.Transitions

/-!
# The ledger as a double-entry book

Every amount of the ledger lies in one bucket: the balance, escrow or bond of an identity, the fee
pool, or the burned counter.  The book of a state is what these buckets hold, and every movement of
funds is a posting on it.  The other fields are the records of the state, which a movement of
funds leaves alone.
-/

namespace Ducp

open DoubleEntry MapSum Std
open Finsupp (single single_apply single_add)

/-- Where an amount can lie. -/
inductive Bucket
  | balance (owner : Identity)
  | escrowed (owner : Identity)
  | bonded (owner : Identity)
  | pool
  | burned
  deriving DecidableEq

/-- The fields of the state which hold no funds. -/
structure Records where
  standing : ExtTreeMap Identity StandingRecord
  bodies : ExtTreeMap TaskId TaskBody
  tasks : ExtTreeMap TaskId Submission
  proofs : ExtTreeMap TaskId ComputeProof
  receipts : ExtTreeMap TaskId Receipt
  qLedger : ExtTreeMap TaskId QLedgerEntry
  pendingChallenges : ExtTreeMap TaskId ChallengeRecord
  slashed : ExtTreeSet TaskId
  released : ExtTreeSet TaskId
  nonces : ExtTreeMap Identity (BitVec 64)
  epoch : Epoch

/-- What one account holds. -/
noncomputable def holding (id : Identity) (account : Account) : Bucket →₀ ℕ :=
  single (.balance id) account.balance.toNat + single (.escrowed id) account.escrowed.toNat +
    single (.bonded id) account.bonded.toNat

namespace State

/-- The records of a state. -/
def records (s : State) : Records where
  standing := s.standing
  bodies := s.bodies
  tasks := s.tasks
  proofs := s.proofs
  receipts := s.receipts
  qLedger := s.qLedger
  pendingChallenges := s.pendingChallenges
  slashed := s.slashed
  released := s.released
  nonces := s.nonces
  epoch := s.epoch

/-- The book of a state. -/
noncomputable def book (s : State) : Bucket →₀ ℕ :=
  total holding s.accounts + single .pool s.feePool.toNat + single .burned s.supply.burned.toNat

theorem holding_new (id : Identity) : holding id (Account.new id) = 0 := by
  simp [holding, Account.new]

theorem weight_holding (s : State) (id : Identity) :
    weight holding s.accounts id = holding id (s.acct id) := by
  cases found : s.accounts[id]? with
  | none => simp [weight_of_none found, acct, found, holding_new]
  | some account => simp [weight_of_some found, acct, found]

theorem total_apply_owner (s : State) (bucket : Identity → Bucket) (amount : Account → ℕ)
    (picks : ∀ owner account id, holding owner account (bucket id) =
      if owner = id then amount account else 0) (id : Identity) :
    (total holding s.accounts) (bucket id) = amount (s.acct id) := by
  let at_bucket : Identity → Account → ℕ := fun owner account => holding owner account (bucket id)
  have evaluated : (total holding s.accounts) (bucket id) = total at_bucket s.accounts :=
    map_total (Finsupp.applyAddHom (bucket id) : (Bucket →₀ ℕ) →+ ℕ)
  have one_key := total_off at_bucket s.accounts at_bucket ∅ id fun probe distinct => by
    cases found : s.accounts[probe]? with
    | none => simp [weight, found]
    | some account => simp [weight, found, at_bucket, picks, distinct]
  have owned : weight at_bucket s.accounts id = amount (s.acct id) := by
    cases found : s.accounts[id]? with
    | none =>
        have fresh := picks id (Account.new id) id
        rw [holding_new, if_pos rfl, Finsupp.zero_apply] at fresh
        simp [weight, found, acct, ← fresh]
    | some account => simp [weight, found, at_bucket, picks, acct]
  rw [evaluated, ← owned]
  simpa [weight] using one_key

@[simp]
theorem book_balance (s : State) (id : Identity) :
    s.book (.balance id) = (s.acct id).balance.toNat := by
  have owned := total_apply_owner s .balance (fun account => account.balance.toNat)
    (fun owner account id => by simp [holding, single_apply]) id
  simp [book, owned]

@[simp]
theorem book_escrowed (s : State) (id : Identity) :
    s.book (.escrowed id) = (s.acct id).escrowed.toNat := by
  have owned := total_apply_owner s .escrowed (fun account => account.escrowed.toNat)
    (fun owner account id => by simp [holding, single_apply]) id
  simp [book, owned]

@[simp]
theorem book_bonded (s : State) (id : Identity) :
    s.book (.bonded id) = (s.acct id).bonded.toNat := by
  have owned := total_apply_owner s .bonded (fun account => account.bonded.toNat)
    (fun owner account id => by simp [holding, single_apply]) id
  simp [book, owned]

theorem total_apply_shared (s : State) (bucket : Bucket)
    (unowned : ∀ owner account, holding owner account bucket = 0) :
    (total holding s.accounts) bucket = 0 := by
  have at_bucket : (total holding s.accounts) bucket =
      total (fun owner account => holding owner account bucket) s.accounts :=
    map_total (Finsupp.applyAddHom bucket : (Bucket →₀ ℕ) →+ ℕ)
  rw [at_bucket]
  exact total_eq_zero fun owner account _ => unowned owner account

@[simp]
theorem book_pool (s : State) : s.book .pool = s.feePool.toNat := by
  have shared := total_apply_shared s .pool fun owner account => by simp [holding]
  simp [book, shared]

@[simp]
theorem book_burned (s : State) : s.book .burned = s.supply.burned.toNat := by
  have shared := total_apply_shared s .burned fun owner account => by simp [holding]
  simp [book, shared]

/-- Writing an account back replaces what it held. -/
theorem book_setAcct (s : State) (id : Identity) (account : Account) :
    (s.setAcct id account).book + holding id (s.acct id) = s.book + holding id account := by
  have replaced := total_insert holding s.accounts id account
  rw [weight_holding] at replaced
  simp only [book, setAcct]
  rw [add_right_comm, add_right_comm (total holding _), replaced]
  abel

/-- The account of an identity after an account has been written back. -/
theorem acct_setAcct (s : State) (id owner : Identity) (account : Account) :
    (s.setAcct id account).acct owner = if owner = id then account else s.acct owner := by
  unfold acct setAcct
  rw [getElem?_insert]
  split <;> rfl

end State

/-! ## Movements -/

/-- The second state is the first one after a posting, and nothing else. -/
structure Moves (s : State) (debits credits : Bucket →₀ ℕ) (s' : State) : Prop where
  records : s'.records = s.records
  minted : s'.supply.minted = s.supply.minted
  posts : Posts s.book debits credits s'.book

namespace Moves

variable {s s' s'' : State} {debits debits' credits credits' : Bucket →₀ ℕ}

theorem refl (s : State) : Moves s 0 0 s := ⟨rfl, rfl, Posts.refl _⟩

theorem trans (first : Moves s debits credits s') (second : Moves s' debits' credits' s'') :
    Moves s (debits + debits') (credits + credits') s'' where
  records := second.records.trans first.records
  minted := second.minted.trans first.minted
  posts := first.posts.trans second.posts

theorem setAcct {id : Identity} {account : Account}
    (balanced : holding id account + debits = holding id (s.acct id) + credits) :
    Moves s debits credits (s.setAcct id account) where
  records := rfl
  minted := rfl
  posts := by
    have replaced := s.book_setAcct id account
    have combined : (s.setAcct id account).book + debits + holding id (s.acct id) =
        s.book + credits + holding id (s.acct id) := by
      calc
        (s.setAcct id account).book + debits + holding id (s.acct id) =
            s.book + (holding id account + debits) := by
          rw [add_right_comm, replaced, add_assoc]
        _ = s.book + credits + holding id (s.acct id) := by
          rw [balanced]
          abel
    exact add_right_cancel combined

end Moves

namespace State

variable {s s' : State} {id : Identity} {amount taken : Ucu}

theorem credit_moves (credited : s.credit id amount = .ok s') :
    Moves s 0 (single (.balance id) amount.toNat) s' := by
  simp only [credit, Checked.bind_eq_ok, Checked.add_eq_ok, Checked.pure_eq_ok] at credited
  obtain ⟨balance, balance_eq, rfl⟩ := credited
  apply Moves.setAcct
  simp only [holding, balance_eq, single_add]
  abel

theorem escrow_moves (escrowed : s.escrow id amount = .ok s') :
    Moves s (single (.balance id) amount.toNat) (single (.escrowed id) amount.toNat) s' := by
  simp only [escrow, Checked.bind_eq_ok, Checked.add_eq_ok, Checked.sub_eq_ok,
    Checked.pure_eq_ok] at escrowed
  obtain ⟨balance, balance_eq, escrowed, escrowed_eq, rfl⟩ := escrowed
  apply Moves.setAcct
  simp only [holding, ← balance_eq, escrowed_eq, single_add]
  abel

theorem lock_moves (locked : s.lock id amount = .ok s') :
    Moves s (single (.balance id) amount.toNat) (single (.bonded id) amount.toNat) s' := by
  simp only [lock, Checked.bind_eq_ok, Checked.add_eq_ok, Checked.sub_eq_ok,
    Checked.pure_eq_ok] at locked
  obtain ⟨balance, balance_eq, bonded, bonded_eq, rfl⟩ := locked
  apply Moves.setAcct
  simp only [holding, ← balance_eq, bonded_eq, single_add]
  abel

/-- An unlocking returns the amount, clamped to the bond. -/
theorem unlock_moves (unlocked : s.unlock id amount = .ok s') :
    Moves s (single (.bonded id) (min amount.toNat (s.acct id).bonded.toNat))
      (single (.balance id) (min amount.toNat (s.acct id).bonded.toNat)) s' := by
  simp only [unlock, Checked.bind_eq_ok, Checked.add_eq_ok, Checked.sub_eq_ok,
    Checked.pure_eq_ok, Checked.toNat_lesser] at unlocked
  obtain ⟨bonded, bonded_eq, balance, balance_eq, rfl⟩ := unlocked
  apply Moves.setAcct
  generalize min amount.toNat (s.acct id).bonded.toNat = returned at *
  simp only [holding, balance_eq, ← bonded_eq, single_add]
  abel

theorem debit_moves {balance : Ucu}
    (balance_eq : balance.toNat + amount.toNat = (s.acct id).balance.toNat) :
    Moves s (single (.balance id) amount.toNat) 0
      (s.setAcct id { s.acct id with balance }) := by
  apply Moves.setAcct
  simp only [holding, ← balance_eq, single_add]
  abel

/-- Taking from a balance takes the amount, clamped to the balance. -/
theorem takeBalance_moves (taking : s.takeBalance id amount = .ok (s', taken)) :
    taken.toNat = min amount.toNat (s.acct id).balance.toNat ∧
      Moves s (single (.balance id) taken.toNat) 0 s' := by
  simp only [takeBalance, Checked.bind_eq_ok, Checked.sub_eq_ok, Checked.pure_eq_ok,
    Prod.mk.injEq] at taking
  obtain ⟨balance, balance_eq, rfl, rfl⟩ := taking
  refine ⟨Checked.toNat_lesser, Moves.setAcct ?_⟩
  generalize Checked.lesser amount (s.acct id).balance = taken at *
  simp only [holding, ← balance_eq, single_add]
  abel

/-- Taking from a bond takes the amount, clamped to the bond. -/
theorem takeBonded_moves (taking : s.takeBonded id amount = .ok (s', taken)) :
    taken.toNat = min amount.toNat (s.acct id).bonded.toNat ∧
      Moves s (single (.bonded id) taken.toNat) 0 s' := by
  simp only [takeBonded, Checked.bind_eq_ok, Checked.sub_eq_ok, Checked.pure_eq_ok,
    Prod.mk.injEq] at taking
  obtain ⟨bonded, bonded_eq, rfl, rfl⟩ := taking
  refine ⟨Checked.toNat_lesser, Moves.setAcct ?_⟩
  generalize Checked.lesser amount (s.acct id).bonded = taken at *
  simp only [holding, ← bonded_eq, single_add]
  abel

theorem creditPool_moves (credited : s.creditPool amount = .ok s') :
    Moves s 0 (single .pool amount.toNat) s' := by
  simp only [creditPool, Checked.bind_eq_ok, Checked.add_eq_ok, Checked.pure_eq_ok] at credited
  obtain ⟨feePool, feePool_eq, rfl⟩ := credited
  refine ⟨rfl, rfl, ?_⟩
  simp only [Posts, book, feePool_eq, single_add]
  abel

theorem countBurned_moves (burned : s.countBurned amount = .ok s') :
    Moves s 0 (single .burned amount.toNat) s' := by
  simp only [countBurned, Checked.bind_eq_ok, Checked.add_eq_ok, Checked.pure_eq_ok] at burned
  obtain ⟨burned, burned_eq, rfl⟩ := burned
  refine ⟨rfl, rfl, ?_⟩
  simp only [Posts, book, burned_eq, single_add]
  abel

/-- A settlement takes the ceiling and the fee out of escrow and refunds the unused ceiling. -/
theorem drainEscrow_moves {maxUcu fee u : Ucu} (drained : s.drainEscrow id maxUcu fee u = .ok s') :
    u.toNat ≤ maxUcu.toNat ∧
      Moves s (single (.escrowed id) (maxUcu.toNat + fee.toNat))
        (single (.balance id) (maxUcu.toNat - u.toNat)) s' := by
  simp only [drainEscrow, Checked.bind_eq_ok, Checked.add_eq_ok, Checked.sub_eq_ok,
    Checked.pure_eq_ok] at drained
  obtain ⟨sum, sum_eq, escrowed, escrowed_eq, refund, refund_eq, balance, balance_eq, rfl⟩ :=
    drained
  refine ⟨by omega, Moves.setAcct ?_⟩
  rw [show maxUcu.toNat - u.toNat = refund.toNat by omega, ← sum_eq]
  simp only [holding, balance_eq, ← escrowed_eq, single_add]
  abel

end State

end Ducp
