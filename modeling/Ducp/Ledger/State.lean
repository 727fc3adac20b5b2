import Ducp.Governance

/-!
# The ledger state

The replicated state, its lookups, and the movements of funds which the transitions share.  A
lookup of an unknown account reads as the fresh account that `acct_mut` would insert.
-/

namespace Ducp

open Borsh Std

/-- Total minted and burned amounts. -/
structure Supply where
  minted : Ucu
  burned : Ucu
  deriving DecidableEq

/-- An open challenge with the bond behind it. -/
structure ChallengeRecord where
  challenger : Identity
  bond : Ucu
  deriving DecidableEq

/-- The full ledger state. -/
structure State where
  accounts : ExtTreeMap Identity Account
  standing : ExtTreeMap Identity StandingRecord
  bodies : ExtTreeMap TaskId TaskBody
  tasks : ExtTreeMap TaskId Submission
  proofs : ExtTreeMap TaskId ComputeProof
  receipts : ExtTreeMap TaskId Receipt
  qLedger : ExtTreeMap TaskId QLedgerEntry
  pendingChallenges : ExtTreeMap TaskId ChallengeRecord
  slashed : ExtTreeSet TaskId
  released : ExtTreeSet TaskId
  nonces : ExtTreeMap Identity (BitVec 64)
  supply : Supply
  feePool : Ucu
  epoch : Epoch
  deriving DecidableEq

instance : Borsh Supply :=
  via (fun supply => (supply.minted, supply.burned)) fun left right same => by
    cases left; cases right; simpa using same

instance : Borsh ChallengeRecord :=
  via (fun record => (record.challenger, record.bond)) fun left right same => by
    cases left; cases right; simpa using same

instance : Borsh State :=
  via (fun s => (s.accounts, s.standing, s.bodies, s.tasks, s.proofs, s.receipts, s.qLedger,
    s.pendingChallenges, s.slashed, s.released, s.nonces, s.supply, s.feePool, s.epoch))
    fun left right same => by cases left; cases right; simpa using same

namespace State

/-- The empty state at an epoch. -/
def empty (epoch : Epoch) : State where
  accounts := ∅
  standing := ∅
  bodies := ∅
  tasks := ∅
  proofs := ∅
  receipts := ∅
  qLedger := ∅
  pendingChallenges := ∅
  slashed := ∅
  released := ∅
  nonces := ∅
  supply := { minted := 0, burned := 0 }
  feePool := 0
  epoch

/-- The commitment to the whole state. -/
def stateRoot [Crypto] (s : State) : Checked Hash := hashCanonical s

/-- The account of an identity, fresh when unknown. -/
def acct (s : State) (id : Identity) : Account := (s.accounts[id]?).getD (Account.new id)

/-- Write an account back. -/
def setAcct (s : State) (id : Identity) (account : Account) : State :=
  { s with accounts := s.accounts.insert id account }

/-- The Standing record of an identity, fresh when unknown. -/
def standingRecord (s : State) (id : Identity) : StandingRecord :=
  (s.standing[id]?).getD (StandingRecord.new id s.epoch)

/-- Write a Standing record back. -/
def setStanding (s : State) (id : Identity) (record : StandingRecord) : State :=
  { s with standing := s.standing.insert id record }

/-- The current Standing of an identity, zero when unknown. -/
def standingOf (s : State) (id : Identity) : Sp := ((s.standing[id]?).map (·.sp)).getD 0

/-- Add the holdings of an account to a running total. -/
def addHeld (held : Ucu) (entry : Identity × Account) : Checked Ucu := do
  let spendable ← Checked.add entry.2.balance entry.2.escrowed
  let owned ← Checked.add spendable entry.2.bonded
  Checked.add held owned

/-- Whether the total held equals the circulating supply. -/
def checkConservation (s : State) : Checked Bool := do
  let held ← s.accounts.toList.foldlM addHeld s.feePool
  return held = if s.supply.burned ≤ s.supply.minted then s.supply.minted - s.supply.burned else 0

/-! ## Movements of funds -/

/-- Add to a balance. -/
def credit (s : State) (id : Identity) (amount : Ucu) : Checked State := do
  let account := s.acct id
  let balance ← Checked.add account.balance amount
  return s.setAcct id { account with balance }

/-- Move an amount from the balance to the escrow of an account. -/
def escrow (s : State) (id : Identity) (amount : Ucu) : Checked State := do
  let account := s.acct id
  let balance ← Checked.sub account.balance amount
  let escrowed ← Checked.add account.escrowed amount
  return s.setAcct id { account with balance, escrowed }

/-- Move an amount from the balance to the bond of an account. -/
def lock (s : State) (id : Identity) (amount : Ucu) : Checked State := do
  let account := s.acct id
  let balance ← Checked.sub account.balance amount
  let bonded ← Checked.add account.bonded amount
  return s.setAcct id { account with balance, bonded }

/-- Return an amount, clamped to what is bonded, from the bond to the balance. -/
def unlock (s : State) (id : Identity) (amount : Ucu) : Checked State := do
  let account := s.acct id
  let returned := Checked.lesser amount account.bonded
  let bonded ← Checked.sub account.bonded returned
  let balance ← Checked.add account.balance returned
  return s.setAcct id { account with bonded, balance }

/-- Take an amount, clamped to what is there, out of a balance. -/
def takeBalance (s : State) (id : Identity) (amount : Ucu) : Checked (State × Ucu) := do
  let account := s.acct id
  let taken := Checked.lesser amount account.balance
  let balance ← Checked.sub account.balance taken
  return (s.setAcct id { account with balance }, taken)

/-- Take an amount, clamped to what is there, out of a bond. -/
def takeBonded (s : State) (id : Identity) (amount : Ucu) : Checked (State × Ucu) := do
  let account := s.acct id
  let taken := Checked.lesser amount account.bonded
  let bonded ← Checked.sub account.bonded taken
  return (s.setAcct id { account with bonded }, taken)

/-- Add to the fee pool. -/
def creditPool (s : State) (amount : Ucu) : Checked State := do
  let feePool ← Checked.add s.feePool amount
  return { s with feePool }

/-- Count an amount as minted. -/
def countMinted (s : State) (amount : Ucu) : Checked State := do
  let minted ← Checked.add s.supply.minted amount
  return { s with supply := { s.supply with minted } }

/-- Count an amount as burned. -/
def countBurned (s : State) (amount : Ucu) : Checked State := do
  let burned ← Checked.add s.supply.burned amount
  return { s with supply := { s.supply with burned } }

/-! ## Genesis -/

/-- Mint the allocations one by one, with the running total. -/
def allocate : List (Identity × Ucu) → State → Ucu → Checked (State × Ucu)
  | [], s, minted => return (s, minted)
  | (id, amount) :: allocations, s, minted => do
      let s ← s.credit id amount
      let minted ← Checked.add minted amount
      allocate allocations s minted

/-- The state which mints the initial balances. -/
def genesis (allocations : List (Identity × Ucu)) (epoch : Epoch) : Checked State := do
  let (s, minted) ← allocate allocations (empty epoch) 0
  return { s with supply := { s.supply with minted } }

end State

end Ducp
