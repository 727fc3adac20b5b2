import Ducp.Ledger.Effects

/-!
# The faults of a transition

A movement of funds can only overflow or underflow, a parameter computation can only overflow, and
so on.  What remains to be shown of a transition is the absence of the faults which these rules do
not exclude.
-/

namespace Ducp

open Checked Std

variable {fault : Fault}

/-! ## Parameters and hashes -/

section Parameters

variable {params : Params} {amount rate : Ucu} {sp : Sp}

@[simp]
theorem ppmOf_avoids (overflow : fault ≠ .overflow) : Avoids fault (ppmOf amount rate) :=
  fun failed => overflow (ppmOf_eq_error failed).1

@[simp]
theorem fee_avoids (overflow : fault ≠ .overflow) : Avoids fault (params.fee amount) :=
  ppmOf_avoids overflow

@[simp]
theorem issuance_avoids (overflow : fault ≠ .overflow) : Avoids fault (params.issuance amount) :=
  ppmOf_avoids overflow

@[simp]
theorem fine_avoids (overflow : fault ≠ .overflow) : Avoids fault (params.fine amount) :=
  ppmOf_avoids overflow

@[simp]
theorem challengerReward_avoids (overflow : fault ≠ .overflow) :
    Avoids fault (params.challengerReward amount) := ppmOf_avoids overflow

@[simp]
theorem bondMin_avoids (overflow : fault ≠ .overflow) : Avoids fault (params.bondMin amount) :=
  ppmOf_avoids overflow

@[simp]
theorem standingAccrual_avoids (overflow : fault ≠ .overflow) :
    Avoids fault (params.standingAccrual amount rate) := by
  simp [Params.standingAccrual, overflow]

@[simp]
theorem claimStake_avoids (overflow : fault ≠ .overflow) (underflow : fault ≠ .underflow)
    (zero : fault ≠ .divideByZero) : Avoids fault (params.claimStake amount sp) := by
  have reduction : Avoids fault (params.discountReductionPpm sp) := by
    unfold Params.discountReductionPpm
    split <;> simp [overflow, zero]
  simp [Params.claimStake, Params.stakeBase, reduction, overflow, underflow]

@[simp]
theorem decay_avoids (overflow : fault ≠ .overflow) (zero : fault ≠ .divideByZero) :
    Avoids fault (params.decay sp) := by
  simp [Params.decay, overflow, zero]

@[simp]
theorem canonicalBytes_avoids {α : Type} [Borsh α] {value : α} (encoding : fault ≠ .encoding) :
    Avoids fault (Borsh.canonicalBytes value) := by
  unfold Borsh.canonicalBytes
  split <;> simp [encoding]

@[simp]
theorem taskId_avoids [Crypto] {body : TaskBody} (encoding : fault ≠ .encoding) :
    Avoids fault body.taskId := by
  simp [TaskBody.taskId, hashCanonical, encoding]

@[simp]
theorem verifySig_avoids [Crypto] {stx : SignedTx} (encoding : fault ≠ .encoding) :
    Avoids fault stx.verifySig := by
  simp [SignedTx.verifySig, SignedTx.signingPayload, encoding]

end Parameters

/-! ## Movements of funds -/

namespace State

variable {s : State} {id : Identity} {amount : Ucu} {delta : Sp} {params : Params}

@[simp]
theorem credit_avoids (overflow : fault ≠ .overflow) : Avoids fault (s.credit id amount) := by
  simp [credit, overflow]

@[simp]
theorem creditPool_avoids (overflow : fault ≠ .overflow) :
    Avoids fault (s.creditPool amount) := by
  simp [creditPool, overflow]

@[simp]
theorem countMinted_avoids (overflow : fault ≠ .overflow) :
    Avoids fault (s.countMinted amount) := by
  simp [countMinted, overflow]

@[simp]
theorem countBurned_avoids (overflow : fault ≠ .overflow) :
    Avoids fault (s.countBurned amount) := by
  simp [countBurned, overflow]

@[simp]
theorem accrue_avoids (overflow : fault ≠ .overflow) : Avoids fault (s.accrue id delta) := by
  simp [accrue, overflow]

@[simp]
theorem strike_avoids (overflow : fault ≠ .overflow) : Avoids fault (s.strike id) := by
  simp [strike, overflow]

section Both

variable (overflow : fault ≠ .overflow) (underflow : fault ≠ .underflow)
include overflow underflow

@[simp]
theorem escrow_avoids : Avoids fault (s.escrow id amount) := by
  simp [escrow, overflow, underflow]

@[simp]
theorem lock_avoids : Avoids fault (s.lock id amount) := by
  simp [lock, overflow, underflow]

@[simp]
theorem unlock_avoids : Avoids fault (s.unlock id amount) := by
  simp [unlock, overflow, underflow]

omit overflow in
@[simp]
theorem takeBalance_avoids : Avoids fault (s.takeBalance id amount) := by
  simp [takeBalance, underflow]

omit overflow in
@[simp]
theorem takeBonded_avoids : Avoids fault (s.takeBonded id amount) := by
  simp [takeBonded, underflow]

@[simp]
theorem drainEscrow_avoids {maxUcu fee u : Ucu} :
    Avoids fault (s.drainEscrow id maxUcu fee u) := by
  simp [drainEscrow, overflow, underflow]

@[simp]
theorem penalize_avoids {requester : Identity} {receipt : Receipt} {rewardTo : Option Identity} :
    Avoids fault (s.penalize id requester receipt rewardTo params) := by
  have rewarded {s : State} {reward : Ucu} : Avoids fault (s.payReward reward rewardTo) := by
    cases rewardTo <;> simp [payReward, overflow]
  simp [penalize, rewarded, overflow, underflow]

end Both

end State

end Ducp
