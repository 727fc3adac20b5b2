import Ducp.Types

/-!
# Protocol parameters

The static parameter set of the binding.  Rates are parts per million, and every computation is
checked integer arithmetic.
-/

namespace Ducp

/-- The parts-per-million denominator. -/
def ppm : Ucu := 1000000

theorem ppm_toNat : ppm.toNat = 1000000 := rfl

theorem ppm_ne_zero : ppm ≠ 0 := by decide

/-- The economic constants the ledger reads. -/
structure Params where
  issuanceRatePpm : Ucu
  feePpm : Ucu
  spRatePpm : Ucu
  efficiencyMultPpm : Ucu
  decayRatePpm : Ucu
  stakeBasePpm : Ucu
  discountMaxPpm : Ucu
  spRef : Sp
  clawbackEpochs : BitVec 64
  auditProbPpm : Ucu
  fineMultPpm : Ucu
  challengerRewardPpm : Ucu
  bondMinPpm : Ucu
  deriving DecidableEq

/-- `⌊amount · rate / 10⁶⌋`. -/
def ppmOf (amount rate : Ucu) : Checked Ucu := do
  let product ← Checked.mul amount rate
  Checked.div product ppm

theorem ppmOf_eq_ok {amount rate result : Ucu} :
    ppmOf amount rate = .ok result ↔
      amount.toNat * rate.toNat < 2 ^ 128 ∧
        result.toNat = amount.toNat * rate.toNat / 1000000 := by
  unfold ppmOf
  simp only [Checked.bind_eq_ok, Checked.mul_eq_ok, Checked.div_eq_ok, ppm_toNat]
  constructor
  · rintro ⟨product, product_eq, _, quotient⟩
    rw [product_eq] at quotient
    exact ⟨product_eq ▸ product.isLt, quotient⟩
  · rintro ⟨small, quotient⟩
    refine ⟨BitVec.ofNat 128 (amount.toNat * rate.toNat), ?_, ppm_ne_zero, ?_⟩
    · rw [BitVec.toNat_ofNat, Nat.mod_eq_of_lt small]
    · rw [BitVec.toNat_ofNat, Nat.mod_eq_of_lt small, quotient]

theorem ppmOf_eq_error {amount rate : Ucu} {fault : Fault} :
    ppmOf amount rate = .error fault →
      fault = .overflow ∧ 2 ^ 128 ≤ amount.toNat * rate.toNat := by
  unfold ppmOf
  rw [Checked.bind_eq_error, Checked.mul_eq_error]
  rintro (overflow | ⟨product, _, failed⟩)
  · exact overflow
  · exact (ppm_ne_zero (Checked.div_eq_error.mp failed).2).elim

namespace Params

/-- The devnet defaults. -/
def devnet : Params where
  issuanceRatePpm := 10000
  feePpm := 1000
  spRatePpm := 1000000
  efficiencyMultPpm := 1000000
  decayRatePpm := 20000
  stakeBasePpm := 500000
  discountMaxPpm := 800000
  spRef := 1000000000000
  clawbackEpochs := 32
  auditProbPpm := 100000
  fineMultPpm := 2000000
  challengerRewardPpm := 500000
  bondMinPpm := 250000

/-- The validator fee of a task. -/
def fee (params : Params) (maxUcu : Ucu) : Checked Ucu := ppmOf maxUcu params.feePpm

/-- The work-issuance minted for metered work. -/
def issuance (params : Params) (u : Ucu) : Checked Ucu := ppmOf u params.issuanceRatePpm

/-- The Standing accrued for metered work under an efficiency multiplier. -/
def standingAccrual (params : Params) (u efficiencyMultPpm : Ucu) : Checked Sp := do
  let base ← ppmOf u params.spRatePpm
  ppmOf base efficiencyMultPpm

/-- The claim-stake base of a task. -/
def stakeBase (params : Params) (maxUcu : Ucu) : Checked Ucu := ppmOf maxUcu params.stakeBasePpm

/-- The stake discount of a Standing, capped at the maximum discount. -/
def discountReductionPpm (params : Params) (providerSp : Sp) : Checked Ucu := do
  if params.spRef.toInt ≤ 0 then
    return 0
  else
    let spPos : Ucu := if providerSp.toInt < 0 then 0 else providerSp
    let product ← Checked.mul spPos ppm
    let quotient ← Checked.div product params.spRef
    return Checked.lesser quotient params.discountMaxPpm

/-- The Standing-discounted stake a provider must post. -/
def claimStake (params : Params) (maxUcu : Ucu) (providerSp : Sp) : Checked Ucu := do
  let base ← params.stakeBase maxUcu
  let reduction ← params.discountReductionPpm providerSp
  let kept ← Checked.sub ppm reduction
  ppmOf base kept

/-- The fine for a payment. -/
def fine (params : Params) (p : Ucu) : Checked Ucu := ppmOf p params.fineMultPpm

/-- The challenger reward out of a fine. -/
def challengerReward (params : Params) (f : Ucu) : Checked Ucu :=
  ppmOf f params.challengerRewardPpm

/-- The smallest acceptable challenge bond for a payment. -/
def bondMin (params : Params) (p : Ucu) : Checked Ucu := ppmOf p params.bondMinPpm

/-- One epoch of Standing decay. -/
def decay (params : Params) (sp : Sp) : Checked Sp := do
  let kept ← Checked.ssub ppm params.decayRatePpm
  let product ← Checked.smul sp kept
  Checked.sdiv product ppm

end Params

end Ducp
