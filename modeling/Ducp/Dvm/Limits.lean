import Ducp.Dvm.Metering
import Ducp.Ledger.Transitions

/-!
# Counts within their limit

A run never consumes more than its fuel ceiling, and the ceiling never counts for more than the
declared limit, whatever the guest does.  The ledger therefore never refuses an executed count for
exceeding the limit of its task.
-/

namespace Ducp

open Checked Outcome

/-- The count of a fuel within the ceiling of a limit is within the limit. -/
theorem count_le_limit {fuel limit rate scale : ℕ} (spent : fuel ≤ limit * rate / scale) :
    fuel * scale / rate ≤ limit := by
  refine Nat.div_le_of_le_mul ?_
  calc
    fuel * scale ≤ limit * rate / scale * scale := Nat.mul_le_mul_right scale spent
    _ ≤ limit * rate := Nat.div_mul_le_self ..
    _ = rate * limit := Nat.mul_comm ..

namespace WasmtimeDvm

section Runs

variable [Runtime] {program input output : List UInt8} {limits : Limits} {benchmark : Benchmark}
  {left : Option (BitVec 64)} {ceiling maxMemoryBytes fuel : BitVec 64} {status : ExecStatus}

omit [Runtime] in
/-- No more than the ceiling is consumed, even when the runtime reports more fuel than it got. -/
theorem consumed_le : consumed left ceiling ≤ ceiling := by
  simp only [consumed, BitVec.le_def]
  split
  · exact Nat.zero_le _
  · rename_i enough
    rw [BitVec.toNat_sub_of_le (BitVec.not_lt.mp enough)]
    exact Nat.sub_le ..

/-- Every run ends within its ceiling. -/
theorem run_within (ran : run program input ceiling maxMemoryBytes = .ok (status, output, fuel)) :
    fuel ≤ ceiling := by
  have nothing : (0 : BitVec 64) ≤ ceiling := BitVec.le_def.mpr (Nat.zero_le _)
  rw [run] at ran
  split at ran <;> cases ran
  all_goals first | exact nothing | exact consumed_le

/-- A run returns unless the guest panics a host function. -/
theorem run_returns :
    (∃ answer, run program input ceiling maxMemoryBytes = .ok answer) ↔
      Runtime.report program input ceiling maxMemoryBytes ≠ .panicked := by
  rw [run]
  split <;> simp_all

variable [Crypto] {outcome : ExecOutcome}

/-- The count of an execution is within the declared limit: exhausting the fuel counts as the limit,
and everything else as what the run consumed. -/
theorem execute_within (calibrated : 0 < benchmark.fuelPerUcu.toNat)
    (fits : limits.maxUcu.toNat * benchmark.fuelPerUcu.toNat < 2 ^ 128)
    (executed : execute program input limits benchmark = .ok outcome) :
    outcome.ucuCount ≤ limits.maxUcu := by
  obtain ⟨ceiling, limited, ceiling_eq⟩ := Benchmark.exists_ucuToFuelCeiling fits
  obtain ⟨found, limited', rest⟩ := bind_eq_ok.mp executed
  obtain rfl := Except.ok.inj (limited.symm.trans limited')
  obtain ⟨⟨status, output, fuel⟩, ran, counted⟩ := bind_eq_ok.mp rest
  have counts {ucu : Ucu} (counted : benchmark.fuelToUcu fuel = .ok ucu) :
      ucu ≤ limits.maxUcu := by
    obtain ⟨_, counted', ucu_eq⟩ := Benchmark.exists_fuelToUcu calibrated fuel
    obtain rfl := Except.ok.inj (counted.symm.trans counted')
    have within := BitVec.le_def.mp (run_within ran)
    rw [ceiling_eq] at within
    rw [BitVec.le_def, ucu_eq]
    exact count_le_limit (within.trans (min_le_left ..))
  cases status with
  | ok =>
      obtain ⟨ucu, ucu_eq, made⟩ := bind_eq_ok.mp counted
      obtain rfl := pure_eq_ok.mp made
      exact counts ucu_eq
  | failure kind =>
      cases kind with
      | outOfFuel =>
          obtain ⟨_, _, made⟩ := bind_eq_ok.mp counted
          obtain rfl := pure_eq_ok.mp made
          exact BitVec.le_refl _
      | userAbort | trap | invalidModule | instantiation | noEntryPoint =>
          obtain ⟨_, _, rest⟩ := bind_eq_ok.mp counted
          obtain ⟨ucu, ucu_eq, made⟩ := bind_eq_ok.mp rest
          obtain rfl := pure_eq_ok.mp made
          exact counts ucu_eq

/-- An execution returns unless its guest panics a host function. -/
theorem execute_returns (calibrated : 0 < benchmark.fuelPerUcu.toNat)
    (limited : benchmark.ucuToFuelCeiling limits.maxUcu = .ok ceiling) :
    (∃ outcome, execute program input limits benchmark = .ok outcome) ↔
      Runtime.report program input ceiling limits.maxMemoryBytes ≠ .panicked := by
  rw [← run_returns]
  constructor
  · rintro ⟨outcome, executed⟩
    obtain ⟨found, limited', rest⟩ := bind_eq_ok.mp executed
    obtain rfl := Except.ok.inj (limited.symm.trans limited')
    obtain ⟨answer, ran, _⟩ := bind_eq_ok.mp rest
    exact ⟨answer, ran⟩
  · rintro ⟨⟨status, output, fuel⟩, ran⟩
    obtain ⟨ucu, counted, _⟩ := Benchmark.exists_fuelToUcu calibrated fuel
    have hashed (kind : FailureKind) : ∃ hash, failureResultHash kind = .ok hash :=
      ⟨_, bind_eq_ok.mpr ⟨_, Borsh.canonicalBytes_eq_ok.mpr ⟨rfl, rfl⟩, rfl⟩⟩
    cases status with
    | ok =>
        exact ⟨_, bind_eq_ok.mpr ⟨ceiling, limited, bind_eq_ok.mpr
          ⟨_, ran, bind_eq_ok.mpr ⟨ucu, counted, rfl⟩⟩⟩⟩
    | failure kind =>
        obtain ⟨hash, hash_eq⟩ := hashed kind
        cases kind with
        | outOfFuel =>
            exact ⟨_, bind_eq_ok.mpr ⟨ceiling, limited, bind_eq_ok.mpr
              ⟨_, ran, bind_eq_ok.mpr ⟨hash, hash_eq, rfl⟩⟩⟩⟩
        | userAbort | trap | invalidModule | instantiation | noEntryPoint =>
            exact ⟨_, bind_eq_ok.mpr ⟨ceiling, limited, bind_eq_ok.mpr
              ⟨_, ran, bind_eq_ok.mpr ⟨hash, hash_eq, bind_eq_ok.mpr ⟨ucu, counted, rfl⟩⟩⟩⟩⟩

end Runs

end WasmtimeDvm

/-- The reference workload is taken to cost something. -/
theorem Benchmark.devnet_calibrated [Crypto] [Runtime] {benchmark : Benchmark}
    (devnet_eq : Benchmark.devnet = .ok benchmark) : 0 < benchmark.fuelPerUcu.toNat := by
  simp only [devnet, bind_eq_ok, pure_eq_ok] at devnet_eq
  obtain ⟨_, _, _, _, fuelRef, _, rfl⟩ := devnet_eq
  change 0 < (if fuelRef < 1 then 1 else fuelRef).toNat
  split
  · decide
  · exact BitVec.le_def.mp (BitVec.not_lt.mp ‹_›)

/-- A proof within the limit of its task is not refused for exceeding it. -/
theorem State.submitProof_unexceeded {s : State} {author : Identity} {proof : ComputeProof}
    {params : Params} {body : TaskBody} (body_eq : s.bodies[proof.task]? = some body)
    (within : proof.ucuCount ≤ body.limits.maxUcu) :
    ¬(s.submitProof author proof params).Rejects .ucuExceedsLimit := by
  simpa [submitProof, body_eq] using fun _ _ _ _ _ => within

/-- The count of an execution, which returns unless its guest panics a host function, is within the
declared limit, and the ledger does not refuse a proof of that count for exceeding the limit of the
task. -/
theorem executed_within_limit [Crypto] [Runtime] {program input : List UInt8} {limits : Limits}
    {benchmark : Benchmark} (calibrated : 1 ≤ benchmark.fuelPerUcu.toNat)
    (fits : limits.maxUcu.toNat * benchmark.fuelPerUcu.toNat < 2 ^ 128) :
    (∃ ceiling, benchmark.ucuToFuelCeiling limits.maxUcu = .ok ceiling ∧
      ((∃ outcome, WasmtimeDvm.execute program input limits benchmark = .ok outcome) ↔
        Runtime.report program input ceiling limits.maxMemoryBytes ≠ .panicked)) ∧
      ∀ outcome, WasmtimeDvm.execute program input limits benchmark = .ok outcome →
        outcome.ucuCount ≤ limits.maxUcu ∧
          ∀ (s : State) (body : TaskBody) (proof : ComputeProof) (stx : SignedTx) (params : Params),
            s.bodies[proof.task]? = some body → body.limits = limits →
              proof.ucuCount = outcome.ucuCount → stx.tx = .submitProof proof →
                ¬(s.submitProof stx.author proof params).Rejects .ucuExceedsLimit ∧
                  ¬(s.apply stx params).Rejects .ucuExceedsLimit := by
  constructor
  · obtain ⟨ceiling, limited, _⟩ := Benchmark.exists_ucuToFuelCeiling fits
    exact ⟨ceiling, limited, WasmtimeDvm.execute_returns calibrated limited⟩
  · intro outcome executed
    have within := WasmtimeDvm.execute_within calibrated fits executed
    refine ⟨within, ?_⟩
    rintro s body proof stx params body_eq rfl counted tx_eq
    rw [← counted] at within
    refine ⟨State.submitProof_unexceeded body_eq within, ?_⟩
    simp [State.apply, State.checkAndBumpNonce]
    intro _ _ next _
    rw [tx_eq]
    exact State.submitProof_unexceeded body_eq within

section Sample

attribute [local instance] Crypto.checksum Runtime.echo

/-- A benchmark of 700000 fuel for one unit. -/
def Sample.calibrated : Benchmark where
  version := 0
  fuelCostTableHash := Bytes.fill 32 0
  fuelPerUcu := 700000
  eBaseline := 137
  tStdMillikelvin := 300000

/-- The limits of one unit and one page. -/
def Sample.unit : Limits := { maxUcu := 1000000000, maxMemoryBytes := 65536 }

theorem executed_within_limit_echo :
    ∃ outcome, WasmtimeDvm.execute [1] [5, 6] Sample.unit Sample.calibrated = .ok outcome ∧
      outcome.status = .ok ∧ outcome.ucuCount = 50000 ∧ outcome.ucuCount ≤ Sample.unit.maxUcu ∧
        ∀ (s : State) (body : TaskBody) (proof : ComputeProof) (stx : SignedTx),
          s.bodies[proof.task]? = some body → body.limits = Sample.unit →
            proof.ucuCount = 50000 → stx.tx = .submitProof proof →
              ¬(s.apply stx .devnet).Rejects .ucuExceedsLimit := by
  have ran : (WasmtimeDvm.execute [1] [5, 6] Sample.unit Sample.calibrated).toOption.any
      (fun outcome => outcome.status = .ok ∧ outcome.ucuCount = 50000) = true := by
    decide +kernel
  obtain ⟨outcome, executed, facts⟩ := (Option.any_eq_true _ _).mp ran
  obtain ⟨status, counted⟩ := of_decide_eq_true facts
  have executed := Checked.toOption_eq_some.mp executed
  obtain ⟨within, accepted⟩ := (executed_within_limit (by decide) (by decide)).2 outcome executed
  refine ⟨outcome, executed, status, counted, within, ?_⟩
  intro s body proof stx found limits same tx
  exact (accepted s body proof stx .devnet found limits (same.trans counted.symm) tx).2

end Sample

end Ducp
