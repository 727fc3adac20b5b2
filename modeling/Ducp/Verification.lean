import Ducp.Dvm

/-!
# Verification by re-execution

Execution is deterministic, so a check runs the task again and compares the result hash and the
count exactly.
-/

namespace Ducp

/-- The verdict on a proof. -/
inductive VerifyOutcome
  /-- The re-execution matched the proof. -/
  | accept
  /-- The re-derived result hash, and the claimed one. -/
  | fraud (expected got : Hash)
  deriving DecidableEq

/-- Whether the verdict is fraud. -/
def VerifyOutcome.isFraud : VerifyOutcome → Bool
  | accept => false
  | fraud _ _ => true

/-- Run the task again and compare. -/
def SampledReexecVerifier.check [Crypto] [Runtime] (proof : ComputeProof)
    (program input : List UInt8) (limits : Limits) (benchmark : Benchmark) :
    Checked VerifyOutcome := do
  let reexec ← WasmtimeDvm.execute program input limits benchmark
  if reexec.resultHash = proof.resultHash ∧ reexec.ucuCount = proof.ucuCount then
    return .accept
  else
    return .fraud reexec.resultHash proof.resultHash

/-- The proof disagrees with an execution in a field which a check compares. -/
def ExecOutcome.Refutes (honest : ExecOutcome) (proof : ComputeProof) : Prop :=
  honest.resultHash ≠ proof.resultHash ∨ honest.ucuCount ≠ proof.ucuCount

instance (honest : ExecOutcome) (proof : ComputeProof) : Decidable (honest.Refutes proof) :=
  inferInstanceAs (Decidable (_ ∨ _))

/-- A check finds fraud exactly when the honest execution refutes the proof. -/
theorem check_eq_ok [Crypto] [Runtime] {proof : ComputeProof} {program input : List UInt8}
    {limits : Limits} {benchmark : Benchmark} {outcome : VerifyOutcome}
    (checked : SampledReexecVerifier.check proof program input limits benchmark = .ok outcome) :
    ∃ honest, WasmtimeDvm.execute program input limits benchmark = .ok honest ∧
      (outcome.isFraud = true ↔ honest.Refutes proof) := by
  obtain ⟨honest, executed, verdict⟩ := Checked.bind_eq_ok.mp checked
  refine ⟨honest, executed, ?_⟩
  split at verdict
  · rename_i agree
    obtain rfl := Checked.pure_eq_ok.mp verdict
    simp [VerifyOutcome.isFraud, ExecOutcome.Refutes, agree]
  · rename_i differ
    obtain rfl := Checked.pure_eq_ok.mp verdict
    simp only [VerifyOutcome.isFraud, ExecOutcome.Refutes, true_iff]
    tauto

/-- A check panics only when the execution does. -/
theorem check_eq_error [Crypto] [Runtime] {proof : ComputeProof} {program input : List UInt8}
    {limits : Limits} {benchmark : Benchmark} {fault : Fault}
    (failed : SampledReexecVerifier.check proof program input limits benchmark = .error fault) :
    WasmtimeDvm.execute program input limits benchmark = .error fault := by
  rcases Checked.bind_eq_error.mp failed with executed | ⟨honest, _, compared⟩
  · exact executed
  · split at compared <;> exact (Checked.pure_ne_error compared).elim

end Ducp
