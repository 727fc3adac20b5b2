import Ducp.Dvm

/-!
# The hash of an outcome

A completed execution is identified by the hash of its output, a failed one by the hash of its kind
under a domain separator.  The output is chosen by the guest and has no domain of its own, so that
a guest can return the very bytes which are hashed for a failure.
-/

namespace Ducp

open Borsh

/-- The kind of a failed run. -/
def Report.failure : Report → Option FailureKind
  | .uncompiled => some .invalidModule
  | .unlinked => some .instantiation
  | .uninstantiated _ => some .instantiation
  | .entryless _ => some .noEntryPoint
  | .returned _ _ => none
  | .failed (some code) _ _ => some (.userAbort code)
  | .failed none true _ => some .outOfFuel
  | .failed none false _ => some .trap
  | .panicked => none

/-- What is hashed to identify an outcome. -/
def ExecOutcome.preimage (outcome : ExecOutcome) : List UInt8 :=
  match outcome.status with
  | .ok => outcome.output
  | .failure kind => failDomain ++ layout kind

/-- What a task is executed on. -/
structure Execution where
  moduleBytes : List UInt8
  input : List UInt8
  limits : Limits
  benchmark : Benchmark

namespace Execution

variable [Runtime]

/-- How far the runtime gets under the declared limits. -/
def report (execution : Execution) : Checked Report := do
  let ceiling ← execution.benchmark.ucuToFuelCeiling execution.limits.maxUcu
  return Runtime.report execution.moduleBytes execution.input ceiling
    execution.limits.maxMemoryBytes

/-- The outcome under the declared limits. -/
def outcome [Crypto] (execution : Execution) : Checked ExecOutcome :=
  WasmtimeDvm.execute execution.moduleBytes execution.input execution.limits execution.benchmark

/-- A guest returns the bytes which are hashed for the failure of another execution. -/
def Disguises (guest failed : Execution) : Prop :=
  ∃ kind left report, guest.report = .ok (.returned (failDomain ++ layout kind) left) ∧
    failed.report = .ok report ∧ report.failure = some kind

end Execution

section Outcomes

variable [Runtime]

/-- A run completes with the output of its guest, or fails without output. -/
theorem WasmtimeDvm.run_eq_ok {moduleBytes input output : List UInt8}
    {fuelCeiling maxMemoryBytes fuel : BitVec 64} {status : ExecStatus}
    (ran : run moduleBytes input fuelCeiling maxMemoryBytes = .ok (status, output, fuel)) :
    (status = .ok ∧ ∃ left,
        Runtime.report moduleBytes input fuelCeiling maxMemoryBytes = .returned output left) ∨
      ∃ kind, status = .failure kind ∧ output = [] ∧
        (Runtime.report moduleBytes input fuelCeiling maxMemoryBytes).failure = some kind := by
  rw [run] at ran
  generalize Runtime.report moduleBytes input fuelCeiling maxMemoryBytes = report at ran ⊢
  cases report with
  | returned found left =>
      cases ran
      exact .inl ⟨rfl, left, rfl⟩
  | failed failCode outOfFuel left =>
      -- The code which the guest gave comes before the fuel.
      cases failCode with
      | some code =>
          cases ran
          exact .inr ⟨_, rfl, rfl, rfl⟩
      | none => cases outOfFuel <;> (cases ran; exact .inr ⟨_, rfl, rfl, rfl⟩)
  | uncompiled | unlinked | uninstantiated left | entryless left =>
      cases ran
      exact .inr ⟨_, rfl, rfl, rfl⟩
  | panicked => cases ran

variable {execution left right : Execution} {outcome leftOutcome rightOutcome : ExecOutcome}

/-- What an execution ends with, by the report of its run. -/
inductive Execution.Ends (execution : Execution) (outcome : ExecOutcome) : Prop
  | completed (fuelLeft : Option (BitVec 64)) (status : outcome.status = .ok)
      (reported : execution.report = .ok (.returned outcome.output fuelLeft))
  | failed (kind : FailureKind) (report : Report) (status : outcome.status = .failure kind)
      (output : outcome.output = []) (reported : execution.report = .ok report)
      (failure : report.failure = some kind)

theorem Execution.Ends.output_eq_nil (ends : left.Ends leftOutcome) {kind : FailureKind}
    (failed : leftOutcome.status = .failure kind) : leftOutcome.output = [] := by
  cases ends with
  | completed _ status => simp [status] at failed
  | failed _ _ _ output => exact output

/-- The report of an execution is unique, so that a completed one does not fail. -/
theorem Execution.Ends.not_disguises (ends : left.Ends leftOutcome) {kind : FailureKind}
    (failed : leftOutcome.status = .failure kind) : ¬left.Disguises right := by
  rintro ⟨_, fuelLeft, _, returned, _⟩
  cases ends with
  | completed _ status => simp [status] at failed
  | failed _ report _ _ reported failure =>
      obtain rfl := Except.ok.inj (reported.symm.trans returned)
      simp [Report.failure] at failure

theorem Execution.Ends.not_disguised (ends : right.Ends rightOutcome)
    (completed : rightOutcome.status = .ok) : ¬left.Disguises right := by
  rintro ⟨kind, _, report, _, reported, failure⟩
  cases ends with
  | completed _ _ returned =>
      obtain rfl := Except.ok.inj (reported.symm.trans returned)
      simp [Report.failure] at failure
  | failed _ _ status => simp [status] at completed

/-- A completed execution and a failed one have the same preimage exactly when the guest of the
first disguises itself as the second. -/
theorem Execution.disguises_iff (completed : left.Ends leftOutcome)
    (failed : right.Ends rightOutcome) {kind : FailureKind} (status : leftOutcome.status = .ok)
    (failure : rightOutcome.status = .failure kind) :
    left.Disguises right ↔ leftOutcome.preimage = rightOutcome.preimage := by
  rw [ExecOutcome.preimage, ExecOutcome.preimage, status, failure]
  cases completed with
  | failed _ _ other => simp [status] at other
  | completed fuelLeft _ returned =>
      cases failed with
      | completed _ other => simp [failure] at other
      | failed kind' report same _ reported kind_eq =>
          obtain rfl : kind = kind' := by simpa [failure] using same
          constructor
          · rintro ⟨found, fuelLeft', report', returned', reported', found_eq⟩
            obtain rfl := Except.ok.inj (reported.symm.trans reported')
            obtain rfl := Option.some.inj (kind_eq.symm.trans found_eq)
            exact (Report.returned.inj (Except.ok.inj (returned.symm.trans returned'))).1
          · intro same
            have same_bytes : leftOutcome.output = failDomain ++ layout kind := same
            rw [same_bytes] at returned
            exact ⟨kind, fuelLeft, report, returned, reported, kind_eq⟩

variable [Crypto]

omit [Runtime] in
theorem failureResultHash_eq_ok {kind : FailureKind} {hash : Hash} :
    failureResultHash kind = .ok hash ↔ Crypto.hashBytes (failDomain ++ layout kind) = hash := by
  rw [failureResultHash, Checked.bind_eq_ok]
  simp only [canonicalBytes_eq_ok, Checked.pure_eq_ok]
  exact ⟨fun ⟨_, ⟨_, same⟩, hashed⟩ => same ▸ hashed, fun hashed => ⟨_, ⟨rfl, rfl⟩, hashed⟩⟩

theorem Execution.outcome_ends (executed : execution.outcome = .ok outcome) :
    execution.Ends outcome ∧ outcome.resultHash = Crypto.hashBytes outcome.preimage := by
  obtain ⟨ceiling, limited, executed⟩ := Checked.bind_eq_ok.mp executed
  obtain ⟨⟨status, output, fuel⟩, ran, executed⟩ := Checked.bind_eq_ok.mp executed
  have reported : execution.report = .ok (Runtime.report execution.moduleBytes execution.input
      ceiling execution.limits.maxMemoryBytes) :=
    Checked.bind_eq_ok.mpr ⟨ceiling, limited, rfl⟩
  rcases WasmtimeDvm.run_eq_ok ran with ⟨rfl, left, returned⟩ | ⟨kind, rfl, rfl, failure⟩
  · obtain ⟨ucu, _, same⟩ := Checked.bind_eq_ok.mp executed
    obtain rfl := Checked.pure_eq_ok.mp same
    exact ⟨.completed left rfl (returned ▸ reported), rfl⟩
  · have status_eq : outcome.status = .failure kind ∧ outcome.output = [] ∧
        outcome.resultHash = Crypto.hashBytes (failDomain ++ layout kind) := by
      cases kind with
      | outOfFuel =>
          obtain ⟨hash, hashed, same⟩ := Checked.bind_eq_ok.mp executed
          obtain rfl := Checked.pure_eq_ok.mp same
          exact ⟨rfl, rfl, (failureResultHash_eq_ok.mp hashed).symm⟩
      | _ =>
          obtain ⟨hash, hashed, counted⟩ := Checked.bind_eq_ok.mp executed
          obtain ⟨ucu, _, same⟩ := Checked.bind_eq_ok.mp counted
          obtain rfl := Checked.pure_eq_ok.mp same
          exact ⟨rfl, rfl, (failureResultHash_eq_ok.mp hashed).symm⟩
    obtain ⟨status, output, hash⟩ := status_eq
    refine ⟨.failed kind _ status output reported failure, ?_⟩
    rw [hash, ExecOutcome.preimage, status]

/-- Two executions without a collision of their preimages are identified by the hash of their
outcomes if and only if neither guest returns the preimage of the other's failure. -/
theorem resultHash_identifies_iff (leftExecuted : left.outcome = .ok leftOutcome)
    (rightExecuted : right.outcome = .ok rightOutcome)
    (collisionFree : Set.InjOn Crypto.hashBytes {leftOutcome.preimage, rightOutcome.preimage}) :
    (leftOutcome.resultHash = rightOutcome.resultHash →
        leftOutcome.status = rightOutcome.status ∧ leftOutcome.output = rightOutcome.output) ↔
      ¬left.Disguises right ∧ ¬right.Disguises left := by
  obtain ⟨left_ends, left_hash⟩ := Execution.outcome_ends leftExecuted
  obtain ⟨right_ends, right_hash⟩ := Execution.outcome_ends rightExecuted
  have hash_iff : leftOutcome.resultHash = rightOutcome.resultHash ↔
      leftOutcome.preimage = rightOutcome.preimage := by
    rw [left_hash, right_hash]
    exact ⟨Set.injOn_pair.mp collisionFree, congrArg _⟩
  rw [hash_iff]
  cases left_status : leftOutcome.status with
  | ok =>
      have honest : ¬right.Disguises left := left_ends.not_disguised left_status
      cases right_status : rightOutcome.status with
      | ok =>
          have plain : ¬left.Disguises right := right_ends.not_disguised right_status
          simp [ExecOutcome.preimage, left_status, right_status, honest, plain]
      | failure kind =>
          rw [Execution.disguises_iff left_ends right_ends left_status right_status]
          simp [honest]
  | failure kind =>
      have honest : ¬left.Disguises right := left_ends.not_disguises left_status
      cases right_status : rightOutcome.status with
      | ok =>
          rw [Execution.disguises_iff right_ends left_ends right_status left_status]
          simp [honest, eq_comm]
      | failure kind' =>
          have plain : ¬right.Disguises left := right_ends.not_disguises right_status
          rw [left_ends.output_eq_nil left_status, right_ends.output_eq_nil right_status]
          refine iff_of_true (fun same => ?_) ⟨honest, plain⟩
          simp only [ExecOutcome.preimage, left_status, right_status,
            List.append_cancel_left_eq] at same
          exact ⟨congrArg _ (layout_injective rfl rfl same), rfl⟩

end Outcomes

section Sample

attribute [local instance] Crypto.checksum Runtime.echo

/-- An execution against a reference of a fixed cost. -/
def Sample.execution (moduleBytes input : List UInt8) : Execution where
  moduleBytes := moduleBytes
  input := input
  limits := { maxUcu := 1000000000, maxMemoryBytes := 65536 }
  benchmark := {
    version := 0
    fuelCostTableHash := Crypto.hashBytes fuelCostModelId
    fuelPerUcu := 700000
    eBaseline := 137
    tStdMillikelvin := 300000 }

/-- A program which copies the preimage of an invalid module to its output gets the hash of an
invalid module, whatever the hash function is. -/
theorem disguised_output :
    ∃ left right, (Sample.execution [1] (failDomain ++ [3])).outcome = .ok left ∧
      (Sample.execution [2] []).outcome = .ok right ∧ left.preimage = right.preimage ∧
      left.resultHash = right.resultHash ∧ left.status ≠ right.status := by
  have compared : ((Sample.execution [1] (failDomain ++ [3])).outcome.toOption).any (fun left =>
      ((Sample.execution [2] []).outcome.toOption).any fun right =>
        left.preimage = right.preimage ∧ left.resultHash = right.resultHash ∧
          left.status ≠ right.status) = true := by
    decide +kernel
  obtain ⟨left, left_executed, compared⟩ := (Option.any_eq_true _ _).mp compared
  obtain ⟨right, right_executed, compared⟩ := (Option.any_eq_true _ _).mp compared
  exact ⟨left, right, Checked.toOption_eq_some.mp left_executed,
    Checked.toOption_eq_some.mp right_executed, of_decide_eq_true compared⟩

theorem resultHash_identifies_iff_echo :
    ∃ left right, (Sample.execution [1] [7, 8, 9]).outcome = .ok left ∧
      (Sample.execution [2] []).outcome = .ok right ∧
      ((left.resultHash = right.resultHash →
          left.status = right.status ∧ left.output = right.output) ↔
        ¬(Sample.execution [1] [7, 8, 9]).Disguises (Sample.execution [2] []) ∧
          ¬(Sample.execution [2] []).Disguises (Sample.execution [1] [7, 8, 9])) := by
  have compared : ((Sample.execution [1] [7, 8, 9]).outcome.toOption).any (fun left =>
      ((Sample.execution [2] []).outcome.toOption).any fun right =>
        Crypto.hashBytes left.preimage ≠ Crypto.hashBytes right.preimage) = true := by
    decide +kernel
  obtain ⟨left, left_executed, compared⟩ := (Option.any_eq_true _ _).mp compared
  obtain ⟨right, right_executed, compared⟩ := (Option.any_eq_true _ _).mp compared
  have left_executed := Checked.toOption_eq_some.mp left_executed
  have right_executed := Checked.toOption_eq_some.mp right_executed
  have collisionFree : Set.InjOn Crypto.hashBytes {left.preimage, right.preimage} :=
    Set.injOn_pair.mpr fun same => absurd same (of_decide_eq_true compared)
  exact ⟨left, right, left_executed, right_executed,
    resultHash_identifies_iff left_executed right_executed collisionFree⟩

end Sample

end Ducp
