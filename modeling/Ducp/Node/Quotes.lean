import Ducp.Dvm.Metering
import Ducp.Ledger.Arithmetic
import Ducp.Node.Rpc

/-!
# The arithmetic of a request

A submission is quoted before the ledger sees it.  The quote multiplies a ceiling which nobody has
paid for yet, and it is the only amount of a transaction which can leave its type.  An estimate is
a count which was rounded down, and its ceiling is rounded down once more.
-/

namespace Ducp

open Checked Outcome Std

/-- No step of a transaction panics so: neither the quote of a submission, nor the transition, nor
the conservation check after it. -/
structure Processed [Crypto] (node : NodeHandle) (s : State) (stx : SignedTx) (fault : Fault) :
    Prop where
  quoted : ∀ body, stx.tx = .submitTask body → Checked.Avoids fault (Rpc.quote node body)
  applied : (s.apply stx node.params).Avoids fault
  checked : ∀ s', (s.apply stx node.params).Returns s' →
    Checked.Avoids fault s'.checkConservation

section Quotes

variable [Crypto] {node : NodeHandle} {s : State} {body : TaskBody} {fault : Fault}

theorem quote_in_range (devnet : node.params = .devnet)
    (ceiling : body.limits.maxUcu.toNat * 1000 < 2 ^ 128) :
    Checked.Avoids fault (Rpc.quote node body) := by
  obtain ⟨task, taskId⟩ := taskId_total body
  simp only [Rpc.quote, devnet, taskId, Checked.avoids_bind, avoids_ok, Checked.avoids_pure,
    implies_true, true_and, and_true]
  refine fun _ _ => ⟨ppmOf_in_range ceiling, fun fee fee_eq => avoids_add_of_lt ?_⟩
  have fee_le := ppmOf_le fee_eq (by decide)
  omega

/-- A ceiling which is too large for the product of its fee panics the quote. -/
theorem quote_overflows (devnet : node.params = .devnet)
    (ceiling : 2 ^ 128 ≤ body.limits.maxUcu.toNat * 1000) :
    Rpc.quote node body = .error .overflow := by
  obtain ⟨task, taskId⟩ := taskId_total body
  have product : Checked.mul body.limits.maxUcu Params.devnet.feePpm = .error .overflow :=
    mul_eq_error.mpr ⟨rfl, ceiling⟩
  have fee : Params.devnet.fee body.limits.maxUcu = .error .overflow :=
    Checked.bind_eq_error.mpr (.inl product)
  rw [Rpc.quote, taskId, devnet, fee]
  rfl

/-- On every reachable state in range, no operator of a transaction leaves its type if and only if
the ceiling of a submitted task is below the overflow of its fee. -/
theorem processed_iff_ceiling (reachable : Reachable s) (range : InRange s)
    (devnet : node.params = .devnet) (stx : SignedTx) :
    (∀ fault, fault.Arithmetic → Processed node s stx fault) ↔
      ∀ body, stx.tx = .submitTask body → body.limits.maxUcu.toNat * 1000 < 2 ^ 128 := by
  constructor
  · intro processed body submitted
    have quoted := (processed .overflow (.inl rfl)).quoted body submitted
    by_contra ceiling
    exact quoted (quote_overflows devnet (Nat.not_lt.mp ceiling))
  · intro ceiling fault arithmetic
    have encoding : fault ≠ .encoding := by
      rcases arithmetic with rfl | rfl | rfl <;> decide
    refine ⟨fun body submitted => quote_in_range devnet (ceiling body submitted), ?_, ?_⟩
    · rw [devnet]
      exact State.apply_in_range reachable.solvent range encoding ceiling
    · intro s' returns
      have step : Step s (.apply stx node.params) s' := returns
      rw [(reachable.step step).conserved.check]
      exact avoids_ok

end Quotes

section Estimates

variable [Crypto] [Runtime] {node : NodeHandle} {lock : Lock NodeInner} {program input : ContentId}
  {moduleBytes inputBytes output : List UInt8} {maxMemoryBytes fuel : BitVec 64} {ucu : Ucu}

omit [Crypto] in
theorem returns_estimate (unpoisoned : lock.poisoned = false)
    (program_eq : lock.state.blobs[program]? = some moduleBytes)
    (input_eq : lock.state.blobs[input]? = some inputBytes)
    (metered : WasmtimeDvm.meter moduleBytes inputBytes node.benchmark = .ok ucu) :
    (node.estimate program input).Returns lock ucu lock := by
  rw [NodeHandle.estimate, Guarded.returns_bind]
  refine ⟨_, lock, Guarded.returns_read.mpr ⟨unpoisoned, rfl, rfl⟩, ?_⟩
  simp [program_eq, input_eq, metered]

/-- The estimate of a completing guest is rounded down: its ceiling covers the fuel exactly when
the count is exact, and that of one base unit more always does. -/
theorem estimate_rounds_down {benchmark : Benchmark} (calibrated : 0 < benchmark.fuelPerUcu.toNat)
    (metered : fuel < WasmtimeDvm.meterFuelCeiling) :
    ∃ ucu above ceiling roomy, benchmark.fuelToUcu fuel = .ok ucu ∧
      benchmark.ucuToFuelCeiling ucu = .ok ceiling ∧ ceiling ≤ fuel ∧
      (fuel ≤ ceiling ↔ benchmark.fuelPerUcu.toNat ∣ fuel.toNat * 1000000000) ∧
      Checked.add ucu 1 = .ok above ∧ benchmark.ucuToFuelCeiling above = .ok roomy ∧
      fuel ≤ roomy ∧
      ∀ {node : NodeHandle} {lock : Lock NodeInner} {program input : ContentId}
        {moduleBytes inputBytes output : List UInt8} {maxMemoryBytes : BitVec 64},
        node.benchmark = benchmark → lock.poisoned = false →
        lock.state.blobs[program]? = some moduleBytes →
        lock.state.blobs[input]? = some inputBytes →
        WasmtimeDvm.Completes moduleBytes inputBytes output WasmtimeDvm.defaultMaxMem fuel →
        WasmtimeDvm.Completes moduleBytes inputBytes output maxMemoryBytes fuel →
        (node.estimate program input).Returns lock ucu lock ∧
        (benchmark.fuelPerUcu.toNat ∣ fuel.toNat * 1000000000 →
          ∃ outcome, WasmtimeDvm.execute moduleBytes inputBytes { maxUcu := ucu, maxMemoryBytes }
            benchmark = .ok outcome ∧ outcome.status = .ok) ∧
        ∃ outcome, WasmtimeDvm.execute moduleBytes inputBytes { maxUcu := above, maxMemoryBytes }
          benchmark = .ok outcome ∧ outcome.status = .ok := by
  obtain ⟨ucu, counted, _⟩ := Benchmark.exists_fuelToUcu calibrated fuel
  obtain ⟨ceiling, limited, ceiling_le, covered_iff⟩ :=
    Benchmark.exists_ceiling_of_count calibrated counted
  obtain ⟨above, roomy, added, roomy_limited, roomy_covers⟩ :=
    Benchmark.exists_ceiling_above_count calibrated counted
  refine ⟨ucu, above, ceiling, roomy, counted, limited, ceiling_le, covered_iff, added,
    roomy_limited, roomy_covers, ?_⟩
  intro node lock program input moduleBytes inputBytes output maxMemoryBytes configured unpoisoned
    program_eq input_eq meters completes
  refine ⟨?_, ?_, ?_⟩
  · refine returns_estimate unpoisoned program_eq input_eq ?_
    rw [configured, meters.meter_eq (BitVec.le_of_lt metered), counted]
  · intro divides
    obtain ⟨outcome, executed, status, _⟩ :=
      completes.execute_ok counted limited (covered_iff.mpr divides)
    exact ⟨outcome, executed, status⟩
  · obtain ⟨outcome, executed, status, _⟩ :=
      completes.execute_ok counted roomy_limited roomy_covers
    exact ⟨outcome, executed, status⟩

end Estimates

section Sample

open Sample

attribute [local instance] Crypto.checksum Runtime.echo

/-- A task with the largest ceiling its type holds. -/
def Sample.costlyBody : TaskBody :=
  { body 0 with limits := { maxUcu := BitVec.allOnes 128, maxMemoryBytes := 65536 } }

/-- At genesis, a task with the largest ceiling overflows the quote and the transition. -/
theorem costly_submission_overflows :
    ∃ node start, NodeHandle.new alice funded = .ok (node, start) ∧
      Reachable start.state.state ∧ InRange start.state.state ∧ node.params = .devnet ∧
      Rpc.quote node costlyBody = .error .overflow ∧
      (start.state.state.apply (signed alice 0 (.submitTask costlyBody)) node.params).Faults
        .overflow ∧
      ¬∀ fault, fault.Arithmetic →
        Processed node start.state.state (signed alice 0 (.submitTask costlyBody)) fault := by
  have overflowed : (nodeAfter []).any (fun ran =>
      InRange ran.2.2.state.state ∧ Rpc.quote ran.1 costlyBody = .error .overflow ∧
        (ran.2.2.state.state.apply (signed alice 0 (.submitTask costlyBody)) .devnet).run =
          .error .overflow) = true := by
    decide +kernel
  obtain ⟨⟨node, start, lock⟩, ran, overflowed⟩ := (Option.any_eq_true _ _).mp overflowed
  obtain ⟨range, quoted, applied⟩ := of_decide_eq_true overflowed
  have reachable := (nodeAfter_reachable ran).sound.ledger
  obtain ⟨opened, run⟩ := nodeAfter_eq_some ran
  obtain rfl := Run.nil_iff.mp run
  obtain ⟨_, _, _, _, rfl, _⟩ := new_effect opened
  refine ⟨_, _, opened, reachable, range, rfl, quoted, applied, fun processed => ?_⟩
  exact (processed .overflow (.inl rfl)).quoted costlyBody rfl quoted

theorem processed_iff_ceiling_echo :
    ∃ node start lock, NodeHandle.new alice funded = .ok (node, start) ∧
      Run (NodeOp.Performs node) start (echoSettled echoProof) lock ∧
      ((∀ fault, fault.Arithmetic →
          Processed node lock.state.state (signed alice 1 (.submitTask (body 0))) fault) ↔
        ∀ found, (signed alice 1 (.submitTask (body 0))).tx = .submitTask found →
          found.limits.maxUcu.toNat * 1000 < 2 ^ 128) := by
  have settled : (nodeAfter (echoSettled echoProof)).any (fun ran =>
      InRange ran.2.2.state.state) = true := by decide +kernel
  obtain ⟨⟨node, start, lock⟩, ran, settled⟩ := (Option.any_eq_true _ _).mp settled
  have reachable := (nodeAfter_reachable ran).sound.ledger
  obtain ⟨opened, run⟩ := nodeAfter_eq_some ran
  obtain ⟨_, _, _, _, node_eq, _⟩ := new_effect opened
  have devnet : node.params = .devnet := by rw [node_eq]
  exact ⟨node, start, lock, opened, run, processed_iff_ceiling reachable
    (of_decide_eq_true settled) devnet (signed alice 1 (.submitTask (body 0)))⟩

end Sample

section Frugal

open Sample

/-- A computable instance for evaluation: a reference workload and a program which copies its
input, each of which runs out of fuel below its fixed cost. -/
@[reducible]
def Runtime.frugal : Runtime where
  report moduleBytes input fuelCeiling _ :=
    let cost : BitVec 64 := if moduleBytes = [0] then 700000 else 36
    if fuelCeiling < cost then .failed none true (some 0)
    else .returned (if moduleBytes = [0] then [] else input) (some (fuelCeiling - cost))
  parseStr _ := some [0]

attribute [local instance] Crypto.checksum Runtime.frugal

/-- A sample node, its genesis, and its state once the blobs of a task are stored. -/
def Sample.frugalNode : Option (NodeHandle × Lock NodeInner × Lock NodeInner) :=
  match NodeHandle.new alice funded with
  | .ok (node, start) => some (node, start, echoBlobs.foldl (NodeOp.perform node) start)
  | .error _ => none

/-- The blobs of the task are stored, against a reference of a fixed cost. -/
abbrev Sample.FrugalStored (node : NodeHandle) (lock : Lock NodeInner) : Prop :=
  node.benchmark.fuelPerUcu = 700000 ∧ lock.poisoned = false ∧
    lock.state.blobs[contentId [1]]? = some [1] ∧
    lock.state.blobs[contentId [7, 8, 9]]? = some [7, 8, 9]

theorem Sample.frugal_completes (maxMemoryBytes : BitVec 64) :
    WasmtimeDvm.Completes [1] [7, 8, 9] [7, 8, 9] maxMemoryBytes 36 := by
  intro ceiling enough
  simpa [Runtime.report] using enough

theorem Sample.frugalNode_eq_some {node : NodeHandle} {start lock : Lock NodeInner}
    (ran : frugalNode = some (node, start, lock)) :
    NodeHandle.new alice funded = .ok (node, start) ∧
      Run (NodeOp.Performs node) start echoBlobs lock := by
  unfold frugalNode at ran
  split at ran
  · rename_i opened
    simp only [Option.some.injEq, Prod.mk.injEq] at ran
    obtain ⟨rfl, rfl, rfl⟩ := ran
    exact ⟨opened, Run.of_foldl⟩
  · cases ran

/-- An execution with its own estimate as the ceiling runs out of fuel. -/
theorem estimate_runs_out :
    ∃ node start lock ucu, NodeHandle.new alice funded = .ok (node, start) ∧
      Run (NodeOp.Performs node) start echoBlobs lock ∧
      WasmtimeDvm.Completes [1] [7, 8, 9] [7, 8, 9] WasmtimeDvm.defaultMaxMem 36 ∧
      (node.estimate (contentId [1]) (contentId [7, 8, 9])).Returns lock ucu lock ∧
      node.benchmark.ucuToFuelCeiling ucu = .ok 35 ∧
      ∃ outcome, WasmtimeDvm.execute [1] [7, 8, 9]
          { maxUcu := ucu, maxMemoryBytes := WasmtimeDvm.defaultMaxMem } node.benchmark =
            .ok outcome ∧ outcome.status = .failure .outOfFuel := by
  have stored : frugalNode.any (fun (node, _, lock) =>
      FrugalStored node lock ∧ WasmtimeDvm.meter [1] [7, 8, 9] node.benchmark = .ok 51428 ∧
        node.benchmark.ucuToFuelCeiling 51428 = .ok 35 ∧
        ((WasmtimeDvm.execute [1] [7, 8, 9]
          { maxUcu := 51428, maxMemoryBytes := WasmtimeDvm.defaultMaxMem }
          node.benchmark).toOption.any fun outcome =>
            outcome.status = .failure .outOfFuel) = true) = true := by
    decide +kernel
  obtain ⟨⟨node, start, lock⟩, ran, stored⟩ := (Option.any_eq_true _ _).mp stored
  obtain ⟨⟨_, unpoisoned, program_eq, input_eq⟩, metered, limited, exhausted⟩ :=
    of_decide_eq_true stored
  obtain ⟨outcome, executed, status⟩ := (Option.any_eq_true _ _).mp exhausted
  obtain ⟨opened, run⟩ := frugalNode_eq_some ran
  exact ⟨node, start, lock, 51428, opened, run, frugal_completes _,
    returns_estimate unpoisoned program_eq input_eq metered, limited, outcome,
    Checked.toOption_eq_some.mp executed, of_decide_eq_true status⟩

theorem estimate_rounds_down_frugal :
    ∃ node start lock ucu above, NodeHandle.new alice funded = .ok (node, start) ∧
      Run (NodeOp.Performs node) start echoBlobs lock ∧
      (node.estimate (contentId [1]) (contentId [7, 8, 9])).Returns lock ucu lock ∧
      Checked.add ucu 1 = .ok above ∧
      ∃ outcome, WasmtimeDvm.execute [1] [7, 8, 9]
          { maxUcu := above, maxMemoryBytes := WasmtimeDvm.defaultMaxMem } node.benchmark =
            .ok outcome ∧ outcome.status = .ok := by
  have stored : frugalNode.any (fun (node, _, lock) => FrugalStored node lock) = true := by
    decide +kernel
  obtain ⟨⟨node, start, lock⟩, ran, stored⟩ := (Option.any_eq_true _ _).mp stored
  obtain ⟨rate, unpoisoned, program_eq, input_eq⟩ := of_decide_eq_true stored
  obtain ⟨opened, run⟩ := frugalNode_eq_some ran
  have calibrated : 0 < node.benchmark.fuelPerUcu.toNat := by
    rw [rate]
    decide
  obtain ⟨ucu, above, _, _, _, _, _, _, added, _, _, estimated⟩ :=
    estimate_rounds_down calibrated (show 36 < WasmtimeDvm.meterFuelCeiling by decide)
  obtain ⟨returns, _, completed⟩ := estimated rfl unpoisoned program_eq input_eq
    (frugal_completes _) (frugal_completes WasmtimeDvm.defaultMaxMem)
  exact ⟨node, start, lock, ucu, above, opened, run, returns, added, completed⟩

end Frugal

end Ducp
