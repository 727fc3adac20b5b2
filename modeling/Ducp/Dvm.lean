import Ducp.Types

/-!
# The virtual machine

A task runs once, and its count is derived from the fuel the run consumed.  Compiling,
instantiating and running WebAssembly belongs to the runtime library; a `Runtime` instance stands
for it, and reports the same for the same module, input, fuel and memory.
-/

namespace Ducp

open Borsh

/-! ## The runtime -/

/-- How far the runtime got with a module.  The fuel left is missing when it cannot be read. -/
inductive Report
  /-- The module does not compile. -/
  | uncompiled
  /-- The host functions cannot be defined. -/
  | unlinked
  /-- The module cannot be instantiated. -/
  | uninstantiated (left : Option (BitVec 64))
  /-- No entry point is exported. -/
  | entryless (left : Option (BitVec 64))
  /-- The entry point returned, with the output the guest has written. -/
  | returned (output : List UInt8) (left : Option (BitVec 64))
  /-- The entry point failed, with the code the guest gave and whether the fuel ran out. -/
  | failed (failCode : Option (BitVec 32)) (outOfFuel : Bool) (left : Option (BitVec 64))
  /-- A host function panicked under the guest. -/
  | panicked

/-- The primitives of the WebAssembly libraries. -/
class Runtime where
  /-- Load and run a module on an input, under a fuel ceiling and a memory ceiling in bytes. -/
  report : List UInt8 → List UInt8 → BitVec 64 → BitVec 64 → Report
  /-- Assemble the text format. -/
  parseStr : String → Option (List UInt8)

/-- A run of a fixed cost, which runs out of fuel below it. -/
def Report.spending (cost : BitVec 64) (output : List UInt8) (fuelCeiling : BitVec 64) : Report :=
  if fuelCeiling < cost then .failed none true (some 0)
  else .returned output (some (fuelCeiling - cost))

/-- A computable instance for evaluation: a reference workload of fixed cost, a program which copies
its input, and nothing else compiles. -/
@[reducible]
def Runtime.echo : Runtime where
  report moduleBytes input fuelCeiling _ :=
    if moduleBytes = [0] then .spending 700000 [] fuelCeiling
    else if moduleBytes = [1] then .spending 35 input fuelCeiling
    else .uncompiled
  parseStr _ := some [0]

/-! ## Outcomes -/

/-- Why an execution did not complete. -/
inductive FailureKind
  | outOfFuel
  | userAbort (code : BitVec 32)
  | trap
  | invalidModule
  | instantiation
  | noEntryPoint
  deriving DecidableEq

/-- The terminal status of an execution. -/
inductive ExecStatus
  | ok
  | failure (kind : FailureKind)
  deriving DecidableEq

/-- The result of running a task. -/
structure ExecOutcome where
  resultHash : Hash
  output : List UInt8
  ucuCount : Ucu
  status : ExecStatus
  deriving DecidableEq

instance : Borsh FailureKind where
  layout
    | .outOfFuel => [0]
    | .userAbort code => 1 :: layout code
    | .trap => [2]
    | .invalidModule => [3]
    | .instantiation => [4]
    | .noEntryPoint => [5]
  fits _ := true
  layout_cancel {left right _ _} _ _ same := by
    cases left <;> cases right <;>
      simp only [List.cons_append, List.nil_append, List.cons.injEq] at same
    any_goals (have mismatch := same.1; contradiction)
    case userAbort.userAbort =>
      obtain ⟨rfl, rests⟩ := layout_cancel rfl rfl same.2
      exact ⟨rfl, rests⟩
    all_goals exact ⟨rfl, same.2⟩

/-- The domain separator of a failure. -/
def failDomain : List UInt8 := "ducp.fail.v0".toUTF8.toList

/-- The result hash of a failure. -/
def failureResultHash [Crypto] (kind : FailureKind) : Checked Hash := do
  let bytes ← canonicalBytes kind
  return Crypto.hashBytes (failDomain ++ bytes)

/-! ## The benchmark -/

/-- The reference which fixes the scale of a count. -/
structure Benchmark where
  version : BenchmarkVersion
  fuelCostTableHash : Hash
  fuelPerUcu : BitVec 64
  eBaseline : BitVec 64
  tStdMillikelvin : BitVec 64
  deriving DecidableEq

namespace Benchmark

/-- The count of a fuel quantity. -/
def fuelToUcu (benchmark : Benchmark) (fuel : BitVec 64) : Checked Ucu := do
  let scaled ← Checked.mul (fuel.setWidth 128) ucuScale
  Checked.div scaled (benchmark.fuelPerUcu.setWidth 128)

/-- The fuel ceiling of a count, saturating at the largest fuel quantity. -/
def ucuToFuelCeiling (benchmark : Benchmark) (maxUcu : Ucu) : Checked (BitVec 64) := do
  let scaled ← Checked.mul maxUcu (benchmark.fuelPerUcu.setWidth 128)
  let fuel ← Checked.div scaled ucuScale
  return (Checked.lesser fuel ((BitVec.allOnes 64).setWidth 128)).setWidth 64

end Benchmark

/-! ## Execution -/

namespace WasmtimeDvm

variable [Runtime]

/-- The fuel consumed under a ceiling. -/
def consumed (left : Option (BitVec 64)) (ceiling : BitVec 64) : BitVec 64 :=
  let left := left.getD 0
  if ceiling < left then 0 else ceiling - left

/-- One deterministic run: the status, the output and the fuel consumed. -/
def run (moduleBytes input : List UInt8) (fuelCeiling maxMemoryBytes : BitVec 64) :
    Checked (ExecStatus × List UInt8 × BitVec 64) :=
  match Runtime.report moduleBytes input fuelCeiling maxMemoryBytes with
  | .uncompiled => .ok (.failure .invalidModule, [], 0)
  | .unlinked => .ok (.failure .instantiation, [], 0)
  | .uninstantiated left => .ok (.failure .instantiation, [], consumed left fuelCeiling)
  | .entryless left => .ok (.failure .noEntryPoint, [], consumed left fuelCeiling)
  | .returned output left => .ok (.ok, output, consumed left fuelCeiling)
  | .failed (some code) _ left => .ok (.failure (.userAbort code), [], consumed left fuelCeiling)
  | .failed none true left => .ok (.failure .outOfFuel, [], consumed left fuelCeiling)
  | .failed none false left => .ok (.failure .trap, [], consumed left fuelCeiling)
  | .panicked => .error .absent

/-- The fuel ceiling of a run without declared limits. -/
def meterFuelCeiling : BitVec 64 := 1 <<< 40

/-- The memory ceiling of a run without declared limits. -/
def defaultMaxMem : BitVec 64 := 16 * 1024 * 1024

/-- The fuel a module consumes, when it completes. -/
def measureFuel (moduleBytes input : List UInt8) : Checked (Option (BitVec 64)) := do
  let (status, _, fuel) ← run moduleBytes input meterFuelCeiling defaultMaxMem
  match status with
  | .ok => return some fuel
  | .failure _ => return none

/-- Execute a task under its limits.  Exhausting the fuel counts as the declared ceiling. -/
def execute [Crypto] (moduleBytes input : List UInt8) (limits : Limits) (benchmark : Benchmark) :
    Checked ExecOutcome := do
  let ceiling ← benchmark.ucuToFuelCeiling limits.maxUcu
  let (status, output, fuel) ← run moduleBytes input ceiling limits.maxMemoryBytes
  match status with
  | .ok => return {
      resultHash := Crypto.hashBytes output
      output
      ucuCount := ← benchmark.fuelToUcu fuel
      status }
  | .failure .outOfFuel => return {
      resultHash := ← failureResultHash .outOfFuel
      output
      ucuCount := limits.maxUcu
      status }
  | .failure kind => return {
      resultHash := ← failureResultHash kind
      output
      ucuCount := ← benchmark.fuelToUcu fuel
      status }

/-- The count of a run without declared limits. -/
def meter (moduleBytes input : List UInt8) (benchmark : Benchmark) : Checked Ucu := do
  let (status, _, fuel) ← run moduleBytes input meterFuelCeiling defaultMaxMem
  match status with
  | .ok => benchmark.fuelToUcu fuel
  | .failure _ => benchmark.fuelToUcu fuel

end WasmtimeDvm

/-! ## Calibration -/

/-- The reference workload. -/
def referenceWat : String := r#"
(module
  (memory (export "memory") 1)
  (func (export "run")
    (local $i i32) (local $sum i64)
    (local.set $i (i32.const 0))
    (local.set $sum (i64.const 0))
    (block $done
      (loop $loop
        (br_if $done (i32.ge_u (local.get $i) (i32.const 100000)))
        (local.set $sum (i64.add (local.get $sum) (i64.extend_i32_u (local.get $i))))
        (local.set $i (i32.add (local.get $i) (i32.const 1)))
        (br $loop)))
    (i64.store (i32.const 0) (local.get $sum))
    (call $noop)
  )
  (func $noop)
)
"#

/-- The identifier of the fuel cost model. -/
def fuelCostModelId : List UInt8 := "ducp.fuel.wasmtime.v46.profile0".toUTF8.toList

/-- The benchmark under which the reference workload counts as one unit. -/
def Benchmark.devnet [Crypto] [Runtime] : Checked Benchmark := do
  let referenceModule ← Checked.expect (Runtime.parseStr referenceWat)
  let measured ← WasmtimeDvm.measureFuel referenceModule []
  let fuelRef ← Checked.expect measured
  return {
    version := 0
    fuelCostTableHash := Crypto.hashBytes fuelCostModelId
    fuelPerUcu := if fuelRef < 1 then 1 else fuelRef
    eBaseline := 137
    tStdMillikelvin := 300000 }

/-! ## The echo workload -/

/-- A workload which writes its input as its output. -/
def echoWat : String := r#"
(module
  (import "ducp" "input_len" (func $len (result i32)))
  (import "ducp" "input_read" (func $read (param i32 i32 i32) (result i32)))
  (import "ducp" "output_write" (func $write (param i32 i32)))
  (memory (export "memory") 1)
  (func (export "run")
    (local $n i32)
    (local.set $n (call $len))
    (drop (call $read (i32.const 0) (i32.const 0) (local.get $n)))
    (call $write (i32.const 0) (local.get $n))
  )
)
"#

/-- The echo workload, assembled. -/
def echoModule [Runtime] : Checked (List UInt8) := Checked.expect (Runtime.parseStr echoWat)

end Ducp
