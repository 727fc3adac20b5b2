import Ducp.Library.Wrapping
import Ducp.Verification

/-!
# The Sealed Q floor

An attested seal records an efficiency which is meant to be a lower bound: the metered work against
the baseline, over the declared energy and temperature.  The products wrap in a release build and
the quotient is narrowed, so that the bound holds exactly when these leave it alone.
-/

namespace Ducp

open Wrapping

/-! ## The attestor -/

/-- The fixed-point scale of a recorded efficiency. -/
def microQScale : BitVec 64 := 1000000

/-- The evidence reference is present. -/
def evidenceValid (powerSeal : PowerSeal) : Bool :=
  powerSeal.attestationEvidence ≠ Bytes.fill 32 0

/-- The declared energy and temperature are positive. -/
def sealPlausible (powerSeal : PowerSeal) : Bool :=
  0 < powerSeal.powerCapMilliwatts ∧ 0 < powerSeal.windowMillis ∧ 0 < powerSeal.tMaxMillikelvin

/-- The declaration is made under the benchmark. -/
def wellFormed (powerSeal : PowerSeal) (benchmark : Benchmark) : Bool :=
  powerSeal.benchmark = benchmark.version

/-- The metered work in whole units, at least one. -/
def wholeUcu (ucuCount : Ucu) : Ucu :=
  let whole := ucuCount / ucuScale
  if whole < 1 then 1 else whole

/-- The floor of a seal.  The operators of `BitVec` wrap as those of a release build do. -/
def sealedQFloor (powerSeal : PowerSeal) (ucuCount : Ucu) (benchmark : Benchmark) : Quant :=
  let cUcu := wholeUcu ucuCount
  let numerator := cUcu * benchmark.eBaseline.setWidth 128 *
    benchmark.tStdMillikelvin.setWidth 128 * microQScale.setWidth 128
  let eConsumed := powerSeal.powerCapMilliwatts.setWidth 128 * powerSeal.windowMillis.setWidth 128
  let denom := eConsumed * powerSeal.tMaxMillikelvin.setWidth 128
  -- `checked_div` with the default 0
  let micro : BitVec 128 := if denom = 0 then 0 else numerator / denom
  { microQ := micro.setWidth 64 }

/-- The floor of a seal which passes the three checks. -/
def SealedAttestor.attest (powerSeal : PowerSeal) (ucuCount : Ucu) (benchmark : Benchmark) :
    Option Quant :=
  if evidenceValid powerSeal = false ∨ sealPlausible powerSeal = false ∨
      wellFormed powerSeal benchmark = false then
    none
  else
    some (sealedQFloor powerSeal ucuCount benchmark)

/-! ## The exact quantities -/

/-- The declared energy times the declared temperature. -/
def PowerSeal.declared (powerSeal : PowerSeal) : ℕ :=
  powerSeal.powerCapMilliwatts.toNat * powerSeal.windowMillis.toNat *
    powerSeal.tMaxMillikelvin.toNat

/-- What one unit is worth under the benchmark, in millionths. -/
def Benchmark.baseline (benchmark : Benchmark) : ℕ :=
  benchmark.eBaseline.toNat * benchmark.tStdMillikelvin.toNat * microQScale.toNat

/-- What the counted whole units are worth. -/
def claimed (ucuCount : Ucu) (benchmark : Benchmark) : ℕ :=
  max (ucuCount.toNat / ucuScale.toNat) 1 * benchmark.baseline

/-- The efficiency in millionths, in exact arithmetic. -/
def exactMicroQ (powerSeal : PowerSeal) (ucuCount : Ucu) (benchmark : Benchmark) : ℚ :=
  1000000 * ((ucuCount.toNat : ℚ) / ucuScale.toNat) * benchmark.eBaseline.toNat *
      benchmark.tStdMillikelvin.toNat /
    (powerSeal.powerCapMilliwatts.toNat * powerSeal.windowMillis.toNat *
      powerSeal.tMaxMillikelvin.toNat)

theorem wholeUcu_toNat (ucuCount : Ucu) :
    (wholeUcu ucuCount).toNat = max (ucuCount.toNat / ucuScale.toNat) 1 := by
  have one : (1 : Ucu).toNat = 1 := rfl
  have quotient : (ucuCount / ucuScale).toNat = ucuCount.toNat / ucuScale.toNat :=
    BitVec.toNat_udiv
  simp only [wholeUcu]
  split <;> rename_i order <;> rw [BitVec.lt_def, quotient, one] at order
  · rw [one]
    omega
  · rw [quotient]
    omega

theorem toNat_widened (word : BitVec 64) : (word.setWidth 128).toNat = word.toNat := by
  rw [BitVec.toNat_setWidth]
  exact Nat.mod_eq_of_lt (word.isLt.trans_le (Nat.pow_le_pow_right two_pos (by omega)))

theorem toNat_scaled (product : BitVec 128) (word : BitVec 64) :
    (product * word.setWidth 128).toNat = product.toNat * word.toNat % 2 ^ 128 := by
  rw [BitVec.toNat_mul, toNat_widened]

/-- A division which falls back to zero is the total division. -/
theorem toNat_divided (numerator denom : BitVec 128) :
    (if denom = 0 then 0 else numerator / denom).toNat = numerator.toNat / denom.toNat := by
  split
  · rename_i zero
    rw [zero]
    simp
  · exact BitVec.toNat_udiv

/-- A product of words wraps once, whatever the order of its factors. -/
theorem sealedQFloor_eq (powerSeal : PowerSeal) (ucuCount : Ucu) (benchmark : Benchmark) :
    (sealedQFloor powerSeal ucuCount benchmark).microQ.toNat =
      quotient (2 ^ 128) (2 ^ 64) (claimed ucuCount benchmark) powerSeal.declared := by
  simp only [sealedQFloor, BitVec.toNat_setWidth 64, toNat_divided, toNat_scaled, toNat_widened,
    wholeUcu_toNat, Nat.mod_mul_mod]
  simp only [quotient, claimed, PowerSeal.declared, Benchmark.baseline, Nat.mul_assoc]

/-- An attested seal declares something positive, and its floor is recorded. -/
theorem attest_eq_some {powerSeal : PowerSeal} {ucuCount : Ucu} {benchmark : Benchmark} {q : Quant}
    (attested : SealedAttestor.attest powerSeal ucuCount benchmark = some q) :
    0 < powerSeal.declared ∧
      q.microQ.toNat =
        quotient (2 ^ 128) (2 ^ 64) (claimed ucuCount benchmark) powerSeal.declared := by
  rw [SealedAttestor.attest] at attested
  split at attested
  · cases attested
  · rename_i passed
    obtain rfl := Option.some.inj attested
    refine ⟨?_, sealedQFloor_eq powerSeal ucuCount benchmark⟩
    simp only [not_or, sealPlausible, Bool.not_eq_false, decide_eq_true_eq, BitVec.lt_def] at passed
    obtain ⟨_, ⟨power, window, temperature⟩, _⟩ := passed
    exact Nat.mul_pos (Nat.mul_pos power window) temperature

/-! ## The floor as a lower bound -/

section Floor

variable {powerSeal : PowerSeal} {ucuCount : Ucu} {benchmark : Benchmark}

/-- The declarations for which rounding and wrapping leave the floor below the exact efficiency. -/
inductive FloorSound (powerSeal : PowerSeal) (ucuCount : Ucu) (benchmark : Benchmark) : Prop
  /-- The declared product wraps to zero. -/
  | vanishes : 2 ^ 128 ∣ powerSeal.declared → FloorSound powerSeal ucuCount benchmark
  /-- The claim is below the declared product, wrapped or not. -/
  | below : claimed ucuCount benchmark < powerSeal.declared % 2 ^ 128 →
      FloorSound powerSeal ucuCount benchmark
  /-- The claim is below twice the declared product, and the exact efficiency is at least one. -/
  | one : claimed ucuCount benchmark < 2 * (powerSeal.declared % 2 ^ 128) →
      powerSeal.declared * ucuScale.toNat ≤ ucuCount.toNat * benchmark.baseline →
      FloorSound powerSeal ucuCount benchmark
  /-- The declared product does not wrap, and a whole unit has been metered. -/
  | counted : powerSeal.declared < 2 ^ 128 → ucuScale ≤ ucuCount →
      FloorSound powerSeal ucuCount benchmark
  /-- The declared product does not wrap, and the division rounds off at least what counting a part
  of a unit as a whole one has added. -/
  | rounded : powerSeal.declared < 2 ^ 128 →
      (ucuScale.toNat - ucuCount.toNat) * claimed ucuCount benchmark ≤
        ucuScale.toNat * (claimed ucuCount benchmark % powerSeal.declared) →
      FloorSound powerSeal ucuCount benchmark

theorem ucuScale_pos : 0 < ucuScale.toNat := by decide

theorem le_exactMicroQ_iff (positive : 0 < powerSeal.declared) (q : ℕ) :
    (q : ℚ) ≤ exactMicroQ powerSeal ucuCount benchmark ↔
      q * powerSeal.declared * ucuScale.toNat ≤ ucuCount.toNat * benchmark.baseline := by
  have scale : (microQScale.toNat : ℚ) = 1000000 := by
    have value : microQScale.toNat = 1000000 := rfl
    rw [value]
    norm_num
  have nonzero : (ucuScale.toNat : ℚ) ≠ 0 := Nat.cast_ne_zero.mpr ucuScale_pos.ne'
  have fraction : exactMicroQ powerSeal ucuCount benchmark =
      ((ucuCount.toNat * benchmark.baseline : ℕ) : ℚ) /
        (powerSeal.declared * ucuScale.toNat : ℕ) := by
    simp only [exactMicroQ, PowerSeal.declared, Benchmark.baseline, Nat.cast_mul, scale]
    field_simp
  have denominator : (0 : ℚ) < (powerSeal.declared * ucuScale.toNat : ℕ) :=
    Nat.cast_pos.mpr (Nat.mul_pos positive ucuScale_pos)
  rw [fraction, le_div_iff₀ denominator, ← Nat.cast_mul, Nat.cast_le, ← Nat.mul_assoc]

/-- Whole units are counted at no more than what has been metered. -/
theorem claimed_le (counted : ucuScale ≤ ucuCount) :
    claimed ucuCount benchmark * ucuScale.toNat ≤ ucuCount.toNat * benchmark.baseline := by
  have whole : 1 ≤ ucuCount.toNat / ucuScale.toNat :=
    (Nat.one_le_div_iff ucuScale_pos).mpr (BitVec.le_def.mp counted)
  rw [claimed, max_eq_left whole, Nat.mul_right_comm]
  exact Nat.mul_le_mul_right _ (Nat.div_mul_le_self ..)

/-- A part of a unit is counted as a whole one. -/
theorem claimed_of_lt (part : ucuCount < ucuScale) :
    claimed ucuCount benchmark = benchmark.baseline := by
  rw [claimed, Nat.div_eq_of_lt (BitVec.lt_def.mp part)]
  simp

/-- Counting whole units claims at least half of what has been metered. -/
theorem metered_le (ucuCount : Ucu) (benchmark : Benchmark) : ucuCount.toNat * benchmark.baseline ≤
    2 * (claimed ucuCount benchmark * ucuScale.toNat) := by
  have remainder := Nat.mod_lt ucuCount.toNat ucuScale_pos
  have split := Nat.div_add_mod ucuCount.toNat ucuScale.toNat
  have whole : ucuCount.toNat / ucuScale.toNat ≤ max (ucuCount.toNat / ucuScale.toNat) 1 :=
    le_max_left _ _
  have part : 1 ≤ max (ucuCount.toNat / ucuScale.toNat) 1 := le_max_right _ _
  rw [claimed]
  generalize max (ucuCount.toNat / ucuScale.toNat) 1 = counted at *
  have scaled := Nat.mul_le_mul_left ucuScale.toNat whole
  have unit := Nat.mul_le_mul_left ucuScale.toNat part
  have bound : ucuCount.toNat ≤ 2 * (counted * ucuScale.toNat) := by
    rw [Nat.mul_comm counted]
    omega
  calc
    ucuCount.toNat * benchmark.baseline ≤ 2 * (counted * ucuScale.toNat) * benchmark.baseline :=
      Nat.mul_le_mul_right _ bound
    _ = 2 * (counted * benchmark.baseline * ucuScale.toNat) := by ring

/-- The exact floor of a part of a unit, compared with what has been metered. -/
theorem part_floor_le_iff (part : ucuCount < ucuScale) :
    claimed ucuCount benchmark / powerSeal.declared * powerSeal.declared * ucuScale.toNat ≤
        ucuCount.toNat * benchmark.baseline ↔
      (ucuScale.toNat - ucuCount.toNat) * claimed ucuCount benchmark ≤
        ucuScale.toNat * (claimed ucuCount benchmark % powerSeal.declared) := by
  rw [claimed_of_lt part]
  have below := BitVec.lt_def.mp part
  have divided := Nat.div_add_mod' benchmark.baseline powerSeal.declared
  generalize benchmark.baseline / powerSeal.declared * powerSeal.declared = floor,
    benchmark.baseline % powerSeal.declared = lost at *
  have metered : (ucuScale.toNat - ucuCount.toNat) * benchmark.baseline +
      ucuCount.toNat * benchmark.baseline = ucuScale.toNat * benchmark.baseline := by
    rw [← Nat.add_mul, Nat.sub_add_cancel below.le]
  have whole : floor * ucuScale.toNat + ucuScale.toNat * lost =
      ucuScale.toNat * benchmark.baseline := by
    rw [← divided, Nat.mul_add, Nat.mul_comm floor]
  omega

/-- A sound declaration is never credited with more than its exact efficiency. -/
theorem FloorSound.le (sound : FloorSound powerSeal ucuCount benchmark) :
    quotient (2 ^ 128) (2 ^ 64) (claimed ucuCount benchmark) powerSeal.declared *
        powerSeal.declared * ucuScale.toNat ≤ ucuCount.toNat * benchmark.baseline := by
  have floor_le (fits : powerSeal.declared < 2 ^ 128) :
      quotient (2 ^ 128) (2 ^ 64) (claimed ucuCount benchmark) powerSeal.declared *
          powerSeal.declared * ucuScale.toNat ≤
        claimed ucuCount benchmark / powerSeal.declared * powerSeal.declared * ucuScale.toNat :=
    Nat.mul_le_mul_right _ (Nat.mul_le_mul_right _ (quotient_le_div _ _ fits))
  have whole_le (fits : powerSeal.declared < 2 ^ 128) (counted : ucuScale ≤ ucuCount) :=
    (floor_le fits).trans <|
      (Nat.mul_le_mul_right ucuScale.toNat (Nat.div_mul_le_self _ _)).trans (claimed_le counted)
  cases sound with
  | vanishes whole =>
      rw [quotient_of_dvd whole, Nat.zero_mul, Nat.zero_mul]
      exact Nat.zero_le _
  | below small =>
      rw [quotient_of_lt small, Nat.zero_mul, Nat.zero_mul]
      exact Nat.zero_le _
  | one small reached =>
      rw [Nat.mul_comm 2] at small
      have bounded := (quotient_le_residue (2 ^ 128) (2 ^ 64) _ _).trans
        (Nat.lt_succ_iff.mp (Nat.div_lt_of_lt_mul small))
      calc
        _ ≤ 1 * powerSeal.declared * ucuScale.toNat :=
          Nat.mul_le_mul_right _ (Nat.mul_le_mul_right _ bounded)
        _ = powerSeal.declared * ucuScale.toNat := by rw [Nat.one_mul]
        _ ≤ _ := reached
  | counted fits counted => exact whole_le fits counted
  | rounded fits lost =>
      by_cases counted : ucuScale ≤ ucuCount
      · exact whole_le fits counted
      · exact (floor_le fits).trans ((part_floor_le_iff (BitVec.not_le.mp counted)).mpr lost)

/-- When only the declared product wraps, a seal which is not credited with too much is sound. -/
theorem floorSound_of_le (claim_fits : claimed ucuCount benchmark < 2 ^ 128)
    (q_fits : claimed ucuCount benchmark / (powerSeal.declared % 2 ^ 128) < 2 ^ 64)
    (le : quotient (2 ^ 128) (2 ^ 64) (claimed ucuCount benchmark) powerSeal.declared *
      powerSeal.declared * ucuScale.toNat ≤ ucuCount.toNat * benchmark.baseline) :
    FloorSound powerSeal ucuCount benchmark := by
  rw [quotient_eq_residue claim_fits q_fits] at le
  rcases lt_or_ge powerSeal.declared (2 ^ 128) with fits | wraps
  · by_cases counted : ucuScale ≤ ucuCount
    · exact .counted fits counted
    · rw [Nat.mod_eq_of_lt fits] at le
      exact .rounded fits ((part_floor_le_iff (BitVec.not_le.mp counted)).mp le)
  · rcases Nat.eq_zero_or_pos (powerSeal.declared % 2 ^ 128) with zero | divides
    · exact .vanishes (Nat.dvd_of_mod_eq_zero zero)
    -- The exact efficiency is below two, so that the quotient is zero or one.
    have small : claimed ucuCount benchmark / (powerSeal.declared % 2 ^ 128) < 2 := by
      by_contra large
      have doubled := Nat.mul_le_mul_right ucuScale.toNat
        (Nat.mul_le_mul_right powerSeal.declared (Nat.not_lt.mp large))
      have claim_lt := Nat.mul_lt_mul_of_pos_right (claim_fits.trans_le wraps) ucuScale_pos
      have metered := metered_le ucuCount benchmark
      rw [Nat.mul_assoc] at doubled
      omega
    by_cases below : claimed ucuCount benchmark < powerSeal.declared % 2 ^ 128
    · exact .below below
    · have unit : claimed ucuCount benchmark / (powerSeal.declared % 2 ^ 128) = 1 := by
        have reached := (Nat.one_le_div_iff divides).mpr (Nat.not_lt.mp below)
        omega
      rw [unit, Nat.one_mul] at le
      exact .one ((Nat.div_lt_iff_lt_mul divides).mp small) le

/-- A recorded floor is a lower bound of the exact efficiency for every sound declaration, and, when
neither the claim nor the quotient is too wide for its word, for no other. -/
theorem sealed_floor_sound_iff {q : Quant}
    (attested : SealedAttestor.attest powerSeal ucuCount benchmark = some q) :
    (FloorSound powerSeal ucuCount benchmark →
      (q.microQ.toNat : ℚ) ≤ exactMicroQ powerSeal ucuCount benchmark) ∧
    (claimed ucuCount benchmark < 2 ^ 128 →
      claimed ucuCount benchmark / (powerSeal.declared % 2 ^ 128) < 2 ^ 64 →
        ((q.microQ.toNat : ℚ) ≤ exactMicroQ powerSeal ucuCount benchmark ↔
          FloorSound powerSeal ucuCount benchmark)) := by
  obtain ⟨positive, recorded⟩ := attest_eq_some attested
  rw [le_exactMicroQ_iff positive, recorded]
  exact ⟨FloorSound.le, fun claim_fits q_fits =>
    ⟨floorSound_of_le claim_fits q_fits, FloorSound.le⟩⟩

end Floor

section Sample

/-- The benchmark of the conformance vector. -/
def Sample.qBenchmark : Benchmark where
  version := 0
  fuelCostTableHash := Bytes.fill 32 0
  fuelPerUcu := 1
  eBaseline := 137
  tStdMillikelvin := 300000

/-- A seal with evidence, and these declarations. -/
def Sample.declares (power window temperature : BitVec 64) : PowerSeal where
  sealGrade := .s1Witnessed
  boundary := .node
  powerCapMilliwatts := power
  windowMillis := window
  tMaxMillikelvin := temperature
  attestationEvidence := Bytes.fill 32 7
  benchmark := 0

open Sample

theorem sealed_floor_sound_iff_vector :
    SealedAttestor.attest (declares 274 50000 350000) 50000000000000 qBenchmark = some ⟨428571⟩ ∧
      ((428571 : BitVec 64).toNat : ℚ) ≤
        exactMicroQ (declares 274 50000 350000) 50000000000000 qBenchmark := by
  have attested : SealedAttestor.attest (declares 274 50000 350000) 50000000000000 qBenchmark =
      some ⟨428571⟩ := by
    decide +kernel
  have counted : FloorSound (declares 274 50000 350000) 50000000000000 qBenchmark :=
    .counted (by decide +kernel) (by decide +kernel)
  have claim_fits : claimed 50000000000000 qBenchmark < 2 ^ 128 := by decide +kernel
  have q_fits : claimed 50000000000000 qBenchmark /
      ((declares 274 50000 350000).declared % 2 ^ 128) < 2 ^ 64 := by
    decide +kernel
  exact ⟨attested,
    ((sealed_floor_sound_iff attested).2 claim_fits q_fits).mpr counted⟩

/-- A declared product just above the range of its word is credited as if it were small, and no work
at all is credited as a whole unit. -/
theorem sealed_floor_above_exact :
    (SealedAttestor.attest (declares 1125899906842624 67108865 4503599560261633) 50000000000000
        qBenchmark = some ⟨1825⟩ ∧
      ¬((1825 : BitVec 64).toNat : ℚ) ≤
        exactMicroQ (declares 1125899906842624 67108865 4503599560261633) 50000000000000
          qBenchmark) ∧
    (SealedAttestor.attest (declares 137 50000 300000) 0 qBenchmark = some ⟨20⟩ ∧
      ¬((20 : BitVec 64).toNat : ℚ) ≤ exactMicroQ (declares 137 50000 300000) 0 qBenchmark) := by
  have wrapped : SealedAttestor.attest (declares 1125899906842624 67108865 4503599560261633)
      50000000000000 qBenchmark = some ⟨1825⟩ := by
    decide +kernel
  have idle : SealedAttestor.attest (declares 137 50000 300000) 0 qBenchmark = some ⟨20⟩ := by
    decide +kernel
  refine ⟨⟨wrapped, ?_⟩, idle, ?_⟩
  · rw [le_exactMicroQ_iff (attest_eq_some wrapped).1]
    decide +kernel
  · rw [le_exactMicroQ_iff (attest_eq_some idle).1]
    decide +kernel

end Sample

/-! ## Declaring more -/

section Order

variable {powerSeal powerSeal' : PowerSeal} {ucuCount ucuCount' : Ucu} {benchmark : Benchmark}

/-- Two declarations which wrap alike, or the second of which is credited with nothing. -/
inductive FloorOrdered (powerSeal : PowerSeal) (ucuCount : Ucu) (powerSeal' : PowerSeal)
    (ucuCount' : Ucu) (benchmark : Benchmark) : Prop
  | vanishes : 2 ^ 128 ∣ powerSeal'.declared →
      FloorOrdered powerSeal ucuCount powerSeal' ucuCount' benchmark
  | below : claimed ucuCount' benchmark < powerSeal'.declared % 2 ^ 128 →
      FloorOrdered powerSeal ucuCount powerSeal' ucuCount' benchmark
  | alike : Wrapping.Alike (2 ^ 128) (2 ^ 64) (claimed ucuCount benchmark) powerSeal.declared
      (claimed ucuCount' benchmark) powerSeal'.declared →
      FloorOrdered powerSeal ucuCount powerSeal' ucuCount' benchmark

theorem claimed_mono (less : ucuCount' ≤ ucuCount) :
    claimed ucuCount' benchmark ≤ claimed ucuCount benchmark :=
  Nat.mul_le_mul_right _ (max_le_max (Nat.div_le_div_right (BitVec.le_def.mp less)) le_rfl)

theorem PowerSeal.declared_mono
    (power : powerSeal.powerCapMilliwatts ≤ powerSeal'.powerCapMilliwatts)
    (window : powerSeal.windowMillis ≤ powerSeal'.windowMillis)
    (temperature : powerSeal.tMaxMillikelvin ≤ powerSeal'.tMaxMillikelvin) :
    powerSeal.declared ≤ powerSeal'.declared :=
  Nat.mul_le_mul (Nat.mul_le_mul (BitVec.le_def.mp power) (BitVec.le_def.mp window))
    (BitVec.le_def.mp temperature)

/-- Nothing wraps. -/
theorem FloorOrdered.of_fits (positive : 0 < powerSeal.declared)
    (claim_fits : claimed ucuCount benchmark < 2 ^ 128)
    (declared_fits : powerSeal'.declared < 2 ^ 128)
    (q_fits : claimed ucuCount benchmark / powerSeal.declared < 2 ^ 64)
    (less : ucuCount' ≤ ucuCount) (more : powerSeal.declared ≤ powerSeal'.declared) :
    FloorOrdered powerSeal ucuCount powerSeal' ucuCount' benchmark :=
  .alike (Wrapping.Alike.of_fits claim_fits declared_fits positive q_fits (claimed_mono less) more)

theorem FloorOrdered.le (ordered : FloorOrdered powerSeal ucuCount powerSeal' ucuCount' benchmark)
    (less : ucuCount' ≤ ucuCount) (more : powerSeal.declared ≤ powerSeal'.declared) :
    quotient (2 ^ 128) (2 ^ 64) (claimed ucuCount' benchmark) powerSeal'.declared ≤
      quotient (2 ^ 128) (2 ^ 64) (claimed ucuCount benchmark) powerSeal.declared := by
  cases ordered with
  | vanishes whole =>
      rw [quotient_of_dvd whole]
      exact Nat.zero_le _
  | below small =>
      rw [quotient_of_lt small]
      exact Nat.zero_le _
  | alike alike => exact alike.quotient_le (claimed_mono less) more

/-- After a declaration which is credited with nothing, only one which is credited with nothing is
not credited with more. -/
theorem floorOrdered_of_le (less : ucuCount' ≤ ucuCount)
    (small : claimed ucuCount benchmark < powerSeal.declared % 2 ^ 128)
    (q_fits : claimed ucuCount' benchmark / (powerSeal'.declared % 2 ^ 128) < 2 ^ 64)
    (le : quotient (2 ^ 128) (2 ^ 64) (claimed ucuCount' benchmark) powerSeal'.declared ≤
      quotient (2 ^ 128) (2 ^ 64) (claimed ucuCount benchmark) powerSeal.declared) :
    FloorOrdered powerSeal ucuCount powerSeal' ucuCount' benchmark := by
  have wide : powerSeal.declared % 2 ^ 128 < 2 ^ 128 := Nat.mod_lt _ (by positivity)
  have claim_fits := (claimed_mono less).trans_lt (small.trans wide)
  rw [quotient_of_lt small, Nat.le_zero, quotient_eq_residue claim_fits q_fits,
    Nat.div_eq_zero_iff] at le
  rcases le with zero | below
  · exact .vanishes (Nat.dvd_of_mod_eq_zero zero)
  · exact .below below

/-- More energy and temperature declared for no more work raise no recorded floor when the two
declarations wrap alike, and, after one which is credited with nothing, in no other case. -/
theorem sealed_floor_antitone {q q' : Quant}
    (attested : SealedAttestor.attest powerSeal ucuCount benchmark = some q)
    (attested' : SealedAttestor.attest powerSeal' ucuCount' benchmark = some q')
    (power : powerSeal.powerCapMilliwatts ≤ powerSeal'.powerCapMilliwatts)
    (window : powerSeal.windowMillis ≤ powerSeal'.windowMillis)
    (temperature : powerSeal.tMaxMillikelvin ≤ powerSeal'.tMaxMillikelvin)
    (less : ucuCount' ≤ ucuCount) :
    (FloorOrdered powerSeal ucuCount powerSeal' ucuCount' benchmark → q'.microQ ≤ q.microQ) ∧
    (claimed ucuCount benchmark < powerSeal.declared % 2 ^ 128 →
      claimed ucuCount' benchmark / (powerSeal'.declared % 2 ^ 128) < 2 ^ 64 →
        (q'.microQ ≤ q.microQ ↔
          FloorOrdered powerSeal ucuCount powerSeal' ucuCount' benchmark)) := by
  have more := PowerSeal.declared_mono power window temperature
  rw [BitVec.le_def, (attest_eq_some attested).2, (attest_eq_some attested').2]
  exact ⟨fun ordered => ordered.le less more, fun small q_fits =>
    ⟨floorOrdered_of_le less small q_fits, fun ordered => ordered.le less more⟩⟩

end Order

section Sample

open Sample

theorem sealed_floor_antitone_vector :
    SealedAttestor.attest (declares 137 50000 300000) 50000000000000 qBenchmark =
        some ⟨1000000⟩ ∧
      SealedAttestor.attest (declares 274 50000 350000) 50000000000000 qBenchmark =
        some ⟨428571⟩ ∧
      (428571 : BitVec 64) ≤ 1000000 := by
  have attested : SealedAttestor.attest (declares 137 50000 300000) 50000000000000 qBenchmark =
      some ⟨1000000⟩ := by
    decide +kernel
  have attested' : SealedAttestor.attest (declares 274 50000 350000) 50000000000000 qBenchmark =
      some ⟨428571⟩ := by
    decide +kernel
  have ordered : FloorOrdered (declares 137 50000 300000) 50000000000000
      (declares 274 50000 350000) 50000000000000 qBenchmark :=
    .of_fits (by decide +kernel) (by decide +kernel) (by decide +kernel) (by decide +kernel)
      (by decide) (by decide +kernel)
  have antitone := sealed_floor_antitone attested attested' (by decide) (by decide) (by decide)
    (by decide)
  exact ⟨attested, attested', antitone.1 ordered⟩

/-- A quotient which is narrowed is overtaken by one half as large, and a declared product which
wraps overtakes one which does not. -/
theorem sealed_floor_raised :
    (∃ q q', SealedAttestor.attest (declares 1 1 1) 448827000000000 qBenchmark = some q ∧
      SealedAttestor.attest (declares 2 1 1) 448827000000000 qBenchmark = some q' ∧
      ¬q'.microQ ≤ q.microQ) ∧
    (∃ q q',
      SealedAttestor.attest (declares 1125899906842624 67108865 4503599560261632) 50000000000000
        qBenchmark = some q ∧
      SealedAttestor.attest (declares 1125899906842624 67108865 4503599560261633) 50000000000000
        qBenchmark = some q' ∧
      ¬q'.microQ ≤ q.microQ) := by
  exact ⟨⟨sealedQFloor (declares 1 1 1) 448827000000000 qBenchmark,
    sealedQFloor (declares 2 1 1) 448827000000000 qBenchmark, by decide +kernel⟩,
    ⟨⟨0⟩, ⟨1825⟩, by decide +kernel⟩⟩

end Sample

end Ducp
