import Ducp.Dvm

/-!
# Metering

A count is the floor of a fuel quantity, and a ceiling is the floor of a count.  The ceiling of a
count is therefore at most the fuel it was metered from, and one base unit more is enough.
-/

namespace Ducp

open Checked

/-! ## Two floors -/

section Floors

variable {fuel scale rate : ℕ}

theorem ceiling_le_fuel : fuel * scale / rate * rate / scale ≤ fuel := by
  have spent : fuel * scale / rate * rate ≤ fuel * scale := Nat.div_mul_le_self ..
  exact Nat.div_le_of_le_mul (by rwa [Nat.mul_comm scale])

/-- The fuel comes back exactly when the count had no remainder. -/
theorem fuel_le_ceiling_iff (scale_pos : 0 < scale) :
    fuel ≤ fuel * scale / rate * rate / scale ↔ rate ∣ fuel * scale := by
  rw [Nat.le_div_iff_mul_le scale_pos]
  constructor
  · intro kept
    have same := (Nat.div_mul_le_self (fuel * scale) rate).antisymm kept
    exact ⟨_, same.symm.trans (Nat.mul_comm ..)⟩
  · exact fun divides => (Nat.div_mul_cancel divides).ge

theorem fuel_le_next_ceiling (scale_pos : 0 < scale) (rate_pos : 0 < rate) :
    fuel ≤ (fuel * scale / rate + 1) * rate / scale := by
  rw [Nat.le_div_iff_mul_le scale_pos, Nat.mul_comm _ rate]
  exact (Nat.lt_mul_div_succ _ rate_pos).le

end Floors

/-! ## Counts and ceilings -/

namespace Benchmark

variable {benchmark : Benchmark} {fuel : BitVec 64} {maxUcu : Ucu}

@[simp]
theorem toNat_fuelPerUcu :
    (benchmark.fuelPerUcu.setWidth 128).toNat = benchmark.fuelPerUcu.toNat :=
  BitVec.toNat_setWidth_of_le (by decide)

/-- Every fuel quantity has a count. -/
theorem exists_fuelToUcu (calibrated : 0 < benchmark.fuelPerUcu.toNat) (fuel : BitVec 64) :
    ∃ ucu, benchmark.fuelToUcu fuel = .ok ucu ∧
      ucu.toNat = fuel.toNat * 1000000000 / benchmark.fuelPerUcu.toNat := by
  have fuel_eq : (fuel.setWidth 128).toNat = fuel.toNat := BitVec.toNat_setWidth_of_le (by decide)
  have fuel_lt := fuel.isLt
  obtain ⟨scaled, multiplied, scaled_eq⟩ :=
    exists_mul (show (fuel.setWidth 128).toNat * ucuScale.toNat < 2 ^ 128 by
      rw [fuel_eq, show ucuScale.toNat = 1000000000 from rfl]
      omega)
  obtain ⟨ucu, divided, ucu_eq⟩ :=
    exists_div scaled (calibrated.trans_eq toNat_fuelPerUcu.symm)
  rw [scaled_eq, fuel_eq, toNat_fuelPerUcu] at ucu_eq
  exact ⟨ucu, bind_eq_ok.mpr ⟨scaled, multiplied, divided⟩, ucu_eq⟩

/-- A count whose product fits its type has a ceiling, which saturates. -/
theorem exists_ucuToFuelCeiling
    (fits : maxUcu.toNat * benchmark.fuelPerUcu.toNat < 2 ^ 128) :
    ∃ ceiling, benchmark.ucuToFuelCeiling maxUcu = .ok ceiling ∧ ceiling.toNat =
      min (maxUcu.toNat * benchmark.fuelPerUcu.toNat / 1000000000) (2 ^ 64 - 1) := by
  obtain ⟨scaled, multiplied, scaled_eq⟩ :=
    exists_mul (show maxUcu.toNat * (benchmark.fuelPerUcu.setWidth 128).toNat < 2 ^ 128 by
      rwa [toNat_fuelPerUcu])
  obtain ⟨fuel, divided, fuel_eq⟩ :=
    exists_div scaled (show 0 < ucuScale.toNat by decide)
  refine ⟨_, bind_eq_ok.mpr ⟨scaled, multiplied, bind_eq_ok.mpr ⟨fuel, divided, rfl⟩⟩, ?_⟩
  rw [toNat_fuelPerUcu] at scaled_eq
  rw [BitVec.toNat_setWidth, toNat_lesser, fuel_eq, scaled_eq,
    show ucuScale.toNat = 1000000000 from rfl,
    show ((BitVec.allOnes 64).setWidth 128).toNat = 2 ^ 64 - 1 by decide]
  omega

/-- The ceiling of a count is at most the fuel the count was metered from, and is as much exactly
when the count is exact. -/
theorem exists_ceiling_of_count (calibrated : 0 < benchmark.fuelPerUcu.toNat) {ucu : Ucu}
    (counted : benchmark.fuelToUcu fuel = .ok ucu) :
    ∃ ceiling, benchmark.ucuToFuelCeiling ucu = .ok ceiling ∧ ceiling ≤ fuel ∧
      (fuel ≤ ceiling ↔ benchmark.fuelPerUcu.toNat ∣ fuel.toNat * 1000000000) := by
  obtain ⟨_, counted', ucu_eq⟩ := exists_fuelToUcu calibrated fuel
  obtain rfl := Except.ok.inj (counted.symm.trans counted')
  have fuel_lt := fuel.isLt
  have spent : fuel.toNat * 1000000000 / benchmark.fuelPerUcu.toNat *
      benchmark.fuelPerUcu.toNat ≤ fuel.toNat * 1000000000 := Nat.div_mul_le_self ..
  have below : fuel.toNat * 1000000000 / benchmark.fuelPerUcu.toNat *
      benchmark.fuelPerUcu.toNat / 1000000000 ≤ fuel.toNat := ceiling_le_fuel
  obtain ⟨ceiling, limited, ceiling_eq⟩ := exists_ucuToFuelCeiling
    (show ucu.toNat * benchmark.fuelPerUcu.toNat < 2 ^ 128 by rw [ucu_eq]; omega)
  -- the ceiling does not saturate, as it is at most the fuel
  rw [ucu_eq, Nat.min_eq_left (by omega)] at ceiling_eq
  refine ⟨ceiling, limited, BitVec.le_def.mpr (ceiling_eq.trans_le below), ?_⟩
  rw [BitVec.le_def, ceiling_eq]
  exact fuel_le_ceiling_iff (by decide)

/-- One base unit above a count has a ceiling which covers the fuel. -/
theorem exists_ceiling_above_count (calibrated : 0 < benchmark.fuelPerUcu.toNat) {ucu : Ucu}
    (counted : benchmark.fuelToUcu fuel = .ok ucu) :
    ∃ above ceiling, Checked.add ucu 1 = .ok above ∧
      benchmark.ucuToFuelCeiling above = .ok ceiling ∧ fuel ≤ ceiling := by
  obtain ⟨_, counted', ucu_eq⟩ := exists_fuelToUcu calibrated fuel
  obtain rfl := Except.ok.inj (counted.symm.trans counted')
  have fuel_lt := fuel.isLt
  have rate_lt := benchmark.fuelPerUcu.isLt
  have spent : fuel.toNat * 1000000000 / benchmark.fuelPerUcu.toNat *
      benchmark.fuelPerUcu.toNat ≤ fuel.toNat * 1000000000 := Nat.div_mul_le_self ..
  have count_le : fuel.toNat * 1000000000 / benchmark.fuelPerUcu.toNat ≤
      fuel.toNat * 1000000000 := Nat.div_le_self ..
  obtain ⟨above, added, above_eq⟩ := exists_add
    (show ucu.toNat + (1 : Ucu).toNat < 2 ^ 128 by
      rw [ucu_eq, show (1 : Ucu).toNat = 1 from rfl]
      omega)
  rw [ucu_eq, show (1 : Ucu).toNat = 1 from rfl] at above_eq
  obtain ⟨ceiling, limited, ceiling_eq⟩ := exists_ucuToFuelCeiling
    (show above.toNat * benchmark.fuelPerUcu.toNat < 2 ^ 128 by
      rw [above_eq, Nat.add_mul]
      omega)
  have covered : fuel.toNat ≤ (fuel.toNat * 1000000000 / benchmark.fuelPerUcu.toNat + 1) *
      benchmark.fuelPerUcu.toNat / 1000000000 := fuel_le_next_ceiling (by decide) calibrated
  refine ⟨above, ceiling, added, limited, ?_⟩
  rw [BitVec.le_def, ceiling_eq, above_eq]
  exact le_min covered (Nat.le_sub_one_of_lt fuel_lt)

end Benchmark

/-! ## Runs which complete -/

namespace WasmtimeDvm

variable [Runtime] {moduleBytes input output : List UInt8}
  {maxMemoryBytes fuel ceiling : BitVec 64} {benchmark : Benchmark}

/-- A guest completes under every ceiling which covers the fuel it needs. -/
def Completes (moduleBytes input output : List UInt8) (maxMemoryBytes fuel : BitVec 64) : Prop :=
  ∀ ceiling, fuel ≤ ceiling →
    Runtime.report moduleBytes input ceiling maxMemoryBytes =
      .returned output (some (ceiling - fuel))

theorem Completes.run_eq (completes : Completes moduleBytes input output maxMemoryBytes fuel)
    (enough : fuel ≤ ceiling) :
    run moduleBytes input ceiling maxMemoryBytes = .ok (.ok, output, fuel) := by
  have left_eq : (ceiling - fuel).toNat = ceiling.toNat - fuel.toNat :=
    BitVec.toNat_sub_of_le enough
  have left_le : ¬ceiling < ceiling - fuel := by
    rw [BitVec.lt_def, left_eq]
    omega
  have spent : ceiling - (ceiling - fuel) = fuel := by
    rw [BitVec.le_def] at enough
    rw [← BitVec.toNat_inj, BitVec.toNat_sub_of_le (BitVec.not_lt.mp left_le), left_eq]
    omega
  simp only [run, completes ceiling enough, consumed, Option.getD_some, left_le, if_false, spent]

/-- Metering counts the fuel which a completing guest needs. -/
theorem Completes.meter_eq (completes : Completes moduleBytes input output defaultMaxMem fuel)
    (metered : fuel ≤ meterFuelCeiling) :
    meter moduleBytes input benchmark = benchmark.fuelToUcu fuel := by
  simp only [meter, completes.run_eq metered, bind, Except.bind]

/-- An execution whose ceiling covers the fuel completes. -/
theorem Completes.execute_ok [Crypto]
    (completes : Completes moduleBytes input output maxMemoryBytes fuel) {maxUcu ucu : Ucu}
    (counted : benchmark.fuelToUcu fuel = .ok ucu)
    (limited : benchmark.ucuToFuelCeiling maxUcu = .ok ceiling) (enough : fuel ≤ ceiling) :
    ∃ outcome, execute moduleBytes input { maxUcu, maxMemoryBytes } benchmark = .ok outcome ∧
      outcome.status = .ok ∧ outcome.ucuCount = ucu := by
  refine ⟨_, bind_eq_ok.mpr ⟨ceiling, limited, bind_eq_ok.mpr
    ⟨_, completes.run_eq enough, bind_eq_ok.mpr ⟨ucu, counted, rfl⟩⟩⟩, rfl, rfl⟩

end WasmtimeDvm

end Ducp
