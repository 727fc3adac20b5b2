import Ducp.Library.Run

/-!
# Fading quantities

A quantity fades when it loses at least one part in `parts`.  A positive one then falls strictly,
and `parts` losses halve it, however it is rounded and whatever else lowers it in between.
-/

/-- The quantity loses at least one part in `parts`. -/
def Fades (parts before after : ℕ) : Prop := parts * after + before ≤ parts * before

theorem Fades.lt {parts before after : ℕ} (fades : Fades parts before after)
    (positive : 0 < before) : after < before := by
  have scaled : parts * after < parts * before := by
    rw [Fades] at fades
    omega
  exact lt_of_mul_lt_mul_left scaled (Nat.zero_le parts)

/-- Rounding down what is kept of a quantity, where some part is not kept, fades it. -/
theorem Fades.of_floor {parts before rate : ℕ} (rated : 0 < rate) (bounded : rate ≤ parts) :
    Fades parts before (before * (parts - rate) / parts) := by
  have floor := Nat.div_mul_le_self (before * (parts - rate)) parts
  have kept : before * (parts - rate) + before * rate = before * parts := by
    rw [← Nat.mul_add, Nat.sub_add_cancel bounded]
  have lost : before ≤ before * rate := Nat.le_mul_of_pos_right before rated
  rw [Fades]
  rw [Nat.mul_comm parts, Nat.mul_comm parts]
  omega

/-- What is left after losing one part as many times as there are parts is at most a half. -/
theorem two_mul_pow_le (rest : ℕ) : 2 * rest ^ (rest + 1) ≤ (rest + 1) ^ (rest + 1) := by
  have bernoulli : rest ^ (rest + 1) + (rest + 1) * rest ^ rest ≤ (rest + 1) ^ (rest + 1) := by
    simpa using pow_add_mul_le_add_pow (Nat.zero_le rest) (Nat.zero_le (2 * rest + 1)) (rest + 1)
  calc
    2 * rest ^ (rest + 1) = rest ^ (rest + 1) + rest * rest ^ rest := by ring
    _ ≤ rest ^ (rest + 1) + (rest + 1) * rest ^ rest :=
      Nat.add_le_add_left (Nat.mul_le_mul_right _ (Nat.le_succ rest)) _
    _ ≤ (rest + 1) ^ (rest + 1) := bernoulli

/-- What is left after many losses is halved once for every round of them. -/
theorem pow_mul_two_pow_le {rest rounds times : ℕ} (enough : (rest + 1) * rounds ≤ times) :
    rest ^ times * 2 ^ rounds ≤ (rest + 1) ^ times := by
  obtain ⟨later, rfl⟩ := Nat.exists_eq_add_of_le enough
  calc
    rest ^ ((rest + 1) * rounds + later) * 2 ^ rounds =
        (2 * rest ^ (rest + 1)) ^ rounds * rest ^ later := by
      rw [pow_add, pow_mul, mul_pow]
      ring
    _ ≤ ((rest + 1) ^ (rest + 1)) ^ rounds * (rest + 1) ^ later :=
      Nat.mul_le_mul (Nat.pow_le_pow_left (two_mul_pow_le rest) _)
        (Nat.pow_le_pow_left (Nat.le_succ rest) _)
    _ = (rest + 1) ^ ((rest + 1) * rounds + later) := by
      rw [← pow_mul, ← pow_add]

section Runs

variable {σ ι : Type} {step : σ → ι → σ → Prop} {start final : σ} {labels : List ι}
  {measure : σ → ℕ} {ticks : ι → Bool} {rest : ℕ}

/-- Along a run which never raises a quantity, every tick takes one part off it. -/
theorem Run.fades (keeps : ∀ before label after, step before label after →
      measure after ≤ measure before)
    (fades : ∀ before label after, step before label after → ticks label = true →
      Fades (rest + 1) (measure before) (measure after))
    (run : Run step start labels final) :
    (rest + 1) ^ labels.countP ticks * measure final ≤
      rest ^ labels.countP ticks * measure start := by
  induction run with
  | nil => simp
  | @snoc labels label middle final _ taken ih =>
      rw [List.countP_append, List.countP_singleton]
      by_cases ticked : ticks label = true
      · have faded : (rest + 1) * measure final ≤ rest * measure middle := by
          have loses := fades _ _ _ taken ticked
          rw [Fades] at loses
          rw [Nat.add_mul rest 1 (measure middle)] at loses
          omega
        rw [if_pos ticked, pow_succ, pow_succ]
        calc
          (rest + 1) ^ labels.countP ticks * (rest + 1) * measure final =
              (rest + 1) ^ labels.countP ticks * ((rest + 1) * measure final) := by ring
          _ ≤ (rest + 1) ^ labels.countP ticks * (rest * measure middle) :=
            Nat.mul_le_mul_left _ faded
          _ = rest * ((rest + 1) ^ labels.countP ticks * measure middle) := by ring
          _ ≤ rest * (rest ^ labels.countP ticks * measure start) := Nat.mul_le_mul_left _ ih
          _ = rest ^ labels.countP ticks * rest * measure start := by ring
      · rw [if_neg ticked, Nat.add_zero]
        exact (Nat.mul_le_mul_left _ (keeps _ _ _ taken)).trans ih

/-- A run which never raises a quantity halves it at least once for every round of ticks. -/
theorem Run.halves {rounds : ℕ} (keeps : ∀ before label after, step before label after →
      measure after ≤ measure before)
    (fades : ∀ before label after, step before label after → ticks label = true →
      Fades (rest + 1) (measure before) (measure after))
    (run : Run step start labels final) (enough : (rest + 1) * rounds ≤ labels.countP ticks) :
    measure final * 2 ^ rounds ≤ measure start := by
  have faded := run.fades keeps fades
  have halved := pow_mul_two_pow_le enough
  have positive : 0 < (rest + 1) ^ labels.countP ticks := Nat.pow_pos (Nat.succ_pos rest)
  refine le_of_mul_le_mul_left ?_ positive
  calc
    (rest + 1) ^ labels.countP ticks * (measure final * 2 ^ rounds) =
        (rest + 1) ^ labels.countP ticks * measure final * 2 ^ rounds := by ring
    _ ≤ rest ^ labels.countP ticks * measure start * 2 ^ rounds := Nat.mul_le_mul_right _ faded
    _ = rest ^ labels.countP ticks * 2 ^ rounds * measure start := by ring
    _ ≤ (rest + 1) ^ labels.countP ticks * measure start := Nat.mul_le_mul_right _ halved

end Runs
