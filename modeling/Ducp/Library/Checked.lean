import Mathlib

/-!
# Checked machine arithmetic

A machine integer of `width` bits is a `BitVec width`.  An operator of a checked build either
yields the exact mathematical result or faults, so that a successful computation can be read as
arithmetic on natural numbers.  `Outcome` adds a recoverable error on top of the faults: it is a
`Result` whose evaluation may still panic.
-/

/-- Why a checked build panics. -/
inductive Fault
  /-- The result of an operator is too large for its type. -/
  | overflow
  /-- A subtraction goes below zero. -/
  | underflow
  /-- A division by zero. -/
  | divideByZero
  /-- An `expect` or an index met a missing value. -/
  | absent
  /-- A serialization reported an error. -/
  | encoding
  /-- The holder of a lock has panicked. -/
  | poisoned
  deriving DecidableEq, Repr

/-- A fault of an arithmetic operator. -/
def Fault.Arithmetic (fault : Fault) : Prop :=
  fault = .overflow ∨ fault = .underflow ∨ fault = .divideByZero

/-- A computation that may panic. -/
abbrev Checked (α : Type) := Except Fault α

/-- A computation that returns, reports an error of type `ε`, or panics. -/
abbrev Outcome (ε α : Type) := ExceptT ε (Except Fault) α

namespace Checked

theorem bind_eq_ok {α β : Type} {action : Checked α} {next : α → Checked β} {result : β} :
    action >>= next = .ok result ↔ ∃ value, action = .ok value ∧ next value = .ok result := by
  cases action with
  | error fault => simp [bind, Except.bind]
  | ok value => simp [bind, Except.bind]

theorem bind_eq_error {α β : Type} {action : Checked α} {next : α → Checked β}
    {fault : Fault} :
    action >>= next = .error fault ↔
      action = .error fault ∨ ∃ value, action = .ok value ∧ next value = .error fault := by
  cases action with
  | error fault => simp [bind, Except.bind]
  | ok value => simp [bind, Except.bind]

theorem pure_eq_ok {α : Type} {value result : α} :
    (pure value : Checked α) = .ok result ↔ value = result := by
  simp [pure, Except.pure]

theorem pure_ne_error {α : Type} {value : α} {fault : Fault} :
    (pure value : Checked α) ≠ .error fault := by
  simp [pure, Except.pure]

theorem map_eq_ok {α β : Type} {action : Checked α} {f : α → β} {result : β} :
    f <$> action = .ok result ↔ ∃ value, action = .ok value ∧ f value = result := by
  cases action <;> simp [Functor.map, Except.map]

theorem toOption_eq_some {α : Type} {action : Checked α} {value : α} :
    Except.toOption action = some value ↔ action = .ok value := by
  cases action <;> simp [Except.toOption]

/-- The panic of `expect`, and of an index, on a missing value. -/
def expect {α : Type} : Option α → Checked α
  | some value => .ok value
  | none => .error .absent

@[simp]
theorem expect_eq_ok {α : Type} {found : Option α} {value : α} :
    expect found = .ok value ↔ found = some value := by
  cases found <;> simp [expect]

@[simp]
theorem expect_eq_error {α : Type} {found : Option α} {fault : Fault} :
    expect found = .error fault ↔ found = none ∧ fault = .absent := by
  cases found <;> simp [expect, eq_comm]

/-! ## Unsigned operators -/

section Unsigned

variable {width : ℕ} {left right result : BitVec width} {fault : Fault}

/-- `left + right`, faulting on overflow. -/
def add (left right : BitVec width) : Checked (BitVec width) :=
  if left.uaddOverflow right then .error .overflow else .ok (left + right)

/-- `left - right`, faulting on underflow. -/
def sub (left right : BitVec width) : Checked (BitVec width) :=
  if left.usubOverflow right then .error .underflow else .ok (left - right)

/-- `left * right`, faulting on overflow. -/
def mul (left right : BitVec width) : Checked (BitVec width) :=
  if left.umulOverflow right then .error .overflow else .ok (left * right)

/-- `left / right`, faulting on a zero divisor. -/
def div (left right : BitVec width) : Checked (BitVec width) :=
  if right = 0 then .error .divideByZero else .ok (left / right)

theorem add_eq_ok : add left right = .ok result ↔ result.toNat = left.toNat + right.toNat := by
  have result_lt := result.isLt
  rw [add]
  split
  · rename_i overflow
    have large : 2 ^ width ≤ left.toNat + right.toNat := by
      simpa [BitVec.uaddOverflow] using overflow
    simp only [reduceCtorEq, false_iff]
    omega
  · rename_i exact_sum
    have small : left.toNat + right.toNat < 2 ^ width := by
      simpa [BitVec.uaddOverflow] using exact_sum
    have sum_toNat : (left + right).toNat = left.toNat + right.toNat := by
      rw [BitVec.toNat_add, Nat.mod_eq_of_lt small]
    rw [Except.ok.injEq, ← BitVec.toNat_inj, sum_toNat, eq_comm]

theorem add_eq_error :
    add left right = .error fault ↔
      fault = .overflow ∧ 2 ^ width ≤ left.toNat + right.toNat := by
  rw [add]
  split <;> simp_all [BitVec.uaddOverflow, eq_comm]

/-- A sum which fits its type is computed. -/
theorem exists_add (fits : left.toNat + right.toNat < 2 ^ width) :
    ∃ result, add left right = .ok result ∧ result.toNat = left.toNat + right.toNat := by
  cases computed : add left right with
  | ok result => exact ⟨result, rfl, add_eq_ok.mp computed⟩
  | error fault => exact absurd (add_eq_error.mp computed).2 (by omega)

theorem sub_eq_ok : sub left right = .ok result ↔ result.toNat + right.toNat = left.toNat := by
  rw [sub]
  split
  · rename_i underflow
    have small : left.toNat < right.toNat := by
      simpa [BitVec.usubOverflow] using underflow
    simp only [reduceCtorEq, false_iff]
    omega
  · rename_i exact_difference
    have enough : right.toNat ≤ left.toNat := by
      simpa [BitVec.usubOverflow] using exact_difference
    have difference_toNat : (left - right).toNat = left.toNat - right.toNat :=
      BitVec.toNat_sub_of_le enough
    rw [Except.ok.injEq, ← BitVec.toNat_inj, difference_toNat]
    omega

theorem sub_eq_error :
    sub left right = .error fault ↔ fault = .underflow ∧ left.toNat < right.toNat := by
  rw [sub]
  split <;> simp_all [BitVec.usubOverflow, eq_comm]

theorem mul_eq_ok : mul left right = .ok result ↔ result.toNat = left.toNat * right.toNat := by
  have result_lt := result.isLt
  rw [mul]
  split
  · rename_i overflow
    have large : 2 ^ width ≤ left.toNat * right.toNat := by
      simpa [BitVec.umulOverflow] using overflow
    simp only [reduceCtorEq, false_iff]
    omega
  · rename_i exact_product
    have small : left.toNat * right.toNat < 2 ^ width := by
      simpa [BitVec.umulOverflow] using exact_product
    have product_toNat : (left * right).toNat = left.toNat * right.toNat := by
      rw [BitVec.toNat_mul, Nat.mod_eq_of_lt small]
    rw [Except.ok.injEq, ← BitVec.toNat_inj, product_toNat, eq_comm]

theorem mul_eq_error :
    mul left right = .error fault ↔
      fault = .overflow ∧ 2 ^ width ≤ left.toNat * right.toNat := by
  rw [mul]
  split <;> simp_all [BitVec.umulOverflow, eq_comm]

/-- A product which fits its type is computed. -/
theorem exists_mul (fits : left.toNat * right.toNat < 2 ^ width) :
    ∃ result, mul left right = .ok result ∧ result.toNat = left.toNat * right.toNat := by
  cases computed : mul left right with
  | ok result => exact ⟨result, rfl, mul_eq_ok.mp computed⟩
  | error fault => exact absurd (mul_eq_error.mp computed).2 (by omega)

theorem div_eq_ok :
    div left right = .ok result ↔
      right ≠ 0 ∧ result.toNat = left.toNat / right.toNat := by
  rw [div]
  by_cases zero : right = 0
  · rw [if_pos zero]
    exact ⟨fun equality => (by cases equality), fun quotient => (quotient.1 zero).elim⟩
  · rw [if_neg zero]
    rw [Except.ok.injEq, ← BitVec.toNat_inj, BitVec.toNat_udiv, eq_comm]
    exact ⟨fun quotient => ⟨zero, quotient⟩, And.right⟩

theorem div_eq_error : div left right = .error fault ↔ fault = .divideByZero ∧ right = 0 := by
  rw [div]
  by_cases zero : right = 0
  · rw [if_pos zero, Except.error.injEq, eq_comm]
    exact ⟨fun cause => ⟨cause, zero⟩, And.left⟩
  · rw [if_neg zero]
    exact ⟨fun equality => (by cases equality), fun quotient => (zero quotient.2).elim⟩

/-- A quotient by a positive divisor is computed. -/
theorem exists_div (left : BitVec width) (positive : 0 < right.toNat) :
    ∃ result, div left right = .ok result ∧ result.toNat = left.toNat / right.toNat := by
  have nonzero : right ≠ 0 := by
    rintro rfl
    simp at positive
  exact ⟨left / right, if_neg nonzero, BitVec.toNat_udiv⟩

/-- The sum when it fits its type: `checked_add`. -/
def add? (left right : BitVec width) : Option (BitVec width) :=
  if left.uaddOverflow right then none else some (left + right)

theorem add?_eq_some :
    add? left right = some result ↔ result.toNat = left.toNat + right.toNat := by
  rw [← add_eq_ok]
  rw [add?, add]
  split <;> simp

/-- The difference, or zero when it would go below: `saturating_sub`. -/
def saturatingSub (left right : BitVec width) : BitVec width :=
  if left < right then 0 else left - right

@[simp]
theorem toNat_saturatingSub : (saturatingSub left right).toNat = left.toNat - right.toNat := by
  rw [saturatingSub]
  split <;> rename_i order <;> rw [BitVec.lt_def] at order
  · rw [BitVec.ofNat_eq_ofNat, BitVec.toNat_ofNat, Nat.zero_mod, Nat.sub_eq_zero_of_le order.le]
  · exact BitVec.toNat_sub_of_le (BitVec.le_def.mpr (Nat.not_lt.mp order))

/-- The smaller of two machine integers. -/
def lesser (left right : BitVec width) : BitVec width :=
  if left ≤ right then left else right

@[simp]
theorem toNat_lesser : (lesser left right).toNat = min left.toNat right.toNat := by
  rw [lesser]
  split <;> rename_i order <;> rw [BitVec.le_def] at order <;> omega

end Unsigned

/-! ## Signed operators -/

section Signed

variable {width : ℕ} {left right result : BitVec width}

/-- Signed `left + right`, faulting on overflow. -/
def sadd (left right : BitVec width) : Checked (BitVec width) :=
  if left.saddOverflow right then .error .overflow else .ok (left + right)

/-- Signed `left - right`, faulting on overflow. -/
def ssub (left right : BitVec width) : Checked (BitVec width) :=
  if left.ssubOverflow right then .error .overflow else .ok (left - right)

/-- Signed `left * right`, faulting on overflow. -/
def smul (left right : BitVec width) : Checked (BitVec width) :=
  if left.smulOverflow right then .error .overflow else .ok (left * right)

/-- Signed truncating `left / right`, faulting on a zero divisor and on `MIN / -1`. -/
def sdiv (left right : BitVec width) : Checked (BitVec width) :=
  if right = 0 then .error .divideByZero
  else if left.sdivOverflow right then .error .overflow
  else .ok (left.sdiv right)

theorem sadd_eq_ok : sadd left right = .ok result ↔ result.toInt = left.toInt + right.toInt := by
  have least := BitVec.le_toInt result
  have greatest := BitVec.toInt_lt (x := result)
  rw [sadd]
  split
  · rename_i overflow
    simp only [BitVec.saddOverflow, Bool.or_eq_true, decide_eq_true_eq] at overflow
    simp only [reduceCtorEq, false_iff]
    omega
  · rename_i exact_sum
    rw [Except.ok.injEq, ← BitVec.toInt_inj, BitVec.toInt_add_of_not_saddOverflow exact_sum,
      eq_comm]

theorem ssub_eq_ok : ssub left right = .ok result ↔ result.toInt = left.toInt - right.toInt := by
  have least := BitVec.le_toInt result
  have greatest := BitVec.toInt_lt (x := result)
  rw [ssub]
  split
  · rename_i overflow
    simp only [BitVec.ssubOverflow, Bool.or_eq_true, decide_eq_true_eq] at overflow
    simp only [reduceCtorEq, false_iff]
    omega
  · rename_i exact_difference
    rw [Except.ok.injEq, ← BitVec.toInt_inj, BitVec.toInt_sub_of_not_ssubOverflow exact_difference,
      eq_comm]

/-- A difference which fits its type is computed. -/
theorem exists_ssub (least : -2 ^ (width - 1) ≤ left.toInt - right.toInt)
    (greatest : left.toInt - right.toInt < 2 ^ (width - 1)) :
    ∃ result, ssub left right = .ok result ∧ result.toInt = left.toInt - right.toInt := by
  have fits : left.ssubOverflow right = false := by
    simp [BitVec.ssubOverflow, least, greatest]
  refine ⟨left - right, ?_, ?_⟩
  · simp [ssub, fits]
  · exact BitVec.toInt_sub_of_not_ssubOverflow (by simp [fits])

theorem smul_eq_ok : smul left right = .ok result ↔ result.toInt = left.toInt * right.toInt := by
  have least := BitVec.le_toInt result
  have greatest := BitVec.toInt_lt (x := result)
  rw [smul]
  split
  · rename_i overflow
    simp only [BitVec.smulOverflow, Bool.or_eq_true, decide_eq_true_eq] at overflow
    simp only [reduceCtorEq, false_iff]
    omega
  · rename_i exact_product
    rw [Except.ok.injEq, ← BitVec.toInt_inj, BitVec.toInt_mul_of_not_smulOverflow exact_product,
      eq_comm]

/-- A product which fits its type is computed. -/
theorem exists_smul (least : -2 ^ (width - 1) ≤ left.toInt * right.toInt)
    (greatest : left.toInt * right.toInt < 2 ^ (width - 1)) :
    ∃ result, smul left right = .ok result ∧ result.toInt = left.toInt * right.toInt := by
  have fits : left.smulOverflow right = false := by
    simp [BitVec.smulOverflow, least, greatest]
  refine ⟨left * right, ?_, ?_⟩
  · simp [smul, fits]
  · exact BitVec.toInt_mul_of_not_smulOverflow (by simp [fits])

/-- A division by a positive number truncates towards zero. -/
theorem exists_sdiv (left : BitVec width) (positive : 0 < right.toInt) :
    ∃ result, sdiv left right = .ok result ∧ result.toInt = left.toInt.tdiv right.toInt := by
  have nonzero : right ≠ 0 := by
    rintro rfl
    simp at positive
  have distinct : right ≠ BitVec.allOnes width := by
    rintro rfl
    rw [BitVec.toInt_allOnes] at positive
    split at positive <;> omega
  have fits : left.sdivOverflow right = false := by
    simp [BitVec.sdivOverflow_eq, distinct]
  refine ⟨left.sdiv right, ?_, ?_⟩
  · rw [sdiv, if_neg nonzero, fits]
    rfl
  · apply BitVec.toInt_sdiv_of_ne_or_ne
    rw [BitVec.neg_one_eq_allOnes]
    exact .inr distinct

end Signed

/-! ## Avoided faults -/

/-- The computation does not panic with this fault. -/
def Avoids {α : Type} (fault : Fault) (action : Checked α) : Prop := action ≠ .error fault

section Avoids

variable {α β : Type} {fault : Fault} {width : ℕ} {left right : BitVec width}

@[simp]
theorem avoids_ok {value : α} : Avoids fault (.ok value) := by
  simp [Avoids]

@[simp]
theorem avoids_error {cause : Fault} : Avoids fault (.error cause : Checked α) ↔ fault ≠ cause := by
  simp [Avoids, eq_comm]

@[simp]
theorem avoids_pure {value : α} : Avoids fault (pure value) := pure_ne_error

@[simp]
theorem avoids_bind {action : Checked α} {next : α → Checked β} :
    Avoids fault (action >>= next) ↔
      Avoids fault action ∧ ∀ value, action = .ok value → Avoids fault (next value) := by
  simp only [Avoids, ne_eq, bind_eq_error]
  push Not
  rfl

@[simp]
theorem avoids_map {action : Checked α} {f : α → β} :
    Avoids fault (f <$> action) ↔ Avoids fault action := by
  cases action <;> simp [Avoids, Functor.map, Except.map]

/-- A fold avoids a fault which each of its steps avoids. -/
theorem avoids_foldlM {action : β → α → Checked β} {values : List α} {start : β}
    (stepwise : ∀ state value, Avoids fault (action state value)) :
    Avoids fault (values.foldlM action start) := by
  induction values generalizing start with
  | nil => exact avoids_pure
  | cons value values ih =>
      rw [List.foldlM_cons, avoids_bind]
      exact ⟨stepwise start value, fun next _ => ih⟩

@[simp]
theorem avoids_expect {found : Option α} : Avoids .absent (expect found) ↔ found ≠ none := by
  simp [Avoids]

@[simp]
theorem avoids_expect_of_ne {found : Option α} (distinct : fault ≠ .absent) :
    Avoids fault (expect found) := fun failed => distinct (expect_eq_error.mp failed).2

@[simp]
theorem avoids_add (distinct : fault ≠ .overflow) : Avoids fault (add left right) :=
  fun failed => distinct (add_eq_error.mp failed).1

@[simp]
theorem avoids_sub (distinct : fault ≠ .underflow) : Avoids fault (sub left right) :=
  fun failed => distinct (sub_eq_error.mp failed).1

@[simp]
theorem avoids_mul (distinct : fault ≠ .overflow) : Avoids fault (mul left right) :=
  fun failed => distinct (mul_eq_error.mp failed).1

@[simp]
theorem avoids_div (distinct : fault ≠ .divideByZero) : Avoids fault (div left right) :=
  fun failed => distinct (div_eq_error.mp failed).1

@[simp]
theorem avoids_sadd (distinct : fault ≠ .overflow) : Avoids fault (sadd left right) := by
  rw [Avoids, sadd]
  split <;> simp [distinct.symm]

@[simp]
theorem avoids_ssub (distinct : fault ≠ .overflow) : Avoids fault (ssub left right) := by
  rw [Avoids, ssub]
  split <;> simp [distinct.symm]

@[simp]
theorem avoids_smul (distinct : fault ≠ .overflow) : Avoids fault (smul left right) := by
  rw [Avoids, smul]
  split <;> simp [distinct.symm]

@[simp]
theorem avoids_sdiv (overflow : fault ≠ .overflow) (zero : fault ≠ .divideByZero) :
    Avoids fault (sdiv left right) := by
  rw [Avoids, sdiv]
  split
  · simp [zero.symm]
  · split <;> simp [overflow.symm]

/-! An operator whose exact result fits its type avoids every fault. -/

theorem avoids_add_of_lt (fits : left.toNat + right.toNat < 2 ^ width) :
    Avoids fault (add left right) :=
  fun failed => fits.not_ge (add_eq_error.mp failed).2

theorem avoids_sub_of_le (enough : right.toNat ≤ left.toNat) : Avoids fault (sub left right) :=
  fun failed => enough.not_gt (sub_eq_error.mp failed).2

theorem avoids_mul_of_lt (fits : left.toNat * right.toNat < 2 ^ width) :
    Avoids fault (mul left right) :=
  fun failed => fits.not_ge (mul_eq_error.mp failed).2

theorem avoids_div_of_ne (nonzero : right ≠ 0) : Avoids fault (div left right) :=
  fun failed => nonzero (div_eq_error.mp failed).2

/-- A computation which avoids every fault has a value. -/
theorem exists_ok_of_avoids {α : Type} {action : Checked α}
    (avoids : ∀ fault, Avoids fault action) : ∃ value, action = .ok value := by
  cases action with
  | ok value => exact ⟨value, rfl⟩
  | error fault => exact absurd rfl (avoids fault)

theorem sadd_zero (left : BitVec width) : sadd left 0 = .ok left := by
  have least := BitVec.le_toInt left
  have greatest := BitVec.toInt_lt (x := left)
  simp [sadd, BitVec.saddOverflow, least, greatest]

theorem avoids_sadd_of_lt (above : -2 ^ (width - 1) ≤ left.toInt + right.toInt)
    (below : left.toInt + right.toInt < 2 ^ (width - 1)) : Avoids fault (sadd left right) := by
  rw [Avoids, sadd]
  have exact_sum : left.saddOverflow right = false := by
    simp [BitVec.saddOverflow, above, below]
  simp [exact_sum]

end Avoids

end Checked

namespace Outcome

variable {ε α β : Type}

/-- The computation returns `value`. -/
def Returns (action : Outcome ε α) (value : α) : Prop := action.run = .ok (.ok value)

/-- The computation reports the error `reason`. -/
def Rejects (action : Outcome ε α) (reason : ε) : Prop := action.run = .ok (.error reason)

/-- The computation panics with `fault`. -/
def Faults (action : Outcome ε α) (fault : Fault) : Prop := action.run = .error fault

/-- Report `reason` when `condition` holds: an `if` whose body is an early `return Err`. -/
def rejectIf (condition : Prop) [Decidable condition] (reason : ε) : Outcome ε PUnit :=
  if condition then throw reason else pure ⟨⟩

/-- `ok_or`: a missing value is reported as `reason`. -/
def okOr (found : Option α) (reason : ε) : Outcome ε α :=
  match found with
  | some value => pure value
  | none => throw reason

/-- The computation does not panic with this fault. -/
def Avoids (fault : Fault) (action : Outcome ε α) : Prop := ¬action.Faults fault

theorem Returns.unique {action : Outcome ε α} {left right : α}
    (left_returned : action.Returns left) (right_returned : action.Returns right) :
    left = right := by
  rw [Returns] at left_returned right_returned
  simpa using left_returned.symm.trans right_returned

theorem Returns.not_rejects {action : Outcome ε α} {value : α} {reason : ε}
    (returned : action.Returns value) : ¬action.Rejects reason := by
  rw [Returns] at returned
  simp [Rejects, returned]

@[simp]
theorem returns_pure {value result : α} :
    (pure value : Outcome ε α).Returns result ↔ value = result := by
  simp [Returns, pure, ExceptT.pure, ExceptT.mk, ExceptT.run, Except.pure]

@[simp]
theorem not_returns_throw {reason : ε} {result : α} :
    ¬(throw reason : Outcome ε α).Returns result := by
  simp [Returns, throw, throwThe, MonadExceptOf.throw, ExceptT.mk, ExceptT.run, pure, Except.pure]

@[simp]
theorem returns_bind {action : Outcome ε α} {next : α → Outcome ε β} {result : β} :
    (action >>= next).Returns result ↔
      ∃ value, action.Returns value ∧ (next value).Returns result := by
  rw [Returns]
  change (action.run >>= ExceptT.bindCont next : Checked (Except ε β)) = _ ↔ _
  rw [Checked.bind_eq_ok]
  constructor
  · rintro ⟨outcome, ran, continued⟩
    cases outcome with
    | error reason => simp [ExceptT.bindCont, pure, Except.pure] at continued
    | ok value => exact ⟨value, ran, continued⟩
  · rintro ⟨value, ran, continued⟩
    exact ⟨.ok value, ran, continued⟩

@[simp]
theorem returns_lift {action : Checked α} {result : α} :
    (liftM action : Outcome ε α).Returns result ↔ action = .ok result := by
  cases action <;>
    simp [Returns, liftM, monadLift, MonadLift.monadLift, ExceptT.lift, ExceptT.mk, ExceptT.run,
      Functor.map, Except.map]

theorem run_lift {action : Checked α} :
    (liftM action : Outcome ε α).run = Except.ok <$> action := rfl

@[simp]
theorem returns_rejectIf {condition : Prop} [Decidable condition] {reason : ε} {result : PUnit} :
    (rejectIf condition reason).Returns result ↔ ¬condition := by
  rw [rejectIf]
  split <;> simp_all

@[simp]
theorem returns_okOr {found : Option α} {reason : ε} {value : α} :
    (okOr found reason).Returns value ↔ found = some value := by
  cases found <;> simp [okOr]

@[simp]
theorem not_rejects_pure {value : α} {reason : ε} : ¬(pure value : Outcome ε α).Rejects reason := by
  simp [Rejects, pure, ExceptT.pure, ExceptT.mk, ExceptT.run, Except.pure]

@[simp]
theorem rejects_throw {cause reason : ε} :
    (throw cause : Outcome ε α).Rejects reason ↔ cause = reason := by
  simp [Rejects, throw, throwThe, MonadExceptOf.throw, ExceptT.mk, ExceptT.run, pure, Except.pure]

@[simp]
theorem rejects_bind {action : Outcome ε α} {next : α → Outcome ε β} {reason : ε} :
    (action >>= next).Rejects reason ↔
      action.Rejects reason ∨ ∃ value, action.Returns value ∧ (next value).Rejects reason := by
  rw [Rejects]
  change (action.run >>= ExceptT.bindCont next : Checked (Except ε β)) = _ ↔ _
  rw [Checked.bind_eq_ok]
  constructor
  · rintro ⟨outcome, ran, continued⟩
    cases outcome with
    | error cause =>
        have same : cause = reason := by
          simpa [ExceptT.bindCont, pure, Except.pure] using continued
        exact .inl (same ▸ ran)
    | ok value => exact .inr ⟨value, ran, continued⟩
  · rintro (rejected | ⟨value, ran, continued⟩)
    · exact ⟨_, rejected, by simp [ExceptT.bindCont, pure, Except.pure]⟩
    · exact ⟨.ok value, ran, continued⟩

@[simp]
theorem not_rejects_lift {action : Checked α} {reason : ε} :
    ¬(liftM action : Outcome ε α).Rejects reason := by
  cases action <;>
    simp [Rejects, liftM, monadLift, MonadLift.monadLift, ExceptT.lift, ExceptT.mk, ExceptT.run,
      Functor.map, Except.map]

@[simp]
theorem rejects_map {action : Outcome ε α} {f : α → β} {reason : ε} :
    (f <$> action).Rejects reason ↔ action.Rejects reason := by
  rw [map_eq_pure_bind, rejects_bind]
  simp

@[simp]
theorem rejects_rejectIf {condition : Prop} [Decidable condition] {cause reason : ε} :
    (rejectIf condition cause).Rejects reason ↔ condition ∧ cause = reason := by
  rw [rejectIf]
  split <;> simp_all

@[simp]
theorem rejects_okOr {found : Option α} {cause reason : ε} :
    (okOr found cause).Rejects reason ↔ found = none ∧ cause = reason := by
  cases found <;> simp [okOr]

@[simp]
theorem not_faults_pure {value : α} {fault : Fault} :
    ¬(pure value : Outcome ε α).Faults fault := by
  simp [Faults, pure, ExceptT.pure, ExceptT.mk, ExceptT.run, Except.pure]

@[simp]
theorem not_faults_throw {reason : ε} {fault : Fault} :
    ¬(throw reason : Outcome ε α).Faults fault := by
  simp [Faults, throw, throwThe, MonadExceptOf.throw, ExceptT.mk, ExceptT.run, pure, Except.pure]

@[simp]
theorem faults_bind {action : Outcome ε α} {next : α → Outcome ε β} {fault : Fault} :
    (action >>= next).Faults fault ↔
      action.Faults fault ∨ ∃ value, action.Returns value ∧ (next value).Faults fault := by
  rw [Faults]
  change (action.run >>= ExceptT.bindCont next : Checked (Except ε β)) = _ ↔ _
  rw [Checked.bind_eq_error]
  constructor
  · rintro (failed | ⟨outcome, ran, continued⟩)
    · exact .inl failed
    · cases outcome with
      | error reason => simp [ExceptT.bindCont, pure, Except.pure] at continued
      | ok value => exact .inr ⟨value, ran, continued⟩
  · rintro (failed | ⟨value, ran, continued⟩)
    · exact .inl failed
    · exact .inr ⟨.ok value, ran, continued⟩

@[simp]
theorem faults_lift {action : Checked α} {fault : Fault} :
    (liftM action : Outcome ε α).Faults fault ↔ action = .error fault := by
  cases action <;>
    simp [Faults, liftM, monadLift, MonadLift.monadLift, ExceptT.lift, ExceptT.mk, ExceptT.run,
      Functor.map, Except.map]

@[simp]
theorem not_faults_rejectIf {condition : Prop} [Decidable condition] {reason : ε}
    {fault : Fault} : ¬(rejectIf condition reason).Faults fault := by
  rw [rejectIf]
  split <;> simp

@[simp]
theorem not_faults_okOr {found : Option α} {reason : ε} {fault : Fault} :
    ¬(okOr found reason).Faults fault := by
  cases found <;> simp [okOr]

/-! ## Avoided faults -/

section Avoids

variable {fault : Fault}

@[simp]
theorem avoids_bind {action : Outcome ε α} {next : α → Outcome ε β} :
    (action >>= next).Avoids fault ↔
      action.Avoids fault ∧ ∀ value, action.Returns value → (next value).Avoids fault := by
  simp only [Avoids, faults_bind]
  push Not
  rfl

@[simp]
theorem avoids_lift {action : Checked α} :
    (liftM action : Outcome ε α).Avoids fault ↔ Checked.Avoids fault action := by
  rw [Avoids, faults_lift, Checked.Avoids]

@[simp]
theorem avoids_pure {value : α} : (pure value : Outcome ε α).Avoids fault := not_faults_pure

@[simp]
theorem avoids_map {action : Outcome ε α} {f : α → β} :
    (f <$> action).Avoids fault ↔ action.Avoids fault := by
  rw [map_eq_pure_bind, avoids_bind]
  simp

@[simp]
theorem avoids_rejectIf {condition : Prop} [Decidable condition] {reason : ε} :
    (rejectIf condition reason).Avoids fault := not_faults_rejectIf

@[simp]
theorem avoids_okOr {found : Option α} {reason : ε} : (okOr found reason).Avoids fault :=
  not_faults_okOr

end Avoids

end Outcome
