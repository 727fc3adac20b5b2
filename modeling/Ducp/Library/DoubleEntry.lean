import Mathlib

/-!
# Double-entry bookkeeping

A book gives every bucket a natural amount.  A posting takes debits out and puts credits in; it is
stated as one equation, so that it is never truncated, an overdraft cannot be posted, and
postings compose whatever the aliasing between their buckets.
-/

namespace DoubleEntry

open Finsupp

variable {β : Type} {before middle after debits debits' credits credits' : β →₀ ℕ}

/-- The book `after` is the book `before` less the debits plus the credits. -/
def Posts (before debits credits after : β →₀ ℕ) : Prop :=
  after + debits = before + credits

theorem Posts.refl (book : β →₀ ℕ) : Posts book 0 0 book := rfl

/-- Successive postings add up. -/
theorem Posts.trans (first : Posts before debits credits middle)
    (second : Posts middle debits' credits' after) :
    Posts before (debits + debits') (credits + credits') after := by
  unfold Posts at *
  calc
    after + (debits + debits') = (after + debits') + debits := by abel
    _ = (middle + debits) + credits' := by rw [second]; abel
    _ = before + (credits + credits') := by rw [first]; abel

/-- A posting bucket by bucket. -/
theorem Posts.apply (posted : Posts before debits credits after) (bucket : β) :
    after bucket + debits bucket = before bucket + credits bucket := by
  simpa using DFunLike.congr_fun posted bucket

/-- The total of a book changes by what is credited and not debited. -/
theorem Posts.degree (posted : Posts before debits credits after) :
    Finsupp.degree after + Finsupp.degree debits =
      Finsupp.degree before + Finsupp.degree credits := by
  rw [← map_add, ← map_add, posted]

/-- A posting which gives a gauge at least what it takes from it does not lower the gauge. -/
theorem Posts.gauge_le (posted : Posts before debits credits after) (gauge : (β →₀ ℕ) →+ ℕ)
    (net : gauge debits ≤ gauge credits) : gauge before ≤ gauge after := by
  have moved := congrArg gauge posted
  simp only [map_add] at moved
  omega

/-! ## Books side by side -/

section Gauges

variable {ι : Type} (gauge : ι → (β →₀ ℕ) →+ ℕ) {before' after' : β →₀ ℕ}

/-- Two books read the same on every gauge. -/
def ReadAlike (left right : β →₀ ℕ) : Prop := ∀ probe, gauge probe left = gauge probe right

variable {gauge}

theorem ReadAlike.trans {left middle right : β →₀ ℕ} (first : ReadAlike gauge left middle)
    (second : ReadAlike gauge middle right) : ReadAlike gauge left right :=
  fun probe => (first probe).trans (second probe)

theorem ReadAlike.symm {left right : β →₀ ℕ} (alike : ReadAlike gauge left right) :
    ReadAlike gauge right left := fun probe => (alike probe).symm

/-- Postings whose net effects read the same keep two books alike. -/
theorem ReadAlike.posts (alike : ReadAlike gauge before before')
    (posted : Posts before debits credits after) (posted' : Posts before' debits' credits' after')
    (net : ReadAlike gauge (credits + debits') (credits' + debits)) :
    ReadAlike gauge after after' := by
  intro probe
  have left := congrArg (gauge probe) posted
  have right := congrArg (gauge probe) posted'
  have netted := net probe
  have start := alike probe
  simp only [map_add] at left right netted
  omega

/-- A posting which no gauge notices. -/
theorem ReadAlike.of_posts (posted : Posts before debits credits after)
    (net : ReadAlike gauge credits debits) : ReadAlike gauge after before := by
  intro probe
  have moved := congrArg (gauge probe) posted
  have netted := net probe
  simp only [map_add] at moved
  omega

end Gauges

end DoubleEntry
