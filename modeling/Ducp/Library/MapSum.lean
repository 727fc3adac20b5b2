import Mathlib

/-!
# Sums over finite ordered maps

`MapSum.total f entries` adds `f key value` over the entries of an extensional ordered map.  All
of its rules follow from one fact: the total only depends on the weight that each key carries, so
two maps which agree off one key differ by the weights of that key.
-/

set_option linter.unusedSectionVars false

open Std

namespace MapSum

section Lookup

variable {κ ν : Type} [Ord κ] [TransOrd κ] [LawfulEqOrd κ] [DecidableEq κ]

theorem getElem?_insert (entries : ExtTreeMap κ ν) (key probe : κ) (value : ν) :
    (entries.insert key value)[probe]? = if probe = key then some value else entries[probe]? := by
  rw [ExtTreeMap.getElem?_insert]
  by_cases same : probe = key
  · simp [same]
  · rw [if_neg same, if_neg]
    rw [LawfulEqCmp.compare_eq_iff_eq]
    exact fun equality => same equality.symm

theorem getElem?_erase (entries : ExtTreeMap κ ν) (key probe : κ) :
    (entries.erase key)[probe]? = if probe = key then none else entries[probe]? := by
  rw [ExtTreeMap.getElem?_erase]
  by_cases same : probe = key
  · simp [same]
  · rw [if_neg same, if_neg]
    rw [LawfulEqCmp.compare_eq_iff_eq]
    exact fun equality => same equality.symm

/-- The later of two insertions at one key wins. -/
theorem insert_insert (entries : ExtTreeMap κ ν) (key : κ) (earlier later : ν) :
    (entries.insert key earlier).insert key later = entries.insert key later := by
  apply ExtTreeMap.ext_getElem?
  intro probe
  rw [getElem?_insert, getElem?_insert, getElem?_insert]
  split <;> rfl

theorem mem_iff_exists (entries : ExtTreeMap κ ν) (key : κ) :
    key ∈ entries ↔ ∃ value, entries[key]? = some value := by
  rw [ExtTreeMap.mem_iff_isSome_getElem?, Option.isSome_iff_exists]

theorem notMem_iff_eq_none (entries : ExtTreeMap κ ν) (key : κ) :
    key ∉ entries ↔ entries[key]? = none := by
  rw [ExtTreeMap.mem_iff_isSome_getElem?, Bool.not_eq_true, Option.isSome_eq_false_iff,
    Option.isNone_iff_eq_none]

theorem mem_insert_set (keys : ExtTreeSet κ) (key probe : κ) :
    probe ∈ keys.insert key ↔ probe = key ∨ probe ∈ keys := by
  rw [ExtTreeSet.mem_insert, LawfulEqCmp.compare_eq_iff_eq, eq_comm]

end Lookup

section Total

variable {κ ν M : Type} [Ord κ] [TransOrd κ] [LawfulEqOrd κ] [DecidableEq κ] [AddCommMonoid M]

/-- The sum of `f key value` over the entries of a map. -/
def total (f : κ → ν → M) (entries : ExtTreeMap κ ν) : M :=
  (entries.toList.map fun entry => f entry.1 entry.2).sum

/-- What one key contributes to a total: nothing when it is absent. -/
def weight (f : κ → ν → M) (entries : ExtTreeMap κ ν) (key : κ) : M :=
  (entries[key]?).elim 0 (f key)

variable {f g : κ → ν → M} {entries : ExtTreeMap κ ν}

@[simp]
theorem weight_insert_self (key : κ) (value : ν) :
    weight f (entries.insert key value) key = f key value := by
  simp [weight]

theorem weight_insert_of_ne {key probe : κ} (value : ν) (distinct : probe ≠ key) :
    weight f (entries.insert key value) probe = weight f entries probe := by
  simp [weight, getElem?_insert, distinct]

@[simp]
theorem weight_erase_self (key : κ) : weight f (entries.erase key) key = 0 := by
  simp [weight]

theorem weight_erase_of_ne {key probe : κ} (distinct : probe ≠ key) :
    weight f (entries.erase key) probe = weight f entries probe := by
  simp [weight, getElem?_erase, distinct]

theorem weight_of_some {key : κ} {value : ν} (found : entries[key]? = some value) :
    weight f entries key = f key value := by
  simp [weight, found]

theorem weight_of_none {key : κ} (missing : entries[key]? = none) :
    weight f entries key = 0 := by
  simp [weight, missing]

/-- A total is a finite sum of weights over any finite set which contains the keys. -/
theorem total_eq_sum (keys : Finset κ) (covers : ∀ key ∈ entries, key ∈ keys) :
    total f entries = ∑ key ∈ keys, weight f entries key := by
  have nodup : (entries.toList.map Prod.fst).Nodup := by
    rw [ExtTreeMap.map_fst_toList_eq_keys]
    exact ExtTreeMap.nodup_keys
  have by_keys : total f entries =
      ((entries.toList.map Prod.fst).map (weight f entries)).sum := by
    rw [total]
    rw [List.map_map]
    congr 1
    apply List.map_congr_left
    intro entry member
    have found : entries[entry.1]? = some entry.2 :=
      ExtTreeMap.mem_toList_iff_getElem?_eq_some.mp member
    simp [weight, found]
  rw [by_keys, ← List.sum_toFinset _ nodup]
  apply Finset.sum_subset
  · intro key member
    rw [List.mem_toFinset, ExtTreeMap.map_fst_toList_eq_keys, ExtTreeMap.mem_keys] at member
    exact covers key member
  · intro key _ absent
    rw [List.mem_toFinset, ExtTreeMap.map_fst_toList_eq_keys, ExtTreeMap.mem_keys,
      notMem_iff_eq_none] at absent
    exact weight_of_none absent

/-- Two maps whose weights agree off `key` have totals which differ by the weights of `key`. -/
theorem total_off {ν' : Type} (f : κ → ν → M) (entries : ExtTreeMap κ ν) (f' : κ → ν' → M)
    (entries' : ExtTreeMap κ ν') (key : κ)
    (agree : ∀ probe, probe ≠ key → weight f entries probe = weight f' entries' probe) :
    total f entries + weight f' entries' key = total f' entries' + weight f entries key := by
  let keys : Finset κ := insert key (entries.keys.toFinset ∪ entries'.keys.toFinset)
  have covers : ∀ probe ∈ entries, probe ∈ keys := by
    intro probe member
    simp [keys, member]
  have covers' : ∀ probe ∈ entries', probe ∈ keys := by
    intro probe member
    simp [keys, member]
  have key_mem : key ∈ keys := Finset.mem_insert_self _ _
  rw [total_eq_sum keys covers, total_eq_sum keys covers', ← Finset.add_sum_erase keys _ key_mem,
    ← Finset.add_sum_erase keys (weight f' entries') key_mem]
  have rest : ∑ probe ∈ keys.erase key, weight f entries probe =
      ∑ probe ∈ keys.erase key, weight f' entries' probe :=
    Finset.sum_congr rfl fun probe member => agree probe (Finset.ne_of_mem_erase member)
  rw [rest, add_right_comm, add_comm (weight f entries key), add_right_comm]

/-- Totals only depend on the weights of the keys. -/
theorem total_congr {ν' : Type} {f' : κ → ν' → M} {entries' : ExtTreeMap κ ν'}
    (agree : ∀ probe, weight f entries probe = weight f' entries' probe) :
    total f entries = total f' entries' := by
  let keys : Finset κ := entries.keys.toFinset ∪ entries'.keys.toFinset
  rw [total_eq_sum keys fun probe member => by simp [keys, member],
    total_eq_sum keys fun probe member => by simp [keys, member]]
  exact Finset.sum_congr rfl fun probe _ => agree probe

/-- Totals of one map agree when the summands agree on its entries. -/
theorem total_congr_on
    (agree : ∀ key value, entries[key]? = some value → f key value = g key value) :
    total f entries = total g entries := by
  apply total_congr
  intro probe
  cases found : entries[probe]? with
  | none => rw [weight_of_none found, weight_of_none found]
  | some value => rw [weight_of_some found, weight_of_some found, agree probe value found]

theorem total_insert (f : κ → ν → M) (entries : ExtTreeMap κ ν) (key : κ) (value : ν) :
    total f (entries.insert key value) + weight f entries key =
      total f entries + f key value := by
  have moved := total_off f (entries.insert key value) f entries key
    fun probe distinct => weight_insert_of_ne value distinct
  rwa [weight_insert_self] at moved

theorem total_erase (f : κ → ν → M) (entries : ExtTreeMap κ ν) (key : κ) :
    total f (entries.erase key) + weight f entries key = total f entries := by
  have moved := total_off f (entries.erase key) f entries key
    fun probe distinct => weight_erase_of_ne distinct
  rwa [weight_erase_self, add_zero] at moved

theorem total_add (f g : κ → ν → M) (entries : ExtTreeMap κ ν) :
    total (fun key value => f key value + g key value) entries =
      total f entries + total g entries := by
  rw [total]
  exact List.sum_map_add

theorem total_eq_zero (vanish : ∀ key value, entries[key]? = some value → f key value = 0) :
    total f entries = 0 := by
  rw [total]
  apply List.sum_eq_zero
  intro summand member
  obtain ⟨entry, entry_mem, rfl⟩ := List.mem_map.mp member
  exact vanish _ _ (ExtTreeMap.mem_toList_iff_getElem?_eq_some.mp entry_mem)

@[simp]
theorem total_empty : total f (∅ : ExtTreeMap κ ν) = 0 :=
  total_eq_zero fun key value found => by simp at found

/-- An additive map commutes with totals. -/
theorem map_total {N : Type} [AddCommMonoid N] (φ : M →+ N) :
    φ (total f entries) = total (fun key value => φ (f key value)) entries := by
  rw [total]
  rw [map_list_sum, List.map_map]
  rfl

end Total

section Bounds

variable {κ ν : Type} [Ord κ] [TransOrd κ] [LawfulEqOrd κ] [DecidableEq κ]
  {f : κ → ν → ℕ} {entries : ExtTreeMap κ ν}

/-- One entry contributes at most the whole total. -/
theorem le_total {key : κ} {value : ν} (found : entries[key]? = some value) :
    f key value ≤ total f entries := by
  have removed := total_erase f entries key
  rw [weight_of_some found] at removed
  omega

end Bounds

end MapSum
