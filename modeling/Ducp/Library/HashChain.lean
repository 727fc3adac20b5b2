import Mathlib.Data.List.Basic
import Mathlib.Order.Basic

/-!
# Hash chains

Every block but the first names the digest of the block before it.  Without collisions a block
determines all blocks before it, so that two chains which share a block share everything up to it.
-/

/-- A list of blocks in which each names the digest of the one before, counted from one. -/
structure HashChain {β δ : Type} (digest names : β → δ) (height : β → ℕ) (chain : List β) :
    Prop where
  linked : ∀ {position block next}, chain[position]? = some block →
    chain[position + 1]? = some next → digest block = names next
  counted : ∀ {position block}, chain[position]? = some block → height block = position + 1

namespace HashChain

variable {β δ : Type} {digest names : β → δ} {height : β → ℕ} {chain chain' : List β} {block : β}

/-- A block at a position determines the chain up to it. -/
theorem take_eq (first : HashChain digest names height chain)
    (second : HashChain digest names height chain')
    (collisionFree : ∀ block ∈ chain, ∀ block' ∈ chain', digest block = digest block' →
      block = block') {position : ℕ} (found : chain[position]? = some block)
    (found' : chain'[position]? = some block) :
    chain.take (position + 1) = chain'.take (position + 1) := by
  induction position generalizing block with
  | zero => rw [List.take_add_one, List.take_add_one, found, found', List.take_zero, List.take_zero]
  | succ position ih =>
      have inside : position < chain.length := by
        have := (List.getElem?_eq_some_iff.mp found).1
        omega
      have inside' : position < chain'.length := by
        have := (List.getElem?_eq_some_iff.mp found').1
        omega
      have before := List.getElem?_eq_getElem inside
      have before' := List.getElem?_eq_getElem inside'
      have same : chain[position] = chain'[position] :=
        collisionFree _ (List.getElem_mem inside) _ (List.getElem_mem inside')
          ((first.linked before found).trans (second.linked before' found').symm)
      have shared := ih before (same ▸ before')
      rw [List.take_add_one (i := position + 1), List.take_add_one (i := position + 1), found,
        found', shared]

/-- A chain whose last block occurs in another one is where that one comes from. -/
theorem prefix_of_last (first : HashChain digest names height chain)
    (second : HashChain digest names height chain')
    (collisionFree : ∀ block ∈ chain, ∀ block' ∈ chain', digest block = digest block' →
      block = block') (last : chain.getLast? = some block) (member : block ∈ chain') :
    chain <+: chain' := by
  rw [List.getLast?_eq_getElem?] at last
  obtain ⟨position, found'⟩ := List.mem_iff_getElem?.mp member
  have inside := (List.getElem?_eq_some_iff.mp last).1
  obtain rfl : position = chain.length - 1 := by
    have counted := first.counted last
    have counted' := second.counted found'
    omega
  have shared := first.take_eq second collisionFree last found'
  rw [Nat.sub_add_cancel (by omega), List.take_length] at shared
  rw [shared]
  exact List.take_prefix _ _

end HashChain
