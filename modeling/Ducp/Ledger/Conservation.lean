import Ducp.Ledger.Events

/-!
# Conservation

The total of the book is what has been minted.  Every posting of an event is balanced, up to what
the event mints, so the equation holds along every run.
-/

namespace Ducp

open DoubleEntry MapSum Std
open Finsupp (single degree)

/-- What the accounts, the fee pool and the burned counter hold is what has been minted. -/
def Conserved (s : State) : Prop := degree s.book = s.supply.minted.toNat

theorem Becomes.conserved {s s' : State} {records : Records} {minted : ℕ}
    {debits credits : Bucket →₀ ℕ} (becomes : Becomes s records minted debits credits s')
    (balanced : degree credits = degree debits + minted) (held : Conserved s) :
    Conserved s' := by
  have posted := becomes.posts.degree
  have minted_eq := becomes.minted
  unfold Conserved at *
  omega

theorem Moves.conserved {s s' : State} {debits credits : Bucket →₀ ℕ}
    (moves : Moves s debits credits s') (balanced : degree credits = degree debits)
    (held : Conserved s) : Conserved s' := by
  have posted := moves.posts.degree
  unfold Conserved at *
  rw [moves.minted]
  omega

theorem Payload.conserved [Crypto] {s s' : State} {author : Identity} {params : Params} {tx : Tx}
    (payload : Payload s author params tx s') (held : Conserved s) : Conserved s' := by
  cases payload with
  | submitTask submits => exact submits.conserved (by simp) held
  | claimTask claims => exact claims.conserved (by simp) held
  | submitProof settles =>
      refine settles.conserved ?_ held
      have within := settles.ucuCount_le
      simp only [map_add, Finsupp.degree_single]
      omega
  | challenge opens => exact opens.conserved (by simp) held
  | transfer moves => exact moves.conserved (by simp) held

/-- Every event conserves. -/
theorem Event.conserved [Crypto] {s s' : State} (held : Conserved s) (event : Event s s') :
    Conserved s' := by
  cases event with
  | nonce _ _ => exact held
  | payload payload => exact payload.conserved held
  | tick _ => exact held
  | release releases => exact releases.conserved (by simp) held
  | @slash _ _ _ _ _ _ penalty _ _ slashes =>
      obtain ⟨moved, penalizes, rfl⟩ := slashes.penalizes
      have conserved : Conserved moved := by
        refine penalizes.conserved ?_ held
        have capped : penalty.reward ≤ penalty.fineAvail := by
          rw [penalizes.reward_eq]
          exact min_le_right _ _
        simp only [map_add, Finsupp.degree_single]
        omega
      exact conserved
  | close _ => exact held
  | unlock moves => exact moves.conserved (by simp) held
  | forfeit moves => exact moves.conserved (by simp) held

theorem Reachable.conserved [Crypto] {s : State} (reachable : Reachable s) : Conserved s :=
  reachable.invariant Conserved (fun genesis => genesis.minted) Event.conserved

/-! ## The conservation check -/

/-- What an account holds. -/
def Account.held (account : Account) : ℕ :=
  account.balance.toNat + account.escrowed.toNat + account.bonded.toNat

theorem degree_book (s : State) :
    degree s.book =
      total (fun _ account => account.held) s.accounts + s.feePool.toNat +
        s.supply.burned.toNat := by
  have owned : degree (total holding s.accounts) =
      total (fun _ account => account.held) s.accounts := by
    rw [map_total]
    simp [holding, Account.held]
  simp only [State.book, map_add, owned, Finsupp.degree_single]

/-- A running total which fits its type is computed exactly. -/
theorem foldlM_addHeld (entries : List (Identity × Account)) (held : Ucu)
    (fits : held.toNat + (entries.map fun entry => entry.2.held).sum < 2 ^ 128) :
    ∃ result, entries.foldlM State.addHeld held = .ok result ∧
      result.toNat = held.toNat + (entries.map fun entry => entry.2.held).sum := by
  induction entries generalizing held with
  | nil => exact ⟨held, rfl, by simp⟩
  | cons entry entries ih =>
      simp only [List.map_cons, List.sum_cons, Account.held] at fits ⊢
      obtain ⟨spendable, spendable_eq, spendable_toNat⟩ :=
        Checked.exists_add (show entry.2.balance.toNat + entry.2.escrowed.toNat < 2 ^ 128 by omega)
      obtain ⟨owned, owned_eq, owned_toNat⟩ :=
        Checked.exists_add (show spendable.toNat + entry.2.bonded.toNat < 2 ^ 128 by omega)
      obtain ⟨next, next_eq, next_toNat⟩ :=
        Checked.exists_add (show held.toNat + owned.toNat < 2 ^ 128 by omega)
      have added : State.addHeld held entry = .ok next := by
        simp only [State.addHeld, Checked.bind_eq_ok]
        exact ⟨spendable, spendable_eq, owned, owned_eq, next_eq⟩
      have remaining : next.toNat + (entries.map fun entry => entry.2.held).sum < 2 ^ 128 := by
        simp only [Account.held]
        omega
      obtain ⟨result, folded, result_toNat⟩ := ih next remaining
      refine ⟨result, ?_, ?_⟩
      · rw [List.foldlM_cons, added]
        exact folded
      · rw [result_toNat, next_toNat, owned_toNat, spendable_toNat]
        simp only [Account.held]
        omega

/-- The conservation check of a conserving state succeeds. -/
theorem Conserved.check {s : State} (held : Conserved s) : s.checkConservation = .ok true := by
  have sum_eq : (s.accounts.toList.map fun entry => entry.2.held).sum =
      total (fun _ account => account.held) s.accounts := rfl
  have conserved : total (fun _ account => account.held) s.accounts + s.feePool.toNat +
      s.supply.burned.toNat = s.supply.minted.toNat := by
    rw [← degree_book]
    exact held
  have minted_lt := s.supply.minted.isLt
  obtain ⟨result, folded, result_eq⟩ :=
    foldlM_addHeld s.accounts.toList s.feePool (by rw [sum_eq]; omega)
  have burned_le : s.supply.burned ≤ s.supply.minted := by
    rw [BitVec.le_def]
    omega
  have circulating : result = s.supply.minted - s.supply.burned := by
    rw [← BitVec.toNat_inj, BitVec.toNat_sub_of_le burned_le, result_eq, sum_eq]
    omega
  simp only [State.checkConservation, Checked.bind_eq_ok, Checked.pure_eq_ok]
  exact ⟨result, folded, by simp [burned_le, circulating]⟩

/-- Over every run from every genesis, what is held is what was minted and not burned. -/
theorem ledger_conserve [Crypto] {s : State} (reachable : Reachable s) :
    total (fun _ account => account.balance.toNat + account.escrowed.toNat + account.bonded.toNat)
        s.accounts + s.feePool.toNat + s.supply.burned.toNat = s.supply.minted.toNat ∧
      s.supply.burned.toNat ≤ s.supply.minted.toNat ∧ s.checkConservation = .ok true := by
  have held := reachable.conserved
  have conserved : total (fun _ account => account.held) s.accounts + s.feePool.toNat +
      s.supply.burned.toNat = s.supply.minted.toNat := by
    rw [← degree_book]
    exact held
  exact ⟨conserved, by omega, held.check⟩

section Sample

open Sample

attribute [local instance] Crypto.checksum

theorem ledger_conserve_slashed : ∃ s, slashed = some s ∧ s.supply.burned ≠ 0 ∧
    total (fun _ account => account.balance.toNat + account.escrowed.toNat + account.bonded.toNat)
        s.accounts + s.feePool.toNat + s.supply.burned.toNat = s.supply.minted.toNat ∧
      s.supply.burned.toNat ≤ s.supply.minted.toNat ∧ s.checkConservation = .ok true := by
  have burned : slashed.any (fun s => s.supply.burned ≠ 0) = true := by decide +kernel
  obtain ⟨s, ran, burned⟩ := (Option.any_eq_true _ _).mp burned
  exact ⟨s, ran, of_decide_eq_true burned, ledger_conserve (reachable_of_outcomeOf ran)⟩

end Sample

end Ducp
