import Ducp.Consensus.Nonces
import Ducp.Ledger.Fading
import Ducp.Ledger.Fraud
import Ducp.Ledger.Penalties

/-!
# What others can do to an identity

An operation which an identity has not signed, and which convicts none of its tasks, leaves the
identity its nonce and its Standing, and takes nothing from its balance.  Its bonds stay its own,
unless a challenge of its own is dismissed.
-/

namespace Ducp

open DoubleEntry MapSum Outcome Std
open Finsupp (single single_apply applyAddHom)

/-- Nobody who is convicted, and no author, is the identity. -/
def Op.ByOthers (s : State) (id : Identity) : Op → Prop
  | .apply stx _ => stx.author ≠ id
  | .advanceEpoch _ => True
  | .resolveFraud task _ _ => s.offender task ≠ some id
  | .resolveChallenge task fraud _ => fraud = true → s.offender task ≠ some id

/-- The operation dismisses a challenge of the identity. -/
def Op.Dismisses (s : State) (id : Identity) : Op → Prop
  | .resolveChallenge task fraud _ => fraud = false ∧ id ∈ s.challengers task
  | _ => False

/-- The balance and the wealth of an identity are not lowered. -/
structure Enriches (s : State) (id : Identity) (s' : State) : Prop where
  balance : (s.acct id).balance.toNat ≤ (s'.acct id).balance.toNat
  wealth : s.wealth id ≤ s'.wealth id

/-- What an operation of others leaves an identity. -/
structure Respects (op : Op) (s : State) (id : Identity) (s' : State) : Prop where
  nonce : s'.nonces[id]? = s.nonces[id]?
  balance : (s.acct id).balance.toNat ≤ (s'.acct id).balance.toNat
  wealth : ¬op.Dismisses s id → s.wealth id ≤ s'.wealth id
  standing : op.ticks = false → s'.standing[id]? = s.standing[id]?

section Bystanders

variable {s s' moved : State} {id : Identity}

theorem Enriches.refl (s : State) (id : Identity) : Enriches s id s := ⟨le_rfl, le_rfl⟩

theorem Enriches.trans (first : Enriches s id moved) (second : Enriches moved id s') :
    Enriches s id s' :=
  ⟨first.balance.trans second.balance, first.wealth.trans second.wealth⟩

theorem Unharmed.enriches (unharmed : Unharmed s id s') : Enriches s id s' := by
  have balance := BitVec.le_def.mp unharmed.balance
  have bonded := BitVec.le_def.mp unharmed.bonded
  exact ⟨balance, Nat.add_le_add balance bonded⟩

/-- A posting enriches an identity when it debits no balance of it, and no more of its bond than it
credits to it. -/
theorem enriches_of_posts {debits credits : Bucket →₀ ℕ}
    (posts : Posts s.book debits credits s'.book) (balance : debits (.balance id) = 0)
    (bonded : debits (.bonded id) ≤ credits (.balance id) + credits (.bonded id)) :
    Enriches s id s' := by
  have spendable := posts.gauge_le (applyAddHom (.balance id))
  have owned := posts.gauge_le (applyAddHom (.balance id) + applyAddHom (.bonded id))
  simp only [AddMonoidHom.add_apply, Finsupp.applyAddHom_apply, State.book_balance,
    State.book_bonded] at spendable owned
  exact ⟨spendable (by omega), owned (by omega)⟩

/-- A returned bond stays with its owner. -/
theorem enriches_of_unlock {owner : Identity} {amount : ℕ}
    (posts : Posts s.book (single (.bonded owner) amount) (single (.balance owner) amount)
      s'.book) : Enriches s id s' := by
  apply enriches_of_posts posts
  all_goals simp [single_apply]

/-- A payload takes from the balance and the bond of its author alone. -/
theorem Payload.enriches [Crypto] {author : Identity} {params : Params} {tx : Tx}
    (payload : Payload s author params tx s') (other : author ≠ id) : Enriches s id s' := by
  cases payload with
  | submitTask submits => exact enriches_of_posts submits.posts (by simp [other]) (by simp)
  | claimTask claims => exact enriches_of_posts claims.posts (by simp [other]) (by simp)
  | submitProof settles => exact enriches_of_posts settles.posts (by simp) (by simp)
  | challenge opens => exact enriches_of_posts opens.posts (by simp [other]) (by simp)
  | transfer moves => exact enriches_of_posts moves.posts (by simp [other]) (by simp)

/-- A payload rewrites the Standing of its author alone. -/
theorem Payload.standing_kept [Crypto] {author : Identity} {params : Params} {tx : Tx}
    (payload : Payload s author params tx s') (other : author ≠ id) :
    s'.standing[id]? = s.standing[id]? := by
  cases payload with
  | submitTask submits =>
      rw [show s'.standing = _ from congrArg Records.standing submits.records]
      rfl
  | claimTask claims =>
      rw [show s'.standing = _ from congrArg Records.standing claims.records]
      rfl
  | submitProof settles =>
      rw [show s'.standing = _ from congrArg Records.standing settles.records, getElem?_insert,
        if_neg other.symm]
  | challenge opens =>
      rw [show s'.standing = _ from congrArg Records.standing opens.records]
      rfl
  | transfer moves =>
      rw [show s'.standing = _ from congrArg Records.standing moves.records]
      rfl

theorem State.Advances.enriches {params : Params} {ticked : State}
    (advances : State.Advances s params ticked s') : Enriches s id s' := by
  obtain ⟨epoch, standing, _, rfl, _⟩ := advances.ticks
  have ticked : Enriches s id { s with epoch, standing } := { Enriches.refl s id with }
  apply advances.run.invariant (Enriches s id) ticked
  rintro before stake after earlier ⟨receipt, sub, releases⟩
  exact earlier.trans (enriches_of_unlock releases.posts)

/-- A challenge which is won takes from the offender alone. -/
theorem Closes.enriches {task : TaskId} {params : Params} (closes : Closes s task params true s')
    (other : s.offender task ≠ some id) : Enriches s id s' := by
  cases closes with
  | idle _ => exact .refl s id
  | won _ convicts moves =>
      have enriches := (convicts.unharmed other).enriches.trans (enriches_of_unlock moves.posts)
      exact { enriches with }

/-- A challenge which is lost takes from the bond of the challenger alone. -/
theorem Closes.balance_kept {task : TaskId} {params : Params}
    (closes : Closes s task params false s') :
    (s'.acct id).balance = (s.acct id).balance := by
  cases closes with
  | idle _ => rfl
  | lost _ moves =>
      have balance := moves.posts.apply (.balance id)
      simp at balance
      exact BitVec.eq_of_toNat_eq balance

/-- What an operation of others leaves an identity. -/
theorem Step.respects [Crypto] {op : Op} (step : Step s op s') (others : op.ByOthers s id) :
    Respects op s id s' := by
  cases step.effect with
  | @apply stx params next _ _ _ _ payload =>
      have enriches := payload.enriches others
      exact
        { enriches with
          nonce := by
            rw [payload.nonces_eq, getElem?_insert, if_neg (Ne.symm others)]
          wealth := fun _ => enriches.wealth
          standing := fun _ => payload.standing_kept others }
  | advanceEpoch advances =>
      have enriches : Enriches s id s' := advances.enriches
      exact
        { enriches with
          nonce := by rw [advances.nonces_eq]
          wealth := fun _ => enriches.wealth
          standing := fun idle => by cases idle }
  | @resolveFraud task rewardTo params _ convicts =>
      have enriches := (convicts.unharmed others).enriches
      exact
        { enriches with
          nonce := by rw [convicts.nonces_eq]
          wealth := fun _ => enriches.wealth
          standing := fun _ => convicts.spares.standing id others }
  | @resolveChallenge task fraud params _ closes =>
      have nonce : s'.nonces[id]? = s.nonces[id]? := by rw [closes.nonces_eq]
      have standing : s'.standing[id]? = s.standing[id]? := by
        refine closes.spares.standing id ?_
        split
        · exact others ‹_›
        · simp
      cases fraud with
      | true =>
          have enriches := closes.enriches (others rfl)
          exact
            { enriches with
              nonce
              wealth := fun _ => enriches.wealth
              standing := fun _ => standing }
      | false =>
          refine ⟨nonce, by rw [closes.balance_kept], fun kept => ?_, fun _ => standing⟩
          exact (closes.dismissed_unharmed fun own => kept ⟨rfl, own⟩).enriches.wealth

end Bystanders

end Ducp
