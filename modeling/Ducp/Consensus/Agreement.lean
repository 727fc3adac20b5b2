import Ducp.Consensus
import Ducp.Ledger.Events

/-!
# Producers and replicas agree

A proposal keeps, in order, exactly the transactions of the mempool which apply to the state built
by the accepted ones before them.  A replica replays them to the same state, and replays no other
list of transactions under the same identifiers unless the hash collides.
-/

namespace Ducp

open Borsh Outcome

/-- The transactions of a mempool whose outcome is an acceptance. -/
def accepted (mempool : List SignedTx) (results : List TxResult) : List SignedTx :=
  ((mempool.zip results).filter fun entry => entry.2.accepted).map Prod.fst

theorem accepted_append {earlier later : List SignedTx} {results results' : List TxResult}
    (length_eq : earlier.length = results.length) :
    accepted (earlier ++ later) (results ++ results') =
      accepted earlier results ++ accepted later results' := by
  simp [accepted, List.zip_append length_eq]

section Agreement

variable [Crypto]

/-- The outcome reported for a transaction is the one on the state it was applied to. -/
inductive Reports (params : Params) (built : State) (stx : SignedTx) : TxResult → Prop
  | accepts {txId : TxId} {s : State} : stx.txId = .ok txId →
      (built.apply stx params).Returns s →
      Reports params built stx { txId, accepted := true, reject := none }
  | rejects {txId : TxId} {reason : Reject} : stx.txId = .ok txId →
      (built.apply stx params).Rejects reason →
      Reports params built stx { txId, accepted := false, reject := some reason }

/-- What a tally says about the mempool it has gone through. -/
structure Tallied (params : Params) (start : State) (mempool : List SignedTx) (tally : Tally) :
    Prop where
  length_eq : tally.results.length = mempool.length
  txs_eq : tally.txs = accepted mempool tally.results
  ids_eq : tally.txs.map SignedTx.txId = tally.ids.map .ok
  built : (applyAll params start tally.txs).Returns tally.state
  reports : ∀ (position : ℕ) (stx : SignedTx), mempool[position]? = some stx →
    ∃ built result, tally.results[position]? = some result ∧
      (applyAll params start (accepted (mempool.take position)
        (tally.results.take position))).Returns built ∧
      Reports params built stx result

theorem applyAll_append {params : Params} {s final : State} {earlier later : List SignedTx} :
    (applyAll params s (earlier ++ later)).Returns final ↔
      ∃ middle, (applyAll params s earlier).Returns middle ∧
        (applyAll params middle later).Returns final := by
  simp [applyAll, List.foldlM_append]

theorem applyAll_singleton {params : Params} {s final : State} {stx : SignedTx} :
    (applyAll params s [stx]).Returns final ↔ (s.apply stx params).Returns final := by
  simp [applyAll]

/-- One more transaction is reported on the state which the accepted ones have built. -/
theorem Tallied.snoc {params : Params} {start : State} {mempool : List SignedTx}
    {tally tally' : Tally} {stx : SignedTx} (tallied : Tallied params start mempool tally)
    (taken : SingleSequencer.tallyTx params tally stx = .ok tally') :
    Tallied params start (mempool ++ [stx]) tally' := by
  have lengths := tallied.length_eq
  -- earlier positions keep their outcome, the last one has the new outcome
  have extend (result : TxResult) (last : Reports params tally.state stx result) :
      ∀ (position : ℕ) (probe : SignedTx), (mempool ++ [stx])[position]? = some probe →
        ∃ built found, (tally.results ++ [result])[position]? = some found ∧
          (applyAll params start (accepted ((mempool ++ [stx]).take position)
            ((tally.results ++ [result]).take position))).Returns built ∧
          Reports params built probe found := by
    intro position probe found
    by_cases inside : position < mempool.length
    · rw [List.getElem?_append_left inside] at found
      rw [List.getElem?_append_left (lengths ▸ inside), List.take_append_of_le_length inside.le,
        List.take_append_of_le_length (by omega)]
      exact tallied.reports position probe found
    · obtain ⟨bound, _⟩ := List.getElem?_eq_some_iff.mp found
      have last_position : position = mempool.length := by
        simp only [List.length_append, List.length_singleton] at bound
        omega
      subst last_position
      obtain rfl : stx = probe := by simpa using found
      refine ⟨tally.state, result, by simp [← lengths], ?_, last⟩
      rw [List.take_left, List.take_append_of_le_length lengths.ge, ← lengths, List.take_length,
        ← tallied.txs_eq]
      exact tallied.built
  obtain ⟨txId, txId_eq, taken⟩ := Checked.bind_eq_ok.mp taken
  obtain ⟨outcome, applied, taken⟩ := Checked.bind_eq_ok.mp taken
  cases outcome with
  | ok state =>
      obtain rfl := Checked.pure_eq_ok.mp taken
      exact
        { length_eq := by simp [lengths]
          txs_eq := by
            rw [accepted_append lengths.symm, ← tallied.txs_eq]
            rfl
          ids_eq := by simp [tallied.ids_eq, txId_eq]
          built := applyAll_append.mpr ⟨_, tallied.built, applyAll_singleton.mpr applied⟩
          reports := extend _ (.accepts txId_eq applied) }
  | error reason =>
      obtain rfl := Checked.pure_eq_ok.mp taken
      exact
        { length_eq := by simp [lengths]
          txs_eq := by
            rw [accepted_append lengths.symm, ← tallied.txs_eq]
            exact (List.append_nil _).symm
          ids_eq := tallied.ids_eq
          built := tallied.built
          reports := extend _ (.rejects txId_eq applied) }

variable {engine replica : SingleSequencer} {state : State} {params : Params}

/-- A proposal tallies its whole mempool. -/
theorem produce_tallied {mempool : List SignedTx} {proposal : Proposal}
    (produced : engine.produce mempool state params = .ok proposal) :
    Tallied params state mempool
      { state := proposal.state, ids := proposal.block.txs, txs := proposal.txs
        results := proposal.results } := by
  obtain ⟨tally, folded, produced⟩ := Checked.bind_eq_ok.mp produced
  obtain ⟨height, _, produced⟩ := Checked.bind_eq_ok.mp produced
  obtain ⟨stateRoot, _, produced⟩ := Checked.bind_eq_ok.mp produced
  obtain rfl := Checked.pure_eq_ok.mp produced
  apply (Run.of_foldlM folded).traced (Tallied params state)
  · exact ⟨rfl, rfl, rfl, by simp [applyAll], fun position stx found => by simp at found⟩
  · exact Tallied.snoc

/-! ## Other lists of transactions -/

/-- No two different encodings of transactions of the two lists have the same hash. -/
def CollisionFree (txs txs' : List SignedTx) : Prop :=
  ∀ stx ∈ txs, ∀ stx' ∈ txs',
    Crypto.hashBytes (layout stx) = Crypto.hashBytes (layout stx') → layout stx = layout stx'

/-- Without a collision, an identifier determines its transaction. -/
theorem CollisionFree.eq_of_txId {txs txs' : List SignedTx} (free : CollisionFree txs txs')
    {stx stx' : SignedTx} (member : stx ∈ txs) (member' : stx' ∈ txs') {txId : TxId}
    (id_eq : stx.txId = .ok txId) (id_eq' : stx'.txId = .ok txId) : stx = stx' := by
  obtain ⟨stx_fits, hashed⟩ := hashCanonical_eq_ok.mp id_eq
  obtain ⟨stx_fits', hashed'⟩ := hashCanonical_eq_ok.mp id_eq'
  exact layout_injective stx_fits stx_fits'
    (free stx member stx' member' (hashed.trans hashed'.symm))

/-- Transactions which replay under the identifiers of a list have these identifiers. -/
theorem ids_of_replay {start final : State} {txs : List SignedTx} {ids : List TxId}
    (length_eq : txs.length = ids.length)
    (replayed : ((txs.zip ids).foldlM (SingleSequencer.replay params) start).Returns final) :
    txs.map SignedTx.txId = ids.map .ok := by
  induction txs generalizing ids start with
  | nil =>
      obtain rfl := List.length_eq_zero_iff.mp length_eq.symm
      rfl
  | cons stx txs ih =>
      cases ids with
      | nil => simp at length_eq
      | cons txId ids =>
          simp only [List.zip_cons_cons, List.foldlM_cons, returns_bind, SingleSequencer.replay,
            returns_lift, returns_rejectIf, not_not] at replayed
          obtain ⟨_, ⟨_, id_eq, _, rfl, _⟩, replayed⟩ := replayed
          simp [id_eq, ih (by simpa using length_eq) replayed]

theorem CollisionFree.eq_of_ids {txs txs' : List SignedTx} (free : CollisionFree txs txs')
    {ids : List TxId} (ids_eq : txs.map SignedTx.txId = ids.map .ok)
    (ids_eq' : txs'.map SignedTx.txId = ids.map .ok) : txs' = txs := by
  induction txs generalizing txs' ids with
  | nil =>
      obtain rfl : ids = [] := by simpa using ids_eq.symm
      simpa using ids_eq'
  | cons stx txs ih =>
      obtain ⟨txId, ids, rfl, id_eq, ids_eq⟩ : ∃ txId rest, ids = txId :: rest ∧
          stx.txId = .ok txId ∧ txs.map SignedTx.txId = rest.map .ok := by
        cases ids with
        | nil => simp at ids_eq
        | cons txId rest => exact ⟨txId, rest, rfl, by simpa using ids_eq⟩
      cases txs' with
      | nil => simp at ids_eq'
      | cons stx' txs' =>
          rw [List.map_cons, List.map_cons, List.cons.injEq] at ids_eq'
          have head : stx = stx' :=
            free.eq_of_txId List.mem_cons_self List.mem_cons_self id_eq ids_eq'.1
          have tails : CollisionFree txs txs' := fun left member right member' =>
            free left (List.mem_cons_of_mem _ member) right (List.mem_cons_of_mem _ member')
          rw [head, ih tails ids_eq ids_eq'.2]

/-- Another list of transactions with identifiers stops the replay where it first differs. -/
theorem CollisionFree.replay_rejects {txs txs' : List SignedTx} (free : CollisionFree txs txs')
    {start final : State} {ids : List TxId} (lengths : txs.length = ids.length)
    (lengths' : txs'.length = ids.length)
    (replayed : ((txs.zip ids).foldlM (SingleSequencer.replay params) start).Returns final)
    (identified : ∀ stx' ∈ txs', ∃ txId, stx'.txId = .ok txId) (other : txs' ≠ txs) :
    ((txs'.zip ids).foldlM (SingleSequencer.replay params) start).Rejects .invalid := by
  induction ids generalizing txs txs' start with
  | nil =>
      rw [List.length_nil, List.length_eq_zero_iff] at lengths lengths'
      exact (other (lengths'.trans lengths.symm)).elim
  | cons txId ids ih =>
      obtain ⟨stx, txs, rfl⟩ := List.exists_cons_of_length_eq_add_one lengths
      obtain ⟨stx', txs', rfl⟩ := List.exists_cons_of_length_eq_add_one lengths'
      simp only [List.zip_cons_cons, List.foldlM_cons, returns_bind] at replayed
      obtain ⟨middle, taken, replayed⟩ := replayed
      have id_eq : stx.txId = .ok txId := by
        simp only [SingleSequencer.replay, returns_bind, returns_lift, returns_rejectIf,
          not_not] at taken
        obtain ⟨_, id_eq, _, rfl, _⟩ := taken
        exact id_eq
      obtain ⟨found, id_eq'⟩ := identified stx' List.mem_cons_self
      rw [List.zip_cons_cons, List.foldlM_cons, rejects_bind]
      by_cases same : found = txId
      · -- the heads agree, so that the lists differ later
        subst same
        obtain rfl : stx = stx' :=
          free.eq_of_txId List.mem_cons_self List.mem_cons_self id_eq id_eq'
        have tails : CollisionFree txs txs' := fun left member right member' =>
          free left (List.mem_cons_of_mem _ member) right (List.mem_cons_of_mem _ member')
        refine .inr ⟨middle, taken, ih tails (by simpa using lengths) (by simpa using lengths')
          replayed (fun probe member => identified probe (List.mem_cons_of_mem _ member)) ?_⟩
        rintro rfl
        exact other rfl
      · left
        simp only [SingleSequencer.replay, rejects_bind, not_rejects_lift, false_or, returns_lift,
          rejects_rejectIf]
        exact ⟨found, id_eq', .inl ⟨same, trivial⟩⟩

/-- A replica does not accept a produced block with another list of transactions. -/
theorem commit_other {mempool txs' : List SignedTx} {proposal : Proposal}
    (produced : engine.produce mempool state params = .ok proposal)
    (free : CollisionFree proposal.txs txs') (other : txs' ≠ proposal.txs) :
    (∀ s, ¬(replica.commit proposal.block txs' state params).Returns s) ∧
      ((∀ stx' ∈ txs', ∃ txId, stx'.txId = .ok txId) →
        (replica.commit proposal.block txs' state params).Rejects .invalid) := by
  have tallied := produce_tallied produced
  obtain ⟨⟨lengths, replayed⟩, _⟩ := SingleSequencer.produce_replays produced
  constructor
  · intro s committed
    simp only [SingleSequencer.commit, returns_bind, returns_rejectIf, not_not] at committed
    obtain ⟨_, lengths', _, replayed', _⟩ := committed
    exact other (free.eq_of_ids tallied.ids_eq (ids_of_replay lengths' replayed'))
  · intro identified
    simp only [SingleSequencer.commit, rejects_bind, rejects_rejectIf, returns_rejectIf, not_not]
    by_cases lengths' : txs'.length = proposal.block.txs.length
    · exact .inr ⟨⟨⟩, lengths', .inl
        (free.replay_rejects lengths lengths' replayed identified other)⟩
    · exact .inl ⟨lengths', trivial⟩

/-- A proposal reports every transaction of its mempool as it applies to the state which the
accepted ones before it have built, and consists of the accepted ones.  Every replica commits it to
the state of the producer, and rejects it with any other list of transactions unless the hash
collides. -/
theorem produce_agrees {mempool : List SignedTx} {proposal : Proposal}
    (produced : engine.produce mempool state params = .ok proposal) :
    proposal.results.length = mempool.length ∧
      proposal.txs = accepted mempool proposal.results ∧
      proposal.txs.map SignedTx.txId = proposal.block.txs.map .ok ∧
      (∀ (position : ℕ) (stx : SignedTx), mempool[position]? = some stx →
        ∃ built result, proposal.results[position]? = some result ∧
          (applyAll params state (accepted (mempool.take position)
            (proposal.results.take position))).Returns built ∧
          Reports params built stx result) ∧
      ∀ replica : SingleSequencer,
        (replica.commit proposal.block proposal.txs state params).Returns proposal.state ∧
        ∀ txs' : List SignedTx, txs' ≠ proposal.txs → CollisionFree proposal.txs txs' →
          (∀ s, ¬(replica.commit proposal.block txs' state params).Returns s) ∧
          ((∀ stx' ∈ txs', ∃ txId, stx'.txId = .ok txId) →
            (replica.commit proposal.block txs' state params).Rejects .invalid) := by
  have tallied := produce_tallied produced
  refine ⟨tallied.length_eq, tallied.txs_eq, tallied.ids_eq, tallied.reports, fun replica => ?_⟩
  exact ⟨SingleSequencer.commit_produce produced,
    fun txs' other free => commit_other produced free other⟩

end Agreement

section Sample

open Sample

attribute [local instance] Crypto.checksum

namespace Sample

/-- A transfer of a sample author. -/
def transferred (author : Identity) (nonce : BitVec 64) (recipient : Identity) (amount : Ucu) :
    SignedTx :=
  { author, tx := .transfer recipient amount, nonce, sig := Bytes.fill 64 0 }

/-- A transfer, its duplicate, an overdraft, and a transfer of what the first one has paid. -/
def mempool : List SignedTx :=
  [transferred alice 0 bob 5, transferred alice 0 bob 5, transferred carol 0 bob 10001,
    transferred bob 0 carol 10005]

/-- The proposal of a fresh engine over the sample mempool. -/
def proposal : Checked (State × Proposal) := do
  let start ← State.genesis allocations 0
  let proposal ← (SingleSequencer.new alice).produce mempool start .devnet
  return (start, proposal)

end Sample

theorem produce_agrees_mixed : ∃ start proposal,
    State.genesis allocations 0 = .ok start ∧
      (SingleSequencer.new alice).produce mempool start .devnet = .ok proposal ∧
      proposal.results.map TxResult.reject =
        [none, some .badNonce, some .insufficientBalance, none] ∧
      proposal.txs = [transferred alice 0 bob 5, transferred bob 0 carol 10005] ∧
      proposal.txs = accepted mempool proposal.results ∧
      ∀ replica : SingleSequencer,
        (replica.commit proposal.block proposal.txs start .devnet).Returns proposal.state ∧
        (replica.commit proposal.block [transferred bob 0 carol 10005, transferred alice 0 bob 5]
          start .devnet).Rejects .invalid := by
  have mixed : Sample.proposal.map (fun entry =>
      decide (entry.2.results.map TxResult.reject =
        [none, some .badNonce, some .insufficientBalance, none] ∧
      entry.2.txs = [transferred alice 0 bob 5, transferred bob 0 carol 10005])) = .ok true := by
    decide +kernel
  obtain ⟨⟨start, proposal⟩, ran, mixed⟩ := Checked.map_eq_ok.mp mixed
  obtain ⟨rejects_eq, txs_eq⟩ := of_decide_eq_true mixed
  obtain ⟨_, genesis_eq, ran⟩ := Checked.bind_eq_ok.mp ran
  obtain ⟨_, produced, ran⟩ := Checked.bind_eq_ok.mp ran
  obtain ⟨rfl, rfl⟩ := Prod.mk.inj (Checked.pure_eq_ok.mp ran)
  obtain ⟨_, accepted_eq, _, _, commits⟩ := produce_agrees produced
  refine ⟨_, _, genesis_eq, produced, rejects_eq, txs_eq, accepted_eq, fun replica => ?_⟩
  obtain ⟨committed, other⟩ := commits replica
  refine ⟨committed, (other _ ?_ ?_).2 ?_⟩
  · rw [txs_eq]
    decide
  · rw [txs_eq]
    unfold CollisionFree
    decide +kernel
  · have fitting : ∀ stx ∈ [transferred bob 0 carol 10005, transferred alice 0 bob 5],
        fits stx = true := by decide
    exact fun stx member => ⟨_, hashCanonical_eq_ok.mpr ⟨fitting stx member, rfl⟩⟩

end Sample

end Ducp
