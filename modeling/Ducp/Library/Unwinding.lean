import Ducp.Library.Checked

/-!
# Two runs side by side

A view of the state is unwound along two runs at once: when the outcome of a label, seen through
the view, depends on the view of the state alone, two runs of alike labels from states of one view
meet the same verdicts and end in states of one view.
-/

/-! ## Actions and views -/

section Commutes

variable {m : Type → Type} [Monad m] {σ ι : Type} {view : σ → σ}

/-- The action does the same to a state and to what the view keeps of it. -/
def Commutes (view : σ → σ) (action : σ → m σ) : Prop := ∀ s, action (view s) = view <$> action s

variable [LawfulMonad m]

theorem Commutes.bind {first second : σ → m σ} (first_commutes : Commutes view first)
    (second_commutes : Commutes view second) : Commutes view fun s => first s >>= second := by
  intro s
  simp only [first_commutes s, bind_map_left, map_bind]
  exact bind_congr second_commutes

/-- A fold commutes with a view which each of its steps commutes with. -/
theorem Commutes.foldlM {action : σ → ι → m σ} {values : List ι}
    (stepwise : ∀ value, Commutes view fun s => action s value) :
    Commutes view fun s => values.foldlM action s := by
  induction values with
  | nil =>
      intro s
      simp
  | cons value values ih =>
      simp only [List.foldlM_cons]
      exact (stepwise value).bind ih

end Commutes

namespace Outcome

theorem lift_map {ε α β : Type} (action : Checked α) (f : α → β) :
    (liftM (f <$> action) : Outcome ε β) = f <$> (liftM action : Outcome ε α) := by
  cases action <;> rfl

/-! ## Replays -/

variable {σ τ ι ε : Type}

/-- The reason of a rejection. -/
def refusal : Except ε σ → Option ε
  | .ok _ => none
  | .error reason => some reason

/-- Take the labels in turn.  A rejected label leaves the state as it was, and the verdict on every
label is kept. -/
def replay (exec : σ → ι → Outcome ε σ) : σ → List ι → Checked (List (Option ε) × σ)
  | s, [] => return ([], s)
  | s, label :: labels => do
      let outcome ← (exec s label).run
      let next := match outcome with
        | .ok next => next
        | .error _ => s
      Prod.map (refusal outcome :: ·) id <$> replay exec next labels

/-- Alike labels from states of one view lead to the same verdicts and to states of one view. -/
theorem replay_alike {exec : σ → ι → Outcome ε σ} {view : σ → τ} {alike : ι → ι → Prop}
    {labels labels' : List ι} (labels_alike : List.Forall₂ alike labels labels')
    (stepwise : ∀ {s s' label label'}, view s = view s' → alike label label' →
      view <$> exec s label = view <$> exec s' label')
    {s s' : σ} (same : view s = view s') :
    Prod.map id view <$> replay exec s labels = Prod.map id view <$> replay exec s' labels' := by
  induction labels_alike generalizing s s' with
  | nil => simp [replay, same]
  | @cons label label' labels labels' first _ ih =>
      have outcomes := congrArg ExceptT.run (stepwise same first)
      have later (verdict : Option ε) {next next' : σ} (agree : view next = view next') :
          Prod.map id view <$> Prod.map (verdict :: ·) id <$> replay exec next labels =
            Prod.map id view <$> Prod.map (verdict :: ·) id <$> replay exec next' labels' := by
        have rest := congrArg (Prod.map (verdict :: ·) id <$> ·) (ih agree)
        simpa only [Functor.map_map, Prod.map_map, Function.comp_def, id] using rest
      rw [ExceptT.run_map, ExceptT.run_map] at outcomes
      simp only [replay, map_bind]
      rcases left : (exec s label).run with fault | reason | next <;>
        rcases right : (exec s' label').run with fault' | reason' | next' <;>
        simp only [left, right, Functor.map, Except.map, Except.ok.injEq, Except.error.injEq,
          reduceCtorEq] at outcomes
      · rw [outcomes]
        rfl
      · rw [outcomes]
        exact later (some reason') same
      · exact later none outcomes

end Outcome
