import Ducp.Library.Checked

/-!
# Finite runs of labelled transition relations

`Run step start labels final` says that the labels, in order, carry `start` to `final`.  A state
invariant and a preorder which every step respects extend to whole runs by one induction each.
-/

/-- The labels drive the first state to the second, one step each. -/
inductive Run {σ ι : Type} (step : σ → ι → σ → Prop) (start : σ) : List ι → σ → Prop
  | nil : Run step start [] start
  | snoc {labels : List ι} {label : ι} {middle final : σ} :
      Run step start labels middle → step middle label final →
      Run step start (labels ++ [label]) final

namespace Run

variable {σ ι : Type} {step : σ → ι → σ → Prop} {start middle final : σ} {labels later : List ι}

/-- A property of the first state which every step keeps holds at the end of every run. -/
theorem invariant (holds : σ → Prop) (initial : holds start)
    (preserved : ∀ {before label after}, holds before → step before label after → holds after)
    (run : Run step start labels final) : holds final := by
  induction run with
  | nil => exact initial
  | snoc _ taken ih => exact preserved ih taken

/-- A property of the labels so far and the state they lead to, kept by every step. -/
theorem traced (holds : List ι → σ → Prop) (initial : holds [] start)
    (preserved : ∀ {labels before label after}, holds labels before → step before label after →
      holds (labels ++ [label]) after)
    (run : Run step start labels final) : holds labels final := by
  induction run with
  | nil => exact initial
  | snoc _ taken ih => exact preserved ih taken

/-- A preorder which contains every step from an invariant state contains every run. -/
theorem related (holds : σ → Prop) (relates : σ → σ → Prop) (initial : holds start)
    (preserved : ∀ {before label after}, holds before → step before label after → holds after)
    (reflexive : ∀ state, relates state state)
    (transitive : ∀ {first second third}, relates first second → relates second third →
      relates first third)
    (stepwise : ∀ {before label after}, holds before → step before label after →
      relates before after)
    (run : Run step start labels final) : relates start final := by
  induction run with
  | nil => exact reflexive _
  | snoc earlier taken ih =>
      exact transitive ih (stepwise (earlier.invariant holds initial preserved) taken)

/-- Runs compose. -/
theorem trans (first : Run step start labels middle) (second : Run step middle later final) :
    Run step start (labels ++ later) final := by
  induction second with
  | nil => simpa using first
  | snoc _ taken ih => simpa only [← List.append_assoc] using ih.snoc taken

theorem single {label : ι} (taken : step start label final) : Run step start [label] final :=
  .snoc .nil taken

/-- When a positive measure can always be lowered, a run takes it to zero. -/
theorem reaches_zero (holds : σ → Prop) (measure : σ → ℕ) {state : σ} (initial : holds state)
    (lowers : ∀ {before}, holds before → measure before ≠ 0 → ∃ labels after,
      Run step before labels after ∧ holds after ∧ measure after < measure before) :
    ∃ labels final, Run step state labels final ∧ holds final ∧ measure final = 0 := by
  induction size : measure state using Nat.strong_induction_on generalizing state with
  | _ size_eq ih =>
      subst size
      by_cases zero : measure state = 0
      · exact ⟨[], state, .nil, initial, zero⟩
      · obtain ⟨labels, next, run, held, lower⟩ := lowers initial zero
        obtain ⟨later, final, rest, reached⟩ := ih (measure next) lower held rfl
        exact ⟨labels ++ later, final, run.trans rest, reached⟩

/-- A run is a run of every relation which contains its labelled steps. -/
theorem mono {larger : σ → ι → σ → Prop} (run : Run step start labels final)
    (embed : ∀ label ∈ labels, ∀ before after, step before label after →
      larger before label after) : Run larger start labels final := by
  induction run with
  | nil => exact .nil
  | snoc _ taken ih =>
      have earlier := ih fun label member => embed label (List.mem_append_left _ member)
      exact earlier.snoc (embed _ (by simp) _ _ taken)

@[simp]
theorem nil_iff : Run step start [] final ↔ final = start := by
  constructor
  · intro run
    generalize empty : ([] : List ι) = labels at run
    cases run with
    | nil => rfl
    | snoc _ _ => simp at empty
  · rintro rfl
    exact .nil

theorem snoc_iff {label : ι} :
    Run step start (labels ++ [label]) final ↔
      ∃ middle, Run step start labels middle ∧ step middle label final := by
  constructor
  · intro run
    generalize split : labels ++ [label] = whole at run
    cases run with
    | nil => simp at split
    | snoc earlier taken =>
        obtain ⟨rfl, last⟩ := List.append_inj' split rfl
        obtain rfl := List.head_eq_of_cons_eq last
        exact ⟨_, earlier, taken⟩
  · rintro ⟨middle, earlier, taken⟩
    exact earlier.snoc taken

/-- Every label of a run is a step from where the labels before it lead. -/
theorem split_of_mem {label : ι} (run : Run step start labels final) (member : label ∈ labels) :
    ∃ earlier rest before after, labels = earlier ++ label :: rest ∧
      Run step start earlier before ∧ step before label after := by
  induction run with
  | nil => cases member
  | @snoc labels last before after earlier_run taken ih =>
      rcases List.mem_append.mp member with old | new
      · obtain ⟨earlier, rest, before', after', rfl, run, found⟩ := ih old
        exact ⟨earlier, rest ++ [last], before', after', by simp, run, found⟩
      · obtain rfl := List.mem_singleton.mp new
        exact ⟨labels, [], before, after, rfl, earlier_run, taken⟩

/-- A run is a run of every relation which contains its steps, each where the run takes it. -/
theorem mono_split {larger : σ → ι → σ → Prop} (run : Run step start labels final)
    (embed : ∀ earlier label rest before after, labels = earlier ++ label :: rest →
      Run step start earlier before → step before label after → larger before label after) :
    Run larger start labels final := by
  induction run with
  | nil => exact .nil
  | @snoc labels last before after earlier_run taken ih =>
      refine (ih fun earlier label rest before' after' split run found => ?_).snoc
        (embed labels last [] before after rfl earlier_run taken)
      exact embed earlier label (rest ++ [last]) before' after' (by simp [split]) run found

/-- Every step of a run from an invariant state is taken from an invariant state. -/
theorem guarded (holds : σ → Prop) (initial : holds start)
    (preserved : ∀ {before label after}, holds before → step before label after → holds after)
    (run : Run step start labels final) :
    Run (fun before label after => holds before ∧ step before label after) start labels final :=
  run.mono_split fun _ _ _ _ _ _ earlier taken =>
    ⟨earlier.invariant holds initial preserved, taken⟩

/-- The labels which move a component are a run of the component. -/
theorem project {τ : Type} {moves : τ → ι → τ → Prop} (look : σ → τ) (concerns : ι → Bool)
    (moved : ∀ {before label after}, step before label after → concerns label = true →
      moves (look before) label (look after))
    (frame : ∀ {before label after}, step before label after → concerns label = false →
      look after = look before)
    (run : Run step start labels final) :
    Run moves (look start) (labels.filter concerns) (look final) := by
  induction run with
  | nil => exact .nil
  | @snoc labels last before after _ taken ih =>
      rw [List.filter_append]
      cases concerned : concerns last with
      | true =>
          rw [List.filter_singleton, concerned, cond_true]
          exact ih.snoc (moved taken concerned)
      | false =>
          rw [List.filter_singleton, concerned, cond_false, List.append_nil,
            frame taken concerned]
          exact ih

/-- Steps which their label determines lead to one final state. -/
theorem unique {final' : σ}
    (determined : ∀ {before label after after'}, step before label after →
      step before label after' → after = after')
    (run : Run step start labels final) (run' : Run step start labels final') :
    final = final' := by
  induction run generalizing final' with
  | nil => exact (nil_iff.mp run').symm
  | snoc _ taken ih =>
      obtain ⟨middle', earlier', taken'⟩ := snoc_iff.mp run'
      obtain rfl := ih earlier'
      exact determined taken taken'

/-- Two runs over the same labels keep a relation which every pair of steps keeps. -/
theorem paired {τ : Type} {moves : τ → ι → τ → Prop} {start' final' : τ} (alike : σ → τ → Prop)
    (initial : alike start start')
    (stepwise : ∀ {before before' label after after'}, alike before before' →
      step before label after → moves before' label after' → alike after after')
    (run : Run step start labels final) (run' : Run moves start' labels final') :
    alike final final' := by
  induction run generalizing final' with
  | nil =>
      obtain rfl := nil_iff.mp run'
      exact initial
  | snoc _ taken ih =>
      obtain ⟨middle', earlier', taken'⟩ := snoc_iff.mp run'
      exact stepwise (ih earlier') taken taken'

/-- A successful monadic fold is a run over the list it folds. -/
theorem of_foldlM {ε : Type} {action : σ → ι → Except ε σ}
    (folded : labels.foldlM action start = .ok final) :
    Run (fun before label after => action before label = .ok after) start labels final := by
  induction labels using List.reverseRecOn generalizing final with
  | nil =>
      obtain rfl : start = final := by simpa [pure, Except.pure] using folded
      exact .nil
  | append_singleton labels label ih =>
      rw [List.foldlM_append] at folded
      cases earlier : labels.foldlM action start with
      | error cause => simp [earlier, bind, Except.bind] at folded
      | ok middle =>
          rw [earlier] at folded
          change [label].foldlM action middle = .ok final at folded
          rw [List.foldlM_cons] at folded
          simp only [List.foldlM_nil, bind_pure] at folded
          exact (ih earlier).snoc folded

/-- A monadic fold succeeds when every step from an invariant state does. -/
theorem exists_foldlM {ε : Type} {action : σ → ι → Except ε σ} (holds : σ → Prop)
    (initial : holds start) (stepwise : ∀ label ∈ labels, ∀ before, holds before →
      ∃ after, action before label = .ok after ∧ holds after) :
    ∃ final, labels.foldlM action start = .ok final ∧ holds final := by
  induction labels generalizing start with
  | nil => exact ⟨start, rfl, initial⟩
  | cons label labels ih =>
      obtain ⟨after, taken, held⟩ := stepwise label List.mem_cons_self start initial
      obtain ⟨final, folded, reached⟩ := ih held fun label member =>
        stepwise label (List.mem_cons_of_mem _ member)
      refine ⟨final, ?_, reached⟩
      rw [List.foldlM_cons, taken]
      exact folded

/-- A fold is a run of the function it folds. -/
theorem of_foldl {f : σ → ι → σ} :
    Run (fun before label after => f before label = after) start labels (labels.foldl f start) := by
  induction labels using List.reverseRecOn with
  | nil => exact .nil
  | append_singleton labels label ih =>
      rw [List.foldl_append]
      exact ih.snoc rfl

/-- A fold which returns is a run of the actions that return. -/
theorem of_returns {ε : Type} {action : σ → ι → Outcome ε σ}
    (folded : (labels.foldlM action start).Returns final) :
    Run (fun before label after => (action before label).Returns after) start labels final := by
  induction labels using List.reverseRecOn generalizing final with
  | nil =>
      obtain rfl : start = final := by simpa using folded
      exact .nil
  | append_singleton labels label ih =>
      rw [List.foldlM_append, Outcome.returns_bind] at folded
      obtain ⟨middle, earlier, taken⟩ := folded
      refine (ih earlier).snoc ?_
      simpa only [List.foldlM_cons, List.foldlM_nil, bind_pure] using taken

/-! ## Histories -/

/-- A step labelled with the state it is taken from. -/
def Recorded (step : σ → ι → σ → Prop) (before : σ) (entry : σ × ι) (after : σ) : Prop :=
  entry.1 = before ∧ step before entry.2 after

/-- Every run has a history: its labels, each with the state it is taken from. -/
theorem exists_recorded (run : Run step start labels final) :
    ∃ history : List (σ × ι), history.map Prod.snd = labels ∧
      Run (Recorded step) start history final := by
  induction run with
  | nil => exact ⟨[], rfl, .nil⟩
  | @snoc labels last before after _ taken ih =>
      obtain ⟨history, rfl, recorded⟩ := ih
      exact ⟨history ++ [(before, last)], by simp, recorded.snoc ⟨rfl, taken⟩⟩

/-- A quantity to which every label adds its gain ends with the sum of the gains. -/
theorem accumulates {M : Type} [AddCommMonoid M] (holds : σ → Prop) (measure : σ → M)
    (gain : ι → M) (initial : holds start)
    (preserved : ∀ {before label after}, holds before → step before label after → holds after)
    (gains : ∀ {before label after}, holds before → step before label after →
      measure after = measure before + gain label)
    (run : Run step start labels final) :
    measure final = measure start + (labels.map gain).sum := by
  induction run with
  | nil => simp
  | snoc earlier taken ih =>
      rw [gains (earlier.invariant holds initial preserved) taken, ih, List.map_append,
        List.sum_append, add_assoc]
      simp

/-- A measure which every step raises by a bounded amount is bounded by the length of the run. -/
theorem grows (measure : σ → ℕ) (most : ℕ)
    (bounded : ∀ {before label after}, step before label after →
      measure after ≤ measure before + most)
    (run : Run step start labels final) :
    measure final ≤ measure start + labels.length * most := by
  induction run with
  | nil => simp
  | snoc _ taken ih =>
      have raised := bounded taken
      rw [List.length_append, List.length_singleton, Nat.add_mul]
      omega

/-! ## Logs -/

section Logs

variable {ε τ κ : Type} {act : τ → κ → Outcome ε τ}

/-- Either nothing is logged and the view stays, or one entry is logged which takes the view to the
next one. -/
inductive Logs (act : τ → κ → Outcome ε τ) (log : List κ) (view : τ) : List κ → τ → Prop
  | keep : Logs act log view log view
  | entry {entry : κ} {view' : τ} : (act view entry).Returns view' →
      Logs act log view (log ++ [entry]) view'

theorem Logs.replays {log log' : List κ} {view view' first : τ}
    (replayed : (log.foldlM act first).Returns view) (logs : Logs act log view log' view') :
    (log'.foldlM act first).Returns view' := by
  cases logs with
  | keep => exact replayed
  | entry taken =>
      rw [List.foldlM_append, Outcome.returns_bind]
      exact ⟨view, replayed, by simpa using taken⟩

/-- A log whose every step accounts for the change of the view replays to the last view. -/
theorem log_replays (holds : σ → Prop) (log : σ → List κ) (view : σ → τ) (initial : holds start)
    (preserved : ∀ {before label after}, holds before → step before label after → holds after)
    (empty : log start = [])
    (logs : ∀ {before label after}, holds before → step before label after →
      Logs act (log before) (view before) (log after) (view after))
    (run : Run step start labels final) :
    ((log final).foldlM act (view start)).Returns (view final) := by
  induction run with
  | nil => simp [empty]
  | snoc earlier taken ih =>
      exact (logs (earlier.invariant holds initial preserved) taken).replays ih

end Logs

end Run
