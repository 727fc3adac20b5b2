import Mathlib.Data.List.Basic
import Mathlib.Tactic.Common

/-!
# Clients of a shared server

A session is the program of one client: it sends a request, waits for the answer, and goes on.
Between two of its requests others may change the state of the server.  A session is certain of a
postcondition when every ending of it, whatever the others do, has a value which satisfies it.
-/

/-- A client, which ends with a value, stops without one, or sends a request and goes on with the
answer. -/
inductive Session (Q A α : Type)
  | done (value : α)
  | stop
  | ask (request : Q) (next : A → Session Q A α)

namespace Session

variable {Q A α β ι σ : Type}

/-- A session followed by another one. -/
protected def bind : Session Q A α → (α → Session Q A β) → Session Q A β
  | .done value, next => next value
  | .stop, _ => .stop
  | .ask request rest, next => .ask request fun answer => (rest answer).bind next

instance : Monad (Session Q A) where
  pure := .done
  bind := Session.bind

/-- A missing value stops the session. -/
instance : MonadLift Option (Session Q A) where
  monadLift
    | some value => .done value
    | none => .stop

/-- One request and its answer. -/
def request (query : Q) : Session Q A A := .ask query .done

/-! ## How a session ends -/

/-- A session against a server ends with a value, or with none because it stops or is refused.  The
others move before every request. -/
inductive Ends (server : Q → σ → Option A × σ) (others : σ → σ → Prop) :
    Session Q A α → σ → Option α → σ → Prop
  | done {value : α} {s : σ} : Ends server others (.done value) s (some value) s
  | stop {s : σ} : Ends server others .stop s none s
  | refused {query : Q} {next : A → Session Q A α} {s arrived last : σ} :
      others s arrived → server query arrived = (none, last) →
      Ends server others (.ask query next) s none last
  | answered {query : Q} {next : A → Session Q A α} {s arrived after last : σ} {answer : A}
      {ending : Option α} :
      others s arrived → server query arrived = (some answer, after) →
      Ends server others (next answer) after ending last →
      Ends server others (.ask query next) s ending last

/-- A session is answered whatever the others do, and its value satisfies the postcondition. -/
def Certain (server : Q → σ → Option A × σ) (others : σ → σ → Prop) (post : α → σ → Prop) :
    Session Q A α → σ → Prop
  | .done value, s => post value s
  | .stop, _ => False
  | .ask query next, s => ∀ arrived, others s arrived →
      ∃ answer after, server query arrived = (some answer, after) ∧
        (next answer).Certain server others post after

variable {server : Q → σ → Option A × σ} {others : σ → σ → Prop} {session : Session Q A α}
  {post : α → σ → Prop} {s : σ}

/-- A session is certain of what holds at every ending of it. -/
theorem certain_iff : session.Certain server others post s ↔
    ∀ ending last, session.Ends server others s ending last →
      ∃ value, ending = some value ∧ post value last := by
  induction session generalizing s with
  | done value =>
      refine ⟨fun holds ending last ended => ?_, fun ends => ?_⟩
      · cases ended with
        | done => exact ⟨value, rfl, holds⟩
      · obtain ⟨_, same, holds⟩ := ends _ _ .done
        exact Option.some.inj same ▸ holds
  | stop =>
      refine ⟨False.elim, fun ends => ?_⟩
      obtain ⟨_, absurd_ending, _⟩ := ends _ _ .stop
      cases absurd_ending
  | ask query next ih =>
      refine ⟨fun certain ending last ended => ?_, fun ends arrived moved => ?_⟩
      · cases ended with
        | refused moved refused =>
            obtain ⟨answer, after, answered, _⟩ := certain _ moved
            cases answered.symm.trans refused
        | answered moved answered rest =>
            obtain ⟨answer, after, answered', certain⟩ := certain _ moved
            obtain ⟨same, rfl⟩ := Prod.mk.inj (answered'.symm.trans answered)
            obtain rfl := Option.some.inj same
            exact (ih answer).mp certain ending last rest
      · rcases answered : server query arrived with ⟨_ | answer, after⟩
        · obtain ⟨_, absurd_ending, _⟩ := ends _ _ (.refused moved answered)
          cases absurd_ending
        · exact ⟨answer, after, rfl, (ih answer).mpr fun ending last rest =>
            ends ending last (.answered moved answered rest)⟩

/-! ## Rules -/

theorem Certain.mono {post' : α → σ → Prop} (certain : session.Certain server others post s)
    (weaker : ∀ value last, post value last → post' value last) :
    session.Certain server others post' s := by
  rw [certain_iff] at certain ⊢
  intro ending last ended
  obtain ⟨value, rfl, holds⟩ := certain ending last ended
  exact ⟨value, rfl, weaker value last holds⟩

@[simp]
theorem certain_pure {value : α} :
    (pure value : Session Q A α).Certain server others post s ↔ post value s := .rfl

@[simp]
theorem certain_lift {found : Option α} :
    (liftM found : Session Q A α).Certain server others post s ↔
      ∃ value, found = some value ∧ post value s := by
  cases found with
  | some value => exact ⟨fun holds => ⟨value, rfl, holds⟩, fun ⟨_, same, holds⟩ =>
      Option.some.inj same ▸ holds⟩
  | none => exact ⟨False.elim, fun ⟨_, absurd_value, _⟩ => nomatch absurd_value⟩

theorem certain_request {query : Q} {post : A → σ → Prop} :
    (request query : Session Q A A).Certain server others post s ↔
      ∀ arrived, others s arrived →
        ∃ answer after, server query arrived = (some answer, after) ∧ post answer after := .rfl

/-- A sequence is certain of what its second part is certain of after its first. -/
@[simp]
theorem certain_bind {next : α → Session Q A β} {post : β → σ → Prop} :
    (session >>= next).Certain server others post s ↔
      session.Certain server others (fun value last => (next value).Certain server others post last)
        s := by
  induction session generalizing s with
  | done value => rfl
  | stop => rfl
  | ask query rest ih =>
      refine forall₂_congr fun arrived moved => exists₂_congr fun answer after => ?_
      exact and_congr_right fun _ => ih answer

/-- The second part of a sequence may rely on what the first one establishes. -/
theorem Certain.bind {next : α → Session Q A β} {post' : β → σ → Prop}
    (certain : session.Certain server others post s)
    (rest : ∀ value last, post value last → (next value).Certain server others post' last) :
    (session >>= next).Certain server others post' s :=
  certain_bind.mpr (certain.mono rest)

/-- A value which is there does not stop the session. -/
theorem certain_given {found : Option α} {value : α} {next : α → Session Q A β}
    {post : β → σ → Prop} (found_eq : found = some value)
    (rest : (next value).Certain server others post s) :
    (liftM found >>= next).Certain server others post s :=
  certain_bind.mpr (certain_lift.mpr ⟨value, found_eq, rest⟩)

/-- A loop is certain of an invariant which every round keeps. -/
theorem certain_foldlM {round : β → ι → Session Q A β} {items : List ι}
    (invariant : ℕ → β → σ → Prop) {start : β} (holds : invariant 0 start s)
    (kept : ∀ count item value s, items[count]? = some item → invariant count value s →
      (round value item).Certain server others (invariant (count + 1)) s) :
    (items.foldlM round start).Certain server others (invariant items.length) s := by
  induction items generalizing invariant start s with
  | nil => exact holds
  | cons item items ih =>
      rw [List.foldlM_cons, certain_bind]
      refine (kept 0 item start s rfl holds).mono fun value last held => ?_
      exact ih (fun count => invariant (count + 1)) held fun count => kept (count + 1)

/-! ## Playing a session -/

/-- Play a session while the others make these moves, one before each request. -/
def play (server : Q → σ → Option A × σ) :
    Session Q A α → List (σ → Option σ) → σ → Option (Option α × σ)
  | .done value, _, s => some (some value, s)
  | .stop, _, s => some (none, s)
  | .ask _ _, [], _ => none
  | .ask query next, move :: moves, s =>
      (move s).bind fun arrived =>
        match server query arrived with
        | (some answer, after) => (next answer).play server moves after
        | (none, after) => some (none, after)

/-- What is played is an ending of the session. -/
theorem ends_of_play {moves : List (σ → Option σ)} {ending : Option α} {last : σ}
    (moved : ∀ move ∈ moves, ∀ s arrived, move s = some arrived → others s arrived)
    (played : session.play server moves s = some (ending, last)) :
    session.Ends server others s ending last := by
  induction session generalizing moves s with
  | done value =>
      obtain ⟨rfl, rfl⟩ := Prod.mk.inj (Option.some.inj played)
      exact .done
  | stop =>
      obtain ⟨rfl, rfl⟩ := Prod.mk.inj (Option.some.inj played)
      exact .stop
  | ask query next ih =>
      cases moves with
      | nil => cases played
      | cons move moves =>
          rw [play, Option.bind_eq_some_iff] at played
          obtain ⟨arrived, arrives, played⟩ := played
          have moves_to := moved move List.mem_cons_self s arrived arrives
          split at played
          · rename_i answer after answered
            refine .answered moves_to answered (ih answer (fun move member => ?_) played)
            exact moved move (List.mem_cons_of_mem _ member)
          · rename_i after refused
            obtain ⟨rfl, rfl⟩ := Prod.mk.inj (Option.some.inj played)
            exact .refused moves_to refused

end Session
