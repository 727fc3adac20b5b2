import Ducp.Library.Run
import Mathlib.Data.List.Nodup
import Mathlib.Logic.Function.Basic

/-!
# Linearizable objects

Callers share an object whose calls are cut into critical sections, and the sections of different
calls take place in any order.  When every call ends as it would have ended in one piece at its last
section, a history of the object is explained by the calls in the order of their last sections.
-/

/-- An object whose calls are cut into critical sections: how far a call has come before its first
section, and how far the next section takes it. -/
structure Sectioned (σ ω τ α : Type) where
  start : ω → τ
  enter : τ → σ → (τ ⊕ α) × σ

namespace Sectioned

variable {σ ω τ α : Type}

/-- Where a caller stands. -/
inductive Caller (ω τ α : Type)
  | absent
  | inside (op : ω) (progress : τ)
  | answered (op : ω) (answer : α)
  | left

/-- What an observer of the object sees. -/
inductive Event (ω α : Type)
  | invoke (caller : ℕ) (op : ω)
  | enter (caller : ℕ)
  | respond (caller : ℕ) (answer : α)

/-- The shared state with all callers. -/
structure Scene (σ ω τ α : Type) where
  shared : σ
  callers : ℕ → Caller ω τ α

/-- Nobody has called yet. -/
def Scene.quiet (shared : σ) : Scene σ ω τ α := { shared, callers := fun _ => .absent }

/-- One caller moves on. -/
def Scene.move (scene : Scene σ ω τ α) (caller : ℕ) (position : Caller ω τ α) : Scene σ ω τ α :=
  { scene with callers := Function.update scene.callers caller position }

@[simp]
theorem Scene.move_self (scene : Scene σ ω τ α) (caller : ℕ) (position : Caller ω τ α) :
    (scene.move caller position).callers caller = position := Function.update_self _ _ _

theorem Scene.move_of_ne (scene : Scene σ ω τ α) {caller other : ℕ} (position : Caller ω τ α)
    (apart : other ≠ caller) :
    (scene.move caller position).callers other = scene.callers other :=
  Function.update_of_ne apart _ _

/-- One event: a call arrives, takes its next section, or returns its answer. -/
inductive Takes (object : Sectioned σ ω τ α) :
    Scene σ ω τ α → Event ω α → Scene σ ω τ α → Prop
  | invoke {scene : Scene σ ω τ α} {caller : ℕ} (op : ω) : scene.callers caller = .absent →
      Takes object scene (.invoke caller op)
        (scene.move caller (.inside op (object.start op)))
  | proceed {scene : Scene σ ω τ α} {caller : ℕ} {op : ω} {progress progress' : τ} {shared : σ} :
      scene.callers caller = .inside op progress →
      object.enter progress scene.shared = (.inl progress', shared) →
      Takes object scene (.enter caller)
        { scene.move caller (.inside op progress') with shared }
  | finish {scene : Scene σ ω τ α} {caller : ℕ} {op : ω} {progress : τ} {answer : α}
      {shared : σ} :
      scene.callers caller = .inside op progress →
      object.enter progress scene.shared = (.inr answer, shared) →
      Takes object scene (.enter caller) { scene.move caller (.answered op answer) with shared }
  | respond {scene : Scene σ ω τ α} {caller : ℕ} {op : ω} {answer : α} :
      scene.callers caller = .answered op answer →
      Takes object scene (.respond caller answer) (scene.move caller .left)

/-! ## Sequential histories -/

/-- A call in one piece, with its answer. -/
structure Entry (ω α : Type) where
  caller : ℕ
  op : ω
  answer : α

/-- One call in one piece. -/
def Performs (perform : ω → σ → α × σ) (before : σ) (entry : Entry ω α) (after : σ) : Prop :=
  perform entry.op before = (entry.answer, after)

/-- The callers of a sequential history. -/
def callersOf (log : List (Entry ω α)) : List ℕ := log.map Entry.caller

/-- A sequential history explains the events: it holds calls which were invoked, each once, and all
which have been answered, with their answers; and wherever the events are cut, some cut of the
history has before it every call answered so far, and none still to be invoked. -/
structure Explains (events : List (Event ω α)) (log : List (Entry ω α)) : Prop where
  once : (callersOf log).Nodup
  invoked : ∀ entry ∈ log, .invoke entry.caller entry.op ∈ events
  answered : ∀ caller answer, .respond caller answer ∈ events →
    ∃ op, (⟨caller, op, answer⟩ : Entry ω α) ∈ log
  ordered : ∀ earlier later, events = earlier ++ later → ∃ front back, log = front ++ back ∧
    (∀ caller answer, .respond caller answer ∈ earlier → caller ∈ callersOf front) ∧
    ∀ caller op, .invoke caller op ∈ later → caller ∉ callersOf front

theorem mem_callersOf {log : List (Entry ω α)} {entry : Entry ω α} (member : entry ∈ log) :
    entry.caller ∈ callersOf log := List.mem_map_of_mem member

theorem Explains.nil : Explains ([] : List (Event ω α)) [] where
  once := List.nodup_nil
  invoked := by simp
  answered := by simp
  ordered earlier later split := by
    obtain ⟨rfl, rfl⟩ := List.append_eq_nil_iff.mp split.symm
    exact ⟨[], [], rfl, by simp, by simp⟩

/-- One more event, and what it adds to the history. -/
theorem Explains.extend {events : List (Event ω α)} {event : Event ω α}
    {log more : List (Entry ω α)} (explains : Explains events log)
    (once : (callersOf (log ++ more)).Nodup)
    (invoked : ∀ entry ∈ more, .invoke entry.caller entry.op ∈ events)
    (answered : ∀ caller answer, event = .respond caller answer →
      ∃ op, (⟨caller, op, answer⟩ : Entry ω α) ∈ log ++ more)
    (fresh : ∀ caller op, event = .invoke caller op → caller ∉ callersOf log) :
    Explains (events ++ [event]) (log ++ more) := by
  have all_answered : ∀ caller answer, .respond caller answer ∈ events ++ [event] →
      ∃ op, (⟨caller, op, answer⟩ : Entry ω α) ∈ log ++ more := by
    intro caller answer member
    rcases List.mem_append.mp member with old | new
    · obtain ⟨op, found⟩ := explains.answered caller answer old
      exact ⟨op, List.mem_append_left _ found⟩
    · exact answered caller answer (List.mem_singleton.mp new).symm
  refine ⟨once, fun entry member => ?_, all_answered, fun earlier later split => ?_⟩
  · refine List.mem_append_left _ ?_
    rcases List.mem_append.mp member with old | new
    · exact explains.invoked entry old
    · exact invoked entry new
  · rcases List.eq_nil_or_concat' later with rfl | ⟨later, last, rfl⟩
    · refine ⟨log ++ more, [], (List.append_nil _).symm, fun caller answer member => ?_, by simp⟩
      rw [List.append_nil] at split
      obtain ⟨op, found⟩ := all_answered caller answer (split ▸ member)
      exact mem_callersOf found
    · rw [← List.append_assoc] at split
      obtain ⟨old, last_eq⟩ := List.append_inj' split rfl
      obtain ⟨front, back, rfl, before, after⟩ := explains.ordered earlier later old
      refine ⟨front, back ++ more, List.append_assoc _ _ _, before, fun caller op member => ?_⟩
      rcases List.mem_append.mp member with inner | outer
      · exact after caller op inner
      · rw [← List.head_eq_of_cons_eq last_eq] at outer
        intro found
        refine fresh caller op (List.mem_singleton.mp outer).symm ?_
        rw [callersOf, List.map_append]
        exact List.mem_append_left _ found

/-! ## Linearization -/

/-- Sections simulate calls in one piece.  `valid` is an invariant of the shared state under allowed
calls.  `apt` says of a call in progress that it may still end as a call in one piece: it does where
it begins, other calls keep it so, a section which does not end the call changes nothing but its
progress, and the section which ends the call does what the call does in one piece. -/
structure Simulates (object : Sectioned σ ω τ α) (perform : ω → σ → α × σ) (allowed : ω → Prop)
    (valid : σ → Prop) (apt : σ → ω → τ → Prop) : Prop where
  start : ∀ {shared op}, valid shared → apt shared op (object.start op)
  proceed : ∀ {shared shared' op progress progress'}, valid shared → apt shared op progress →
    object.enter progress shared = (.inl progress', shared') →
    shared' = shared ∧ apt shared op progress'
  finish : ∀ {shared shared' op progress answer}, valid shared → apt shared op progress →
    object.enter progress shared = (.inr answer, shared') → perform op shared = (answer, shared')
  kept : ∀ {shared op}, valid shared → allowed op → valid (perform op shared).2
  stable : ∀ {shared op other progress}, valid shared → allowed op → apt shared other progress →
    apt (perform op shared).2 other progress

section Simulation

variable {object : Sectioned σ ω τ α} {perform : ω → σ → α × σ} {allowed : ω → Prop}
  {valid : σ → Prop} {apt : σ → ω → τ → Prop} {events : List (Event ω α)} {event : Event ω α}
  {scene scene' : Scene σ ω τ α} {log more : List (Entry ω α)} {shared : σ} {caller : ℕ}
  {position : Caller ω τ α}

/-- What the history so far says of a caller, by where it stands. -/
def Stands (apt : σ → ω → τ → Prop) (events : List (Event ω α)) (shared : σ)
    (log : List (Entry ω α)) (caller : ℕ) : Caller ω τ α → Prop
  | .absent => caller ∉ callersOf log
  | .inside op progress =>
      caller ∉ callersOf log ∧ .invoke caller op ∈ events ∧ apt shared op progress
  | .answered op answer => (⟨caller, op, answer⟩ : Entry ω α) ∈ log
  | .left => True

/-- The history so far explains the events, and every caller stands where it says. -/
structure Tracks (apt : σ → ω → τ → Prop) (events : List (Event ω α)) (scene : Scene σ ω τ α)
    (log : List (Entry ω α)) : Prop where
  explains : Explains events log
  stands : ∀ caller, Stands apt events scene.shared log caller (scene.callers caller)

theorem Tracks.quiet : Tracks apt ([] : List (Event ω α)) (.quiet shared) [] where
  explains := .nil
  stands _ := by simp [Stands, Scene.quiet, callersOf]

theorem callersOf_append : callersOf (log ++ more) = callersOf log ++ callersOf more :=
  List.map_append

/-- What is said of a caller stays true while others move. -/
theorem Stands.mono {shared' : σ} (stands : Stands apt events shared log caller position)
    (apart : caller ∉ callersOf more)
    (stable : ∀ {op progress}, apt shared op progress → apt shared' op progress) :
    Stands apt (events ++ [event]) shared' (log ++ more) caller position := by
  cases position with
  | absent => simpa [Stands, callersOf_append, apart] using stands
  | inside op progress =>
      obtain ⟨out, invoked, fits⟩ := stands
      exact ⟨by simp [callersOf_append, out, apart], List.mem_append_left _ invoked, stable fits⟩
  | answered op answer => exact List.mem_append_left _ stands
  | left => trivial

/-- One caller moves on, and the others stay where they are. -/
theorem Tracks.move {shared' : σ} (tracks : Tracks apt events scene log)
    (explains : Explains (events ++ [event]) (log ++ more))
    (own : ∀ other, other ≠ caller → other ∉ callersOf more)
    (stable : ∀ {op progress}, apt scene.shared op progress → apt shared' op progress)
    (stands : Stands apt (events ++ [event]) shared' (log ++ more) caller position) :
    Tracks apt (events ++ [event]) { scene.move caller position with shared := shared' }
      (log ++ more) := by
  refine ⟨explains, fun other => ?_⟩
  by_cases same : other = caller
  · subst same
    exact (scene.move_self other position).symm ▸ stands
  · have still : Stands apt (events ++ [event]) shared' (log ++ more) other
        (scene.callers other) := (tracks.stands other).mono (own other same) stable
    exact (scene.move_of_ne position same).symm ▸ still

theorem Tracks.at (tracks : Tracks apt events scene log)
    (position_eq : scene.callers caller = position) :
    Stands apt events scene.shared log caller position := position_eq ▸ tracks.stands caller

/-- One event keeps the history, or extends it by the call whose last section it is. -/
theorem Simulates.takes (simulates : Simulates object perform allowed valid apt)
    (holds : valid scene.shared) (tracks : Tracks apt events scene log)
    (permitted : ∀ caller op, .invoke caller op ∈ events → allowed op)
    (takes : object.Takes scene event scene') :
    ∃ more, Run (Performs perform) scene.shared more scene'.shared ∧ valid scene'.shared ∧
      Tracks apt (events ++ [event]) scene' (log ++ more) := by
  have once : (callersOf (log ++ [])).Nodup := by simpa using tracks.explains.once
  cases takes with
  | @invoke caller op absent =>
      have fresh : caller ∉ callersOf log := tracks.at absent
      refine ⟨[], .nil, holds, tracks.move ?_ (by simp [callersOf]) id ?_⟩
      · refine tracks.explains.extend once (by simp) (by simp) ?_
        rintro _ _ ⟨⟩
        exact fresh
      · exact ⟨by simpa using fresh, by simp, simulates.start holds⟩
  | @proceed caller op progress progress' shared inside entered =>
      obtain ⟨out, invoked, fits⟩ := tracks.at inside
      obtain ⟨rfl, fits'⟩ := simulates.proceed holds fits entered
      refine ⟨[], .nil, holds, tracks.move ?_ (by simp [callersOf]) id ?_⟩
      · exact tracks.explains.extend once (by simp) (by simp) (by simp)
      · exact ⟨by simpa using out, List.mem_append_left _ invoked, fits'⟩
  | @finish caller op progress answer shared inside entered =>
      obtain ⟨out, invoked, fits⟩ := tracks.at inside
      have performed := simulates.finish holds fits entered
      have permit := permitted caller op invoked
      obtain rfl : (perform op scene.shared).2 = shared := congrArg Prod.snd performed
      refine ⟨[⟨caller, op, answer⟩], .single performed, simulates.kept holds permit,
        tracks.move ?_ (by simp [callersOf]) (simulates.stable holds permit) (by simp [Stands])⟩
      refine tracks.explains.extend ?_ (by simpa using invoked) (by simp) (by simp)
      rw [callersOf_append]
      refine tracks.explains.once.append (List.nodup_singleton _) ?_
      simpa [callersOf, List.disjoint_singleton] using out
  | @respond caller op answer answered =>
      have entry : (⟨caller, op, answer⟩ : Entry ω α) ∈ log := tracks.at answered
      refine ⟨[], .nil, holds, tracks.move ?_ (by simp [callersOf]) id trivial⟩
      refine tracks.explains.extend once (by simp) ?_ (by simp)
      rintro _ _ ⟨⟩
      exact ⟨op, by simpa using entry⟩

/-- An object whose sections simulate calls in one piece is linearizable. -/
theorem Simulates.linearizable (simulates : Simulates object perform allowed valid apt)
    (holds : valid shared) (permitted : ∀ caller op, .invoke caller op ∈ events → allowed op)
    (run : Run object.Takes (.quiet shared) events scene) :
    ∃ log, Run (Performs perform) shared log scene.shared ∧ Explains events log := by
  suffices tracked : ∃ log, Run (Performs perform) shared log scene.shared ∧ valid scene.shared ∧
      Tracks apt events scene log by
    obtain ⟨log, performed, _, tracks⟩ := tracked
    exact ⟨log, performed, tracks.explains⟩
  induction run with
  | nil => exact ⟨[], .nil, holds, .quiet⟩
  | @snoc events event middle scene _ taken ih =>
      have earlier (caller : ℕ) (op : ω) (member : .invoke caller op ∈ events) : allowed op :=
        permitted caller op (List.mem_append_left _ member)
      obtain ⟨log, performed, holds, tracks⟩ := ih earlier
      obtain ⟨more, continued, holds', tracks'⟩ := simulates.takes holds tracks earlier taken
      exact ⟨log ++ more, performed.trans continued, holds', tracks'⟩

end Simulation

end Sectioned
