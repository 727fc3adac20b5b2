import Ducp.Library.Run

/-!
# Reordered runs

Two runs start from one state and take the same labels in different orders.  A component of the
state is ranked when each label which moves it finds it at a level of its own and lifts it to the
next one: both runs then move the component by the same labels in the same order.  What a label
reads of the component is therefore a function of the label, and so is whatever it adds to the rest
of the state.
-/

namespace Run

variable {σ ι κ τ : Type} {step : σ → ι → σ → Prop} {start final final' : σ}
  {labels labels' : List ι}

/-- One component of the state for each key.  A label moves at most the component of its key, from
the level of its rank to the next level, and in a way the component alone determines. -/
structure Ranked (step : σ → ι → σ → Prop) (key : ι → Option κ) (view : κ → σ → τ)
    (level : τ → ℕ) (rank : ι → ℕ) : Prop where
  frame : ∀ {before label after k}, step before label after → key label ≠ some k →
    view k after = view k before
  enters : ∀ {before label after k}, step before label after → key label = some k →
    level (view k before) = rank label
  leaves : ∀ {before label after k}, step before label after → key label = some k →
    level (view k after) = rank label + 1
  determined : ∀ {before label after before' after' k}, step before label after →
    step before' label after' → key label = some k → view k before = view k before' →
      view k after = view k after'

section Ranked

variable [DecidableEq κ] {key : ι → Option κ} {view : κ → σ → τ} {level : τ → ℕ} {rank : ι → ℕ}

/-- The labels of one key. -/
def keyed (key : ι → Option κ) (k : κ) (labels : List ι) : List ι :=
  labels.filter fun label => key label = some k

/-- The labels of one key are taken in the order of their ranks. -/
theorem Ranked.sorted (ranked : Ranked step key view level rank) (k : κ)
    (run : Run step start labels final) :
    (keyed key k labels).Pairwise (fun earlier later => rank earlier < rank later) ∧
      ∀ label ∈ keyed key k labels, rank label < level (view k final) := by
  apply run.traced fun labels state =>
    (keyed key k labels).Pairwise (fun earlier later => rank earlier < rank later) ∧
      ∀ label ∈ keyed key k labels, rank label < level (view k state)
  · simp [keyed]
  · rintro labels before last after ⟨sorted, below⟩ taken
    rw [keyed, List.filter_append]
    by_cases mine : key last = some k
    · have enters := ranked.enters taken mine
      have leaves := ranked.leaves taken mine
      simp only [List.filter_singleton, mine, decide_true, cond_true]
      constructor
      · rw [List.pairwise_append]
        refine ⟨sorted, List.pairwise_singleton _ _, fun earlier member later last_mem => ?_⟩
        rw [List.mem_singleton.mp last_mem, ← enters]
        exact below earlier member
      · intro label member
        rcases List.mem_append.mp member with old | new
        · have lower := below label old
          omega
        · rw [List.mem_singleton.mp new]
          omega
    · simp only [List.filter_singleton, mine, decide_false, cond_false, List.append_nil]
      rw [ranked.frame taken mine]
      exact ⟨sorted, below⟩

/-- Runs which take the same labels of a key end with the same component. -/
theorem Ranked.view_eq (ranked : Ranked step key view level rank) {k : κ}
    (run : Run step start labels final) (run' : Run step start labels' final')
    (same : keyed key k labels = keyed key k labels') : view k final = view k final' := by
  let moves (component : τ) (label : ι) (component' : τ) : Prop :=
    ∃ before after, step before label after ∧ key label = some k ∧ view k before = component ∧
      view k after = component'
  have projected {labels : List ι} {final : σ} (run : Run step start labels final) :
      Run moves (view k start) (keyed key k labels) (view k final) := by
    apply run.project (view k) fun label => key label = some k
    · intro before label after taken mine
      exact ⟨before, after, taken, of_decide_eq_true mine, rfl, rfl⟩
    · intro before label after taken other
      exact ranked.frame taken (of_decide_eq_false other)
  have component := projected run
  rw [same] at component
  refine component.unique ?_ (projected run')
  rintro _ label _ _ ⟨before, after, taken, mine, rfl, rfl⟩ ⟨before', after', taken', _, same, rfl⟩
  exact ranked.determined taken taken' mine same.symm

/-- Reordering leaves the labels of a key in place. -/
theorem Ranked.keyed_eq (ranked : Ranked step key view level rank) (k : κ)
    (perm : labels.Perm labels') (run : Run step start labels final)
    (run' : Run step start labels' final') : keyed key k labels = keyed key k labels' := by
  refine List.Perm.eq_of_pairwise ?_ (ranked.sorted k run).1 (ranked.sorted k run').1
    (perm.filter _)
  intro left right _ _ first second
  omega

/-- Reordered runs end with the same components. -/
theorem Ranked.final_eq (ranked : Ranked step key view level rank) (k : κ)
    (perm : labels.Perm labels') (run : Run step start labels final)
    (run' : Run step start labels' final') : view k final = view k final' :=
  ranked.view_eq run run' (ranked.keyed_eq k perm run run')

/-- The labels of a key before one of them are those of smaller rank. -/
theorem Ranked.keyed_before (ranked : Ranked step key view level rank) {k : κ}
    {earlier rest : List ι} {label : ι} {before after : σ}
    (run : Run step start (earlier ++ label :: rest) final)
    (before_run : Run step start earlier before) (taken : step before label after)
    (mine : key label = some k) :
    keyed key k earlier =
      (keyed key k (earlier ++ label :: rest)).filter fun probe => rank probe < rank label := by
  have sorted := (ranked.sorted k run).1
  have below := (ranked.sorted k before_run).2
  rw [ranked.enters taken mine] at below
  have split : keyed key k (earlier ++ label :: rest) =
      keyed key k earlier ++ label :: keyed key k rest := by
    simp [keyed, mine]
  rw [split] at sorted ⊢
  rw [List.pairwise_append, List.pairwise_cons] at sorted
  have smaller : (keyed key k earlier).filter (fun probe => rank probe < rank label) =
      keyed key k earlier :=
    List.filter_eq_self.mpr fun probe member => decide_eq_true (below probe member)
  have larger : (label :: keyed key k rest).filter (fun probe => rank probe < rank label) = [] := by
    rw [List.filter_eq_nil_iff]
    intro probe member
    rcases List.mem_cons.mp member with rfl | later
    · simp
    · have above := sorted.2.1.1 probe later
      simp only [decide_eq_true_eq]
      omega
  rw [List.filter_append, smaller, larger, List.append_nil]

/-- A label finds the same component in reordered runs. -/
theorem Ranked.before_eq (ranked : Ranked step key view level rank) {k : κ}
    {earlier rest earlier' rest' : List ι} {label : ι} {before after before' after' : σ}
    (perm : (earlier ++ label :: rest).Perm (earlier' ++ label :: rest'))
    (run : Run step start (earlier ++ label :: rest) final)
    (before_run : Run step start earlier before) (taken : step before label after)
    (run' : Run step start (earlier' ++ label :: rest') final')
    (before_run' : Run step start earlier' before') (taken' : step before' label after')
    (mine : key label = some k) : view k before = view k before' := by
  apply ranked.view_eq before_run before_run'
  rw [ranked.keyed_before run before_run taken mine,
    ranked.keyed_before run' before_run' taken' mine, ranked.keyed_eq k perm run run']

/-- What the labels of a run read of their components is one function of the labels, which every
reordered run reads too. -/
theorem Ranked.exists_note {γ : Type} [Nonempty γ] (ranked : Ranked step key view level rank)
    (reads : σ → ι → γ)
    (reads_eq : ∀ {before before' label}, (∀ k, key label = some k →
      view k before = view k before') → reads before label = reads before' label)
    (run : Run step start labels final) :
    ∃ note : ι → γ, ∀ {labels' : List ι} {final' : σ}, labels.Perm labels' →
      Run step start labels' final' →
      Run (fun before label after => step before label after ∧ reads before label = note label)
        start labels' final' := by
  have noted (label : ι) : ∃ value : γ, ∀ earlier rest before after,
      labels = earlier ++ label :: rest → Run step start earlier before →
        step before label after → reads before label = value := by
    by_cases found : ∃ earlier rest before after, labels = earlier ++ label :: rest ∧
        Run step start earlier before ∧ step before label after
    · obtain ⟨earlier, rest, before, after, labels_eq, before_run, taken⟩ := found
      refine ⟨reads before label, fun earlier' rest' before' after' split before_run' taken' => ?_⟩
      subst labels_eq
      exact reads_eq fun k mine => ranked.before_eq (split ▸ .refl _) (split ▸ run) before_run'
        taken' run before_run taken mine
    · exact ⟨Classical.arbitrary γ, fun earlier rest before after split before_run taken =>
        (found ⟨earlier, rest, before, after, split, before_run, taken⟩).elim⟩
  choose note note_eq using noted
  refine ⟨note, fun {labels' final'} perm run' => run'.mono_split ?_⟩
  rintro earlier' label rest' before' after' rfl before_run' taken'
  have member : label ∈ labels := perm.mem_iff.mpr (by simp)
  obtain ⟨earlier, rest, before, after, rfl, before_run, taken⟩ := run.split_of_mem member
  refine ⟨taken', ?_⟩
  rw [← note_eq label earlier rest before after rfl before_run taken]
  exact reads_eq fun k mine =>
    (ranked.before_eq perm run before_run taken run' before_run' taken' mine).symm

end Ranked

/-! ## The rest of the state -/

/-- A quantity to which every label adds an amount of its own ends equal in reordered runs. -/
theorem measure_eq {M : Type} [AddCommGroup M] (measure : σ → M)
    (perm : labels.Perm labels') (run : Run step start labels final)
    (run' : Run step start labels' final')
    (determined : ∀ {before label after before' after'}, step before label after →
      step before' label after' →
        measure after - measure before = measure after' - measure before') :
    measure final = measure final' := by
  classical
  have gains (label : ι) : ∃ gain : M, ∀ before after, step before label after →
      measure after = measure before + gain := by
    by_cases taken : ∃ before after, step before label after
    · obtain ⟨before, after, taken⟩ := taken
      refine ⟨measure after - measure before, fun before' after' taken' => ?_⟩
      rw [determined taken taken', add_sub_cancel]
    · exact ⟨0, fun before after found => (taken ⟨before, after, found⟩).elim⟩
  choose gain gain_eq using gains
  have summed {labels : List ι} {final : σ} (run : Run step start labels final) :
      measure final = measure start + (labels.map gain).sum :=
    run.accumulates (fun _ => True) measure gain trivial (fun _ _ => trivial)
      fun _ taken => gain_eq _ _ _ taken
  rw [summed run, summed run', (perm.map gain).sum_eq]

/-- A property which every label either leaves alone or brings about. -/
theorem gathered (holds : σ → Prop) (brings : ι → Prop)
    (gathers : ∀ {before label after}, step before label after →
      (holds after ↔ holds before ∨ brings label))
    (run : Run step start labels final) :
    holds final ↔ holds start ∨ ∃ label ∈ labels, brings label := by
  apply run.traced fun labels state => holds state ↔ holds start ∨ ∃ label ∈ labels, brings label
  · simp
  · intro labels before label after held taken
    rw [gathers taken, held]
    simp [or_assoc, or_and_right, exists_or]

end Run
