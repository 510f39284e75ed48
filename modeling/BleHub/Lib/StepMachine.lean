import Mathlib.Tactic.Common

/-! Runs of a deterministic step function over labels, their invariants and their simulations. -/

namespace StepMachine

variable {σ ι τ κ : Type}

/-- The state after taking a list of labelled steps in order. -/
def run (step : σ → ι → σ) (s : σ) (labels : List ι) : σ := labels.foldl step s

@[simp] theorem run_nil (step : σ → ι → σ) (s : σ) : run step s [] = s := rfl

@[simp] theorem run_cons (step : σ → ι → σ) (s : σ) (label : ι) (labels : List ι) :
    run step s (label :: labels) = run step (step s label) labels := rfl

/-- A run of two pieces continues from where the first piece ended. -/
theorem run_append (step : σ → ι → σ) (s : σ) (first second : List ι) :
    run step s (first ++ second) = run step (run step s first) second := by
  simp [run]

/-- A property that holds first and that every step keeps holds after every run. -/
theorem run_invariant {step : σ → ι → σ} {I : σ → Prop}
    (keeps : ∀ s label, I s → I (step s label)) :
    ∀ labels s, I s → I (run step s labels) := by
  intro labels
  -- The first step leaves a state that the rest of the run may start from.
  induction labels with
  | nil => intro s holds; exact holds
  | cons label labels ih => intro s holds; exact ih _ (keeps s label holds)

/-- Two machines that take the same labels stay related if every step keeps them related. -/
theorem run_related {step : σ → ι → σ} {other : τ → ι → τ} {R : σ → τ → Prop}
    (keeps : ∀ s t label, R s t → R (step s label) (other t label)) :
    ∀ labels s t, R s t → R (run step s labels) (run other t labels) := by
  intro labels
  -- Both machines consume the same first label, so they go on in related states.
  induction labels with
  | nil => intro s t related; exact related
  | cons label labels ih => intro s t related; exact ih _ _ (keeps s t label related)

/-- Every step of the run starts in a state where its label meets the condition. -/
def Throughout (step : σ → ι → σ) (cond : σ → ι → Prop) : σ → List ι → Prop
  | _, [] => True
  | s, label :: labels => cond s label ∧ Throughout step cond (step s label) labels

@[simp] theorem throughout_nil (step : σ → ι → σ) (cond : σ → ι → Prop) (s : σ) :
    Throughout step cond s [] = True := rfl

@[simp] theorem throughout_cons (step : σ → ι → σ) (cond : σ → ι → Prop) (s : σ)
    (label : ι) (labels : List ι) :
    Throughout step cond s (label :: labels) =
      (cond s label ∧ Throughout step cond (step s label) labels) := rfl

instance decidableThroughout {step : σ → ι → σ} {cond : σ → ι → Prop}
    [∀ s label, Decidable (cond s label)] :
    ∀ s labels, Decidable (Throughout step cond s labels)
  | _, [] => isTrue trivial
  | s, label :: labels =>
    match (inferInstance : Decidable (cond s label)),
      decidableThroughout (step s label) labels with
    | isTrue here, isTrue rest => isTrue ⟨here, rest⟩
    | isFalse here, _ => isFalse fun holds => here holds.1
    | _, isFalse rest => isFalse fun holds => rest holds.2

/-- A run in two pieces meets a condition throughout if both pieces do. -/
theorem throughout_append (step : σ → ι → σ) (cond : σ → ι → Prop) (s : σ)
    (first second : List ι) : Throughout step cond s (first ++ second) ↔
      Throughout step cond s first ∧ Throughout step cond (run step s first) second := by
  induction first generalizing s with
  | nil => simp
  | cons label labels ih =>
    simp only [List.cons_append, throughout_cons, run_cons, ih, and_assoc]

/-- A run that meets a condition throughout meets every weaker one. -/
theorem Throughout.mono {step : σ → ι → σ} {cond weaker : σ → ι → Prop}
    (implies : ∀ s label, cond s label → weaker s label) {labels : List ι} {s : σ}
    (met : Throughout step cond s labels) : Throughout step weaker s labels := by
  induction labels generalizing s with
  | nil => trivial
  | cons label labels ih => exact ⟨implies s label met.1, ih met.2⟩

/-- Two machines stay related as long as the steps of the second one meet a condition. -/
theorem run_related_throughout {step : σ → ι → σ} {other : τ → ι → τ} {cond : τ → ι → Prop}
    {R : σ → τ → Prop}
    (keeps : ∀ s t label, R s t → cond t label → R (step s label) (other t label)) :
    ∀ labels s t, R s t → Throughout other cond t labels →
      R (run step s labels) (run other t labels) := by
  intro labels
  induction labels with
  | nil => intro s t related _; exact related
  | cons label labels ih =>
    intro s t related met
    exact ih _ _ (keeps s t label related met.1) met.2

/--
An absorbing state is avoided exactly by the runs whose steps all meet the condition.

The invariant is only needed where the run has not been absorbed yet.
-/
theorem avoids_iff_throughout {step : σ → ι → σ} {cond : σ → ι → Prop} {bad I : σ → Prop}
    (absorbs : ∀ s label, bad s → bad (step s label))
    (keeps : ∀ s label, I s → I (step s label))
    (exact_ : ∀ s label, I s → ¬ bad s → (¬ bad (step s label) ↔ cond s label)) :
    ∀ labels s, I s → ¬ bad s →
      (¬ bad (run step s labels) ↔ Throughout step cond s labels) := by
  -- Once a step goes bad the rest of the run cannot undo it.
  have stays : ∀ labels s, bad s → bad (run step s labels) :=
    fun labels s => run_invariant (I := bad) absorbs labels s
  intro labels
  induction labels with
  -- A run without steps ends in the good state it started from.
  | nil => intro s _ good; simpa using good
  | cons label labels ih =>
    intro s holds good
    have here := exact_ s label holds good
    rw [run_cons, throughout_cons]
    constructor
    -- A run that stays good has not gone bad in its first step either.
    · intro fine
      have next : ¬ bad (step s label) := fun worse => fine (stays labels _ worse)
      exact ⟨here.mp next, (ih _ (keeps s label holds) next).mp fine⟩
    -- A first step that meets the condition leads to a good state, where the rest starts.
    · rintro ⟨met, rest⟩
      exact (ih _ (keeps s label holds) (here.mpr met)).mpr rest

/-- What is noted down in the course of a run, step by step. -/
def trace (step : σ → ι → σ) (note : σ → ι → List κ) : σ → List ι → List κ
  | _, [] => []
  | s, label :: labels => note s label ++ trace step note (step s label) labels

@[simp] theorem trace_nil (step : σ → ι → σ) (note : σ → ι → List κ) (s : σ) :
    trace step note s [] = [] := rfl

@[simp] theorem trace_cons (step : σ → ι → σ) (note : σ → ι → List κ) (s : σ) (label : ι)
    (labels : List ι) : trace step note s (label :: labels) =
      note s label ++ trace step note (step s label) labels := rfl

/-- What every step keeps between the state and the notes holds after every run. -/
theorem run_trace {step : σ → ι → σ} {note : σ → ι → List κ} {R : List κ → σ → Prop}
    (keeps : ∀ noted s label, R noted s → R (noted ++ note s label) (step s label)) :
    ∀ labels noted s, R noted s → R (noted ++ trace step note s labels) (run step s labels) := by
  intro labels
  -- The notes of the first step are part of what the rest of the run starts from.
  induction labels with
  | nil => intro noted s holds; simpa using holds
  | cons label labels ih =>
    intro noted s holds
    rw [trace_cons, ← List.append_assoc]
    exact ih _ _ (keeps noted s label holds)

/-- Each concrete step is matched by some run of the abstract machine. -/
def Simulates (step : σ → ι → σ) (abstract : τ → κ → τ) (view : σ → τ) : Prop :=
  ∀ s label, ∃ labels, view (step s label) = run abstract (view s) labels

/-- A simulated machine only shows states that the abstract machine reaches. -/
theorem Simulates.run {step : σ → ι → σ} {abstract : τ → κ → τ} {view : σ → τ}
    (simulates : Simulates step abstract view) :
    ∀ labels s, ∃ matching, view (StepMachine.run step s labels) =
      StepMachine.run abstract (view s) matching := by
  intro labels
  -- The runs that match the single steps are put one behind the other.
  induction labels with
  | nil => intro s; exact ⟨[], rfl⟩
  | cons label labels ih =>
    intro s
    obtain ⟨first, here⟩ := simulates s label
    obtain ⟨rest, there⟩ := ih (step s label)
    exact ⟨first ++ rest, by rw [run_cons, there, here, run_append]⟩

end StepMachine
