/-!
# Runs of a step function

A system is a total step function over a state and an input. An input names
the party that moves and carries every choice its environment makes, so a list
of inputs is one interleaving and a statement about every list is a statement
about every interleaving. A step that the source refuses leaves the state as
it is.
-/

namespace MidnightIndexer.Lib

open List

universe u v w

variable {σ : Type u} {ι : Type v}

/-- The state after the inputs, taken in order. -/
def run (step : σ → ι → σ) (s : σ) (inputs : List ι) : σ := inputs.foldl step s

@[simp] theorem run_nil (step : σ → ι → σ) (s : σ) : run step s [] = s := rfl

@[simp] theorem run_cons (step : σ → ι → σ) (s : σ) (i : ι) (rest : List ι) :
    run step s (i :: rest) = run step (step s i) rest := rfl

theorem run_append (step : σ → ι → σ) (s : σ) (first rest : List ι) :
    run step s (first ++ rest) = run step (run step s first) rest := by
  simp [run, foldl_append]

variable {step : σ → ι → σ} {inv : σ → Prop} {inputs : List ι} {s : σ} {ok : σ → ι → Prop}
  {α : Type w}

/-- What holds initially and is kept by every step holds after every run. -/
theorem run_keeps (keep : ∀ s i, inv s → inv (step s i)) (s : σ) (inputs : List ι)
    (initially : inv s) : inv (run step s inputs) := by
  induction inputs generalizing s with
  | nil => exact initially
  | cons i rest ih => exact ih (step s i) (keep s i initially)

/-- The rule where only the inputs of the run are known to keep it. -/
theorem run_keeps_on (keep : ∀ s, ∀ i ∈ inputs, inv s → inv (step s i)) (s : σ)
    (initially : inv s) : inv (run step s inputs) := by
  induction inputs generalizing s with
  | nil => exact initially
  | cons i rest ih =>
    exact ih (fun s j later => keep s j (mem_cons_of_mem i later)) (step s i)
      (keep s i mem_cons_self initially)

/-- The rule for a state and the inputs that led to it. -/
theorem run_history (inv : σ → List ι → Prop)
    (keep : ∀ s taken i, inv s taken → inv (step s i) (taken ++ [i])) (initially : inv s [])
    (inputs : List ι) : inv (run step s inputs) inputs := by
  suffices from_taken : ∀ taken, inv s taken → inv (run step s inputs) (taken ++ inputs) from
    from_taken [] initially
  clear initially
  induction inputs generalizing s with
  | nil =>
    intro taken holds
    rw [append_nil]
    exact holds
  | cons i rest ih =>
    intro taken holds
    rw [append_cons]
    exact ih _ (keep s taken i holds)

/-- Every input meets `ok` in the state it is applied to. -/
def Guarded (step : σ → ι → σ) (ok : σ → ι → Prop) : σ → List ι → Prop
  | _, [] => True
  | s, i :: rest => ok s i ∧ Guarded step ok (step s i) rest

instance Guarded.decidable (step : σ → ι → σ) (ok : σ → ι → Prop)
    [∀ s i, Decidable (ok s i)] : ∀ s inputs, Decidable (Guarded step ok s inputs)
  | _, [] => isTrue trivial
  | s, i :: rest =>
    have := Guarded.decidable step ok (step s i) rest
    inferInstanceAs (Decidable (ok s i ∧ Guarded step ok (step s i) rest))

theorem Guarded.of_forall (always : ∀ s i, ok s i) : ∀ s inputs, Guarded step ok s inputs
  | _, [] => trivial
  | s, i :: rest => ⟨always s i, of_forall always (step s i) rest⟩

theorem Guarded.imp {weaker : σ → ι → Prop} (implies : ∀ s i, ok s i → weaker s i)
    (guarded : Guarded step ok s inputs) : Guarded step weaker s inputs := by
  induction inputs generalizing s with
  | nil => trivial
  | cons i rest ih => exact ⟨implies s i guarded.1, ih guarded.2⟩

/-- The invariant rule: what holds initially and is kept by every guarded step
holds after every guarded run. -/
theorem run_invariant (keep : ∀ s i, inv s → ok s i → inv (step s i)) (s : σ) (inputs : List ι)
    (initially : inv s) (guarded : Guarded step ok s inputs) : inv (run step s inputs) := by
  induction inputs generalizing s with
  | nil => exact initially
  | cons i rest ih => exact ih (step s i) (keep s i initially guarded.1) guarded.2

theorem Guarded.of_splits
    (met : ∀ before i after, inputs = before ++ i :: after → ok (run step s before) i) :
    Guarded step ok s inputs := by
  induction inputs generalizing s with
  | nil => trivial
  | cons i rest ih =>
    refine ⟨met [] i rest rfl, ih fun before j after split => ?_⟩
    exact met (i :: before) j after (congrArg (cons i) split)

theorem Guarded.take {first rest : List ι} (guarded : Guarded step ok s (first ++ rest)) :
    Guarded step ok s first ∧ Guarded step ok (run step s first) rest := by
  induction first generalizing s with
  | nil => exact ⟨trivial, guarded⟩
  | cons i first ih =>
    obtain ⟨here, later⟩ := guarded
    exact ⟨⟨here, (ih later).1⟩, (ih later).2⟩

/-- What the steps of a run put out, in order. -/
def outputs {α : Type w} (emit : σ → ι → List α) (step : σ → ι → σ) : σ → List ι → List α
  | _, [] => []
  | s, i :: rest => emit s i ++ outputs emit step (step s i) rest

theorem outputs_append (emit : σ → ι → List α) (step : σ → ι → σ) (s : σ) (first rest : List ι) :
    outputs emit step s (first ++ rest) =
      outputs emit step s first ++ outputs emit step (run step s first) rest := by
  induction first generalizing s with
  | nil => rfl
  | cons i first ih => rw [cons_append, outputs, outputs, ih, run_cons, append_assoc]

/-- The invariant rule for a state and what was put out up to it. -/
theorem run_outputs_invariant {emit : σ → ι → List α} (inv : σ → List α → Prop)
    (keep : ∀ s log i, inv s log → ok s i → inv (step s i) (log ++ emit s i)) (s : σ)
    (inputs : List ι) (initially : inv s []) (guarded : Guarded step ok s inputs) :
    inv (run step s inputs) (outputs emit step s inputs) := by
  suffices from_log : ∀ log, inv s log →
      inv (run step s inputs) (log ++ outputs emit step s inputs) from from_log [] initially
  clear initially
  induction inputs generalizing s with
  | nil =>
    intro log holds
    rw [outputs, append_nil]
    exact holds
  | cons i rest ih =>
    intro log holds
    rw [outputs, ← append_assoc]
    exact ih (step s i) guarded.2 _ (keep s log i holds guarded.1)

/-- If a step from a good state ends in a good one exactly under the guard, then all
states of a run are good exactly when the run is guarded. -/
theorem run_always_iff (good : σ → Prop)
    (keeps : ∀ s, ∀ i ∈ inputs, good s → (good (step s i) ↔ ok s i)) (s : σ) (initially : good s) :
    (∀ taken, taken <+: inputs → good (run step s taken)) ↔ Guarded step ok s inputs := by
  induction inputs generalizing s with
  | nil =>
    refine iff_of_true ?_ trivial
    intro taken part
    rw [prefix_nil.mp part]
    exact initially
  | cons i rest ih =>
    have later := ih fun s j member => keeps s j (mem_cons_of_mem i member)
    have first := keeps s i mem_cons_self initially
    constructor
    · intro always
      have next : good (step s i) := always [i] ⟨rest, rfl⟩
      refine ⟨first.mp next, (later (step s i) next).mp fun taken part => ?_⟩
      exact always (i :: taken) ((prefix_cons_inj i).mpr part)
    · intro ⟨met, guarded⟩ taken part
      have next := first.mpr met
      cases taken with
      | nil => exact initially
      | cons j taken =>
        obtain ⟨rfl, rest⟩ := cons_prefix_cons.mp part
        exact (later (step s j) next).mpr guarded taken rest

/-- A log that only grows is left as it is exactly by the runs whose steps all leave it
as it is. -/
theorem run_log_iff (log : σ → List α) (keep : ∀ s i, inv s → inv (step s i))
    (grow : ∀ s i, inv s → log s <+: log (step s i))
    (quiet : ∀ s i, inv s → (log (step s i) = log s ↔ ok s i)) (s : σ) (inputs : List ι)
    (initially : inv s) : log (run step s inputs) = log s ↔ Guarded step ok s inputs := by
  induction inputs generalizing s with
  | nil => exact iff_of_true rfl trivial
  | cons i rest ih =>
    have later := ih (step s i) (keep s i initially)
    have keepBoth : ∀ t j, inv t ∧ log (step s i) <+: log t →
        inv (step t j) ∧ log (step s i) <+: log (step t j) :=
      fun t j both => ⟨keep t j both.1, both.2.trans (grow t j both.1)⟩
    have both := run_keeps keepBoth (step s i) rest ⟨keep s i initially, prefix_rfl⟩
    rw [Guarded, ← quiet s i initially, ← later, run_cons]
    constructor
    · intro same
      rw [same] at both ⊢
      have unchanged := both.2.eq_of_length_le (grow s i initially).length_le
      exact ⟨unchanged, unchanged.symm⟩
    · intro ⟨unchanged, same⟩
      rw [same, unchanged]

end MidnightIndexer.Lib
