/-
# Deterministic machines

A machine takes an operation in a state and gives a result and the next state.  Two machines that
are related step by step give the same results over all sequences of operations.
-/
import Mathlib.Init

namespace Interaction

variable {A B S T : Type}

/-- The results of a sequence of operations. -/
def outputs (step : S → A → B × S) : S → List A → List B
  | _, [] => []
  | s, a :: rest => (step s a).1 :: outputs step (step s a).2 rest

/-- The state after a sequence of operations. -/
def final (step : S → A → B × S) (s : S) (ops : List A) : S :=
  ops.foldl (fun s a => (step s a).2) s

variable {step : S → A → B × S} {step' : T → A → B × T}

/-- **A simulation** that gives the same results step by step gives the same results over all
runs. -/
lemma outputs_eq_of_simulation {R : S → T → Prop}
    (hstep : ∀ s t a, R s t → (step s a).1 = (step' t a).1 ∧ R (step s a).2 (step' t a).2)
    {s : S} {t : T} (h : R s t) (ops : List A) :
    outputs step s ops = outputs step' t ops ∧ R (final step s ops) (final step' t ops) := by
  induction ops generalizing s t with
  | nil => exact ⟨rfl, h⟩
  | cons a rest ih =>
    obtain ⟨hresult, hnext⟩ := hstep s t a h
    obtain ⟨hresults, hfinal⟩ := ih hnext
    rw [outputs, outputs, hresult, hresults]
    exact ⟨rfl, hfinal⟩

/-- The condition holds before every operation of the run. -/
def Throughout (step : S → A → B × S) (P : S → A → Prop) : S → List A → Prop
  | _, [] => True
  | s, a :: rest => P s a ∧ Throughout step P (step s a).2 rest

/-- Where the results of a step agree exactly under a condition, which also keeps the machines
related, the results of a run agree exactly if the condition holds throughout. -/
lemma outputs_eq_iff {R : S → T → Prop} {P : S → A → Prop}
    (hresult : ∀ s t a, R s t → ((step s a).1 = (step' t a).1 ↔ P s a))
    (hnext : ∀ s t a, R s t → P s a → R (step s a).2 (step' t a).2) {s : S} {t : T} (h : R s t)
    (ops : List A) : outputs step s ops = outputs step' t ops ↔ Throughout step P s ops := by
  induction ops generalizing s t with
  | nil => exact ⟨fun _ => trivial, fun _ => rfl⟩
  | cons a rest ih =>
    rw [outputs, outputs, Throughout, List.cons.injEq, hresult s t a h]
    constructor
    · rintro ⟨hP, hrest⟩
      exact ⟨hP, (ih (hnext s t a h hP)).1 hrest⟩
    · rintro ⟨hP, hrest⟩
      exact ⟨hP, (ih (hnext s t a h hP)).2 hrest⟩

end Interaction
