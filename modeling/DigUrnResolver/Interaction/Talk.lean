/-
# Surroundings that change

A conversation of a program is also a run of its surroundings, which go from one state to the next
with every operation.  `Talks` says that they may give the answers of the conversation; it does
not say that anybody asks.
-/
import DigUrnResolver.Interaction.Program

namespace Interaction

variable {Op : Type} {Ans : Op → Type} {σ τ α : Type}

/-- `Talks step s t s'` : in the state `s` the surroundings may give the answers recorded in `t`,
and are then in the state `s'`.  With each answer they move as `step` says. -/
inductive Talks (step : (op : Op) → σ → Ans op → σ → Prop) : σ → List (Event Op Ans) → σ → Prop
  | nil (s : σ) : Talks step s [] s
  | cons {s s' s'' : σ} {op : Op} {ans : Ans op} {t : List (Event Op Ans)}
      (h : step op s ans s') (hrest : Talks step s' t s'') : Talks step s (⟨op, ans⟩ :: t) s''

namespace Talks

variable {step : (op : Op) → σ → Ans op → σ → Prop} {step' : (op : Op) → τ → Ans op → τ → Prop}
  {s s' : σ} {t t' : List (Event Op Ans)}

lemma nil_iff : Talks step s [] s' ↔ s' = s := by
  constructor
  · intro h
    cases h
    rfl
  · rintro rfl
    exact .nil _

lemma cons_iff {e : Event Op Ans} :
    Talks step s (e :: t) s' ↔ ∃ s₁, step e.op s e.ans s₁ ∧ Talks step s₁ t s' := by
  constructor
  · intro h
    cases h with
    | cons h hrest => exact ⟨_, h, hrest⟩
  · rintro ⟨s₁, h, hrest⟩
    exact .cons h hrest

/-- The surroundings of two conversations in a row. -/
lemma append_iff : Talks step s (t ++ t') s' ↔ ∃ s₁, Talks step s t s₁ ∧ Talks step s₁ t' s' := by
  induction t generalizing s with
  | nil => simp [nil_iff]
  | cons e t ih =>
    simp only [List.cons_append, cons_iff, ih]
    constructor
    · rintro ⟨s₁, h, s₂, hfront, hback⟩
      exact ⟨s₂, ⟨s₁, h, hfront⟩, hback⟩
    · rintro ⟨s₂, ⟨s₁, h, hfront⟩, hback⟩
      exact ⟨s₁, h, s₂, hfront, hback⟩

/-- **The induction rule**: what every operation of the conversation keeps holds at its end. -/
lemma invariant {I : σ → Prop} (h : Talks step s t s') (init : I s)
    (keep : ∀ e ∈ t, ∀ s s', I s → step e.op s e.ans s' → I s') : I s' := by
  induction h with
  | nil => exact init
  | cons hstep _ ih =>
    refine ih (keep _ List.mem_cons_self _ _ init hstep) ?_
    intro e he
    exact keep e (List.mem_cons_of_mem _ he)

/-- Every answer of the conversation was given in some state. -/
lemma exists_step {e : Event Op Ans} (h : Talks step s t s') (he : e ∈ t) :
    ∃ s₁ s₂, step e.op s₁ e.ans s₂ := by
  obtain ⟨front, back, rfl⟩ := List.append_of_mem he
  obtain ⟨s₁, -, hback⟩ := append_iff.1 h
  obtain ⟨s₂, hstep, -⟩ := cons_iff.1 hback
  exact ⟨s₁, s₂, hstep⟩

/-- **Simulation**: surroundings that can do what others do can take part in the same
conversations. -/
lemma simulate {R : σ → τ → Prop}
    (hstep : ∀ op s ans s' u, R s u → step op s ans s' → ∃ u', step' op u ans u' ∧ R s' u')
    (h : Talks step s t s') {u : τ} (hR : R s u) : ∃ u', Talks step' u t u' ∧ R s' u' := by
  induction h generalizing u with
  | nil => exact ⟨u, .nil u, hR⟩
  | cons hfirst _ ih =>
    obtain ⟨u₁, hu, hR₁⟩ := hstep _ _ _ _ _ hR hfirst
    obtain ⟨u', hrest, hR'⟩ := ih hR₁
    exact ⟨u', .cons hu hrest, hR'⟩

end Talks

/-- A run against a deterministic surrounding is a conversation with it. -/
lemma Program.talks_script {step : (op : Op) → σ → Ans op → σ → Prop}
    {h : (op : Op) → τ → Ans op × τ} (view : τ → σ)
    (hstep : ∀ op u, step op (view u) (h op u).1 (view (h op u).2)) (p : Program Op Ans α) (u : τ) :
    Talks step (view u) (p.script h u) (view (p.run h u).2) := by
  induction p generalizing u with
  | ret a => exact .nil _
  | call op next ih => exact .cons (hstep op u) (ih _ _)

end Interaction
