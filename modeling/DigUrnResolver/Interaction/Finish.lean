/-
# Programs whose results are made into something else

A machine may run the programs of another one and make something of their results, without any
operation of its own.  Its runs are those of the other machine, and what holds of the results there
holds of what is made of them.
-/
import DigUrnResolver.Interaction.Threads

namespace Interaction

variable {σ τ τ' Op : Type} {Ans : Op → Type} {α β : Type}

/-- The threads of `M'` run the programs of `M` and finish them: the tags that they have in `M`, and
what is made of the results. -/
structure Finishing (M : Machine σ τ Op Ans α) (M' : Machine σ τ' Op Ans β) where
  tag : τ' → τ
  finish : τ' → α → β
  body : ∀ t, M'.body t = M.body (tag t) >>= fun a => .ret (finish t a)
  trans : ∀ {t op s ans s'}, M'.trans t op s ans s' → M.trans (tag t) op s ans s'
  interfere : ∀ {s s'}, M'.interfere s s' → M.interfere s s'

namespace Finishing

variable {M : Machine σ τ Op Ans α} {M' : Machine σ τ' Op Ans β} (F : Finishing M M')

/-- The unfinished threads of `M`, whose programs are those of `M'` up to their ends. -/
def inner (l : List (τ' × Program Op Ans α)) : List (τ × Program Op Ans α) :=
  l.map fun x => (F.tag x.1, x.2)

/-- The threads of `M'` for unfinished ones. -/
def outer (l : List (τ' × Program Op Ans α)) : List (τ' × Program Op Ans β) :=
  l.map fun x => (x.1, x.2 >>= fun a => .ret (F.finish x.1 a))

/-- The log of `M` for that of `M'`. -/
def log (L : Log τ' Op Ans) : Log τ Op Ans := L.map fun e => ⟨e.thread, F.tag e.tag, e.op, e.ans⟩

lemma events_log (L : Log τ' Op Ans) (i : ℕ) : Log.events (F.log L) i = Log.events L i := by
  simp only [Log.events, log, List.filter_map, List.map_map]
  rfl

/-- A finished program performs what the program performs. -/
lemma eq_call_of_finished {q : Program Op Ans α} {f : α → β} {op : Op}
    {next : Ans op → Program Op Ans β} (h : (q >>= fun a => .ret (f a)) = .call op next) :
    ∃ next', q = .call op next' ∧ next = fun ans => next' ans >>= fun a => .ret (f a) := by
  cases q with
  | ret a => cases h
  | call op' next' =>
    obtain ⟨rfl, hnext⟩ := Program.call.inj h
    exact ⟨next', rfl, (eq_of_heq hnext).symm⟩

lemma eq_ret_of_finished {q : Program Op Ans α} {f : α → β} {b : β}
    (h : (q >>= fun a => .ret (f a)) = .ret b) : ∃ a, q = .ret a ∧ f a = b := by
  cases q with
  | ret a => exact ⟨a, rfl, Program.ret.inj h⟩
  | call op next => cases h

end Finishing

namespace Machine

variable {M : Machine σ τ Op Ans α} {M' : Machine σ τ' Op Ans β} {s₀ : σ} {p : Pool σ τ' Op Ans β}

/-- **The runs of `M'` are runs of `M`, finished.** -/
theorem Reachable.unfinished (F : Finishing M M') (hp : M'.Reachable s₀ p) :
    ∃ l, p.threads = F.outer l ∧ M.Reachable s₀ ⟨p.state, F.inner l, F.log p.log⟩ := by
  induction hp with
  | refl => exact ⟨[], rfl, .refl⟩
  | @tail p _ _ hstep ih =>
    obtain ⟨l, hthreads, hreach⟩ := ih
    cases hstep with
    | start t =>
      refine ⟨l ++ [(t, M.body (F.tag t))], ?_, ?_⟩
      · rw [hthreads, Finishing.outer, Finishing.outer, List.map_append, F.body]
        rfl
      · have hnext := hreach.tail (Step.start _ (F.tag t))
        rwa [Finishing.inner, List.map_append]
    | @perform i t op next ans s' hi htr =>
      rw [hthreads, Finishing.outer, List.getElem?_map] at hi
      obtain ⟨⟨t', q⟩, hl, heq⟩ := Option.map_eq_some_iff.1 hi
      obtain ⟨rfl, hq⟩ := Prod.mk.inj heq
      obtain ⟨next', rfl, rfl⟩ := Finishing.eq_call_of_finished hq
      have hinner : (F.inner l)[i]? = some (F.tag t', .call op next') := by
        rw [Finishing.inner, List.getElem?_map, hl]
        rfl
      refine ⟨l.set i (t', next' ans), ?_, ?_⟩
      · rw [hthreads, Finishing.outer, Finishing.outer, List.map_set]
      · have hnext := hreach.tail (Step.perform ⟨p.state, F.inner l, F.log p.log⟩ hinner
          (F.trans htr))
        rw [Finishing.inner, List.map_set, Finishing.log, List.map_append]
        exact hnext
    | interfere h => exact ⟨l, hthreads, hreach.tail (Step.interfere _ (F.interfere h))⟩

end Machine

end Interaction
