/-
# One component of many

A machine may consist of several components, each with its own threads and its own part of the
state.  The threads of one component, with all others forgotten, make up a run of that component,
in which whatever the others do counts as interference.  So what holds of a component among
outsiders holds of it among its likes.
-/
import DigUrnResolver.Interaction.Threads

namespace Interaction

variable {σ σ' τ τ' Op : Type} {Ans : Op → Type} {α : Type}

/-- A component `M'` of a machine `M`: the tags that its threads have in `M'`, its part of the
state, and why whatever happens in `M` may happen to it in `M'`. -/
structure Component (M : Machine σ τ Op Ans α) (M' : Machine σ' τ' Op Ans α) where
  keep : τ → Option τ'
  view : σ → σ'
  body : ∀ {t t'}, keep t = some t' → M.body t = M'.body t'
  own : ∀ {t t' op s ans s'}, keep t = some t' → M.trans t op s ans s' →
    M'.trans t' op (view s) ans (view s')
  other : ∀ {t op s ans s'}, keep t = none → M.trans t op s ans s' →
    M'.interfere (view s) (view s')
  interfere : ∀ {s s'}, M.interfere s s' → M'.interfere (view s) (view s')

namespace Component

variable {M : Machine σ τ Op Ans α} {M' : Machine σ' τ' Op Ans α} (C : Component M M')

/-- The threads of the component. -/
def threads (l : List (τ × Program Op Ans α)) : List (τ' × Program Op Ans α) :=
  l.filterMap fun x => (C.keep x.1).map fun t' => (t', x.2)

/-- The number that the thread `i` has in the component. -/
def rank (tags : List τ) (i : ℕ) : ℕ := ((tags.take i).filterMap C.keep).length

/-- The entry of the component for an entry of the log. -/
def entry (tags : List τ) (e : Entry τ Op Ans) : Option (Entry τ' Op Ans) :=
  (C.keep e.tag).map fun t' => ⟨C.rank tags e.thread, t', e.op, e.ans⟩

/-- The pool of the component. -/
def pool (p : Pool σ τ Op Ans α) : Pool σ' τ' Op Ans α where
  state := C.view p.state
  threads := C.threads p.threads
  log := p.log.filterMap (C.entry (Machine.tags p))

/-! ### Lists of threads -/

lemma threads_append (l l' : List (τ × Program Op Ans α)) :
    C.threads (l ++ l') = C.threads l ++ C.threads l' := List.filterMap_append

lemma threads_cons_of_keep {t : τ} {t' : τ'} (h : C.keep t = some t') (q : Program Op Ans α)
    (l : List (τ × Program Op Ans α)) : C.threads ((t, q) :: l) = (t', q) :: C.threads l := by
  rw [threads, List.filterMap_cons, h]
  rfl

lemma threads_cons_of_drop {t : τ} (h : C.keep t = none) (q : Program Op Ans α)
    (l : List (τ × Program Op Ans α)) : C.threads ((t, q) :: l) = C.threads l := by
  rw [threads, List.filterMap_cons, h]
  rfl

/-- The threads in front of a thread give its number. -/
lemma rank_eq_length (l l' : List (τ × Program Op Ans α)) :
    C.rank ((l ++ l').map Prod.fst) l.length = (C.threads l).length := by
  have htake : ((l ++ l').map Prod.fst).take l.length = l.map Prod.fst := by
    rw [List.map_append, List.take_append_of_le_length (by simp), List.take_of_length_le (by simp)]
  have hfst : (C.threads l).map Prod.fst = (l.map Prod.fst).filterMap C.keep := by
    induction l with
    | nil => rfl
    | cons x l ih =>
      obtain ⟨t, q⟩ := x
      cases h : C.keep t with
      | none =>
        rw [C.threads_cons_of_drop h, List.map_cons, List.filterMap_cons_none h]
        exact ih (by simp)
      | some t' =>
        rw [C.threads_cons_of_keep h, List.map_cons, List.map_cons, List.filterMap_cons_some h]
        exact congrArg (t' :: ·) (ih (by simp))
  rw [rank, htake, ← hfst, List.length_map]

/-- More threads do not change the number of a thread. -/
lemma rank_append {tags : List τ} {i : ℕ} (h : i < tags.length) (rest : List τ) :
    C.rank (tags ++ rest) i = C.rank tags i := by
  rw [rank, rank, List.take_append_of_le_length h.le]

/-- A list is cut at one of its elements. -/
lemma exists_split {β : Type} {l : List β} {i : ℕ} {x : β} (h : l[i]? = some x) :
    ∃ front back, l = front ++ x :: back ∧ front.length = i := by
  obtain ⟨hlt, rfl⟩ := List.getElem?_eq_some_iff.1 h
  refine ⟨l.take i, l.drop (i + 1), ?_, List.length_take_of_le hlt.le⟩
  rw [← List.drop_eq_getElem_cons hlt, List.take_append_drop]

/-! ### Runs -/

/-- The log of the component does not change when a thread is started. -/
lemma log_start {p : Pool σ τ Op Ans α} (htagged : ∀ e ∈ p.log, (Machine.tags p)[e.thread]? = some e.tag)
    (rest : List τ) :
    p.log.filterMap (C.entry (Machine.tags p ++ rest)) = p.log.filterMap (C.entry (Machine.tags p)) := by
  refine List.filterMap_congr fun e he => ?_
  have hlt := (List.getElem?_eq_some_iff.1 (htagged e he)).1
  rw [entry, entry, C.rank_append hlt]

end Component

/-- **The threads of a component make up a run of it.** -/
theorem Machine.Reachable.project {M : Machine σ τ Op Ans α} {M' : Machine σ' τ' Op Ans α}
    (C : Component M M') {s₀ : σ} {p : Pool σ τ Op Ans α} (hp : M.Reachable s₀ p) :
    M'.Reachable (C.view s₀) (C.pool p) := by
  induction hp with
  | refl => exact .refl
  | @tail p _ hreach hstep ih =>
    have htagged := Machine.Reachable.tagged hreach
    cases hstep with
    | start t =>
      have hlog := C.log_start htagged [t]
      have htags : Machine.tags { p with threads := p.threads ++ [(t, M.body t)] } =
          Machine.tags p ++ [t] := List.map_append
      cases hkeep : C.keep t with
      | none =>
        have hpool : C.pool { p with threads := p.threads ++ [(t, M.body t)] } = C.pool p := by
          rw [Component.pool, Component.pool, htags, hlog, C.threads_append,
            C.threads_cons_of_drop hkeep]
          exact congrArg (Pool.mk _ · _) (List.append_nil _)
        rw [hpool]
        exact ih
      | some t' =>
        have hpool : C.pool { p with threads := p.threads ++ [(t, M.body t)] } =
            { C.pool p with threads := (C.pool p).threads ++ [(t', M'.body t')] } := by
          rw [Component.pool, htags, hlog, C.threads_append, C.threads_cons_of_keep hkeep,
            C.body hkeep]
          rfl
        rw [hpool]
        exact ih.tail (Step.start _ t')
    | @perform i t op next ans s' hi htr =>
      obtain ⟨front, back, hsplit, rfl⟩ := Component.exists_split hi
      have hset : p.threads.set front.length (t, next ans) = front ++ (t, next ans) :: back := by
        rw [hsplit, List.set_append_right _ _ le_rfl, Nat.sub_self, List.set_cons_zero]
      have htags : Machine.tags (Pool.mk s' (p.threads.set front.length (t, next ans))
          (p.log ++ [⟨front.length, t, op, ans⟩])) = Machine.tags p := Machine.tags_set hi _
      cases hkeep : C.keep t with
      | none =>
        have hpool : C.pool ⟨s', p.threads.set front.length (t, next ans),
            p.log ++ [⟨front.length, t, op, ans⟩]⟩ = { C.pool p with state := C.view s' } := by
          rw [Component.pool, Component.pool, htags, List.filterMap_append]
          rw [hset, hsplit, C.threads_append, C.threads_cons_of_drop hkeep, C.threads_append,
            C.threads_cons_of_drop hkeep]
          simp [Component.entry, hkeep]
        rw [hpool]
        exact ih.tail (Step.interfere _ (C.other hkeep htr))
      | some t' =>
        have hrank : C.rank (Machine.tags p) front.length = (C.threads front).length := by
          rw [Machine.tags, hsplit]
          exact C.rank_eq_length front _
        have hthreads : (C.pool p).threads =
            C.threads front ++ (t', .call op next) :: C.threads back := by
          show C.threads p.threads = _
          rw [hsplit, C.threads_append, C.threads_cons_of_keep hkeep]
        have hi' : (C.pool p).threads[(C.threads front).length]? = some (t', .call op next) := by
          rw [hthreads]
          simp
        have hpool : C.pool ⟨s', p.threads.set front.length (t, next ans),
            p.log ++ [⟨front.length, t, op, ans⟩]⟩ =
            ⟨C.view s', (C.pool p).threads.set (C.threads front).length (t', next ans),
              (C.pool p).log ++ [⟨(C.threads front).length, t', op, ans⟩]⟩ := by
          rw [hthreads, List.set_append_right _ _ le_rfl, Nat.sub_self, List.set_cons_zero,
            Component.pool, htags, List.filterMap_append, hset, C.threads_append,
            C.threads_cons_of_keep hkeep]
          simp [Component.pool, Component.entry, hkeep, hrank]
        rw [hpool]
        exact ih.tail (Step.perform _ hi' (C.own hkeep htr))
    | interfere h => exact ih.tail (Step.interfere _ (C.interfere h))

/-! ### A thread that is a component of its own -/

namespace Component

variable {M : Machine σ τ Op Ans α} {M' : Machine σ' τ' Op Ans α} (C : Component M M')

/-- When a single thread belongs to a component, its run consists of what this thread does. -/
lemma pool_eq_of_single {s₀ : σ} {p : Pool σ τ Op Ans α} (hp : M.Reachable s₀ p) {i : ℕ} {t : τ}
    {t' : τ'} {q : Program Op Ans α} (hi : p.threads[i]? = some (t, q)) (hkeep : C.keep t = some t')
    (hothers : ∀ j x, p.threads[j]? = some x → j ≠ i → C.keep x.1 = none) :
    C.pool p = ⟨C.view p.state, [(t', q)], (Log.events p.log i).map fun e => ⟨0, t', e.op, e.ans⟩⟩ := by
  obtain ⟨front, back, hsplit, hlength⟩ := exists_split hi
  have hfront : C.threads front = [] := by
    rw [threads, List.filterMap_eq_nil_iff]
    intro x hx
    obtain ⟨j, hj, rfl⟩ := List.getElem_of_mem hx
    rw [hothers j _ ?_ (by omega), Option.map_none]
    rw [hsplit, List.getElem?_append_left hj, List.getElem?_eq_getElem hj]
  have hback : C.threads back = [] := by
    rw [threads, List.filterMap_eq_nil_iff]
    intro x hx
    obtain ⟨j, hj, rfl⟩ := List.getElem_of_mem hx
    rw [hothers (front.length + (j + 1)) _ ?_ (by omega), Option.map_none]
    rw [hsplit, List.getElem?_append_right (by omega), Nat.add_sub_cancel_left,
      List.getElem?_cons_succ, List.getElem?_eq_getElem hj]
  have hthreads : C.threads p.threads = [(t', q)] := by
    rw [hsplit, C.threads_append, C.threads_cons_of_keep hkeep, hfront, hback]
    rfl
  have hrank : C.rank (Machine.tags p) i = 0 := by
    have hlen := C.rank_eq_length front ((t, q) :: back)
    rw [hfront, ← hsplit, hlength] at hlen
    exact hlen
  have hlog : p.log.filterMap (C.entry (Machine.tags p)) =
      (Log.events p.log i).map fun e => ⟨0, t', e.op, e.ans⟩ := by
    rw [Log.events, List.map_map, ← List.filterMap_eq_map, List.filterMap_filter]
    refine List.filterMap_congr fun e he => ?_
    have htag := Machine.Reachable.tagged hp e he
    rw [Machine.tags, List.getElem?_map] at htag
    obtain ⟨x, hx, hfst⟩ := Option.map_eq_some_iff.1 htag
    by_cases hthread : e.thread = i
    · rw [hthread, hi] at hx
      obtain rfl := Option.some.inj hx
      rw [entry, ← hfst, hkeep, hthread, hrank]
      simp
    · rw [entry, ← hfst, hothers _ x hx hthread]
      simp [hthread]
  rw [pool, hthreads, hlog]

end Component

end Interaction
