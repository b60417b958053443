/-
# The threads of an interleaved run

What one thread does in an interleaved run is a conversation of its program, whatever the others
do in between: `Machine.Reachable.resumes`.  And the threads of one component, with all others
forgotten, make up a run of that component, in which the others are outsiders:
`Machine.Reachable.project`.
-/
import DigUrnResolver.Interaction.Pool
import Mathlib.Data.List.Basic

namespace Interaction

variable {σ σ' τ τ' Op : Type} {Ans : Op → Type} {α : Type}

/-! ### Conversations that are not over -/

namespace Program

/-- `Resumes p t q` : asked by `p`, the surroundings gave the answers recorded in `t`, and `q` is
what is left of the program. -/
inductive Resumes (p : Program Op Ans α) : List (Event Op Ans) → Program Op Ans α → Prop
  | start : Resumes p [] p
  | snoc {t : List (Event Op Ans)} {op : Op} {next : Ans op → Program Op Ans α}
      (h : Resumes p t (call op next)) (ans : Ans op) : Resumes p (t ++ [⟨op, ans⟩]) (next ans)

variable {p q : Program Op Ans α} {t t' : List (Event Op Ans)} {a : α}

/-- What is left of the program finishes the conversation. -/
lemma Resumes.trace (h : Resumes p t q) (hrest : Trace q t' a) : Trace p (t ++ t') a := by
  induction h generalizing t' with
  | start => exact hrest
  | snoc h ans ih =>
    rw [List.append_assoc, List.singleton_append]
    exact ih (Trace.call hrest)

/-- A program that has returned has had a conversation. -/
lemma Resumes.trace_of_ret (h : Resumes p t (ret a)) : Trace p t a := by
  have htrace := h.trace (Trace.ret a)
  rwa [List.append_nil] at htrace

/-- Every conversation can be brought to an end, with any answers. -/
lemma Resumes.exists_trace (h : Resumes p t q) (f : (op : Op) → Ans op) :
    ∃ t' a, Trace p (t ++ t') a ∧ ∀ e ∈ t', e.ans = f e.op := by
  obtain ⟨t', a, hrest, hans⟩ := Program.exists_trace f q
  exact ⟨t', a, h.trace hrest, hans⟩

/-- What is left of a program performs no other operations than the program. -/
lemma Resumes.of_only {P : Op → Prop} (h : Resumes p t q) (hp : p.Only P) :
    (∀ e ∈ t, P e.op) ∧ q.Only P := by
  induction h with
  | start => exact ⟨fun e he => absurd he List.not_mem_nil, hp⟩
  | snoc _ ans ih =>
    obtain ⟨hdone, hop, hnext⟩ := ih
    refine ⟨fun e he => ?_, hnext ans⟩
    rcases List.mem_append.1 he with he | he
    · exact hdone e he
    · obtain rfl := List.mem_singleton.1 he
      exact hop

end Program

/-! ### One thread -/

/-- What the thread `i` did. -/
def Log.events (L : Log τ Op Ans) (i : ℕ) : List (Event Op Ans) :=
  (L.filter fun e => e.thread = i).map fun e => ⟨e.op, e.ans⟩

namespace Log

variable {L : Log τ Op Ans} {i : ℕ}

lemma events_append (L L' : Log τ Op Ans) (i : ℕ) :
    events (L ++ L') i = events L i ++ events L' i := by
  rw [events, List.filter_append, List.map_append]
  rfl

lemma events_singleton (e : Entry τ Op Ans) (i : ℕ) :
    events [e] i = if e.thread = i then [⟨e.op, e.ans⟩] else [] := by
  rw [events, List.filter_singleton]
  by_cases h : e.thread = i <;> simp [h]

lemma events_snoc_self (e : Entry τ Op Ans) :
    events (L ++ [e]) e.thread = events L e.thread ++ [⟨e.op, e.ans⟩] := by
  rw [events_append, events_singleton, if_pos rfl]

lemma events_snoc_of_ne {e : Entry τ Op Ans} (h : e.thread ≠ i) :
    events (L ++ [e]) i = events L i := by
  rw [events_append, events_singleton, if_neg h, List.append_nil]

lemma mem_events {e : Event Op Ans} :
    e ∈ L.events i ↔ ∃ t, (⟨i, t, e.op, e.ans⟩ : Entry τ Op Ans) ∈ L := by
  rw [events, List.mem_map]
  constructor
  · rintro ⟨⟨j, t, op, ans⟩, he, rfl⟩
    obtain ⟨hmem, hj⟩ := List.mem_filter.1 he
    obtain rfl : j = i := of_decide_eq_true hj
    exact ⟨t, hmem⟩
  · rintro ⟨t, hmem⟩
    exact ⟨_, List.mem_filter.2 ⟨hmem, decide_eq_true rfl⟩, rfl⟩

/-- When no thread did more than `n` of a kind of operations, all together did not do more than `n`
for each thread. -/
lemma length_filter_le {P : Op → Prop} [DecidablePred P] {k n : ℕ} (hk : ∀ e ∈ L, e.thread < k)
    (hn : ∀ i, ((L.events i).filter fun e => P e.op).length ≤ n) :
    (L.filter fun e => P e.op).length ≤ k * n := by
  induction k generalizing L with
  | zero =>
    have hnil : L = [] := List.eq_nil_iff_forall_not_mem.2 fun e he => absurd (hk e he) (by omega)
    simp [hnil]
  | succ k ih =>
    -- the entries of the last thread, and those of the others
    have hlast : ((L.filter fun e => e.thread = k).filter fun e => P e.op).length ≤ n := by
      refine le_of_eq_of_le ?_ (hn k)
      rw [events, List.filter_map, List.length_map]
      rfl
    have hothers : ((L.filter fun e => ¬ e.thread = k).filter fun e => P e.op).length ≤ k * n := by
      refine ih ?_ ?_
      · intro e he
        obtain ⟨hmem, hne⟩ := List.mem_filter.1 he
        have hlt := hk e hmem
        have hne' : e.thread ≠ k := of_decide_eq_true hne
        omega
      · intro i
        refine le_trans ?_ (hn i)
        refine (List.Sublist.filter _ ?_).length_le
        rw [events, events]
        exact ((List.filter_sublist).filter _).map _
    have hsum : (L.filter fun e => P e.op).length =
        ((L.filter fun e => e.thread = k).filter fun e => P e.op).length +
          ((L.filter fun e => ¬ e.thread = k).filter fun e => P e.op).length := by
      rw [List.length_eq_length_filter_add fun e => decide (e.thread = k)]
      simp only [List.filter_filter, Bool.and_comm, decide_not]
    rw [hsum, Nat.succ_mul]
    omega

end Log

namespace Machine

variable {M : Machine σ τ Op Ans α} {s₀ : σ} {p : Pool σ τ Op Ans α}

/-- The tags of the threads. -/
def tags (p : Pool σ τ Op Ans α) : List τ := p.threads.map Prod.fst

/-- A step of a thread leaves the tags as they are. -/
lemma tags_set {threads : List (τ × Program Op Ans α)} {i : ℕ} {t : τ} {q : Program Op Ans α}
    (hi : threads[i]? = some (t, q)) (q' : Program Op Ans α) :
    (threads.set i (t, q')).map Prod.fst = threads.map Prod.fst := by
  have hti : (threads.map Prod.fst)[i]? = some t := by
    rw [List.getElem?_map, hi]
    rfl
  obtain ⟨hlt, hget⟩ := List.getElem?_eq_some_iff.1 hti
  rw [List.map_set, ← hget]
  exact List.set_getElem_self hlt

/-- Every entry of the log belongs to a thread with its tag. -/
lemma Reachable.tagged (hp : M.Reachable s₀ p) :
    ∀ e ∈ p.log, (tags p)[e.thread]? = some e.tag := by
  induction hp with
  | refl => exact fun e he => absurd he List.not_mem_nil
  | @tail p _ _ hstep ih =>
    cases hstep with
    | start t =>
      intro e he
      have hold := ih e he
      have hlt := (List.getElem?_eq_some_iff.1 hold).1
      rw [tags] at hlt ⊢
      rw [List.map_append, List.getElem?_append_left hlt]
      exact hold
    | @perform i t op next ans s' hi htr =>
      intro e he
      rw [tags, tags_set hi]
      rcases List.mem_append.1 he with he | he
      · exact ih e he
      · obtain rfl := List.mem_singleton.1 he
        rw [List.getElem?_map, hi]
        rfl
    | interfere h => exact ih

/-- **What a thread does is a conversation of its program**, as far as it has come. -/
theorem Reachable.resumes (hp : M.Reachable s₀ p) {i : ℕ} {t : τ} {q : Program Op Ans α}
    (hi : p.threads[i]? = some (t, q)) : (M.body t).Resumes (p.log.events i) q := by
  induction hp generalizing i t q with
  | refl => simp at hi
  | @tail p _ hreach hstep ih =>
    cases hstep with
    | start t' =>
      rcases Nat.lt_trichotomy i p.threads.length with hlt | rfl | hgt
      · rw [List.getElem?_append_left hlt] at hi
        exact ih hi
      · simp only [List.getElem?_concat_length, Option.some.injEq, Prod.mk.injEq] at hi
        obtain ⟨rfl, rfl⟩ := hi
        -- no entry of the log is older than its thread
        have hnone : Log.events p.log p.threads.length = [] := by
          rw [Log.events, List.map_eq_nil_iff, List.filter_eq_nil_iff]
          intro e he heq
          have htag := Reachable.tagged hreach e he
          have hlt := (List.getElem?_eq_some_iff.1 htag).1
          rw [of_decide_eq_true heq, tags, List.length_map] at hlt
          exact absurd hlt (lt_irrefl _)
        show (M.body t').Resumes (Log.events p.log p.threads.length) (M.body t')
        rw [hnone]
        exact .start
      · rw [List.getElem?_eq_none (by simp; omega)] at hi
        exact absurd hi (by simp)
    | @perform j t' op next ans s' hj htr =>
      by_cases hij : j = i
      · subst hij
        have hlt : j < p.threads.length := (List.getElem?_eq_some_iff.1 hj).1
        rw [List.getElem?_set_self hlt, Option.some.injEq, Prod.mk.injEq] at hi
        obtain ⟨rfl, rfl⟩ := hi
        rw [Log.events_snoc_self ⟨j, t', op, ans⟩]
        exact .snoc (ih hj) ans
      · rw [List.getElem?_set_ne hij] at hi
        rw [Log.events_snoc_of_ne hij]
        exact ih hi
    | interfere h => exact ih hi

/-- Only operations of the programs are performed. -/
lemma Reachable.of_only {P : Op → Prop} (hp : M.Reachable s₀ p) (hbody : ∀ t, (M.body t).Only P) :
    ∀ e ∈ p.log, P e.op := by
  intro e he
  have htag := hp.tagged e he
  rw [tags, List.getElem?_map] at htag
  obtain ⟨⟨t, q⟩, hi, -⟩ := Option.map_eq_some_iff.1 htag
  have hdone := ((hp.resumes hi).of_only (hbody t)).1
  exact hdone ⟨e.op, e.ans⟩ (Log.mem_events.2 ⟨e.tag, he⟩)

/-- What a thread did stands in the log under its tag. -/
lemma Reachable.mem_log (hp : M.Reachable s₀ p) {i : ℕ} {t : τ} {q : Program Op Ans α}
    (hi : p.threads[i]? = some (t, q)) {e : Event Op Ans} (he : e ∈ p.log.events i) :
    (⟨i, t, e.op, e.ans⟩ : Entry τ Op Ans) ∈ p.log := by
  obtain ⟨t', hmem⟩ := Log.mem_events.1 he
  have htag := hp.tagged _ hmem
  rw [tags, List.getElem?_map, hi] at htag
  obtain rfl : t = t' := Option.some.inj htag
  exact hmem

/-- A thread that has ended has had a conversation. -/
lemma Reachable.trace (hp : M.Reachable s₀ p) {i : ℕ} {t : τ} {a : α}
    (hi : p.threads[i]? = some (t, .ret a)) : (M.body t).Trace (p.log.events i) a :=
  (hp.resumes hi).trace_of_ret

end Machine

end Interaction
