/-
# Programs with a state of their own

Some of the operations of a program may be answered by a state that nobody else has.  Absorbed
into the program, they are no longer seen from outside: what is left is a program over the other
operations.  A run against surroundings that have this state as a part of theirs is a run of the
program that absorbed it, against the rest of them.

`Mirrors` compares two programs by what is seen of them: whatever they are answered, they perform
the same operations in the same order, and come to related values.
-/
import DigUrnResolver.Interaction.Projection
import Mathlib.Data.List.Forall2

namespace Interaction

variable {σ σ' τ τ' Op : Type} {Ans : Op → Type} {α α' β β' : Type}

namespace Program

/-! ### Absorption -/

/-- The program whose operations are answered from a state of its own, as far as `own` answers
them; its value comes with the last state. -/
def absorb (own : (op : Op) → σ → Option (Ans op × σ)) :
    Program Op Ans α → σ → Program Op Ans (α × σ)
  | ret a, s => ret (a, s)
  | call op next, s =>
    match own op s with
    | some r => absorb own (next r.1) r.2
    | none => call op fun ans => absorb own (next ans) s

/-- Surroundings of which a part answers first. -/
def serve (own : (op : Op) → σ → Option (Ans op × σ)) (h : (op : Op) → σ' → Ans op × σ') (op : Op)
    (s : σ × σ') : Ans op × (σ × σ') :=
  match own op s.1 with
  | some r => (r.1, (r.2, s.2))
  | none => ((h op s.2).1, (s.1, (h op s.2).2))

variable {own : (op : Op) → σ → Option (Ans op × σ)} {h : (op : Op) → σ' → Ans op × σ'}

@[simp] lemma absorb_ret (a : α) (s : σ) :
    absorb own (ret a : Program Op Ans α) s = ret (a, s) := rfl

lemma absorb_call_of_some {op : Op} {next : Ans op → Program Op Ans α} {s : σ} {r : Ans op × σ}
    (hown : own op s = some r) : absorb own (call op next) s = absorb own (next r.1) r.2 := by
  rw [absorb, hown]

lemma absorb_call_of_none {op : Op} {next : Ans op → Program Op Ans α} {s : σ}
    (hown : own op s = none) :
    absorb own (call op next) s = call op fun ans => absorb own (next ans) s := by
  rw [absorb, hown]

lemma absorb_bind (p : Program Op Ans α) (f : α → Program Op Ans β) (s : σ) :
    absorb own (p >>= f) s = absorb own p s >>= fun r => absorb own (f r.1) r.2 := by
  induction p generalizing s with
  | ret a => rfl
  | call op next ih =>
    rw [call_bind]
    cases hown : own op s with
    | some r => rw [absorb_call_of_some hown, absorb_call_of_some hown, ih]
    | none =>
      rw [absorb_call_of_none hown, absorb_call_of_none hown, call_bind]
      exact congrArg (call op) (funext fun ans => ih ans s)

/-- A program that asks its own state for nothing is left as it is. -/
lemma absorb_of_only {p : Program Op Ans α} (hp : p.Only fun op => ∀ s, own op s = none) (s : σ) :
    absorb own p s = p >>= fun a => ret (a, s) := by
  induction p with
  | ret a => rfl
  | call op next ih =>
    rw [absorb_call_of_none (hp.1 s), call_bind]
    exact congrArg (call op) (funext fun ans => ih ans (hp.2 ans))

/-- Of a program that asks its own state for everything, the value is left. -/
lemma absorb_eq_ret {p : Program Op Ans α} (hp : p.Only fun op => ∀ s, own op s ≠ none) (s : σ) :
    ∃ r, absorb own p s = ret r := by
  induction p generalizing s with
  | ret a => exact ⟨_, rfl⟩
  | call op next ih =>
    obtain ⟨r, hown⟩ := Option.ne_none_iff_exists'.1 (hp.1 s)
    rw [absorb_call_of_some hown]
    exact ih _ (hp.2 _) _

/-- What is left to perform is not answered by the state. -/
lemma only_absorb {P Q : Op → Prop} (hown : ∀ op s, P op → own op s = none → Q op)
    {p : Program Op Ans α} (hp : p.Only P) (s : σ) : (absorb own p s).Only Q := by
  induction p generalizing s with
  | ret a => trivial
  | call op next ih =>
    cases hop : own op s with
    | some r =>
      rw [absorb_call_of_some hop]
      exact ih _ (hp.2 _) _
    | none =>
      rw [absorb_call_of_none hop]
      exact ⟨hown op s hp.1 hop, fun ans => ih ans (hp.2 ans) s⟩

/-- **A run of the program that absorbed its part of the surroundings is the run in the whole
surroundings.** -/
lemma run_absorb (p : Program Op Ans α) (s : σ) (u : σ') :
    run (serve own h) p (s, u) =
      ((run h (absorb own p s) u).1.1, ((run h (absorb own p s) u).1.2,
        (run h (absorb own p s) u).2)) := by
  induction p generalizing s u with
  | ret a => rfl
  | call op next ih =>
    rw [run_call]
    cases hown : own op s with
    | some r =>
      rw [absorb_call_of_some hown]
      simp only [serve, hown]
      exact ih _ _ _
    | none =>
      rw [absorb_call_of_none hown, run_call]
      simp only [serve, hown]
      exact ih _ _ _

/-! ### Operations with fixed answers -/

/-- The program in which some operations are not performed, but taken to be answered so. -/
def withFixed (fixed : (op : Op) → Option (Ans op)) : Program Op Ans α → Program Op Ans α
  | ret a => ret a
  | call op next =>
    match fixed op with
    | some ans => withFixed fixed (next ans)
    | none => call op fun ans => withFixed fixed (next ans)

variable {fixed : (op : Op) → Option (Ans op)}

@[simp] lemma withFixed_ret (a : α) :
    withFixed fixed (ret a : Program Op Ans α) = ret a := rfl

lemma withFixed_call_of_some {op : Op} {next : Ans op → Program Op Ans α} {ans : Ans op}
    (hfixed : fixed op = some ans) :
    withFixed fixed (call op next) = withFixed fixed (next ans) := by
  rw [withFixed, hfixed]

lemma withFixed_call_of_none {op : Op} {next : Ans op → Program Op Ans α}
    (hfixed : fixed op = none) :
    withFixed fixed (call op next) = call op fun ans => withFixed fixed (next ans) := by
  rw [withFixed, hfixed]

lemma withFixed_bind (p : Program Op Ans α) (f : α → Program Op Ans β) :
    withFixed fixed (p >>= f) = withFixed fixed p >>= fun a => withFixed fixed (f a) := by
  induction p with
  | ret a => rfl
  | call op next ih =>
    rw [call_bind]
    cases hfixed : fixed op with
    | some ans => rw [withFixed_call_of_some hfixed, withFixed_call_of_some hfixed, ih]
    | none =>
      rw [withFixed_call_of_none hfixed, withFixed_call_of_none hfixed, call_bind]
      exact congrArg (call op) (funext ih)

/-- These operations are not performed any more. -/
lemma only_withFixed (p : Program Op Ans α) :
    (withFixed fixed p).Only fun op => fixed op = none := by
  induction p with
  | ret a => trivial
  | call op next ih =>
    cases hfixed : fixed op with
    | some ans =>
      rw [withFixed_call_of_some hfixed]
      exact ih ans
    | none =>
      rw [withFixed_call_of_none hfixed]
      exact ⟨hfixed, ih⟩

/-- A program without these operations is left as it is. -/
lemma withFixed_of_only {p : Program Op Ans α} (hp : p.Only fun op => fixed op = none) :
    withFixed fixed p = p := by
  induction p with
  | ret a => rfl
  | call op next ih =>
    rw [withFixed_call_of_none hp.1]
    exact congrArg (call op) (funext fun ans => ih ans (hp.2 ans))

/-- Surroundings that give these answers, and are left as they are, need not be asked. -/
lemma run_withFixed {h : (op : Op) → σ → Ans op × σ} {I : σ → Prop}
    (hfixed : ∀ op ans s, I s → fixed op = some ans → h op s = (ans, s))
    (hkeep : ∀ op s, I s → I (h op s).2) (p : Program Op Ans α) {s : σ} (hs : I s) :
    run h (withFixed fixed p) s = run h p s := by
  induction p generalizing s with
  | ret a => rfl
  | call op next ih =>
    cases hop : fixed op with
    | some ans => rw [withFixed_call_of_some hop, run_call, hfixed op ans s hs hop, ih ans hs]
    | none => rw [withFixed_call_of_none hop, run_call, run_call, ih _ (hkeep op s hs)]

/-- The programs perform the same operations whatever these are answered, and come to values in
the relation `R`. -/
inductive Mirrors (R : α → β → Prop) : Program Op Ans α → Program Op Ans β → Prop
  | ret {a : α} {b : β} (h : R a b) : Mirrors R (Program.ret a) (Program.ret b)
  | call {op : Op} {next : Ans op → Program Op Ans α} {next' : Ans op → Program Op Ans β}
      (h : ∀ ans, Mirrors R (next ans) (next' ans)) :
      Mirrors R (Program.call op next) (Program.call op next')

variable {R : α → β → Prop} {R' : α' → β' → Prop}

lemma Mirrors.refl {R : α → α → Prop} (hR : ∀ a, R a a) (p : Program Op Ans α) : Mirrors R p p := by
  induction p with
  | ret a => exact .ret (hR a)
  | call op next ih => exact .call ih

lemma Mirrors.bind {p : Program Op Ans α} {q : Program Op Ans β} {f : α → Program Op Ans α'}
    {g : β → Program Op Ans β'} (h : Mirrors R p q)
    (hfg : ∀ a b, R a b → Mirrors R' (f a) (g b)) : Mirrors R' (p >>= f) (q >>= g) := by
  induction h with
  | ret h => exact hfg _ _ h
  | call h ih => exact .call ih

/-- Programs that look the same begin with the same operation, or have both ended. -/
lemma Mirrors.of_call {op : Op} {next : Ans op → Program Op Ans α} {q : Program Op Ans β}
    (h : Mirrors R (Program.call op next) q) :
    ∃ next', q = Program.call op next' ∧ ∀ ans, Mirrors R (next ans) (next' ans) := by
  cases h with
  | call h => exact ⟨_, rfl, h⟩

end Program

/-! ### Pools that look the same -/

/-- What is seen of an entry of a log: the thread, and the operation with its answer. -/
def Entry.seen (e : Entry τ Op Ans) : ℕ × Event Op Ans := (e.thread, ⟨e.op, e.ans⟩)

/-- A list that corresponds to two lists in a row with an element between them. -/
lemma forall₂_split {R : β → β' → Prop} {l l' : List β} {x : β} {m : List β'}
    (h : List.Forall₂ R (l ++ x :: l') m) : ∃ m₁ y m₂, m = m₁ ++ y :: m₂ ∧
      List.Forall₂ R l m₁ ∧ R x y ∧ List.Forall₂ R l' m₂ := by
  induction l generalizing m with
  | nil =>
    obtain ⟨y, m₂, hy, hm₂, rfl⟩ := List.forall₂_cons_left_iff.1 h
    exact ⟨[], y, m₂, rfl, .nil, hy, hm₂⟩
  | cons a l ih =>
    obtain ⟨b, rest, hb, hrest, rfl⟩ := List.forall₂_cons_left_iff.1 h
    obtain ⟨m₁, y, m₂, rfl, hm₁, hy, hm₂⟩ := ih hrest
    exact ⟨b :: m₁, y, m₂, rfl, .cons hb hm₁, hy, hm₂⟩

/-- **Threads that look the same make up runs that look the same**: whatever happens in a pool may
happen to any threads that mirror its threads. -/
theorem Machine.Reachable.mirror {M : Machine σ τ Op Ans α} {M' : Machine σ τ' Op Ans β}
    {R : τ → τ' → Prop}
    (hbody : ∀ t t', R t t' → (M.body t).Mirrors (fun _ _ => True) (M'.body t'))
    (htrans : ∀ t t' op s ans s', R t t' → M.trans t op s ans s' → M'.trans t' op s ans s')
    (hinterfere : ∀ s s', M.interfere s s' → M'.interfere s s') {s₀ : σ}
    {p : Pool σ τ Op Ans α} (hp : M.Reachable s₀ p) {tags' : List τ'}
    (htags : List.Forall₂ R (Machine.tags p) tags') :
    ∃ p', M'.Reachable s₀ p' ∧ Machine.tags p' = tags' ∧ p'.state = p.state ∧
      p'.log.map Entry.seen = p.log.map Entry.seen ∧
      List.Forall₂ (fun x y => R x.1 y.1 ∧ x.2.Mirrors (fun _ _ => True) y.2) p.threads
        p'.threads := by
  induction hp generalizing tags' with
  | refl =>
    cases htags
    exact ⟨_, .refl, rfl, rfl, rfl, .nil⟩
  | @tail p _ _ hstep ih =>
    cases hstep with
    | start t =>
      rw [Machine.tags, List.map_append] at htags
      obtain ⟨front, last, back, rfl, hfront, hlast, hback⟩ := forall₂_split htags
      cases hback
      obtain ⟨q, hq, rfl, hstate, hlog, hthreads⟩ := ih hfront
      refine ⟨_, hq.tail (Step.start q last), List.map_append, hstate, hlog, ?_⟩
      exact List.rel_append hthreads (.cons ⟨hlast, hbody t last hlast⟩ .nil)
    | @perform i t op next ans s' hi htr =>
      have hsame : Machine.tags (Pool.mk s' (p.threads.set i (t, next ans))
          (p.log ++ [⟨i, t, op, ans⟩])) = Machine.tags p := Machine.tags_set hi _
      rw [hsame] at htags
      obtain ⟨q, hq, rfl, hstate, hlog, hthreads⟩ := ih htags
      rw [← hstate] at htr
      -- the thread that corresponds performs the same operation
      obtain ⟨front, back, hsplit, rfl⟩ := Component.exists_split hi
      rw [hsplit] at hthreads
      obtain ⟨front', ⟨t', q'⟩, back', hsplit', hfront, ⟨ht', hmirrors⟩, hback⟩ :=
        forall₂_split hthreads
      obtain ⟨next', rfl, hnext⟩ := hmirrors.of_call
      have hlength : front'.length = front.length := hfront.length_eq.symm
      have hi' : q.threads[front.length]? = some (t', .call op next') := by
        rw [hsplit', ← hlength]
        simp
      refine ⟨_, hq.tail (Step.perform q hi' (htrans _ _ _ _ _ _ ht' htr)), ?_, rfl, ?_, ?_⟩
      · exact Machine.tags_set hi' _
      · rw [List.map_append, List.map_append, hlog]
        rfl
      · have hset : p.threads.set front.length (t, next ans) = front ++ (t, next ans) :: back := by
          rw [hsplit, List.set_append_right _ _ le_rfl, Nat.sub_self, List.set_cons_zero]
        have hset' : q.threads.set front.length (t', next' ans) =
            front' ++ (t', next' ans) :: back' := by
          rw [hsplit', ← hlength, List.set_append_right _ _ le_rfl, Nat.sub_self,
            List.set_cons_zero]
        show List.Forall₂ _ (p.threads.set _ _) (q.threads.set _ _)
        rw [hset, hset']
        exact List.rel_append hfront (.cons ⟨ht', hnext ans⟩ hback)
    | interfere h =>
      obtain ⟨q, hq, rfl, hstate, hlog, hthreads⟩ := ih htags
      rw [← hstate] at h
      exact ⟨_, hq.tail (Step.interfere q (hinterfere _ _ h)), rfl, rfl, hlog, hthreads⟩

end Interaction
