/-
# Interleaved runs of many programs over one state

A pool holds a shared state, the threads started so far (each with a tag and what is left
of its program) and the log of every operation performed, by whom and with which answer.
A step starts a thread, lets one thread perform its next operation, or lets an
outsider interfere with the state.  Which steps come in which order is open.

Properties of all runs are proved thread by thread.  A `Contract` says what a thread must
establish before an operation (`pre`) and what it may rely on about the answer (`known`),
both relative to the log.  `Program.Sat` is the verification condition of one program, and
`Contract.sound` turns it, together with an invariant of the state, into a property of every
reachable pool.  Since a log only grows, `Sat` is stated for every later log at each
operation; this is what makes it stable under the steps of the other threads.
-/
import DigUrnResolver.Interaction.Program
import Mathlib.Logic.Relation

namespace Interaction

/-- An entry of the log: which thread, with which tag, performed which operation and was
given which answer. -/
structure Entry (τ Op : Type) (Ans : Op → Type) where
  thread : ℕ
  tag : τ
  op : Op
  ans : Ans op

/-- The log of a pool, oldest entry first. -/
abbrev Log (τ Op : Type) (Ans : Op → Type) : Type := List (Entry τ Op Ans)

/-- A shared state, the threads and the log. -/
structure Pool (σ τ Op : Type) (Ans : Op → Type) (α : Type) where
  state : σ
  threads : List (τ × Program Op Ans α)
  log : Log τ Op Ans

variable {σ τ Op : Type} {Ans : Op → Type} {α β : Type}

/-- How a pool moves: `trans` is what an operation of a thread may answer and do to the
state, `body` is the program of a new thread, `interfere` is what outsiders may do. -/
structure Machine (σ τ Op : Type) (Ans : Op → Type) (α : Type) where
  trans : τ → (op : Op) → σ → Ans op → σ → Prop
  body : τ → Program Op Ans α
  interfere : σ → σ → Prop

namespace Machine

variable (M : Machine σ τ Op Ans α)

/-- One step of a pool. -/
inductive Step : Pool σ τ Op Ans α → Pool σ τ Op Ans α → Prop
  | start (p : Pool σ τ Op Ans α) (t : τ) :
      Step p { p with threads := p.threads ++ [(t, M.body t)] }
  | perform (p : Pool σ τ Op Ans α) {i : ℕ} {t : τ} {op : Op} {next : Ans op → Program Op Ans α}
      {ans : Ans op} {s' : σ} (hi : p.threads[i]? = some (t, .call op next))
      (htr : M.trans t op p.state ans s') :
      Step p ⟨s', p.threads.set i (t, next ans), p.log ++ [⟨i, t, op, ans⟩]⟩
  | interfere (p : Pool σ τ Op Ans α) {s' : σ} (h : M.interfere p.state s') :
      Step p { p with state := s' }

/-- The pools that a run from the state `s₀`, without threads, can reach. -/
def Reachable (s₀ : σ) : Pool σ τ Op Ans α → Prop :=
  Relation.ReflTransGen M.Step ⟨s₀, [], []⟩

variable {M}

/-- A property of the state and the log that every operation and every interference keeps. -/
theorem Reachable.invariant {I : σ → Log τ Op Ans → Prop} {s₀ : σ} {p : Pool σ τ Op Ans α}
    (hp : M.Reachable s₀ p) (init : I s₀ [])
    (keep : ∀ i t L op s ans s', I s L → M.trans t op s ans s' → I s' (L ++ [⟨i, t, op, ans⟩]))
    (interfere : ∀ s s' L, I s L → M.interfere s s' → I s' L) : I p.state p.log := by
  induction hp with
  | refl => exact init
  | tail _ hstep ih =>
    cases hstep with
    | start t => exact ih
    | perform hi htr => exact keep _ _ _ _ _ _ _ ih htr
    | interfere h => exact interfere _ _ _ ih h

/-- **Simulation.**  When a machine can follow another one from related states to related states,
with the same answers, a pool of the one is reachable whenever that of the other is. -/
theorem Reachable.follow {σ' : Type} {M' : Machine σ' τ Op Ans α} {R : σ → σ' → Prop}
    (hbody : M.body = M'.body)
    (htrans : ∀ {t op s u ans s'}, R s u → M.trans t op s ans s' →
      ∃ u', M'.trans t op u ans u' ∧ R s' u')
    (hinterfere : ∀ {s u s'}, R s u → M.interfere s s' → ∃ u', M'.interfere u u' ∧ R s' u')
    {s₀ : σ} {u₀ : σ'} (h₀ : R s₀ u₀) {p : Pool σ τ Op Ans α} (hp : M.Reachable s₀ p) :
    ∃ u, M'.Reachable u₀ ⟨u, p.threads, p.log⟩ ∧ R p.state u := by
  induction hp with
  | refl => exact ⟨u₀, .refl, h₀⟩
  | @tail q _ _ hstep ih =>
    obtain ⟨u, hreach, hrel⟩ := ih
    cases hstep with
    | start t =>
      have h := Step.start (M := M') ⟨u, q.threads, q.log⟩ t
      rw [← hbody] at h
      exact ⟨u, hreach.tail h, hrel⟩
    | perform hi htr =>
      obtain ⟨u', htr', hrel'⟩ := htrans hrel htr
      exact ⟨u', hreach.tail (Step.perform _ hi htr'), hrel'⟩
    | interfere h =>
      obtain ⟨u', h', hrel'⟩ := hinterfere hrel h
      exact ⟨u', hreach.tail (Step.interfere _ h'), hrel'⟩

/-- A simulation by a function of the state. -/
theorem Reachable.simulate {σ' : Type} {M' : Machine σ' τ Op Ans α} (f : σ → σ')
    (hbody : M.body = M'.body)
    (htrans : ∀ t op s ans s', M.trans t op s ans s' → M'.trans t op (f s) ans (f s'))
    (hinterfere : ∀ s s', M.interfere s s' → M'.interfere (f s) (f s')) {s₀ : σ}
    {p : Pool σ τ Op Ans α} (hp : M.Reachable s₀ p) :
    M'.Reachable (f s₀) ⟨f p.state, p.threads, p.log⟩ := by
  have hfollow : ∃ u, M'.Reachable (f s₀) ⟨u, p.threads, p.log⟩ ∧ u = f p.state := by
    refine hp.follow (R := fun s u => u = f s) hbody ?_ ?_ rfl
    · rintro t op s _ ans s' rfl htr
      exact ⟨_, htrans _ _ _ _ _ htr, rfl⟩
    · rintro s _ s' rfl h
      exact ⟨_, hinterfere _ _ h, rfl⟩
  obtain ⟨u, hreach, rfl⟩ := hfollow
  exact hreach

/-- One thread may be started and run to its end while all others wait. -/
theorem Reachable.solo {h : (op : Op) → σ → Ans op × σ} {t : τ}
    (htr : ∀ op s, M.trans t op s (h op s).1 (h op s).2) {s₀ : σ} {p : Pool σ τ Op Ans α}
    (hp : M.Reachable s₀ p) :
    M.Reachable s₀ ⟨((M.body t).run h p.state).2,
      p.threads ++ [(t, .ret ((M.body t).run h p.state).1)],
      p.log ++ ((M.body t).script h p.state).map fun e => ⟨p.threads.length, t, e.op, e.ans⟩⟩ := by
  suffices hrun : ∀ (q : Program Op Ans α) (s : σ) (L : Log τ Op Ans),
      M.Reachable s₀ ⟨s, p.threads ++ [(t, q)], L⟩ →
        M.Reachable s₀ ⟨(q.run h s).2, p.threads ++ [(t, .ret (q.run h s).1)],
          L ++ (q.script h s).map fun e => ⟨p.threads.length, t, e.op, e.ans⟩⟩ from
    hrun (M.body t) p.state p.log (hp.tail (Step.start p t))
  intro q
  induction q with
  | ret a =>
    intro s L hL
    simpa [Program.script] using hL
  | call op next ih =>
    intro s L hL
    have hi : (p.threads ++ [(t, Program.call op next)])[p.threads.length]? =
        some (t, .call op next) := by simp
    have hstep := hL.tail (Step.perform _ hi (htr op s))
    have hset : (p.threads ++ [(t, Program.call op next)]).set p.threads.length
        (t, next (h op s).1) = p.threads ++ [(t, next (h op s).1)] := by simp
    rw [hset] at hstep
    have hrest := ih _ _ _ hstep
    rw [List.append_assoc, List.singleton_append] at hrest
    exact hrest

end Machine

/-! ### Contracts -/

/-- What threads promise and rely on, relative to the log. -/
structure Contract (τ Op : Type) (Ans : Op → Type) where
  /-- What a thread establishes before it performs an operation. -/
  pre : ℕ → τ → Log τ Op Ans → Op → Prop
  /-- What holds of the answer of an operation. -/
  known : ℕ → τ → Log τ Op Ans → (op : Op) → Ans op → Prop

/-- The program of the thread `i` with tag `t`, resumed after the log `L`, keeps the contract
and ends with a value that satisfies `post`. -/
def Program.Sat (C : Contract τ Op Ans) (i : ℕ) (t : τ) (post : Log τ Op Ans → α → Prop) :
    Program Op Ans α → Log τ Op Ans → Prop
  | .ret a, L => ∀ L', L <+: L' → post L' a
  | .call op next, L => ∀ L', L <+: L' → C.pre i t L' op ∧
      ∀ ans, C.known i t L' op ans → (next ans).Sat C i t post (L' ++ [⟨i, t, op, ans⟩])

namespace Program

variable {C : Contract τ Op Ans} {i : ℕ} {t : τ} {L L' : Log τ Op Ans}

/-- What a program can rely on after a log, it can rely on after every longer log. -/
lemma Sat.mono {post : Log τ Op Ans → α → Prop} {p : Program Op Ans α} (h : p.Sat C i t post L)
    (hL : L <+: L') : p.Sat C i t post L' := by
  cases p with
  | ret a => exact fun L'' hL'' => h L'' (hL.trans hL'')
  | call op next => exact fun L'' hL'' => h L'' (hL.trans hL'')

lemma Sat.ret {post : Log τ Op Ans → α → Prop} {a : α} (h : ∀ L', L <+: L' → post L' a) :
    (Program.ret a : Program Op Ans α).Sat C i t post L := h

/-- The rule for an operation. -/
lemma Sat.call {post : Log τ Op Ans → α → Prop} {op : Op} {next : Ans op → Program Op Ans α}
    (hpre : ∀ L', L <+: L' → C.pre i t L' op)
    (hnext : ∀ L' ans, L <+: L' → C.known i t L' op ans →
      (next ans).Sat C i t post (L' ++ [⟨i, t, op, ans⟩])) :
    (Program.call op next).Sat C i t post L :=
  fun L' hL' => ⟨hpre L' hL', fun ans hans => hnext L' ans hL' hans⟩

/-- The rule of consequence. -/
lemma Sat.imp {post post' : Log τ Op Ans → α → Prop} {p : Program Op Ans α}
    (h : p.Sat C i t post L) (himp : ∀ L' a, L <+: L' → post L' a → post' L' a) :
    p.Sat C i t post' L := by
  induction p generalizing L with
  | ret a => exact fun L' hL' => himp L' a hL' (h L' hL')
  | call op next ih =>
    intro L' hL'
    obtain ⟨hpre, hnext⟩ := h L' hL'
    refine ⟨hpre, fun ans hans => ih ans (hnext ans hans) ?_⟩
    intro L'' a hL'' ha
    exact himp L'' a (hL'.trans ((List.prefix_append _ _).trans hL'')) ha

/-- What is known of the answers may be strengthened. -/
lemma Sat.assuming {C' : Contract τ Op Ans} {post : Log τ Op Ans → α → Prop}
    {p : Program Op Ans α} (h : p.Sat C i t post L)
    (hpre : ∀ L op, C.pre i t L op → C'.pre i t L op)
    (hknown : ∀ L op ans, C'.known i t L op ans → C.known i t L op ans) :
    p.Sat C' i t post L := by
  induction p generalizing L with
  | ret a => exact h
  | call op next ih =>
    intro L' hL'
    obtain ⟨hop, hnext⟩ := h L' hL'
    exact ⟨hpre L' op hop, fun ans hans => ih ans (hnext ans (hknown L' op ans hans))⟩

/-- A program whose operations are all known to have fixed answers returns its value. -/
lemma Sat.eval {f : (op : Op) → Ans op} {P : Op → Prop} {p : Program Op Ans α} (hp : p.Only P)
    (hpre : ∀ L op, P op → C.pre i t L op)
    (hknown : ∀ L op ans, P op → C.known i t L op ans → ans = f op) :
    p.Sat C i t (fun _ a => a = p.eval f) L := by
  induction p generalizing L with
  | ret a => exact Sat.ret fun _ _ => rfl
  | call op next ih =>
    refine Sat.call (fun L' _ => hpre L' op hp.1) fun L' ans _ hans => ?_
    obtain rfl := hknown L' op ans hp.1 hans
    exact ih _ (hp.2 _)

/-- A program whose operations need no justification has some conversation, of which all is known
that is known of the answers. -/
lemma Sat.exists_trace {P : Op → Prop} {K : (op : Op) → Ans op → Prop} {p : Program Op Ans α}
    (hp : p.Only P) (hpre : ∀ L op, P op → C.pre i t L op)
    (hknown : ∀ L op ans, P op → C.known i t L op ans → K op ans) :
    p.Sat C i t (fun _ a => ∃ s, p.Trace s a ∧ ∀ e ∈ s, K e.op e.ans) L := by
  induction p generalizing L with
  | ret a => exact Sat.ret fun _ _ => ⟨[], .ret a, by simp⟩
  | call op next ih =>
    refine Sat.call (fun L' _ => hpre L' op hp.1) fun L' ans _ hans => ?_
    refine (ih ans (hp.2 ans)).imp fun L'' a _ ⟨s, htrace, hs⟩ => ?_
    refine ⟨⟨op, ans⟩ :: s, .call htrace, fun e he => ?_⟩
    rcases List.mem_cons.1 he with rfl | he
    · exact hknown L' op ans hp.1 hans
    · exact hs e he

/-- The rule for a sequence of two programs. -/
lemma Sat.bind {mid : Log τ Op Ans → α → Prop} {post : Log τ Op Ans → β → Prop}
    {p : Program Op Ans α} {f : α → Program Op Ans β} (h : p.Sat C i t mid L)
    (hf : ∀ L' a, L <+: L' → mid L' a → (f a).Sat C i t post L') :
    (p >>= f).Sat C i t post L := by
  induction p generalizing L with
  | ret a => exact hf L a List.prefix_rfl (h L List.prefix_rfl)
  | call op next ih =>
    intro L' hL'
    obtain ⟨hpre, hnext⟩ := h L' hL'
    refine ⟨hpre, fun ans hans => ih ans (hnext ans hans) ?_⟩
    intro L'' a hL'' ha
    exact hf L'' a (hL'.trans ((List.prefix_append _ _).trans hL'')) ha

end Program

namespace Contract

variable {M : Machine σ τ Op Ans α} {C : Contract τ Op Ans} {s₀ : σ}
  {I : σ → Log τ Op Ans → Prop} {post : ℕ → τ → Log τ Op Ans → α → Prop}

/-- Every entry of a log was performed when its precondition held, and what is known of its
answer is true, both of the log before it. -/
def Kept (C : Contract τ Op Ans) (L : Log τ Op Ans) : Prop :=
  ∀ L₁ e L₂, L = L₁ ++ e :: L₂ →
    C.pre e.thread e.tag L₁ e.op ∧ C.known e.thread e.tag L₁ e.op e.ans

lemma Kept.nil : C.Kept [] := by
  intro L₁ e L₂ h
  simp at h

lemma Kept.snoc {L : Log τ Op Ans} {e : Entry τ Op Ans} (h : C.Kept L)
    (hpre : C.pre e.thread e.tag L e.op) (hknown : C.known e.thread e.tag L e.op e.ans) :
    C.Kept (L ++ [e]) := by
  intro L₁ e' L₂ heq
  rcases List.eq_nil_or_concat L₂ with rfl | ⟨L₃, x, rfl⟩
  · obtain ⟨rfl, hlast⟩ := List.append_inj' heq rfl
    obtain rfl : e = e' := by simpa using hlast
    exact ⟨hpre, hknown⟩
  · refine h L₁ e' L₃ ?_
    rw [List.concat_eq_append, ← List.cons_append, ← List.append_assoc] at heq
    exact (List.append_inj' heq rfl).1

lemma Kept.of_prefix {L L' : Log τ Op Ans} (h : C.Kept L') (hL : L <+: L') : C.Kept L := by
  intro L₁ e L₂ heq
  obtain ⟨rest, rfl⟩ := hL
  exact h L₁ e (L₂ ++ rest) (by rw [heq, List.append_assoc, List.cons_append])

/-- The contract for one entry, relative to the log before it. -/
lemma Kept.of_mem {L : Log τ Op Ans} {e : Entry τ Op Ans} (h : C.Kept L) (he : e ∈ L) :
    ∃ L₁, L₁ <+: L ∧ C.pre e.thread e.tag L₁ e.op ∧ C.known e.thread e.tag L₁ e.op e.ans := by
  obtain ⟨L₁, L₂, hL⟩ := List.append_of_mem he
  exact ⟨L₁, hL ▸ List.prefix_append _ _, h L₁ e L₂ hL⟩

/-- What the rules establish of a pool: the invariant of the state, the contract for the log,
and the verification condition of each thread for the rest of its program. -/
structure Holds (C : Contract τ Op Ans) (I : σ → Log τ Op Ans → Prop)
    (post : ℕ → τ → Log τ Op Ans → α → Prop) (p : Pool σ τ Op Ans α) : Prop where
  inv : I p.state p.log
  kept : C.Kept p.log
  sat : ∀ i t (q : Program Op Ans α), p.threads[i]? = some (t, q) →
    q.Sat C i t (post i t) p.log

/-- **Soundness of the rules.**  If the invariant holds of the initial state, is kept by every
operation that meets its precondition and by every interference, and justifies what is
`known` of each answer, and if every thread meets its verification condition, then the
contract is kept in all interleavings. -/
theorem sound (init : I s₀ [])
    (answer : ∀ i t L op s ans s', I s L → C.pre i t L op → M.trans t op s ans s' →
      C.known i t L op ans)
    (keep : ∀ i t L op s ans s', I s L → C.pre i t L op → M.trans t op s ans s' →
      I s' (L ++ [⟨i, t, op, ans⟩]))
    (interfere : ∀ s s' L, I s L → M.interfere s s' → I s' L)
    (body : ∀ i t L, (M.body t).Sat C i t (post i t) L)
    {p : Pool σ τ Op Ans α} (hp : M.Reachable s₀ p) : C.Holds I post p := by
  induction hp with
  | refl => exact ⟨init, Kept.nil, by simp⟩
  | @tail p _ _ hstep ih =>
    obtain ⟨hinv, hkept, hsat⟩ := ih
    cases hstep with
    | start t =>
      refine ⟨hinv, hkept, fun i t' q hi => ?_⟩
      rcases Nat.lt_trichotomy i p.threads.length with hlt | rfl | hgt
      · rw [List.getElem?_append_left hlt] at hi
        exact hsat i t' q hi
      · simp only [List.getElem?_concat_length, Option.some.injEq, Prod.mk.injEq] at hi
        obtain ⟨rfl, rfl⟩ := hi
        exact body _ _ _
      · rw [List.getElem?_eq_none (by simp; omega)] at hi
        exact absurd hi (by simp)
    | @perform i t op next ans s' hi htr =>
      obtain ⟨hpre, hnext⟩ := hsat i t _ hi _ List.prefix_rfl
      have hknown := answer i t p.log op p.state ans s' hinv hpre htr
      refine ⟨keep i t p.log op p.state ans s' hinv hpre htr, hkept.snoc hpre hknown, ?_⟩
      intro j t' q hj
      by_cases hij : i = j
      · subst hij
        have hlt : i < p.threads.length := (List.getElem?_eq_some_iff.1 hi).1
        rw [List.getElem?_set_self hlt, Option.some.injEq, Prod.mk.injEq] at hj
        obtain ⟨rfl, rfl⟩ := hj
        exact hnext ans hknown
      · rw [List.getElem?_set_ne hij] at hj
        exact (hsat j t' q hj).mono (List.prefix_append _ _)
    | interfere h => exact ⟨interfere _ _ _ hinv h, hkept, hsat⟩

end Contract

end Interaction
