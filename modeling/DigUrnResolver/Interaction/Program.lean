/-
# Programs that interact with their surroundings

A program either returns a value or performs an operation and goes on with the answer.
The tree of all its possible continuations is an inductive type, so every program comes
to an end whatever it is answered; what the answers are is left open.  Three ways of
running a program are given:

* `Program.Trace` : the finished conversations of a program, whoever answers;
* `Program.run` : the run against a deterministic surrounding with a state;
* the interleaved runs of many programs over one state, in `Interaction/Pool.lean`.
-/
import Mathlib.Data.List.Basic
import Mathlib.Data.List.Infix

namespace Interaction

/-- A program over the operations `Op`, whose answers have the types `Ans`. -/
inductive Program (Op : Type) (Ans : Op → Type) (α : Type) : Type
  | ret (a : α)
  | call (op : Op) (next : Ans op → Program Op Ans α)

/-- An operation together with the answer it was given. -/
structure Event (Op : Type) (Ans : Op → Type) where
  op : Op
  ans : Ans op

namespace Program

variable {Op : Type} {Ans : Op → Type} {α β γ σ : Type}

/-- Run one program after the other. -/
def bind : Program Op Ans α → (α → Program Op Ans β) → Program Op Ans β
  | ret a, f => f a
  | call op next, f => call op fun x => (next x).bind f

instance : Monad (Program Op Ans) where
  pure := ret
  bind := bind

/-- The program that performs a single operation. -/
def perform (op : Op) : Program Op Ans (Ans op) := call op ret

@[simp] lemma pure_eq (a : α) : (pure a : Program Op Ans α) = ret a := rfl

@[simp] lemma ret_bind (a : α) (f : α → Program Op Ans β) : (ret a >>= f) = f a := rfl

@[simp] lemma call_bind (op : Op) (next : Ans op → Program Op Ans α) (f : α → Program Op Ans β) :
    (call op next >>= f) = call op fun x => next x >>= f := rfl

@[simp] lemma perform_bind (op : Op) (f : Ans op → Program Op Ans β) :
    (perform op >>= f) = call op f := rfl

lemma bind_assoc (p : Program Op Ans α) (f : α → Program Op Ans β) (g : β → Program Op Ans γ) :
    (p >>= f) >>= g = p >>= fun a => f a >>= g := by
  induction p with
  | ret a => rfl
  | call op next ih => exact congrArg (call op) (funext ih)

/-! ### Conversations -/

/-- `Trace p t a` : asked by the program `p`, the surroundings gave the answers recorded
in `t`, in this order, and the program ended with the value `a`. -/
inductive Trace : Program Op Ans α → List (Event Op Ans) → α → Prop
  | ret (a : α) : Trace (ret a) [] a
  | call {op : Op} {next : Ans op → Program Op Ans α} {ans : Ans op} {t : List (Event Op Ans)}
      {a : α} (h : Trace (next ans) t a) : Trace (call op next) (⟨op, ans⟩ :: t) a

@[simp] lemma trace_ret_iff {a b : α} {t : List (Event Op Ans)} :
    Trace (ret a) t b ↔ t = [] ∧ b = a := by
  constructor
  · rintro ⟨⟩
    exact ⟨rfl, rfl⟩
  · rintro ⟨rfl, rfl⟩
    exact Trace.ret _

lemma trace_call_iff {op : Op} {next : Ans op → Program Op Ans α} {t : List (Event Op Ans)}
    {b : α} : Trace (call op next) t b ↔ ∃ ans t', t = ⟨op, ans⟩ :: t' ∧ Trace (next ans) t' b := by
  constructor
  · rintro ⟨⟩
    exact ⟨_, _, rfl, ‹_›⟩
  · rintro ⟨ans, t', rfl, h⟩
    exact Trace.call h

/-- The conversation of a sequence of two programs is cut in two at the point where the
first one ends. -/
lemma trace_bind_iff {p : Program Op Ans α} {f : α → Program Op Ans β}
    {t : List (Event Op Ans)} {b : β} :
    Trace (p >>= f) t b ↔ ∃ a t₁ t₂, t = t₁ ++ t₂ ∧ Trace p t₁ a ∧ Trace (f a) t₂ b := by
  induction p generalizing t with
  | ret a =>
    simp only [ret_bind, trace_ret_iff]
    constructor
    · intro h
      exact ⟨a, [], t, rfl, ⟨rfl, rfl⟩, h⟩
    · rintro ⟨a', t₁, t₂, rfl, ⟨rfl, rfl⟩, h⟩
      exact h
  | call op next ih =>
    simp only [call_bind, trace_call_iff, ih]
    constructor
    · rintro ⟨ans, t', rfl, a, t₁, t₂, rfl, h₁, h₂⟩
      exact ⟨a, ⟨op, ans⟩ :: t₁, t₂, rfl, ⟨ans, t₁, rfl, h₁⟩, h₂⟩
    · rintro ⟨a, t₁, t₂, rfl, ⟨ans, t', rfl, h₁⟩, h₂⟩
      exact ⟨ans, t' ++ t₂, rfl, a, t', t₂, rfl, h₁, h₂⟩

/-- The answers determine the value. -/
lemma Trace.unique {p : Program Op Ans α} {t : List (Event Op Ans)} {a b : α} (h : Trace p t a)
    (h' : Trace p t b) : a = b := by
  induction h with
  | ret a =>
    cases h'
    rfl
  | call h ih =>
    cases h' with
    | call h' => exact ih h'

/-- Two programs in a row. -/
lemma Trace.bind {p : Program Op Ans α} {f : α → Program Op Ans β} {t t' : List (Event Op Ans)}
    {a : α} {b : β} (h : Trace p t a) (h' : Trace (f a) t' b) : Trace (p >>= f) (t ++ t') b :=
  trace_bind_iff.2 ⟨a, t, t', rfl, h, h'⟩

/-- Whatever the operations are answered, there is a conversation with these answers. -/
lemma exists_trace (f : (op : Op) → Ans op) (p : Program Op Ans α) :
    ∃ t a, Trace p t a ∧ ∀ e ∈ t, e.ans = f e.op := by
  induction p with
  | ret a => exact ⟨[], a, Trace.ret a, by simp⟩
  | call op next ih =>
    obtain ⟨t, a, htrace, hans⟩ := ih (f op)
    refine ⟨⟨op, f op⟩ :: t, a, Trace.call htrace, ?_⟩
    intro e he
    rcases List.mem_cons.1 he with rfl | he
    · rfl
    · exact hans e he

/-! ### Which operations a program performs -/

/-- Every operation of the program satisfies `P`, whatever the answers. -/
def Only (P : Op → Prop) : Program Op Ans α → Prop
  | ret _ => True
  | call op next => P op ∧ ∀ ans, Only P (next ans)

lemma Only.bind {P : Op → Prop} {p : Program Op Ans α} {f : α → Program Op Ans β}
    (hp : Only P p) (hf : ∀ a, Only P (f a)) : Only P (p >>= f) := by
  induction p with
  | ret a => exact hf a
  | call op next ih => exact ⟨hp.1, fun ans => ih ans (hp.2 ans)⟩

lemma Only.imp {P Q : Op → Prop} {p : Program Op Ans α} (hp : Only P p)
    (h : ∀ op, P op → Q op) : Only Q p := by
  induction p with
  | ret a => trivial
  | call op next ih => exact ⟨h op hp.1, fun ans => ih ans (hp.2 ans)⟩

lemma Trace.of_only {P : Op → Prop} {p : Program Op Ans α} {t : List (Event Op Ans)} {a : α}
    (h : Trace p t a) (hp : Only P p) : ∀ e ∈ t, P e.op := by
  induction h with
  | ret a => simp
  | call h ih =>
    intro e he
    rcases List.mem_cons.1 he with rfl | he
    · exact hp.1
    · exact ih (hp.2 _) e he

/-! ### What a program returns -/

/-- Every value the program may return satisfies `Q`. -/
def Returns (Q : α → Prop) : Program Op Ans α → Prop
  | ret a => Q a
  | call _ next => ∀ ans, Returns Q (next ans)

lemma Returns.bind {Q : α → Prop} {Q' : β → Prop} {p : Program Op Ans α}
    {f : α → Program Op Ans β} (hp : Returns Q p) (hf : ∀ a, Q a → Returns Q' (f a)) :
    Returns Q' (p >>= f) := by
  induction p with
  | ret a => exact hf a hp
  | call op next ih => exact fun ans => ih ans (hp ans)

lemma Returns.imp {Q Q' : α → Prop} {p : Program Op Ans α} (hp : Returns Q p)
    (h : ∀ a, Q a → Q' a) : Returns Q' p := by
  induction p with
  | ret a => exact h a hp
  | call op next ih => exact fun ans => ih ans (hp ans)

lemma Returns.trivial (p : Program Op Ans α) : Returns (fun _ => True) p := by
  induction p with
  | ret a => exact True.intro
  | call op next ih => exact ih

lemma Trace.of_returns {Q : α → Prop} {p : Program Op Ans α} {t : List (Event Op Ans)} {a : α}
    (h : Trace p t a) (hp : Returns Q p) : Q a := by
  induction h with
  | ret a => exact hp
  | call h ih => exact ih (hp _)

/-- The value of a program when every operation has a fixed answer. -/
def eval (f : (op : Op) → Ans op) : Program Op Ans α → α
  | ret a => a
  | call op next => eval f (next (f op))

lemma eval_bind (f : (op : Op) → Ans op) (p : Program Op Ans α) (g : α → Program Op Ans β) :
    eval f (p >>= g) = eval f (g (eval f p)) := by
  induction p with
  | ret a => rfl
  | call op next ih => exact ih (f op)

lemma Trace.eq_eval {f : (op : Op) → Ans op} {p : Program Op Ans α} {t : List (Event Op Ans)}
    {a : α} (h : Trace p t a) (hans : ∀ e ∈ t, e.ans = f e.op) : a = eval f p := by
  induction h with
  | ret a => rfl
  | @call op next ans t a h ih =>
    obtain rfl : ans = f op := hans _ List.mem_cons_self
    exact ih fun e he => hans e (List.mem_cons_of_mem _ he)

/-- The value is that of the conversation in which every operation is answered so. -/
lemma exists_trace_eval (f : (op : Op) → Ans op) (p : Program Op Ans α) :
    ∃ t, Trace p t (p.eval f) ∧ ∀ e ∈ t, e.ans = f e.op := by
  obtain ⟨t, a, htrace, hans⟩ := exists_trace f p
  rw [← htrace.eq_eval hans]
  exact ⟨t, htrace, hans⟩

/-! ### Runs against a deterministic surrounding -/

/-- Run a program against a surrounding that answers every operation from its state. -/
def run (h : (op : Op) → σ → Ans op × σ) : Program Op Ans α → σ → α × σ
  | ret a, s => (a, s)
  | call op next, s => run h (next (h op s).1) (h op s).2

variable {h : (op : Op) → σ → Ans op × σ}

@[simp] lemma run_ret (a : α) (s : σ) : run h (ret a) s = (a, s) := rfl

@[simp] lemma run_call (op : Op) (next : Ans op → Program Op Ans α) (s : σ) :
    run h (call op next) s = run h (next (h op s).1) (h op s).2 := rfl

/-- The operations of a run with their answers. -/
def script (h : (op : Op) → σ → Ans op × σ) : Program Op Ans α → σ → List (Event Op Ans)
  | ret _, _ => []
  | call op next, s => ⟨op, (h op s).1⟩ :: script h (next (h op s).1) (h op s).2

/-- A run is one of the conversations of the program. -/
lemma trace_run (p : Program Op Ans α) (s : σ) : Trace p (script h p s) (run h p s).1 := by
  induction p generalizing s with
  | ret a => exact Trace.ret a
  | call op next ih => exact Trace.call (ih _ _)

/-- Every operation of a run was answered by the surroundings. -/
lemma exists_of_mem_script {p : Program Op Ans α} {s : σ} {e : Event Op Ans}
    (he : e ∈ script h p s) : ∃ s', e.ans = (h e.op s').1 := by
  induction p generalizing s with
  | ret a => exact absurd he List.not_mem_nil
  | call op next ih =>
    rcases List.mem_cons.1 he with rfl | he
    · exact ⟨s, rfl⟩
    · exact ih _ he

/-- Surroundings that agree on the operations of a program run it alike. -/
lemma run_congr_of_only {P : Op → Prop} {h' : (op : Op) → σ → Ans op × σ}
    {p : Program Op Ans α} (hp : p.Only P) (hagree : ∀ op, P op → ∀ s, h op s = h' op s) (s : σ) :
    run h p s = run h' p s := by
  induction p generalizing s with
  | ret a => rfl
  | call op next ih => rw [run_call, run_call, hagree op hp.1 s, ih _ (hp.2 _)]

lemma run_bind (p : Program Op Ans α) (f : α → Program Op Ans β) (s : σ) :
    run h (p >>= f) s = run h (f (run h p s).1) (run h p s).2 := by
  induction p generalizing s with
  | ret a => rfl
  | call op next ih =>
    rw [call_bind, run_call, run_call]
    exact ih _ _

lemma script_bind (p : Program Op Ans α) (f : α → Program Op Ans β) (s : σ) :
    script h (p >>= f) s = script h p s ++ script h (f (run h p s).1) (run h p s).2 := by
  induction p generalizing s with
  | ret a => rfl
  | call op next ih => exact congrArg (_ :: ·) (ih _ _)

/-! ### States in which a program runs alike -/

/-- From two states, the program comes to the same value, performs the same operations of the kind
that is observed, and leads to related states. -/
structure RunsAlike (h : (op : Op) → σ → Ans op × σ) (seen : Op → Prop) [DecidablePred seen]
    (R : σ → σ → Prop) (p : Program Op Ans α) (s u : σ) : Prop where
  value : (run h p s).1 = (run h p u).1
  observed : ((script h p s).map Event.op).filter seen = ((script h p u).map Event.op).filter seen
  next : R (run h p s).2 (run h p u).2

variable {seen : Op → Prop} [DecidablePred seen] {R : σ → σ → Prop} {s u : σ}

lemma RunsAlike.ret (a : α) (hR : R s u) : RunsAlike h seen R (ret a) s u := ⟨rfl, rfl, hR⟩

lemma RunsAlike.call {op : Op} {next : Ans op → Program Op Ans α} (hans : (h op s).1 = (h op u).1)
    (hnext : RunsAlike h seen R (next (h op s).1) (h op s).2 (h op u).2) :
    RunsAlike h seen R (call op next) s u where
  value := by
    rw [run_call, run_call, ← hans]
    exact hnext.value
  observed := by
    rw [script, script, ← hans, List.map_cons, List.map_cons, List.filter_cons, List.filter_cons,
      hnext.observed]
  next := by
    rw [run_call, run_call, ← hans]
    exact hnext.next

lemma RunsAlike.bind {p : Program Op Ans α} {f : α → Program Op Ans β}
    (hp : RunsAlike h seen R p s u)
    (hf : RunsAlike h seen R (f (run h p s).1) (run h p s).2 (run h p u).2) :
    RunsAlike h seen R (p >>= f) s u where
  value := by
    rw [run_bind, run_bind, ← hp.value]
    exact hf.value
  observed := by
    rw [script_bind, script_bind, List.map_append, List.map_append, List.filter_append,
      List.filter_append, hp.observed, ← hp.value, hf.observed]
  next := by
    rw [run_bind, run_bind, ← hp.value]
    exact hf.next

/-- **Noninterference**: a program that performs only operations which related states answer alike
runs alike. -/
lemma RunsAlike.of_only {P : Op → Prop} {p : Program Op Ans α} (hp : p.Only P)
    (hop : ∀ op, P op → ∀ s u, R s u → (h op s).1 = (h op u).1 ∧ R (h op s).2 (h op u).2)
    (hR : R s u) : RunsAlike h seen R p s u := by
  induction p generalizing s u with
  | ret a => exact .ret a hR
  | call op next ih =>
    obtain ⟨hans, hnext⟩ := hop op hp.1 s u hR
    exact .call hans (ih _ (hp.2 _) hnext)

/-! ### Surroundings that remember everything -/

/-- Surroundings that answer an operation by all that happened before. -/
abbrev Oracle (Op : Type) (Ans : Op → Type) : Type := List (Event Op Ans) → (op : Op) → Ans op

/-- The answers of an oracle, with the conversation so far as the state. -/
def Oracle.respond (o : Oracle Op Ans) (op : Op) (past : List (Event Op Ans)) :
    Ans op × List (Event Op Ans) := (o past op, past ++ [⟨op, o past op⟩])

/-- The result of a program that runs against an oracle, and the whole conversation. -/
def converse (o : Oracle Op Ans) (p : Program Op Ans α) : α × List (Event Op Ans) :=
  run o.respond p []

/-- The conversation with an oracle is one of the conversations of the program. -/
lemma run_respond (o : Oracle Op Ans) (p : Program Op Ans α) (past : List (Event Op Ans)) :
    ∃ t, (run o.respond p past).2 = past ++ t ∧ Trace p t (run o.respond p past).1 := by
  induction p generalizing past with
  | ret a => exact ⟨[], (List.append_nil past).symm, Trace.ret a⟩
  | call op next ih =>
    obtain ⟨t, ht, htrace⟩ := ih (o past op) (past ++ [⟨op, o past op⟩])
    refine ⟨⟨op, o past op⟩ :: t, ?_, Trace.call htrace⟩
    rw [run_call]
    exact ht.trans (List.append_assoc _ _ _)

lemma trace_converse (o : Oracle Op Ans) (p : Program Op Ans α) :
    Trace p (converse o p).2 (converse o p).1 := by
  obtain ⟨t, ht, htrace⟩ := run_respond o p []
  rw [converse, ht]
  exact htrace

/-- Oracles that agree along a conversation lead to the same one. -/
lemma run_respond_congr {o o' : Oracle Op Ans} {p : Program Op Ans α}
    {past : List (Event Op Ans)}
    (h : ∀ t₁ op ans t₂, (run o.respond p past).2 = past ++ t₁ ++ ⟨op, ans⟩ :: t₂ →
      o (past ++ t₁) op = o' (past ++ t₁) op) :
    run o'.respond p past = run o.respond p past := by
  induction p generalizing past with
  | ret a => rfl
  | call op next ih =>
    obtain ⟨t, ht, -⟩ := run_respond o (next (o past op)) (past ++ [⟨op, o past op⟩])
    have hfirst : o past op = o' past op := by
      have hnil := h [] op (o past op) t
      rw [List.append_nil] at hnil
      exact hnil (ht.trans (List.append_assoc _ _ _))
    rw [run_call, run_call, Oracle.respond, Oracle.respond, ← hfirst]
    refine ih _ ?_
    intro t₁ op' ans t₂ heq
    have hlater := h (⟨op, o past op⟩ :: t₁) op' ans t₂
    rw [List.append_cons past _ t₁] at hlater
    exact hlater heq

lemma converse_congr {o o' : Oracle Op Ans} {p : Program Op Ans α}
    (h : ∀ t₁ op ans t₂, (converse o p).2 = t₁ ++ ⟨op, ans⟩ :: t₂ → o t₁ op = o' t₁ op) :
    converse o' p = converse o p := run_respond_congr h

end Program

end Interaction
