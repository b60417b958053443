/-
# The verdict of a ladder without a decision

When every tier of the plan is absent or unreachable, the loop has to say which it is.  It keeps
no memory of the tiers before the last one: the verdict is what the last tier reported.  So an
absence is reported although an earlier tier, which might hold the content, was unreachable.
-/
import DigUrnResolver.Ladder.Walk

namespace DigUrnResolver.Resolver

open Interaction

/-- What each tier of a plan reported, with the conversations that led to it. -/
inductive Reports (D : Deps) (parsed : ParsedUrn) :
    List Endpoint → List (Event Op Ans) → List ResolveError → Prop
  | nil : Reports D parsed [] [] []
  | cons {endpoint : Endpoint} {plan : List Endpoint} {talk t : List (Event Op Ans)}
      {e : ResolveError} {es : List ResolveError}
      (h : (fetchFrom D endpoint parsed).Trace talk (.error e)) (hrest : Reports D parsed plan t es) :
      Reports D parsed (endpoint :: plan) (talk ++ t) (e :: es)

/-- No cache answers, and no tier of the plan is decisive: each reports absence or a transport
failure. -/
def Undecided (D : Deps) (options : ResolveOptions) (parsed : ParsedUrn)
    (T : List (Event Op Ans)) (es : List ResolveError) : Prop :=
  ∃ lookups planning t plan, T = lookups ++ planning ++ t ∧
    (consult options parsed).Trace lookups none ∧ (Resolver.plan D options).Trace planning plan ∧
    Reports D parsed plan t es ∧ ∀ e ∈ es, FallsThrough e

/-- The verdict of the last tier. -/
def lastVerdict (es : List ResolveError) : Except ResolveError ResolveOutcome :=
  if es.getLast? = some .notFound then .error .notFound else .ok .unreachable

/-- The result says that the content is absent exactly when every tier said so, and is retryable
when some tier was unreachable. -/
def AbsentEverywhere (es : List ResolveError) (r : Except ResolveError ResolveOutcome) : Prop :=
  (r = .error .notFound ↔ ∀ e ∈ es, e = .notFound) ∧
    ((∃ e ∈ es, e ≠ .notFound) → r = .ok .unreachable)

variable {D : Deps} {options : ResolveOptions} {parsed : ParsedUrn} {es : List ResolveError}
  {T : List (Event Op Ans)}

/-! ### The verdict of the loop -/

lemma Reports.ne_nil {plan : List Endpoint} {t : List (Event Op Ans)}
    (h : Reports D parsed plan t es) (hplan : plan ≠ []) : es ≠ [] := by
  cases h with
  | nil => exact absurd rfl hplan
  | cons => exact List.cons_ne_nil _ _

/-- Over tiers that all fall through, the loop ends with what the last one said. -/
lemma Reports.trace_walk {plan : List Endpoint} {t : List (Event Op Ans)} {last i : ℕ}
    (h : Reports D parsed plan t es) (hes : ∀ e ∈ es, FallsThrough e)
    (hi : plan ≠ [] → i + plan.length = last + 1) :
    (walk D options parsed last i plan).Trace t (lastVerdict es) := by
  induction h generalizing i with
  | nil => exact Program.Trace.ret _
  | @cons endpoint plan talk t e es h hrest ih =>
    have hlength := hi (List.cons_ne_nil _ _)
    rw [List.length_cons] at hlength
    have htail := @ih (i + 1) fun e' he' => hes e' (List.mem_cons_of_mem _ he')
    refine h.bind ?_
    cases hplan : plan with
    | nil =>
      subst hplan
      have hlast : i = last := by
        rw [List.length_nil] at hlength
        omega
      obtain ⟨rfl, rfl⟩ : t = [] ∧ es = [] := by
        cases hrest
        exact ⟨rfl, rfl⟩
      rcases hes e List.mem_cons_self with rfl | ⟨message, rfl⟩
      · dsimp only
        rw [if_pos hlast]
        exact Program.Trace.ret _
      · dsimp only
        rw [if_pos hlast]
        exact Program.Trace.ret _
    | cons endpoint' plan' =>
      have hne : plan ≠ [] := by
        rw [hplan]
        exact List.cons_ne_nil _ _
      have hmore : ¬ i = last := by
        have hpos := List.length_pos_iff.2 hne
        omega
      -- the verdict of the tiers behind is that of all
      have hverdict : lastVerdict (e :: es) = lastVerdict es := by
        rw [lastVerdict, lastVerdict, List.getLast?_cons, List.getLast?_eq_some_getLast (hrest.ne_nil hne)]
        rfl
      rw [hverdict, ← hplan]
      rcases hes e List.mem_cons_self with rfl | ⟨message, rfl⟩
      · dsimp only
        rw [if_neg hmore]
        exact htail fun _ => by omega
      · dsimp only
        rw [if_neg hmore]
        exact htail fun _ => by omega

/-- A resolve in which nobody decides ends with the verdict of the last tier. -/
lemma Undecided.trace {urn : String} (hparse : ParsedUrn.parse D urn = .ok parsed)
    (h : Undecided D options parsed T es) : (resolve D options urn).Trace T (lastVerdict es) := by
  obtain ⟨lookups, planning, t, plan, rfl, hlookups, hplan, hreports, hes⟩ := h
  rw [resolve, hparse]
  show (resolveParsed D options parsed).Trace _ _
  rw [resolveParsed_eq, List.append_assoc]
  refine hlookups.bind (hplan.bind (hreports.trace_walk hes ?_))
  intro hne
  have hpos := List.length_pos_iff.2 hne
  omega

/-! ### When the verdict is right -/

lemma absentEverywhere_lastVerdict_iff :
    AbsentEverywhere es (lastVerdict es) ↔
      es ≠ [] ∧ ((∃ e ∈ es, e ≠ .notFound) → es.getLast? ≠ some .notFound) := by
  rw [AbsentEverywhere, lastVerdict]
  by_cases hlast : es.getLast? = some .notFound
  · rw [if_pos hlast]
    have hne : es ≠ [] := by
      rintro rfl
      cases hlast
    constructor
    · rintro ⟨hiff, -⟩
      refine ⟨hne, ?_⟩
      rintro ⟨e, he, hother⟩
      exact absurd (hiff.1 rfl e he) hother
    · rintro ⟨-, hreachable⟩
      have hnone : ¬ ∃ e ∈ es, e ≠ .notFound := fun h => hreachable h hlast
      refine ⟨⟨fun _ e he => ?_, fun _ => rfl⟩, fun h => absurd h hnone⟩
      by_contra hother
      exact hnone ⟨e, he, hother⟩
  · rw [if_neg hlast]
    constructor
    · rintro ⟨hiff, -⟩
      refine ⟨?_, fun _ => hlast⟩
      rintro rfl
      cases hiff.2 (by simp)
    · rintro ⟨hne, -⟩
      refine ⟨⟨nofun, fun hall => ?_⟩, fun _ => rfl⟩
      have hmem := hall _ (List.getLast_mem hne)
      rw [List.getLast?_eq_some_getLast hne, hmem] at hlast
      exact absurd rfl hlast

/-- **The verdict is that of the last tier**: it says that the content is absent everywhere, or
retryable, as it should, exactly when a tier was asked and no unreachable tier is followed by an
absence at the end. -/
theorem absentEverywhere_iff {urn : String} (hparse : ParsedUrn.parse D urn = .ok parsed)
    (h : Undecided D options parsed T es) {r : Except ResolveError ResolveOutcome}
    (htrace : (resolve D options urn).Trace T r) :
    AbsentEverywhere es r ↔
      es ≠ [] ∧ ((∃ e ∈ es, e ≠ .notFound) → es.getLast? ≠ some .notFound) := by
  rw [htrace.unique (h.trace hparse), absentEverywhere_lastVerdict_iff]

/-! ### A node that is down, before a gateway that has nothing -/

namespace Undecided

/-- The JSON text of an empty gateway result. -/
def emptyDeps : Deps :=
  sample [([], .object [("result", .object [("total_length", .number (.posInt 0))])])] []

def plan : List Endpoint := [.node digLocalBase, .rpc rpcDefaultBase]

/-- The conversation of a resolve on a resolver with a cached plan, up to the answers of the node
and of the gateway. -/
def talk (node gateway : Except TransportError HttpResponse) : List (Event Op Ans) :=
  [⟨.memoryGet (cacheId (Sample.parsed "chia") Sample.hex.text), none⟩, ⟨.planGet, some plan⟩,
    ⟨.get (Node.serveUrl digLocalBase (Sample.parsed "chia")), node⟩,
    ⟨Rpc.request emptyDeps (Text.trimEndMatches '/' rpcDefaultBase) (Sample.parsed "chia")
      Sample.hex.text 0, gateway⟩]

def down : Except TransportError HttpResponse := .error ⟨"error sending request"⟩

def absent : Except TransportError HttpResponse := .ok ⟨404, [], []⟩

/-- The gateway states that the length is zero. -/
def empty : Except TransportError HttpResponse := .ok ⟨200, [], []⟩

/-- The gateway has nothing. -/
lemma trace_empty : (Rpc.fetch emptyDeps rpcDefaultBase (Sample.parsed "chia")).Trace
    [⟨Rpc.request emptyDeps (Text.trimEndMatches '/' rpcDefaultBase) (Sample.parsed "chia")
      Sample.hex.text 0, empty⟩] (.error .notFound) := by
  have hrounds : Rpc.Rounds emptyDeps 0 {} [⟨{}, empty⟩] (.error .notFound) :=
    .rejected (e := ⟨.notFound, _⟩) (by decide) rfl rfl
  exact (Rpc.Fetches.failed rfl hrounds).trace

/-- Whatever the node reports, the gateway comes last. -/
lemma undecided_talk {node : Except TransportError HttpResponse} {e : ResolveError}
    (he : FallsThrough e)
    (hnode : (Node.fetch digLocalBase (Sample.parsed "chia")).Trace
      [⟨.get (Node.serveUrl digLocalBase (Sample.parsed "chia")), node⟩] (.error e)) :
    Undecided emptyDeps {} (Sample.parsed "chia") (talk node empty) [e, .notFound] := by
  have hreports : Reports emptyDeps (Sample.parsed "chia") plan _ [e, .notFound] :=
    @Reports.cons emptyDeps _ (.node digLocalBase) _ _ _ _ _ hnode
      (@Reports.cons emptyDeps _ (.rpc rpcDefaultBase) _ _ _ _ _ trace_empty .nil)
  refine ⟨[⟨.memoryGet (cacheId (Sample.parsed "chia") Sample.hex.text), none⟩],
    [⟨.planGet, some plan⟩], _, plan, rfl, .call (.ret _), .call (.ret _),
    hreports, ?_⟩
  intro e' he'
  rcases List.mem_pair.1 he' with rfl | rfl
  · exact he
  · exact Or.inl rfl

/-- The node of the plan is down, the gateway has nothing: the content is reported as absent. -/
theorem not_absentEverywhere_of_down :
    Undecided emptyDeps {} (Sample.parsed "chia") (talk down empty)
        [.transport "error sending request", .notFound] ∧
      (resolve emptyDeps {} (Sample.urn "chia")).Trace (talk down empty) (.error .notFound) ∧
      ¬ AbsentEverywhere [.transport "error sending request", .notFound] (.error .notFound) := by
  have hnode : (Node.fetch digLocalBase (Sample.parsed "chia")).Trace
      [⟨.get (Node.serveUrl digLocalBase (Sample.parsed "chia")), down⟩]
      (.error (.transport "error sending request")) := .call (.ret _)
  have hundecided := undecided_talk (Or.inr ⟨_, rfl⟩) hnode
  refine ⟨hundecided, hundecided.trace (Sample.parse_urn_chia _ _), ?_⟩
  rintro ⟨-, hreachable⟩
  cases hreachable ⟨_, List.mem_cons_self, nofun⟩

/-- The content is absent at the node and at the gateway. -/
theorem absentEverywhere_iff_absent : AbsentEverywhere [.notFound, .notFound] (.error .notFound) := by
  have hnode : (Node.fetch digLocalBase (Sample.parsed "chia")).Trace
      [⟨.get (Node.serveUrl digLocalBase (Sample.parsed "chia")), absent⟩]
      (.error .notFound) := .call (.ret _)
  have hundecided := undecided_talk (Or.inl rfl) hnode
  have hparse := Sample.parse_urn_chia
    [([], .object [("result", .object [("total_length", .number (.posInt 0))])])] []
  refine (absentEverywhere_iff hparse hundecided (hundecided.trace hparse)).2 ⟨nofun, ?_⟩
  rintro ⟨e, he, hne⟩
  rcases List.mem_pair.1 he with rfl | rfl
  · exact absurd rfl hne
  · exact absurd rfl hne

end Undecided

end DigUrnResolver.Resolver
