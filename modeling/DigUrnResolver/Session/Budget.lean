/-
# What a resolve costs

A gateway may page without end and a node may fall silent; still a resolve sends a bounded number
of requests: two health probes at most, one request to a node, and one for each window of the
gateway.  The tiers are probed by the calls that look for a plan before there is one, and by
nobody after that, however the calls overlap.
-/
import DigUrnResolver.Gateway.Bounds
import DigUrnResolver.Interaction.Threads
import DigUrnResolver.Security.Confinement
import DigUrnResolver.Security.Provenance
import DigUrnResolver.Session.Planning

namespace DigUrnResolver

open Interaction

namespace Resolver

/-- The most requests that the visit of an endpoint takes. -/
def visitCost (endpoint : Endpoint) : ℕ :=
  match endpoint.kind with
  | .node => 1
  | .rpc => Rpc.maxWindows

/-- The most requests that the walk over a plan takes. -/
def planCost (plan : List Endpoint) : ℕ := (plan.map visitCost).sum

/-- The most requests that any walk takes. -/
def walkBudget (options : ResolveOptions) : ℕ :=
  match options.endpoint with
  | some _ => Rpc.maxWindows
  | none => 1 + Rpc.maxWindows

/-- The most probes that it takes to build a plan. -/
def probeBudget (options : ResolveOptions) : ℕ :=
  match options.endpoint with
  | some _ => 0
  | none => 2

variable {D : Deps} {options : ResolveOptions} {parsed : ParsedUrn} {t : List (Event Op Ans)}
  {plan : List Endpoint} {r : Except ResolveError ResolveOutcome}

/-! ### Walks -/

/-- A visit takes one request to a node, and one for each window to the gateway. -/
lemma Visit.Valid.length_requests_le {x : Visit} (hx : x.Valid D parsed) :
    (requests x.talk).length ≤ visitCost x.endpoint := by
  obtain ⟨hfetch, hcontacts⟩ := hx
  rw [Visit.Contacts] at hcontacts
  rw [visitCost]
  cases hkind : x.endpoint.kind with
  | node =>
    simp only [hkind] at hcontacts ⊢
    rw [hcontacts]
    simp
  | rpc =>
    rw [fetchFrom, hkind] at hfetch
    have hfetches := Rpc.trace_fetch hfetch
    generalize x.talk = talk at hfetches ⊢
    generalize x.result = result at hfetches
    have hrounds_le : ∀ {st : Rpc.Assembly} {rounds : List Rpc.Round}
        {res : Except ResolveError Rpc.Assembly}, Rpc.Rounds D 0 st rounds res →
        rounds.length ≤ Rpc.maxWindows := fun h => h.length_le (Nat.zero_le _)
    cases hfetches with
    | rootless => simp [requests]
    | failed _ hrounds =>
      rw [requests_rounds, List.length_map]
      exact hrounds_le hrounds
    | assembled _ hrounds verdict =>
      rw [requests_append, requests_rounds, List.length_append, List.length_map]
      exact hrounds_le hrounds

lemma length_requests_flatMap_le {visits : List Visit} (h : ∀ x ∈ visits, x.Valid D parsed) :
    (requests (visits.flatMap Visit.talk)).length ≤ planCost (visits.map Visit.endpoint) := by
  induction visits with
  | nil => simp [requests, planCost]
  | cons x visits ih =>
    have hfirst := (h x List.mem_cons_self).length_requests_le
    have hrest := ih fun y hy => h y (List.mem_cons_of_mem _ hy)
    rw [List.flatMap_cons, requests_append, List.length_append]
    simp only [planCost, List.map_cons, List.sum_cons] at hrest ⊢
    omega

/-- A walk costs no more than its plan. -/
lemma Walked.length_requests_le (h : Walked D options parsed plan t r) :
    (requests t).length ≤ planCost plan := by
  obtain ⟨visits, late, stored, rfl, rfl, hvalid, hstored⟩ := h.visits
  have hquiet : requests stored = [] := by
    rcases hstored with rfl | ⟨fetched, hstored⟩
    · rfl
    · exact requests_eq_nil.2 (hstored.of_only (quiet_cacheSuccess fetched))
  have hvisits := length_requests_flatMap_le hvalid
  rw [requests_append, hquiet, List.append_nil]
  simp only [planCost, List.map_append, List.sum_append] at hvisits ⊢
  omega

/-! ### Plans -/

lemma requests_of_only_lookup {α : Type} {p : Prog α} {a : α} (hp : p.Only IsLookup)
    (h : p.Trace t a) : requests t = [] := by
  refine requests_eq_nil.2 fun e he => ?_
  have hlookup := h.of_only hp e he
  cases hop : e.op with
  | resolvesToLoopback => exact id
  | _ =>
    rw [hop] at hlookup
    exact absurd hlookup id

/-- At most one probe is sent for each tier. -/
lemma length_requests_probeTiers_le {tiers : List String}
    (h : (probeTiers D tiers).Trace t plan) : (requests t).length ≤ tiers.length := by
  induction tiers generalizing t with
  | nil =>
    obtain ⟨rfl, -⟩ := Program.trace_ret_iff.1 h
    simp [requests]
  | cons tier rest ih =>
    obtain ⟨loopback, front, back, rfl, hfront, hback⟩ := Program.trace_bind_iff.1 h
    rw [requests_append, requests_of_only_lookup (only_isLoopbackBase tier) hfront,
      List.nil_append, List.length_cons]
    cases loopback with
    | false => exact (ih hback).trans (Nat.le_succ _)
    | true =>
      obtain ⟨healthy, probe, back, rfl, hprobe, hback⟩ := Program.trace_bind_iff.1 hback
      obtain ⟨answer, nothing, rfl, hnothing⟩ := Program.trace_call_iff.1 hprobe
      have hone : (requests (⟨.get (tier ++ "/health"), answer⟩ :: nothing)).length = 1 := by
        cases answer with
        | ok resp =>
          obtain ⟨rfl, -⟩ := Program.trace_ret_iff.1 hnothing
          rfl
        | error e =>
          obtain ⟨rfl, -⟩ := Program.trace_ret_iff.1 hnothing
          rfl
      rw [requests_append, List.length_append, hone]
      cases healthy with
      | false =>
        have hrest := ih hback
        omega
      | true =>
        obtain ⟨rfl, -⟩ := Program.trace_ret_iff.1 hback
        simp [requests]

lemma length_requests_buildPlan_le (h : (buildPlan D options.endpoint).Trace t plan) :
    (requests t).length ≤ probeBudget options := by
  rw [probeBudget]
  cases hend : options.endpoint with
  | none =>
    rw [hend] at h
    exact length_requests_probeTiers_le h
  | some base =>
    rw [hend] at h
    rw [requests_of_only_lookup (only_buildPlan_override base) h]
    exact Nat.zero_le _

/-- A plan is built within the budget of a walk. -/
lemma returns_buildPlan :
    (buildPlan D options.endpoint).Returns fun plan => planCost plan ≤ walkBudget options := by
  rw [walkBudget]
  cases hend : options.endpoint with
  | none =>
    show (probeTiers D [digLocalBase, localhostBase]).Returns _
    have hladder := returns_probeTiers (D := D) [digLocalBase, localhostBase]
    refine hladder.imp fun plan hplan => ?_
    rcases hplan with rfl | ⟨tier, rfl⟩
    · show Rpc.maxWindows + 0 ≤ 1 + Rpc.maxWindows
      omega
    · exact le_refl (1 + (Rpc.maxWindows + 0))
  | some base =>
    show (classify D base >>= fun endpoint => pure [endpoint]).Returns _
    refine (Program.Returns.trivial _).bind fun endpoint _ => ?_
    show visitCost endpoint + 0 ≤ Rpc.maxWindows
    rw [visitCost]
    cases endpoint.kind with
    | node => decide
    | rpc => exact le_rfl

/-! ### A whole resolve -/

/-- The plan is found or stored in the conversation. -/
def Uses (t : List (Event Op Ans)) (plan : List Endpoint) : Prop :=
  (⟨.planGet, some plan⟩ : Event Op Ans) ∈ t ∨ (⟨.planSet plan, ()⟩ : Event Op Ans) ∈ t

lemma not_uses (h : ∀ e ∈ t, ¬ IsPlanOp e.op) : ¬ Uses t plan := by
  rintro (hget | hset)
  · exact h _ hget trivial
  · exact h _ hset trivial

lemma uses_append_iff {t' : List (Event Op Ans)} :
    Uses (t ++ t') plan ↔ Uses t plan ∨ Uses t' plan := by
  rw [Uses, List.mem_append, List.mem_append]
  exact or_or_or_comm

lemma not_isPlanOp_buildPlan (endpoint : Option String) :
    (buildPlan D endpoint).Only fun op => ¬ IsPlanOp op := by
  refine (only_buildPlan endpoint).imp fun op h => ?_
  cases op with
  | planGet | planSet =>
    rcases h with hlookup | ⟨tier, -, hprobe⟩
    · exact absurd hlookup id
    · cases hprobe
  | _ => exact id

/-- One plan is used, the one that is found or built. -/
lemma Planned.eq_of_uses {plan' : List Endpoint} (h : Planned D options t plan)
    (huses : Uses t plan') : plan' = plan := by
  cases h with
  | cached =>
    rcases huses with hget | hset
    · cases List.mem_singleton.1 hget
      rfl
    · cases List.mem_singleton.1 hset
  | @built probes _ hbuild =>
    have hprobes : ¬ Uses probes plan' :=
      not_uses (hbuild.of_only (not_isPlanOp_buildPlan options.endpoint))
    rw [← List.singleton_append, uses_append_iff, uses_append_iff] at huses
    rcases huses with (hget | hset) | hprobes' | (hget | hset)
    · cases List.mem_singleton.1 hget
    · cases List.mem_singleton.1 hset
    · exact absurd hprobes' hprobes
    · cases List.mem_singleton.1 hget
    · cases List.mem_singleton.1 hset
      rfl

/-- A plan is found without a request, or built within the budgets. -/
lemma Planned.length_requests_le (h : Planned D options t plan) :
    (requests t).length ≤ probeBudget options ∧
      ((⟨.planGet, some plan⟩ : Event Op Ans) ∈ t ∨ planCost plan ≤ walkBudget options) := by
  cases h with
  | cached => exact ⟨Nat.zero_le _, Or.inl List.mem_cons_self⟩
  | @built probes _ hbuild =>
    have hplanning : requests (⟨.planGet, none⟩ :: (probes ++ [⟨.planSet plan, ()⟩])) =
        requests probes := by
      show requests (probes ++ _) = _
      rw [requests_append]
      exact List.append_nil _
    rw [hplanning]
    exact ⟨length_requests_buildPlan_le hbuild, Or.inr (hbuild.of_returns returns_buildPlan)⟩

/-- **A resolve costs what its plan costs**, and the probes; without a plan it sends nothing. -/
lemma requests_cost {urn : String} (h : (resolve D options urn).Trace t r) :
    requests t = [] ∧ (∀ plan, ¬ Uses t plan) ∨
      ∃ plan, (∀ plan', Uses t plan' → plan' = plan) ∧
        ((⟨.planGet, some plan⟩ : Event Op Ans) ∈ t ∨ planCost plan ≤ walkBudget options) ∧
        (requests t).length ≤ probeBudget options + planCost plan := by
  rw [resolve] at h
  cases hparse : ParsedUrn.parse D urn with
  | error e =>
    rw [hparse] at h
    obtain ⟨rfl, -⟩ := Program.trace_ret_iff.1 h
    exact Or.inl ⟨rfl, fun plan => not_uses fun e he => absurd he List.not_mem_nil⟩
  | ok v =>
    rw [hparse] at h
    cases trace_resolveParsed h with
    | cached hconsult =>
      exact Or.inl ⟨requests_eq_nil.2 (hconsult.of_only quiet_consult), fun plan =>
        not_uses (trace_consult hconsult).not_isPlanOp⟩
    | @walked lookups planning visits plan _ hconsult hplan hwalked =>
      have hplanned := trace_plan hplan
      obtain ⟨hplanning, hfound⟩ := hplanned.length_requests_le
      refine Or.inr ⟨plan, ?_, ?_, ?_⟩
      · intro plan' huses
        rcases uses_append_iff.1 huses with huses | hvisits
        · rcases uses_append_iff.1 huses with hlookups | huses
          · exact absurd hlookups (not_uses (trace_consult hconsult).not_isPlanOp)
          · exact hplanned.eq_of_uses huses
        · exact absurd hvisits (not_uses hwalked.not_isPlanOp)
      · exact hfound.imp_left fun hget =>
          List.mem_append_left _ (List.mem_append_right _ hget)
      · have hvisits := hwalked.length_requests_le
        rw [requests_append, requests_append, requests_eq_nil.2 (hconsult.of_only quiet_consult),
          List.nil_append, List.length_append]
        omega

lemma length_requests_le_of_uses {urn : String} (h : (resolve D options urn).Trace t r)
    (huses : Uses t plan) : (requests t).length ≤ probeBudget options + planCost plan := by
  rcases requests_cost h with ⟨-, hnone⟩ | ⟨plan', heq, -, hle⟩
  · exact absurd huses (hnone plan)
  · rwa [heq plan huses]

/-- **A resolve is bounded**, provided that the plan it may find stored is. -/
lemma length_requests_le {urn : String} (h : (resolve D options urn).Trace t r)
    (hplans : ∀ plan, (⟨.planGet, some plan⟩ : Event Op Ans) ∈ t → planCost plan ≤ walkBudget options) :
    (requests t).length ≤ probeBudget options + walkBudget options := by
  rcases requests_cost h with ⟨hnil, -⟩ | ⟨plan, -, hfound, hle⟩
  · rw [hnil]
    exact Nat.zero_le _
  · have hcost : planCost plan ≤ walkBudget options := hfound.elim (hplans plan) id
    omega

/-- A bound for a conversation holds for what it begins with. -/
lemma length_requests_le_of_append {t' : List (Event Op Ans)} {n : ℕ}
    (h : (requests (t ++ t')).length ≤ n) : (requests t).length ≤ n := by
  rw [requests_append, List.length_append] at h
  exact (Nat.le_add_right _ _).trans h

/-! ### Probes -/

lemma not_isProbe_of_addressed {endpoint : Endpoint} {op : Op} (h : Addressed parsed endpoint op) :
    ¬ IsProbe op := by
  rintro ⟨tier, htier, rfl⟩
  exact not_addressed_probe htier endpoint h

lemma isRequest_of_isProbe {op : Op} (h : IsProbe op) : IsRequest op := by
  obtain ⟨tier, -, rfl⟩ := h
  trivial

/-- An element that is not in the front of a list is behind it. -/
lemma behind_of_notMem {β : Type} {front back left right : List β} {x : β}
    (h : front ++ back = left ++ x :: right) (hx : x ∉ front) :
    ∃ gap, left = front ++ gap ∧ back = gap ++ x :: right := by
  rcases List.append_eq_append_iff.1 h with ⟨gap, rfl, hback⟩ | ⟨gap, rfl, hback⟩
  · exact ⟨gap, rfl, hback⟩
  · cases gap with
    | nil => exact ⟨[], by simp, by simpa using hback.symm⟩
    | cons y gap =>
      obtain ⟨rfl, -⟩ := List.cons.inj hback
      exact absurd (List.mem_append_right _ List.mem_cons_self) hx

/-- **Probes are sent by those who find no plan.** -/
lemma planGet_before_probe {urn : String} {before after : List (Event Op Ans)} {e : Event Op Ans}
    (h : (resolve D options urn).Trace (before ++ e :: after) r) (he : IsProbe e.op) :
    (⟨.planGet, none⟩ : Event Op Ans) ∈ before := by
  rw [resolve] at h
  cases hparse : ParsedUrn.parse D urn with
  | error err =>
    rw [hparse] at h
    obtain ⟨hnil, -⟩ := Program.trace_ret_iff.1 h
    exact absurd hnil (by simp)
  | ok v =>
    rw [hparse] at h
    generalize ht : before ++ e :: after = t at h
    have hnotLookup : ∀ {lookups : List (Event Op Ans)} {answer : Option ResolveOutcome},
        (consult options v).Trace lookups answer → e ∉ lookups := fun hconsult hmem =>
      hconsult.of_only quiet_consult e hmem (isRequest_of_isProbe he)
    cases trace_resolveParsed h with
    | cached hconsult =>
      refine absurd ?_ (hnotLookup hconsult)
      rw [← ht]
      exact List.mem_append_right _ List.mem_cons_self
    | @walked lookups planning visits plan _ hconsult hplan hwalked =>
      rw [List.append_assoc] at ht
      obtain ⟨gap, rfl, hgap⟩ := behind_of_notMem ht.symm (hnotLookup hconsult)
      have hvisits : e ∉ visits := by
        intro hmem
        obtain ⟨endpoint, -, haddressed⟩ := hwalked.addressed hmem (isRequest_of_isProbe he)
        exact not_isProbe_of_addressed haddressed he
      cases trace_plan hplan with
      | cached =>
        have hmem : e ∈ [(⟨.planGet, some plan⟩ : Event Op Ans)] ++ visits := by
          rw [hgap]
          exact List.mem_append_right _ List.mem_cons_self
        rcases List.mem_append.1 hmem with hmem | hmem
        · rw [List.mem_singleton.1 hmem] at he
          exact absurd (isRequest_of_isProbe he) id
        · exact absurd hmem hvisits
      | built hbuild =>
        cases gap with
        | nil =>
          obtain ⟨rfl, -⟩ := List.cons.inj hgap
          exact absurd (isRequest_of_isProbe he) id
        | cons x gap =>
          obtain ⟨rfl, -⟩ := List.cons.inj hgap
          exact List.mem_append_right _ List.mem_cons_self

end Resolver

/-! ### Runs -/

variable {D : Deps} {options : ResolveOptions} {disk : String → Option Bytes} {p : RunPool Unit}

/-- The plan of a call that built it is within the budget. -/
lemma PlanBuilt.planCost_le {ρ : Type} {L : RunLog ρ} {i : ℕ} {c : Call ρ} {plan : List Endpoint}
    (h : PlanBuilt D L i c options plan) : Resolver.planCost plan ≤ Resolver.walkBudget options := by
  rw [Resolver.walkBudget]
  cases hend : options.endpoint with
  | none =>
    rcases h.default hend with ⟨rfl, -⟩ | ⟨rfl, -⟩ | ⟨rfl, -⟩
    · decide
    · decide
    · decide
  | some base =>
    rw [PlanBuilt, hend] at h
    rcases h with ⟨-, rfl⟩ | ⟨-, rfl⟩
    · show 1 + 0 ≤ Rpc.maxWindows
      decide
    · exact le_refl (Rpc.maxWindows + 0)

/-- The conversation of a call so far is the beginning of one of a whole resolve, which finds no
plan any more. -/
lemma exists_trace_events {i : ℕ} {c : Call Unit}
    {q : Prog (Except ResolveError ResolveOutcome)}
    (hp : (machine D (fun _ : Unit => options) Tampering).Reachable (World.new disk) p)
    (hi : p.threads[i]? = some (c, q)) :
    ∃ t r, (Resolver.resolve D options c.urn).Trace (p.log.events i ++ t) r ∧
      ∀ plan, (⟨.planGet, some plan⟩ : Event Op Ans) ∉ t := by
  obtain ⟨t, r, htrace, hans⟩ := (hp.resumes hi).exists_trace
    (World.Net.answer ⟨fun _ => .error ⟨""⟩, fun _ _ => .error ⟨""⟩, fun _ => false⟩)
  refine ⟨t, r, htrace, fun plan hmem => ?_⟩
  cases hans _ hmem

/-- A thread that was not started did nothing. -/
lemma events_eq_nil
    (hp : (machine D (fun _ : Unit => options) Tampering).Reachable (World.new disk) p) {i : ℕ}
    (hi : p.threads[i]? = none) : p.log.events i = [] := by
  refine List.eq_nil_iff_forall_not_mem.2 fun e he => ?_
  obtain ⟨t, hmem⟩ := Log.mem_events.1 he
  have htag := Machine.Reachable.tagged hp _ hmem
  rw [Machine.tags, List.getElem?_map, hi] at htag
  cases htag

/-- Every call of a run stays within the budget, also one that is not over. -/
lemma length_requests_events_le
    (hp : (machine D (fun _ : Unit => options) Tampering).Reachable (World.new disk) p) (i : ℕ) :
    (Resolver.requests (p.log.events i)).length ≤
      Resolver.probeBudget options + Resolver.walkBudget options := by
  have hkept := (plans_hold hp).kept
  cases hi : p.threads[i]? with
  | none =>
    rw [events_eq_nil hp hi]
    exact Nat.zero_le _
  | some x =>
    obtain ⟨c, q⟩ := x
    obtain ⟨t, r, htrace, hlater⟩ := exists_trace_events hp hi
    refine Resolver.length_requests_le_of_append (Resolver.length_requests_le htrace ?_)
    intro plan hmem
    rcases List.mem_append.1 hmem with hmem | hmem
    · obtain ⟨c', hdid⟩ := Log.mem_events.1 hmem
      obtain ⟨j, c'', hbuilt⟩ := builtBy_of_used hkept (Or.inl hdid)
      exact hbuilt.planCost_le
    · exact absurd hmem (hlater plan)

/-- A call stays within the cost of the plan it uses. -/
lemma length_requests_events_le_of_used
    (hp : (machine D (fun _ : Unit => options) Tampering).Reachable (World.new disk) p) {i : ℕ}
    {c : Call Unit} {plan : List Endpoint} (hused : PlanUsed p.log i c plan) :
    (Resolver.requests (p.log.events i)).length ≤
      Resolver.probeBudget options + Resolver.planCost plan := by
  cases hi : p.threads[i]? with
  | none =>
    rw [events_eq_nil hp hi]
    exact Nat.zero_le _
  | some x =>
    obtain ⟨c', q⟩ := x
    obtain ⟨t, r, htrace, -⟩ := exists_trace_events hp hi
    have huses : Resolver.Uses (p.log.events i ++ t) plan := by
      refine Resolver.uses_append_iff.2 (Or.inl ?_)
      exact hused.imp (fun hget => Log.mem_events.2 ⟨c, hget⟩) fun hset => Log.mem_events.2 ⟨c, hset⟩
    exact Resolver.length_requests_le_of_append (Resolver.length_requests_le_of_uses htrace huses)

/-- **Bounded work.**  In every run of overlapping calls on one resolver, whatever is answered, each
call sends at most as many requests as a walk takes, and two probes if there is no override; a call
that uses a plan sends no more than this plan costs, which is one request where an override is a
node.  All calls together send at most so many for each call. -/
theorem requests_bounded
    (hp : (machine D (fun _ : Unit => options) Tampering).Reachable (World.new disk) p) :
    (∀ i, (Resolver.requests (p.log.events i)).length ≤
      Resolver.probeBudget options + Resolver.walkBudget options) ∧
    (∀ i c plan, PlanUsed p.log i c plan → (Resolver.requests (p.log.events i)).length ≤
      Resolver.probeBudget options + Resolver.planCost plan) ∧
    (p.log.filter fun e => Resolver.IsRequest e.op).length ≤
      p.threads.length * (Resolver.probeBudget options + Resolver.walkBudget options) := by
  have heach := length_requests_events_le hp
  refine ⟨heach, fun i c plan hused => length_requests_events_le_of_used hp hused,
    Log.length_filter_le ?_ fun i => ?_⟩
  · intro e he
    have hlt := (List.getElem?_eq_some_iff.1 (Machine.Reachable.tagged hp e he)).1
    rwa [Machine.tags, List.length_map] at hlt
  · have hcount := heach i
    rw [Resolver.requests, List.filter_map, List.length_map] at hcount
    exact hcount

example : Resolver.probeBudget {} + Resolver.walkBudget {} = 40 := by decide

example (base : String) : Resolver.probeBudget { endpoint := some base } +
    Resolver.planCost [.node base] = 1 := rfl

/-- A call over a network without any host. -/
def silentPool : RunPool Unit :=
  afterAlone (sample [] []) (fun _ => {}) silentNet ⟨(), Sample.urn "chia"⟩
    ⟨World.new fun _ => none, [], []⟩

lemma reachable_silentPool :
    (machine (sample [] []) (fun _ : Unit => {}) Tampering).Reachable (World.new fun _ => none)
      silentPool := reachable_afterAlone .refl _ _

/-- One call sends at most forty requests. -/
theorem requests_bounded_one_call :
    (silentPool.log.filter fun e => Resolver.IsRequest e.op).length ≤ 40 :=
  (requests_bounded reachable_silentPool).2.2

/-! ### Who probes -/

/-- What a call learns when it finds no plan: none was stored before. -/
def unplannedContract (D : Deps) (options : ResolveOptions) : Contract (Call Unit) Op Ans where
  pre i c L op := Permitted D L i c options op
  known _ _ L
    | .planGet, ans => ans = none → ∀ e ∈ L, ¬ Resolver.IsPlanSet e.op
    | _, _ => True

lemma unplanned_holds
    (hp : (machine D (fun _ : Unit => options) Tampering).Reachable (World.new disk) p) :
    (unplannedContract D options).Holds
      (fun w L => ∀ e ∈ L, Resolver.IsPlanSet e.op → (w.inst ()).planCache ≠ none)
      (fun i c L r => Concluded D L i c r) p := by
  refine Contract.sound ?_ ?_ ?_ ?_ ?_ hp
  · exact fun e he => absurd he List.not_mem_nil
  · intro i c L op w ans w' hinv _ htr
    cases op with
    | planGet =>
      intro hans e he hset
      exact hinv e he hset (htr.1.symm.trans hans)
    | _ => trivial
  · intro i c L op w ans w' hinv _ htr e he hset
    have hafter := World.planCache_after_trans htr
    rcases List.mem_append.1 he with he | he
    · have hbefore := hinv e he hset
      rw [hafter]
      cases op with
      | planSet => exact Option.some_ne_none _
      | _ => exact hbefore
    · obtain rfl := List.mem_singleton.1 he
      rw [hafter]
      cases op with
      | planSet => exact Option.some_ne_none _
      | _ => exact absurd hset id
  · intro w w' L hinv htamper e he hset
    have hinst : w'.inst = w.inst := htamper
    rw [hinst]
    exact hinv e he hset
  · intro i c L
    exact (resolve_sat D (fun _ : Unit => options) L i c).assuming (fun _ _ h => h)
      fun _ _ _ _ => trivial

/-- **Once a plan is stored, nobody probes who has not looked for it before.**  In every run of
overlapping calls on one resolver, a health probe is sent only by a call that has looked for the
plan, and has found none, when no call had stored one yet. -/
theorem probes_before_plan
    (hp : (machine D (fun _ : Unit => options) Tampering).Reachable (World.new disk) p)
    (before after : RunLog Unit) (e : Entry (Call Unit) Op Ans)
    (hlog : p.log = before ++ e :: after) (he : Resolver.IsProbe e.op) :
    ∃ first rest, before = first ++ ⟨e.thread, e.tag, .planGet, none⟩ :: rest ∧
      ∀ x ∈ first, ¬ Resolver.IsPlanSet x.op := by
  have hmem : e ∈ p.log := by
    rw [hlog]
    exact List.mem_append_right _ List.mem_cons_self
  have htag := Machine.Reachable.tagged hp e hmem
  rw [Machine.tags, List.getElem?_map] at htag
  obtain ⟨⟨c, q⟩, hi, hc⟩ := Option.map_eq_some_iff.1 htag
  obtain rfl : c = e.tag := hc
  -- the call found no plan before it sent the probe
  obtain ⟨t', r, htrace, -⟩ := (hp.resumes hi).exists_trace (silentNet.answer)
  have hevents : p.log.events e.thread =
      Log.events before e.thread ++ ⟨e.op, e.ans⟩ :: Log.events after e.thread := by
    rw [hlog, Log.events_append, ← List.singleton_append, Log.events_append, Log.events_singleton,
      if_pos rfl]
    rfl
  rw [hevents, List.append_assoc, List.cons_append] at htrace
  obtain ⟨c', hlooked⟩ := Log.mem_events.1 (Resolver.planGet_before_probe htrace he)
  have hlooked' : (⟨e.thread, c', .planGet, none⟩ : Entry (Call Unit) Op Ans) ∈ p.log := by
    rw [hlog]
    exact List.mem_append_left _ hlooked
  have htag' := Machine.Reachable.tagged hp _ hlooked'
  rw [Machine.tags, List.getElem?_map, hi] at htag'
  obtain rfl : e.tag = c' := Option.some.inj htag'
  -- and nobody had stored one when it looked
  obtain ⟨first, rest, rfl⟩ := List.append_of_mem hlooked
  refine ⟨first, rest, rfl, ?_⟩
  refine ((unplanned_holds hp).kept first ⟨e.thread, e.tag, .planGet, none⟩ (rest ++ e :: after)
    ?_).2 rfl
  rw [hlog, List.append_assoc, List.cons_append]

/-- Whether an operation is the probe of the second tier. -/
def probesLocalhost : Op → Bool
  | .get url => url == localhostBase ++ "/health"
  | _ => false

lemma probed_silentPool : silentPool.log.any (fun e => probesLocalhost e.op) = true := by
  rw [silentPool, log_afterAlone_of_parse (Sample.parse_urn_chia [] []), List.any_append,
    List.any_map, Bool.or_eq_true]
  exact Or.inr (by decide +kernel)

/-- A first call probes, and has found no plan. -/
theorem probes_before_plan_first_call :
    ∃ before e after, silentPool.log = before ++ e :: after ∧ Resolver.IsProbe e.op ∧
      ∃ first rest, before = first ++ ⟨e.thread, e.tag, .planGet, none⟩ :: rest ∧
        ∀ x ∈ first, ¬ Resolver.IsPlanSet x.op := by
  obtain ⟨e, hmem, hprobes⟩ := List.any_eq_true.1 probed_silentPool
  have he : Resolver.IsProbe e.op := by
    cases hop : e.op with
    | get url =>
      rw [hop] at hprobes
      exact ⟨localhostBase, Or.inr rfl, congrArg Op.get (eq_of_beq hprobes)⟩
    | _ => simp [probesLocalhost, hop] at hprobes
  obtain ⟨before, after, hlog⟩ := List.append_of_mem hmem
  exact ⟨before, e, after, hlog, he, probes_before_plan reachable_silentPool before after e hlog he⟩

end DigUrnResolver
