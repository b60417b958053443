/-
# The plan is made once

The first resolve that needs a plan builds it and stores it, and every later resolve of the same
resolver walks over the stored plan, whatever has become of the tiers since.
-/
import DigUrnResolver.Session.Consultation

namespace DigUrnResolver

open Interaction

namespace Resolver

/-- The conversations about the plan. -/
inductive Planned (D : Deps) (options : ResolveOptions) : List (Event Op Ans) → List Endpoint → Prop
  | cached (plan : List Endpoint) : Planned D options [⟨.planGet, some plan⟩] plan
  | built {probes : List (Event Op Ans)} {plan : List Endpoint}
      (h : (buildPlan D options.endpoint).Trace probes plan) :
      Planned D options (⟨.planGet, none⟩ :: (probes ++ [⟨.planSet plan, ()⟩])) plan

/-- The operation stores a plan. -/
def IsPlanSet : Op → Prop
  | .planSet _ => True
  | _ => False

/-- The operation looks for a plan or stores one. -/
def IsPlanOp : Op → Prop
  | .planGet | .planSet _ => True
  | _ => False

variable {D : Deps} {options : ResolveOptions} {parsed : ParsedUrn} {t : List (Event Op Ans)}
  {plan : List Endpoint} {r : Except ResolveError ResolveOutcome}

/-- **A plan is found or built.** -/
lemma trace_plan (h : (Resolver.plan D options).Trace t plan) : Planned D options t plan := by
  obtain ⟨stored, rest, rfl, hrest⟩ := Program.trace_call_iff.1 h
  cases stored with
  | some plan' =>
    obtain ⟨rfl, rfl⟩ := Program.trace_ret_iff.1 hrest
    exact .cached plan
  | none =>
    obtain ⟨plan', probes, last, rfl, hprobes, hlast⟩ :=
      (Program.trace_bind_iff (p := buildPlan D options.endpoint)).1 hrest
    obtain ⟨_, nothing, rfl, hret⟩ := Program.trace_call_iff.1 hlast
    obtain ⟨rfl, rfl⟩ := Program.trace_ret_iff.1 hret
    exact .built hprobes

/-! ### Nothing else touches the plan -/

lemma not_isPlanOp_of_isRequest_or_isVerification {op : Op} (h : IsRequest op ∨ IsVerification op) :
    ¬ IsPlanOp op := by
  cases op with
  | planGet | planSet => exact absurd h (not_or.2 ⟨id, id⟩)
  | _ => exact id

lemma Consulted.not_isPlanOp {answer : Option ResolveOutcome}
    (h : Consulted options parsed t answer) : ∀ e ∈ t, ¬ IsPlanOp e.op := by
  cases h with
  | rootless => simp
  | hit | noDirectory => simp [IsPlanOp]
  | noFile => simp [IsPlanOp]
  | verified | refused => simp [IsPlanOp, reverification]

lemma not_isPlanOp_cacheSuccess (fetched : Fetched) :
    (cacheSuccess options parsed fetched).Only fun op => ¬ IsPlanOp op := by
  refine (only_cacheSuccess fetched).imp fun op h => ?_
  cases op with
  | memoryPut | diskPut => exact id
  | _ => exact absurd h id

lemma Visit.Valid.not_isPlanOp {x : Visit} (hx : x.Valid D parsed) :
    ∀ e ∈ x.talk, ¬ IsPlanOp e.op :=
  hx.1.of_only ((only_fetchFrom x.endpoint).imp fun _ => not_isPlanOp_of_isRequest_or_isVerification)

/-! ### What a walk visits -/

/-- A walk over a plan with a first endpoint starts there, and ends there if it is served. -/
lemma Walked.first {endpoint : Endpoint} (h : Walked D options parsed (endpoint :: plan) t r) :
    ∃ x : Visit, x.endpoint = endpoint ∧ x.Valid D parsed ∧ (∀ e ∈ x.talk, e ∈ t) ∧
      ∀ fetched, x.result = .ok fetched → r = .ok (.success fetched.data) := by
  -- the first of the visits that are passed, if there is one, is not served
  have hfirst : ∀ {y : Visit} {passed : List Visit} {u : List (Event Op Ans)} {rest : List Endpoint},
      endpoint :: plan = (y :: passed).map Visit.endpoint ++ rest →
      (∀ z ∈ y :: passed, z.Passed D parsed) →
      ∃ x : Visit, x.endpoint = endpoint ∧ x.Valid D parsed ∧
        (∀ e ∈ x.talk, e ∈ (y :: passed).flatMap Visit.talk ++ u) ∧
        ∀ fetched, x.result = .ok fetched → r = .ok (.success fetched.data) := by
    intro y passed u rest hplan hpassed
    obtain ⟨hvalid, e, hresult, -⟩ := hpassed y List.mem_cons_self
    refine ⟨y, (List.cons.inj hplan).1.symm, hvalid, ?_, ?_⟩
    · intro e he
      exact List.mem_append_left _ (List.mem_flatMap.2 ⟨y, List.mem_cons_self, he⟩)
    · intro fetched hfetched
      cases hresult.symm.trans hfetched
  cases h with
  | @succeeded passed x late stored fetched hplan hpassed hx hresult =>
    cases passed with
    | nil =>
      refine ⟨x, (List.cons.inj hplan).1.symm, hx, ?_, ?_⟩
      · intro e he
        exact List.mem_append_left _ (List.mem_flatMap.2 ⟨x, List.mem_cons_self, he⟩)
      · intro fetched' hfetched
        rw [Except.ok.inj (hresult.symm.trans hfetched)]
    | cons y passed =>
      rw [List.flatMap_append, List.append_assoc]
      exact hfirst hplan hpassed
  | @failed passed x late e hplan hpassed hx hresult =>
    cases passed with
    | nil =>
      refine ⟨x, (List.cons.inj hplan).1.symm, hx, ?_, ?_⟩
      · intro e he
        exact List.mem_flatMap.2 ⟨x, List.mem_cons_self, he⟩
      · intro fetched hfetched
        cases hresult.symm.trans hfetched
    | cons y passed =>
      rw [List.flatMap_append]
      exact hfirst hplan hpassed
  | @exhausted passed _ hplan hpassed =>
    cases passed with
    | nil => cases hplan
    | cons y passed =>
      rw [← List.append_nil ((y :: passed).flatMap Visit.talk)]
      exact hfirst (hplan.trans (List.append_nil _).symm) hpassed

/-- A walk consists of visits of the first endpoints of its plan, and of what is stored at the
end. -/
lemma Walked.visits (h : Walked D options parsed plan t r) :
    ∃ (visits : List Visit) (late : List Endpoint) (stored : List (Event Op Ans)),
      plan = visits.map Visit.endpoint ++ late ∧ t = visits.flatMap Visit.talk ++ stored ∧
      (∀ x ∈ visits, x.Valid D parsed) ∧ (stored = [] ∨ ∃ fetched, (cacheSuccess options parsed fetched).Trace stored ()) := by
  have hall : ∀ {passed : List Visit} {x : Visit}, (∀ y ∈ passed, y.Passed D parsed) →
      x.Valid D parsed → ∀ y ∈ passed ++ [x], y.Valid D parsed := by
    intro passed x hpassed hx y hy
    rcases List.mem_append.1 hy with hy | hy
    · exact (hpassed y hy).1
    · obtain rfl := List.mem_singleton.1 hy
      exact hx
  cases h with
  | @succeeded passed x late stored fetched hplan hpassed hx hresult hstored =>
    refine ⟨passed ++ [x], late, stored, ?_, rfl, hall hpassed hx, Or.inr ⟨fetched, hstored⟩⟩
    rw [hplan, List.map_append, List.append_cons]
    rfl
  | @failed passed x late e hplan hpassed hx =>
    refine ⟨passed ++ [x], late, [], ?_, (List.append_nil _).symm, hall hpassed hx, Or.inl rfl⟩
    rw [hplan, List.map_append, List.append_cons]
    rfl
  | @exhausted passed _ hplan hpassed =>
    exact ⟨passed, [], [], hplan.trans (List.append_nil _).symm, (List.append_nil _).symm,
      fun y hy => (hpassed y hy).1, Or.inl rfl⟩

/-- Whoever is asked for the resource in a walk is an endpoint of the plan. -/
lemma Walked.addressed (h : Walked D options parsed plan t r) {e : Event Op Ans} (he : e ∈ t)
    (hrequest : IsRequest e.op) : ∃ endpoint ∈ plan, Addressed parsed endpoint e.op := by
  obtain ⟨visits, late, stored, rfl, rfl, hvalid, hstored⟩ := h.visits
  rcases List.mem_append.1 he with he | he
  · obtain ⟨x, hx, hmem⟩ := List.mem_flatMap.1 he
    exact ⟨_, List.mem_append_left _ (List.mem_map_of_mem hx),
      (hvalid x hx).addressed hmem hrequest⟩
  · rcases hstored with rfl | ⟨fetched, hstored⟩
    · cases he
    · exact absurd hrequest (hstored.of_only (quiet_cacheSuccess fetched) e he)

/-- A walk does not touch the plan. -/
lemma Walked.not_isPlanOp (h : Walked D options parsed plan t r) : ∀ e ∈ t, ¬ IsPlanOp e.op := by
  obtain ⟨visits, late, stored, -, rfl, hvalid, hstored⟩ := h.visits
  intro e he
  rcases List.mem_append.1 he with he | he
  · obtain ⟨x, hx, hmem⟩ := List.mem_flatMap.1 he
    exact (hvalid x hx).not_isPlanOp e hmem
  · rcases hstored with rfl | ⟨fetched, hstored⟩
    · cases he
    · exact hstored.of_only (not_isPlanOp_cacheSuccess fetched) e he

/-! ### The plans of the ladder -/

/-- A plan without an override: at most one node, and the gateway behind it. -/
def IsLadderPlan (plan : List Endpoint) : Prop :=
  plan = [.rpc rpcDefaultBase] ∨ ∃ tier, plan = [.node tier, .rpc rpcDefaultBase]

lemma returns_probeTiers (tiers : List String) :
    (probeTiers D tiers).Returns IsLadderPlan := by
  induction tiers with
  | nil => exact Or.inl rfl
  | cons tier rest ih =>
    refine (Program.Returns.trivial _).bind fun loopback _ => ?_
    cases loopback with
    | false => exact ih
    | true =>
      refine (Program.Returns.trivial _).bind fun healthy _ => ?_
      cases healthy with
      | false => exact ih
      | true => exact Or.inr ⟨tier, rfl⟩

/-- Where `localhost` is the host of the second tier, the ladder sends at least one probe. -/
lemma exists_probe (hhost : D.parsedHost localhostBase = some "localhost")
    (h : (buildPlan D none).Trace t plan) : ∃ e ∈ t, IsProbe e.op := by
  -- a tier on this machine is probed
  have hprobed : ∀ {tier : String} {k : Bool → Prog (List Endpoint)} {u : List (Event Op Ans)},
      tier = digLocalBase ∨ tier = localhostBase → (healthOk tier >>= k).Trace u plan →
      ∃ e ∈ u, IsProbe e.op := by
    intro tier k u htier htrace
    obtain ⟨answer, u', rfl, -⟩ := Program.trace_call_iff.1 htrace
    exact ⟨_, List.mem_cons_self, tier, htier, rfl⟩
  have hlocal : isLoopbackBase D localhostBase = .ret true := by
    have hbare : bareHost "localhost" = "localhost" := by decide +kernel
    rw [isLoopbackBase, hhost]
    show isLoopbackHost "localhost" = .ret true
    rw [isLoopbackHost, hbare, if_pos rfl]
    rfl
  rw [buildPlan, probeTiers] at h
  obtain ⟨loopback, front, back, rfl, -, hback⟩ := Program.trace_bind_iff.1 h
  suffices hmem : ∃ e ∈ back, IsProbe e.op by
    obtain ⟨e, he, hprobe⟩ := hmem
    exact ⟨e, List.mem_append_right _ he, hprobe⟩
  cases loopback with
  | true => exact hprobed (Or.inl rfl) hback
  | false =>
    change (probeTiers D [localhostBase]).Trace back plan at hback
    rw [probeTiers, hlocal] at hback
    exact hprobed (Or.inr rfl) hback

/-- A node of a ladder plan is its first endpoint. -/
lemma IsLadderPlan.eq_of_mem {tier : String} (h : IsLadderPlan plan)
    (hmem : Endpoint.node tier ∈ plan) : plan = [.node tier, .rpc rpcDefaultBase] := by
  rcases h with rfl | ⟨tier', rfl⟩
  · cases List.mem_singleton.1 hmem
  · rcases List.mem_pair.1 hmem with heq | heq
    · rw [heq]
    · cases heq

end Resolver

variable {ρ : Type} [DecidableEq ρ] {D : Deps} {options : ρ → ResolveOptions} {w w' : World ρ}
  {c : Call ρ} {t : List (Event Op Ans)} {v : ParsedUrn} {plan : List Endpoint} {r : ρ}
  {result : Except ResolveError ResolveOutcome}

/-! ### The stored plan -/

lemma planCache_of_talks (h : Talks (World.trans D c) w t w')
    (ht : ∀ e ∈ t, ¬ Resolver.IsPlanOp e.op) (r : ρ) :
    (w'.inst r).planCache = (w.inst r).planCache := by
  refine h.invariant (I := fun s => (s.inst r).planCache = (w.inst r).planCache) rfl ?_
  rintro ⟨op, ans⟩ he s s' hs htr
  have hop := ht _ he
  by_cases hr : r = c.resolver
  · subst hr
    rw [World.planCache_after_trans htr]
    cases op with
    | planSet => exact absurd trivial hop
    | _ => exact hs
  · rw [World.inst_of_trans_of_ne htr hr]
    exact hs

/-- After the planning, the plan is stored; it was there already, or there was none. -/
lemma Resolver.Planned.stored (h : Resolver.Planned D (options c.resolver) t plan)
    (htalks : Talks (World.trans D c) w t w') :
    (w'.inst c.resolver).planCache = some plan ∧
      ((w.inst c.resolver).planCache = some plan ∧ Resolver.requests t = [] ∨
        (w.inst c.resolver).planCache = none ∧ ∃ probes,
          (buildPlan D (options c.resolver).endpoint).Trace probes plan ∧ ∀ e ∈ probes, e ∈ t) := by
  cases h with
  | cached =>
    obtain ⟨w₁, hget, hrest⟩ := Talks.cons_iff.1 htalks
    obtain rfl := Talks.nil_iff.1 hrest
    obtain ⟨hstored, rfl⟩ := hget
    exact ⟨hstored.symm, Or.inl ⟨hstored.symm, rfl⟩⟩
  | @built probes _ hbuild =>
    obtain ⟨w₁, hget, hrest⟩ := Talks.cons_iff.1 htalks
    obtain ⟨w₂, -, hset⟩ := Talks.append_iff.1 hrest
    obtain ⟨w₃, hplan, hnil⟩ := Talks.cons_iff.1 hset
    obtain rfl := Talks.nil_iff.1 hnil
    refine ⟨World.planCache_after_trans hplan, Or.inr ⟨hget.1.symm, probes, hbuild, ?_⟩⟩
    intro e he
    exact List.mem_cons_of_mem _ (List.mem_append_left _ he)

/-- The resolver walks over the plan, which it found stored, or built when there was none.  The
`front` of the conversation comes before the visits. -/
structure Walks (D : Deps) (options : ResolveOptions) (v : ParsedUrn) (r : ρ) (w w' : World ρ)
    (front visits : List (Event Op Ans)) (result : Except ResolveError ResolveOutcome)
    (plan : List Endpoint) : Prop where
  walked : Resolver.Walked D options v plan visits result
  unaddressed : ∀ e ∈ front, Resolver.Unaddressed v e.op
  before : (w.inst r).planCache = some plan ∧ Resolver.requests front = [] ∨
    (w.inst r).planCache = none ∧ ∃ probes,
      (buildPlan D options.endpoint).Trace probes plan ∧ ∀ e ∈ probes, e ∈ front
  after : (w'.inst r).planCache = some plan

/-- **A resolve that the caches leave to the ladder walks over the plan.** -/
lemma Resolves.walks (h : Resolves D options c w t result w')
    (hparse : ParsedUrn.parse D c.urn = .ok v)
    (hverdict : w.cacheVerdict D (options c.resolver) v c.resolver = none) :
    ∃ plan front visits, t = front ++ visits ∧
      Walks D (options c.resolver) v c.resolver w w' front visits result plan := by
  obtain ⟨htrace, htalks⟩ := h
  cases Resolver.trace_resolveParsed (Resolver.trace_of_parse hparse htrace) with
  | cached hconsult =>
    cases hverdict.symm.trans ((Resolver.trace_consult hconsult).verdict htalks)
  | @walked lookups planning visits plan _ hconsult hplan hwalked =>
    obtain ⟨w₂, hfront, hvisits⟩ := Talks.append_iff.1 htalks
    obtain ⟨w₁, hlookups, hplanning⟩ := Talks.append_iff.1 hfront
    have hkept := planCache_of_talks hlookups (Resolver.trace_consult hconsult).not_isPlanOp c.resolver
    have hquiet : Resolver.requests lookups = [] :=
      Resolver.requests_eq_nil.2 (hconsult.of_only Resolver.quiet_consult)
    obtain ⟨hafter, hbefore⟩ := (Resolver.trace_plan hplan).stored hplanning
    rw [hkept] at hbefore
    refine ⟨plan, lookups ++ planning, visits, rfl, hwalked, ?_, ?_, ?_⟩
    · intro e he
      rcases List.mem_append.1 he with he | he
      · exact Resolver.unaddressed_of_not_isRequest (hconsult.of_only Resolver.quiet_consult e he)
      · exact hplan.of_only Resolver.unaddressed_plan e he
    · rcases hbefore with ⟨hsome, hnothing⟩ | ⟨hnone, probes, hprobes, hsub⟩
      · refine Or.inl ⟨hsome, ?_⟩
        rw [Resolver.requests_append, hquiet, hnothing]
        rfl
      · exact Or.inr ⟨hnone, probes, hprobes, fun e he => List.mem_append_right _ (hsub e he)⟩
    · rw [planCache_of_talks hvisits hwalked.not_isPlanOp]
      exact hafter

/-- A call leaves the plan of its resolver alone, or stores one when there was none. -/
lemma Resolves.planCache (h : Resolves D options c w t result w') :
    (w'.inst c.resolver).planCache = (w.inst c.resolver).planCache ∨
      (w.inst c.resolver).planCache = none ∧ ∃ plan probes,
        (w'.inst c.resolver).planCache = some plan ∧
          (buildPlan D (options c.resolver).endpoint).Trace probes plan ∧ ∀ e ∈ probes, e ∈ t := by
  cases hparse : ParsedUrn.parse D c.urn with
  | error e =>
    obtain ⟨htrace, htalks⟩ := h
    rw [Resolver.resolve, hparse] at htrace
    obtain ⟨rfl, -⟩ := Program.trace_ret_iff.1 htrace
    obtain rfl := Talks.nil_iff.1 htalks
    exact Or.inl rfl
  | ok v =>
    cases Resolver.trace_resolveParsed (Resolver.trace_of_parse hparse h.trace) with
    | cached hconsult =>
      exact Or.inl (planCache_of_talks h.talks (Resolver.trace_consult hconsult).not_isPlanOp _)
    | walked hconsult =>
      obtain ⟨w₁, hfront, -⟩ := Talks.append_iff.1 (List.append_assoc _ _ _ ▸ h.talks)
      obtain ⟨plan, front, visits, heq, hwalks⟩ :=
        h.walks hparse ((Resolver.trace_consult hconsult).verdict hfront)
      rcases hwalks.before with ⟨hbefore, -⟩ | ⟨hnone, probes, hprobes, hsub⟩
      · exact Or.inl (hwalks.after.trans hbefore.symm)
      · refine Or.inr ⟨hnone, plan, probes, hwalks.after, hprobes, fun e he => ?_⟩
        rw [heq]
        exact List.mem_append_left _ (hsub e he)

/-- **A stored plan stays for the rest of the session.** -/
lemma Calls.planCache_eq {xs : List (Done ρ)} (h : Calls D options w xs w')
    (hplan : (w.inst r).planCache = some plan) : (w'.inst r).planCache = some plan := by
  refine h.invariant (I := fun s => (s.inst r).planCache = some plan) hplan ?_ ?_
  · intro x _ s s' hs hcall
    by_cases hr : r = x.call.resolver
    · subst hr
      rcases hcall.planCache with hsame | ⟨hnone, -⟩
      · exact hsame.trans hs
      · cases hnone.symm.trans hs
    · rw [hcall.inst_of_ne hr]
      exact hs
  · intro s s' hs htamper
    rw [show _ = _ from htamper]
    exact hs

/-- **Without an override, the stored plans are those of the ladder.** -/
lemma Calls.isLadderPlan {xs : List (Done ρ)} {disk : String → Option Bytes}
    (h : Calls D options (World.new disk) xs w) (hauto : (options r).endpoint = none)
    (hplan : (w.inst r).planCache = some plan) : Resolver.IsLadderPlan plan := by
  refine h.invariant (I := fun s => ∀ plan, (s.inst r).planCache = some plan →
    Resolver.IsLadderPlan plan) ?_ ?_ ?_ plan hplan
  · intro plan hplan
    cases hplan
  · intro x _ s s' hs hcall plan hplan
    by_cases hr : r = x.call.resolver
    · subst hr
      rcases hcall.planCache with hsame | ⟨-, plan', probes, hstored, hbuild, -⟩
      · exact hs plan (hsame.symm.trans hplan)
      · obtain rfl := Option.some.inj (hplan.symm.trans hstored)
        rw [hauto] at hbuild
        exact hbuild.of_returns (Resolver.returns_probeTiers [digLocalBase, localhostBase])
    · rw [hcall.inst_of_ne hr] at hplan
      exact hs plan hplan
  · intro s s' hs htamper
    rw [show _ = _ from htamper]
    exact hs

end DigUrnResolver
