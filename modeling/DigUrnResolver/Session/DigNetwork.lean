/-
# The client keeps nothing between its calls

A `DigNetwork` builds a resolver for each of its calls, so that only the directory and what the
transport has seen connect them.  Its calls are compared with those of a single resolver: they
agree as long as what that resolver remembers, its memory and its plan, makes no difference.
-/
import DigUrnResolver.Interaction.Machine
import DigUrnResolver.Session.Failure
import DigUrnResolver.Session.Planning
import DigUrnResolver.Source.Wasm

namespace DigUrnResolver

open Interaction

variable {D : Deps} {transport : Program.Oracle Op Ans} {o : ResolveOptions} {s u : Process}
  {v : ParsedUrn} {urn : String} {α : Type} {op : Op}

namespace Process

/-- Processes with the same directory, which have exchanged the same. -/
structure Agree (s u : Process) : Prop where
  disk : s.world.disk = u.world.disk
  past : s.past = u.past

/-- From both processes, the program sends the same requests and comes to the same value, and they
agree afterwards. -/
abbrev Same (D : Deps) (transport : Program.Oracle Op Ans) (p : Prog α) (s u : Process) : Prop :=
  p.RunsAlike (respond D transport) Resolver.IsRequest Agree s u

/-- The operation reads what a resolver remembers between its calls. -/
def IsRecall : Op → Prop
  | .memoryGet _ | .planGet => True
  | _ => False

/-! ### The surroundings of a process -/

lemma trans_respond (op : Op) (s : Process) :
    World.trans D ⟨(), urn⟩ op s.world (respond D transport op s).1
      (respond D transport op s).2.world := by
  rw [World.trans, respond]
  cases World.localStep D () op s.world with
  | some result => exact ⟨rfl, rfl⟩
  | none => cases op <;> rfl

lemma talks (urn : String) (p : Prog α) (s : Process) : Talks (World.trans D ⟨(), urn⟩) s.world
    (p.script (respond D transport) s) (p.run (respond D transport) s).2.world :=
  Program.talks_script world (fun op s => trans_respond op s) p s

/-- A resolve in a process. -/
lemma resolves (urn : String) (s : Process) : Resolves D (fun _ => o) ⟨(), urn⟩ s.world
    ((Resolver.resolve D o urn).script (respond D transport) s)
    ((Resolver.resolve D o urn).run (respond D transport) s).1
    ((Resolver.resolve D o urn).run (respond D transport) s).2.world where
  trace := Program.trace_run _ s
  talks := talks urn _ s

/-- **Processes that agree answer alike**, up to what their resolvers remember. -/
lemma Agree.respond (h : Agree s u) (hop : ¬ IsRecall op) :
    (respond D transport op s).1 = (respond D transport op u).1 ∧
      Agree (Process.respond D transport op s).2 (Process.respond D transport op u).2 := by
  obtain ⟨hdisk, hpast⟩ := h
  cases op with
  | memoryGet | planGet => exact absurd trivial hop
  | get url =>
    refine ⟨congrArg (transport · (.get url)) hpast, hdisk, ?_⟩
    show s.past ++ _ = u.past ++ _
    rw [hpast]
  | postJson url body =>
    refine ⟨congrArg (transport · (.postJson url body)) hpast, hdisk, ?_⟩
    show s.past ++ _ = u.past ++ _
    rw [hpast]
  | resolvesToLoopback | verifyAndDecrypt | memoryPut | planSet => exact ⟨rfl, hdisk, hpast⟩
  | diskGet file => exact ⟨World.getFile_congr hdisk file, hdisk, hpast⟩
  | diskRemove file =>
    refine ⟨rfl, ?_, hpast⟩
    show Function.update s.world.disk _ none = Function.update u.world.disk _ none
    rw [hdisk]
  | diskPut file art =>
    refine ⟨rfl, ?_, hpast⟩
    show (s.world.putFile D file art).disk = (u.world.putFile D file art).disk
    rw [World.putFile, World.putFile]
    cases D.artifactsToVec art with
    | none => exact hdisk
    | some contents =>
      show Function.update s.world.disk _ _ = Function.update u.world.disk _ _
      rw [hdisk]

/-- A program that recalls nothing runs alike in processes that agree. -/
lemma Agree.same {p : Prog α} (h : Agree s u) (hp : p.Only fun op => ¬ IsRecall op) :
    Same D transport p s u :=
  .of_only hp (fun _ hop _ _ h => h.respond hop) h

/-- Without requests, nothing is exchanged. -/
lemma past_run {p : Prog α} (hp : p.Only fun op => ¬ Resolver.IsRequest op) (s : Process) :
    (p.run (Process.respond D transport) s).2.past = s.past := by
  induction p generalizing s with
  | ret a => rfl
  | call op next ih =>
    rw [Program.run_call, ih _ (hp.2 _)]
    cases op with
    | get | postJson => exact absurd trivial hp.1
    | _ => rfl

/-! ### The consultation -/

lemma value_consult (s : Process) :
    ((Resolver.consult o v).run (Process.respond D transport) s).1 =
      s.world.cacheVerdict D o v () :=
  ((Resolver.trace_consult (Program.trace_run _ s)).verdict (talks "" _ s)).symm

lemma quiet_consult (s : Process) : ((((Resolver.consult o v).script (respond D transport) s).map
    Event.op).filter Resolver.IsRequest) = [] :=
  Resolver.requests_eq_nil.2 ((Program.trace_run _ s).of_only Resolver.quiet_consult)

lemma disk_consult_of_success {data : ResolvedData}
    (h : s.world.cacheVerdict D o v () = some (.success data)) :
    ((Resolver.consult o v).run (Process.respond D transport) s).2.world.disk = s.world.disk := by
  have hconsulted := Resolver.trace_consult
    (Program.trace_run (h := Process.respond D transport) (Resolver.consult o v) s)
  rw [value_consult, h] at hconsulted
  exact hconsulted.disk_of_success (talks "" _ s)

/-- A miss is a miss. -/
lemma same_consult_of_missed (h : Agree s u)
    (hs : ∀ root, v.rootHex = some root →
      (s.world.inst ()).memory.map.lookup (Resolver.cacheId v root) = none)
    (hu : ∀ root, v.rootHex = some root →
      (u.world.inst ()).memory.map.lookup (Resolver.cacheId v root) = none) :
    Same D transport (Resolver.consult o v) s u := by
  rw [Resolver.consult]
  cases hroot : v.rootHex with
  | none => exact .ret _ h
  | some root =>
    have hmissed : ∀ {s : Process},
        (s.world.inst ()).memory.map.lookup (Resolver.cacheId v root) = none →
        (respond D transport (.memoryGet (Resolver.cacheId v root)) s).1 = none := by
      intro s hnone
      refine (MemoryCache.get_fst _ _).trans ?_
      rw [hnone]
      rfl
    have hmissed_s := hmissed (hs root hroot)
    refine .call (hmissed_s.trans (hmissed (hu root hroot)).symm) ?_
    rw [hmissed_s]
    refine Agree.same ⟨h.disk, h.past⟩ ?_
    refine ((Resolver.only_diskGetVerified _).imp ?_).bind fun outcome => ?_
    · intro op hop
      cases op with
      | diskGet | verifyAndDecrypt | diskRemove => exact id
      | _ => exact absurd hop id
    · rcases outcome with _ | _ | _ | _
      · trivial
      · exact ⟨id, fun _ => trivial⟩
      · trivial
      · trivial

/-- **The consultation is the same where the caches come to the same verdict.** -/
lemma same_consult (h : Agree s u)
    (hverdict : s.world.cacheVerdict D o v () = u.world.cacheVerdict D o v ())
    (hmemory : (u.world.inst ()).memory = Instance.new.memory) :
    Same D transport (Resolver.consult o v) s u := by
  by_cases hsuccess : ∃ data, s.world.cacheVerdict D o v () = some (.success data)
  · obtain ⟨data, hdata⟩ := hsuccess
    refine ⟨?_, ?_, ?_, ?_⟩
    · rw [value_consult, value_consult, hverdict]
    · rw [quiet_consult, quiet_consult]
    · rw [disk_consult_of_success hdata, disk_consult_of_success (hverdict.symm.trans hdata)]
      exact h.disk
    · rw [past_run Resolver.quiet_consult, past_run Resolver.quiet_consult]
      exact h.past
  · refine same_consult_of_missed h ?_ ?_
    · intro root hroot
      by_contra hne
      obtain ⟨entry, hentry⟩ := Option.ne_none_iff_exists'.1 hne
      refine hsuccess ⟨entry.data, ?_⟩
      simp only [World.cacheVerdict, hroot, hentry]
    · intro root _
      rw [hmemory]
      exact AList.lookup_empty _

/-! ### The plan -/

/-- A network without replies, in which no name counts as loopback. -/
def nameless : World.Net where
  get _ := .error ⟨"fetch failed"⟩
  post _ _ := .error ⟨"fetch failed"⟩
  loopback _ := false

/-- The plan for an override. -/
def overridePlan (D : Deps) (base : String) : List Endpoint :=
  (buildPlan D (some base)).eval nameless.answer

/-- With an override, the stored plan is the one that would be built anew. -/
def Settled (D : Deps) (o : ResolveOptions) (s : Process) : Prop :=
  ∀ base plan, o.endpoint = some base → (s.world.inst ()).planCache = some plan →
    plan = overridePlan D base

lemma answer_of_isLookup {p : Prog α} {e : Event Op Ans}
    (he : e ∈ p.script (respond D transport) s) (hop : Resolver.IsLookup e.op) :
    e.ans = nameless.answer e.op := by
  obtain ⟨s', hs'⟩ := Program.exists_of_mem_script he
  obtain ⟨op, ans⟩ := e
  cases op with
  | resolvesToLoopback => exact hs'
  | _ => exact absurd hop id

/-- What is built for an override in a process. -/
lemma eq_overridePlan {p : Prog α} {base : String} {plan : List Endpoint}
    {probes : List (Event Op Ans)} (h : (buildPlan D (some base)).Trace probes plan)
    (hsub : ∀ e ∈ probes, e ∈ p.script (respond D transport) s) : plan = overridePlan D base := by
  refine h.eq_eval fun e he => answer_of_isLookup (hsub e he) ?_
  exact h.of_only (Resolver.only_buildPlan_override base) e he

lemma value_plan {base : String} (h : Settled D o s) (hend : o.endpoint = some base) :
    ((Resolver.plan D o).run (respond D transport) s).1 = overridePlan D base := by
  have hplanned := Resolver.trace_plan
    (Program.trace_run (h := respond D transport) (Resolver.plan D o) s)
  obtain ⟨-, ⟨hstored, -⟩ | ⟨-, probes, hprobes, hsub⟩⟩ :=
    @Resolver.Planned.stored Unit _ D (fun _ => o) _ _ ⟨(), ""⟩ _ _ hplanned (talks "" _ s)
  · exact h base _ hend hstored
  · rw [hend] at hprobes
    exact eq_overridePlan hprobes hsub

lemma quiet_plan {base : String} (hend : o.endpoint = some base) :
    (Resolver.plan D o).Only fun op => ¬ Resolver.IsRequest op := by
  refine ⟨id, fun cached => ?_⟩
  cases cached with
  | some plan => trivial
  | none =>
    have hbuild : (buildPlan D o.endpoint).Only fun op => ¬ Resolver.IsRequest op := by
      rw [hend]
      refine (Resolver.only_buildPlan_override base).imp fun op hop => ?_
      cases op with
      | resolvesToLoopback => exact id
      | _ => exact absurd hop id
    exact hbuild.bind fun plan => ⟨id, fun _ => trivial⟩

lemma disk_plan (s : Process) :
    ((Resolver.plan D o).run (respond D transport) s).2.world.disk = s.world.disk :=
  (eq_of_offCache (talks "" _ s)
    ((Program.trace_run _ s).of_only Resolver.offCache_plan)).2

lemma recallFree_buildPlan (endpoint : Option String) :
    (buildPlan D endpoint).Only fun op => ¬ IsRecall op := by
  refine (Resolver.only_buildPlan endpoint).imp fun op hop => ?_
  rcases hop with hop | ⟨tier, -, rfl⟩
  · cases op with
    | resolvesToLoopback => exact id
    | _ => exact absurd hop id
  · exact id

/-- **The plan is the same** when it is built, or belongs to an override. -/
lemma same_plan (h : Agree s u) (hs : Settled D o s)
    (hu : (u.world.inst ()).planCache = none)
    (hplan : (s.world.inst ()).planCache = none ∨ o.endpoint ≠ none) :
    Same D transport (Resolver.plan D o) s u := by
  rcases hplan with hnone | hoverride
  · have hmissed : (respond D transport .planGet s).1 = none := hnone
    refine .call (hmissed.trans hu.symm) ?_
    rw [hmissed]
    refine Agree.same h ?_
    exact (recallFree_buildPlan o.endpoint).bind fun plan => ⟨id, fun _ => trivial⟩
  · obtain ⟨base, hend⟩ := Option.ne_none_iff_exists'.1 hoverride
    have hsettled : Settled D o u := by
      intro base plan _ hstored
      cases hu.symm.trans hstored
    have hquiet : ∀ s : Process, ((((Resolver.plan D o).script (respond D transport) s).map
        Event.op).filter Resolver.IsRequest) = [] := fun s =>
      Resolver.requests_eq_nil.2 ((Program.trace_run _ s).of_only (quiet_plan hend))
    refine ⟨?_, ?_, ?_, ?_⟩
    · rw [value_plan hs hend, value_plan hsettled hend]
    · rw [hquiet, hquiet]
    · rw [disk_plan, disk_plan]
      exact h.disk
    · rw [past_run (quiet_plan hend), past_run (quiet_plan hend)]
      exact h.past

/-! ### The whole resolve -/

lemma recallFree_walk (last i : ℕ) (plan : List Endpoint) :
    (Resolver.walk D o v last i plan).Only fun op => ¬ IsRecall op := by
  induction plan generalizing i with
  | nil => trivial
  | cons endpoint rest ih =>
    have hfetch : (Resolver.fetchFrom D endpoint v).Only fun op => ¬ IsRecall op := by
      refine (Resolver.only_fetchFrom endpoint).imp fun op hop => ?_
      cases op with
      | get | postJson | verifyAndDecrypt => exact id
      | _ => exact absurd hop (not_or.2 ⟨id, id⟩)
    refine hfetch.bind fun result => ?_
    cases result with
    | ok fetched =>
      have hstore : (Resolver.cacheSuccess o v fetched).Only fun op => ¬ IsRecall op := by
        refine (Resolver.only_cacheSuccess fetched).imp fun op hop => ?_
        cases op with
        | memoryPut | diskPut => exact id
        | _ => exact absurd hop id
      exact hstore.bind fun _ => trivial
    | error e =>
      cases e with
      | notFound | transport =>
        dsimp only
        split_ifs
        · trivial
        · exact ih _
      | _ => trivial

/-- What the resolver remembers makes no difference to the resolve: its memory answers what the
directory would answer too, and no plan is stored that had to be built by probes. -/
def Indifferent (D : Deps) (o : ResolveOptions) (urn : String) (s : Process) : Prop :=
  ∀ v, ParsedUrn.parse D urn = .ok v →
    s.world.cacheVerdict D o v () = s.withNewResolver.world.cacheVerdict D o v () ∧
    (s.world.cacheVerdict D o v () = none →
      (s.world.inst ()).planCache = none ∨ o.endpoint ≠ none)

lemma planCache_consult (s : Process) :
    (((Resolver.consult o v).run (respond D transport) s).2.world.inst ()).planCache =
      (s.world.inst ()).planCache :=
  planCache_of_talks (talks "" _ s) (Resolver.trace_consult (Program.trace_run _ s)).not_isPlanOp ()

/-- **A resolve with a new resolver is the same where what is remembered makes no difference.** -/
lemma same_resolve (h : Agree s u) (hs : Settled D o s) (hindifferent : Indifferent D o urn s) :
    Same D transport (Resolver.resolve D o urn) s u.withNewResolver := by
  have hagree : Agree s u.withNewResolver := ⟨h.disk, h.past⟩
  rw [Resolver.resolve]
  cases hparse : ParsedUrn.parse D urn with
  | error e => exact .ret _ hagree
  | ok v =>
    obtain ⟨hverdict, hplan⟩ := hindifferent v hparse
    have hsame : s.withNewResolver.world = u.withNewResolver.world := by
      show World.new s.world.disk = World.new u.world.disk
      rw [h.disk]
    rw [hsame] at hverdict
    show Same D transport (Resolver.resolveParsed D o v) s u.withNewResolver
    rw [Resolver.resolveParsed_eq]
    have hconsult : Same D transport (Resolver.consult o v) s u.withNewResolver :=
      same_consult hagree hverdict rfl
    refine hconsult.bind ?_
    rw [value_consult]
    cases hnone : s.world.cacheVerdict D o v () with
    | some outcome => exact .ret _ hconsult.next
    | none =>
      have hsettled : Settled D o
          ((Resolver.consult o v).run (respond D transport) s).2 := by
        intro base plan hend hstored
        rw [planCache_consult] at hstored
        exact hs base plan hend hstored
      have hplanned : Same D transport (Resolver.plan D o) _ _ :=
        same_plan hconsult.next hsettled (planCache_consult _)
          ((planCache_consult s).symm ▸ hplan hnone)
      exact hplanned.bind (hplanned.next.same (recallFree_walk _ _ _))

/-- What is seen of a program: its requests and its value. -/
def observe (D : Deps) (transport : Program.Oracle Op Ans) (p : Prog α) (s : Process) :
    (List Op × α) × Process :=
  ((Resolver.requests (p.script (respond D transport) s), (p.run (respond D transport) s).1),
    (p.run (respond D transport) s).2)

/-- What the memory does not answer, a new resolver is answered alike. -/
lemma cacheVerdict_withNewResolver (h : ∀ data, s.world.cacheVerdict D o v () ≠
    some (.success data)) :
    s.withNewResolver.world.cacheVerdict D o v () = s.world.cacheVerdict D o v () := by
  simp only [World.cacheVerdict] at h ⊢
  cases hroot : v.rootHex with
  | none => rfl
  | some root =>
    simp only [hroot] at h ⊢
    have hempty : (s.withNewResolver.world.inst ()).memory.map.lookup
        (Resolver.cacheId v root) = none := AList.lookup_empty _
    rw [hempty]
    cases hlookup : (s.world.inst ()).memory.map.lookup (Resolver.cacheId v root) with
    | none => rfl
    | some entry =>
      rw [hlookup] at h
      exact absurd rfl (h entry.data)

/-- **Where the same is seen of the resolve with a new resolver, nothing was remembered that makes
a difference.** -/
lemma indifferent_of_observe (hhost : D.parsedHost localhostBase = some "localhost")
    (h : Agree s u) (hsame : (observe D transport (Resolver.resolve D o urn) s).1 =
      (observe D transport (Resolver.resolve D o urn) u.withNewResolver).1) :
    Indifferent D o urn s := by
  intro v hparse
  obtain ⟨hrequests, hvalue⟩ := Prod.mk.inj hsame
  have hold := @resolves D transport o urn s
  have hnew := @resolves D transport o urn u.withNewResolver
  have hworld : u.withNewResolver.world = s.withNewResolver.world := by
    show World.new u.world.disk = World.new s.world.disk
    rw [h.disk]
  have hverdict : s.world.cacheVerdict D o v () =
      s.withNewResolver.world.cacheVerdict D o v () := by
    by_cases hsuccess : ∃ data, s.world.cacheVerdict D o v () = some (.success data)
    · -- the new resolver succeeds without a request, too
      obtain ⟨data, hdata⟩ := hsuccess
      obtain ⟨hresult, hquiet⟩ := hold.of_cacheVerdict hparse hdata
      rw [← hvalue, hresult, hworld] at hnew
      rw [hdata]
      exact (hnew.cacheVerdict_of_quiet hparse (hrequests.symm.trans hquiet)).symm
    · exact (cacheVerdict_withNewResolver fun data hdata => hsuccess ⟨data, hdata⟩).symm
  refine ⟨hverdict, fun hnone => ?_⟩
  by_contra hnot
  obtain ⟨hstored, hend⟩ := not_or.1 hnot
  rw [not_not] at hend
  -- the new resolver probes, which nobody does who walks over a stored plan
  obtain ⟨plan, front, visits, heq, hwalks⟩ := hold.walks hparse hnone
  obtain ⟨plan', front', visits', heq', hwalks'⟩ := hnew.walks hparse (by
    rw [hworld]
    exact hverdict.symm.trans hnone)
  obtain ⟨-, hquiet⟩ := hwalks.before.resolve_right fun hright => hstored hright.1
  obtain ⟨-, probes, hprobes, hsub⟩ := hwalks'.before.resolve_left fun hleft => by cases hleft.1
  rw [hend] at hprobes
  obtain ⟨e, he, tier, htier, hop⟩ := Resolver.exists_probe hhost hprobes
  have hrequest : Resolver.IsRequest e.op := by
    rw [hop]
    trivial
  have hmem := Resolver.mem_requests_of_mem (List.mem_append_left visits' (hsub e he)) hrequest
  rw [← heq', ← hrequests, heq, Resolver.requests_append, hquiet, List.nil_append] at hmem
  obtain ⟨-, e', he', hop'⟩ := Resolver.mem_requests hmem
  rw [← hop'] at hrequest hop
  obtain ⟨endpoint, -, haddressed⟩ := hwalks.walked.addressed he' hrequest
  rw [hop] at haddressed
  exact Resolver.not_addressed_probe htier endpoint haddressed

/-- A resolver with an override keeps the plan of the override. -/
lemma Settled.run (h : Settled D o s) :
    Settled D o ((Resolver.resolve D o urn).run (respond D transport) s).2 := by
  intro base plan hend hstored
  rcases (@resolves D transport o urn s).planCache with
    hsame | ⟨-, plan', probes, hstored', hprobes, hsub⟩
  · exact h base plan hend (hsame.symm.trans hstored)
  · obtain rfl := Option.some.inj (hstored.symm.trans hstored')
    rw [hend] at hprobes
    exact eq_overridePlan hprobes hsub

end Process

/-! ### The client and a single resolver -/

/-- A call of the client, which uses a resolver of its own. -/
def DigNetwork.step (D : Deps) (transport : Program.Oracle Op Ans) (dig : DigNetwork) (s : Process)
    (call : JsCall) : (List Op × Except ResolveError ResolveOutcome) × Process :=
  s.withNewResolver.observe D transport (dig.body D call)

/-- The same call on the resolver of the process. -/
def Resolver.step (D : Deps) (transport : Program.Oracle Op Ans) (o : ResolveOptions) (s : Process)
    (call : JsCall) : (List Op × Except ResolveError ResolveOutcome) × Process :=
  s.observe D transport (Resolver.resolve D o call.urn)

lemma Wasm.opt_opt (text : Option String) : Wasm.opt (Wasm.opt text) = Wasm.opt text := by
  cases text with
  | none => rfl
  | some text =>
    by_cases h : Text.trim text = ""
    · simp [Wasm.opt, Option.filter, h]
    · simp [Wasm.opt, Option.filter, h]

/-- Each call of the client is a resolve with the options that it was built with. -/
lemma DigNetwork.body_new (parsed : Option ParsedOptions) (call : JsCall) :
    (DigNetwork.new parsed).body D call = Resolver.resolve D
      (Wasm.options (parsed.getD {}).endpoint (parsed.getD {}).cachePath) call.urn := by
  cases call with
  | resolve urn | resolveImageUrl urn =>
    simp only [DigNetwork.body, DigNetwork.new, DigNetwork.fromParts, Wasm.doResolve, Wasm.options,
      Wasm.opt_opt, JsCall.urn]

/-- **The client is a single resolver exactly as long as nothing that this resolver remembers makes
a difference**: what its memory answers, a file of the directory would answer too, and a resolve
that needs a plan finds none stored, or there is an override. -/
theorem DigNetwork.outputs_eq_iff_indifferent (hhost : D.parsedHost localhostBase = some "localhost")
    (transport : Program.Oracle Op Ans) (parsed : Option ParsedOptions)
    (disk : String → Option Bytes) (calls : List JsCall) :
    outputs (DigNetwork.step D transport (DigNetwork.new parsed)) (Process.start disk) calls =
      outputs (Resolver.step D transport
        (Wasm.options (parsed.getD {}).endpoint (parsed.getD {}).cachePath))
        (Process.start disk) calls ↔
    Throughout (Resolver.step D transport
        (Wasm.options (parsed.getD {}).endpoint (parsed.getD {}).cachePath))
      (fun s call => Process.Indifferent D
        (Wasm.options (parsed.getD {}).endpoint (parsed.getD {}).cachePath) call.urn s)
      (Process.start disk) calls := by
  rw [eq_comm]
  refine Interaction.outputs_eq_iff (R := fun s u => Process.Agree s u ∧ Process.Settled D
    (Wasm.options (parsed.getD {}).endpoint (parsed.getD {}).cachePath) s) ?_ ?_ ?_ calls
  · rintro s u call ⟨hagree, hsettled⟩
    rw [Resolver.step, DigNetwork.step, DigNetwork.body_new]
    constructor
    · intro hsame
      exact Process.indifferent_of_observe hhost hagree hsame
    · intro hindifferent
      have hrun : Process.Same D transport _ s u.withNewResolver :=
        Process.same_resolve hagree hsettled hindifferent
      exact Prod.ext hrun.observed hrun.value
  · rintro s u call ⟨hagree, hsettled⟩ hindifferent
    rw [Resolver.step, DigNetwork.step, DigNetwork.body_new]
    have hrun : Process.Same D transport _ s u.withNewResolver :=
      Process.same_resolve hagree hsettled hindifferent
    exact ⟨hrun.next, hsettled.run⟩
  · refine ⟨⟨rfl, rfl⟩, ?_⟩
    intro base plan _ hstored
    cases hstored

/-! ### An image that is resolved twice -/

namespace DigNetwork

/-- A node on this machine that attests whatever it is asked for. -/
def node : Program.Oracle Op Ans := fun _ op =>
  (⟨fun _ => .ok ⟨200, [("x-dig-verified", "true")], [7]⟩,
    fun _ _ => .error ⟨"fetch failed"⟩, fun _ => false⟩ : World.Net).answer op

def chia : String := Sample.urn "chia"

lemma parse_chia : ParsedUrn.parse (sample [] []) chia = .ok (Sample.parsed "chia") :=
  Sample.parse_urn_chia _ _

lemma host : (sample [] []).parsedHost localhostBase = some "localhost" := by decide +kernel

/-- The client with the default options. -/
def client (s : Process) : JsCall → (List Op × Except ResolveError ResolveOutcome) × Process :=
  DigNetwork.step (sample [] []) node (DigNetwork.new none) s

/-- A resolver with the default options. -/
def resolver (s : Process) : JsCall → (List Op × Except ResolveError ResolveOutcome) × Process :=
  Resolver.step (sample [] []) node (Wasm.options none none) s

lemma observe_chia (s : Process) :
    s.observe (sample [] []) node (Resolver.resolve (sample [] []) {} chia) =
      s.observe (sample [] []) node
        (Resolver.resolveParsed (sample [] []) {} (Sample.parsed "chia")) := by
  rw [Resolver.resolve_of_parse parse_chia]

lemma client_chia (s : Process) : client s (.resolve chia) =
    s.withNewResolver.observe (sample [] []) node
      (Resolver.resolveParsed (sample [] []) {} (Sample.parsed "chia")) := by
  rw [← observe_chia]
  rfl

lemma resolver_chia (s : Process) : resolver s (.resolve chia) =
    s.observe (sample [] []) node
      (Resolver.resolveParsed (sample [] []) {} (Sample.parsed "chia")) := by
  rw [← observe_chia]
  rfl

/-- What the program sees of a run, with the number of requests only. -/
def summary (out : List Op × Except ResolveError ResolveOutcome) :
    ℕ × Except ResolveError ResolveOutcome := (out.1.length, out.2)

lemma client_summary :
    (outputs client (Process.start fun _ => none) [.resolve chia, .resolve chia]).map summary =
      [(2, .ok (.success ⟨[7], "text/plain"⟩)), (2, .ok (.success ⟨[7], "text/plain"⟩))] := by
  simp only [outputs, client_chia]
  decide +kernel

lemma resolver_summary :
    (outputs resolver (Process.start fun _ => none) [.resolve chia, .resolve chia]).map summary =
      [(2, .ok (.success ⟨[7], "text/plain"⟩)), (0, .ok (.success ⟨[7], "text/plain"⟩))] := by
  simp only [outputs, resolver_chia]
  decide +kernel

/-- The second call of the client probes the ladder and asks the node again, that of the resolver
asks nobody. -/
theorem asks_again :
    outputs client (Process.start fun _ => none) [.resolve chia, .resolve chia] ≠
      outputs resolver (Process.start fun _ => none) [.resolve chia, .resolve chia] ∧
    (outputs client (Process.start fun _ => none) [.resolve chia, .resolve chia]).map summary =
      [(2, .ok (.success ⟨[7], "text/plain"⟩)), (2, .ok (.success ⟨[7], "text/plain"⟩))] ∧
    (outputs resolver (Process.start fun _ => none) [.resolve chia, .resolve chia]).map summary =
      [(2, .ok (.success ⟨[7], "text/plain"⟩)), (0, .ok (.success ⟨[7], "text/plain"⟩))] := by
  refine ⟨fun hsame => ?_, client_summary, resolver_summary⟩
  have hsummary := congrArg (List.map summary) hsame
  rw [client_summary, resolver_summary] at hsummary
  cases hsummary

/-! ### A file that verifies -/

/-- The executable instance, whose only file holds the ciphertext of two bytes. -/
def keeping : Deps := sample [] [(⟨[83, 1, 2], "qg==", []⟩, [1])]

lemma parse_keeping : ParsedUrn.parse keeping chia = .ok (Sample.parsed "chia") :=
  Sample.parse_urn_chia _ _

lemma host_keeping : keeping.parsedHost localhostBase = some "localhost" := by decide +kernel

/-- A node on this machine that serves ciphertext. -/
def blindNode : Program.Oracle Op Ans := fun _ op =>
  (⟨fun _ => .ok ⟨200, [("x-dig-encrypted", "true"), ("x-dig-inclusion-proof", "qg==")], [83, 1, 2]⟩,
    fun _ _ => .error ⟨"fetch failed"⟩, fun _ => false⟩ : World.Net).answer op

/-- The options of a client with an override and a directory. -/
def configured : ParsedOptions where
  endpoint := some "http://localhost:9778"
  cachePath := some "cache"

lemma options_configured : Wasm.options configured.endpoint configured.cachePath =
    { endpoint := some "http://localhost:9778", cachePath := some "cache" } := by decide +kernel

/-- The single resolver with these options. -/
def keeper (s : Process) : JsCall → (List Op × Except ResolveError ResolveOutcome) × Process :=
  Resolver.step keeping blindNode (Wasm.options configured.endpoint configured.cachePath) s

/-- The process after a first call on the resolver. -/
def kept : Process :=
  ((Resolver.resolveParsed keeping
    { endpoint := some "http://localhost:9778", cachePath := some "cache" } (Sample.parsed "chia")).run
      (Process.respond keeping blindNode) (Process.start fun _ => none)).2

lemma keeper_chia : (keeper (Process.start fun _ => none) (.resolve chia)).2 = kept := by
  rw [keeper, Resolver.step, options_configured, JsCall.urn, Process.observe,
    Resolver.resolve_of_parse parse_keeping, kept]

/-- The memory answers what the file answers, too. -/
lemma cacheVerdict_kept : kept.world.cacheVerdict keeping
      { endpoint := some "http://localhost:9778", cachePath := some "cache" } (Sample.parsed "chia") () =
        some (.success ⟨[1, 2], "text/plain"⟩) ∧
    kept.withNewResolver.world.cacheVerdict keeping
      { endpoint := some "http://localhost:9778", cachePath := some "cache" } (Sample.parsed "chia") () =
        some (.success ⟨[1, 2], "text/plain"⟩) := by
  decide +kernel

/-- With an override and a directory, a first call is the same, and so is a second one, which the
resolver answers from its memory and the client from the file. -/
theorem outputs_eq_from_file :
    outputs (DigNetwork.step keeping blindNode (DigNetwork.new (some configured)))
        (Process.start fun _ => none) [.resolve chia, .resolveImageUrl chia] =
      outputs keeper (Process.start fun _ => none) [.resolve chia, .resolveImageUrl chia] := by
  refine (DigNetwork.outputs_eq_iff_indifferent host_keeping blindNode (some configured)
    (fun _ => none) [.resolve chia, .resolveImageUrl chia]).2 ⟨?_, ?_, trivial⟩
  · intro v _
    exact ⟨rfl, fun _ => Or.inl rfl⟩
  · show Process.Indifferent keeping (Wasm.options configured.endpoint configured.cachePath) chia
      (keeper (Process.start fun _ => none) (.resolve chia)).2
    rw [keeper_chia, options_configured]
    intro v hv
    obtain rfl := Except.ok.inj (parse_keeping.symm.trans hv)
    obtain ⟨hmemory, hfile⟩ := cacheVerdict_kept
    exact ⟨hmemory.trans hfile.symm, fun _ => Or.inr (Option.some_ne_none _)⟩

end DigNetwork

end DigUrnResolver
