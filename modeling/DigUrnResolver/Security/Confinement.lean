/-
# Which endpoints are contacted

A plan is built by one call and used by many.  `PlanUsed` says that a call walks over a plan;
the invariant of the runs gives the call that built it, and with it what that call found out
about the bases of the plan.  From this follows where each request goes: a `GET` to a base that
was asserted loopback when the plan was built, a `POST` to any other, always as the verified
read of a pinned resource, and nowhere but to the override when there is one.
-/
import DigUrnResolver.Source.Conduct
import DigUrnResolver.Source.Sample

namespace DigUrnResolver

open Interaction

variable {ρ : Type} {D : Deps} {options : ResolveOptions} {L L' : RunLog ρ} {i j : ℕ}
  {c c' : Call ρ} {plan : List Endpoint}

/-! ### Plans -/

/-- What a plan without an override looks like to the call that built it: the gateway alone, or
behind the first default tier that was loopback and healthy. -/
def DefaultPlan (D : Deps) (L : RunLog ρ) (i : ℕ) (c : Call ρ) (plan : List Endpoint) : Prop :=
  plan = [.rpc rpcDefaultBase] ∧ Refused D L i c digLocalBase ∧ Refused D L i c localhostBase ∨
    plan = [.node digLocalBase, .rpc rpcDefaultBase] ∧ Admitted D L i c digLocalBase ∨
    plan = [.node localhostBase, .rpc rpcDefaultBase] ∧ Admitted D L i c localhostBase ∧
      Refused D L i c digLocalBase

lemma PlanBuilt.default (h : PlanBuilt D L i c options plan) (hnone : options.endpoint = none) :
    DefaultPlan D L i c plan := by
  rw [PlanBuilt, hnone] at h
  rcases h with ⟨hadm, hplan⟩ | ⟨hrefuse, ⟨hadm, hplan⟩ | ⟨hrefuse', hplan⟩⟩
  · exact Or.inr (Or.inl ⟨hplan, hadm⟩)
  · exact Or.inr (Or.inr ⟨hplan, hadm, hrefuse⟩)
  · exact Or.inl ⟨hplan, hrefuse, hrefuse'⟩

lemma DefaultPlan.loopback_of_mem (h : DefaultPlan D L i c plan) {base : String}
    (hmem : Endpoint.node base ∈ plan) : LoopbackVerdict D L i c base true := by
  rcases h with ⟨rfl, -⟩ | ⟨rfl, hadm⟩ | ⟨rfl, hadm, -⟩
  · simp [Endpoint.node, Endpoint.rpc] at hmem
  · obtain rfl : base = digLocalBase := by simpa [Endpoint.node, Endpoint.rpc] using hmem
    exact hadm.1
  · obtain rfl : base = localhostBase := by simpa [Endpoint.node, Endpoint.rpc] using hmem
    exact hadm.1

lemma DefaultPlan.eq_of_mem (h : DefaultPlan D L i c plan) {base : String}
    (hmem : Endpoint.rpc base ∈ plan) : base = rpcDefaultBase := by
  rcases h with ⟨rfl, -⟩ | ⟨rfl, -⟩ | ⟨rfl, -⟩ <;>
    simpa [Endpoint.node, Endpoint.rpc] using hmem

/-- A node endpoint of a plan was asserted loopback by the call that built the plan. -/
lemma PlanBuilt.loopback_of_mem (h : PlanBuilt D L i c options plan) {base : String}
    (hmem : Endpoint.node base ∈ plan) : LoopbackVerdict D L i c base true := by
  cases hend : options.endpoint with
  | none => exact (h.default hend).loopback_of_mem hmem
  | some b =>
    rw [PlanBuilt, hend] at h
    rcases h with ⟨hb, rfl⟩ | ⟨-, rfl⟩
    · obtain rfl : base = Text.trimEndMatches '/' b := by simpa [Endpoint.node] using hmem
      exact hb
    · simp [Endpoint.node, Endpoint.rpc] at hmem

/-- With an override, the plan is the override. -/
lemma PlanBuilt.base_of_mem (h : PlanBuilt D L i c options plan) {b : String}
    (hend : options.endpoint = some b) {endpoint : Endpoint} (hmem : endpoint ∈ plan) :
    endpoint.base = Text.trimEndMatches '/' b := by
  rw [PlanBuilt, hend] at h
  rcases h with ⟨-, rfl⟩ | ⟨-, rfl⟩ <;>
    · rw [List.mem_singleton.1 hmem]
      rfl

/-! ### Who built the plan that is used -/

/-- Some call built the plan. -/
def BuiltBy (D : Deps) (options : ResolveOptions) (L : RunLog ρ) (plan : List Endpoint) : Prop :=
  ∃ j c, PlanBuilt D L j c options plan

lemma BuiltBy.mono (h : BuiltBy D options L plan) (hL : L <+: L') : BuiltBy D options L' plan := by
  obtain ⟨j, c, hbuilt⟩ := h
  exact ⟨j, c, hbuilt.mono hL⟩

/-- The contract with what is known of a cached plan: some call built it. -/
def planContract (D : Deps) (options : ResolveOptions) : Contract (Call ρ) Op Ans where
  pre i c L op := Permitted D L i c options op
  known _ _ L
    | .planGet, ans => ∀ plan, ans = some plan → BuiltBy D options L plan
    | _, _ => True

/-- A plan that is used was built. -/
lemma builtBy_of_used (hkept : (planContract D options).Kept L) (hused : PlanUsed L i c plan) :
    BuiltBy D options L plan := by
  rcases hused with hget | hset
  · obtain ⟨L₁, hL₁, -, hknown⟩ := hkept.of_mem hget
    have hbuilt : BuiltBy D options L₁ plan := hknown plan rfl
    exact hbuilt.mono hL₁
  · obtain ⟨L₁, hL₁, hpre, -⟩ := hkept.of_mem hset
    have hbuilt : PlanBuilt D L₁ i c options plan := hpre
    exact ⟨i, c, hbuilt.mono hL₁⟩

/-- The cached plan was built by some call. -/
def PlanCached (D : Deps) (options : ResolveOptions) (w : World Unit) (L : RunLog Unit) : Prop :=
  ∀ plan, (w.inst ()).planCache = some plan → BuiltBy D options L plan

lemma PlanCached.step {w w' : World Unit} {L : RunLog Unit} {i : ℕ} {c : Call Unit} {op : Op}
    {ans : Ans op} (h : PlanCached D options w L) (hpre : Permitted D L i c options op)
    (htr : World.trans D c op w ans w') : PlanCached D options w' (L ++ [⟨i, c, op, ans⟩]) := by
  intro plan hplan
  rcases World.planCache_of_trans htr hplan with hold | ⟨-, rfl⟩
  · exact (h plan hold).mono (List.prefix_append _ _)
  · have hbuilt : PlanBuilt D L i c options plan := hpre
    exact ⟨i, c, hbuilt.mono (List.prefix_append _ _)⟩

lemma plans_hold {disk : String → Option Bytes} {p : RunPool Unit}
    (hp : (machine D (fun _ : Unit => options) Tampering).Reachable (World.new disk) p) :
    (planContract D options).Holds (PlanCached D options) (fun i c L r => Concluded D L i c r) p := by
  refine Contract.sound ?_ ?_ ?_ ?_ ?_ hp
  · intro plan hplan
    exact absurd hplan (by simp [World.new, Instance.new])
  · intro i c L op w ans w' hinv _ htr
    cases op with
    | planGet =>
      obtain ⟨hans, -⟩ := htr
      intro plan hplan
      exact hinv plan (hans.symm.trans hplan)
    | _ => trivial
  · intro i c L op w ans w' hinv hpre htr
    exact hinv.step hpre htr
  · intro w w' L hinv htamper
    have hinst : w'.inst = w.inst := htamper
    intro plan hplan
    rw [hinst] at hplan
    exact hinv plan hplan
  · intro i c L
    exact (resolve_sat D (fun _ : Unit => options) L i c).assuming (fun _ _ h => h)
      fun _ _ _ _ => trivial

/-! ### Requests -/

/-- The `GET` of a call is a probe of a default tier that the call asserted loopback, or the
request for its resource at a base that was asserted loopback when the plan was built. -/
inductive GetConfined (D : Deps) (options : ResolveOptions) (L : RunLog ρ) (i : ℕ) (c : Call ρ) :
    String → Prop
  | health {tier : String} (noOverride : options.endpoint = none)
      (tiers : tier ∈ [digLocalBase, localhostBase])
      (loopback : LoopbackVerdict D L i c tier true) : GetConfined D options L i c (tier ++ "/health")
  | serve {v : ParsedUrn} {plan : List Endpoint} {base : String} {j : ℕ} {c' : Call ρ}
      (names : Names D c v) (used : PlanUsed L i c plan) (built : PlanBuilt D L j c' options plan)
      (mem : Endpoint.node base ∈ plan) (loopback : LoopbackVerdict D L j c' base true) :
      GetConfined D options L i c (Node.serveUrl base v)

/-- The `POST` of a call reads a window of its pinned resource from an rpc endpoint of its
plan. -/
def PostConfined (D : Deps) (options : ResolveOptions) (L : RunLog ρ) (i : ℕ) (c : Call ρ)
    (url : String) (body : Json) : Prop :=
  ∃ v plan base root offset j c', Names D c v ∧ PlanUsed L i c plan ∧
    PlanBuilt D L j c' options plan ∧ Endpoint.rpc base ∈ plan ∧
    url = Text.trimEndMatches '/' base ∧ v.rootHex = some root ∧
    body = Rpc.callBody "dig.getContent" (Rpc.getContentParams D v root offset)

/-- Where the requests of a run go. -/
structure Confined (D : Deps) (options : ResolveOptions) (L : RunLog ρ) : Prop where
  gets : ∀ L₁ L₂ i c url ans, L = L₁ ++ ⟨i, c, .get url, ans⟩ :: L₂ →
    GetConfined D options L₁ i c url
  posts : ∀ L₁ L₂ i c url body ans, L = L₁ ++ ⟨i, c, .postJson url body, ans⟩ :: L₂ →
    PostConfined D options L₁ i c url body
  overrideGets : ∀ b, options.endpoint = some b → ∀ i c url ans, Did L i c (.get url) ans →
    (∃ v, Names D c v ∧ url = Node.serveUrl (Text.trimEndMatches '/' b) v) ∧
      url ≠ digLocalBase ++ "/health" ∧ url ≠ localhostBase ++ "/health"
  overridePosts : ∀ b, options.endpoint = some b → ∀ i c url body ans,
    Did L i c (.postJson url body) ans → url = Text.trimEndMatches '/' b
  plans : options.endpoint = none → ∀ i c plan, PlanUsed L i c plan →
    ∃ j c', DefaultPlan D L j c' plan
  gatewayPosts : options.endpoint = none → ∀ i c url body ans,
    Did L i c (.postJson url body) ans → url = rpcDefaultBase

/-- Every `GET` of a run is confined. -/
lemma getConfined_of_reachable {disk : String → Option Bytes} {p : RunPool Unit}
    (hp : (machine D (fun _ : Unit => options) Tampering).Reachable (World.new disk) p)
    (L₁ L₂ : RunLog Unit) (i : ℕ) (c : Call Unit) (url : String) (ans : Ans (.get url))
    (hlog : p.log = L₁ ++ ⟨i, c, .get url, ans⟩ :: L₂) : GetConfined D options L₁ i c url := by
  have hkept := (plans_hold hp).kept
  have hpre : GetPermitted D L₁ i c options url := (hkept L₁ _ L₂ hlog).1
  cases hpre with
  | health noOverride tiers loopback => exact .health noOverride tiers loopback
  | serve names used mem =>
    have hL₁ := hkept.of_prefix (hlog ▸ List.prefix_append _ _)
    obtain ⟨j, c', hplan⟩ := builtBy_of_used hL₁ used
    exact .serve names used hplan mem (hplan.loopback_of_mem mem)

/-- **Endpoint confinement**, in every run of calls on one resolver. -/
theorem endpoints_confined {disk : String → Option Bytes} {p : RunPool Unit}
    (hp : (machine D (fun _ : Unit => options) Tampering).Reachable (World.new disk) p) :
    Confined D options p.log := by
  have hkept := (plans_hold hp).kept
  have hbuilt : ∀ {L i c plan}, L <+: p.log → PlanUsed L i c plan → BuiltBy D options L plan :=
    fun hL hused => builtBy_of_used (hkept.of_prefix hL) hused
  have hget := getConfined_of_reachable hp
  have hpost : ∀ L₁ L₂ i c url body ans, p.log = L₁ ++ ⟨i, c, .postJson url body, ans⟩ :: L₂ →
      PostConfined D options L₁ i c url body := by
    intro L₁ L₂ i c url body ans hlog
    obtain ⟨v, plan, base, root, offset, hv, hused, hmem, hrest⟩ := (hkept L₁ _ L₂ hlog).1
    obtain ⟨j, c', hplan⟩ := hbuilt (hlog ▸ List.prefix_append _ _) hused
    exact ⟨v, plan, base, root, offset, j, c', hv, hused, hplan, hmem, hrest⟩
  refine ⟨hget, hpost, ?_, ?_, ?_, ?_⟩
  · intro b hend i c url ans hdid
    obtain ⟨L₁, L₂, hlog⟩ := List.append_of_mem hdid
    cases hget L₁ L₂ i c url ans hlog with
    | health noOverride => exact absurd (hend.symm.trans noOverride) (by simp)
    | @serve v plan base j c' names used built mem loopback =>
      obtain rfl : base = Text.trimEndMatches '/' b := built.base_of_mem hend mem
      exact ⟨⟨v, names, rfl⟩, Node.serveUrl_ne_of_length_lt (by decide),
        Node.serveUrl_ne_of_length_lt (by decide)⟩
  · intro b hend i c url body ans hdid
    obtain ⟨L₁, L₂, hlog⟩ := List.append_of_mem hdid
    obtain ⟨v, plan, base, root, offset, j, c', -, -, hplan, hmem, rfl, -⟩ :=
      hpost L₁ L₂ i c url body ans hlog
    obtain rfl : base = Text.trimEndMatches '/' b := hplan.base_of_mem hend hmem
    exact Text.trimEndMatches_idem '/' b
  · intro hnone i c plan hused
    obtain ⟨j, c', hplan⟩ := hbuilt List.prefix_rfl hused
    exact ⟨j, c', hplan.default hnone⟩
  · intro hnone i c url body ans hdid
    obtain ⟨L₁, L₂, hlog⟩ := List.append_of_mem hdid
    obtain ⟨v, plan, base, root, offset, j, c', -, -, hplan, hmem, rfl, -⟩ :=
      hpost L₁ L₂ i c url body ans hlog
    obtain rfl := (hplan.default hnone).eq_of_mem hmem
    decide

/-! ### The override may be the gateway itself -/

namespace Confined

/-- A network without any host. -/
def unpluggedNet : World.Net where
  get _ := .error ⟨"connection refused"⟩
  post _ _ := .error ⟨"connection refused"⟩
  loopback _ := false

/-- The override names the public gateway. -/
def gatewayOptions : Unit → ResolveOptions := fun _ => { endpoint := some "https://rpc.dig.net" }

def call : Call Unit := ⟨(), Sample.urn "chia"⟩

def pool : RunPool Unit :=
  afterAlone (sample [] []) gatewayOptions unpluggedNet call ⟨World.new fun _ => none, [], []⟩

lemma reachable_pool :
    (machine (sample [] []) gatewayOptions Tampering).Reachable (World.new fun _ => none) pool :=
  reachable_afterAlone .refl _ _

lemma names_call : Names (sample [] []) call (Sample.parsed "chia") := Sample.parse_urn_chia [] []

/-- Whether an operation is a request to the gateway. -/
def isGatewayPost : Op → Bool
  | .postJson url _ => url == rpcDefaultBase
  | _ => false

lemma exists_gatewayPost : pool.log.any (fun e => isGatewayPost e.op) = true := by
  rw [pool, log_afterAlone_of_parse names_call, List.any_append, List.any_map, Bool.or_eq_true]
  exact Or.inr (by decide +kernel)

/-- With an override, a request may go to the gateway: when the override is the gateway. -/
theorem override_contacts_gateway :
    ∃ p : RunPool Unit, (machine (sample [] []) gatewayOptions Tampering).Reachable
      (World.new fun _ => none) p ∧ (gatewayOptions ()).endpoint ≠ none ∧
      ∃ i c body ans, Did p.log i c (.postJson rpcDefaultBase body) ans := by
  refine ⟨pool, reachable_pool, by simp [gatewayOptions], ?_⟩
  obtain ⟨⟨i, c, op, ans⟩, he, hpost⟩ := List.any_eq_true.1 exists_gatewayPost
  cases op with
  | postJson url body =>
    obtain rfl : url = rpcDefaultBase := by simpa [isGatewayPost] using hpost
    exact ⟨i, c, body, ans, he⟩
  | _ => simp [isGatewayPost] at hpost

/-- The run above is confined to its override. -/
theorem endpoints_confined_gateway : Confined (sample [] []) (gatewayOptions ()) pool.log :=
  endpoints_confined reachable_pool

end Confined

end DigUrnResolver
