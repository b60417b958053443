/-
# The walk over the ladder

A resolve that is not answered by a cache visits the endpoints of its plan one after the other.
`Walked` says what its conversation consists of: the visits of the endpoints that had nothing,
and of the first one that had something to say, which decides the result.  A visit talks to its
own endpoint and to nobody else, so what later endpoints would have said plays no role.
-/
import DigUrnResolver.Gateway.Rounds
import DigUrnResolver.Source.Resolver
import DigUrnResolver.Source.Sample

namespace DigUrnResolver.Resolver

open Interaction

variable (D : Deps) (options : ResolveOptions) (parsed : ParsedUrn)

/-! ### Visits -/

/-- One fetch of the walk: from where, with which conversation and result. -/
structure Visit where
  endpoint : Endpoint
  talk : List (Event Op Ans)
  result : Except ResolveError Fetched

/-- An error with which the walk goes on: absence, or unreachability. -/
def FallsThrough (e : ResolveError) : Prop := e = .notFound ∨ ∃ message, e = .transport message

/-- The result for an error with which the walk ends. -/
def failure : ResolveError → Except ResolveError ResolveOutcome
  | .verifyFailed _ | .decryptFailed => .ok .integrityFailure
  | e => .error e

lemma failure_ne_success (e : ResolveError) (data : ResolvedData) :
    failure e ≠ .ok (.success data) := by
  intro h
  cases e <;> cases h

/-- The operation is a request. -/
def IsRequest : Op → Prop
  | .get _ | .postJson _ _ => True
  | _ => False

instance : DecidablePred IsRequest
  | .get _ | .postJson _ _ => isTrue trivial
  | .resolvesToLoopback _ | .verifyAndDecrypt _ _ _ _ _ | .memoryGet _ | .memoryPut _ _
  | .diskGet _ | .diskPut _ _ | .diskRemove _ | .planGet | .planSet _ => isFalse id

/-- The operation is the lookup of a name. -/
def IsLookup : Op → Prop
  | .resolvesToLoopback _ => True
  | _ => False

/-- The operation is one of the read-crypto. -/
def IsVerification : Op → Prop
  | .verifyAndDecrypt _ _ _ _ _ => True
  | _ => False

/-- The operation stores something in a cache. -/
def IsStore : Op → Prop
  | .memoryPut _ _ | .diskPut _ _ => True
  | _ => False

/-- The operation reads a file, verifies what it holds, or removes it. -/
def IsFileCheck : Op → Prop
  | .diskGet _ | .verifyAndDecrypt _ _ _ _ _ | .diskRemove _ => True
  | _ => False

/-- The requests of a conversation. -/
def requests (t : List (Event Op Ans)) : List Op := (t.map Event.op).filter IsRequest

/-- The operation is a request to the endpoint for the resource. -/
def Addressed (endpoint : Endpoint) (op : Op) : Prop :=
  match endpoint.kind with
  | .node => op = .get (Node.serveUrl endpoint.base parsed)
  | .rpc => ∃ body, op = .postJson (Text.trimEndMatches '/' endpoint.base) body

/-- The endpoint of a visit is contacted, and nobody else: a node by a single request, the
gateway by one for each window, of which there are none only if a root is missing. -/
def Visit.Contacts (x : Visit) : Prop :=
  match x.endpoint.kind with
  | .node => requests x.talk = [.get (Node.serveUrl x.endpoint.base parsed)]
  | .rpc => (∀ op ∈ requests x.talk, Addressed parsed x.endpoint op) ∧
      (requests x.talk = [] → x.result = .error .rootRequired)

/-- The visit is a fetch of the resource. -/
def Visit.Valid (x : Visit) : Prop :=
  (fetchFrom D x.endpoint parsed).Trace x.talk x.result ∧ x.Contacts parsed

/-- A visit after which the walk goes on. -/
def Visit.Passed (x : Visit) : Prop :=
  x.Valid D parsed ∧ ∃ e, x.result = .error e ∧ FallsThrough e

/-- `Walked D options parsed plan t r` : the walk over the plan may consist of the conversation
`t`, and end with `r`. -/
inductive Walked (plan : List Endpoint) :
    List (Event Op Ans) → Except ResolveError ResolveOutcome → Prop
  | succeeded {passed : List Visit} {x : Visit} {late : List Endpoint}
      {stored : List (Event Op Ans)} {fetched : Fetched}
      (hplan : plan = passed.map Visit.endpoint ++ x.endpoint :: late)
      (hpassed : ∀ y ∈ passed, y.Passed D parsed) (hx : x.Valid D parsed)
      (hresult : x.result = .ok fetched)
      (hstored : (cacheSuccess options parsed fetched).Trace stored ())
      (hquiet : requests stored = []) :
      Walked plan ((passed ++ [x]).flatMap Visit.talk ++ stored) (.ok (.success fetched.data))
  | failed {passed : List Visit} {x : Visit} {late : List Endpoint} {e : ResolveError}
      (hplan : plan = passed.map Visit.endpoint ++ x.endpoint :: late)
      (hpassed : ∀ y ∈ passed, y.Passed D parsed) (hx : x.Valid D parsed)
      (hresult : x.result = .error e) (he : ¬ FallsThrough e) :
      Walked plan ((passed ++ [x]).flatMap Visit.talk) (failure e)
  | exhausted {passed : List Visit} {r : Except ResolveError ResolveOutcome}
      (hplan : plan = passed.map Visit.endpoint) (hpassed : ∀ y ∈ passed, y.Passed D parsed)
      (hr : r = .error .notFound ∨ r = .ok .unreachable) :
      Walked plan (passed.flatMap Visit.talk) r

/-! ### The cache lookups -/

/-- The cache lookups of `resolve`: the outcome, if a cache answers. -/
def consult : Prog (Option ResolveOutcome) :=
  match parsed.rootHex.map (cacheId parsed) with
  | none => return none
  | some id => do
    match ← memoryGet id with
    | some data => return some (.success data)
    | none =>
      match ← diskGetVerified options parsed id with
      | some (.success data) => do
        memoryPut id data
        return some (.success data)
      | outcome => return outcome

lemma resolveParsed_eq : resolveParsed D options parsed = (do
    match ← consult options parsed with
    | some outcome => return .ok outcome
    | none => resolveUncached D options parsed) := by
  rw [resolveParsed, consult]
  cases parsed.rootHex.map (cacheId parsed) with
  | none => rfl
  | some id =>
    dsimp only
    rw [Program.bind_assoc]
    refine congrArg _ (funext fun answer => ?_)
    cases answer with
    | some data => rfl
    | none =>
      dsimp only
      rw [Program.bind_assoc]
      refine congrArg _ (funext fun outcome => ?_)
      rcases outcome with _ | _ | _ | _
      · rfl
      · rfl
      · rfl
      · rfl

/-- A resolve is answered by a cache, or walks over its plan. -/
inductive Resolved : List (Event Op Ans) → Except ResolveError ResolveOutcome → Prop
  | cached {t : List (Event Op Ans)} {outcome : ResolveOutcome}
      (h : (consult options parsed).Trace t (some outcome)) : Resolved t (.ok outcome)
  | walked {lookups planning t : List (Event Op Ans)} {plan : List Endpoint}
      {r : Except ResolveError ResolveOutcome}
      (hlookups : (consult options parsed).Trace lookups none)
      (hplan : (Resolver.plan D options).Trace planning plan)
      (h : Walked D options parsed plan t r) : Resolved (lookups ++ planning ++ t) r

/-! ### Who is contacted -/

variable {D options parsed}

@[simp] lemma requests_append (t t' : List (Event Op Ans)) :
    requests (t ++ t') = requests t ++ requests t' := by
  rw [requests, List.map_append, List.filter_append]
  rfl

lemma requests_eq_nil {t : List (Event Op Ans)} :
    requests t = [] ↔ ∀ e ∈ t, ¬ IsRequest e.op := by
  simp [requests]

lemma mem_requests {t : List (Event Op Ans)} {op : Op} (h : op ∈ requests t) :
    IsRequest op ∧ ∃ e ∈ t, e.op = op := by
  obtain ⟨hmem, hrequest⟩ := List.mem_filter.1 h
  exact ⟨of_decide_eq_true hrequest, List.mem_map.1 hmem⟩

lemma mem_requests_of_mem {t : List (Event Op Ans)} {e : Event Op Ans} (he : e ∈ t)
    (hrequest : IsRequest e.op) : e.op ∈ requests t :=
  List.mem_filter.2 ⟨List.mem_map_of_mem he, decide_eq_true hrequest⟩

lemma isRequest_of_addressed {endpoint : Endpoint} {op : Op}
    (h : Addressed parsed endpoint op) : IsRequest op := by
  rw [Addressed] at h
  cases hkind : endpoint.kind with
  | node =>
    rw [hkind] at h
    rw [h]
    trivial
  | rpc =>
    rw [hkind] at h
    obtain ⟨body, rfl⟩ := h
    trivial

/-- A success is stored, and nothing else is done about it. -/
lemma only_cacheSuccess (fetched : Fetched) :
    (cacheSuccess options parsed fetched).Only IsStore := by
  rw [cacheSuccess]
  cases fetched.root with
  | none => trivial
  | some root =>
    refine ⟨trivial, fun _ => ?_⟩
    cases options.cachePath with
    | none => trivial
    | some dir =>
      cases fetched.artifacts with
      | none => trivial
      | some art => exact ⟨trivial, fun _ => trivial⟩

lemma quiet_cacheSuccess (fetched : Fetched) :
    (cacheSuccess options parsed fetched).Only fun op => ¬ IsRequest op := by
  refine (only_cacheSuccess fetched).imp fun op h => ?_
  cases op with
  | memoryPut | diskPut => exact id
  | _ => exact absurd h id

/-- Whatever a node replies, nothing is done but to verify it. -/
lemma only_accept (resp : HttpResponse) : (Node.accept parsed resp).Only IsVerification := by
  rw [Node.accept]
  split_ifs
  · trivial
  · trivial
  · trivial
  · rw [Node.acceptCiphertext]
    cases resp.header "x-dig-inclusion-proof" with
    | none => trivial
    | some proof =>
      cases Node.nodeRoot parsed resp with
      | none => trivial
      | some root =>
        dsimp only
        cases Node.parseChunkLens (resp.header "x-dig-chunk-lens") with
        | error e => trivial
        | ok lens =>
          refine ⟨trivial, fun verdict => ?_⟩
          cases verdict <;> trivial
  · trivial

lemma not_isRequest_of_isVerification {op : Op} (h : IsVerification op) : ¬ IsRequest op := by
  cases op with
  | verifyAndDecrypt => exact id
  | _ => exact absurd h id

lemma quiet_accept (resp : HttpResponse) :
    (Node.accept parsed resp).Only fun op => ¬ IsRequest op :=
  (only_accept resp).imp fun _ => not_isRequest_of_isVerification

lemma only_diskGetVerified (id : String) :
    (diskGetVerified options parsed id).Only IsFileCheck := by
  rw [diskGetVerified]
  cases options.cachePath with
  | none => trivial
  | some dir =>
    cases parsed.rootHex with
    | none => trivial
    | some root =>
      refine ⟨trivial, fun entry => ?_⟩
      cases entry with
      | none => trivial
      | some art =>
        refine ⟨trivial, fun verdict => ?_⟩
        rcases verdict with e | bytes
        · cases e <;> exact ⟨trivial, fun _ => trivial⟩
        · trivial

lemma quiet_diskGetVerified (file : String) :
    (diskGetVerified options parsed file).Only fun op => ¬ IsRequest op := by
  refine (only_diskGetVerified file).imp fun op h => ?_
  cases op with
  | diskGet | verifyAndDecrypt | diskRemove => exact id
  | _ => exact absurd h id

lemma quiet_consult : (consult options parsed).Only fun op => ¬ IsRequest op := by
  rw [consult]
  cases parsed.rootHex.map (cacheId parsed) with
  | none => trivial
  | some id =>
    refine ⟨fun h => h, fun answer => ?_⟩
    cases answer with
    | some data => trivial
    | none =>
      refine (quiet_diskGetVerified id).bind fun outcome => ?_
      rcases outcome with _ | _ | _ | _
      · trivial
      · exact ⟨fun h => h, fun _ => trivial⟩
      · trivial
      · trivial

/-- A probe is not a request for a resource. -/
lemma not_addressed_probe {tier : String} (htier : tier = digLocalBase ∨ tier = localhostBase)
    (endpoint : Endpoint) : ¬ Addressed parsed endpoint (.get (tier ++ "/health")) := by
  rw [Addressed]
  cases endpoint.kind with
  | node =>
    intro h
    have hurl : Node.serveUrl endpoint.base parsed = tier ++ "/health" := (Op.get.inj h).symm
    rcases htier with rfl | rfl
    · exact Node.serveUrl_ne_of_length_lt (by decide) hurl
    · exact Node.serveUrl_ne_of_length_lt (by decide) hurl
  | rpc =>
    rintro ⟨body, h⟩
    cases h

/-- No endpoint is asked for the resource. -/
def Unaddressed (parsed : ParsedUrn) (op : Op) : Prop := ∀ endpoint, ¬ Addressed parsed endpoint op

lemma unaddressed_of_not_isRequest {op : Op} (h : ¬ IsRequest op) : Unaddressed parsed op :=
  fun _ haddressed => h (isRequest_of_addressed haddressed)

/-- Whether a base is loopback is found out by a lookup at most. -/
lemma only_isLoopbackBase (base : String) : (isLoopbackBase D base).Only IsLookup := by
  rw [isLoopbackBase]
  cases D.parsedHost base with
  | none => trivial
  | some host =>
    simp only [isLoopbackHost]
    split_ifs
    · trivial
    · cases IpAddr.parse (bareHost host) with
      | some ip => trivial
      | none => exact ⟨trivial, fun _ => trivial⟩
    · cases IpAddr.parse (bareHost host) <;> trivial

/-- The operation is a health probe of a default tier. -/
def IsProbe (op : Op) : Prop :=
  ∃ tier, (tier = digLocalBase ∨ tier = localhostBase) ∧ op = .get (tier ++ "/health")

lemma only_probeTiers {tiers : List String}
    (h : ∀ tier ∈ tiers, tier = digLocalBase ∨ tier = localhostBase) :
    (probeTiers D tiers).Only fun op => IsLookup op ∨ IsProbe op := by
  induction tiers with
  | nil => trivial
  | cons tier rest ih =>
    have hrest := ih fun tier' h' => h tier' (List.mem_cons_of_mem _ h')
    refine ((only_isLoopbackBase tier).imp fun _ => Or.inl).bind fun loopback => ?_
    cases loopback with
    | false => exact hrest
    | true =>
      have hhealth : (healthOk tier).Only fun op => IsLookup op ∨ IsProbe op := by
        refine ⟨Or.inr ⟨tier, h tier List.mem_cons_self, rfl⟩, fun answer => ?_⟩
        cases answer <;> trivial
      refine hhealth.bind fun healthy => ?_
      cases healthy with
      | false => exact hrest
      | true => trivial

/-- An override is classified by a lookup at most. -/
lemma only_buildPlan_override (base : String) : (buildPlan D (some base)).Only IsLookup := by
  show (classify D base >>= fun endpoint => pure [endpoint]).Only IsLookup
  refine Program.Only.bind ?_ fun _ => trivial
  rw [classify]
  refine (only_isLoopbackBase _).bind fun loopback => ?_
  cases loopback <;> trivial

/-- A plan is built by lookups and health probes. -/
lemma only_buildPlan (endpoint : Option String) :
    (buildPlan D endpoint).Only fun op => IsLookup op ∨ IsProbe op := by
  cases endpoint with
  | none => exact only_probeTiers fun tier htier => List.mem_pair.1 htier
  | some base => exact (only_buildPlan_override base).imp fun _ => Or.inl

lemma unaddressed_buildPlan : (buildPlan D options.endpoint).Only (Unaddressed parsed) := by
  refine (only_buildPlan _).imp fun op h => ?_
  rcases h with h | ⟨tier, htier, rfl⟩
  · cases op with
    | resolvesToLoopback => exact unaddressed_of_not_isRequest id
    | _ => exact absurd h id
  · exact not_addressed_probe htier

lemma unaddressed_plan : (Resolver.plan D options).Only (Unaddressed parsed) := by
  refine ⟨unaddressed_of_not_isRequest id, fun cached => ?_⟩
  cases cached with
  | some plan => trivial
  | none =>
    refine unaddressed_buildPlan.bind fun plan => ?_
    exact ⟨unaddressed_of_not_isRequest id, fun _ => trivial⟩

/-! ### A visit contacts its endpoint -/

lemma contacts_node {base : String} {talk : List (Event Op Ans)}
    {result : Except ResolveError Fetched} (h : (Node.fetch base parsed).Trace talk result) :
    requests talk = [.get (Node.serveUrl base parsed)] := by
  obtain ⟨answer, rest, rfl, hrest⟩ := Program.trace_call_iff.1 h
  have hquiet : requests rest = [] := by
    rw [requests_eq_nil]
    cases answer with
    | error e =>
      obtain ⟨rfl, -⟩ := Program.trace_ret_iff.1 hrest
      simp
    | ok resp => exact hrest.of_only (quiet_accept resp)
  have hcons := requests_append [⟨.get (Node.serveUrl base parsed), answer⟩] rest
  rw [hquiet] at hcons
  exact hcons

/-- Every request of the rounds goes to the gateway, and there is at least one. -/
lemma requests_rounds {base root : String} (rounds : List Rpc.Round) :
    requests (rounds.map (Rpc.Round.event D base parsed root)) =
      rounds.map fun x => Rpc.request D base parsed root x.st.offset := by
  rw [requests, List.map_map, List.filter_eq_self.2]
  · rfl
  · intro op hop
    obtain ⟨x, -, rfl⟩ := List.mem_map.1 hop
    rfl

lemma rounds_ne_nil {rounds : List Rpc.Round} {st : Rpc.Assembly}
    {res : Except ResolveError Rpc.Assembly} (h : Rpc.Rounds D 0 st rounds res) : rounds ≠ [] := by
  cases h with
  | exhausted hw => exact absurd hw (by decide)
  | _ => simp

lemma contacts_rpc {base : String} {talk : List (Event Op Ans)}
    {result : Except ResolveError Fetched} (h : Rpc.Fetches D base parsed talk result) :
    (∀ op ∈ requests talk, ∃ body, op = .postJson (Text.trimEndMatches '/' base) body) ∧
      (requests talk = [] → result = .error .rootRequired) := by
  cases h with
  | rootless => exact ⟨by simp [requests], fun _ => rfl⟩
  | failed _ hrounds =>
    rw [requests_rounds]
    refine ⟨?_, fun hnil => absurd (List.map_eq_nil_iff.1 hnil) (rounds_ne_nil hrounds)⟩
    intro op hop
    obtain ⟨x, -, rfl⟩ := List.mem_map.1 hop
    exact ⟨_, rfl⟩
  | assembled _ hrounds verdict =>
    rw [requests_append, requests_rounds]
    refine ⟨?_, fun hnil => absurd (List.map_eq_nil_iff.1 (List.append_eq_nil_iff.1 hnil).1)
      (rounds_ne_nil hrounds)⟩
    intro op hop
    rcases List.mem_append.1 hop with hop | hop
    · obtain ⟨x, -, rfl⟩ := List.mem_map.1 hop
      exact ⟨_, rfl⟩
    · cases hop

lemma Visit.valid_of_trace {x : Visit} (h : (fetchFrom D x.endpoint parsed).Trace x.talk x.result) :
    x.Valid D parsed := by
  refine ⟨h, ?_⟩
  rw [fetchFrom] at h
  rw [Visit.Contacts]
  cases hkind : x.endpoint.kind with
  | node =>
    rw [hkind] at h
    exact contacts_node h
  | rpc =>
    simp only [Addressed, hkind] at h ⊢
    exact contacts_rpc (Rpc.trace_fetch h)

/-! ### The walk -/

/-- What the walk does with the result of a fetch. -/
def onward (D : Deps) (options : ResolveOptions) (parsed : ParsedUrn) (last i : ℕ)
    (rest : List Endpoint) : Except ResolveError Fetched → Prog (Except ResolveError ResolveOutcome)
  | .ok fetched => do
    cacheSuccess options parsed fetched
    return .ok (.success fetched.data)
  | .error (.verifyFailed _) | .error .decryptFailed => return .ok .integrityFailure
  | .error .notFound =>
    if i = last then return .error .notFound else walk D options parsed last (i + 1) rest
  | .error (.transport _) =>
    if i = last then return .ok .unreachable else walk D options parsed last (i + 1) rest
  | .error other => return .error other

lemma walk_cons (last i : ℕ) (endpoint : Endpoint) (rest : List Endpoint) :
    walk D options parsed last i (endpoint :: rest) =
      fetchFrom D endpoint parsed >>= onward D options parsed last i rest := by
  rw [walk]
  refine congrArg _ (funext fun result => ?_)
  cases result with
  | ok fetched => rfl
  | error e => cases e <;> rfl

lemma Walked.cons {y : Visit} {plan : List Endpoint} {t : List (Event Op Ans)}
    {r : Except ResolveError ResolveOutcome} (hy : y.Passed D parsed)
    (h : Walked D options parsed plan t r) :
    Walked D options parsed (y.endpoint :: plan) (y.talk ++ t) r := by
  have hcons : ∀ passed : List Visit, (∀ z ∈ passed, z.Passed D parsed) →
      ∀ z ∈ y :: passed, z.Passed D parsed := by
    intro passed hpassed z hz
    rcases List.mem_cons.1 hz with rfl | hz
    · exact hy
    · exact hpassed z hz
  cases h with
  | @succeeded passed x late stored fetched hplan hpassed hx hresult hstored hquiet =>
    have h := @Walked.succeeded D options parsed _ (y :: passed) x late stored fetched
      (congrArg (y.endpoint :: ·) hplan) (hcons _ hpassed) hx hresult hstored hquiet
    rwa [List.cons_append, List.flatMap_cons, List.append_assoc] at h
  | @failed passed x late e hplan hpassed hx hresult he =>
    exact @Walked.failed D options parsed _ (y :: passed) x late e
      (congrArg (y.endpoint :: ·) hplan) (hcons _ hpassed) hx hresult he
  | @exhausted passed r hplan hpassed hr =>
    exact @Walked.exhausted D options parsed _ (y :: passed) r
      (congrArg (y.endpoint :: ·) hplan) (hcons _ hpassed) hr

/-- The visit that ends the walk comes first. -/
lemma Walked.of_failed {x : Visit} {late : List Endpoint} {e : ResolveError}
    (hx : x.Valid D parsed) (hresult : x.result = .error e) (he : ¬ FallsThrough e) :
    Walked D options parsed (x.endpoint :: late) x.talk (failure e) := by
  have h := @Walked.failed D options parsed _ [] x late e rfl (by simp) hx hresult he
  rwa [List.nil_append, List.flatMap_singleton] at h

/-- With the visit of the last endpoint, the walk is over. -/
lemma Walked.of_last {x : Visit} {r : Except ResolveError ResolveOutcome}
    (hx : x.Passed D parsed) (hr : r = .error .notFound ∨ r = .ok .unreachable) :
    Walked D options parsed [x.endpoint] x.talk r := by
  have h := @Walked.exhausted D options parsed _ [x] r rfl (by simpa using hx) hr
  rwa [List.flatMap_singleton] at h

/-- Every run of the loop is such a walk.  The index of the last endpoint is reached exactly when
no other is left. -/
lemma trace_walk {last i : ℕ} {plan : List Endpoint} {t : List (Event Op Ans)}
    {r : Except ResolveError ResolveOutcome} (hi : plan ≠ [] → i + plan.length = last + 1)
    (h : (walk D options parsed last i plan).Trace t r) : Walked D options parsed plan t r := by
  induction plan generalizing i t with
  | nil =>
    obtain ⟨rfl, rfl⟩ := Program.trace_ret_iff.1 h
    exact @Walked.exhausted D options parsed [] [] _ rfl (by simp) (Or.inr rfl)
  | cons endpoint rest ih =>
    have hlength := hi (List.cons_ne_nil _ _)
    rw [List.length_cons] at hlength
    obtain ⟨result, talk, t', rfl, hfetch, hrest⟩ := Program.trace_bind_iff.1 h
    have hx : Visit.Valid D parsed ⟨endpoint, talk, result⟩ := Visit.valid_of_trace hfetch
    -- what happens when the endpoint has nothing, with the result `r'` at the last endpoint
    have hnext : ∀ {e : ResolveError} {r' : Except ResolveError ResolveOutcome},
        result = .error e → FallsThrough e → r' = .error .notFound ∨ r' = .ok .unreachable →
        (if i = last then Program.ret r' else walk D options parsed last (i + 1) rest).Trace t' r →
        Walked D options parsed (endpoint :: rest) (talk ++ t') r := by
      intro e r' hresult he hr' htrace
      have hpassed : Visit.Passed D parsed ⟨endpoint, talk, result⟩ := ⟨hx, e, hresult, he⟩
      by_cases hlast : i = last
      · rw [if_pos hlast] at htrace
        obtain ⟨rfl, rfl⟩ := Program.trace_ret_iff.1 htrace
        obtain rfl : rest = [] := List.eq_nil_of_length_eq_zero (by omega)
        rw [List.append_nil]
        exact Walked.of_last hpassed hr'
      · rw [if_neg hlast] at htrace
        exact (ih (fun _ => by omega) htrace).cons hpassed
    cases result with
    | ok fetched =>
      obtain ⟨_, stored, t'', rfl, hstored, hret⟩ := Program.trace_bind_iff.1 hrest
      obtain ⟨rfl, rfl⟩ := Program.trace_ret_iff.1 hret
      have hquiet : requests stored = [] :=
        requests_eq_nil.2 (hstored.of_only (quiet_cacheSuccess fetched))
      have hwalked := @Walked.succeeded D options parsed _ [] _ rest stored fetched rfl (by simp) hx
        rfl hstored hquiet
      rw [List.nil_append, List.flatMap_singleton] at hwalked
      rwa [List.append_nil]
    | error e =>
      cases e with
      | notFound => exact hnext rfl (Or.inl rfl) (Or.inl rfl) hrest
      | transport message => exact hnext rfl (Or.inr ⟨message, rfl⟩) (Or.inr rfl) hrest
      | _ =>
        obtain ⟨rfl, rfl⟩ := Program.trace_ret_iff.1 hrest
        rw [List.append_nil]
        exact Walked.of_failed hx rfl (by simp [FallsThrough])

lemma resolve_of_parse {urn : String} (hparse : ParsedUrn.parse D urn = .ok parsed) :
    resolve D options urn = resolveParsed D options parsed := by
  rw [resolve, hparse]

lemma trace_of_parse {urn : String} {t : List (Event Op Ans)}
    {r : Except ResolveError ResolveOutcome} (hparse : ParsedUrn.parse D urn = .ok parsed)
    (h : (resolve D options urn).Trace t r) : (resolveParsed D options parsed).Trace t r := by
  rwa [resolve_of_parse hparse] at h

/-- Every resolve is answered by a cache or walks. -/
lemma trace_resolveParsed {t : List (Event Op Ans)} {r : Except ResolveError ResolveOutcome}
    (h : (resolveParsed D options parsed).Trace t r) : Resolved D options parsed t r := by
  rw [resolveParsed_eq] at h
  obtain ⟨answer, lookups, t', rfl, hlookups, hrest⟩ := Program.trace_bind_iff.1 h
  cases answer with
  | some outcome =>
    obtain ⟨rfl, rfl⟩ := Program.trace_ret_iff.1 hrest
    rw [List.append_nil]
    exact .cached hlookups
  | none =>
    obtain ⟨plan, planning, t'', rfl, hplan, hwalk⟩ := Program.trace_bind_iff.1 hrest
    rw [← List.append_assoc]
    refine .walked hlookups hplan (trace_walk ?_ hwalk)
    intro hne
    have hpos := List.length_pos_iff.2 hne
    omega

/-- Data is returned by a cache, or by a visit after which it is stored. -/
lemma Resolved.of_success {t : List (Event Op Ans)} {data : ResolvedData}
    (h : Resolved D options parsed t (.ok (.success data))) :
    (consult options parsed).Trace t (some (.success data)) ∨
      ∃ (front : List (Event Op Ans)) (x : Visit) (stored : List (Event Op Ans))
        (fetched : Fetched), t = front ++ x.talk ++ stored ∧ x.Valid D parsed ∧
        x.result = .ok fetched ∧ fetched.data = data ∧
        (cacheSuccess options parsed fetched).Trace stored () := by
  generalize hr : (Except.ok (.success data) : Except ResolveError ResolveOutcome) = result at h
  cases h with
  | cached hconsult =>
    obtain rfl := Except.ok.inj hr
    exact Or.inl hconsult
  | @walked lookups planning _ _ _ hconsult hplan hwalked =>
    cases hwalked with
    | @succeeded passed x late stored fetched hsplit hpassed hx hresult hstored hquiet =>
      refine Or.inr ⟨lookups ++ planning ++ passed.flatMap Visit.talk, x, stored, fetched, ?_, hx,
        hresult, (ResolveOutcome.success.inj (Except.ok.inj hr)).symm, hstored⟩
      rw [List.flatMap_append, List.flatMap_singleton]
      simp only [List.append_assoc]
    | failed _ _ _ _ he => exact absurd hr.symm (failure_ne_success _ _)
    | exhausted _ _ hcases =>
      rcases hcases with rfl | rfl
      · cases hr
      · cases hr

/-! ### What later endpoints would have said -/

/-- The conversation fails integrity at the last of the `early` endpoints of the plan. -/
def FailedAt (D : Deps) (options : ResolveOptions) (parsed : ParsedUrn)
    (t : List (Event Op Ans)) (early late : List Endpoint) : Prop :=
  ∃ lookups planning passed x e, t = lookups ++ planning ++ (passed ++ [x]).flatMap Visit.talk ∧
    (consult options parsed).Trace lookups none ∧
    (Resolver.plan D options).Trace planning (early ++ late) ∧
    early = passed.map Visit.endpoint ++ [x.endpoint] ∧ (∀ y ∈ passed, y.Passed D parsed) ∧
    x.Valid D parsed ∧ x.result = .error e ∧ failure e = .ok .integrityFailure

/-- The oracles differ only in what happens after the conversation, and in what the `late`
endpoints would serve. -/
def SameUntil (parsed : ParsedUrn) (t : List (Event Op Ans)) (early late : List Endpoint)
    (o o' : Program.Oracle Op Ans) : Prop :=
  ∀ past op, o past op = o' past op ∨ t <+: past ∨
    (∃ endpoint ∈ late, Addressed parsed endpoint op) ∧
      ∀ endpoint ∈ early, ¬ Addressed parsed endpoint op

lemma Visit.Valid.addressed {x : Visit} (hx : x.Valid D parsed) {e : Event Op Ans}
    (he : e ∈ x.talk) (hrequest : IsRequest e.op) : Addressed parsed x.endpoint e.op := by
  have hmem := mem_requests_of_mem he hrequest
  have hcontacts := hx.2
  rw [Visit.Contacts] at hcontacts
  cases hkind : x.endpoint.kind with
  | node =>
    rw [hkind] at hcontacts
    dsimp only at hcontacts
    rw [hcontacts, List.mem_singleton] at hmem
    rw [Addressed, hkind]
    exact hmem
  | rpc =>
    rw [hkind] at hcontacts
    exact hcontacts.1 _ hmem

/-- Up to the failure, whoever is asked for the resource is one of the early endpoints. -/
lemma FailedAt.addressed {t : List (Event Op Ans)} {early late : List Endpoint}
    (h : FailedAt D options parsed t early late) {e : Event Op Ans} (he : e ∈ t)
    {endpoint : Endpoint} (haddressed : Addressed parsed endpoint e.op) :
    ∃ endpoint ∈ early, Addressed parsed endpoint e.op := by
  obtain ⟨lookups, planning, passed, x, -, rfl, hlookups, hplan, rfl, hpassed, hx, -, -⟩ := h
  have hrequest := isRequest_of_addressed haddressed
  rcases List.mem_append.1 he with he | he
  · rcases List.mem_append.1 he with he | he
    · exact absurd hrequest (hlookups.of_only quiet_consult e he)
    · exact absurd haddressed (hplan.of_only unaddressed_plan e he endpoint)
  · obtain ⟨y, hy, hmem⟩ := List.mem_flatMap.1 he
    rcases List.mem_append.1 hy with hy | hy
    · exact ⟨y.endpoint, List.mem_append_left _ (List.mem_map_of_mem hy),
        (hpassed y hy).1.addressed hmem hrequest⟩
    · obtain rfl := List.mem_singleton.1 hy
      exact ⟨y.endpoint, List.mem_append_right _ List.mem_cons_self,
        hx.addressed hmem hrequest⟩

/-- A resolve that fails integrity does so in a cache lookup or at some endpoint. -/
lemma Resolved.failedAt {t : List (Event Op Ans)}
    (h : Resolved D options parsed t (.ok .integrityFailure)) :
    (consult options parsed).Trace t (some .integrityFailure) ∨
      ∃ early late, FailedAt D options parsed t early late := by
  generalize hr : (Except.ok .integrityFailure : Except ResolveError ResolveOutcome) = r at h
  cases h with
  | cached h =>
    obtain rfl := Except.ok.inj hr
    exact Or.inl h
  | walked hlookups hplan h =>
    cases h with
    | succeeded => cases hr
    | @failed passed x late e hsplit hpassed hx hresult he =>
      refine Or.inr ⟨passed.map Visit.endpoint ++ [x.endpoint], late, _, _, passed, x, e, rfl,
        hlookups, ?_, rfl, hpassed, hx, hresult, hr.symm⟩
      rw [List.append_assoc, List.singleton_append, ← hsplit]
      exact hplan
    | exhausted _ _ hcases =>
      rcases hcases with rfl | rfl
      · cases hr
      · cases hr

/-- **The ladder walk.**  A resolve that no cache answers visits the endpoints of its plan in
order, up to the first that does not fall through, and this one decides the result.  After an
integrity failure, nothing that could be served matters. -/
theorem ladder_walk {urn : String} (hparse : ParsedUrn.parse D urn = .ok parsed) :
    (∀ t r, (resolve D options urn).Trace t r → Resolved D options parsed t r) ∧
    (∀ t, (resolve D options urn).Trace t (.ok .integrityFailure) →
      (consult options parsed).Trace t (some .integrityFailure) ∨
        ∃ early late, FailedAt D options parsed t early late) ∧
    ∀ o o' early late,
      FailedAt D options parsed (Program.converse o (resolve D options urn)).2 early late →
      SameUntil parsed (Program.converse o (resolve D options urn)).2 early late o o' →
      Program.converse o' (resolve D options urn) = Program.converse o (resolve D options urn) := by
  have hresolved : ∀ t r, (resolve D options urn).Trace t r → Resolved D options parsed t r := by
    intro t r h
    exact trace_resolveParsed (trace_of_parse hparse h)
  refine ⟨hresolved, ?_, ?_⟩
  · intro t h
    exact (hresolved t _ h).failedAt
  · intro o o' early late hfailed hsame
    refine Program.converse_congr ?_
    intro t₁ op ans t₂ heq
    rcases hsame t₁ op with hagree | hprefix | ⟨⟨endpoint, -, haddressed⟩, hnone⟩
    · exact hagree
    · have hlength := hprefix.length_le
      rw [heq, List.length_append, List.length_cons] at hlength
      omega
    · have hmem : (⟨op, ans⟩ : Event Op Ans) ∈ (Program.converse o (resolve D options urn)).2 := by
        rw [heq]
        exact List.mem_append_right _ List.mem_cons_self
      obtain ⟨endpoint', hearly, haddressed'⟩ := hfailed.addressed hmem haddressed
      exact absurd haddressed' (hnone endpoint' hearly)

/-! ### Two nodes -/

namespace Walked

def node₁ : Endpoint := .node "http://127.0.0.1:1"

def node₂ : Endpoint := .node "http://127.0.0.1:22"

/-- The caches are empty, the plan has two nodes, and every request is answered by `reply`. -/
def replying (reply : String → HttpResponse) : Program.Oracle Op Ans := fun _ op =>
  match op with
  | .get url => .ok (reply url)
  | .postJson _ _ => .error ⟨"error sending request"⟩
  | .resolvesToLoopback _ => false
  | .verifyAndDecrypt _ _ _ _ _ => .error .decryptFailed
  | .memoryGet _ => none
  | .memoryPut _ _ => ()
  | .diskGet _ => none
  | .diskPut _ _ => ()
  | .diskRemove _ => ()
  | .planGet => some [node₁, node₂]
  | .planSet _ => ()

/-- Neither attested nor ciphertext. -/
def unattested : HttpResponse := ⟨200, [], [1, 2, 3]⟩

def attested : HttpResponse := ⟨200, [("x-dig-verified", "true")], [1, 2, 3]⟩

/-- Both nodes serve unattested bytes. -/
def bothBad : Program.Oracle Op Ans := replying fun _ => unattested

/-- The second node serves attested bytes. -/
def secondGood : Program.Oracle Op Ans := replying fun url =>
  if url = Node.serveUrl node₂.base (Sample.parsed "chia") then attested else unattested

lemma resolve_sample : resolve (sample [] []) {} (Sample.urn "chia") =
    resolveParsed (sample [] []) {} (Sample.parsed "chia") :=
  resolve_of_parse (Sample.parse_urn_chia [] [])

/-- The visit of the first node. -/
def firstVisit : Visit where
  endpoint := node₁
  talk := [⟨.get (Node.serveUrl node₁.base (Sample.parsed "chia")), .ok unattested⟩]
  result := .error (.verifyFailed
    "node response was neither X-Dig-Verified plaintext nor decryptable ciphertext")

lemma failedAt_bothBad : FailedAt (sample [] []) {} (Sample.parsed "chia")
    (Program.converse bothBad (resolve (sample [] []) {} (Sample.urn "chia"))).2
    [node₁] [node₂] := by
  have hvisit : (Node.fetch node₁.base (Sample.parsed "chia")).Trace firstVisit.talk
      firstVisit.result := .call (.ret _)
  rw [resolve_sample]
  refine ⟨[⟨.memoryGet (cacheId (Sample.parsed "chia") Sample.hex.text), none⟩],
    [⟨.planGet, some [node₁, node₂]⟩], [], firstVisit, _, rfl, .call (.ret _), .call (.ret _), rfl,
    by simp, Visit.valid_of_trace hvisit, rfl, rfl⟩

lemma sameUntil_secondGood (t : List (Event Op Ans)) :
    SameUntil (Sample.parsed "chia") t [node₁] [node₂] bothBad secondGood := by
  intro past op
  cases op with
  | get url =>
    by_cases hurl : url = Node.serveUrl node₂.base (Sample.parsed "chia")
    · refine Or.inr (Or.inr ⟨⟨node₂, List.mem_singleton_self _, congrArg Op.get hurl⟩, ?_⟩)
      intro endpoint hendpoint haddressed
      obtain rfl := List.mem_singleton.1 hendpoint
      -- the two serve URLs have different lengths
      have hsame : Node.serveUrl node₂.base (Sample.parsed "chia") =
          Node.serveUrl node₁.base (Sample.parsed "chia") :=
        hurl.symm.trans (Op.get.inj haddressed)
      have hlength := congrArg (fun s => s.toList.length) hsame
      simp only [Node.serveUrl, String.toList_append, List.length_append] at hlength
      have hbases : node₂.base.toList.length = node₁.base.toList.length + 1 := by decide
      omega
    · refine Or.inl ?_
      simp only [bothBad, secondGood, replying, if_neg hurl]
  | _ => exact Or.inl rfl

/-- What the second node would serve makes no difference after the first has failed. -/
theorem ladder_walk_two_nodes :
    Resolved (sample [] []) {} (Sample.parsed "chia")
      (Program.converse bothBad (resolve (sample [] []) {} (Sample.urn "chia"))).2
      (Program.converse bothBad (resolve (sample [] []) {} (Sample.urn "chia"))).1 ∧
    Program.converse secondGood (resolve (sample [] []) {} (Sample.urn "chia")) =
      Program.converse bothBad (resolve (sample [] []) {} (Sample.urn "chia")) := by
  obtain ⟨hresolved, -, hlate⟩ :=
    @ladder_walk (sample [] []) {} (Sample.parsed "chia") _ (Sample.parse_urn_chia [] [])
  exact ⟨hresolved _ _ (Program.trace_converse _ _),
    hlate _ _ _ _ failedAt_bothBad (sameUntil_secondGood _)⟩

end Walked

end DigUrnResolver.Resolver
