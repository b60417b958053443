/-
# A retry after the network was unreachable

A resolve that ends with `Unreachable` leaves nothing in the caches that could answer the next one,
but it leaves the plan.  So the retry asks a local node that has come up since only if the node was
already there when the plan was made; a fresh resolver would find it.
-/
import DigUrnResolver.Session.Failure
import DigUrnResolver.Session.Planning

namespace DigUrnResolver

open Interaction

/-- The tier is on this machine, and a node answers its health probe with success. -/
def Up (D : Deps) (net : World.Net) (tier : String) : Prop :=
  (isLoopbackBase D tier).eval net.answer = true ∧ (healthOk tier).eval net.answer = true

instance (D : Deps) (net : World.Net) (tier : String) : Decidable (Up D net tier) :=
  inferInstanceAs (Decidable (_ ∧ _))

/-- The tier is the first that is up, and its node attests the resource. -/
structure Recovered (D : Deps) (net : World.Net) (v : ParsedUrn) (tier : String)
    (resp : HttpResponse) : Prop where
  up : Up D net tier
  first : tier = digLocalBase ∨ tier = localhostBase ∧ ¬ Up D net digLocalBase
  serves : net.get (Node.serveUrl tier v) = .ok resp
  success : resp.isSuccess = true
  attested : Node.verifiedPlaintext resp = true

/-- The lookups, the probes and the request for the resource at the tier are answered as the
network does.  The answers of the gateway, and all others, are arbitrary. -/
def AnsweredBy (net : World.Net) (v : ParsedUrn) (tier : String) (t : List (Event Op Ans)) : Prop :=
  ∀ e ∈ t, Resolver.IsLookup e.op ∨ Resolver.IsProbe e.op ∨ e.op = .get (Node.serveUrl tier v) →
    e.ans = net.answer e.op

/-- The resolve succeeds with what the node attests. -/
def FromNode (v : ParsedUrn) (tier : String) (resp : HttpResponse) (t : List (Event Op Ans))
    (result : Except ResolveError ResolveOutcome) : Prop :=
  result = .ok (.success ⟨resp.body, (Node.headerContentType resp).getD
    (deriveContentType v.resourceKey resp.body)⟩) ∧
    Op.get (Node.serveUrl tier v) ∈ Resolver.requests t

variable {ρ : Type} [DecidableEq ρ] {D : Deps} {options : ρ → ResolveOptions}
  {w w' w₀ w₁ w₂ : World ρ} {c : Call ρ} {t t' : List (Event Op Ans)} {v : ParsedUrn}
  {plan : List Endpoint} {net : World.Net} {tier : String} {resp : HttpResponse}
  {result : Except ResolveError ResolveOutcome}

/-! ### The plan over the recovered network -/

lemma eval_probeTiers_cons (rest : List String) :
    (probeTiers D (tier :: rest)).eval net.answer =
      if Up D net tier then [.node tier, .rpc rpcDefaultBase]
      else (probeTiers D rest).eval net.answer := by
  rw [probeTiers, Program.eval_bind]
  by_cases hloopback : (isLoopbackBase D tier).eval net.answer = true
  · rw [if_pos hloopback, Program.eval_bind]
    by_cases hhealthy : (healthOk tier).eval net.answer = true
    · rw [if_pos hhealthy, if_pos ⟨hloopback, hhealthy⟩]
      rfl
    · rw [if_neg hhealthy, if_neg fun h => hhealthy h.2]
  · rw [if_neg hloopback, if_neg fun h => hloopback h.1]

/-- Where a plan is built, it begins with the recovered node. -/
lemma Recovered.plan_eq (h : Recovered D net v tier resp)
    (hbuild : (buildPlan D none).Trace t plan) (hans : AnsweredBy net v tier t) :
    plan = [.node tier, .rpc rpcDefaultBase] := by
  have heval : plan = (buildPlan D none).eval net.answer := by
    refine hbuild.eq_eval fun e he => hans e he ?_
    exact (hbuild.of_only (Resolver.only_buildPlan none) e he).imp_right Or.inl
  rw [heval, buildPlan, eval_probeTiers_cons]
  rcases h.first with rfl | ⟨rfl, hdown⟩
  · rw [if_pos h.up]
  · rw [if_neg hdown, eval_probeTiers_cons, if_pos h.up]

/-! ### The visit of the recovered node -/

/-- A visit of the node is served. -/
lemma Recovered.result_eq (h : Recovered D net v tier resp) {x : Resolver.Visit}
    (hx : x.Valid D v) (hendpoint : x.endpoint = .node tier) (hans : AnsweredBy net v tier x.talk) :
    x.result = .ok ⟨⟨resp.body, (Node.headerContentType resp).getD
      (deriveContentType v.resourceKey resp.body)⟩, Node.nodeRoot v resp, none⟩ := by
  have hfetch := hx.1
  rw [hendpoint] at hfetch
  obtain ⟨answer, rest, htalk, hrest⟩ := Program.trace_call_iff.1 hfetch
  have hanswer : answer = .ok resp := by
    refine Eq.trans ?_ h.serves
    refine hans ⟨_, answer⟩ ?_ (Or.inr (Or.inr rfl))
    rw [htalk]
    exact List.mem_cons_self
  subst hanswer
  change (Node.accept v resp).Trace rest x.result at hrest
  rw [Node.accept_of_attested h.success h.attested] at hrest
  exact (Program.trace_ret_iff.1 hrest).2

lemma base_eq_of_serveUrl {base base' : String}
    (h : Node.serveUrl base v = Node.serveUrl base' v) : base = base' := by
  simp only [Node.serveUrl, String.append_left_inj] at h
  exact h

/-- The node is asked exactly if it is in the plan. -/
lemma Resolver.Walked.mem_plan {o : ResolveOptions} (h : Resolver.Walked D o v plan t result)
    (hmem : Op.get (Node.serveUrl tier v) ∈ Resolver.requests t) : Endpoint.node tier ∈ plan := by
  obtain ⟨hrequest, e, he, hop⟩ := Resolver.mem_requests hmem
  rw [← hop] at hrequest
  obtain ⟨⟨base, kind⟩, hendpoint, haddressed⟩ := h.addressed he hrequest
  rw [hop, Resolver.Addressed] at haddressed
  cases kind with
  | node =>
    obtain rfl := base_eq_of_serveUrl (Op.get.inj haddressed)
    exact hendpoint
  | rpc =>
    obtain ⟨body, heq⟩ := haddressed
    cases heq

omit [DecidableEq ρ] in
/-- **Over the ladder, the retry succeeds through the node exactly if the plan begins with it.** -/
lemma Recovered.fromNode_iff (h : Recovered D net v tier resp) {front visits : List (Event Op Ans)}
    (hwalks : Walks D (options c.resolver) v c.resolver w w' front visits result plan)
    (hladder : Resolver.IsLadderPlan plan) (hans : AnsweredBy net v tier (front ++ visits)) :
    FromNode v tier resp (front ++ visits) result ↔
      plan = [.node tier, .rpc rpcDefaultBase] := by
  obtain ⟨hwalked, hquiet, -, -⟩ := hwalks
  constructor
  · rintro ⟨-, hmem⟩
    refine hladder.eq_of_mem (hwalked.mem_plan ?_)
    rw [Resolver.requests_append] at hmem
    refine (List.mem_append.1 hmem).resolve_left fun hfront => ?_
    obtain ⟨-, e, he, hop⟩ := Resolver.mem_requests hfront
    refine hquiet e he (.node tier) ?_
    rw [hop]
    rfl
  · rintro rfl
    obtain ⟨x, hendpoint, hvalid, hsub, hresult⟩ := hwalked.first
    have hserved := h.result_eq hvalid hendpoint fun e he =>
      hans e (List.mem_append_right _ (hsub e he))
    refine ⟨hresult _ hserved, ?_⟩
    have hcontacts := hvalid.2
    rw [Resolver.Visit.Contacts, hendpoint] at hcontacts
    have hrequest : Op.get (Node.serveUrl tier v) ∈ Resolver.requests x.talk := by
      rw [hcontacts]
      exact List.mem_singleton_self _
    obtain ⟨hget, e, he, hop⟩ := Resolver.mem_requests hrequest
    rw [← hop] at hget ⊢
    exact Resolver.mem_requests_of_mem (List.mem_append_right _ (hsub e he)) hget

/-! ### What the failure leaves -/

omit [DecidableEq ρ] in
lemma World.cacheVerdict_eq_none_iff {o : ResolveOptions} {root : String} {r : ρ}
    (hroot : v.rootHex = some root) : w.cacheVerdict D o v r = none ↔
      (w.inst r).memory.map.lookup (Resolver.cacheId v root) = none ∧
        w.diskVerdict D o v root = none := by
  simp only [World.cacheVerdict, hroot]
  cases (w.inst r).memory.map.lookup (Resolver.cacheId v root) with
  | none => simp
  | some entry => simp

/-- The caches never answer that the network is unreachable. -/
lemma Resolver.Consulted.ne_unreachable {o : ResolveOptions} {answer : Option ResolveOutcome}
    (h : Resolver.Consulted o v t answer) : answer ≠ some .unreachable := by
  rintro rfl
  generalize ho : some ResolveOutcome.unreachable = answer at h
  cases h with
  | refused _ _ hcases =>
    rcases hcases with ⟨-, rfl⟩ | ⟨-, rfl⟩
    · cases ho
    · cases ho
  | _ => cases ho

/-- Before a resolve that ends with `Unreachable`, the caches do not answer. -/
lemma Resolves.cacheVerdict_before (h : Resolves D options c w t (.ok .unreachable) w')
    (hparse : ParsedUrn.parse D c.urn = .ok v) :
    w.cacheVerdict D (options c.resolver) v c.resolver = none := by
  generalize hr : (Except.ok .unreachable : Except ResolveError ResolveOutcome) = r at h
  cases Resolver.trace_resolveParsed (Resolver.trace_of_parse hparse h.trace) with
  | cached hconsult =>
    obtain rfl := Except.ok.inj hr
    exact absurd rfl (Resolver.trace_consult hconsult).ne_unreachable
  | walked hconsult =>
    obtain ⟨w₁, hfront, -⟩ := Talks.append_iff.1 (List.append_assoc _ _ _ ▸ h.talks)
    exact (Resolver.trace_consult hconsult).verdict hfront

/-- **Nor do they after it**: the failure is not cached. -/
lemma Resolves.cacheVerdict_after (h : Resolves D options c w t (.ok .unreachable) w')
    (hparse : ParsedUrn.parse D c.urn = .ok v) :
    w'.cacheVerdict D (options c.resolver) v c.resolver = none := by
  have hbefore := h.cacheVerdict_before hparse
  have huntouched := h.untouched nofun
  cases hroot : v.rootHex with
  | none => rw [World.cacheVerdict, hroot]
  | some root =>
    rw [World.cacheVerdict_eq_none_iff hroot] at hbefore ⊢
    obtain ⟨tick, -, hmemory⟩ := huntouched.memory c.resolver
    rw [hmemory]
    refine ⟨hbefore.1, ?_⟩
    by_cases hdiscards : ∃ path, Discards D (options c.resolver) c w path
    · obtain ⟨path, hpath⟩ := hdiscards
      have hremoved := huntouched.removed path hpath
      obtain ⟨root', dir, art, e, hroot', hdir, -, -, rfl⟩ := hpath.inv hparse
      obtain rfl := Option.some.inj (hroot.symm.trans hroot')
      have hnone : w'.getFile D (Resolver.cacheId v root) = none := by
        rw [World.getFile, hremoved, Function.update_self]
        rfl
      simp only [World.diskVerdict, hdir, hnone, Option.bind_none]
    · have hkept := huntouched.kept fun path hpath => hdiscards ⟨path, hpath⟩
      rw [← hbefore.2, World.diskVerdict, World.diskVerdict, World.getFile_congr hkept]

/-! ### The retry -/

/-- A resolve that a cache answers does not come from the node. -/
lemma Resolves.not_fromNode {outcome : ResolveOutcome} (h : Resolves D options c w t result w')
    (hparse : ParsedUrn.parse D c.urn = .ok v)
    (hverdict : w.cacheVerdict D (options c.resolver) v c.resolver = some outcome) :
    ¬ FromNode v tier resp t result := by
  rintro ⟨-, hmem⟩
  rw [(h.of_cacheVerdict hparse hverdict).2] at hmem
  cases hmem

/-- A fresh resolver finds the node, unless the directory answers. -/
lemma Recovered.fresh_iff {disk : String → Option Bytes} (h : Recovered D net v tier resp)
    (hauto : (options c.resolver).endpoint = none) (hparse : ParsedUrn.parse D c.urn = .ok v)
    (hretry : Resolves D options c (World.new disk) t result w') (hans : AnsweredBy net v tier t) :
    FromNode v tier resp t result ↔ (World.new disk : World ρ).cacheVerdict D
      (options c.resolver) v c.resolver = none := by
  cases hverdict : (World.new disk : World ρ).cacheVerdict D (options c.resolver) v c.resolver with
  | some outcome => simp [hretry.not_fromNode hparse hverdict]
  | none =>
    obtain ⟨plan, front, visits, rfl, hwalks⟩ := hretry.walks hparse hverdict
    rcases hwalks.before with ⟨hbefore, -⟩ | ⟨-, probes, hprobes, hsub⟩
    · cases hbefore
    · rw [hauto] at hprobes
      have hplan := h.plan_eq hprobes fun e he => hans e (List.mem_append_left _ (hsub e he))
      have hladder : Resolver.IsLadderPlan plan := Or.inr ⟨tier, hplan⟩
      simp [h.fromNode_iff hwalks hladder hans, hplan]

/-- **The retry depends on the plan.**  After a resolve without an override has ended with
`Unreachable`, no cache answers the next one.  When a node attests the resource from then on, a
fresh resolver succeeds through it, unless the directory answers, whatever the gateway does.  The
same resolver does so exactly if the plan that it stored begins with this node, unless a cache
answers by then. -/
theorem retry_through_node_iff {disk : String → Option Bytes} {before : List (Done ρ)}
    (hreached : Calls D options (World.new disk) before w₀)
    (hauto : (options c.resolver).endpoint = none) (hparse : ParsedUrn.parse D c.urn = .ok v)
    (hfail : Resolves D options c w₀ t (.ok .unreachable) w)
    (hrecovered : Recovered D net v tier resp) :
    w.cacheVerdict D (options c.resolver) v c.resolver = none ∧
    ∀ between w₁, Calls D options w between w₁ → ∀ t' result w₂, AnsweredBy net v tier t' →
      (Resolves D options c (World.new w₁.disk) t' result w₂ →
        (FromNode v tier resp t' result ↔ (World.new w₁.disk : World ρ).cacheVerdict D
          (options c.resolver) v c.resolver = none)) ∧
      (Resolves D options c w₁ t' result w₂ →
        (FromNode v tier resp t' result ↔
          w₁.cacheVerdict D (options c.resolver) v c.resolver = none ∧
            (w.inst c.resolver).planCache = some [.node tier, .rpc rpcDefaultBase])) := by
  refine ⟨hfail.cacheVerdict_after hparse, ?_⟩
  intro between w₁ hbetween t' result w₂ hans
  refine ⟨fun hretry => hrecovered.fresh_iff hauto hparse hretry hans, fun hretry => ?_⟩
  -- the plan of the failed resolve is there in every later call
  obtain ⟨plan, _, _, -, hwalks⟩ := hfail.walks hparse (hfail.cacheVerdict_before hparse)
  have hsession := hreached.snoc (x := ⟨c, t, .ok .unreachable⟩) hfail
  have hladder := hsession.isLadderPlan hauto hwalks.after
  have hstored := hbetween.planCache_eq hwalks.after
  rw [hwalks.after]
  cases hverdict : w₁.cacheVerdict D (options c.resolver) v c.resolver with
  | some outcome => simp [hretry.not_fromNode hparse hverdict]
  | none =>
    obtain ⟨plan', front, visits, rfl, hwalks'⟩ := hretry.walks hparse hverdict
    obtain rfl : plan' = plan := by
      rcases hwalks'.before with ⟨hbefore, -⟩ | ⟨hnone, -⟩
      · exact Option.some.inj (hbefore.symm.trans hstored)
      · cases hnone.symm.trans hstored
    simp [hrecovered.fromNode_iff hwalks' hladder hans]

/-- A call that runs alone over a network is answered by it. -/
lemma answeredBy_script {α : Type} (p : Prog α) (r : ρ) (w : World ρ) :
    AnsweredBy net v tier (p.script (World.handle D net r) w) := by
  rintro ⟨op, ans⟩ he hop
  obtain ⟨s, hs⟩ := Program.exists_of_mem_script he
  refine hs.trans ?_
  cases op with
  | get | postJson | resolvesToLoopback => rfl
  | _ =>
    rcases hop with hlookup | ⟨_, -, hprobe⟩ | hserve
    · cases hlookup
    · cases hprobe
    · cases hserve

/-! ### A node that comes up too late, and one that was there before -/

namespace Retry

def auto : Unit → ResolveOptions := fun _ => {}

def call : Call Unit := ⟨(), Sample.urn "chia"⟩

def reply : HttpResponse := ⟨200, [("x-dig-verified", "true")], [7]⟩

/-- A node under `localhost` that attests whatever it is asked for; the gateway is down. -/
def node : World.Net where
  get _ := .ok reply
  post _ _ := .error ⟨"connection refused"⟩
  loopback _ := false

/-- The same node as long as it only answers health probes. -/
def starting : World.Net where
  get url := if url.utf8ByteSize < 64 then .ok reply else .error ⟨"connection reset"⟩
  post _ _ := .error ⟨"connection refused"⟩
  loopback _ := false

/-- The world after a call. -/
def after (net : World.Net) (w : World Unit) : World Unit :=
  (resultAlone (sample [] []) auto net call w).2

lemma names : ParsedUrn.parse (sample [] []) call.urn = .ok (Sample.parsed "chia") :=
  Sample.parse_urn_chia _ _

lemma recovered_node :
    Recovered (sample [] []) node (Sample.parsed "chia") localhostBase reply where
  up := by decide +kernel
  first := Or.inr ⟨rfl, by decide +kernel⟩
  serves := rfl
  success := rfl
  attested := by decide +kernel

/-- After a resolve without any network, a node that comes up is not found by the same resolver,
but by a fresh one. -/
theorem not_retried_through_node :
    Recovered (sample [] []) node (Sample.parsed "chia") localhostBase reply ∧
    (resultAlone (sample [] []) auto Untouched.offline call (World.new fun _ => none)).1 =
      .ok .unreachable ∧
    (resultAlone (sample [] []) auto node call
      (after Untouched.offline (World.new fun _ => none))).1 = .ok .unreachable ∧
    (resultAlone (sample [] []) auto node call (World.new fun _ => none)).1 =
      .ok (.success ⟨[7], "text/plain"⟩) := by
  refine ⟨recovered_node, ?_, ?_, ?_⟩
  · rw [resultAlone_of_parse names]
    decide +kernel
  · rw [after, resultAlone_of_parse names, resultAlone_of_parse names]
    decide +kernel
  · rw [resultAlone_of_parse names]
    decide +kernel

lemma starting_result :
    (resultAlone (sample [] []) auto starting call (World.new fun _ => none)).1 =
      .ok .unreachable := by
  rw [resultAlone_of_parse names]
  decide +kernel

lemma resolves_starting : Resolves (sample [] []) auto call (World.new fun _ => none)
    ((Resolver.resolve (sample [] []) (auto ()) call.urn).script
      (World.handle (sample [] []) starting ()) (World.new fun _ => none))
    (resultAlone (sample [] []) auto starting call (World.new fun _ => none)).1
    (after starting (World.new fun _ => none)) := by
  rw [after]
  exact resolves_alone starting call (World.new fun _ => none)

/-- The node that was there when the plan was made is found. -/
theorem retry_through_node_starting :
    (resultAlone (sample [] []) auto node call (after starting (World.new fun _ => none))).1 =
      .ok (.success ⟨[7], "text/plain"⟩) := by
  have hfail := resolves_starting
  rw [starting_result] at hfail
  have hplan : ((after starting (World.new fun _ => none)).inst call.resolver).planCache =
      some [.node localhostBase, .rpc rpcDefaultBase] := by
    rw [after, resultAlone_of_parse names]
    decide +kernel
  obtain ⟨hverdict, hretry⟩ :=
    retry_through_node_iff (.nil (World.new fun _ => none)) rfl names hfail recovered_node
  have hfound := (hretry [] _ (.nil _) _ _ _ (answeredBy_script _ _ _)).2
    (resolves_alone node call (after starting (World.new fun _ => none)))
  refine (hfound.2 ⟨hverdict, hplan⟩).1.trans ?_
  decide +kernel

end Retry

end DigUrnResolver
