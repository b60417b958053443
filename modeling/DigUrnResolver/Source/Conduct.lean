/-
# What a call of `resolve` does

Each operation that a call performs is justified by what it did before: a file is read only
under the identity of a pinned URN, a plan is stored only when it was built as `build_plan`
builds it, data enters a cache only when they were fetched and accepted, and so on.
`Permitted` collects these justifications, operation by operation, and `Concluded` says the
same of the result.  `resolve_sat` establishes both for the program of a call, function by
function; it makes no assumption on any answer.  The properties of whole runs are derived
from it, without looking into the program again.
-/
import DigUrnResolver.Source.World

namespace DigUrnResolver

open Interaction

variable {ρ : Type}

/-! ### The vocabulary -/

/-- The call `c`, which is the thread `i`, performed `op` and was answered `ans`. -/
def Did (L : RunLog ρ) (i : ℕ) (c : Call ρ) (op : Op) (ans : Ans op) : Prop :=
  (⟨i, c, op, ans⟩ : Entry (Call ρ) Op Ans) ∈ L

/-- The call is about the resource `v`. -/
def Names (D : Deps) (c : Call ρ) (v : ParsedUrn) : Prop := ParsedUrn.parse D c.urn = .ok v

section

variable (D : Deps) (L : RunLog ρ) (i : ℕ) (c : Call ρ)

/-- The call evaluated `is_loopback_base` of `base` to `b`. -/
def LoopbackVerdict (base : String) (b : Bool) : Prop :=
  match D.parsedHost base with
  | none => b = false
  | some host =>
    if bareHost host = "localhost" then b = true
    else match IpAddr.parse (bareHost host) with
      | some ip => b = ip.isLoopback
      | none =>
        if bareHost host = "dig.local" then Did L i c (.resolvesToLoopback "dig.local") b
        else b = false

/-- Whether an answer to a `/health` probe counts as healthy. -/
def healthy : Except TransportError HttpResponse → Bool
  | .ok resp => resp.isSuccess
  | .error _ => false

/-- The call probed the health of `base` with the outcome `b`. -/
def HealthVerdict (base : String) (b : Bool) : Prop :=
  ∃ ans, Did L i c (.get (base ++ "/health")) ans ∧ healthy ans = b

/-- The call found `base` loopback and healthy. -/
def Admitted (base : String) : Prop :=
  LoopbackVerdict D L i c base true ∧ HealthVerdict L i c base true

/-- The call found `base` not loopback, or loopback and not healthy. -/
def Refused (base : String) : Prop :=
  LoopbackVerdict D L i c base false ∨
    LoopbackVerdict D L i c base true ∧ HealthVerdict L i c base false

/-- The plan is that of the first tier that was admitted, every tier before it being refused. -/
def TiersProbed : List String → List Endpoint → Prop
  | [], plan => plan = [.rpc rpcDefaultBase]
  | tier :: rest, plan =>
    Admitted D L i c tier ∧ plan = [.node tier, .rpc rpcDefaultBase] ∨
      Refused D L i c tier ∧ TiersProbed rest plan

/-- The call built the plan. -/
def PlanBuilt (options : ResolveOptions) (plan : List Endpoint) : Prop :=
  match options.endpoint with
  | some base =>
    LoopbackVerdict D L i c (Text.trimEndMatches '/' base) true ∧
        plan = [.node (Text.trimEndMatches '/' base)] ∨
      LoopbackVerdict D L i c (Text.trimEndMatches '/' base) false ∧
        plan = [.rpc (Text.trimEndMatches '/' base)]
  | none => TiersProbed D L i c [digLocalBase, localhostBase] plan

/-- The call walks over the plan: it found it cached or has built it. -/
def PlanUsed (plan : List Endpoint) : Prop :=
  Did L i c .planGet (some plan) ∨ Did L i c (.planSet plan) ()

/-- A node endpoint of the plan of the call answered the request for `v` with `resp`. -/
structure NodeReply (v : ParsedUrn) (base : String) (resp : HttpResponse) : Prop where
  endpoint : ∃ plan, PlanUsed L i c plan ∧ Endpoint.node base ∈ plan
  reply : Did L i c (.get (Node.serveUrl base v)) (.ok resp)

/-- The root is the one pinned in `v`, or, for a rootless `v`, the one that the header of a
successful reply of a node names. -/
def RootSource (v : ParsedUrn) (root : String) : Prop :=
  v.rootHex = some root ∨
    v.rootHex = none ∧ ∃ base resp, NodeReply L i c v base resp ∧ resp.isSuccess = true ∧
      (resp.header "x-dig-root").map Text.trim = some root

/-- What a fetch of `v` may return. -/
inductive FetchedFrom (v : ParsedUrn) : Fetched → Prop
  /-- The plaintext whose verification a node attests. -/
  | attested {base : String} {resp : HttpResponse} (reply : NodeReply L i c v base resp)
      (success : resp.isSuccess = true) (verified : Node.verifiedPlaintext resp = true) :
      FetchedFrom v ⟨⟨resp.body, (Node.headerContentType resp).getD
        (deriveContentType v.resourceKey resp.body)⟩, Node.nodeRoot v resp, none⟩
  /-- The plaintext that the read-crypto returned. -/
  | verified {ciphertext bytes : Bytes} {proofB64 root : String} {lens : List UInt32}
      (source : RootSource L i c v root)
      (did : Did L i c (.verifyAndDecrypt v ciphertext proofB64 root lens) (.ok bytes)) :
      FetchedFrom v ⟨⟨bytes, deriveContentType v.resourceKey bytes⟩, some root,
        some ⟨ciphertext, proofB64, lens⟩⟩

/-- A file of the cache directory was read and verified again. -/
structure DiskVerified (v : ParsedUrn) (root : String) (data : ResolvedData) : Prop where
  pinned : v.rootHex = some root
  verified : ∃ art bytes, Did L i c (.diskGet (Resolver.cacheId v root)) (some art) ∧
    Did L i c (.verifyAndDecrypt v art.ciphertext art.proofB64 root art.chunkLens) (.ok bytes) ∧
    data = ⟨bytes, deriveContentType v.resourceKey bytes⟩

/-- What justifies a `GET`. -/
inductive GetPermitted (options : ResolveOptions) : String → Prop
  /-- A probe of a default tier that was found loopback. -/
  | health {tier : String} (noOverride : options.endpoint = none)
      (tiers : tier ∈ [digLocalBase, localhostBase])
      (loopback : LoopbackVerdict D L i c tier true) : GetPermitted options (tier ++ "/health")
  /-- The request for the resource of the call, at a node of its plan. -/
  | serve {v : ParsedUrn} {plan : List Endpoint} {base : String} (names : Names D c v)
      (used : PlanUsed L i c plan) (mem : Endpoint.node base ∈ plan) :
      GetPermitted options (Node.serveUrl base v)

/-- What justifies an operation. -/
def Permitted (options : ResolveOptions) : Op → Prop
  | .get url => GetPermitted D L i c options url
  | .postJson url body => ∃ v plan base root offset, Names D c v ∧ PlanUsed L i c plan ∧
      Endpoint.rpc base ∈ plan ∧ url = Text.trimEndMatches '/' base ∧ v.rootHex = some root ∧
      body = Rpc.callBody "dig.getContent" (Rpc.getContentParams D v root offset)
  | .resolvesToLoopback host => host = "dig.local"
  | .verifyAndDecrypt v _ _ root _ => Names D c v ∧ RootSource L i c v root
  | .memoryGet id => ∃ v root, Names D c v ∧ v.rootHex = some root ∧ id = Resolver.cacheId v root
  | .memoryPut id data => ∃ v root, Names D c v ∧ id = Resolver.cacheId v root ∧
      (DiskVerified L i c v root data ∨ ∃ f, FetchedFrom L i c v f ∧ f.root = some root ∧
        f.data = data)
  | .diskGet id => ∃ v root, Names D c v ∧ v.rootHex = some root ∧ id = Resolver.cacheId v root
  | .diskPut id art => ∃ v root f, Names D c v ∧ id = Resolver.cacheId v root ∧
      FetchedFrom L i c v f ∧ f.root = some root ∧ f.artifacts = some art
  | .diskRemove id => ∃ v root art e, Names D c v ∧ v.rootHex = some root ∧
      id = Resolver.cacheId v root ∧ Did L i c (.diskGet id) (some art) ∧
      Did L i c (.verifyAndDecrypt v art.ciphertext art.proofB64 root art.chunkLens) (.error e)
  | .planGet => True
  | .planSet plan => PlanBuilt D L i c options plan

/-- What justifies the success of a call. -/
inductive Succeeded (data : ResolvedData) : Prop
  | memory {v : ParsedUrn} {root : String} (names : Names D c v) (pinned : v.rootHex = some root)
      (hit : Did L i c (.memoryGet (Resolver.cacheId v root)) (some data))
  | disk {v : ParsedUrn} {root : String} (names : Names D c v)
      (verified : DiskVerified L i c v root data)
  | fetched {v : ParsedUrn} {f : Fetched} (names : Names D c v) (fetched : FetchedFrom L i c v f)
      (eq : f.data = data)

/-- What justifies the result of a call. -/
def Concluded : Except ResolveError ResolveOutcome → Prop
  | .ok (.success data) => Succeeded D L i c data
  -- a disk entry was refused and removed, or the ladder was walked
  | .ok .integrityFailure => (∃ id, Did L i c (.diskRemove id) ()) ∨ ∃ plan, PlanUsed L i c plan
  | _ => True

end

/-- The contract of the calls.  Nothing is presumed about the answers. -/
def conduct (D : Deps) (options : ρ → ResolveOptions) : Contract (Call ρ) Op Ans where
  pre i c L op := Permitted D L i c (options c.resolver) op
  known _ _ _ _ _ := True

/-! ### A justification stays one when the log grows -/

section Mono

variable {D : Deps} {L L' : RunLog ρ} {i : ℕ} {c : Call ρ} {v : ParsedUrn} {base root : String}
  {b : Bool} {plan : List Endpoint} {resp : HttpResponse} {data : ResolvedData} {f : Fetched}

lemma Did.mono {op : Op} {ans : Ans op} (h : Did L i c op ans) (hL : L <+: L') :
    Did L' i c op ans := hL.subset h

/-- The operation that was just performed. -/
lemma Did.last {op : Op} {ans : Ans op} : Did (L ++ [⟨i, c, op, ans⟩]) i c op ans :=
  List.mem_append_right _ (List.mem_singleton_self _)

lemma LoopbackVerdict.mono (h : LoopbackVerdict D L i c base b) (hL : L <+: L') :
    LoopbackVerdict D L' i c base b := by
  unfold LoopbackVerdict at h ⊢
  cases hhost : D.parsedHost base with
  | none => simpa only [hhost] using h
  | some host =>
    simp only [hhost] at h ⊢
    generalize bareHost host = name at h ⊢
    split_ifs at h ⊢ with hlocal hdig
    · exact h
    · cases hip : IpAddr.parse name with
      | some ip => simpa only [hip] using h
      | none =>
        simp only [hip] at h ⊢
        exact h.mono hL
    · exact h

lemma HealthVerdict.mono (h : HealthVerdict L i c base b) (hL : L <+: L') :
    HealthVerdict L' i c base b := by
  obtain ⟨ans, hdid, hans⟩ := h
  exact ⟨ans, hdid.mono hL, hans⟩

lemma Refused.mono (h : Refused D L i c base) (hL : L <+: L') : Refused D L' i c base := by
  rcases h with h | ⟨h, h'⟩
  · exact Or.inl (h.mono hL)
  · exact Or.inr ⟨h.mono hL, h'.mono hL⟩

lemma TiersProbed.mono {tiers : List String} (h : TiersProbed D L i c tiers plan)
    (hL : L <+: L') : TiersProbed D L' i c tiers plan := by
  induction tiers with
  | nil => exact h
  | cons tier rest ih =>
    rcases h with ⟨⟨hl, hh⟩, hplan⟩ | ⟨hr, hrest⟩
    · exact Or.inl ⟨⟨hl.mono hL, hh.mono hL⟩, hplan⟩
    · exact Or.inr ⟨hr.mono hL, ih hrest⟩

lemma PlanBuilt.mono {options : ResolveOptions} (h : PlanBuilt D L i c options plan)
    (hL : L <+: L') : PlanBuilt D L' i c options plan := by
  unfold PlanBuilt at h ⊢
  split at h
  · rcases h with ⟨hb, hplan⟩ | ⟨hb, hplan⟩
    · exact Or.inl ⟨hb.mono hL, hplan⟩
    · exact Or.inr ⟨hb.mono hL, hplan⟩
  · exact TiersProbed.mono h hL

lemma PlanUsed.mono (h : PlanUsed L i c plan) (hL : L <+: L') : PlanUsed L' i c plan :=
  h.imp (fun h => h.mono hL) (fun h => h.mono hL)

lemma NodeReply.mono (h : NodeReply L i c v base resp) (hL : L <+: L') :
    NodeReply L' i c v base resp := by
  obtain ⟨⟨plan, hused, hmem⟩, hreply⟩ := h
  exact ⟨⟨plan, hused.mono hL, hmem⟩, hreply.mono hL⟩

/-- The concrete root of a reply has one of the two sources. -/
lemma NodeReply.rootSource (h : NodeReply L i c v base resp) (hsuccess : resp.isSuccess = true)
    (hroot : Node.nodeRoot v resp = some root) : RootSource L i c v root := by
  rw [Node.nodeRoot] at hroot
  cases hpin : v.rootHex with
  | some r =>
    rw [hpin, Option.some_or] at hroot
    exact Or.inl (hpin.trans hroot)
  | none =>
    rw [hpin, Option.none_or, Option.filter_eq_some_iff] at hroot
    exact Or.inr ⟨hpin, base, resp, h, hsuccess, hroot.1⟩

lemma RootSource.mono (h : RootSource L i c v root) (hL : L <+: L') : RootSource L' i c v root := by
  rcases h with h | ⟨hnone, base, resp, hreply, hsuccess, hheader⟩
  · exact Or.inl h
  · exact Or.inr ⟨hnone, base, resp, hreply.mono hL, hsuccess, hheader⟩

lemma FetchedFrom.mono (h : FetchedFrom L i c v f) (hL : L <+: L') : FetchedFrom L' i c v f := by
  cases h with
  | attested reply success verified => exact .attested (reply.mono hL) success verified
  | verified source did => exact .verified (source.mono hL) (did.mono hL)

lemma FetchedFrom.rootSource (h : FetchedFrom L i c v f) (hroot : f.root = some root) :
    RootSource L i c v root := by
  cases h with
  | attested reply success verified => exact reply.rootSource success hroot
  | verified source did =>
    obtain rfl := Option.some.inj hroot
    exact source

lemma DiskVerified.mono (h : DiskVerified L i c v root data) (hL : L <+: L') :
    DiskVerified L' i c v root data := by
  obtain ⟨hpinned, art, bytes, hget, hverify, heq⟩ := h
  exact ⟨hpinned, art, bytes, hget.mono hL, hverify.mono hL, heq⟩

/-- What is put into the memory belongs to a concrete root of the resource of the call. -/
lemma rootSource_of_permitted_memoryPut {options : ResolveOptions} {id : String}
    (h : Permitted D L i c options (.memoryPut id data)) :
    ∃ v root, Names D c v ∧ id = Resolver.cacheId v root ∧ RootSource L i c v root := by
  obtain ⟨v, root, hv, hid, hreason⟩ := h
  rcases hreason with hdisk | ⟨f, hf, hroot, -⟩
  · exact ⟨v, root, hv, hid, Or.inl hdisk.pinned⟩
  · exact ⟨v, root, hv, hid, hf.rootSource hroot⟩

end Mono

/-! ### The ladder -/

section Sat

variable {D : Deps} {options : ρ → ResolveOptions} {L : RunLog ρ} {i : ℕ} {c : Call ρ}
  {v : ParsedUrn}

lemma isLoopbackBase_sat (base : String) :
    (isLoopbackBase D base).Sat (conduct D options) i c
      (fun L b => LoopbackVerdict D L i c base b) L := by
  unfold isLoopbackBase isLoopbackHost LoopbackVerdict
  cases hhost : D.parsedHost base with
  | none => exact Program.Sat.ret fun _ _ => rfl
  | some host =>
    dsimp only
    generalize bareHost host = name
    split_ifs with hlocal hdig
    · exact Program.Sat.ret fun _ _ => rfl
    · cases hip : IpAddr.parse name with
      | some ip => exact Program.Sat.ret fun _ _ => rfl
      | none =>
        refine Program.Sat.call (fun _ _ => rfl) fun L' ans _ _ => ?_
        exact Program.Sat.ret fun _ hL => Did.last.mono hL
    · cases hip : IpAddr.parse name with
      | some ip => exact Program.Sat.ret fun _ _ => rfl
      | none => exact Program.Sat.ret fun _ _ => rfl

lemma classify_sat (base : String) :
    (classify D base).Sat (conduct D options) i c
      (fun L e => LoopbackVerdict D L i c (Text.trimEndMatches '/' base) true ∧
          e = .node (Text.trimEndMatches '/' base) ∨
        LoopbackVerdict D L i c (Text.trimEndMatches '/' base) false ∧
          e = .rpc (Text.trimEndMatches '/' base)) L := by
  refine (isLoopbackBase_sat _).bind fun L' b _ hb => ?_
  cases b with
  | true => exact Program.Sat.ret fun _ hL => Or.inl ⟨hb.mono hL, rfl⟩
  | false => exact Program.Sat.ret fun _ hL => Or.inr ⟨hb.mono hL, rfl⟩

lemma healthOk_sat {tier : String} (hnone : (options c.resolver).endpoint = none)
    (htier : tier ∈ [digLocalBase, localhostBase]) (hloop : LoopbackVerdict D L i c tier true) :
    (healthOk tier).Sat (conduct D options) i c (fun L b => HealthVerdict L i c tier b) L := by
  refine Program.Sat.call (fun L' hL => .health hnone htier (hloop.mono hL)) fun L' ans _ _ => ?_
  cases ans with
  | ok resp => exact Program.Sat.ret fun _ hL => ⟨_, Did.last.mono hL, rfl⟩
  | error e => exact Program.Sat.ret fun _ hL => ⟨_, Did.last.mono hL, rfl⟩

lemma probeTiers_sat {tiers : List String} (hnone : (options c.resolver).endpoint = none)
    (htiers : tiers ⊆ [digLocalBase, localhostBase]) :
    (probeTiers D tiers).Sat (conduct D options) i c
      (fun L plan => TiersProbed D L i c tiers plan) L := by
  induction tiers generalizing L with
  | nil => exact Program.Sat.ret fun _ _ => rfl
  | cons tier rest ih =>
    obtain ⟨htier, hrest⟩ := List.cons_subset.1 htiers
    refine (isLoopbackBase_sat tier).bind fun L₁ b _ hb => ?_
    cases b with
    | false =>
      refine (ih hrest).imp fun L₂ plan hL hplan => ?_
      exact Or.inr ⟨Or.inl (hb.mono hL), hplan⟩
    | true =>
      refine (healthOk_sat hnone htier hb).bind fun L₂ h hL₂ hh => ?_
      cases h with
      | true =>
        exact Program.Sat.ret fun _ hL => Or.inl ⟨⟨hb.mono (hL₂.trans hL), hh.mono hL⟩, rfl⟩
      | false =>
        refine (ih hrest).imp fun L₃ plan hL hplan => ?_
        exact Or.inr ⟨Or.inr ⟨hb.mono (hL₂.trans hL), hh.mono hL⟩, hplan⟩

lemma buildPlan_sat :
    (buildPlan D (options c.resolver).endpoint).Sat (conduct D options) i c
      (fun L plan => PlanBuilt D L i c (options c.resolver) plan) L := by
  unfold buildPlan PlanBuilt
  cases hend : (options c.resolver).endpoint with
  | none => exact probeTiers_sat hend (List.Subset.refl _)
  | some base =>
    refine (classify_sat base).bind fun L' e _ he => ?_
    refine Program.Sat.ret fun _ hL => ?_
    rcases he with ⟨hb, rfl⟩ | ⟨hb, rfl⟩
    · exact Or.inl ⟨hb.mono hL, rfl⟩
    · exact Or.inr ⟨hb.mono hL, rfl⟩

lemma plan_sat :
    (Resolver.plan D (options c.resolver)).Sat (conduct D options) i c
      (fun L plan => PlanUsed L i c plan) L := by
  refine Program.Sat.call (fun _ _ => trivial) fun L₁ cached _ _ => ?_
  cases cached with
  | some plan => exact Program.Sat.ret fun _ hL => Or.inl (Did.last.mono hL)
  | none =>
    refine buildPlan_sat.bind fun L₂ plan _ hbuilt => ?_
    refine Program.Sat.call (fun L₃ hL => hbuilt.mono hL) fun L₃ _ _ _ => ?_
    exact Program.Sat.ret fun _ hL => Or.inr (Did.last.mono hL)

/-! ### The read paths -/

lemma acceptCiphertext_sat (hv : Names D c v) {base : String} {resp : HttpResponse}
    (hreply : NodeReply L i c v base resp) (hsuccess : resp.isSuccess = true) :
    (Node.acceptCiphertext v resp).Sat (conduct D options) i c
      (fun L r => ∀ f, r = .ok f → FetchedFrom L i c v f) L := by
  unfold Node.acceptCiphertext
  cases hproof : resp.header "x-dig-inclusion-proof" with
  | none => exact Program.Sat.ret fun _ _ f hf => by cases hf
  | some proofB64 =>
    dsimp only
    cases hroot : Node.nodeRoot v resp with
    | none => exact Program.Sat.ret fun _ _ f hf => by cases hf
    | some root =>
      dsimp only
      have hsource := hreply.rootSource hsuccess hroot
      cases hlens : Node.parseChunkLens (resp.header "x-dig-chunk-lens") with
      | error e => exact Program.Sat.ret fun _ _ f hf => by cases hf
      | ok lens =>
        refine Program.Sat.call (fun L' hL => ⟨hv, hsource.mono hL⟩) fun L' ans hL' _ => ?_
        cases ans with
        | error e => exact Program.Sat.ret fun _ _ f hf => by cases hf
        | ok bytes =>
          refine Program.Sat.ret fun L'' hL f hf => ?_
          obtain rfl := Except.ok.inj hf
          exact .verified (hsource.mono (hL'.trans ((List.prefix_append _ _).trans hL)))
            (Did.last.mono hL)

lemma nodeFetch_sat (hv : Names D c v) {plan : List Endpoint} {base : String}
    (hused : PlanUsed L i c plan) (hmem : Endpoint.node base ∈ plan) :
    (Node.fetch base v).Sat (conduct D options) i c
      (fun L r => ∀ f, r = .ok f → FetchedFrom L i c v f) L := by
  refine Program.Sat.call (fun L' hL => .serve hv (hused.mono hL) hmem) fun L' ans hL' _ => ?_
  cases ans with
  | error e => exact Program.Sat.ret fun _ _ f hf => by cases hf
  | ok resp =>
    have hreply : NodeReply (L' ++ [⟨i, c, _, _⟩]) i c v base resp :=
      ⟨⟨plan, hused.mono (hL'.trans (List.prefix_append _ _)), hmem⟩, Did.last⟩
    change (Node.accept v resp).Sat _ _ _ _ _
    unfold Node.accept
    split_ifs with h404 hsuccess hverified hcipher
    · exact Program.Sat.ret fun _ _ f hf => by cases hf
    · exact Program.Sat.ret fun _ _ f hf => by cases hf
    · refine Program.Sat.ret fun L'' hL f hf => ?_
      obtain rfl := Except.ok.inj hf
      exact .attested (hreply.mono hL) (by simpa using hsuccess) hverified
    · exact acceptCiphertext_sat hv hreply (by simpa using hsuccess)
    · exact Program.Sat.ret fun _ _ f hf => by cases hf

lemma rpcCall_sat (hv : Names D c v) {plan : List Endpoint} {base root : String}
    (hused : PlanUsed L i c plan) (hmem : Endpoint.rpc base ∈ plan) (hroot : v.rootHex = some root)
    (offset : UInt64) :
    (Rpc.rpcCall D Rpc.GetContent.fromValue (Text.trimEndMatches '/' base) "dig.getContent"
      (Rpc.getContentParams D v root offset)).Sat (conduct D options) i c (fun _ _ => True) L := by
  refine Program.Sat.call (fun L' hL => ?_) fun L' ans _ _ => ?_
  · exact ⟨v, plan, base, root, offset, hv, hused.mono hL, hmem, rfl, hroot, rfl⟩
  · cases ans <;> exact Program.Sat.ret fun _ _ => trivial

lemma collect_sat (hv : Names D c v) {plan : List Endpoint} {base root : String}
    (hused : PlanUsed L i c plan) (hmem : Endpoint.rpc base ∈ plan) (hroot : v.rootHex = some root)
    (windows : ℕ) (st : Rpc.Assembly) :
    (Rpc.collect D (Text.trimEndMatches '/' base) v root windows st).Sat (conduct D options) i c
      (fun _ _ => True) L := by
  induction hn : Rpc.maxWindows - windows generalizing windows st L with
  | zero =>
    rw [Rpc.collect, dif_pos (by omega)]
    exact Program.Sat.ret fun _ _ => trivial
  | succ n ih =>
    rw [Rpc.collect, dif_neg (by omega)]
    refine (rpcCall_sat hv hused hmem hroot st.offset).bind fun L' r hL' _ => ?_
    cases r with
    | error e => exact Program.Sat.ret fun _ _ => trivial
    | ok r =>
      dsimp only
      rcases Rpc.absorb D st r with e | ⟨st', b⟩
      · exact Program.Sat.ret fun _ _ => trivial
      · cases b with
        | true => exact Program.Sat.ret fun _ _ => trivial
        | false => exact ih (hused.mono hL') (windows + 1) st' (by omega)

lemma rpcFetch_sat (hv : Names D c v) {plan : List Endpoint} {base : String}
    (hused : PlanUsed L i c plan) (hmem : Endpoint.rpc base ∈ plan) :
    (Rpc.fetch D base v).Sat (conduct D options) i c
      (fun L r => ∀ f, r = .ok f → FetchedFrom L i c v f) L := by
  unfold Rpc.fetch Rpc.trustedRoot
  cases hroot : v.rootHex with
  | none => exact Program.Sat.ret fun _ _ f hf => by cases hf
  | some root =>
    refine (collect_sat hv hused hmem hroot 0 {}).bind fun L₁ r _ _ => ?_
    cases r with
    | error e => exact Program.Sat.ret fun _ _ f hf => by cases hf
    | ok st =>
      refine Program.Sat.call (fun L' hL => ⟨hv, Or.inl hroot⟩) fun L' ans _ _ => ?_
      cases ans with
      | error e => exact Program.Sat.ret fun _ _ f hf => by cases hf
      | ok bytes =>
        refine Program.Sat.ret fun L'' hL f hf => ?_
        obtain rfl := Except.ok.inj hf
        exact .verified (Or.inl hroot) (Did.last.mono hL)

lemma fetchFrom_sat (hv : Names D c v) {plan : List Endpoint} {endpoint : Endpoint}
    (hused : PlanUsed L i c plan) (hmem : endpoint ∈ plan) :
    (Resolver.fetchFrom D endpoint v).Sat (conduct D options) i c
      (fun L r => ∀ f, r = .ok f → FetchedFrom L i c v f) L := by
  obtain ⟨base, kind⟩ := endpoint
  cases kind with
  | node => exact nodeFetch_sat hv hused hmem
  | rpc => exact rpcFetch_sat hv hused hmem

/-! ### The caches and the whole call -/

lemma diskGetVerified_sat (hv : Names D c v) {root : String} (hroot : v.rootHex = some root) :
    (Resolver.diskGetVerified (options c.resolver) v (Resolver.cacheId v root)).Sat
      (conduct D options) i c
      (fun L r => match r with
        | some (.success data) => DiskVerified L i c v root data
        | some .integrityFailure => ∃ id, Did L i c (.diskRemove id) ()
        | _ => True) L := by
  unfold Resolver.diskGetVerified
  cases (options c.resolver).cachePath with
  | none => exact Program.Sat.ret fun _ _ => trivial
  | some path =>
    simp only [hroot]
    refine Program.Sat.call (fun L' _ => ⟨v, root, hv, hroot, rfl⟩) fun L₁ found _ _ => ?_
    cases found with
    | none => exact Program.Sat.ret fun _ _ => trivial
    | some art =>
      refine Program.Sat.call (fun L' _ => ⟨hv, Or.inl hroot⟩) fun L₂ ans hL₂ _ => ?_
      have hget : ∀ {L'}, L₂ ++ [⟨i, c, _, ans⟩] <+: L' →
          Did L' i c (.diskGet (Resolver.cacheId v root)) (some art) :=
        fun hL => Did.last.mono (hL₂.trans ((List.prefix_append _ _).trans hL))
      have hremove : ∀ {L'} {e : ResolveError}, ans = .error e →
          L₂ ++ [⟨i, c, _, ans⟩] <+: L' →
          Permitted D L' i c (options c.resolver) (.diskRemove (Resolver.cacheId v root)) := by
        rintro L' e rfl hL
        exact ⟨v, root, art, e, hv, hroot, rfl, hget hL, Did.last.mono hL⟩
      rcases ans with e | bytes
      · cases e with
        | verifyFailed m | decryptFailed =>
          refine Program.Sat.call (fun L' hL => hremove rfl hL) fun L₃ _ _ _ => ?_
          exact Program.Sat.ret fun _ hL => ⟨_, Did.last.mono hL⟩
        | parse m | transport m | rpc m | notFound | rootRequired =>
          refine Program.Sat.call (fun L' hL => hremove rfl hL) fun L₃ _ _ _ => ?_
          exact Program.Sat.ret fun _ _ => trivial
      · refine Program.Sat.ret fun L' hL => ?_
        have hverified : DiskVerified L' i c v root
            ⟨bytes, deriveContentType v.resourceKey bytes⟩ :=
          ⟨hroot, art, bytes, hget hL, Did.last.mono hL, rfl⟩
        exact hverified

lemma cacheSuccess_sat (hv : Names D c v) {f : Fetched} (hf : FetchedFrom L i c v f) :
    (Resolver.cacheSuccess (options c.resolver) v f).Sat (conduct D options) i c
      (fun _ _ => True) L := by
  unfold Resolver.cacheSuccess
  cases hroot : f.root with
  | none => exact Program.Sat.ret fun _ _ => trivial
  | some root =>
    refine Program.Sat.call (fun L' hL => ?_) fun L₁ _ hL₁ _ => ?_
    · exact ⟨v, root, hv, rfl, Or.inr ⟨f, hf.mono hL, hroot, rfl⟩⟩
    · cases (options c.resolver).cachePath with
      | none => exact Program.Sat.ret fun _ _ => trivial
      | some path =>
        cases hart : f.artifacts with
        | none => exact Program.Sat.ret fun _ _ => trivial
        | some art =>
          refine Program.Sat.call (fun L' hL => ?_) fun _ _ _ _ =>
            Program.Sat.ret fun _ _ => trivial
          exact ⟨v, root, f, hv, rfl,
            hf.mono (hL₁.trans ((List.prefix_append _ _).trans hL)), hroot, hart⟩

lemma walk_sat (hv : Names D c v) {plan : List Endpoint} (hused : PlanUsed L i c plan)
    (last j : ℕ) {rest : List Endpoint} (hrest : rest ⊆ plan) :
    (Resolver.walk D (options c.resolver) v last j rest).Sat (conduct D options) i c
      (fun L r => Concluded D L i c r) L := by
  induction rest generalizing L j with
  | nil => exact Program.Sat.ret fun _ _ => trivial
  | cons endpoint rest ih =>
    obtain ⟨hmem, hrest'⟩ := List.cons_subset.1 hrest
    refine (fetchFrom_sat hv hused hmem).bind fun L₁ r hL₁ hr => ?_
    have hused₁ := hused.mono hL₁
    cases r with
    | ok f =>
      have hf := hr f rfl
      refine (cacheSuccess_sat hv hf).bind fun L₂ _ hL₂ _ => ?_
      exact Program.Sat.ret fun _ hL => .fetched hv (hf.mono (hL₂.trans hL)) rfl
    | error e =>
      cases e with
      | verifyFailed m | decryptFailed =>
        exact Program.Sat.ret fun _ hL => Or.inr ⟨plan, hused₁.mono hL⟩
      | notFound | transport m =>
        dsimp only
        split
        · exact Program.Sat.ret fun _ _ => trivial
        · exact ih hused₁ (j + 1) hrest'
      | parse m | rpc m | rootRequired => exact Program.Sat.ret fun _ _ => trivial

lemma resolveUncached_sat (hv : Names D c v) :
    (Resolver.resolveUncached D (options c.resolver) v).Sat (conduct D options) i c
      (fun L r => Concluded D L i c r) L := by
  refine plan_sat.bind fun L₁ plan _ hused => ?_
  exact walk_sat hv hused _ 0 (List.Subset.refl plan)

lemma resolveParsed_sat (hv : Names D c v) :
    (Resolver.resolveParsed D (options c.resolver) v).Sat (conduct D options) i c
      (fun L r => Concluded D L i c r) L := by
  unfold Resolver.resolveParsed
  cases hroot : v.rootHex with
  | none => exact resolveUncached_sat hv
  | some root =>
    refine Program.Sat.call (fun L' _ => ⟨v, root, hv, hroot, rfl⟩) fun L₁ found _ _ => ?_
    cases found with
    | some data => exact Program.Sat.ret fun _ hL => .memory hv hroot (Did.last.mono hL)
    | none =>
      refine (diskGetVerified_sat hv hroot).bind fun L₂ found _ hfound => ?_
      cases found with
      | none => exact resolveUncached_sat hv
      | some outcome =>
        cases outcome with
        | success data =>
          have hdisk : DiskVerified L₂ i c v root data := hfound
          refine Program.Sat.call (fun L' hL => ?_) fun L₃ _ hL₃ _ => ?_
          · exact ⟨v, root, hv, rfl, Or.inl (hdisk.mono hL)⟩
          · refine Program.Sat.ret fun _ hL => .disk hv (hdisk.mono ?_)
            exact hL₃.trans ((List.prefix_append _ _).trans hL)
        | integrityFailure =>
          obtain ⟨id, hid⟩ : ∃ id, Did L₂ i c (.diskRemove id) () := hfound
          exact Program.Sat.ret fun _ hL => Or.inl ⟨id, hid.mono hL⟩
        | unreachable => exact Program.Sat.ret fun _ _ => trivial

variable (D options) in
/-- **Every call justifies what it does and what it returns.** -/
theorem resolve_sat (L : RunLog ρ) (i : ℕ) (c : Call ρ) :
    (Resolver.resolve D (options c.resolver) c.urn).Sat (conduct D options) i c
      (fun L r => Concluded D L i c r) L := by
  unfold Resolver.resolve
  cases hparse : ParsedUrn.parse D c.urn with
  | error e => exact Program.Sat.ret fun _ _ => trivial
  | ok v => exact resolveParsed_sat hparse

end Sat

end DigUrnResolver
