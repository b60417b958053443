/-
# The entries of rootless URNs

A success of a rootless URN is stored under the root that the `X-Dig-Root` header of the node names,
if it is not too large.  The header is trimmed, and otherwise taken as it is: the identity is the one
of a pinned URN exactly when the header is 64 lowercase hex digits.  Then the pinned URN is answered
from memory; a header in another letter case leads to an entry that no pinned URN finds, and so does
one that is no root.
-/
import DigUrnResolver.Caching.Identity
import DigUrnResolver.Session.Failure
import DigUrnResolver.Session.Residency

namespace DigUrnResolver

open Interaction

/-- The URN at a root. -/
def ParsedUrn.pinnedAt (v : ParsedUrn) (root : Hex64) : ParsedUrn :=
  { v with urn := { v.urn with rootHex := some root } }

/-- The `X-Dig-Root` header of the reply names the root, in any letter case. -/
def HttpResponse.NamesRoot (resp : HttpResponse) (root : Hex64) : Prop :=
  ∃ value, resp.header "x-dig-root" = some value ∧
    Text.eqIgnoreAsciiCase (Text.trim value) root.text = true

/-- The operation stores something under the identity: data that are within the budget of the memory,
or artifacts that can be written. -/
def StoresUnder (D : Deps) (id : String) : Op → Prop
  | .memoryPut id' data => id = id' ∧ data.bytes.length ≤ MemoryCache.defaultMemoryBytes
  | .diskPut id' art => id = id' ∧ (D.artifactsToVec art).isSome = true
  | _ => False

/-- The reply that an event brings, with the address that was asked. -/
def replyOf : Event Op Ans → Option (String × HttpResponse)
  | ⟨.get url, .ok resp⟩ => some (url, resp)
  | _ => none

/-- The last reply of the conversation. -/
def lastReply (t : List (Event Op Ans)) : Option (String × HttpResponse) :=
  (t.filterMap replyOf).getLast?

variable {ρ : Type} [DecidableEq ρ]

/-- After the call, whose node replied `resp`, the resource is cached under the root that the reply
names, if at all. -/
structure CachedCanonically (D : Deps) (options : ρ → ResolveOptions) (c : Call ρ) (v : ParsedUrn)
    (resp : HttpResponse) (data : ResolvedData) (t : List (Event Op Ans)) (w : World ρ) : Prop where
  /-- Every identity under which something was stored is the one that the URN, pinned at the root
  that the header names, looks up. -/
  stores : ∀ e ∈ t, ∀ id, StoresUnder D id e.op →
    ∃ root, resp.NamesRoot root ∧ id = Resolver.cacheId (v.pinnedAt root) root.text
  /-- The URN pinned at this root is answered from memory, as long as the data have their room. -/
  answers : ∀ root, resp.NamesRoot root → ∀ S bound w₁ between w₂ c' t' result w₃,
    Resolver.cacheId (v.pinnedAt root) root.text ∉ S →
    Lru.Room MemoryCache.size World.memoryLimits S bound data →
    Tampering w w₁ → Calls D options w₁ between w₂ →
    Window c.resolver S bound (Resolver.cacheId (v.pinnedAt root) root.text) between →
    c'.resolver = c.resolver → ParsedUrn.parse D c'.urn = .ok (v.pinnedAt root) →
    Resolves D options c' w₂ t' result w₃ →
      result = .ok (.success data) ∧
        t' = [⟨.memoryGet (Resolver.cacheId (v.pinnedAt root) root.text), some data⟩]

/-- The header of the reply, if it is not blank, is 64 lowercase hex digits. -/
def HttpResponse.CanonicalRoot (resp : HttpResponse) : Prop :=
  ∀ value, resp.header "x-dig-root" = some value →
    Text.trim value = "" ∨ IsHex64 (Text.trim value)

/-- The reply is ciphertext, comes with these artifacts, and opens to the bytes under its root. -/
structure HttpResponse.Opens (D : Deps) (v : ParsedUrn) (resp : HttpResponse) (art : DiskArtifacts)
    (bytes : Bytes) : Prop where
  unattested : Node.verifiedPlaintext resp = false
  ciphertext : art.ciphertext = resp.body
  proof : resp.header "x-dig-inclusion-proof" = some art.proofB64
  lens : Node.parseChunkLens (resp.header "x-dig-chunk-lens") = .ok art.chunkLens
  verifies : ∃ root, Node.nodeRoot v resp = some root ∧
    Crypto.verifyAndDecrypt D v art.ciphertext art.proofB64 root art.chunkLens = .ok bytes

/-- A cache takes what the reply amounts to: the memory has room for its plaintext, or there is a
directory for its artifacts. -/
inductive HttpResponse.Cacheable (D : Deps) (o : ResolveOptions) (v : ParsedUrn)
    (resp : HttpResponse) : Prop
  | attested (verified : Node.verifiedPlaintext resp = true)
      (room : resp.body.length ≤ MemoryCache.defaultMemoryBytes)
  | opened {art : DiskArtifacts} {bytes : Bytes} (opens : resp.Opens D v art bytes)
      (room : bytes.length ≤ MemoryCache.defaultMemoryBytes)
  | written {art : DiskArtifacts} {bytes : Bytes} (opens : resp.Opens D v art bytes)
      (directory : o.cachePath.isSome = true) (writes : (D.artifactsToVec art).isSome = true)

variable {D : Deps} {options : ρ → ResolveOptions} {o : ResolveOptions} {w w' : World ρ}
  {c : Call ρ} {t : List (Event Op Ans)} {v : ParsedUrn} {resp : HttpResponse}
  {data : ResolvedData} {root : String}

/-! ### Roots and their spellings -/

/-- Lowercase hex digits are in lower case. -/
lemma IsHex64.map_toLower (h : IsHex64 root) : root.toList.map Char.toLower = root.toList := by
  rw [List.map_congr_left fun c hc => Text.toLower_of_isLowerHex (h.2 c hc), List.map_id']

/-- Up to the letter case, canonical texts are the same root only if they are equal. -/
lemma IsHex64.eq_of_eqIgnoreAsciiCase (h : IsHex64 root) {r : Hex64}
    (heq : Text.eqIgnoreAsciiCase root r.text = true) : root = r.text := by
  rw [Text.eqIgnoreAsciiCase, beq_iff_eq, h.map_toLower, r.hex.map_toLower] at heq
  exact String.toList_inj.1 heq

/-- A rootless URN is stored under the header of the reply, unless that is blank. -/
lemma Node.nodeRoot_eq_some_iff (hroot : v.rootHex = none) :
    Node.nodeRoot v resp = some root ↔
      ∃ value, resp.header "x-dig-root" = some value ∧ Text.trim value = root ∧ root ≠ "" := by
  rw [Node.nodeRoot, hroot, Option.none_or, Option.filter_eq_some_iff, Option.map_eq_some_iff]
  constructor
  · rintro ⟨⟨value, hvalue, htrim⟩, hne⟩
    exact ⟨value, hvalue, htrim, by simpa using hne⟩
  · rintro ⟨value, hvalue, htrim, hne⟩
    exact ⟨⟨value, hvalue, htrim⟩, by simpa using hne⟩

/-- The roots that are named are those of canonical headers. -/
lemma HttpResponse.NamesRoot.nodeRoot_eq {r : Hex64} (h : resp.NamesRoot r)
    (hroot : v.rootHex = none) (hcanonical : resp.CanonicalRoot) :
    Node.nodeRoot v resp = some r.text := by
  obtain ⟨value, hvalue, heq⟩ := h
  have hne : r.text ≠ "" := by
    intro hempty
    have hlength := r.hex.1
    rw [hempty] at hlength
    cases hlength
  rcases hcanonical value hvalue with hblank | hhex
  · rw [hblank, Text.eqIgnoreAsciiCase, beq_iff_eq, r.hex.map_toLower] at heq
    exact absurd (String.toList_inj.1 heq.symm) hne
  · have htrim := hhex.eq_of_eqIgnoreAsciiCase heq
    exact (Node.nodeRoot_eq_some_iff hroot).2 ⟨value, hvalue, htrim, hne⟩

/-! ### Where the data come from -/

/-- What `accept` returns for a reply, after the verifications `checks`. -/
inductive Node.Accepted (v : ParsedUrn) (resp : HttpResponse) (checks : List (Event Op Ans))
    (fetched : Fetched) : Prop
  | attested (verified : verifiedPlaintext resp = true) (root : fetched.root = nodeRoot v resp)
      (bytes : fetched.data.bytes = resp.body) (artifacts : fetched.artifacts = none)
  | decrypted {art : DiskArtifacts} {root : String} (unattested : verifiedPlaintext resp = false)
      (ciphertext : art.ciphertext = resp.body)
      (proof : resp.header "x-dig-inclusion-proof" = some art.proofB64)
      (lens : parseChunkLens (resp.header "x-dig-chunk-lens") = .ok art.chunkLens)
      (named : nodeRoot v resp = some root) (stored : fetched.root = some root)
      (did : ⟨.verifyAndDecrypt v art.ciphertext art.proofB64 root art.chunkLens,
        .ok fetched.data.bytes⟩ ∈ checks)
      (artifacts : fetched.artifacts = some art)

lemma Node.accepted_of_trace {checks : List (Event Op Ans)} {fetched : Fetched}
    (h : (Node.accept v resp).Trace checks (.ok fetched)) : Accepted v resp checks fetched := by
  rw [Node.accept] at h
  split_ifs at h with h404 hsuccess hverified hcipher
  · cases (Program.trace_ret_iff.1 h).2
  · cases (Program.trace_ret_iff.1 h).2
  · obtain ⟨-, heq⟩ := Program.trace_ret_iff.1 h
    obtain rfl := Except.ok.inj heq
    exact .attested hverified rfl rfl rfl
  · rw [Node.acceptCiphertext] at h
    cases hproof : resp.header "x-dig-inclusion-proof" with
    | none =>
      rw [hproof] at h
      cases (Program.trace_ret_iff.1 h).2
    | some proof =>
      simp only [hproof] at h
      cases hroot : Node.nodeRoot v resp with
      | none =>
        rw [hroot] at h
        cases (Program.trace_ret_iff.1 h).2
      | some root =>
        simp only [hroot] at h
        cases hlens : Node.parseChunkLens (resp.header "x-dig-chunk-lens") with
        | error e =>
          rw [hlens] at h
          cases (Program.trace_ret_iff.1 h).2
        | ok lens =>
          simp only [hlens] at h
          obtain ⟨verdict, rest, rfl, hrest⟩ := Program.trace_call_iff.1 h
          cases verdict with
          | error e => cases (Program.trace_ret_iff.1 hrest).2
          | ok bytes =>
            obtain ⟨-, heq⟩ := Program.trace_ret_iff.1 hrest
            obtain rfl := Except.ok.inj heq
            have hunattested : Node.verifiedPlaintext resp = false := by simpa using hverified
            exact .decrypted hunattested rfl hproof hlens hroot rfl List.mem_cons_self rfl
  · cases (Program.trace_ret_iff.1 h).2

/-- It is under the concrete root of the reply. -/
lemma Node.Accepted.root_eq {checks : List (Event Op Ans)} {fetched : Fetched}
    (h : Accepted v resp checks fetched) : fetched.root = nodeRoot v resp := by
  cases h with
  | attested _ root => exact root
  | decrypted _ _ _ _ named stored => exact stored.trans named.symm

/-- How a success of a rootless URN comes about: a node replies, its reply is verified if it is
ciphertext, and what is stored in the end is stored under the concrete root of the reply. -/
def Served (o : ResolveOptions) (v : ParsedUrn) (base : String) (resp : HttpResponse)
    (data : ResolvedData) (t : List (Event Op Ans)) : Prop :=
  ∃ front checks stored fetched,
    t = front ++ ⟨.get (Node.serveUrl base v), .ok resp⟩ :: (checks ++ stored) ∧
    (∀ e ∈ front, ¬ Resolver.IsCacheOp e.op) ∧ (∀ e ∈ checks, Resolver.IsVerification e.op) ∧
    (Resolver.cacheSuccess o v fetched).Trace stored () ∧
    Node.Accepted v resp checks fetched ∧ fetched.data = data

/-- Of a rootless URN, only a node returns something. -/
lemma Resolver.served_of_fetchFrom {endpoint : Endpoint} {fetched : Fetched}
    (hroot : v.rootHex = none) (h : (Resolver.fetchFrom D endpoint v).Trace t (.ok fetched)) :
    ∃ resp checks, t = ⟨.get (Node.serveUrl endpoint.base v), .ok resp⟩ :: checks ∧
      (∀ e ∈ checks, Resolver.IsVerification e.op) ∧ Node.Accepted v resp checks fetched := by
  rw [Resolver.fetchFrom] at h
  cases hkind : endpoint.kind with
  | node =>
    rw [hkind] at h
    obtain ⟨answer, checks, rfl, hchecks⟩ := Program.trace_call_iff.1 h
    cases answer with
    | error e => cases (Program.trace_ret_iff.1 hchecks).2
    | ok resp =>
      change (Node.accept v resp).Trace checks (.ok fetched) at hchecks
      exact ⟨resp, checks, rfl, hchecks.of_only (Resolver.only_accept resp),
        Node.accepted_of_trace hchecks⟩
  | rpc =>
    rw [hkind] at h
    have hfetches := Rpc.trace_fetch h
    generalize hok : Except.ok fetched = result at hfetches
    cases hfetches with
    | rootless => cases hok
    | failed => cases hok
    | assembled hpin => cases hroot.symm.trans hpin

/-- **Every success of a rootless URN comes about like this.** -/
lemma Resolver.Resolved.served (h : Resolver.Resolved D o v t (.ok (.success data)))
    (hroot : v.rootHex = none) : ∃ base resp, Served o v base resp data t := by
  generalize hr : (Except.ok (.success data) : Except ResolveError ResolveOutcome) = result at h
  cases h with
  | cached hconsult =>
    rw [Resolver.consult, hroot] at hconsult
    cases (Program.trace_ret_iff.1 hconsult).2
  | @walked lookups planning _ _ _ hconsult hplan hwalked =>
    rw [Resolver.consult, hroot] at hconsult
    obtain ⟨rfl, -⟩ := Program.trace_ret_iff.1 hconsult
    cases hwalked with
    | @succeeded passed x late stored fetched hsplit hpassed hx hresult hstored hquiet =>
      obtain rfl := ResolveOutcome.success.inj (Except.ok.inj hr)
      have hfetch := hx.1
      rw [hresult] at hfetch
      obtain ⟨resp, checks, htalk, hchecks, haccepted⟩ :=
        Resolver.served_of_fetchFrom hroot hfetch
      refine ⟨x.endpoint.base, resp, planning ++ passed.flatMap Visit.talk, checks, stored, fetched,
        ?_, ?_, hchecks, hstored, haccepted, rfl⟩
      · rw [List.flatMap_append, List.flatMap_singleton, htalk]
        simp only [List.nil_append, List.append_assoc, List.cons_append]
      · intro e he
        rcases List.mem_append.1 he with he | he
        · exact hplan.of_only Resolver.offCache_plan e he
        · exact Resolver.offCache_visits (fun y hy => (hpassed y hy).1) e he
    | failed _ _ _ _ he => exact absurd hr.symm (Resolver.failure_ne_success _ _)
    | exhausted _ _ hcases =>
      rcases hcases with rfl | rfl
      · cases hr
      · cases hr

lemma mem_of_lastReply {url : String} (h : lastReply t = some (url, resp)) :
    ⟨.get url, .ok resp⟩ ∈ t := by
  obtain ⟨⟨op, ans⟩, he, heq⟩ := List.mem_filterMap.1 (List.mem_of_getLast? h)
  cases op with
  | get url' =>
    cases ans with
    | error e => cases heq
    | ok resp' =>
      obtain ⟨rfl, rfl⟩ := Prod.mk.inj (Option.some.inj heq)
      exact he
  | _ => cases heq

/-- Behind the reply there is no other one. -/
lemma Served.lastReply_eq {base : String} (h : Served o v base resp data t) :
    lastReply t = some (Node.serveUrl base v, resp) := by
  obtain ⟨front, checks, stored, fetched, rfl, -, hchecks, hstored, -, -⟩ := h
  have hquiet : (checks ++ stored).filterMap replyOf = [] := by
    rw [List.filterMap_eq_nil_iff]
    rintro ⟨op, ans⟩ he
    rcases List.mem_append.1 he with he | he
    · have hop := hchecks _ he
      cases op with
      | verifyAndDecrypt => rfl
      | _ => exact absurd hop id
    · have hop := hstored.of_only (Resolver.only_cacheSuccess fetched) _ he
      cases op with
      | memoryPut | diskPut => rfl
      | _ => exact absurd hop id
  have hreply : replyOf ⟨.get (Node.serveUrl base v), .ok resp⟩ =
      some (Node.serveUrl base v, resp) := rfl
  rw [lastReply, List.filterMap_append, List.filterMap_cons_some hreply, hquiet,
    List.getLast?_append, List.getLast?_singleton, Option.some_or]

lemma StoresUnder.isCacheOp {id : String} {op : Op} (h : StoresUnder D id op) :
    Resolver.IsCacheOp op := by
  cases op with
  | memoryPut | diskPut => trivial
  | _ => exact absurd h not_false

/-! ### What is stored -/

/-- A cache takes what was fetched. -/
def Fetched.Kept (D : Deps) (o : ResolveOptions) (fetched : Fetched) : Prop :=
  fetched.data.bytes.length ≤ MemoryCache.defaultMemoryBytes ∨ o.cachePath.isSome = true ∧
    ∃ art, fetched.artifacts = some art ∧ (D.artifactsToVec art).isSome = true

/-- What is kept is stored under the root of the fetch, and what is not kept is not stored. -/
lemma Resolver.stores_cacheSuccess_iff {fetched : Fetched} {stored : List (Event Op Ans)}
    {id : String} (h : (Resolver.cacheSuccess o v fetched).Trace stored ()) :
    (∃ e ∈ stored, StoresUnder D id e.op) ↔
      fetched.Kept D o ∧ ∃ root, fetched.root = some root ∧ id = Resolver.cacheId v root := by
  rw [Resolver.cacheSuccess] at h
  cases hroot : fetched.root with
  | none =>
    rw [hroot] at h
    obtain ⟨rfl, -⟩ := Program.trace_ret_iff.1 h
    simp
  | some root =>
    rw [hroot] at h
    obtain ⟨_, rest, rfl, hrest⟩ := Program.trace_call_iff.1 h
    cases hpath : o.cachePath with
    | none =>
      rw [hpath] at hrest
      obtain ⟨rfl, -⟩ := Program.trace_ret_iff.1 hrest
      simp [Fetched.Kept, StoresUnder, hpath, and_comm]
    | some path =>
      rw [hpath] at hrest
      cases hart : fetched.artifacts with
      | none =>
        rw [hart] at hrest
        obtain ⟨rfl, -⟩ := Program.trace_ret_iff.1 hrest
        simp [Fetched.Kept, StoresUnder, hart, and_comm]
      | some art =>
        rw [hart] at hrest
        obtain ⟨_, rest, rfl, hput⟩ := Program.trace_call_iff.1 hrest
        obtain ⟨rfl, -⟩ := Program.trace_ret_iff.1 hput
        simp only [List.mem_cons, List.not_mem_nil, or_false, exists_eq_or_imp, exists_eq_left,
          StoresUnder, ← and_or_left, Fetched.Kept, hpath, hart, Option.isSome_some,
          Option.some.injEq, true_and, exists_eq_left']
        exact and_comm

lemma HttpResponse.Opens.eq {art art' : DiskArtifacts} {bytes bytes' : Bytes}
    (h : resp.Opens D v art bytes) (h' : resp.Opens D v art' bytes') :
    art = art' ∧ bytes = bytes' := by
  obtain ⟨-, hcipher, hproof, hlens, root, hroot, hverify⟩ := h
  obtain ⟨-, hcipher', hproof', hlens', root', hroot', hverify'⟩ := h'
  obtain ⟨ciphertext, proofB64, chunkLens⟩ := art
  obtain ⟨ciphertext', proofB64', chunkLens'⟩ := art'
  obtain rfl : ciphertext = ciphertext' := hcipher.trans hcipher'.symm
  obtain rfl := Option.some.inj (hproof.symm.trans hproof')
  obtain rfl := Except.ok.inj (hlens.symm.trans hlens')
  obtain rfl := Option.some.inj (hroot.symm.trans hroot')
  exact ⟨rfl, Except.ok.inj (hverify.symm.trans hverify')⟩

/-- Whether it is kept can be told from the reply. -/
lemma Node.Accepted.kept_iff {checks : List (Event Op Ans)} {fetched : Fetched}
    (h : Node.Accepted v resp checks fetched)
    {s s' : World ρ} (htalks : Talks (World.trans D c) s checks s') :
    fetched.Kept D o ↔ resp.Cacheable D o v := by
  cases h with
  | attested verified root bytes artifacts =>
    have hnot : Node.verifiedPlaintext resp ≠ false := by simp [verified]
    rw [Fetched.Kept, bytes, artifacts]
    constructor
    · rintro (hroom | ⟨-, art, hart, -⟩)
      · exact .attested verified hroom
      · cases hart
    · intro hcacheable
      cases hcacheable with
      | attested _ room => exact .inl room
      | opened opens => exact absurd opens.unattested hnot
      | written opens => exact absurd opens.unattested hnot
  | @decrypted art root unattested ciphertext proof lens named stored did artifacts =>
    -- the verdict is that of the read-crypto
    obtain ⟨s₁, s₂, hstep⟩ := htalks.exists_step did
    have hopens : resp.Opens D v art fetched.data.bytes :=
      ⟨unattested, ciphertext, proof, lens, root, named, hstep.1.symm⟩
    constructor
    · rintro (hroom | ⟨hpath, art', hart, hwrites⟩)
      · exact .opened hopens hroom
      · obtain rfl := Option.some.inj (artifacts.symm.trans hart)
        exact .written hopens hpath hwrites
    · intro hcacheable
      cases hcacheable with
      | attested verified =>
        cases verified.symm.trans unattested
      | opened opens room =>
        rw [(hopens.eq opens).2.symm] at room
        exact .inl room
      | written opens directory writes =>
        rw [(hopens.eq opens).1.symm] at writes
        exact .inr ⟨directory, art, artifacts, writes⟩

lemma talks_checks {front checks stored : List (Event Op Ans)} {e : Event Op Ans}
    (h : Talks (World.trans D c) w (front ++ e :: (checks ++ stored)) w') :
    ∃ s s', Talks (World.trans D c) s checks s' := by
  obtain ⟨_, -, hrest⟩ := Talks.append_iff.1 h
  obtain ⟨s, -, hrest⟩ := Talks.cons_iff.1 hrest
  obtain ⟨s', hchecks, -⟩ := Talks.append_iff.1 hrest
  exact ⟨s, s', hchecks⟩

/-- The identities under which something is stored: the one of the concrete root of the reply, if a
cache takes what it amounts to. -/
lemma Served.stores_iff {base id : String} (h : Served o v base resp data t)
    (htalks : Talks (World.trans D c) w t w') :
    (∃ e ∈ t, StoresUnder D id e.op) ↔ resp.Cacheable D o v ∧
      ∃ root, Node.nodeRoot v resp = some root ∧ id = Resolver.cacheId v root := by
  obtain ⟨front, checks, stored, fetched, rfl, hfront, hchecks, hstored, haccepted, -⟩ := h
  obtain ⟨s, s', hverify⟩ := talks_checks htalks
  rw [← haccepted.kept_iff hverify, ← haccepted.root_eq,
    ← Resolver.stores_cacheSuccess_iff hstored]
  constructor
  · rintro ⟨⟨op, ans⟩, he, hop⟩
    refine ⟨⟨op, ans⟩, ?_, hop⟩
    -- neither the requests nor the verifications store anything
    rcases List.mem_append.1 he with he | he
    · exact absurd hop.isCacheOp (hfront _ he)
    · rcases List.mem_cons.1 he with heq | he
      · obtain ⟨rfl, -⟩ := Event.mk.inj heq
        exact absurd hop not_false
      · rcases List.mem_append.1 he with he | he
        · have hcheck := hchecks _ he
          cases op with
          | verifyAndDecrypt => exact absurd hop not_false
          | _ => exact absurd hcheck not_false
        · exact he
  · rintro ⟨e, he, hop⟩
    exact ⟨e, List.mem_append_right _ (List.mem_cons_of_mem _ (List.mem_append_right _ he)), hop⟩

/-- Data that are within the budget of the memory are cacheable. -/
lemma Served.cacheable {base : String} (h : Served o v base resp data t)
    (htalks : Talks (World.trans D c) w t w')
    (hroom : data.bytes.length ≤ MemoryCache.defaultMemoryBytes) : resp.Cacheable D o v := by
  obtain ⟨front, checks, stored, fetched, rfl, -, -, -, haccepted, rfl⟩ := h
  obtain ⟨s, s', hverify⟩ := talks_checks htalks
  exact (haccepted.kept_iff hverify).1 (.inl hroom)

/-! ### When the entry is canonical -/

/-- What is stored canonically is stored under a canonical header. -/
lemma CachedCanonically.canonicalRoot {base : String}
    (h : CachedCanonically D options c v resp data t w') (hroot : v.rootHex = none)
    (hserved : Served o v base resp data t) (htalks : Talks (World.trans D c) w t w')
    (hcacheable : resp.Cacheable D o v) : resp.CanonicalRoot := by
  intro value hvalue
  by_cases hblank : Text.trim value = ""
  · exact .inl hblank
  · have hnode : Node.nodeRoot v resp = some (Text.trim value) :=
      (Node.nodeRoot_eq_some_iff hroot).2 ⟨value, hvalue, rfl, hblank⟩
    obtain ⟨e, he, hstores⟩ := (hserved.stores_iff htalks).2 ⟨hcacheable, _, hnode, rfl⟩
    obtain ⟨root, -, hid⟩ := h.stores e he _ hstores
    have htext : Text.trim value = root.text := Resolver.cacheId_injective v hid
    rw [htext]
    exact .inr root.hex

/-- Under a canonical header, the entry is in front of the memory after the call. -/
lemma Served.keeps {base : String} {r : Hex64} {S : Finset String} {bound : String → ℕ}
    (h : Served o v base resp data t) (hw : w.Ordered)
    (hnode : Node.nodeRoot v resp = some r.text)
    (hid : Resolver.cacheId (v.pinnedAt r) r.text ∉ S)
    (hroom : Lru.Room MemoryCache.size World.memoryLimits S bound data)
    (htalks : Talks (World.trans D c) w t w') :
    w'.Keeps c.resolver S bound (Resolver.cacheId (v.pinnedAt r) r.text) data := by
  obtain ⟨front, checks, stored, fetched, rfl, -, -, hstored, haccepted, rfl⟩ := h
  rw [List.append_cons, ← List.append_assoc] at htalks
  obtain ⟨w₁, hfront, hback⟩ := Talks.append_iff.1 htalks
  have hroot := haccepted.root_eq.trans hnode
  exact keeps_of_cacheSuccess (hw.talks hfront) hroot hid hroom hstored hback

/-- **When a success of a rootless URN is cached canonically**: exactly when no cache takes what the
reply of the node amounts to, or its `X-Dig-Root` header is blank or consists of 64 lowercase hex
digits. -/
theorem cachedCanonically_iff {disk : String → Option Bytes} {before : List (Done ρ)}
    (hreached : Calls D options (World.new disk) before w)
    (hparse : ParsedUrn.parse D c.urn = .ok v) (hroot : v.rootHex = none)
    (hresolves : Resolves D options c w t (.ok (.success data)) w') :
    ∃ base resp, lastReply t = some (Node.serveUrl base v, resp) ∧
      (CachedCanonically D options c v resp data t w' ↔
        (resp.Cacheable D (options c.resolver) v → resp.CanonicalRoot)) := by
  obtain ⟨htrace, htalks⟩ := hresolves
  have hresolved := Resolver.trace_resolveParsed (Resolver.trace_of_parse hparse htrace)
  obtain ⟨base, resp, hserved⟩ := hresolved.served hroot
  refine ⟨base, resp, hserved.lastReply_eq, fun h => h.canonicalRoot hroot hserved htalks, ?_⟩
  intro hcanonical
  constructor
  · intro e he id hstores
    obtain ⟨hcacheable, root, hnode, rfl⟩ := (hserved.stores_iff htalks).1 ⟨e, he, hstores⟩
    obtain ⟨value, hvalue, rfl, hne⟩ := (Node.nodeRoot_eq_some_iff hroot).1 hnode
    have hhex : IsHex64 (Text.trim value) := (hcanonical hcacheable value hvalue).resolve_left hne
    exact ⟨⟨_, hhex⟩, ⟨value, hvalue, beq_self_eq_true _⟩, rfl⟩
  · intro root hnames S bound w₁ between w₂ c' t' result w₃ hid hroom htamper hcalls hwindow
      hresolver hparse' hlater
    -- what the memory has room for is cacheable
    have hcacheable := hserved.cacheable htalks ((Nat.le_add_right _ _).trans hroom.2)
    have hkeeps := hserved.keeps (hreached.ordered (World.ordered_new disk))
      (hnames.nodeRoot_eq hroot (hcanonical hcacheable)) hid hroom htalks
    have hinst : w₁.inst = w'.inst := htamper
    have hkeeps₁ : w₁.Keeps c.resolver S bound (Resolver.cacheId (v.pinnedAt root) root.text)
        data := by
      rw [World.Keeps, hinst]
      exact hkeeps
    have hkeeps₂ := hkeeps₁.calls hroom hcalls hwindow
    rw [← hresolver] at hkeeps₂
    exact hlater.eq_hit hparse' rfl hkeeps₂

/-! ### A node with two spellings of a root -/

namespace RootlessEntry

/-- What the node replies, with the given `X-Dig-Root` header. -/
def reply (value : String) : HttpResponse :=
  ⟨200, [("x-dig-verified", "true"), ("x-dig-root", value)], [7]⟩

def node (value : String) : World.Net where
  get _ := .ok (reply value)
  post _ _ := .error ⟨"connection refused"⟩
  loopback _ := false

def nodeOptions : Unit → ResolveOptions := fun _ => { endpoint := some "http://127.0.0.1:9778" }

/-- The sample URN without its root. -/
def urn : String := String.ofList ("urn:dig:chia:".toList ++ (Sample.digits ++ "/a.txt".toList))

def parsed : ParsedUrn := ⟨⟨"chia", Sample.hex, none, "a.txt"⟩, none⟩

def call : Call Unit := ⟨(), urn⟩

/-- The root of the sample URN, in upper case. -/
def upper : String := String.ofList (List.replicate 64 'A')

def talk (value : String) : List (Event Op Ans) :=
  (Resolver.resolve (sample [] []) (nodeOptions ()) urn).script
    (World.handle (sample [] []) (node value) ()) (World.new fun _ => none)

/-- The world after the call. -/
def next (value : String) : World Unit :=
  (resultAlone (sample [] []) nodeOptions (node value) call (World.new fun _ => none)).2

lemma names : ParsedUrn.parse (sample [] []) call.urn = .ok parsed := by
  have htext : (sample [] []).parseWithSalt urn = .ok (parsed.urn, parsed.salt) := by
    decide +kernel
  exact ParsedUrn.parse_of_parseWithSalt htext

lemma resolves {value : String}
    (h : (resultAlone (sample [] []) nodeOptions (node value) call (World.new fun _ => none)).1 =
      .ok (.success ⟨[7], "text/plain"⟩)) :
    Resolves (sample [] []) nodeOptions call (World.new fun _ => none) (talk value)
      (.ok (.success ⟨[7], "text/plain"⟩)) (next value) := by
  rw [next, ← h]
  exact resolves_alone (node value) call (World.new fun _ => none)

lemma result_lower : (resultAlone (sample [] []) nodeOptions (node Sample.hex.text) call
    (World.new fun _ => none)).1 = .ok (.success ⟨[7], "text/plain"⟩) := by
  rw [resultAlone_of_parse names]
  decide +kernel

lemma result_upper : (resultAlone (sample [] []) nodeOptions (node upper) call
    (World.new fun _ => none)).1 = .ok (.success ⟨[7], "text/plain"⟩) := by
  rw [resultAlone_of_parse names]
  decide +kernel

lemma reply_of_lastReply {value url : String} {resp : HttpResponse}
    (h : lastReply (talk value) = some (url, resp)) : resp = reply value := by
  obtain ⟨w, hans⟩ := Program.exists_of_mem_script (mem_of_lastReply h)
  exact Except.ok.inj hans

/-- The pinned URN is answered from memory after a reply with its root in lower case. -/
theorem cachedCanonically_of_lower :
    CachedCanonically (sample [] []) nodeOptions call parsed (reply Sample.hex.text)
      ⟨[7], "text/plain"⟩ (talk Sample.hex.text) (next Sample.hex.text) := by
  obtain ⟨base, resp, hlast, hiff⟩ :=
    cachedCanonically_iff (.nil _) names rfl (resolves result_lower)
  obtain rfl := reply_of_lastReply hlast
  refine hiff.2 ?_
  intro _ value hvalue
  obtain rfl : Sample.hex.text = value := Option.some.inj hvalue
  exact .inr (by decide +kernel)

/-- After a reply with the same root in upper case, the entry is not canonical. -/
theorem not_cachedCanonically_of_upper :
    Resolves (sample [] []) nodeOptions call (World.new fun _ => none) (talk upper)
      (.ok (.success ⟨[7], "text/plain"⟩)) (next upper) ∧
    (∃ url, lastReply (talk upper) = some (url, reply upper)) ∧
    (reply upper).NamesRoot Sample.hex ∧
    ¬ CachedCanonically (sample [] []) nodeOptions call parsed (reply upper) ⟨[7], "text/plain"⟩
      (talk upper) (next upper) := by
  have hresolves := resolves result_upper
  have hresolved := Resolver.trace_resolveParsed (Resolver.trace_of_parse names hresolves.trace)
  obtain ⟨base, resp, hserved⟩ := hresolved.served rfl
  obtain rfl := reply_of_lastReply hserved.lastReply_eq
  refine ⟨hresolves, ⟨_, hserved.lastReply_eq⟩, ⟨upper, rfl, by decide +kernel⟩, ?_⟩
  intro hcanonical
  have hcacheable : (reply upper).Cacheable (sample [] []) (nodeOptions ()) parsed :=
    .attested (by decide +kernel) (by decide +kernel)
  rcases hcanonical.canonicalRoot rfl hserved hresolves.talks hcacheable upper rfl with
    hblank | hhex
  · revert hblank
    decide +kernel
  · revert hhex
    decide +kernel

end RootlessEntry

end DigUrnResolver
