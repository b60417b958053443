/-
# Why a call fails

A call that does not succeed says what went wrong: the URN, the resource, the network, or the
trust in what was served.  It says so truthfully.  Each kind of failure goes back to something that
the call itself was told, most of them to the answer to its last request; and the errors that stand
for an endpoint alone, among them those of the read-crypto, are never what a call returns.
-/
import DigUrnResolver.Gateway.Classification
import DigUrnResolver.Interaction.Threads
import DigUrnResolver.Security.Confinement
import DigUrnResolver.Security.Provenance
import DigUrnResolver.Session.Consultation
import DigUrnResolver.Session.Planning

namespace DigUrnResolver

open Interaction

/-! ### What an answer says -/

/-- `Says D answer e` : the last answer of the gateway is why a fetch ends with the error. -/
inductive Rpc.Says (D : Deps) (answer : Rpc.Answer) : ResolveError → Prop
  | failed {message : String} (h : Rpc.Failed answer) : Says D answer (.transport message)
  | absent {r : Rpc.GetContent} (hr : Rpc.windowOf D answer = .ok r) (hzero : r.totalLength = 0) :
      Says D answer .notFound
  | protocol {message : String} (h : ¬ Rpc.Failed answer) : Says D answer (.rpc message)

/-- The reply lacks what it takes to verify it: it is not marked as ciphertext, or there is no
proof, no root, or no readable list of lengths. -/
def Node.Unusable (v : ParsedUrn) (resp : HttpResponse) : Prop :=
  Node.isCiphertext resp = false ∨ resp.header "x-dig-inclusion-proof" = none ∨
    Node.nodeRoot v resp = none ∨
    ∃ e, Node.parseChunkLens (resp.header "x-dig-chunk-lens") = .error e

namespace Resolver

/-- The last request of a conversation, with its answer. -/
def lastRequest (t : List (Event Op Ans)) : Option (Event Op Ans) :=
  (t.filter fun e => IsRequest e.op).getLast?

/-- `Reply D v e event` : the answer to the request is why a fetch ends with the error. -/
inductive Reply (D : Deps) (v : ParsedUrn) : ResolveError → Event Op Ans → Prop
  | nodeDown {url message : String} {failure : TransportError} :
      Reply D v (.transport message) ⟨.get url, .error failure⟩
  | nodeStatus {url message : String} {resp : HttpResponse} (hstatus : resp.status ≠ 404)
      (hsuccess : resp.isSuccess = false) : Reply D v (.transport message) ⟨.get url, .ok resp⟩
  | nodeAbsent {url : String} {resp : HttpResponse} (hstatus : resp.status = 404) :
      Reply D v .notFound ⟨.get url, .ok resp⟩
  | nodeUnusable {url message : String} {resp : HttpResponse} (hsuccess : resp.isSuccess = true)
      (hplain : Node.verifiedPlaintext resp = false) (hunusable : Node.Unusable v resp) :
      Reply D v (.verifyFailed message) ⟨.get url, .ok resp⟩
  | gateway {url : String} {body : Json} {answer : Rpc.Answer} {e : ResolveError}
      (htold : Rpc.Says D answer e) : Reply D v e ⟨.postJson url body, answer⟩

/-- `Explains D v endpoint t e` : what the conversation has come to explains that the fetch from
the endpoint ends with the error. -/
inductive Explains (D : Deps) (v : ParsedUrn) (endpoint : Endpoint) (t : List (Event Op Ans)) :
    ResolveError → Prop
  | rootless (hkind : endpoint.kind = .rpc) (hroot : v.rootHex = none) :
      Explains D v endpoint t .rootRequired
  | verdict {ciphertext : Bytes} {proofB64 root : String} {lens : List UInt32} {e : ResolveError}
      (hlast : t.getLast? = some ⟨.verifyAndDecrypt v ciphertext proofB64 root lens, .error e⟩) :
      Explains D v endpoint t e
  | reply {event : Event Op Ans} {e : ResolveError} (hlast : lastRequest t = some event)
      (haddressed : Addressed v endpoint event.op) (hreply : Reply D v e event) :
      Explains D v endpoint t e

variable {D : Deps} {options : ResolveOptions} {v : ParsedUrn} {t : List (Event Op Ans)}
  {e : ResolveError}

lemma lastRequest_append (t t' : List (Event Op Ans)) :
    lastRequest (t ++ t') = (lastRequest t').or (lastRequest t) := by
  rw [lastRequest, List.filter_append, List.getLast?_append]
  rfl

/-- A fetch that comes last explains the error as it does alone. -/
lemma Explains.append {endpoint : Endpoint} (h : Explains D v endpoint t e)
    (front : List (Event Op Ans)) : Explains D v endpoint (front ++ t) e := by
  cases h with
  | rootless hkind hroot => exact .rootless hkind hroot
  | @verdict ciphertext proofB64 root lens _ hlast =>
    refine @verdict _ _ _ _ ciphertext proofB64 root lens _ ?_
    rw [List.getLast?_append, hlast, Option.some_or]
  | reply hlast haddressed hreply =>
    refine .reply ?_ haddressed hreply
    rw [lastRequest_append, hlast, Option.some_or]

end Resolver

/-! ### Fetches that fail -/

lemma Node.verifyFailed_of_parseChunkLens {header : Option String} {e : ResolveError}
    (h : Node.parseChunkLens header = .error e) : ∃ message, e = .verifyFailed message := by
  rw [Node.parseChunkLens] at h
  split at h
  · cases h
  · split at h
    · cases h
    · exact ⟨_, (Except.error.inj h).symm⟩

namespace Rpc

variable {D : Deps} {base root : String} {v : ParsedUrn} {e : ResolveError}

lemma not_failed_of_windowOf {answer : Answer} {r : GetContent} (h : windowOf D answer = .ok r) :
    ¬ Failed answer := by
  have hreads := reads_windowOf D answer
  rw [h] at hreads
  cases hreads with
  | window hgives _ => exact hgives.not_failed

/-- A loop that fails does so for what the last answer says, or for want of windows. -/
lemma Rounds.says {w : ℕ} {st : Assembly} {rounds : List Round}
    {res : Except ResolveError Assembly} (h : Rounds D w st rounds res) (hres : res = .error e) :
    (rounds = [] ∧ ∃ message, e = .rpc message) ∨
      ∃ x, rounds.getLast? = some x ∧ Says D x.answer e := by
  induction h with
  | exhausted => exact Or.inl ⟨rfl, _, (Except.error.inj hres).symm⟩
  | @unanswered w st answer e' hw hr =>
    obtain rfl := Except.error.inj hres
    refine Or.inr ⟨_, rfl, ?_⟩
    have hreads := reads_windowOf D answer
    rw [hr] at hreads
    cases hreads with
    | failed message hfailed => exact .failed hfailed
    | noResult message hsuccess => exact .protocol hsuccess
    | misshapen message hgives => exact .protocol hgives.not_failed
  | @rejected w st answer r e' hw hr habsorb =>
    obtain rfl := Except.error.inj hres
    refine Or.inr ⟨_, rfl, ?_⟩
    rcases (rejected_of_absorb habsorb).cases with ⟨heq, -, hzero⟩ | ⟨message, heq⟩
    · rw [heq]
      exact .absent hr hzero
    · rw [heq]
      exact .protocol (not_failed_of_windowOf hr)
  | complete => cases hres
  | @next w st st' answer r rounds res hw hr habsorb _ ih =>
    right
    rcases ih hres with ⟨rfl, message, rfl⟩ | ⟨x, hx, htold⟩
    · exact ⟨_, rfl, .protocol (not_failed_of_windowOf hr)⟩
    · refine ⟨x, ?_, htold⟩
      rw [List.getLast?_cons, hx]
      rfl

end Rpc

namespace Resolver

variable {D : Deps} {options : ResolveOptions} {v : ParsedUrn} {t : List (Event Op Ans)}
  {e : ResolveError}

lemma lastRequest_rounds {base root : String} (rounds : List Rpc.Round) :
    lastRequest (rounds.map (Rpc.Round.event D base v root)) =
      rounds.getLast?.map (Rpc.Round.event D base v root) := by
  rw [lastRequest, List.filter_eq_self.2, List.getLast?_map]
  intro event hevent
  obtain ⟨x, -, rfl⟩ := List.mem_map.1 hevent
  rfl

lemma explains_rpc {endpoint : Endpoint} (hkind : endpoint.kind = .rpc)
    {res : Except ResolveError Fetched} (h : Rpc.Fetches D endpoint.base v t res)
    (hres : res = .error e) : Explains D v endpoint t e := by
  cases h with
  | rootless hroot =>
    obtain rfl := Except.error.inj hres
    exact .rootless hkind hroot
  | @failed root rounds e' hroot hrounds =>
    obtain rfl := Except.error.inj hres
    rcases hrounds.says rfl with ⟨hnil, -⟩ | ⟨x, hx, htold⟩
    · exact absurd hnil (rounds_ne_nil hrounds)
    · have hend := @lastRequest_rounds D v (Text.trimEndMatches '/' endpoint.base) root rounds
      rw [hx] at hend
      refine .reply hend ?_ (.gateway htold)
      rw [Addressed, hkind]
      exact ⟨_, rfl⟩
  | assembled hroot hrounds verdict =>
    cases verdict with
    | ok bytes => cases hres
    | error e' =>
      obtain rfl := Except.error.inj hres
      exact .verdict (List.getLast?_concat)

lemma explains_node {endpoint : Endpoint} (hkind : endpoint.kind = .node)
    (h : (Node.fetch endpoint.base v).Trace t (.error e)) : Explains D v endpoint t e := by
  obtain ⟨answer, rest, rfl, hrest⟩ := Program.trace_call_iff.1 h
  have haddressed : Addressed v endpoint (.get (Node.serveUrl endpoint.base v)) := by
    rw [Addressed, hkind]
  -- unless the body is verified, the reply is all that happens
  have hreply : rest = [] → Reply D v e ⟨.get (Node.serveUrl endpoint.base v), answer⟩ →
      Explains D v endpoint (⟨.get (Node.serveUrl endpoint.base v), answer⟩ :: rest) e := by
    rintro rfl htold
    exact .reply rfl haddressed htold
  cases answer with
  | error failure =>
    obtain ⟨rfl, hret⟩ := Program.trace_ret_iff.1 hrest
    obtain rfl := Except.error.inj hret
    exact hreply rfl .nodeDown
  | ok resp =>
    change (Node.accept v resp).Trace rest (.error e) at hrest
    rw [Node.accept] at hrest
    split_ifs at hrest with h404 hsuccess hplain hmarked
    · obtain ⟨rfl, hret⟩ := Program.trace_ret_iff.1 hrest
      obtain rfl := Except.error.inj hret
      exact hreply rfl (.nodeAbsent h404)
    · obtain ⟨rfl, hret⟩ := Program.trace_ret_iff.1 hrest
      obtain rfl := Except.error.inj hret
      exact hreply rfl (.nodeStatus h404 hsuccess)
    · obtain ⟨-, hret⟩ := Program.trace_ret_iff.1 hrest
      cases hret
    · have hunusable : ∀ {message : String}, Node.Unusable v resp → rest = [] →
          e = .verifyFailed message →
          Explains D v endpoint (⟨.get (Node.serveUrl endpoint.base v), .ok resp⟩ :: rest) e := by
        rintro message hlacks rfl rfl
        exact hreply rfl (.nodeUnusable (by simpa using hsuccess) (by simpa using hplain) hlacks)
      rw [Node.acceptCiphertext] at hrest
      cases hproof : resp.header "x-dig-inclusion-proof" with
      | none =>
        rw [hproof] at hrest
        obtain ⟨hnil, hret⟩ := Program.trace_ret_iff.1 hrest
        exact hunusable (.inr (.inl hproof)) hnil (Except.error.inj hret)
      | some proofB64 =>
        simp only [hproof] at hrest
        cases hroot : Node.nodeRoot v resp with
        | none =>
          rw [hroot] at hrest
          obtain ⟨hnil, hret⟩ := Program.trace_ret_iff.1 hrest
          exact hunusable (.inr (.inr (.inl hroot))) hnil (Except.error.inj hret)
        | some root =>
          simp only [hroot] at hrest
          cases hlens : Node.parseChunkLens (resp.header "x-dig-chunk-lens") with
          | error e' =>
            rw [hlens] at hrest
            obtain ⟨hnil, hret⟩ := Program.trace_ret_iff.1 hrest
            obtain rfl := Except.error.inj hret
            obtain ⟨message, rfl⟩ := Node.verifyFailed_of_parseChunkLens hlens
            exact hunusable (.inr (.inr (.inr ⟨_, hlens⟩))) hnil rfl
          | ok lens =>
            simp only [hlens] at hrest
            obtain ⟨verdict, last, rfl, hlast⟩ := Program.trace_call_iff.1 hrest
            cases verdict with
            | ok bytes =>
              obtain ⟨-, hret⟩ := Program.trace_ret_iff.1 hlast
              cases hret
            | error e' =>
              obtain ⟨rfl, hret⟩ := Program.trace_ret_iff.1 hlast
              obtain rfl := Except.error.inj hret
              exact .verdict rfl
    · obtain ⟨rfl, hret⟩ := Program.trace_ret_iff.1 hrest
      obtain rfl := Except.error.inj hret
      exact hreply rfl (.nodeUnusable (by simpa using hsuccess) (by simpa using hplain)
        (.inl (by simpa using hmarked)))

lemma explains_fetchFrom {endpoint : Endpoint}
    (h : (fetchFrom D endpoint v).Trace t (.error e)) : Explains D v endpoint t e := by
  rw [fetchFrom] at h
  cases hkind : endpoint.kind with
  | node =>
    rw [hkind] at h
    exact explains_node hkind h
  | rpc =>
    rw [hkind] at h
    exact explains_rpc hkind (Rpc.trace_fetch h) rfl

/-! ### Walks that fail -/

/-- What a call returns when the fetch that ends its walk fails. -/
def conclusion : ResolveError → Except ResolveError ResolveOutcome
  | .transport _ => .ok .unreachable
  | e => failure e

/-- The walk over the plan ends with an error of one of its endpoints, which is the last one if the
error is such that a walk goes on. -/
def EndsAt (D : Deps) (v : ParsedUrn) (plan : List Endpoint) (t : List (Event Op Ans))
    (r : Except ResolveError ResolveOutcome) : Prop :=
  ∃ front talk endpoint e, t = front ++ talk ∧ endpoint ∈ plan ∧
    (fetchFrom D endpoint v).Trace talk (.error e) ∧ r = conclusion e ∧
    (FallsThrough e → plan.getLast? = some endpoint)

lemma EndsAt.cons {plan : List Endpoint} {r : Except ResolveError ResolveOutcome}
    (h : EndsAt D v plan t r) (endpoint : Endpoint) (talk : List (Event Op Ans)) :
    EndsAt D v (endpoint :: plan) (talk ++ t) r := by
  obtain ⟨front, talk', endpoint', e, rfl, hmem, hfetch, hr, hlast⟩ := h
  refine ⟨talk ++ front, talk', endpoint', e, (List.append_assoc _ _ _).symm,
    List.mem_cons_of_mem _ hmem, hfetch, hr, fun he => ?_⟩
  rw [List.getLast?_cons, hlast he]
  rfl

/-- A walk succeeds, or ends so. -/
lemma endsAt_of_trace_walk {last i : ℕ} {plan : List Endpoint}
    {r : Except ResolveError ResolveOutcome} (hne : plan ≠ [])
    (hi : i + plan.length = last + 1) (h : (walk D options v last i plan).Trace t r) :
    (∃ data, r = .ok (.success data)) ∨ EndsAt D v plan t r := by
  induction plan generalizing i t with
  | nil => exact absurd rfl hne
  | cons endpoint rest ih =>
    rw [List.length_cons] at hi
    rw [walk_cons] at h
    obtain ⟨result, talk, t', rfl, hfetch, hrest⟩ := Program.trace_bind_iff.1 h
    have hhere : ∀ {e : ResolveError}, result = .error e → t' = [] → r = conclusion e →
        (FallsThrough e → rest = []) → EndsAt D v (endpoint :: rest) (talk ++ t') r := by
      rintro e rfl rfl hr hlast
      refine ⟨[], talk, endpoint, e, List.append_nil _, List.mem_cons_self, hfetch, hr, fun he => ?_⟩
      rw [hlast he]
      rfl
    have hnext : ∀ {e : ResolveError}, result = .error e → FallsThrough e →
        (if i = last then Program.ret (conclusion e)
          else walk D options v last (i + 1) rest).Trace t' r →
        (∃ data, r = .ok (.success data)) ∨ EndsAt D v (endpoint :: rest) (talk ++ t') r := by
      intro e hresult he htrace
      by_cases hlast : i = last
      · rw [if_pos hlast] at htrace
        obtain ⟨hnil, hr⟩ := Program.trace_ret_iff.1 htrace
        exact Or.inr (hhere hresult hnil hr fun _ => List.eq_nil_of_length_eq_zero (by omega))
      · rw [if_neg hlast] at htrace
        have hmore : rest ≠ [] := by
          rintro rfl
          exact hlast (by simpa using hi)
        exact (ih hmore (by omega) htrace).imp_right fun hends => hends.cons endpoint talk
    cases result with
    | ok fetched =>
      obtain ⟨_, stored, t'', rfl, hstored, hret⟩ := Program.trace_bind_iff.1 hrest
      obtain ⟨-, rfl⟩ := Program.trace_ret_iff.1 hret
      exact Or.inl ⟨_, rfl⟩
    | error e =>
      cases e with
      | notFound => exact hnext rfl (Or.inl rfl) hrest
      | transport message => exact hnext rfl (Or.inr ⟨message, rfl⟩) hrest
      | _ =>
        obtain ⟨hnil, hr⟩ := Program.trace_ret_iff.1 hrest
        exact Or.inr (hhere rfl hnil hr (by simp [FallsThrough]))

end Resolver

/-! ### Calls that fail -/

/-- A salt that the read-crypto objects to is none. -/
lemma Crypto.parseSalt_of_verifyAndDecrypt {D : Deps} (hD : D.VerdictSpec) {v : ParsedUrn}
    {ciphertext : Bytes} {proofB64 root message : String} {lens : List UInt32}
    (h : verifyAndDecrypt D v ciphertext proofB64 root lens = .error (.parse message)) :
    parseSalt D v.saltText = .error (.parse message) := by
  rw [verifyAndDecrypt] at h
  rcases Except.bind_eq_error_iff.1 h with hsalt | ⟨salt, -, h⟩
  · exact hsalt
  rcases Except.bind_eq_error_iff.1 h with hroot | ⟨b, -, h⟩
  · rw [parseTrustedRoot] at hroot
    split at hroot <;> cases hroot
  rcases Except.bind_eq_error_iff.1 h with hproof | ⟨proof, -, h⟩
  · rw [decodeProofB64] at hproof
    split at hproof <;> cases hproof
  cases hverify : D.protocolVerifyAndDecrypt (digstoreCrypto D) v.urn salt ciphertext proof b lens with
  | ok bytes =>
    rw [hverify] at h
    cases h
  | error e =>
    rw [hverify] at h
    rcases hD _ _ _ _ _ _ _ _ hverify with rfl | ⟨message, rfl⟩ | rfl
    · cases h
    · cases h
    · cases h

variable {ρ : Type} {D : Deps} {options : ResolveOptions} {L : RunLog ρ} {i : ℕ} {c : Call ρ}

/-- What a call about `v` heard last: the answer to a request for the resource at an endpoint of
its plan. -/
structure HeardLast (D : Deps) (L : RunLog ρ) (i : ℕ) (c : Call ρ) (v : ParsedUrn)
    (plan : List Endpoint) (endpoint : Endpoint) (event : Event Op Ans) : Prop where
  names : Names D c v
  used : PlanUsed L i c plan
  mem : endpoint ∈ plan
  heard : Resolver.lastRequest (Log.events L i) = some event
  addressed : Resolver.Addressed v endpoint event.op

/-- Why a call fails: the URN, its salt, or its want of a root at a gateway of the plan; bytes that
the read-crypto refused, be it for want of a root, or a reply that it was not even handed; the last
endpoint of the plan, which could not be reached, or said that there is nothing; or a reply of the
gateway that is against the protocol. -/
inductive Reason (D : Deps) (L : RunLog ρ) (i : ℕ) (c : Call ρ) :
    Except ResolveError ResolveOutcome → Prop
  | noUrn {message : String} (h : ParsedUrn.parse D c.urn = .error (.parse message)) :
      Reason D L i c (.error (.parse message))
  | noSalt {v : ParsedUrn} {message : String} (names : Names D c v)
      (h : Crypto.parseSalt D v.saltText = .error (.parse message)) :
      Reason D L i c (.error (.parse message))
  | rootless {v : ParsedUrn} {plan : List Endpoint} {endpoint : Endpoint} (names : Names D c v)
      (used : PlanUsed L i c plan) (mem : endpoint ∈ plan) (gateway : endpoint.kind = .rpc)
      (h : v.rootHex = none) : Reason D L i c (.error .rootRequired)
  | refused {v : ParsedUrn} {ciphertext : Bytes} {proofB64 root : String} {lens : List UInt32}
      (names : Names D c v)
      (did : Did L i c (.verifyAndDecrypt v ciphertext proofB64 root lens) (.error .rootRequired)) :
      Reason D L i c (.error .rootRequired)
  | unverified {v : ParsedUrn} {ciphertext : Bytes} {proofB64 root : String} {lens : List UInt32}
      {e : ResolveError} (names : Names D c v)
      (did : Did L i c (.verifyAndDecrypt v ciphertext proofB64 root lens) (.error e))
      (tampered : Resolver.Tampered e) : Reason D L i c (.ok .integrityFailure)
  | unusable {v : ParsedUrn} {plan : List Endpoint} {endpoint : Endpoint} {event : Event Op Ans}
      {message : String} (heard : HeardLast D L i c v plan endpoint event)
      (reply : Resolver.Reply D v (.verifyFailed message) event) :
      Reason D L i c (.ok .integrityFailure)
  | unreached {v : ParsedUrn} {plan : List Endpoint} {endpoint : Endpoint} {event : Event Op Ans}
      {message : String} (heard : HeardLast D L i c v plan endpoint event)
      (last : plan.getLast? = some endpoint)
      (reply : Resolver.Reply D v (.transport message) event) : Reason D L i c (.ok .unreachable)
  | absent {v : ParsedUrn} {plan : List Endpoint} {endpoint : Endpoint} {event : Event Op Ans}
      (heard : HeardLast D L i c v plan endpoint event) (last : plan.getLast? = some endpoint)
      (reply : Resolver.Reply D v .notFound event) : Reason D L i c (.error .notFound)
  | protocol {v : ParsedUrn} {plan : List Endpoint} {endpoint : Endpoint} {event : Event Op Ans}
      {message : String} (heard : HeardLast D L i c v plan endpoint event)
      (reply : Resolver.Reply D v (.rpc message) event) : Reason D L i c (.error (.rpc message))

/-- What explains the end of the walk is a reason. -/
lemma reason_of_explains (hD : D.VerdictSpec) (hcrypto : CryptoFaithful D L)
    (hdid : ∀ e ∈ Log.events L i, Did L i c e.op e.ans) {v : ParsedUrn} (hv : Names D c v)
    {plan : List Endpoint} (hused : PlanUsed L i c plan) {endpoint : Endpoint}
    (hmem : endpoint ∈ plan) {e : ResolveError}
    (hlast : Resolver.FallsThrough e → plan.getLast? = some endpoint)
    (h : Resolver.Explains D v endpoint (Log.events L i) e) :
    Reason D L i c (Resolver.conclusion e) := by
  cases h with
  | rootless hkind hroot => exact .rootless hv hused hmem hkind hroot
  | @verdict ciphertext proofB64 root lens _ hend =>
    have hran := hdid _ (List.mem_of_getLast? hend)
    have hcomputed := hcrypto i c v ciphertext proofB64 root lens _ hran
    have hrejects := Crypto.rejects_of_verifyAndDecrypt hD hcomputed.symm
    cases hrejects with
    | badSalt message => exact .noSalt hv (Crypto.parseSalt_of_verifyAndDecrypt hD hcomputed.symm)
    | rootless => exact .refused hv hran
    | unverified message => exact .unverified hv hran (Or.inl ⟨message, rfl⟩)
    | unopened => exact .unverified hv hran (Or.inr rfl)
  | @reply event _ hend haddressed hreply =>
    have hheard : HeardLast D L i c v plan endpoint event := ⟨hv, hused, hmem, hend, haddressed⟩
    have hreason := hreply
    cases hreply with
    | nodeDown => exact .unreached hheard (hlast (Or.inr ⟨_, rfl⟩)) hreason
    | nodeStatus => exact .unreached hheard (hlast (Or.inr ⟨_, rfl⟩)) hreason
    | nodeAbsent => exact .absent hheard (hlast (Or.inl rfl)) hreason
    | nodeUnusable => exact .unusable hheard hreason
    | gateway htold =>
      cases htold with
      | failed => exact .unreached hheard (hlast (Or.inr ⟨_, rfl⟩)) hreason
      | absent => exact .absent hheard (hlast (Or.inl rfl)) hreason
      | protocol => exact .protocol hheard hreason

/-- A cache that answers with a failure has read bytes that do not verify. -/
lemma reason_of_consulted (hdid : ∀ e ∈ Log.events L i, Did L i c e.op e.ans) {v : ParsedUrn}
    (hv : Names D c v) {outcome : ResolveOutcome}
    (h : Resolver.Consulted options v (Log.events L i) (some outcome)) :
    (∃ data, outcome = .success data) ∨ Reason D L i c (.ok outcome) := by
  generalize hevents : Log.events L i = t at h
  generalize houtcome : some outcome = answer at h
  rw [hevents] at hdid
  cases h with
  | rootless | noDirectory | noFile => cases houtcome
  | hit | verified =>
    obtain rfl := Option.some.inj houtcome
    exact Or.inl ⟨_, rfl⟩
  | @refused root path art e _ hroot hpath hanswer =>
    rcases hanswer with ⟨htampered, rfl⟩ | ⟨-, rfl⟩
    · obtain rfl := Option.some.inj houtcome
      have hran := hdid ⟨Resolver.reverification v root art, .error e⟩ (by simp)
      exact Or.inr (.unverified hv hran htampered)
    · cases houtcome

/-- A call that is over succeeded, or failed for a reason, when what it found out is as it should
be. -/
lemma reason_of_trace (hD : D.VerdictSpec) (hcrypto : CryptoFaithful D L)
    (hdid : ∀ e ∈ Log.events L i, Did L i c e.op e.ans)
    (hplans : ∀ plan, PlanUsed L i c plan → plan ≠ []) {r : Except ResolveError ResolveOutcome}
    (h : (Resolver.resolve D options c.urn).Trace (Log.events L i) r) :
    (∃ data, r = .ok (.success data)) ∨ Reason D L i c r := by
  cases hv : ParsedUrn.parse D c.urn with
  | error e =>
    rw [Resolver.resolve, hv] at h
    obtain ⟨-, rfl⟩ := Program.trace_ret_iff.1 h
    obtain ⟨message, rfl⟩ : ∃ message, e = .parse message := by
      rw [ParsedUrn.parse] at hv
      split at hv
      · exact ⟨_, (Except.error.inj hv).symm⟩
      · cases hv
    exact Or.inr (.noUrn hv)
  | ok v =>
    have htrace := Resolver.trace_of_parse hv h
    rw [Resolver.resolveParsed_eq] at htrace
    obtain ⟨answer, lookups, t', hevents, hlookups, hrest⟩ := Program.trace_bind_iff.1 htrace
    have hconsulted := Resolver.trace_consult hlookups
    cases answer with
    | some outcome =>
      obtain ⟨rfl, rfl⟩ := Program.trace_ret_iff.1 hrest
      rw [List.append_nil] at hevents
      rw [← hevents] at hconsulted
      rcases reason_of_consulted hdid hv hconsulted with ⟨data, rfl⟩ | hreason
      · exact Or.inl ⟨data, rfl⟩
      · exact Or.inr hreason
    | none =>
      obtain ⟨plan, planning, t'', rfl, hplan, hwalk⟩ := Program.trace_bind_iff.1 hrest
      have hplanning : ∀ e ∈ planning, Did L i c e.op e.ans := by
        intro e he
        refine hdid e ?_
        rw [hevents]
        exact List.mem_append_right _ (List.mem_append_left _ he)
      have hused : PlanUsed L i c plan := by
        cases Resolver.trace_plan hplan with
        | cached => exact Or.inl (hplanning _ List.mem_cons_self)
        | built => exact Or.inr (hplanning ⟨.planSet plan, ()⟩ (by simp))
      have hne := hplans plan hused
      have hpos := List.length_pos_iff.2 hne
      refine (Resolver.endsAt_of_trace_walk hne (by omega) hwalk).imp_right ?_
      rintro ⟨front, talk, endpoint, e, rfl, hmem, hfetch, rfl, hlast⟩
      refine reason_of_explains hD hcrypto hdid hv hused hmem hlast ?_
      have hexplains := (Resolver.explains_fetchFrom hfetch).append (lookups ++ planning ++ front)
      simp only [List.append_assoc] at hexplains
      rwa [hevents]

lemma PlanBuilt.ne_nil {plan : List Endpoint} (h : PlanBuilt D L i c options plan) : plan ≠ [] := by
  cases hend : options.endpoint with
  | none => rcases h.default hend with ⟨rfl, -⟩ | ⟨rfl, -⟩ | ⟨rfl, -⟩ <;> exact List.cons_ne_nil _ _
  | some base =>
    rw [PlanBuilt, hend] at h
    rcases h with ⟨-, rfl⟩ | ⟨-, rfl⟩ <;> exact List.cons_ne_nil _ _

lemma ne_nil_of_used {disk : String → Option Bytes} {p : RunPool Unit}
    (hp : (machine D (fun _ : Unit => options) Tampering).Reachable (World.new disk) p) {i : ℕ}
    {c : Call Unit} {plan : List Endpoint} (h : PlanUsed p.log i c plan) : plan ≠ [] := by
  obtain ⟨j, c', hbuilt⟩ := builtBy_of_used (plans_hold hp).kept h
  exact hbuilt.ne_nil

/-- **Failures are truthful.**  In every run of overlapping calls on one resolver, whatever is
answered and whatever happens to the cache directory, a call that is over has succeeded, or has
failed for the reason that its result gives. -/
theorem failure_has_reason (hD : D.VerdictSpec) {disk : String → Option Bytes} {p : RunPool Unit}
    (hp : (machine D (fun _ : Unit => options) Tampering).Reachable (World.new disk) p) {i : ℕ}
    {c : Call Unit} {r : Except ResolveError ResolveOutcome}
    (hi : p.threads[i]? = some (c, .ret r)) :
    (∃ data, r = .ok (.success data)) ∨ Reason D p.log i c r := by
  exact reason_of_trace hD (provenance_holds hp).inv.crypto (fun e he => hp.mem_log hi he)
    (fun _ => ne_nil_of_used hp) (hp.trace hi)

/-- Over a network without any host, a call finds the gateway unreachable. -/
theorem failure_has_reason_silent :
    ∃ p : RunPool Unit,
      p.threads[0]? = some (⟨(), Sample.urn "chia"⟩, .ret (.ok .unreachable)) ∧
      Reason (sample [] []) p.log 0 ⟨(), Sample.urn "chia"⟩ (.ok .unreachable) := by
  let c : Call Unit := ⟨(), Sample.urn "chia"⟩
  have hresult : (resultAlone (sample [] []) (fun _ => {}) silentNet c (World.new fun _ => none)).1 =
      .ok .unreachable := by
    rw [resultAlone_of_parse (Sample.parse_urn_chia [] [])]
    decide +kernel
  have hp : (machine (sample [] []) (fun _ : Unit => {}) Tampering).Reachable (World.new fun _ => none)
      (afterAlone (sample [] []) (fun _ => {}) silentNet c ⟨World.new fun _ => none, [], []⟩) :=
    reachable_afterAlone .refl _ _
  have hthread : (afterAlone (sample [] []) (fun _ => {}) silentNet c
      ⟨World.new fun _ => none, [], []⟩).threads[0]? = some (c, .ret (.ok .unreachable)) := by
    rw [← hresult]
    rfl
  have hreason := failure_has_reason (sample_verdictSpec [] []) hp hthread
  exact ⟨_, hthread, hreason.resolve_left (by simp)⟩

end DigUrnResolver
