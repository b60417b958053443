/-
# The salt stays with the client

The secret salt of a URN enters the identities of the caches and the key of the read-crypto, but no
request.  In a browser, where a call shares nothing with other calls, this makes it unobservable:
whatever the network sees of a page that resolves URNs, it could see of the page that resolves the
same URNs with other salts, or without.
-/
import DigUrnResolver.Session.NodeHost

namespace DigUrnResolver

open Interaction

variable {D : Deps} {o : ResolveOptions} {v v' : ParsedUrn}

/-! ### Calls in a browser -/

namespace Browser

/-- A call of the client in a browser: a program over nothing but requests.  There are no files, and
the resolver is the call's own. -/
def call (D : Deps) (dig : DigNetwork) (c : JsCall) :
    Prog (Except ResolveError ResolveOutcome × Instance) :=
  ((dig.body D c).withFixed Js.inert).absorb (Js.own D) Instance.new

/-- Over a host without files, a call of the client is a run of this program: it comes to the same
result, with the same exchanges. -/
lemma step_eq_run {φ : Type} {transport : Program.Oracle Op Ans} {dig : DigNetwork}
    {page : Js.Page φ} {c : JsCall} (hslot : page.host.slot = none) :
    ∃ cache, (Js.step D transport dig page c).1.2 =
        ((call D dig c).run (Js.answer D transport cache) page).1.1 ∧
      (Js.step D transport dig page c).2 =
        ((call D dig c).run (Js.answer D transport cache) page).2 := by
  refine ⟨(Js.openCache (Wasm.options dig.endpoint dig.cachePath) page.host).1, ?_⟩
  rw [Js.step, Js.openCache_of_no_slot hslot]
  dsimp only
  rw [← Js.run_inert (dig.body D c) hslot, Program.run_absorb]
  exact ⟨rfl, rfl⟩

lemma call_eq (dig : DigNetwork) (c : JsCall) : call D dig c =
    (Resolver.resolve D (Wasm.options dig.endpoint dig.cachePath).withoutCache c.urn).absorb
      (Js.own D) Instance.new := by
  rw [call, Js.body_eq, Js.withFixed_resolve]

/-- A call does nothing that can be seen but to send requests. -/
lemma only_call (dig : DigNetwork) (c : JsCall) : (call D dig c).Only Resolver.IsRequest := by
  have hown : ∀ (op : Op) (s : Instance), Js.inert op = none → Js.own D op s = none →
      Resolver.IsRequest op := by
    intro op s hinert hown
    cases op with
    | get | postJson => trivial
    | diskGet | diskPut | diskRemove => cases hinert
    | _ => cases hown
  exact Program.only_absorb hown (Program.only_withFixed _) _

/-- A page with clients: the calls of its clients, over a network that may answer anything. -/
def machine (D : Deps) :
    Machine Unit (DigNetwork × JsCall) Op Ans (Except ResolveError ResolveOutcome × Instance) where
  trans _ _ _ _ _ := True
  body c := call D c.1 c.2
  interfere _ _ := False

end Browser

/-! ### Fetches of the same resource -/

namespace Resolver

/-- A result of a fetch with which the walk ends. -/
def Settled (x : Except ResolveError Fetched) : Prop := ∀ e, x = .error e → ¬ FallsThrough e

lemma settled_of_rejects {e : ResolveError} (h : Crypto.Rejects e) : Settled (.error e) := by
  intro e' he
  obtain rfl := Except.error.inj he
  rintro (rfl | ⟨message, rfl⟩)
  · cases h
  · cases h

/-- Two fetches have the same result, or both end the walk. -/
def SameWay (x y : Except ResolveError Fetched) : Prop := x = y ∨ Settled x ∧ Settled y

/-- What the read-crypto comes to ends the walk. -/
lemma settled_verified (hD : D.VerdictSpec) (v : ParsedUrn) (ciphertext : Bytes)
    (proofB64 root : String) (lens : List UInt32) :
    Settled (match Crypto.verifyAndDecrypt D v ciphertext proofB64 root lens with
      | .error e => .error e
      | .ok bytes => .ok {
        data := ⟨bytes, deriveContentType v.resourceKey bytes⟩
        root := some root
        artifacts := some ⟨ciphertext, proofB64, lens⟩ }) := by
  cases hverify : Crypto.verifyAndDecrypt D v ciphertext proofB64 root lens with
  | error e => exact settled_of_rejects (Crypto.rejects_of_verifyAndDecrypt hD hverify)
  | ok bytes =>
    intro e he
    cases he

/-- What is made of the reply of a node, without a look at the salt but by the read-crypto. -/
lemma absorb_accept (hD : D.VerdictSpec) (h : v.urn = v'.urn) (resp : HttpResponse) (r r' : Instance) :
    ∃ x y, (Node.accept v resp).absorb (Js.own D) r = .ret (x, r) ∧
      (Node.accept v' resp).absorb (Js.own D) r' = .ret (y, r') ∧ SameWay x y := by
  obtain ⟨urn, salt⟩ := v
  obtain ⟨_, salt'⟩ := v'
  obtain rfl : urn = _ := h
  rw [Node.accept, Node.accept]
  split_ifs
  · exact ⟨_, _, rfl, rfl, .inl rfl⟩
  · exact ⟨_, _, rfl, rfl, .inl rfl⟩
  · exact ⟨_, _, rfl, rfl, .inl rfl⟩
  · rw [Node.acceptCiphertext, Node.acceptCiphertext]
    cases resp.header "x-dig-inclusion-proof" with
    | none => exact ⟨_, _, rfl, rfl, .inl rfl⟩
    | some proof =>
      have hroot : Node.nodeRoot ⟨urn, salt⟩ resp = Node.nodeRoot ⟨urn, salt'⟩ resp := rfl
      rw [hroot]
      cases Node.nodeRoot ⟨urn, salt'⟩ resp with
      | none => exact ⟨_, _, rfl, rfl, .inl rfl⟩
      | some root =>
        dsimp only
        cases Node.parseChunkLens (resp.header "x-dig-chunk-lens") with
        | error e => exact ⟨_, _, rfl, rfl, .inl rfl⟩
        | ok lens =>
          refine ⟨_, _, ?_, ?_, .inr ⟨settled_verified hD ⟨urn, salt⟩ resp.body proof root lens,
            settled_verified hD ⟨urn, salt'⟩ resp.body proof root lens⟩⟩
          · dsimp only
            rw [Program.perform_bind, Program.absorb_call_of_some rfl]
            cases Crypto.verifyAndDecrypt D ⟨urn, salt⟩ resp.body proof root lens <;> rfl
          · dsimp only
            rw [Program.perform_bind, Program.absorb_call_of_some rfl]
            cases Crypto.verifyAndDecrypt D ⟨urn, salt'⟩ resp.body proof root lens <;> rfl
  · exact ⟨_, _, rfl, rfl, .inl rfl⟩

lemma mirrors_nodeFetch (hD : D.VerdictSpec) (h : v.urn = v'.urn) (base : String) (r r' : Instance) :
    ((Node.fetch base v).absorb (Js.own D) r).Mirrors (fun x y => SameWay x.1 y.1)
      ((Node.fetch base v').absorb (Js.own D) r') := by
  have hurl : Node.serveUrl base v = Node.serveUrl base v' := by
    obtain ⟨urn, salt⟩ := v
    obtain ⟨_, salt'⟩ := v'
    obtain rfl : urn = _ := h
    rfl
  rw [Node.fetch, Node.fetch, Program.perform_bind, Program.perform_bind, hurl,
    Program.absorb_call_of_none rfl, Program.absorb_call_of_none rfl]
  refine .call fun answer => ?_
  cases answer with
  | error e => exact .ret (.inl rfl)
  | ok resp =>
    dsimp only
    obtain ⟨x, y, hx, hy, hsame⟩ := absorb_accept hD h resp r r'
    rw [hx, hy]
    exact .ret hsame

/-- The windows are requested by the content key, which the salt does not enter. -/
lemma collect_congr (h : v.urn = v'.urn) (base root : String) (windows : ℕ) (st : Rpc.Assembly) :
    Rpc.collect D base v root windows st = Rpc.collect D base v' root windows st := by
  have hparams : ∀ offset, Rpc.getContentParams D v root offset =
      Rpc.getContentParams D v' root offset := by
    obtain ⟨urn, salt⟩ := v
    obtain ⟨_, salt'⟩ := v'
    obtain rfl : urn = _ := h
    exact fun _ => rfl
  generalize hn : Rpc.maxWindows - windows = n
  induction n generalizing windows st with
  | zero =>
    have hlimit : windows + 1 > Rpc.maxWindows := by omega
    rw [Rpc.collect, Rpc.collect, dif_pos hlimit, dif_pos hlimit]
  | succ n ih =>
    have hlimit : ¬ windows + 1 > Rpc.maxWindows := by omega
    rw [Rpc.collect, Rpc.collect, dif_neg hlimit, dif_neg hlimit, hparams]
    refine congrArg _ (funext fun result => ?_)
    cases result with
    | error e => rfl
    | ok window =>
      dsimp only
      rcases Rpc.absorb D st window with e | ⟨st', complete⟩
      · rfl
      · cases complete with
        | true => rfl
        | false => exact ih (windows + 1) st' (by omega)

lemma own_of_isRequest {op : Op} (h : IsRequest op) (r : Instance) : Js.own D op r = none := by
  cases op with
  | get | postJson => rfl
  | _ => exact absurd h id

lemma mirrors_rpcFetch (hD : D.VerdictSpec) (h : v.urn = v'.urn) (base : String) (r r' : Instance) :
    ((Rpc.fetch D base v).absorb (Js.own D) r).Mirrors (fun x y => SameWay x.1 y.1)
      ((Rpc.fetch D base v').absorb (Js.own D) r') := by
  have hroot : Rpc.trustedRoot v = Rpc.trustedRoot v' := by
    rw [Rpc.trustedRoot, Rpc.trustedRoot, ParsedUrn.rootHex, ParsedUrn.rootHex, h]
  rw [Rpc.fetch, Rpc.fetch, hroot]
  cases Rpc.trustedRoot v' with
  | error e => exact .ret (.inl rfl)
  | ok root =>
    have hrequests : (Rpc.collect D (Text.trimEndMatches '/' base) v' root 0 {}).Only
        fun op => ∀ r, Js.own D op r = none :=
      (asks_collect _ root 0 {}).imp fun _ hop => own_of_isRequest hop
    dsimp only
    rw [collect_congr h, Program.absorb_bind, Program.absorb_bind,
      Program.absorb_of_only hrequests, Program.absorb_of_only hrequests, Program.bind_assoc,
      Program.bind_assoc]
    refine Program.Mirrors.bind (Program.Mirrors.refl (fun _ => rfl) _) ?_
    rintro result _ rfl
    cases result with
    | error e => exact .ret (.inl rfl)
    | ok st =>
      have hv := settled_verified hD v st.buf st.proof root st.chunkLens
      have hv' := settled_verified hD v' st.buf st.proof root st.chunkLens
      simp only [Program.ret_bind, Program.perform_bind]
      rw [Program.absorb_call_of_some rfl, Program.absorb_call_of_some rfl]
      dsimp only
      cases hx : Crypto.verifyAndDecrypt D v st.buf st.proof root st.chunkLens <;>
        cases hy : Crypto.verifyAndDecrypt D v' st.buf st.proof root st.chunkLens <;>
        rw [hx] at hv <;> rw [hy] at hv' <;> exact .ret (.inr ⟨hv, hv'⟩)

/-- **Fetches of the same resource look the same**, whatever the salts. -/
lemma mirrors_fetchFrom (hD : D.VerdictSpec) (h : v.urn = v'.urn) (endpoint : Endpoint)
    (r r' : Instance) :
    ((fetchFrom D endpoint v).absorb (Js.own D) r).Mirrors (fun x y => SameWay x.1 y.1)
      ((fetchFrom D endpoint v').absorb (Js.own D) r') := by
  rw [fetchFrom, fetchFrom]
  cases endpoint.kind with
  | node => exact mirrors_nodeFetch hD h endpoint.base r r'
  | rpc => exact mirrors_rpcFetch hD h endpoint.base r r'

/-! ### The walk -/

/-- After a result that ends the walk, nothing is seen any more. -/
lemma absorb_onward_of_settled (hpath : o.cachePath = none) {x : Except ResolveError Fetched}
    (hx : Settled x) (last i : ℕ) (rest : List Endpoint) (r : Instance) :
    ∃ a, (onward D o v last i rest x).absorb (Js.own D) r = .ret a := by
  refine Program.absorb_eq_ret ?_ r
  cases x with
  | ok fetched =>
    refine Program.Only.bind ?_ fun _ => trivial
    rw [cacheSuccess, hpath]
    cases fetched.root with
    | none => trivial
    | some root => exact ⟨fun _ => Option.some_ne_none _, fun _ => trivial⟩
  | error e =>
    cases e with
    | notFound => exact absurd (.inl rfl) (hx _ rfl)
    | transport message => exact absurd (.inr ⟨message, rfl⟩) (hx _ rfl)
    | _ => trivial

lemma mirrors_walk (hD : D.VerdictSpec) (h : v.urn = v'.urn) (hpath : o.cachePath = none) (last : ℕ)
    (i : ℕ) (plan : List Endpoint) (r r' : Instance) :
    ((walk D o v last i plan).absorb (Js.own D) r).Mirrors (fun _ _ => True)
      ((walk D o v' last i plan).absorb (Js.own D) r') := by
  induction plan generalizing i r r' with
  | nil => exact .ret trivial
  | cons endpoint rest ih =>
    rw [walk_cons, walk_cons, Program.absorb_bind, Program.absorb_bind]
    refine Program.Mirrors.bind (mirrors_fetchFrom hD h endpoint r r') ?_
    rintro ⟨x, r⟩ ⟨y, r'⟩ hsame
    have hsettled : Settled x → Settled y → Program.Mirrors (fun _ _ => True)
        ((onward D o v last i rest x).absorb (Js.own D) r)
        ((onward D o v' last i rest y).absorb (Js.own D) r') := by
      intro hx hy
      obtain ⟨a, ha⟩ := @absorb_onward_of_settled D o v hpath x hx last i rest r
      obtain ⟨b, hb⟩ := @absorb_onward_of_settled D o v' hpath y hy last i rest r'
      rw [ha, hb]
      exact .ret trivial
    rcases hsame with hxy | ⟨hx, hy⟩
    · obtain rfl : x = y := hxy
      by_cases hx : Settled x
      · exact hsettled hx hx
      · -- both go on with the next endpoint, or have come to the last one
        obtain ⟨e, rfl, he⟩ : ∃ e, x = .error e ∧ FallsThrough e := by
          simpa [Settled] using hx
        rcases he with rfl | ⟨message, rfl⟩
        · dsimp only [onward]
          split_ifs
          · exact .ret trivial
          · exact ih _ _ _
        · dsimp only [onward]
          split_ifs
          · exact .ret trivial
          · exact ih _ _ _
    · exact hsettled hx hy

/-! ### The whole resolve -/

lemma mirrors_resolveUncached (hD : D.VerdictSpec) (h : v.urn = v'.urn) (hpath : o.cachePath = none)
    (r : Instance) :
    ((resolveUncached D o v).absorb (Js.own D) r).Mirrors (fun _ _ => True)
      ((resolveUncached D o v').absorb (Js.own D) r) := by
  rw [resolveUncached, resolveUncached, Program.absorb_bind, Program.absorb_bind]
  refine Program.Mirrors.bind (Program.Mirrors.refl (fun _ => rfl) _) ?_
  rintro ⟨plan, r⟩ _ rfl
  exact mirrors_walk hD h hpath _ _ plan r r

/-- A new resolver has nothing in its memory, under any identity. -/
lemma own_memoryGet_new (id : String) : Js.own D (.memoryGet id) Instance.new =
    some (none, { Instance.new with memory := { Instance.new.memory with tick := 1 } }) := rfl

lemma mirrors_resolveParsed (hD : D.VerdictSpec) (h : v.urn = v'.urn) (hpath : o.cachePath = none) :
    ((resolveParsed D o v).absorb (Js.own D) Instance.new).Mirrors (fun _ _ => True)
      ((resolveParsed D o v').absorb (Js.own D) Instance.new) := by
  have hroot : v.rootHex = v'.rootHex := by rw [ParsedUrn.rootHex, ParsedUrn.rootHex, h]
  have hmiss : ∀ w : ParsedUrn, ∀ id, diskGetVerified o w id = .ret none := by
    intro w id
    rw [diskGetVerified, hpath]
    rfl
  rw [resolveParsed, resolveParsed, hroot]
  cases v'.rootHex with
  | none => exact mirrors_resolveUncached hD h hpath _
  | some root =>
    simp only [Option.map_some, Program.perform_bind, hmiss, Program.ret_bind]
    rw [Program.absorb_call_of_some (own_memoryGet_new _),
      Program.absorb_call_of_some (own_memoryGet_new _)]
    exact mirrors_resolveUncached hD h hpath _

end Resolver

/-- The same URN up to the salt, or both texts are none. -/
def SameUpToSalt (D : Deps) (urn urn' : String) : Prop :=
  match ParsedUrn.parse D urn, ParsedUrn.parse D urn' with
  | .ok v, .ok v' => v.urn = v'.urn
  | .error _, .error _ => True
  | _, _ => False

lemma Resolver.mirrors_resolve (hD : D.VerdictSpec) {urn urn' : String} (h : SameUpToSalt D urn urn')
    (hpath : o.cachePath = none) :
    ((resolve D o urn).absorb (Js.own D) Instance.new).Mirrors (fun _ _ => True)
      ((resolve D o urn').absorb (Js.own D) Instance.new) := by
  rw [SameUpToSalt] at h
  rw [resolve, resolve]
  cases hurn : ParsedUrn.parse D urn with
  | error e =>
    cases hurn' : ParsedUrn.parse D urn' with
    | error e' => exact .ret trivial
    | ok v' =>
      rw [hurn, hurn'] at h
      exact h.elim
  | ok v =>
    cases hurn' : ParsedUrn.parse D urn' with
    | error e' =>
      rw [hurn, hurn'] at h
      exact h.elim
    | ok v' =>
      rw [hurn, hurn'] at h
      exact mirrors_resolveParsed hD h hpath

/-! ### Pages -/

/-- Calls that differ in the salt, and in the cache directory of the client. -/
def AlikeToOthers (D : Deps) (c c' : DigNetwork × JsCall) : Prop :=
  c.1.endpoint = c'.1.endpoint ∧ SameUpToSalt D c.2.urn c'.2.urn

/-- **Nobody sees a salt.**  Of any run of a page in a browser, whatever its calls are answered and
in whichever order they take their turns, the network sees the requests only, and what it sees it
may see of the page that makes the same calls with other salts. -/
theorem salt_unseen (hD : D.VerdictSpec)
    {p : Pool Unit (DigNetwork × JsCall) Op Ans (Except ResolveError ResolveOutcome × Instance)}
    (hp : (Browser.machine D).Reachable () p) {calls : List (DigNetwork × JsCall)}
    (hcalls : List.Forall₂ (AlikeToOthers D) (Machine.tags p) calls) :
    (∀ e ∈ p.log, Resolver.IsRequest e.op) ∧
    ∃ q, (Browser.machine D).Reachable () q ∧ Machine.tags q = calls ∧
      q.log.map Entry.seen = p.log.map Entry.seen := by
  have hbody : ∀ c c', AlikeToOthers D c c' → ((Browser.machine D).body c).Mirrors
      (fun _ _ => True) ((Browser.machine D).body c') := by
    rintro ⟨dig, c⟩ ⟨dig', c'⟩ ⟨hendpoint, hurn⟩
    have hoptions : (Wasm.options dig.endpoint dig.cachePath).withoutCache =
        (Wasm.options dig'.endpoint dig'.cachePath).withoutCache :=
      congrArg (fun e => (⟨Wasm.opt e, none⟩ : ResolveOptions)) hendpoint
    show (Browser.call D dig c).Mirrors _ (Browser.call D dig' c')
    rw [Browser.call_eq, Browser.call_eq, hoptions]
    exact Resolver.mirrors_resolve hD hurn rfl
  obtain ⟨q, hq, htags, -, hlog, -⟩ :=
    hp.mirror hbody (fun _ _ _ _ _ _ _ _ => trivial) (fun _ _ h => h) hcalls
  exact ⟨hp.of_only fun c => Browser.only_call c.1 c.2, q, hq, htags, hlog⟩

/-! ### A salt in a page -/

namespace Browser

/-- The pinned URN of `a.txt` with a salt. -/
def salted : String :=
  String.ofList ("urn:dig:chia:".toList ++ (Sample.digits ++ ':' ::
    (Sample.digits ++ "/a.txt?salt=5a17".toList)))

def salt : Salt where
  text := "5a17"
  nonempty := by decide
  hex := by decide

lemma parseWithSalt_salted : Sample.parseWithSalt salted = Sample.parseChars
    ("urn:dig:chia:".toList ++ (Sample.digits ++ ':' ::
      (Sample.digits ++ "/a.txt?salt=5a17".toList))) :=
  congrArg Sample.parseChars String.toList_ofList

-- no term should be compared with this text character by character
attribute [irreducible] salted

lemma parse_salted : ParsedUrn.parse Js.windowed salted =
    .ok ⟨(Sample.parsed "chia").urn, some salt⟩ := by
  have htext : Js.windowed.parseWithSalt salted = .ok ((Sample.parsed "chia").urn, some salt) := by
    have hchars : Sample.parseChars ("urn:dig:chia:".toList ++ (Sample.digits ++ ':' ::
        (Sample.digits ++ "/a.txt?salt=5a17".toList))) =
          .ok ((Sample.parsed "chia").urn, some salt) := by decide +kernel
    exact parseWithSalt_salted.trans hchars
  exact ParsedUrn.parse_of_parseWithSalt htext

/-- The page with one call, which ran over the gateway. -/
def page : Pool Unit (DigNetwork × JsCall) Op Ans
    (Except ResolveError ResolveOutcome × Instance) where
  state := ()
  threads := [((⟨none, none⟩, .resolve salted), .ret ((call Js.windowed ⟨none, none⟩
    (.resolve salted)).run (fun op s => (Js.gateway [] op, s)) ()).1)]
  log := ((call Js.windowed ⟨none, none⟩ (.resolve salted)).script
    (fun op s => (Js.gateway [] op, s)) ()).map
      fun e => ⟨0, (⟨none, none⟩, .resolve salted), e.op, e.ans⟩

lemma reachable_page : (machine Js.windowed).Reachable () page :=
  Machine.Reachable.solo (h := fun op s => (Js.gateway [] op, s)) (fun _ _ => trivial) .refl

/-- The page that asks for the resource without a salt, with a cache directory that it cannot use,
may look the same. -/
theorem salt_unseen_salted :
    ∃ q, (machine Js.windowed).Reachable () q ∧
      Machine.tags q = [(⟨none, some "cache"⟩, .resolveImageUrl DigNetwork.chia)] ∧
      q.log.map Entry.seen = page.log.map Entry.seen := by
  have halike : AlikeToOthers Js.windowed (⟨none, none⟩, .resolve salted)
      (⟨none, some "cache"⟩, .resolveImageUrl DigNetwork.chia) := by
    refine ⟨rfl, ?_⟩
    show SameUpToSalt Js.windowed salted DigNetwork.chia
    rw [SameUpToSalt, parse_salted, Js.parse_windowed]
  have hD : Js.windowed.VerdictSpec := sample_verdictSpec [] []
  exact (salt_unseen hD reachable_page (.cons halike .nil)).2

end Browser

end DigUrnResolver
