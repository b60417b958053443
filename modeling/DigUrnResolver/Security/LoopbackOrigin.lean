/-
# Who produced the plaintext that is trusted

Node trust rests on a check of the base that is made once, when the plan is built.  Between
this check and the dial, names may come to resolve to other addresses, and a reply may be the
end of a chain of redirects that the transport follows.  The environment below makes both
visible: it keeps what names resolve to, and it records of each `GET` which hosts were dialed
and which peer produced the reply.  What follows for the peers of trusted replies is that they
are loopback as long as no proxy stands between, the admitted names still resolve to loopback when
they are dialed, and redirects do not lead elsewhere.
-/
import DigUrnResolver.Security.Confinement

namespace DigUrnResolver

open Interaction

/-! ### The environment -/

/-- What names resolve to. -/
abbrev NameTable : Type := String → List IpAddr

/-- `resolves_to_loopback`: to some address, and to loopback addresses only. -/
def resolvesToLoopback (names : NameTable) (host : String) : Bool :=
  !(names host).isEmpty && (names host).all IpAddr.isLoopback

/-- The addresses of a host, which is a literal or a name. -/
def addresses (names : NameTable) (host : String) : List IpAddr :=
  match IpAddr.parse (bareHost host) with
  | some ip => [ip]
  | none => names (bareHost host)

/-- A host that is dialed: for which URL, at a moment with which names, and which address. -/
structure Hop where
  url : String
  names : NameTable
  peer : IpAddr

/-- The peer is one of the addresses of the host at that moment. -/
def Hop.Dialed (D : Deps) (hop : Hop) (host : String) : Prop :=
  D.parsedHost hop.url = some host ∧ hop.peer ∈ addresses hop.names host

lemma addresses_of_name {names : NameTable} {host : String}
    (h : IpAddr.parse (bareHost host) = none) : addresses names host = names (bareHost host) := by
  simp only [addresses, h]

lemma addresses_of_literal {names : NameTable} {host : String} {ip : IpAddr}
    (h : IpAddr.parse (bareHost host) = some ip) : addresses names host = [ip] := by
  simp only [addresses, h]

/-- A reply to a `GET`, with the host dialed first and those that redirects led to. -/
structure Delivery where
  call : Call Unit
  dial : Hop
  redirects : List Hop
  resp : HttpResponse

namespace Delivery

variable (d : Delivery)

/-- The hop that produced the reply. -/
def last : Hop := d.redirects.getLastD d.dial

def peer : IpAddr := d.last.peer

/-- The reply is accepted without verification: it answers the request for a resource, and
attests it. -/
def Trusted (D : Deps) : Prop :=
  ∃ v base, Names D d.call v ∧ d.dial.url = Node.serveUrl base v ∧ d.resp.isSuccess = true ∧
    Node.verifiedPlaintext d.resp = true

/-- No proxy stands between: every peer is an address of the host of its URL. -/
def Direct (D : Deps) : Prop := ∀ hop ∈ d.dial :: d.redirects, ∃ host, hop.Dialed D host

end Delivery

/-- A resolver with its directory, the current names and the replies so far. -/
structure Env where
  world : World Unit
  names : NameTable
  deliveries : List Delivery

namespace Env

variable (D : Deps)

def new (disk : String → Option Bytes) (names : NameTable) : Env := ⟨World.new disk, names, []⟩

/-- The operations in the environment.  Where a `GET` is delivered to is up to the transport. -/
def trans (c : Call Unit) : (op : Op) → Env → Ans op → Env → Prop
  | .get url, e, ans, e' =>
    (∃ err, ans = .error err) ∧ e' = e ∨
      ∃ d, ans = .ok d.resp ∧ d.call = c ∧ d.dial.url = url ∧
        e' = ⟨e.world, d.last.names, e.deliveries ++ [d]⟩
  | .resolvesToLoopback host, e, ans, e' => ans = DigUrnResolver.resolvesToLoopback e.names host ∧
      e' = e
  | op, e, ans, e' => World.trans D c op e.world ans e'.world ∧ e'.names = e.names ∧
      e'.deliveries = e.deliveries

/-- Between two operations, files and names may change in any way. -/
def Drift (e e' : Env) : Prop := Tampering e.world e'.world ∧ e'.deliveries = e.deliveries

end Env

/-- Calls on one resolver in the environment. -/
def environment (D : Deps) (options : ResolveOptions) :
    Machine Env (Call Unit) Op Ans (Except ResolveError ResolveOutcome) where
  trans := Env.trans D
  body c := Resolver.resolve D options c.urn
  interfere := Env.Drift

section

variable {D : Deps} {options : ResolveOptions} {disk : String → Option Bytes} {names : NameTable}
  {p : Pool Env (Call Unit) Op Ans (Except ResolveError ResolveOutcome)}

lemma Env.world_trans {c : Call Unit} {op : Op} {e e' : Env} {ans : Ans op}
    (h : Env.trans D c op e ans e') : World.trans D c op e.world ans e'.world := by
  cases op with
  | get url =>
    rcases h with ⟨-, rfl⟩ | ⟨d, -, -, -, rfl⟩ <;> rfl
  | resolvesToLoopback host =>
    obtain ⟨-, rfl⟩ := h
    rfl
  | _ => exact h.1

lemma environment_body_of_parse {c : Call Unit} {v : ParsedUrn}
    (h : ParsedUrn.parse D c.urn = .ok v) :
    (environment D options).body c = Resolver.resolveParsed D options v := by
  simp only [environment, Resolver.resolve, h]

/-- The world of the environment is that of the resolver alone, in which the network and the
names answer anything. -/
lemma environment_simulates (hp : (environment D options).Reachable (Env.new disk names) p) :
    (machine D (fun _ : Unit => options) Tampering).Reachable (World.new disk)
      ⟨p.state.world, p.threads, p.log⟩ := by
  refine hp.simulate Env.world rfl ?_ ?_
  · intro c op e ans e' h
    exact Env.world_trans h
  · intro e e' h
    exact h.1

/-- Every recorded reply is in the log. -/
def AllLogged (e : Env) (L : RunLog Unit) : Prop :=
  ∀ d ∈ e.deliveries, ∃ i, Did L i d.call (.get d.dial.url) (.ok d.resp)

lemma AllLogged.mono {e e' : Env} {L L' : RunLog Unit} (h : AllLogged e L) (hL : L <+: L')
    (he : e'.deliveries = e.deliveries) : AllLogged e' L' := by
  intro d hd
  obtain ⟨i, hdid⟩ := h d (he ▸ hd)
  exact ⟨i, hdid.mono hL⟩

lemma allLogged (hp : (environment D options).Reachable (Env.new disk names) p) :
    AllLogged p.state p.log := by
  refine hp.invariant (I := AllLogged) ?_ ?_ ?_
  · intro d hd
    exact absurd hd List.not_mem_nil
  · intro i c L op e ans e' hinv htr
    have hL : L <+: L ++ [⟨i, c, op, ans⟩] := List.prefix_append _ _
    cases op with
    | get url =>
      rcases htr with ⟨-, rfl⟩ | ⟨d, rfl, rfl, rfl, rfl⟩
      · exact hinv.mono hL rfl
      · intro d' hd'
        rcases List.mem_append.1 hd' with hd' | hd'
        · have hold : AllLogged e _ := hinv.mono hL rfl
          exact hold d' hd'
        · obtain rfl := List.mem_singleton.1 hd'
          exact ⟨i, Did.last⟩
    | resolvesToLoopback host =>
      obtain ⟨-, rfl⟩ := htr
      exact hinv.mono hL rfl
    | _ => exact hinv.mono hL htr.2.2
  · intro e e' L hinv hdrift
    exact hinv.mono List.prefix_rfl hdrift.2

/-! ### Hosts that are loopback -/

/-- The hosts that `is_loopback_host` may admit. -/
def LoopbackHost (host : String) : Prop :=
  bareHost host = "localhost" ∨ bareHost host = "dig.local" ∨
    ∃ ip, IpAddr.parse (bareHost host) = some ip ∧ ip.isLoopback = true

lemma LoopbackVerdict.loopbackHost {L : RunLog Unit} {i : ℕ} {c : Call Unit} {base : String}
    (h : LoopbackVerdict D L i c base true) :
    ∃ host, D.parsedHost base = some host ∧ LoopbackHost host := by
  rw [LoopbackVerdict] at h
  cases hhost : D.parsedHost base with
  | none => simp [hhost] at h
  | some host =>
    refine ⟨host, rfl, ?_⟩
    simp only [hhost] at h
    rw [LoopbackHost]
    generalize bareHost host = name at h ⊢
    split_ifs at h with hlocal hdig
    · exact Or.inl hlocal
    · exact Or.inr (Or.inl hdig)
    · cases hip : IpAddr.parse name with
      | none => simp [hip] at h
      | some ip =>
        simp only [hip] at h
        exact Or.inr (Or.inr ⟨ip, rfl, h.symm⟩)

/-- If the host is one of the two names that node trust knows, it resolves to loopback addresses
only. -/
def NameLoopback (names : NameTable) (host : String) : Prop :=
  bareHost host = "localhost" ∨ bareHost host = "dig.local" →
    ∀ ip ∈ names (bareHost host), ip.isLoopback = true

/-- A loopback host that is dialed while its name resolves to loopback has a loopback peer. -/
lemma Hop.Dialed.isLoopback {hop : Hop} {host : String} (h : hop.Dialed D host)
    (hhost : LoopbackHost host) (hnames : NameLoopback hop.names host) :
    hop.peer.isLoopback = true := by
  have hpeer := h.2
  rcases hhost with hlocal | hdig | ⟨ip, hip, hloop⟩
  · have hname : IpAddr.parse (bareHost host) = none := by
      rw [hlocal]
      decide
    rw [addresses_of_name hname] at hpeer
    exact hnames (Or.inl hlocal) _ hpeer
  · have hname : IpAddr.parse (bareHost host) = none := by
      rw [hdig]
      decide
    rw [addresses_of_name hname] at hpeer
    exact hnames (Or.inr hdig) _ hpeer
  · rw [addresses_of_literal hip, List.mem_singleton] at hpeer
    rw [hpeer, hloop]

/-! ### The theorem -/

/-- The reply was not redirected, or to a loopback host. -/
def Delivery.StaysLoopback (D : Deps) (d : Delivery) : Prop :=
  d.redirects = [] ∨ ∀ host, D.parsedHost d.last.url = some host → LoopbackHost host

/-- The host that produced the reply, if it is `localhost` or `dig.local`, resolved to loopback
at that moment. -/
def Delivery.NameStillLoopback (D : Deps) (d : Delivery) : Prop :=
  ∀ host, D.parsedHost d.last.url = some host → NameLoopback d.last.names host

/-- The request for a resource at a base has the host of the base. -/
lemma serveUrl_host (hhost : D.HostSpec) {base host host' : String} {v : ParsedUrn}
    (hbase : D.parsedHost base = some host)
    (hurl : D.parsedHost (Node.serveUrl base v) = some host') : host' = host := by
  obtain ⟨path, hpath⟩ : ∃ path, Node.serveUrl base v = base ++ "/" ++ path := by
    rw [Node.serveUrl]
    cases v.rootHex with
    | none =>
      refine ⟨"s/" ++ v.storeIdHex ++ "/" ++ v.resourceKey, ?_⟩
      simp [← String.toList_inj]
    | some root =>
      refine ⟨"s/" ++ (v.storeIdHex ++ ":" ++ root) ++ "/" ++ v.resourceKey, ?_⟩
      simp [← String.toList_inj]
  rw [hpath] at hurl
  exact hhost base path host host' hbase hurl

/-- **Trusted plaintext comes from loopback** in every run in which, for the replies that are
trusted, no proxy stands between, the names that are dialed still resolve to loopback, and no
redirect leads to a host that is not loopback. -/
theorem trusted_from_loopback (hhost : D.HostSpec)
    (hp : (environment D options).Reachable (Env.new disk names) p)
    (hdirect : ∀ d ∈ p.state.deliveries, d.Trusted D → d.Direct D)
    (hnames : ∀ d ∈ p.state.deliveries, d.Trusted D → d.NameStillLoopback D)
    (hredirects : ∀ d ∈ p.state.deliveries, d.Trusted D → d.StaysLoopback D) :
    ∀ d ∈ p.state.deliveries, d.Trusted D → d.peer.isLoopback = true := by
  intro d hd htrusted
  obtain ⟨i, hdid⟩ := allLogged hp d hd
  have hlast : d.last ∈ d.dial :: d.redirects := List.getLastD_mem_cons
  obtain ⟨host, hhop⟩ := hdirect d hd htrusted _ hlast
  refine hhop.isLoopback ?_ (hnames d hd htrusted host hhop.1)
  rcases hredirects d hd htrusted with hnil | hstays
  · -- the reply comes from the host of the request, which was asserted loopback
    have hurl : D.parsedHost d.dial.url = some host := by
      have hsame : d.last = d.dial := by rw [Delivery.last, hnil]; rfl
      exact hsame ▸ hhop.1
    obtain ⟨L₁, L₂, hlog⟩ := List.append_of_mem hdid
    obtain ⟨v, base, -, hserve, -, -⟩ := htrusted
    have hconfined := getConfined_of_reachable (environment_simulates hp) L₁ L₂ i d.call
      d.dial.url (.ok d.resp) hlog
    rw [hserve] at hconfined hurl
    generalize htarget : Node.serveUrl base v = target at hconfined hurl
    cases hconfined with
    | @health tier _ tiers _ =>
      refine absurd htarget (Node.serveUrl_ne_of_length_lt ?_)
      rcases List.mem_pair.1 tiers with rfl | rfl <;> decide
    | serve _ _ _ _ loopback =>
      obtain ⟨host', hbase, hloop⟩ := loopback.loopbackHost
      rwa [serveUrl_host hhost hbase hurl]
  · exact hstays host hhop.1

/-- With an override, every attested reply answers the request for a resource. -/
lemma Delivery.trusted_of_override
    (hp : (environment D options).Reachable (Env.new disk names) p) {b : String}
    (hend : options.endpoint = some b) {d : Delivery} (hd : d ∈ p.state.deliveries)
    (hsuccess : d.resp.isSuccess = true) (hverified : Node.verifiedPlaintext d.resp = true) :
    d.Trusted D := by
  obtain ⟨i, hdid⟩ := allLogged hp d hd
  obtain ⟨L₁, L₂, hlog⟩ := List.append_of_mem hdid
  have hconfined := getConfined_of_reachable (environment_simulates hp) L₁ L₂ i d.call
    d.dial.url (.ok d.resp) hlog
  generalize hurl : d.dial.url = url at hconfined
  cases hconfined with
  | health noOverride => exact absurd (hend.symm.trans noOverride) (by simp)
  | serve hv => exact ⟨_, _, hv, hurl, hsuccess, hverified⟩

end

/-! ### A name that is rebound after the check -/

namespace Delivery

/-- `dig.local` resolves to one address, and nothing else resolves. -/
def digLocalAt (ip : IpAddr) : NameTable := fun name => if name = "dig.local" then [ip] else []

def digLocalOptions : ResolveOptions := { endpoint := some "http://dig.local:9778" }

def theCall : Call Unit := ⟨(), Sample.urn "chia"⟩

def attestation : HttpResponse := ⟨200, [("x-dig-verified", "true")], [6, 6, 6]⟩

/-- A network without any host, for the operations that are not a `GET`. -/
def noGateway : World.Net where
  get _ := .error ⟨"error sending request"⟩
  post _ _ := .error ⟨"error sending request"⟩
  loopback _ := false

/-- An environment in which `dig.local` resolves to `ip` whenever it is dialed, and the host
there attests three bytes. -/
def answer (ip : IpAddr) : (op : Op) → Env → Ans op × Env
  | .get url, e =>
    if (sample [] []).parsedHost url = some "dig.local" then
      (.ok attestation, ⟨e.world, digLocalAt ip,
        e.deliveries ++ [⟨theCall, ⟨url, digLocalAt ip, ip⟩, [], attestation⟩]⟩)
    else (.error ⟨"error sending request"⟩, e)
  | .resolvesToLoopback host, e => (resolvesToLoopback e.names host, e)
  | op, e => ((World.handle (sample [] []) noGateway () op e.world).1,
      { e with world := (World.handle (sample [] []) noGateway () op e.world).2 })

lemma trans_answer (ip : IpAddr) (op : Op) (e : Env) :
    Env.trans (sample [] []) theCall op e (answer ip op e).1 (answer ip op e).2 := by
  cases op with
  | get url =>
    by_cases hhost : (sample [] []).parsedHost url = some "dig.local"
    · simp only [answer, if_pos hhost]
      exact Or.inr ⟨⟨theCall, ⟨url, digLocalAt ip, ip⟩, [], attestation⟩, rfl, rfl, rfl, rfl⟩
    · simp only [answer, if_neg hhost]
      exact Or.inl ⟨⟨_, rfl⟩, rfl⟩
  | resolvesToLoopback host => exact ⟨rfl, rfl⟩
  | _ => exact ⟨World.trans_handle (sample [] []) noGateway theCall _ _, rfl, rfl⟩

/-- `dig.local` is loopback at first, and resolves to `ip` from the first dial on. -/
def stateAfter (ip : IpAddr) : Env :=
  ((Resolver.resolveParsed (sample [] []) digLocalOptions (Sample.parsed "chia")).run (answer ip)
    (Env.new (fun _ => none) (digLocalAt (.v4 127 0 0 1)))).2

lemma exists_reachable (ip : IpAddr) :
    ∃ p, (environment (sample [] []) digLocalOptions).Reachable
      (Env.new (fun _ => none) (digLocalAt (.v4 127 0 0 1))) p ∧ p.state = stateAfter ip := by
  have hbody : (environment (sample [] []) digLocalOptions).body theCall =
      Resolver.resolveParsed (sample [] []) digLocalOptions (Sample.parsed "chia") :=
    environment_body_of_parse (Sample.parse_urn_chia [] [])
  obtain ⟨p, hp, hstart⟩ : ∃ p, (environment (sample [] []) digLocalOptions).Reachable
      (Env.new (fun _ => none) (digLocalAt (.v4 127 0 0 1))) p ∧
      p.state = Env.new (fun _ => none) (digLocalAt (.v4 127 0 0 1)) := ⟨_, .refl, rfl⟩
  have hsolo := Machine.Reachable.solo (trans_answer ip) hp
  rw [hbody, hstart] at hsolo
  refine ⟨_, hsolo, ?_⟩
  rw [stateAfter]

/-- Whether the host of the URL has the address of the peer. -/
def isDialed (hop : Hop) : Bool :=
  ((sample [] []).parsedHost hop.url).any fun host => hop.peer ∈ addresses hop.names host

/-- Whether a reply comes without a proxy. -/
def isDirect (d : Delivery) : Bool := (d.dial :: d.redirects).all isDialed

lemma direct_of_isDirect {d : Delivery} (h : d.isDirect = true) : d.Direct (sample [] []) := by
  intro hop hhop
  have hdialed := List.all_eq_true.1 h hop hhop
  rw [isDialed, Option.any_eq_true] at hdialed
  obtain ⟨host, hhost, hpeer⟩ := hdialed
  exact ⟨host, hhost, of_decide_eq_true hpeer⟩

/-- Whether a reply is attested by a peer that is not loopback. -/
def isAlien (d : Delivery) : Bool :=
  d.resp.isSuccess ∧ Node.verifiedPlaintext d.resp ∧ d.peer.isLoopback = false ∧ d.isDirect

/-- `dig.local` is rebound to a host of the local network after the plan was built, and the
plaintext that is served there is trusted. -/
theorem trusted_from_rebound_name :
    ∃ p, (environment (sample [] []) digLocalOptions).Reachable
      (Env.new (fun _ => none) (digLocalAt (.v4 127 0 0 1))) p ∧
      ∃ d ∈ p.state.deliveries, d.Trusted (sample [] []) ∧ d.Direct (sample [] []) ∧
        d.peer.isLoopback = false := by
  obtain ⟨p, hp, hstate⟩ := exists_reachable (.v4 10 0 0 5)
  have halien : (stateAfter (.v4 10 0 0 5)).deliveries.any isAlien = true := by decide +kernel
  obtain ⟨d, hd, hbad⟩ := List.any_eq_true.1 halien
  obtain ⟨hsuccess, hverified, hpeer, hdirect⟩ := of_decide_eq_true hbad
  have hd' : d ∈ p.state.deliveries := hstate ▸ hd
  exact ⟨p, hp, d, hd', trusted_of_override hp rfl hd' hsuccess hverified,
    direct_of_isDirect hdirect, hpeer⟩

/-- Whether a reply meets the conditions of the theorem. -/
def isBenign (d : Delivery) : Bool :=
  d.redirects.isEmpty ∧ d.last.names "localhost" = [] ∧
    d.last.names "dig.local" = [.v4 127 0 0 1] ∧ d.isDirect

/-- While `dig.local` stays where it was, its plaintext comes from loopback. -/
theorem trusted_from_loopback_unchanged :
    ∃ p, (environment (sample [] []) digLocalOptions).Reachable
      (Env.new (fun _ => none) (digLocalAt (.v4 127 0 0 1))) p ∧ p.state.deliveries ≠ [] ∧
      ∀ d ∈ p.state.deliveries, d.Trusted (sample [] []) → d.peer.isLoopback = true := by
  obtain ⟨p, hp, hstate⟩ := exists_reachable (.v4 127 0 0 1)
  have hbenign : (stateAfter (.v4 127 0 0 1)).deliveries.all isBenign = true ∧
      (stateAfter (.v4 127 0 0 1)).deliveries.isEmpty = false := by decide +kernel
  refine ⟨p, hp, ?_, trusted_from_loopback (sample_hostSpec [] []) hp ?_ ?_ ?_⟩
  · rw [hstate]
    simpa using hbenign.2
  · intro d hd _
    obtain ⟨-, -, -, hdirect⟩ := of_decide_eq_true (List.all_eq_true.1 hbenign.1 d (hstate ▸ hd))
    exact direct_of_isDirect hdirect
  · intro d hd _ host _ hname ip hip
    obtain ⟨-, hlocal, hdig, -⟩ := of_decide_eq_true (List.all_eq_true.1 hbenign.1 d (hstate ▸ hd))
    rcases hname with hname | hname
    · rw [hname, hlocal] at hip
      exact absurd hip List.not_mem_nil
    · rw [hname, hdig, List.mem_singleton] at hip
      rw [hip]
      decide
  · intro d hd _
    obtain ⟨hredirects, -⟩ := of_decide_eq_true (List.all_eq_true.1 hbenign.1 d (hstate ▸ hd))
    exact Or.inl (by simpa using hredirects)

end Delivery

end DigUrnResolver
