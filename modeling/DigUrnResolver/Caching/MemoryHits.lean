/-
# Which resource a memory hit belongs to

A hit skips all checks, so the entry should belong to the resource that is asked for.  The
identity of an entry names the store, the root, the resource key and the salt, but not the
chain label, from which the wire key and the decryption key are derived as well; and the root
of a rootless URN is whatever a header says.  Hits are faithful in the runs that avoid both
gaps: those whose URNs agree on the chain label wherever their identities are equal, and whose
headers do not extend a 64-hex root by a colon.
-/
import DigUrnResolver.Caching.Identity
import DigUrnResolver.Source.Sample

namespace DigUrnResolver

open Interaction

variable {ρ : Type}

/-- The URNs name the same resource, up to the root. -/
structure SameResource (u v : ParsedUrn) : Prop where
  chain : u.urn.chain = v.urn.chain
  store : u.storeIdHex = v.storeIdHex
  key : u.resourceKey = v.resourceKey
  salt : u.salt = v.salt

/-- The URNs have the same canonical rootless form, wire key and decryption key. -/
structure SameKeys (D : Deps) (u v : ParsedUrn) : Prop where
  canonical : D.canonicalRootless u.urn = D.canonicalRootless v.urn
  wire : u.retrievalKeyHex D = v.retrievalKeyHex D
  decryption : (Crypto.digstoreCrypto D).decryptChunk u.urn =
    (Crypto.digstoreCrypto D).decryptChunk v.urn

lemma SameResource.sameKeys {D : Deps} (hcanon : D.CanonicalSpec) (hkey : D.ContentKeySpec)
    {u v : ParsedUrn} (h : SameResource u v) : SameKeys D u v := by
  have heq := hcanon u.urn v.urn h.chain (ParsedUrn.urn_storeIdHex_eq h.store) h.key
  exact ⟨heq, hkey _ _ heq, Crypto.decryptChunk_congr heq⟩

/-- Every memory hit of the log is about a pinned URN, was stored by an earlier call, and all
calls that stored anything under its identity are about the same resource at that root. -/
def HitsFaithful (D : Deps) (L : RunLog ρ) : Prop :=
  ∀ L₁ L₂ i c id data, L = L₁ ++ ⟨i, c, .memoryGet id, some data⟩ :: L₂ →
    ∃ u root, Names D c u ∧ u.rootHex = some root ∧
      (∃ j c', Did L₁ j c' (.memoryPut id data) ()) ∧
      ∀ j c' data', Did L₁ j c' (.memoryPut id data') () → ∃ v, Names D c' v ∧
        SameResource u v ∧ SameKeys D u v ∧ RootSource L₁ j c' v root

/-- No `X-Dig-Root` of a successful reply to a rootless URN is a 64-hex root with a colon
behind it. -/
def RootHeadersClean (D : Deps) (L : RunLog ρ) : Prop :=
  ∀ i c v base resp root, Names D c v → v.rootHex = none →
    Did L i c (.get (Node.serveUrl base v)) (.ok resp) → resp.isSuccess = true →
    (resp.header "x-dig-root").map Text.trim = some root →
    ∀ front back, root = front ++ ":" ++ back → ¬ IsHex64 front

variable {D : Deps} {L L' : RunLog ρ} {i : ℕ} {c : Call ρ}

/-- Under an identity of a pinned URN, a root is the pinned one unless it extends it by a
colon. -/
lemma Resolver.root_eq_of_cacheId_eq {u v : ParsedUrn} {root r : String}
    (hu : u.rootHex = some root) (hclean : ∀ front back, r = front ++ ":" ++ back → ¬ IsHex64 front)
    (h : cacheId v r = cacheId u root) : r = root := by
  obtain ⟨-, hrest⟩ := store_eq_of_cacheId_eq h
  by_cases hcolon : ':' ∈ r.toList
  · obtain ⟨front, back, hsplit, hfront⟩ := List.eq_append_cons_of_mem hcolon
    rw [hsplit, List.append_assoc, List.cons_append] at hrest
    obtain ⟨heq, -⟩ := Text.append_cons_inj_of_notMem_left hfront
      (ParsedUrn.colon_notMem_rootHex hu) hrest
    have hr : r = String.ofList front ++ ":" ++ String.ofList back := by
      rw [← String.toList_inj]
      simp [hsplit]
    refine absurd ?_ (hclean _ _ hr)
    rw [heq, String.ofList_toList]
    exact ParsedUrn.isHex64_rootHex hu
  · exact String.toList_inj.1 (Text.append_cons_inj_of_notMem_left hcolon
      (ParsedUrn.colon_notMem_rootHex hu) hrest).1

/-- The contract with what is known of a hit: the data were put under the identity before. -/
def hitContract (D : Deps) (options : ρ → ResolveOptions) : Contract (Call ρ) Op Ans where
  pre i c L op := Permitted D L i c (options c.resolver) op
  known _ _ L
    | .memoryGet id, ans => ∀ data, ans = some data → ∃ j c', Did L j c' (.memoryPut id data) ()
    | _, _ => True

/-- The memory holds nothing but what was put. -/
def AllPut (w : World Unit) (L : RunLog Unit) : Prop :=
  (w.inst ()).memory.All fun id data => ∃ j c, Did L j c (.memoryPut id data) ()

lemma AllPut.step {w w' : World Unit} {L : RunLog Unit} {i : ℕ} {c : Call Unit} {op : Op}
    {ans : Ans op} (h : AllPut w L) (htr : World.trans D c op w ans w') :
    AllPut w' (L ++ [⟨i, c, op, ans⟩]) := by
  refine World.all_of_trans htr (P := fun _ id data => ∃ j c', Did _ j c' (.memoryPut id data) ())
    ?_ ?_ ()
  · intro _
    refine h.imp fun id data hput => ?_
    obtain ⟨j, c', hdid⟩ := hput
    exact ⟨j, c', hdid.mono (List.prefix_append _ _)⟩
  · rintro id data rfl
    exact ⟨i, c, Did.last⟩

lemma hits_hold {options : ResolveOptions} {disk : String → Option Bytes} {p : RunPool Unit}
    (hp : (machine D (fun _ : Unit => options) Tampering).Reachable (World.new disk) p) :
    (hitContract D fun _ : Unit => options).Kept p.log := by
  suffices h : (hitContract D fun _ : Unit => options).Holds AllPut
      (fun i c L r => Concluded D L i c r) p from h.kept
  refine Contract.sound ?_ ?_ ?_ ?_ ?_ hp
  · exact MemoryCache.all_new _ _
  · intro i c L op w ans w' hinv _ htr
    cases op with
    | memoryGet id =>
      obtain ⟨hans, -⟩ := htr
      intro data hdata
      exact hinv.get_fst (hans.symm.trans hdata)
    | _ => trivial
  · intro i c L op w ans w' hinv _ htr
    exact hinv.step htr
  · intro w w' L hinv htamper
    have hinst : w'.inst = w.inst := htamper
    unfold AllPut
    rw [hinst]
    exact hinv
  · intro i c L
    exact (resolve_sat D (fun _ : Unit => options) L i c).assuming (fun _ _ h => h) fun _ _ _ _ => trivial

/-- **Memory hits stay within their resource** in every run whose identities each have one chain label
and whose root headers are clean. -/
theorem hits_faithful (hcanon : D.CanonicalSpec) (hkey : D.ContentKeySpec)
    {options : ResolveOptions} {disk : String → Option Bytes} {p : RunPool Unit}
    (hp : (machine D (fun _ : Unit => options) Tampering).Reachable (World.new disk) p)
    (hchains : ChainsAgree D p.log) (hroots : RootHeadersClean D p.log) :
    HitsFaithful D p.log := by
  intro L₁ L₂ i c id data hlog
  have hkept := hits_hold hp
  obtain ⟨⟨u, root, hu, hpin, rfl⟩, hput⟩ := hkept L₁ _ L₂ hlog
  refine ⟨u, root, hu, hpin, hput data rfl, ?_⟩
  intro j c' data' hdid
  -- the call that stored `data'` was permitted to do so by the log before it
  obtain ⟨A, B, rfl⟩ := List.append_of_mem hdid
  have hsplit : p.log = A ++ ⟨j, c', .memoryPut (Resolver.cacheId u root) data', ()⟩ ::
      (B ++ ⟨i, c, .memoryGet (Resolver.cacheId u root), some data⟩ :: L₂) := by
    simp [hlog]
  have hpre : Permitted D A j c' options (.memoryPut (Resolver.cacheId u root) data') :=
    (hkept A _ _ hsplit).1
  obtain ⟨v, r, hv, hid, hsource⟩ := rootSource_of_permitted_memoryPut hpre
  have hA : A <+: p.log := hsplit ▸ List.prefix_append _ _
  have hr : r = root := by
    rcases hsource with hpin' | ⟨hnone, base, resp, hreply, hsuccess, hheader⟩
    · exact (Resolver.cacheId_inj (ParsedUrn.colon_notMem_rootHex hpin)
        (ParsedUrn.colon_notMem_rootHex hpin') hid).2.1.symm
    · exact Resolver.root_eq_of_cacheId_eq hpin
        (hroots j c' v base resp r hv hnone (hreply.reply.mono hA) hsuccess hheader) hid.symm
  subst hr
  obtain ⟨hstore, -, hkeys, hsalt⟩ := Resolver.cacheId_inj (ParsedUrn.colon_notMem_rootHex hpin)
    (ParsedUrn.colon_notMem_rootHex hpin) hid
  have hchain : u.urn.chain = v.urn.chain := by
    have hget : Did p.log i c (.memoryGet (Resolver.cacheId u r)) (some data) :=
      hlog ▸ List.mem_append_right _ List.mem_cons_self
    have hput : Did p.log j c' (.memoryPut (Resolver.cacheId u r) data') () :=
      hsplit ▸ List.mem_append_right _ List.mem_cons_self
    exact hchains _ hget _ hput u v r hu hv (.inl hpin) (hsource.mono hA) hid
  have hsame : SameResource u v := ⟨hchain, hstore, hkeys, hsalt⟩
  exact ⟨v, hv, hsame, hsame.sameKeys hcanon hkey, hsource.mono (List.prefix_append _ _)⟩

/-! ### A hit that crosses chains, and one that does not -/

namespace HitsFaithful

/-- A node that attests the same byte whatever it is asked for. -/
def constantNode : World.Net where
  get _ := .ok ⟨200, [("x-dig-verified", "true")], [7]⟩
  post _ _ := .error ⟨"connection refused"⟩
  loopback _ := false

def nodeOptions : Unit → ResolveOptions := fun _ => { endpoint := some "http://127.0.0.1:9778" }

def callOf (chain : String) : Call Unit := ⟨(), Sample.urn chain⟩

/-- A resolver after one call under the label `chia`. -/
def poolAfter : RunPool Unit :=
  afterAlone (sample [] []) nodeOptions constantNode (callOf "chia")
    ⟨World.new fun _ => none, [], []⟩

/-- The same after one more call. -/
def poolAfterTwo (chain : String) : RunPool Unit :=
  afterAlone (sample [] []) nodeOptions constantNode (callOf chain) poolAfter

lemma reachable_poolAfterTwo (chain : String) :
    (machine (sample [] []) nodeOptions Tampering).Reachable (World.new fun _ => none)
      (poolAfterTwo chain) :=
  reachable_afterAlone (reachable_afterAlone .refl _ _) _ _

lemma names_chia : Names (sample [] []) (callOf "chia") (Sample.parsed "chia") :=
  Sample.parse_urn_chia [] []

lemma names_mainnet : Names (sample [] []) (callOf "mainnet") (Sample.parsed "mainnet") :=
  Sample.parse_urn_mainnet [] []

lemma tag_of_mem_poolAfter {e : Entry (Call Unit) Op Ans} (he : e ∈ poolAfter.log) :
    e.tag = callOf "chia" := by
  rcases mem_log_afterAlone he with he | he
  · exact absurd he List.not_mem_nil
  · exact he.2

/-- The first thing a call about a pinned URN does is to look into the memory. -/
lemma script_of_pinned {σ : Type} (h : (op : Op) → σ → Ans op × σ) (options : ResolveOptions)
    {v : ParsedUrn} {root : String} (hpin : v.rootHex = some root) (s : σ) :
    ∃ rest, (Resolver.resolveParsed D options v).script h s =
      ⟨.memoryGet (Resolver.cacheId v root),
        (h (.memoryGet (Resolver.cacheId v root)) s).1⟩ :: rest := by
  rw [Resolver.resolveParsed, hpin]
  exact ⟨_, rfl⟩

/-- The second call starts with a hit. -/
lemma exists_hit : ∃ L₂, (poolAfterTwo "mainnet").log = poolAfter.log ++ ⟨1, callOf "mainnet",
    .memoryGet (Resolver.cacheId (Sample.parsed "mainnet") Sample.hex.text),
    some ⟨[7], "text/plain"⟩⟩ :: L₂ := by
  have hhit : (World.handle (sample [] []) constantNode () (.memoryGet (Resolver.cacheId
      (Sample.parsed "mainnet") Sample.hex.text)) poolAfter.state).1 =
      some ⟨[7], "text/plain"⟩ := by
    rw [poolAfter, state_afterAlone, resultAlone_of_parse names_chia]
    decide +kernel
  obtain ⟨rest, hrest⟩ := script_of_pinned (D := sample [] []) (World.handle (sample [] [])
    constantNode ()) (nodeOptions ()) (v := Sample.parsed "mainnet") rfl poolAfter.state
  rw [poolAfterTwo, log_afterAlone_of_parse names_mainnet, hrest, List.map_cons, hhit]
  exact ⟨_, rfl⟩

/-- After a call under the label `chia`, a call under the label `mainnet` is answered from the
memory. -/
theorem not_hitsFaithful_of_chains :
    ∃ p : RunPool Unit, (machine (sample [] []) nodeOptions Tampering).Reachable
      (World.new fun _ => none) p ∧ ¬ HitsFaithful (sample [] []) p.log := by
  refine ⟨poolAfterTwo "mainnet", reachable_poolAfterTwo "mainnet", fun hfaithful => ?_⟩
  obtain ⟨L₂, hlog⟩ := exists_hit
  obtain ⟨u, root, hu, -, ⟨j, c', hput⟩, hall⟩ := hfaithful _ _ _ _ _ _ hlog
  obtain ⟨v, hv, hsame, -⟩ := hall j c' _ hput
  obtain rfl := tag_of_mem_poolAfter hput
  obtain rfl : Sample.parsed "mainnet" = u := Except.ok.inj (names_mainnet.symm.trans hu)
  obtain rfl : Sample.parsed "chia" = v := Except.ok.inj (names_chia.symm.trans hv)
  exact absurd hsame.chain (by decide)

/-- Two calls under the same label satisfy the hypotheses, and the second is a hit. -/
theorem hits_faithful_of_one_chain :
    HitsFaithful (sample [] []) (poolAfterTwo "chia").log := by
  have hnames : ∀ e ∈ (poolAfterTwo "chia").log, ∀ v, Names (sample [] []) e.tag v →
      v = Sample.parsed "chia" := by
    intro e he v hv
    have htag : e.tag = callOf "chia" :=
      (mem_log_afterAlone he).elim tag_of_mem_poolAfter And.right
    rw [htag] at hv
    exact Except.ok.inj (hv.symm.trans names_chia)
  refine hits_faithful (sample_canonicalSpec [] []) (sample_contentKeySpec [] [])
    (reachable_poolAfterTwo "chia") ?_ ?_
  · intro e he e' he' u v root hu hv _ _ _
    rw [hnames e he u hu, hnames e' he' v hv]
  · intro i c v base resp root hv hnone hdid
    obtain rfl := hnames _ hdid v hv
    exact absurd hnone (by simp [Sample.parsed, ParsedUrn.rootHex])

end HitsFaithful

end DigUrnResolver
