/-
# Where content types come from

A consumer serves what it is given under the content type of the success, so the type matters as
much as the bytes.  Only a node that attests its plaintext may choose it, and then for the bytes
that it attests.  The type of verified bytes is that of the resource key and the bytes, whoever
served the ciphertext.  An entry of the memory has the type with which it was put there.
-/
import DigUrnResolver.Caching.MemoryHits
import DigUrnResolver.Security.Provenance
import DigUrnResolver.Source.Sample

namespace DigUrnResolver

open Interaction

variable {ρ : Type}

/-- A call about `v` was given the content by a node endpoint of its plan, with
`X-Dig-Verified: true`; `root` is the concrete root of the reply. -/
structure AttestedAs (D : Deps) (L : RunLog ρ) (j : ℕ) (v : ParsedUrn) (root : Option String)
    (data : ResolvedData) : Prop where
  reply : ∃ c base resp, Names D c v ∧ NodeReply L j c v base resp ∧ resp.isSuccess = true ∧
    Node.verifiedPlaintext resp = true ∧ Node.nodeRoot v resp = root ∧
    data = Node.attestedData v resp

/-- The content is that of an attested reply, given to the call `i` about `u` itself or to one with
the same identity. -/
def TypedByNode (D : Deps) (L : RunLog ρ) (i : ℕ) (u : ParsedUrn) (data : ResolvedData) : Prop :=
  ∃ j v root, AttestedAs D L j v root data ∧
    (j = i ∧ v = u ∨ ∃ r r', u.rootHex = some r ∧ root = some r' ∧
      Resolver.cacheId v r' = Resolver.cacheId u r)

/-- The content has the type that the resource key and the bytes give. -/
def Derived (v : ParsedUrn) (data : ResolvedData) : Prop :=
  data.contentType = deriveContentType v.resourceKey data.bytes

lemma derived_mk (v : ParsedUrn) (bytes : Bytes) :
    Derived v ⟨bytes, deriveContentType v.resourceKey bytes⟩ := by
  rw [Derived]

lemma Derived.eq {v : ParsedUrn} {data : ResolvedData} (h : Derived v data) :
    data = ⟨data.bytes, deriveContentType v.resourceKey data.bytes⟩ := by
  rw [Derived] at h
  rw [← h]

/-- The bytes were verified, and the type is the one that the resource key of `u` and they give. -/
structure TypedByKey (D : Deps) (L : RunLog ρ) (i : ℕ) (u : ParsedUrn) (data : ResolvedData) :
    Prop where
  verified : FromVerification D L i u data.bytes
  derived : Derived u data

variable {D : Deps} {L L' : RunLog ρ} {i : ℕ} {c : Call ρ} {v : ParsedUrn} {root : String}
  {data : ResolvedData}

/-- A fetch returns the content of an attested reply, or verified bytes with the type that they and
the key give. -/
lemma FetchedFrom.attestedAs_or_verified (hcrypto : CryptoFaithful D L) (hv : Names D c v)
    {f : Fetched} (h : FetchedFrom L i c v f) :
    AttestedAs D L i v f.root f.data ∨ ∃ root, f.root = some root ∧
      Verified D L i v root f.data.bytes ∧ Derived v f.data := by
  cases h with
  | @attested base resp reply success verified =>
    exact Or.inl ⟨c, base, resp, hv, reply, success, verified, rfl, rfl⟩
  | @verified ct bytes proofB64 root lens source did =>
    have hrun := hcrypto i c v ct proofB64 root lens _ did
    have hverified : Verified D L i v root bytes :=
      ⟨c, ct, proofB64, lens, hv, source, did, hrun.symm⟩
    exact Or.inr ⟨root, rfl, hverified, derived_mk v bytes⟩

lemma DiskVerified.derived (h : DiskVerified L i c v root data) : Derived v data := by
  obtain ⟨-, art, bytes, -, -, rfl⟩ := h
  exact derived_mk v bytes

/-- Verified bytes with a derived type are typed by the key of the URN with the same identity. -/
lemma typedByKey (hD : D.FromHexSpec) {u : ParsedUrn} {r : String} (hpin : u.rootHex = some root)
    (hverified : Verified D L i v r data.bytes) (hderived : Derived v data)
    (hid : Resolver.cacheId u root = Resolver.cacheId v r) (j : ℕ) : TypedByKey D L j u data := by
  obtain ⟨-, rfl, hkey, -⟩ := Resolver.cacheId_inj (ParsedUrn.colon_notMem_rootHex hpin)
    (hverified.colon_notMem hD) hid
  refine ⟨⟨i, v, root, hverified, hid.symm, ?_, ?_⟩, ?_⟩
  · intro r' hr'
    exact Option.some.inj (hpin.symm.trans hr')
  · intro hnone
    exact absurd (hpin.symm.trans hnone) (by simp)
  · rw [Derived, hkey]
    exact hderived

/-- What a call may put under the identity of a pinned URN `u` is typed by a node, or by the key of
`u`. -/
lemma typed_of_permitted_memoryPut (hD : D.FromHexSpec) (hcrypto : CryptoFaithful D L')
    (hL : L <+: L') {options : ResolveOptions} {u : ParsedUrn} (hpin : u.rootHex = some root)
    (h : Permitted D L i c options (.memoryPut (Resolver.cacheId u root) data)) (j : ℕ) :
    TypedByNode D L' j u data ∨ TypedByKey D L' j u data := by
  obtain ⟨v, r, hv, hid, hreason⟩ := h
  rcases hreason with hdisk | ⟨f, hf, hroot, rfl⟩
  · have hdisk' := hdisk.mono hL
    exact Or.inr (typedByKey hD hpin (hdisk'.verified' hcrypto hv) hdisk'.derived hid j)
  · rcases (hf.mono hL).attestedAs_or_verified hcrypto hv with h | ⟨r', hr', h, hderived⟩
    · exact Or.inl ⟨i, v, f.root, h, Or.inr ⟨root, r, hpin, hroot, hid.symm⟩⟩
    · obtain rfl : r = r' := Option.some.inj (hroot.symm.trans hr')
      exact Or.inr (typedByKey hD hpin h hderived hid j)

/-- What a success is, bytes and type. -/
lemma typed_of_succeeded (hD : D.FromHexSpec) (hcrypto : CryptoFaithful D L)
    {options : ρ → ResolveOptions} (hhits : (hitContract D options).Kept L)
    (h : Succeeded D L i c data) :
    ∃ u, Names D c u ∧ (TypedByNode D L i u data ∨ TypedByKey D L i u data) := by
  cases h with
  | @memory u root names pinned hit =>
    -- the entry was put there by a call that was permitted to do so
    obtain ⟨L₁, hL₁, -, hput⟩ := hhits.of_mem hit
    obtain ⟨j, c', hdid⟩ := hput data rfl
    obtain ⟨L₂, hL₂, hpre, -⟩ := hhits.of_mem (hL₁.subset hdid)
    have hpermitted : Permitted D L₂ j c' (options c'.resolver)
        (.memoryPut (Resolver.cacheId u root) data) := hpre
    exact ⟨u, names, typed_of_permitted_memoryPut hD hcrypto hL₂ pinned hpermitted i⟩
  | @disk u root names verified =>
    refine ⟨u, names, Or.inr ?_⟩
    exact typedByKey hD verified.pinned (verified.verified' hcrypto names) verified.derived rfl i
  | @fetched u f names fetched eq =>
    subst eq
    refine ⟨u, names, ?_⟩
    rcases fetched.attestedAs_or_verified hcrypto names with h | ⟨root, -, h, hderived⟩
    · exact Or.inl ⟨i, u, f.root, h, Or.inl ⟨rfl, rfl⟩⟩
    · refine Or.inr ⟨⟨i, u, root, h, rfl, ?_, fun _ => ⟨rfl, rfl⟩⟩, hderived⟩
      intro r hr
      obtain ⟨c', ct, proofB64, lens, -, hsource, -, -⟩ := h.ran
      rcases hsource with hpin | ⟨hnone, -⟩
      · exact Option.some.inj (hpin.symm.trans hr)
      · exact absurd (hr.symm.trans hnone) (by simp)

/-- **Where content types come from.**  In every run of overlapping calls on one resolver, whatever
is answered and whatever happens to the cache directory: the content of a success is, bytes and
type, that of a reply which a node attested for the same identity; or its bytes were verified under
the root of the call, and its type is the one that the resource key of the call and the bytes give.
The root is the pinned one, or for a rootless URN the one that a node named to the call. -/
theorem type_provenance (hD : D.FromHexSpec) {options : ResolveOptions}
    {disk : String → Option Bytes} {p : RunPool Unit}
    (hp : (machine D (fun _ : Unit => options) Tampering).Reachable (World.new disk) p) {i : ℕ}
    {c : Call Unit} {data : ResolvedData}
    (hi : p.threads[i]? = some (c, .ret (.ok (.success data)))) :
    ∃ u, Names D c u ∧ (TypedByNode D p.log i u data ∨ TypedByKey D p.log i u data) := by
  obtain ⟨hinv, -, hsat⟩ := provenance_holds hp
  have hsucceeded : Succeeded D p.log i c data := hsat i c _ hi p.log List.prefix_rfl
  exact typed_of_succeeded hD hinv.crypto (hits_hold hp) hsucceeded

/-- A node that attests three bytes, as a page, whatever it is asked for. -/
def pageNet : World.Net where
  get _ := .ok ⟨200, [("X-Dig-Verified", "true"), ("Content-Type", "text/html; charset=utf-8")],
    [1, 2, 3]⟩
  post _ _ := .error ⟨"connection refused"⟩
  loopback _ := true

/-- The type that the node chose stays with the bytes in the memory: the second call gets it with
the network gone. -/
theorem type_provenance_memory_hit :
    ∃ p : RunPool Unit,
      p.threads[1]? =
        some (⟨(), Sample.urn "chia"⟩, .ret (.ok (.success ⟨[1, 2, 3], "text/html"⟩))) ∧
      ∃ u, TypedByNode (sample [] []) p.log 1 u ⟨[1, 2, 3], "text/html"⟩ ∨
        TypedByKey (sample [] []) p.log 1 u ⟨[1, 2, 3], "text/html"⟩ := by
  let c : Call Unit := ⟨(), Sample.urn "chia"⟩
  let options : Unit → ResolveOptions := fun _ => { endpoint := some "http://127.0.0.1:9778" }
  let p₁ := afterAlone (sample [] []) options pageNet c ⟨World.new fun _ => none, [], []⟩
  have hparse := Sample.parse_urn_chia [] []
  have hresult : (resultAlone (sample [] []) options silentNet c p₁.state).1 =
      .ok (.success ⟨[1, 2, 3], "text/html"⟩) := by
    rw [resultAlone_of_parse hparse, state_afterAlone, resultAlone_of_parse hparse]
    decide +kernel
  have hp : (machine (sample [] []) options Tampering).Reachable (World.new fun _ => none)
      (afterAlone (sample [] []) options silentNet c p₁) :=
    reachable_afterAlone (reachable_afterAlone .refl pageNet c) silentNet c
  have hthread : (afterAlone (sample [] []) options silentNet c p₁).threads[1]? =
      some (c, .ret (.ok (.success ⟨[1, 2, 3], "text/html"⟩))) := by
    rw [← hresult]
    rfl
  obtain ⟨u, -, hu⟩ := type_provenance (sample_fromHexSpec [] []) hp hthread
  exact ⟨_, hthread, u, hu⟩

end DigUrnResolver
