/-
# Where returned bytes come from

Bytes reach a success by five routes: attested plaintext and ciphertext of a node, the windows
of the gateway, the disk and the memory.  The memory skips every check, so the invariant is
about its entries: each of them is `Held`, that is, it was attested by a node or returned by
the read-crypto, in this run and under the identity of the entry.  Outsiders may rewrite the
cache directory at any time.
-/
import DigUrnResolver.Caching.Identity
import DigUrnResolver.Source.Sample

namespace DigUrnResolver

open Interaction

variable {ρ : Type} (D : Deps)

/-- A call about `v` was given the bytes as the body of a successful reply of a node endpoint
of its plan, with `X-Dig-Verified: true`; `root` is the concrete root of the reply. -/
structure Attested (L : RunLog ρ) (j : ℕ) (v : ParsedUrn) (root : Option String) (bytes : Bytes) :
    Prop where
  reply : ∃ c base resp, Names D c v ∧ NodeReply L j c v base resp ∧ resp.isSuccess = true ∧
    Node.verifiedPlaintext resp = true ∧ Node.nodeRoot v resp = root ∧ resp.body = bytes

/-- A call about `v` ran the read-crypto with the trust root `root`, and it returned the bytes.
The trust root is the pinned one, or the header of a node reply for a rootless `v`. -/
structure Verified (L : RunLog ρ) (j : ℕ) (v : ParsedUrn) (root : String) (bytes : Bytes) :
    Prop where
  ran : ∃ c ciphertext proofB64 lens, Names D c v ∧ RootSource L j c v root ∧
    Did L j c (.verifyAndDecrypt v ciphertext proofB64 root lens) (.ok bytes) ∧
    Crypto.verifyAndDecrypt D v ciphertext proofB64 root lens = .ok bytes

/-- The bytes were attested or verified under the identity `id`. -/
def Held (L : RunLog ρ) (id : String) (bytes : Bytes) : Prop :=
  (∃ j v root, Attested D L j v (some root) bytes ∧ Resolver.cacheId v root = id) ∨
    ∃ j v root, Verified D L j v root bytes ∧ Resolver.cacheId v root = id

/-- The attested route to a success of the call `i` about `u`: the reply was given to the call
itself or to one with the same identity. -/
def FromAttestation (L : RunLog ρ) (i : ℕ) (u : ParsedUrn) (bytes : Bytes) : Prop :=
  ∃ j v root, Attested D L j v root bytes ∧
    (j = i ∧ v = u ∨ ∃ r r', u.rootHex = some r ∧ root = some r' ∧
      Resolver.cacheId v r' = Resolver.cacheId u r)

/-- The verified route to a success of the call `i` about `u`: the read-crypto ran on a URN
with the same identity, under the pinned root of `u` when there is one. -/
def FromVerification (L : RunLog ρ) (i : ℕ) (u : ParsedUrn) (bytes : Bytes) : Prop :=
  ∃ j v root, Verified D L j v root bytes ∧ Resolver.cacheId v root = Resolver.cacheId u root ∧
    (∀ r, u.rootHex = some r → root = r) ∧ (u.rootHex = none → j = i ∧ v = u)

variable {D} {L L' : RunLog ρ} {i : ℕ} {c : Call ρ} {v : ParsedUrn} {id root : String}
  {bytes : Bytes} {data : ResolvedData}

lemma Attested.mono {root : Option String} (h : Attested D L i v root bytes) (hL : L <+: L') :
    Attested D L' i v root bytes := by
  obtain ⟨c, base, resp, hv, hreply, hrest⟩ := h.reply
  exact ⟨c, base, resp, hv, hreply.mono hL, hrest⟩

lemma Verified.mono (h : Verified D L i v root bytes) (hL : L <+: L') :
    Verified D L' i v root bytes := by
  obtain ⟨c, ct, proofB64, lens, hv, hsource, hdid, heq⟩ := h.ran
  exact ⟨c, ct, proofB64, lens, hv, hsource.mono hL, hdid.mono hL, heq⟩

lemma Held.mono (h : Held D L id bytes) (hL : L <+: L') : Held D L' id bytes := by
  rcases h with ⟨j, v, root, h, hid⟩ | ⟨j, v, root, h, hid⟩
  · exact Or.inl ⟨j, v, root, h.mono hL, hid⟩
  · exact Or.inr ⟨j, v, root, h.mono hL, hid⟩

/-! ### The invariant -/

variable (D) in
/-- Every run of the read-crypto answered what the read-crypto computes. -/
def CryptoFaithful (L : RunLog ρ) : Prop :=
  ∀ i c v ciphertext proofB64 root lens ans,
    Did L i c (.verifyAndDecrypt v ciphertext proofB64 root lens) ans →
      ans = Crypto.verifyAndDecrypt D v ciphertext proofB64 root lens

lemma FetchedFrom.attested_or_verified (hcrypto : CryptoFaithful D L) (hv : Names D c v)
    {f : Fetched} (h : FetchedFrom L i c v f) :
    Attested D L i v f.root f.data.bytes ∨
      ∃ root, f.root = some root ∧ Verified D L i v root f.data.bytes := by
  cases h with
  | @attested base resp reply success verified =>
    exact Or.inl ⟨c, base, resp, hv, reply, success, verified, rfl, rfl⟩
  | @verified ct bytes proofB64 root lens source did =>
    have hrun := hcrypto i c v ct proofB64 root lens _ did
    exact Or.inr ⟨root, rfl, c, ct, proofB64, lens, hv, source, did, hrun.symm⟩

lemma DiskVerified.verified' (hcrypto : CryptoFaithful D L) (hv : Names D c v)
    (h : DiskVerified L i c v root data) : Verified D L i v root data.bytes := by
  obtain ⟨hpinned, art, bytes, -, hdid, rfl⟩ := h
  have hrun := hcrypto i c v _ _ root _ _ hdid
  exact ⟨c, art.ciphertext, art.proofB64, art.chunkLens, hv, Or.inl hpinned, hdid, hrun.symm⟩

/-- What a call may put into the memory is held. -/
lemma held_of_permitted_memoryPut (hcrypto : CryptoFaithful D L) {options : ResolveOptions}
    (h : Permitted D L i c options (.memoryPut id data)) : Held D L id data.bytes := by
  obtain ⟨v, root, hv, rfl, hreason⟩ := h
  rcases hreason with hdisk | ⟨f, hf, hroot, rfl⟩
  · exact Or.inr ⟨i, v, root, hdisk.verified' hcrypto hv, rfl⟩
  · rcases hf.attested_or_verified hcrypto hv with h | ⟨root', hroot', h⟩
    · exact Or.inl ⟨i, v, root, hroot ▸ h, rfl⟩
    · obtain rfl : root = root' := by simpa [hroot] using hroot'
      exact Or.inr ⟨i, v, root, h, rfl⟩

variable (D) in
/-- The invariant of the runs: the memory holds nothing but held bytes, and so does what was
read from it. -/
structure ProvenanceInv (w : World Unit) (L : RunLog Unit) : Prop where
  memory : (w.inst ()).memory.All fun id data => Held D L id data.bytes
  hits : ∀ i c id data, Did L i c (.memoryGet id) (some data) → Held D L id data.bytes
  crypto : CryptoFaithful D L

lemma did_concat {e : Entry (Call ρ) Op Ans} {op : Op} {ans : Ans op}
    (h : Did (L ++ [e]) i c op ans) : Did L i c op ans ∨ e = ⟨i, c, op, ans⟩ := by
  rcases List.mem_append.1 h with h | h
  · exact Or.inl h
  · exact Or.inr (List.mem_singleton.1 h).symm

/-- One operation keeps the invariant. -/
lemma ProvenanceInv.step {w w' : World Unit} {L : RunLog Unit} {i : ℕ} {c : Call Unit} {op : Op}
    {ans : Ans op} {options : ResolveOptions} (h : ProvenanceInv D w L)
    (hpre : Permitted D L i c options op) (htr : World.trans D c op w ans w') :
    ProvenanceInv D w' (L ++ [⟨i, c, op, ans⟩]) := by
  have hL : L <+: L ++ [⟨i, c, op, ans⟩] := List.prefix_append _ _
  refine ⟨?_, ?_, ?_⟩
  · refine World.all_of_trans htr (P := fun _ id data => Held D _ id data.bytes) ?_ ?_ ()
    · exact fun _ => h.memory.imp fun _ _ hheld => hheld.mono hL
    · rintro id data rfl
      exact (held_of_permitted_memoryPut h.crypto hpre).mono hL
  · intro j c' id data hdid
    rcases did_concat hdid with hold | hnew
    · exact (h.hits j c' id data hold).mono hL
    · cases hnew
      obtain ⟨hans, -⟩ := htr
      exact (h.memory.get_fst hans.symm).mono hL
  · intro j c' v ct proofB64 root lens ans' hdid
    rcases did_concat hdid with hold | hnew
    · exact h.crypto j c' v ct proofB64 root lens ans' hold
    · cases hnew
      exact htr.1

/-- The invariant and the conduct of the calls hold in every reachable pool. -/
lemma provenance_holds {options : ResolveOptions} {disk : String → Option Bytes}
    {p : RunPool Unit}
    (hp : (machine D (fun _ : Unit => options) Tampering).Reachable (World.new disk) p) :
    (conduct D fun _ : Unit => options).Holds (ProvenanceInv D)
      (fun i c L r => Concluded D L i c r) p := by
  refine Contract.sound ?_ (fun _ _ _ _ _ _ _ _ _ _ => trivial) ?_ ?_ ?_ hp
  · refine ⟨MemoryCache.all_new _ _, ?_, ?_⟩
    · intro i c id data h
      exact absurd h List.not_mem_nil
    · intro i c v ct proofB64 root lens ans h
      exact absurd h List.not_mem_nil
  · intro i c L op w ans w' hinv hpre htr
    exact hinv.step hpre htr
  · intro w w' L hinv htamper
    have hinst : w'.inst = w.inst := htamper
    exact ⟨by rw [hinst]; exact hinv.memory, hinv.hits, hinv.crypto⟩
  · intro i c L
    exact resolve_sat D (fun _ : Unit => options) L i c

/-! ### The theorem -/

/-- A root that verified anything contains no colon. -/
lemma Verified.colon_notMem (hD : D.FromHexSpec) (h : Verified D L i v root bytes) :
    ':' ∉ root.toList := by
  obtain ⟨c, ct, proofB64, lens, -, -, -, hok⟩ := h.ran
  exact Crypto.colon_notMem_of_verifyAndDecrypt_ok hD hok

lemma Held.provenance (hD : D.FromHexSpec) {u : ParsedUrn} (hpin : u.rootHex = some root)
    (h : Held D L (Resolver.cacheId u root) bytes) :
    FromAttestation D L i u bytes ∨ FromVerification D L i u bytes := by
  rcases h with ⟨j, v, r, h, hid⟩ | ⟨j, v, r, h, hid⟩
  · exact Or.inl ⟨j, v, some r, h, Or.inr ⟨root, r, hpin, rfl, hid⟩⟩
  · obtain ⟨-, rfl, -, -⟩ := Resolver.cacheId_inj (h.colon_notMem hD)
      (ParsedUrn.colon_notMem_rootHex hpin) hid
    refine Or.inr ⟨j, v, r, h, hid, ?_, ?_⟩
    · intro r' hr'
      exact Option.some.inj (hpin.symm.trans hr')
    · intro hnone
      exact absurd (hpin.symm.trans hnone) (by simp)

/-- **Fail-closed provenance.**  In every run of calls on one resolver, whatever the network
answers and whatever happens to the cache directory: the bytes of a success were attested by a
node, or returned by the read-crypto under the pinned root, in this run and for the same
identity; and the memory holds no other bytes. -/
theorem success_provenance (hD : D.FromHexSpec) {options : ResolveOptions}
    {disk : String → Option Bytes} {p : RunPool Unit}
    (hp : (machine D (fun _ : Unit => options) Tampering).Reachable (World.new disk) p) :
    (∀ i c data, p.threads[i]? = some (c, .ret (.ok (.success data))) → ∃ u, Names D c u ∧
      (FromAttestation D p.log i u data.bytes ∨ FromVerification D p.log i u data.bytes)) ∧
    ∀ id entry, (p.state.inst ()).memory.map.lookup id = some entry →
      Held D p.log id entry.data.bytes := by
  obtain ⟨hinv, -, hsat⟩ := provenance_holds hp
  refine ⟨fun i c data hi => ?_, fun id entry hid => hinv.memory id entry hid⟩
  have hsucc : Succeeded D p.log i c data := hsat i c _ hi p.log List.prefix_rfl
  cases hsucc with
  | @memory u root names pinned hit =>
    exact ⟨u, names, (hinv.hits i c _ data hit).provenance hD pinned⟩
  | @disk u root names verified =>
    have hheld : Held D p.log (Resolver.cacheId u root) data.bytes :=
      Or.inr ⟨i, u, root, verified.verified' hinv.crypto names, rfl⟩
    exact ⟨u, names, hheld.provenance hD verified.pinned⟩
  | @fetched u f names fetched eq =>
    subst eq
    refine ⟨u, names, ?_⟩
    rcases fetched.attested_or_verified hinv.crypto names with h | ⟨root, hroot, h⟩
    · exact Or.inl ⟨i, u, f.root, h, Or.inl ⟨rfl, rfl⟩⟩
    · refine Or.inr ⟨i, u, root, h, rfl, ?_, fun _ => ⟨rfl, rfl⟩⟩
      intro r hr
      obtain ⟨c', ct, proofB64, lens, -, hsource, -, -⟩ := h.ran
      rcases hsource with hpin | ⟨hnone, -⟩
      · exact Option.some.inj (hpin.symm.trans hr)
      · exact absurd (hr.symm.trans hnone) (by simp)

/-- A node that attests the same three bytes whatever it is asked for. -/
def attestingNet : World.Net where
  get _ := .ok ⟨200, [("x-dig-verified", "true")], [1, 2, 3]⟩
  post _ _ := .error ⟨"connection refused"⟩
  loopback _ := true

/-- A network without any host. -/
def silentNet : World.Net where
  get _ := .error ⟨"connection refused"⟩
  post _ _ := .error ⟨"connection refused"⟩
  loopback _ := false

/-- A pinned URN is fetched from a node, then, with the network gone, taken from the memory. -/
theorem success_provenance_memory_hit :
    ∃ p : RunPool Unit,
      p.threads[1]? =
        some (⟨(), Sample.urn "chia"⟩, .ret (.ok (.success ⟨[1, 2, 3], "text/plain"⟩))) ∧
      ∃ u, FromAttestation (sample [] []) p.log 1 u [1, 2, 3] ∨
        FromVerification (sample [] []) p.log 1 u [1, 2, 3] := by
  let c : Call Unit := ⟨(), Sample.urn "chia"⟩
  let options : Unit → ResolveOptions := fun _ => { endpoint := some "http://127.0.0.1:9778" }
  let p₁ := afterAlone (sample [] []) options attestingNet c ⟨World.new fun _ => none, [], []⟩
  have hparse := Sample.parse_urn_chia [] []
  have hresult : (resultAlone (sample [] []) options silentNet c p₁.state).1 =
      .ok (.success ⟨[1, 2, 3], "text/plain"⟩) := by
    rw [resultAlone_of_parse hparse, state_afterAlone, resultAlone_of_parse hparse]
    decide +kernel
  have hp : (machine (sample [] []) options Tampering).Reachable (World.new fun _ => none)
      (afterAlone (sample [] []) options silentNet c p₁) :=
    reachable_afterAlone (reachable_afterAlone .refl attestingNet c) silentNet c
  have hthread : (afterAlone (sample [] []) options silentNet c p₁).threads[1]? =
      some (c, .ret (.ok (.success ⟨[1, 2, 3], "text/plain"⟩))) := by
    rw [← hresult]
    rfl
  obtain ⟨u, -, hu⟩ := (success_provenance (sample_fromHexSpec [] []) hp).1 1 c _ hthread
  exact ⟨_, hthread, u, hu⟩

end DigUrnResolver
