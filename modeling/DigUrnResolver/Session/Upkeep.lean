/-
# The terms on which the caches are kept

Resolvers that share a directory rely on each other: what one of them reads, another one may have
stored.  `Terms` says what may be stored; as long as every call keeps to it, every call may count on
it, however the calls overlap, and whatever files are lost.
-/
import DigUrnResolver.Caching.SharedDisk
import DigUrnResolver.Session.Consultation

namespace DigUrnResolver

open Interaction

/-! ### URNs that are told apart -/

/-- The URNs are root-pinned, those with the same identity agree on the chain label, and the names of
their files do not collide. -/
structure Distinguished (D : Deps) (urns : Set String) : Prop where
  pinned : ∀ s ∈ urns, ∀ v, ParsedUrn.parse D s = .ok v → v.rootHex ≠ none
  chains : ∀ s ∈ urns, ∀ s' ∈ urns, ∀ u v root, ParsedUrn.parse D s = .ok u →
    ParsedUrn.parse D s' = .ok v → u.rootHex = some root → v.rootHex = some root →
    Resolver.cacheId u root = Resolver.cacheId v root → u.urn.chain = v.urn.chain
  collisionFree : ∀ s ∈ urns, ∀ s' ∈ urns, ∀ u v r r', ParsedUrn.parse D s = .ok u →
    ParsedUrn.parse D s' = .ok v → u.rootHex = some r → v.rootHex = some r' →
    D.sha256Hex (Resolver.cacheId u r) = D.sha256Hex (Resolver.cacheId v r') →
    Resolver.cacheId u r = Resolver.cacheId v r'

/-- The identity is that of a URN at its pinned root. -/
def PinnedAs (D : Deps) (urns : Set String) (id : String) (v : ParsedUrn) (root : String) : Prop :=
  (∃ s ∈ urns, ParsedUrn.parse D s = .ok v) ∧ v.rootHex = some root ∧
    id = Resolver.cacheId v root

/-- The directory tells the URNs apart. -/
lemma PinnedAs.eq (hurns : Distinguished D urns) {u v : ParsedUrn} {id id' root root' : String}
    (hu : PinnedAs D urns id u root) (hv : PinnedAs D urns id' v root')
    (hpath : diskPath D id = diskPath D id') : u = v := by
  obtain ⟨⟨s, hs, hparse⟩, hroot, rfl⟩ := hu
  obtain ⟨⟨s', hs', hparse'⟩, hroot', rfl⟩ := hv
  have hid := hurns.collisionFree s hs s' hs' u v root root' hparse hparse' hroot hroot'
    (diskPath_inj hpath)
  obtain ⟨hstore, rfl, hkey, hsalt⟩ := Resolver.cacheId_inj (ParsedUrn.colon_notMem_rootHex hroot)
    (ParsedUrn.colon_notMem_rootHex hroot') hid
  have hchain := hurns.chains s hs s' hs' u v root hparse hparse' hroot hroot' hid
  have hpin : u.urn.rootHex = v.urn.rootHex :=
    Option.map_injective (fun a b h => Hex64.ext h) (hroot.trans hroot'.symm)
  have hstore' := ParsedUrn.urn_storeIdHex_eq hstore
  rcases u with ⟨⟨chain, storeIdHex, rootHex, key⟩, salt⟩
  rcases v with ⟨⟨chain', storeIdHex', rootHex', key'⟩, salt'⟩
  obtain rfl : chain = chain' := hchain
  obtain rfl : storeIdHex = storeIdHex' := hstore'
  obtain rfl : rootHex = rootHex' := hpin
  obtain rfl : key = key' := hkey
  obtain rfl : salt = salt' := hsalt
  rfl


/-! ### Operations of the surroundings -/

/-- The operation is answered by the network, the name service or the read-crypto. -/
def IsPlain : Op → Prop
  | .get _ | .postJson _ _ | .resolvesToLoopback _ | .verifyAndDecrypt _ _ _ _ _ => True
  | _ => False

lemma plain_fetchFrom {D : Deps} (endpoint : Endpoint) (parsed : ParsedUrn) :
    (Resolver.fetchFrom D endpoint parsed).Only IsPlain := by
  refine (Resolver.only_fetchFrom endpoint).imp fun op h => ?_
  cases op with
  | get | postJson | verifyAndDecrypt => trivial
  | _ => exact absurd h (not_or.2 ⟨id, id⟩)

lemma plain_buildPlan {D : Deps} (endpoint : Option String) : (buildPlan D endpoint).Only IsPlain := by
  refine (Resolver.only_buildPlan endpoint).imp fun op h => ?_
  rcases h with h | ⟨tier, -, rfl⟩
  · cases op with
    | resolvesToLoopback => trivial
    | _ => exact absurd h id
  · trivial

/-! ### The terms -/

/-- What the caches may hold, and what the network may answer. -/
structure Terms where
  data : String → ResolvedData → Prop
  artifacts : String → DiskArtifacts → Prop
  plan : List Endpoint → Prop
  network : (op : Op) → Ans op → Prop

/-- Files may be lost, or be damaged so that nothing is read from them. -/
def Decay {ρ : Type} (D : Deps) (w w' : World ρ) : Prop :=
  w'.inst = w.inst ∧ ∀ path contents art, w'.disk path = some contents →
    D.artifactsFromSlice contents = some art → w.disk path = some contents

namespace Terms

variable {ρ τ : Type} (D : Deps) (T : Terms)

/-- Who stores keeps to the terms, and who reads relies on them. -/
def contract : Contract τ Op Ans where
  pre _ _ _
    | .memoryPut id data => T.data id data
    | .diskPut id art => T.artifacts id art
    | .planSet plan => T.plan plan
    | _ => True
  known _ _ _
    | .memoryGet id, ans => ∀ data, ans = some data → T.data id data
    | .diskGet id, ans => ∀ art, ans = some art → ∃ id', diskPath D id' = diskPath D id ∧
        T.artifacts id' art
    | .planGet, ans => ∀ plan, ans = some plan → T.plan plan
    | .verifyAndDecrypt v ciphertext proofB64 root lens, ans =>
        ans = Crypto.verifyAndDecrypt D v ciphertext proofB64 root lens
    | .get url, ans => T.network (.get url) ans
    | .postJson url body, ans => T.network (.postJson url body) ans
    | .resolvesToLoopback host, ans => T.network (.resolvesToLoopback host) ans
    | _, _ => True

/-- The memories, the plans and the readable files are as the terms say. -/
structure Kept (w : World ρ) : Prop where
  memory : ∀ r, (w.inst r).memory.All T.data
  plan : ∀ r plan, (w.inst r).planCache = some plan → T.plan plan
  disk : ∀ path contents art, w.disk path = some contents →
    D.artifactsFromSlice contents = some art → ∃ id, path = diskPath D id ∧ T.artifacts id art

variable {D T} {w w' : World ρ} {c : Call ρ} {op : Op} {ans : Ans op} {t : τ} {i : ℕ}
  {L : Log τ Op Ans}

lemma kept_new : T.Kept D (World.new (ρ := ρ) fun _ => none) where
  memory _ := MemoryCache.all_new _ _
  plan _ _ h := absurd h (by simp [World.new, Instance.new])
  disk _ _ _ h := absurd h (by simp [World.new])

/-- What the contract says of an answer is true. -/
lemma Kept.known [DecidableEq ρ] (h : T.Kept D w) (htr : World.trans D c op w ans w')
    (hnetwork : T.network op ans) : (T.contract D).known i t L op ans := by
  cases op with
  | memoryGet id =>
    obtain ⟨hans, -⟩ := htr
    exact fun data hdata => (h.memory c.resolver).get_fst (hans.symm.trans hdata)
  | diskGet id =>
    obtain ⟨hans, -⟩ := htr
    intro art hart
    obtain ⟨contents, hfile, hslice⟩ := Option.bind_eq_some_iff.1 (hans.symm.trans hart)
    obtain ⟨id', hpath, hid'⟩ := h.disk _ _ _ hfile hslice
    exact ⟨id', hpath.symm, hid'⟩
  | planGet =>
    obtain ⟨hans, -⟩ := htr
    exact fun plan hplan => h.plan c.resolver plan (hans.symm.trans hplan)
  | verifyAndDecrypt => exact htr.1
  | get | postJson | resolvesToLoopback => exact hnetwork
  | memoryPut | diskPut | diskRemove | planSet => trivial

/-- **One operation keeps to the terms.** -/
lemma Kept.step [DecidableEq ρ] (h : T.Kept D w) (hart : D.ArtifactsSpec)
    (hpre : (T.contract D).pre i t L op) (htr : World.trans D c op w ans w') : T.Kept D w' := by
  refine ⟨?_, ?_, ?_⟩
  · refine World.all_of_trans htr (P := fun _ => T.data) h.memory ?_
    rintro id data rfl
    exact hpre
  · intro r plan hplan
    rcases World.planCache_of_trans htr hplan with hold | ⟨-, rfl⟩
    · exact h.plan r plan hold
    · exact hpre
  · intro path contents art hfile hslice
    rcases World.disk_of_trans htr hfile with hold | ⟨id, art', rfl, hpath, hvec⟩
    · exact h.disk path contents art hold hslice
    · obtain rfl : art' = art := Option.some.inj ((hart _ _ hvec).symm.trans hslice)
      exact ⟨id, hpath, hpre⟩

lemma Kept.decay (h : T.Kept D w) (hdecay : Decay D w w') : T.Kept D w' := by
  obtain ⟨hinst, hdisk⟩ := hdecay
  refine ⟨by rw [hinst]; exact h.memory, by rw [hinst]; exact h.plan, ?_⟩
  intro path contents art hfile hslice
  exact h.disk path contents art (hdisk path contents art hfile hslice) hslice

/-- **Calls that keep to the terms may rely on them**, in all interleavings. -/
theorem holds [DecidableEq ρ] {α : Type} {M : Machine (World ρ) τ Op Ans α} {f : τ → Call ρ}
    {post : ℕ → τ → Log τ Op Ans → α → Prop} (hart : D.ArtifactsSpec)
    (htrans : ∀ t op w ans w', M.trans t op w ans w' →
      World.trans D (f t) op w ans w' ∧ T.network op ans)
    (hinterfere : ∀ w w', M.interfere w w' → Decay D w w')
    (hbody : ∀ i t L, (M.body t).Sat (T.contract D) i t (post i t) L)
    {p : Pool (World ρ) τ Op Ans α} (hp : M.Reachable (World.new fun _ => none) p) :
    (T.contract D).Holds (fun w _ => T.Kept D w) post p := by
  refine Contract.sound kept_new ?_ ?_ ?_ hbody hp
  · intro i t L op w ans w' hkept _ htr
    obtain ⟨hworld, hnetwork⟩ := htrans t op w ans w' htr
    exact hkept.known hworld hnetwork
  · intro i t L op w ans w' hkept hpre htr
    exact hkept.step hart hpre (htrans t op w ans w' htr).1
  · exact fun w w' L hkept h => hkept.decay (hinterfere w w' h)

/-! ### A resolve that keeps to them -/

variable {o : ResolveOptions} {v : ParsedUrn} {root : String}

/-- A plan that is built to the terms is used to the terms. -/
lemma plan_sat (hbuild : ∀ L, (buildPlan D o.endpoint).Sat (T.contract D) i t
      (fun _ plan => T.plan plan) L) :
    (Resolver.plan D o).Sat (T.contract D) i t (fun _ plan => T.plan plan) L := by
  refine Program.Sat.call (fun _ _ => trivial) fun L₁ cached _ hcached => ?_
  cases cached with
  | some plan => exact Program.Sat.ret fun _ _ => hcached plan rfl
  | none =>
    refine (hbuild _).bind fun L₂ plan _ hplan => ?_
    refine Program.Sat.call (fun _ _ => hplan) fun L₃ _ _ _ => ?_
    exact Program.Sat.ret fun _ _ => hplan

lemma cacheSuccess_sat {f : Fetched} (hroot : f.root = some root)
    (hdata : T.data (Resolver.cacheId v root) f.data)
    (hartifacts : ∀ art, f.artifacts = some art → T.artifacts (Resolver.cacheId v root) art) :
    (Resolver.cacheSuccess o v f).Sat (T.contract D) i t (fun _ _ => True) L := by
  rw [Resolver.cacheSuccess, hroot]
  refine Program.Sat.call (fun _ _ => hdata) fun L₁ _ _ _ => ?_
  cases o.cachePath with
  | none => exact Program.Sat.ret fun _ _ => trivial
  | some path =>
    cases hart : f.artifacts with
    | none => exact Program.Sat.ret fun _ _ => trivial
    | some art =>
      refine Program.Sat.call (fun _ _ => hartifacts art hart) fun _ _ _ _ => ?_
      exact Program.Sat.ret fun _ _ => trivial

/-- A resolve of a pinned URN relies on the terms before the walk, for what it finds in the memory
and in its file. -/
lemma resolveParsed_sat {post : Except ResolveError ResolveOutcome → Prop}
    (hroot : v.rootHex = some root)
    (hhit : ∀ data, T.data (Resolver.cacheId v root) data → post (.ok (.success data)))
    (hfile : ∀ id art, diskPath D id = diskPath D (Resolver.cacheId v root) → T.artifacts id art →
      ∃ bytes, Crypto.verifyAndDecrypt D v art.ciphertext art.proofB64 root art.chunkLens =
          .ok bytes ∧
        T.data (Resolver.cacheId v root) ⟨bytes, deriveContentType v.resourceKey bytes⟩)
    (huncached : ∀ L, (Resolver.resolveUncached D o v).Sat (T.contract D) i t
      (fun _ r => post r) L) :
    (Resolver.resolveParsed D o v).Sat (T.contract D) i t (fun _ r => post r) L := by
  unfold Resolver.resolveParsed
  rw [hroot]
  refine Program.Sat.call (fun _ _ => trivial) fun L₁ found _ hfound => ?_
  cases found with
  | some data => exact Program.Sat.ret fun _ _ => hhit data (hfound data rfl)
  | none =>
    unfold Resolver.diskGetVerified
    rw [hroot]
    cases o.cachePath with
    | none => exact huncached _
    | some path =>
      refine Program.Sat.call (fun _ _ => trivial) fun L₂ file _ hread => ?_
      cases file with
      | none => exact huncached _
      | some art =>
        obtain ⟨id, hpath, hart⟩ := hread art rfl
        obtain ⟨bytes, hverify, hdata⟩ := hfile id art hpath hart
        refine Program.Sat.call (fun _ _ => trivial) fun L₃ verdict _ hverdict => ?_
        obtain rfl : verdict = .ok bytes := hverdict.trans hverify
        refine Program.Sat.call (fun _ _ => hdata) fun _ _ _ _ => ?_
        exact Program.Sat.ret fun _ _ => hhit _ hdata

end Terms

end DigUrnResolver
