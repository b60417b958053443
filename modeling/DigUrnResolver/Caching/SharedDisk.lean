/-
# A cache directory that many resolvers share

Nobody but resolvers writes the directory.  A file is verified again under the URN of the
reader, not of the writer, and the two need only share the identity.  The read-crypto derives
its key from the chain label too, which the identity leaves out; so a reader may refuse, and
remove, a file that is in order.  Where URNs with the same identity also agree on the chain label,
no file is ever refused.
-/
import DigUrnResolver.Caching.Identity
import DigUrnResolver.Source.Sample

namespace DigUrnResolver

open Interaction

variable {ρ : Type} {D : Deps}

/-- The directory raises no false alarm: what a call reads verifies again under the URN of the
call, nothing is removed, and a call reports an integrity failure only after it walked the
ladder. -/
structure DiskQuiet (D : Deps) (p : RunPool ρ) : Prop where
  reverifies : ∀ i c id art v root, Did p.log i c (.diskGet id) (some art) → Names D c v →
    v.rootHex = some root →
    ∃ bytes, Crypto.verifyAndDecrypt D v art.ciphertext art.proofB64 root art.chunkLens = .ok bytes
  noRemoval : ∀ i c id, ¬ Did p.log i c (.diskRemove id) ()
  noAlarm : ∀ i c, p.threads[i]? = some (c, .ret (.ok .integrityFailure)) →
    ∃ plan, PlanUsed p.log i c plan

/-- The identities under which files were read or written. -/
def OnDisk (L : RunLog ρ) (id : String) : Prop :=
  (∃ i c ans, Did L i c (.diskGet id) ans) ∨ ∃ i c art, Did L i c (.diskPut id art) ()

/-- The hash that names the files does not collide on the identities of a run. -/
def NoCollision (D : Deps) (L : RunLog ρ) : Prop :=
  ∀ id id', OnDisk L id → OnDisk L id' → D.sha256Hex id = D.sha256Hex id' → id = id'

/-! ### Files come from puts -/

/-- The contract with what is known of a file that is read: a call has written it, under an
identity with the same file name. -/
def diskContract (D : Deps) (options : ρ → ResolveOptions) : Contract (Call ρ) Op Ans where
  pre i c L op := Permitted D L i c (options c.resolver) op
  known _ _ L
    | .diskGet id, ans => ∀ art, ans = some art →
        ∃ j c' id', Did L j c' (.diskPut id' art) () ∧ diskPath D id' = diskPath D id
    | .verifyAndDecrypt v ciphertext proofB64 root lens, ans =>
        ans = Crypto.verifyAndDecrypt D v ciphertext proofB64 root lens
    | _, _ => True

/-- Every file was written by a call. -/
def AllWritten (D : Deps) (w : World ρ) (L : RunLog ρ) : Prop :=
  ∀ path contents, w.disk path = some contents → ∃ j c id art,
    Did L j c (.diskPut id art) () ∧ path = diskPath D id ∧ D.artifactsToVec art = some contents

variable {w w' : World ρ} {L : RunLog ρ} {i : ℕ} {c : Call ρ}

lemma AllWritten.step [DecidableEq ρ] {op : Op} {ans : Ans op} (h : AllWritten D w L)
    (htr : World.trans D c op w ans w') : AllWritten D w' (L ++ [⟨i, c, op, ans⟩]) := by
  intro path contents hfile
  rcases World.disk_of_trans htr hfile with hold | ⟨id, art, rfl, hpath, hvec⟩
  · obtain ⟨j, c', id, art, hdid, hrest⟩ := h path contents hold
    exact ⟨j, c', id, art, hdid.mono (List.prefix_append _ _), hrest⟩
  · exact ⟨i, c, id, art, Did.last, hpath, hvec⟩

/-- A file that is read has the artifacts that some call wrote. -/
lemma AllWritten.read (h : AllWritten D w L) (hart : D.ArtifactsSpec) {id : String}
    {art : DiskArtifacts} (hget : w.getFile D id = some art) :
    ∃ j c' id', Did L j c' (.diskPut id' art) () ∧ diskPath D id' = diskPath D id := by
  obtain ⟨contents, hfile, hslice⟩ := Option.bind_eq_some_iff.1 hget
  obtain ⟨j, c', id', art', hdid, hpath, hvec⟩ := h _ _ hfile
  obtain rfl : art' = art := Option.some.inj ((hart _ _ hvec).symm.trans hslice)
  exact ⟨j, c', id', hdid, hpath.symm⟩

lemma disk_holds [DecidableEq ρ] (hart : D.ArtifactsSpec) {options : ρ → ResolveOptions} {p : RunPool ρ}
    (hp : (machine D options NoTampering).Reachable (World.new fun _ => none) p) :
    (diskContract D options).Holds (AllWritten D) (fun i c L r => Concluded D L i c r) p := by
  refine Contract.sound ?_ ?_ ?_ ?_ ?_ hp
  · intro path contents hfile
    exact absurd hfile (by simp [World.new])
  · intro i c L op w ans w' hinv _ htr
    cases op with
    | diskGet id =>
      obtain ⟨hans, -⟩ := htr
      intro art hart'
      exact hinv.read hart (hans.symm.trans hart')
    | verifyAndDecrypt v ct proofB64 root lens => exact htr.1
    | _ => trivial
  · intro i c L op w ans w' hinv _ htr
    exact hinv.step htr
  · intro w w' L _ htamper
    exact absurd htamper id
  · intro i c L
    exact (resolve_sat D options L i c).assuming (fun _ _ h => h) fun _ _ _ _ => trivial

/-! ### The same identity verifies alike -/

/-- What a call writes to the disk has verified, under a root of the resource of the call. -/
lemma verified_of_permitted_diskPut {options : ResolveOptions} {id : String} {art : DiskArtifacts}
    (h : Permitted D L i c options (.diskPut id art)) :
    ∃ v root bytes, Names D c v ∧ id = Resolver.cacheId v root ∧ RootSource L i c v root ∧
      Did L i c (.verifyAndDecrypt v art.ciphertext art.proofB64 root art.chunkLens) (.ok bytes) := by
  obtain ⟨v, root, f, hv, hid, hf, hroot, hart⟩ := h
  cases hf with
  | attested => cases hart
  | verified source did =>
    obtain rfl := Option.some.inj hroot
    obtain rfl := Option.some.inj hart
    exact ⟨v, _, _, hv, hid, source, did⟩

lemma diskPath_inj {id id' : String} (h : diskPath D id = diskPath D id') :
    D.sha256Hex id = D.sha256Hex id' := by
  rw [← String.toList_inj]
  have hlist := congrArg String.toList h
  simp only [diskPath, String.toList_append] at hlist
  exact List.append_cancel_right hlist

section Kept

variable {options : ρ → ResolveOptions} (hkept : (diskContract D options).Kept L)
include hkept

lemma verdict_of_kept {v : ParsedUrn} {ciphertext : Bytes} {proofB64 root : String}
    {lens : List UInt32} {ans : Except ResolveError Bytes}
    (hdid : Did L i c (.verifyAndDecrypt v ciphertext proofB64 root lens) ans) :
    ans = Crypto.verifyAndDecrypt D v ciphertext proofB64 root lens := by
  obtain ⟨L₁, -, -, hknown⟩ := hkept.of_mem hdid
  exact hknown

/-- Artifacts that were written verify for the writer, under a root without a colon. -/
lemma written_of_kept (hhex : D.FromHexSpec) {id : String} {art : DiskArtifacts}
    (hput : Did L i c (.diskPut id art) ()) :
    ∃ v root bytes, Names D c v ∧ id = Resolver.cacheId v root ∧ RootSource L i c v root ∧
      ':' ∉ root.toList ∧
      Crypto.verifyAndDecrypt D v art.ciphertext art.proofB64 root art.chunkLens = .ok bytes := by
  obtain ⟨L₁, hL₁, hpre, -⟩ := hkept.of_mem hput
  have hpermitted : Permitted D L₁ i c (options c.resolver) (.diskPut id art) := hpre
  obtain ⟨v, root, bytes, hv, hid, hsource, hran⟩ := verified_of_permitted_diskPut hpermitted
  have hok := (verdict_of_kept hkept (hran.mono hL₁)).symm
  have hcolon := Crypto.colon_notMem_of_verifyAndDecrypt_ok hhex hok
  exact ⟨v, root, bytes, hv, hid, hsource.mono hL₁, hcolon, hok⟩

/-- What is read verifies for the reader as it did for the writer. -/
lemma reverifies_of_kept (hhex : D.FromHexSpec) (hcanon : D.CanonicalSpec)
    (hverify : D.VerifySpec) (hsha : NoCollision D L) (hchains : ChainsAgree D L) {id root : String}
    {art : DiskArtifacts} {v : ParsedUrn} (hget : Did L i c (.diskGet id) (some art))
    (hv : Names D c v) (hpin : v.rootHex = some root) :
    ∃ bytes, Crypto.verifyAndDecrypt D v art.ciphertext art.proofB64 root art.chunkLens =
      .ok bytes := by
  obtain ⟨L₁, hL₁, ⟨v', root', hv', hpin', hid⟩, hknown⟩ := hkept.of_mem hget
  obtain rfl : v' = v := Except.ok.inj (hv'.symm.trans hv)
  obtain rfl : root' = root := Option.some.inj (hpin'.symm.trans hpin)
  obtain ⟨j, c', id', hput, hpath⟩ := hknown art rfl
  have hput' := hput.mono hL₁
  obtain ⟨v₀, r₀, bytes, hv₀, hid₀, hsource, hcolon, hok⟩ := written_of_kept hkept hhex hput'
  have hids : id' = id := hsha id' id (Or.inr ⟨j, c', art, hput'⟩) (Or.inl ⟨i, c, _, hget⟩)
    (diskPath_inj hpath)
  have heq : Resolver.cacheId v₀ r₀ = Resolver.cacheId v' root' := by
    rw [← hid₀, ← hid]
    exact hids
  obtain ⟨hstore, rfl, hkey, hsalt⟩ := Resolver.cacheId_inj hcolon
    (ParsedUrn.colon_notMem_rootHex hpin) heq
  have hchain := hchains _ hput' _ hget v₀ v' _ hv₀ hv hsource (.inl hpin) heq
  have hsame := hcanon v₀.urn v'.urn hchain (ParsedUrn.urn_storeIdHex_eq hstore) hkey
  refine ⟨bytes, ?_⟩
  rw [← hok, Crypto.verifyAndDecrypt_congr hverify hsame hsalt]

end Kept

/-- **No false alarm** in the runs of any number of resolvers on one directory that starts
empty, when URNs with the same identity agree on the chain label. -/
theorem disk_quiet [DecidableEq ρ] (hhex : D.FromHexSpec) (hcanon : D.CanonicalSpec)
    (hverify : D.VerifySpec) (hart : D.ArtifactsSpec) {options : ρ → ResolveOptions} {p : RunPool ρ}
    (hp : (machine D options NoTampering).Reachable (World.new fun _ => none) p)
    (hsha : NoCollision D p.log) (hchains : ChainsAgree D p.log) : DiskQuiet D p := by
  obtain ⟨-, hkept, hsat⟩ := disk_holds hart hp
  have hnoRemoval : ∀ i c id, ¬ Did p.log i c (.diskRemove id) () := by
    intro i c id hdid
    obtain ⟨L₁, hL₁, ⟨v, root, art, e, hv, hpin, rfl, hget, hran⟩, -⟩ := hkept.of_mem hdid
    obtain ⟨bytes, hok⟩ := reverifies_of_kept hkept hhex hcanon hverify hsha hchains
      (hget.mono hL₁) hv hpin
    have herr := verdict_of_kept hkept (hran.mono hL₁)
    exact absurd (herr.trans hok) (by simp)
  refine ⟨?_, hnoRemoval, fun i c hi => ?_⟩
  · intro i c id art v root hget hv hpin
    exact reverifies_of_kept hkept hhex hcanon hverify hsha hchains hget hv hpin
  · have hend : Concluded D p.log i c (.ok .integrityFailure) :=
      hsat i c _ hi p.log List.prefix_rfl
    rcases hend with ⟨id, hremove⟩ | hplan
    · exact absurd hremove (hnoRemoval i c id)
    · exact hplan

/-! ### A reader under another chain label, and one under the same -/

namespace DiskQuiet

/-- Two bytes, encrypted for the label `chia`, and a proof that folds to the root of 64 digits
`a`. -/
def artifacts : DiskArtifacts := ⟨[83, 1, 2], "qg==", []⟩

def deps : Deps := sample [] [(artifacts, Sample.ascii
  "\x7b\"ciphertext\":[83,1,2],\"proof_b64\":\"qg==\",\"chunk_lens\":[]\x7d")]

/-- A node that serves the ciphertext. -/
def cipherNode : World.Net where
  get _ := .ok ⟨200, [("x-dig-encrypted", "true"), ("x-dig-inclusion-proof", "qg==")], [83, 1, 2]⟩
  post _ _ := .error ⟨"connection refused"⟩
  loopback _ := false

/-- Two resolvers with the same cache directory. -/
def sharing : Bool → ResolveOptions :=
  fun _ => { endpoint := some "http://127.0.0.1:9778", cachePath := some "/cache" }

def callOf (r : Bool) (chain : String) : Call Bool := ⟨r, Sample.urn chain⟩

/-- After the first resolver has cached the file under the label `chia`. -/
def poolAfter : RunPool Bool :=
  afterAlone deps sharing cipherNode (callOf false "chia") ⟨World.new fun _ => none, [], []⟩

/-- The second resolver then asks for it under a label. -/
def poolAfterTwo (chain : String) : RunPool Bool :=
  afterAlone deps sharing cipherNode (callOf true chain) poolAfter

lemma reachable_poolAfterTwo (chain : String) :
    (machine deps sharing NoTampering).Reachable (World.new fun _ => none) (poolAfterTwo chain) :=
  reachable_afterAlone (reachable_afterAlone .refl _ _) _ _

/-- Whether an operation removes a file. -/
def isRemoval : Op → Bool
  | .diskRemove _ => true
  | _ => false

lemma exists_did_diskRemove {L : RunLog Bool} (h : L.any (fun e => isRemoval e.op) = true) :
    ∃ i c id, Did L i c (.diskRemove id) () := by
  obtain ⟨⟨i, c, op, ans⟩, he, hremoval⟩ := List.any_eq_true.1 h
  cases op with
  | diskRemove id => exact ⟨i, c, id, he⟩
  | _ => simp [isRemoval] at hremoval

lemma names_chia : Names deps (callOf false "chia") (Sample.parsed "chia") :=
  Sample.parse_urn_chia _ _

lemma names_mainnet : Names deps (callOf true "mainnet") (Sample.parsed "mainnet") :=
  Sample.parse_urn_mainnet _ _

lemma removal : (poolAfterTwo "mainnet").log.any (fun e => isRemoval e.op) = true := by
  rw [poolAfterTwo, log_afterAlone_of_parse names_mainnet, poolAfter, state_afterAlone,
    resultAlone_of_parse names_chia, List.any_append, List.any_map, Bool.or_eq_true]
  exact Or.inr (by decide +kernel)

/-- Asked under the label `mainnet`, the second resolver removes the file of the first one. -/
theorem not_diskQuiet_of_chains :
    ∃ p : RunPool Bool, (machine deps sharing NoTampering).Reachable (World.new fun _ => none) p ∧
      ¬ DiskQuiet deps p := by
  obtain ⟨i, c, id, hdid⟩ := exists_did_diskRemove removal
  exact ⟨poolAfterTwo "mainnet", reachable_poolAfterTwo "mainnet",
    fun hquiet => hquiet.noRemoval i c id hdid⟩

lemma urn_of_mem_poolAfterTwo {e : Entry (Call Bool) Op Ans}
    (he : e ∈ (poolAfterTwo "chia").log) : e.tag.urn = Sample.urn "chia" := by
  rcases mem_log_afterAlone he with he | ⟨-, htag⟩
  · rcases mem_log_afterAlone he with he | ⟨-, htag⟩
    · exact absurd he List.not_mem_nil
    · exact congrArg Call.urn htag
  · exact congrArg Call.urn htag

/-- Asked under the label `chia`, the second resolver keeps the file of the first one. -/
theorem disk_quiet_of_one_chain : DiskQuiet deps (poolAfterTwo "chia") := by
  have hsha : NoCollision deps (poolAfterTwo "chia").log := by
    intro id id' _ _ h
    exact h
  have hchains : ChainsAgree deps (poolAfterTwo "chia").log := by
    intro e he e' he' u v root hu hv _ _ _
    have hsame : e.tag.urn = e'.tag.urn :=
      (urn_of_mem_poolAfterTwo he).trans (urn_of_mem_poolAfterTwo he').symm
    rw [Names, hsame] at hu
    rw [Except.ok.inj (hu.symm.trans hv)]
  exact disk_quiet (sample_fromHexSpec _ _) (sample_canonicalSpec _ _) (sample_verifySpec _ _)
    (sample_artifactsSpec _ _ _) (reachable_poolAfterTwo "chia") hsha hchains

end DiskQuiet

end DigUrnResolver
