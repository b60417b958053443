/-
# What the caches answer

Before it asks anybody, a resolve of a pinned URN consults the memory and the cache directory.
`Consulted` lists the conversations in which it may do so, and `cacheVerdict` is what they come
to in a given world.  Behind the caches, only a success changes them.
-/
import DigUrnResolver.Ladder.Walk
import DigUrnResolver.Session.Calls

namespace DigUrnResolver

open Interaction

namespace Resolver

/-- The operation is one of the caches. -/
def IsCacheOp : Op → Prop
  | .memoryGet _ | .memoryPut _ _ | .diskGet _ | .diskPut _ _ | .diskRemove _ => True
  | _ => False

/-- The refusal of an artifact that counts as tampering. -/
def Tampered (e : ResolveError) : Prop := (∃ message, e = .verifyFailed message) ∨ e = .decryptFailed

/-- The verification of an artifact that was read under a root. -/
def reverification (parsed : ParsedUrn) (root : String) (art : DiskArtifacts) : Op :=
  .verifyAndDecrypt parsed art.ciphertext art.proofB64 root art.chunkLens

/-- The conversations with the caches, and the outcome if a cache answers. -/
inductive Consulted (options : ResolveOptions) (parsed : ParsedUrn) :
    List (Event Op Ans) → Option ResolveOutcome → Prop
  | rootless (hroot : parsed.rootHex = none) : Consulted options parsed [] none
  | hit {root : String} {data : ResolvedData} (hroot : parsed.rootHex = some root) :
      Consulted options parsed [⟨.memoryGet (cacheId parsed root), some data⟩]
        (some (.success data))
  | noDirectory {root : String} (hroot : parsed.rootHex = some root)
      (hpath : options.cachePath = none) :
      Consulted options parsed [⟨.memoryGet (cacheId parsed root), none⟩] none
  | noFile {root path : String} (hroot : parsed.rootHex = some root)
      (hpath : options.cachePath = some path) :
      Consulted options parsed [⟨.memoryGet (cacheId parsed root), none⟩,
        ⟨.diskGet (cacheId parsed root), none⟩] none
  | verified {root path : String} {art : DiskArtifacts} {bytes : Bytes}
      (hroot : parsed.rootHex = some root) (hpath : options.cachePath = some path) :
      Consulted options parsed [⟨.memoryGet (cacheId parsed root), none⟩,
        ⟨.diskGet (cacheId parsed root), some art⟩,
        ⟨reverification parsed root art, .ok bytes⟩,
        ⟨.memoryPut (cacheId parsed root) ⟨bytes, deriveContentType parsed.resourceKey bytes⟩, ()⟩]
        (some (.success ⟨bytes, deriveContentType parsed.resourceKey bytes⟩))
  | refused {root path : String} {art : DiskArtifacts} {e : ResolveError}
      {answer : Option ResolveOutcome} (hroot : parsed.rootHex = some root)
      (hpath : options.cachePath = some path)
      (hanswer : Tampered e ∧ answer = some .integrityFailure ∨ ¬ Tampered e ∧ answer = none) :
      Consulted options parsed [⟨.memoryGet (cacheId parsed root), none⟩,
        ⟨.diskGet (cacheId parsed root), some art⟩, ⟨reverification parsed root art, .error e⟩,
        ⟨.diskRemove (cacheId parsed root), ()⟩] answer

variable {D : Deps} {options : ResolveOptions} {parsed : ParsedUrn} {t : List (Event Op Ans)}
  {answer : Option ResolveOutcome}

/-- **Every consultation is one of these.** -/
lemma trace_consult (h : (consult options parsed).Trace t answer) :
    Consulted options parsed t answer := by
  rw [consult] at h
  cases hroot : parsed.rootHex with
  | none =>
    rw [hroot] at h
    obtain ⟨rfl, rfl⟩ := Program.trace_ret_iff.1 h
    exact .rootless hroot
  | some root =>
    rw [hroot] at h
    obtain ⟨found, rest, rfl, hrest⟩ := Program.trace_call_iff.1 h
    cases found with
    | some data =>
      obtain ⟨rfl, rfl⟩ := Program.trace_ret_iff.1 hrest
      exact .hit hroot
    | none =>
      obtain ⟨verdict, front, back, rfl, hdisk, hback⟩ := (Program.trace_bind_iff
        (p := diskGetVerified options parsed (cacheId parsed root))).1 hrest
      rw [diskGetVerified] at hdisk
      cases hpath : options.cachePath with
      | none =>
        rw [hpath] at hdisk
        obtain ⟨rfl, rfl⟩ := Program.trace_ret_iff.1 hdisk
        obtain ⟨rfl, rfl⟩ := Program.trace_ret_iff.1 hback
        exact .noDirectory hroot hpath
      | some path =>
        rw [hpath, hroot] at hdisk
        obtain ⟨file, _, rfl, hfile⟩ := Program.trace_call_iff.1 hdisk
        cases file with
        | none =>
          obtain ⟨rfl, rfl⟩ := Program.trace_ret_iff.1 hfile
          obtain ⟨rfl, rfl⟩ := Program.trace_ret_iff.1 hback
          exact .noFile hroot hpath
        | some art =>
          obtain ⟨checked, _, rfl, hchecked⟩ := Program.trace_call_iff.1 hfile
          cases checked with
          | ok bytes =>
            obtain ⟨rfl, rfl⟩ := Program.trace_ret_iff.1 hchecked
            obtain ⟨_, _, rfl, hput⟩ := Program.trace_call_iff.1 hback
            obtain ⟨rfl, rfl⟩ := Program.trace_ret_iff.1 hput
            exact .verified hroot hpath
          | error e =>
            cases e with
            | verifyFailed message =>
              obtain ⟨_, _, rfl, hremove⟩ := Program.trace_call_iff.1 hchecked
              obtain ⟨rfl, rfl⟩ := Program.trace_ret_iff.1 hremove
              obtain ⟨rfl, rfl⟩ := Program.trace_ret_iff.1 hback
              exact .refused hroot hpath (Or.inl ⟨Or.inl ⟨message, rfl⟩, rfl⟩)
            | decryptFailed =>
              obtain ⟨_, _, rfl, hremove⟩ := Program.trace_call_iff.1 hchecked
              obtain ⟨rfl, rfl⟩ := Program.trace_ret_iff.1 hremove
              obtain ⟨rfl, rfl⟩ := Program.trace_ret_iff.1 hback
              exact .refused hroot hpath (Or.inl ⟨Or.inr rfl, rfl⟩)
            | parse | transport | rpc | notFound | rootRequired =>
              obtain ⟨_, _, rfl, hremove⟩ := Program.trace_call_iff.1 hchecked
              obtain ⟨rfl, rfl⟩ := Program.trace_ret_iff.1 hremove
              obtain ⟨rfl, rfl⟩ := Program.trace_ret_iff.1 hback
              exact .refused hroot hpath (Or.inr ⟨by simp [Tampered], rfl⟩)

/-! ### Behind the caches -/

lemma offCache_plan : (Resolver.plan D options).Only fun op => ¬ IsCacheOp op := by
  refine ⟨id, fun cached => ?_⟩
  cases cached with
  | some plan => trivial
  | none =>
    have hbuild : (buildPlan D options.endpoint).Only fun op => ¬ IsCacheOp op := by
      refine (only_buildPlan _).imp fun op h => ?_
      rcases h with h | ⟨tier, -, rfl⟩
      · cases op with
        | resolvesToLoopback => exact id
        | _ => exact absurd h id
      · exact id
    exact hbuild.bind fun plan => ⟨id, fun _ => trivial⟩

/-- To collect the windows, nothing is done but to request them. -/
lemma asks_collect (base root : String) (windows : ℕ) (st : Rpc.Assembly) :
    (Rpc.collect D base parsed root windows st).Only IsRequest := by
  fun_induction Rpc.collect D base parsed root windows st with
  | case1 => trivial
  | case2 windows st h ih =>
    refine Program.Only.bind ⟨trivial, fun answer => ?_⟩ fun r => ?_
    · cases answer <;> trivial
    · cases r with
      | error e => trivial
      | ok r =>
        dsimp only
        rcases Rpc.absorb D st r with e | ⟨st', b⟩
        · trivial
        · cases b with
          | true => trivial
          | false => exact ih st'

lemma only_collect (base root : String) (windows : ℕ) (st : Rpc.Assembly) :
    (Rpc.collect D base parsed root windows st).Only fun op => IsRequest op ∨ IsVerification op :=
  (asks_collect base root windows st).imp fun _ => Or.inl

/-- A fetch sends requests and verifies what it gets. -/
lemma only_fetchFrom (endpoint : Endpoint) :
    (fetchFrom D endpoint parsed).Only fun op => IsRequest op ∨ IsVerification op := by
  rw [fetchFrom]
  cases endpoint.kind with
  | node =>
    refine ⟨Or.inl trivial, fun answer => ?_⟩
    cases answer with
    | error e => trivial
    | ok resp => exact (only_accept resp).imp fun _ => Or.inr
  | rpc =>
    dsimp only
    rw [Rpc.fetch]
    cases Rpc.trustedRoot parsed with
    | error e => trivial
    | ok root =>
      refine (only_collect _ root 0 {}).bind fun r => ?_
      cases r with
      | error e => trivial
      | ok st =>
        refine ⟨Or.inr trivial, fun verdict => ?_⟩
        cases verdict <;> trivial

lemma offCache_fetchFrom (endpoint : Endpoint) :
    (fetchFrom D endpoint parsed).Only fun op => ¬ IsCacheOp op := by
  refine (only_fetchFrom endpoint).imp fun op h => ?_
  cases op with
  | get | postJson | verifyAndDecrypt => exact id
  | _ => exact absurd h (not_or.2 ⟨id, id⟩)

/-! ### What a success stores -/

/-- The ways in which a fetch may succeed: a node attests the body of its reply, or the read-crypto
opens a ciphertext, at the end of the conversation. -/
inductive FetchedBy (endpoint : Endpoint) (parsed : ParsedUrn) :
    List (Event Op Ans) → Fetched → Prop
  | attested {resp : HttpResponse} (success : resp.isSuccess = true)
      (verified : Node.verifiedPlaintext resp = true) :
      FetchedBy endpoint parsed [⟨.get (Node.serveUrl endpoint.base parsed), .ok resp⟩]
        ⟨⟨resp.body, (Node.headerContentType resp).getD
          (deriveContentType parsed.resourceKey resp.body)⟩, Node.nodeRoot parsed resp, none⟩
  | decrypted {front : List (Event Op Ans)} {ciphertext bytes : Bytes} {proofB64 root : String}
      {lens : List UInt32} (pinned : ∀ r, parsed.rootHex = some r → root = r) :
      FetchedBy endpoint parsed
        (front ++ [⟨.verifyAndDecrypt parsed ciphertext proofB64 root lens, .ok bytes⟩])
        ⟨⟨bytes, deriveContentType parsed.resourceKey bytes⟩, some root,
          some ⟨ciphertext, proofB64, lens⟩⟩

lemma trace_nodeFetch {endpoint : Endpoint} {fetched : Fetched}
    (h : (Node.fetch endpoint.base parsed).Trace t (.ok fetched)) :
    FetchedBy endpoint parsed t fetched := by
  obtain ⟨answer, rest, rfl, hrest⟩ := Program.trace_call_iff.1 h
  cases answer with
  | error e => cases (Program.trace_ret_iff.1 hrest).2
  | ok resp =>
    change (Node.accept parsed resp).Trace rest (.ok fetched) at hrest
    rw [Node.accept] at hrest
    split_ifs at hrest with h404 hsuccess hverified hcipher
    · cases (Program.trace_ret_iff.1 hrest).2
    · cases (Program.trace_ret_iff.1 hrest).2
    · obtain ⟨rfl, heq⟩ := Program.trace_ret_iff.1 hrest
      obtain rfl := Except.ok.inj heq
      exact .attested (by simpa using hsuccess) hverified
    · rw [Node.acceptCiphertext] at hrest
      cases hproof : resp.header "x-dig-inclusion-proof" with
      | none =>
        rw [hproof] at hrest
        cases (Program.trace_ret_iff.1 hrest).2
      | some proof =>
        cases hroot : Node.nodeRoot parsed resp with
        | none =>
          rw [hproof, hroot] at hrest
          cases (Program.trace_ret_iff.1 hrest).2
        | some root =>
          cases hlens : Node.parseChunkLens (resp.header "x-dig-chunk-lens") with
          | error e =>
            rw [hproof, hroot, hlens] at hrest
            cases (Program.trace_ret_iff.1 hrest).2
          | ok lens =>
            rw [hproof, hroot, hlens] at hrest
            obtain ⟨verdict, _, rfl, hverdict⟩ := Program.trace_call_iff.1 hrest
            cases verdict with
            | error e => cases (Program.trace_ret_iff.1 hverdict).2
            | ok bytes =>
              obtain ⟨rfl, heq⟩ := Program.trace_ret_iff.1 hverdict
              obtain rfl := Except.ok.inj heq
              refine @FetchedBy.decrypted endpoint parsed [_] _ _ _ _ _ ?_
              intro r hr
              exact Option.some.inj (hroot.symm.trans (Node.nodeRoot_of_pinned hr resp))
    · cases (Program.trace_ret_iff.1 hrest).2

/-- **Every fetch that succeeds does so in one of these ways.** -/
lemma trace_fetched {endpoint : Endpoint} {fetched : Fetched}
    (h : (fetchFrom D endpoint parsed).Trace t (.ok fetched)) :
    FetchedBy endpoint parsed t fetched := by
  rw [fetchFrom] at h
  cases hkind : endpoint.kind with
  | node =>
    rw [hkind] at h
    exact trace_nodeFetch h
  | rpc =>
    rw [hkind] at h
    have hfetches := Rpc.trace_fetch h
    generalize hok : Except.ok fetched = result at hfetches
    cases hfetches with
    | rootless => cases hok
    | failed => cases hok
    | assembled hroot hrounds verdict =>
      cases verdict with
      | error e => cases hok
      | ok bytes =>
        obtain rfl := Except.ok.inj hok
        refine .decrypted ?_
        intro r hr
        exact Option.some.inj (hroot.symm.trans hr)

/-- Of a pinned URN, what is fetched is under the pinned root. -/
lemma FetchedBy.root_eq {endpoint : Endpoint} {fetched : Fetched} {root : String}
    (h : FetchedBy endpoint parsed t fetched) (hroot : parsed.rootHex = some root) :
    fetched.root = some root := by
  cases h with
  | attested => exact Node.nodeRoot_of_pinned hroot _
  | decrypted pinned => exact congrArg some (pinned root hroot)

/-- What is stored of a fetch under a concrete root. -/
lemma trace_cacheSuccess {fetched : Fetched} {root : String} (hroot : fetched.root = some root)
    (h : (cacheSuccess options parsed fetched).Trace t ()) :
    ∃ rest, t = ⟨.memoryPut (cacheId parsed root) fetched.data, ()⟩ :: rest ∧
      (rest = [] ∨ ∃ art, rest = [⟨.diskPut (cacheId parsed root) art, ()⟩]) ∧
      ∀ path art, options.cachePath = some path → fetched.artifacts = some art →
        rest = [⟨.diskPut (cacheId parsed root) art, ()⟩] := by
  rw [cacheSuccess, hroot] at h
  obtain ⟨_, rest, rfl, hrest⟩ := Program.trace_call_iff.1 h
  refine ⟨rest, rfl, ?_⟩
  cases hpath : options.cachePath with
  | none =>
    rw [hpath] at hrest
    obtain ⟨rfl, -⟩ := Program.trace_ret_iff.1 hrest
    exact ⟨Or.inl rfl, by simp⟩
  | some path =>
    rw [hpath] at hrest
    cases hart : fetched.artifacts with
    | none =>
      rw [hart] at hrest
      obtain ⟨rfl, -⟩ := Program.trace_ret_iff.1 hrest
      exact ⟨Or.inl rfl, by simp⟩
    | some art =>
      rw [hart] at hrest
      obtain ⟨_, rest, rfl, hput⟩ := Program.trace_call_iff.1 hrest
      obtain ⟨rfl, -⟩ := Program.trace_ret_iff.1 hput
      refine ⟨Or.inr ⟨art, rfl⟩, ?_⟩
      rintro _ art' - h'
      rw [Option.some.inj h']

end Resolver

/-! ### The verdict of the caches -/

lemma MemoryCache.get_fst (cache : MemoryCache) (id : String) :
    (cache.get id).1 = (cache.map.lookup id).map CacheEntry.data := by
  rw [MemoryCache.get]
  cases cache.map.lookup id with
  | none => rfl
  | some entry => rfl

lemma World.getFile_congr {ρ : Type} {D : Deps} {w w' : World ρ} (h : w'.disk = w.disk) (id : String) :
    w'.getFile D id = w.getFile D id := by
  rw [World.getFile, World.getFile, h]

/-- What the artifacts of a file come to under a root. -/
def reverified (D : Deps) (parsed : ParsedUrn) (root : String) (art : DiskArtifacts) :
    Option ResolveOutcome :=
  match Crypto.verifyAndDecrypt D parsed art.ciphertext art.proofB64 root art.chunkLens with
  | .ok bytes => some (.success ⟨bytes, deriveContentType parsed.resourceKey bytes⟩)
  | .error (.verifyFailed _) | .error .decryptFailed => some .integrityFailure
  | .error _ => none

/-- What the directory answers for a pinned URN. -/
def World.diskVerdict {ρ : Type} (D : Deps) (options : ResolveOptions) (parsed : ParsedUrn)
    (root : String) (w : World ρ) : Option ResolveOutcome :=
  match options.cachePath with
  | none => none
  | some _ => (w.getFile D (Resolver.cacheId parsed root)).bind (reverified D parsed root)

/-- What the caches of a resolver answer. -/
def World.cacheVerdict {ρ : Type} (D : Deps) (options : ResolveOptions) (parsed : ParsedUrn) (r : ρ)
    (w : World ρ) : Option ResolveOutcome :=
  match parsed.rootHex with
  | none => none
  | some root =>
    match (w.inst r).memory.map.lookup (Resolver.cacheId parsed root) with
    | some entry => some (.success entry.data)
    | none => w.diskVerdict D options parsed root

section Verdict

variable {ρ : Type} [DecidableEq ρ] {D : Deps} {options : ResolveOptions} {parsed : ParsedUrn}
  {w w' : World ρ} {c : Call ρ} {t : List (Event Op Ans)} {answer : Option ResolveOutcome}
  {root id : String} {found : Option ResolvedData}

lemma lookup_of_memoryGet (htr : World.trans D c (.memoryGet id) w found w') :
    ((w.inst c.resolver).memory.map.lookup id).map CacheEntry.data = found :=
  ((MemoryCache.get_fst _ id).symm.trans htr.1.symm)

lemma lookup_eq_none_of_memoryGet (htr : World.trans D c (.memoryGet id) w none w') :
    (w.inst c.resolver).memory.map.lookup id = none :=
  Option.map_eq_none_iff.1 (lookup_of_memoryGet htr)

lemma reverified_of_refused {art : DiskArtifacts} {e : ResolveError}
    (hverify : Crypto.verifyAndDecrypt D parsed art.ciphertext art.proofB64 root art.chunkLens =
      .error e)
    (hanswer : Resolver.Tampered e ∧ answer = some .integrityFailure ∨
      ¬ Resolver.Tampered e ∧ answer = none) : reverified D parsed root art = answer := by
  rw [reverified, hverify]
  rcases hanswer with ⟨⟨message, rfl⟩ | rfl, rfl⟩ | ⟨hnot, rfl⟩
  · rfl
  · rfl
  · cases e with
    | verifyFailed message => exact absurd (Or.inl ⟨message, rfl⟩) hnot
    | decryptFailed => exact absurd (Or.inr rfl) hnot
    | _ => rfl

/-- **A consultation comes to the verdict of the caches.** -/
lemma Resolver.Consulted.verdict (h : Resolver.Consulted options parsed t answer)
    (htalks : Talks (World.trans D c) w t w') :
    w.cacheVerdict D options parsed c.resolver = answer := by
  rw [World.cacheVerdict]
  cases h with
  | rootless hroot => rw [hroot]
  | hit hroot =>
    obtain ⟨w₁, hget, -⟩ := Talks.cons_iff.1 htalks
    obtain ⟨entry, hlookup, hdata⟩ := Option.map_eq_some_iff.1 (lookup_of_memoryGet hget)
    simp only [hroot, hlookup, hdata]
  | noDirectory hroot hpath =>
    obtain ⟨w₁, hget, -⟩ := Talks.cons_iff.1 htalks
    simp only [hroot, lookup_eq_none_of_memoryGet hget, World.diskVerdict, hpath]
  | noFile hroot hpath =>
    obtain ⟨w₁, hget, hrest⟩ := Talks.cons_iff.1 htalks
    obtain ⟨w₂, hfile, -⟩ := Talks.cons_iff.1 hrest
    have hnone : w.getFile D _ = none :=
      (World.getFile_congr (World.disk_after_trans hget) _).symm.trans hfile.1.symm
    simp only [hroot, lookup_eq_none_of_memoryGet hget, World.diskVerdict, hpath, hnone,
      Option.bind_none]
  | @verified root path art bytes hroot hpath =>
    obtain ⟨w₁, hget, hrest⟩ := Talks.cons_iff.1 htalks
    obtain ⟨w₂, hfile, hrest⟩ := Talks.cons_iff.1 hrest
    obtain ⟨w₃, hcheck, -⟩ := Talks.cons_iff.1 hrest
    have hsome : w.getFile D _ = some art :=
      (World.getFile_congr (World.disk_after_trans hget) _).symm.trans hfile.1.symm
    have hverify : Crypto.verifyAndDecrypt D parsed art.ciphertext art.proofB64 root
        art.chunkLens = .ok bytes := hcheck.1.symm
    simp only [hroot, lookup_eq_none_of_memoryGet hget, World.diskVerdict, hpath, hsome,
      Option.bind_some, reverified, hverify]
  | @refused root path art e answer hroot hpath hanswer =>
    obtain ⟨w₁, hget, hrest⟩ := Talks.cons_iff.1 htalks
    obtain ⟨w₂, hfile, hrest⟩ := Talks.cons_iff.1 hrest
    obtain ⟨w₃, hcheck, -⟩ := Talks.cons_iff.1 hrest
    have hsome : w.getFile D _ = some art :=
      (World.getFile_congr (World.disk_after_trans hget) _).symm.trans hfile.1.symm
    have hverify : Crypto.verifyAndDecrypt D parsed art.ciphertext art.proofB64 root
        art.chunkLens = .error e := hcheck.1.symm
    simp only [hroot, lookup_eq_none_of_memoryGet hget, World.diskVerdict, hpath, hsome,
      Option.bind_some, reverified_of_refused hverify hanswer]

/-- A consultation that ends in success leaves the directory alone. -/
lemma Resolver.Consulted.disk_of_success {data : ResolvedData}
    (h : Resolver.Consulted options parsed t (some (.success data)))
    (htalks : Talks (World.trans D c) w t w') : w'.disk = w.disk := by
  generalize ho : some (ResolveOutcome.success data) = answer at h
  have hquiet : ∀ e ∈ t, ∀ disk, World.diskAfter D disk e.op = disk := by
    cases h with
    | hit | verified => simp [World.diskAfter, Resolver.reverification]
    | refused _ _ hcases =>
      rcases hcases with ⟨-, rfl⟩ | ⟨-, rfl⟩
      · cases ho
      · cases ho
    | _ => cases ho
  refine htalks.invariant (I := fun s => s.disk = w.disk) rfl ?_
  intro e he s s' hs htr
  rw [World.disk_after_trans htr, hquiet e he]
  exact hs

/-- What the caches answer is the result, and nobody is asked. -/
lemma Resolves.of_cacheVerdict {options : ρ → ResolveOptions} {outcome : ResolveOutcome}
    {r : Except ResolveError ResolveOutcome} (h : Resolves D options c w t r w')
    (hparse : ParsedUrn.parse D c.urn = .ok parsed)
    (hverdict : w.cacheVerdict D (options c.resolver) parsed c.resolver = some outcome) :
    r = .ok outcome ∧ Resolver.requests t = [] := by
  obtain ⟨htrace, htalks⟩ := h
  cases Resolver.trace_resolveParsed (Resolver.trace_of_parse hparse htrace) with
  | cached hconsult =>
    have heq := (Resolver.trace_consult hconsult).verdict htalks
    rw [Option.some.inj (hverdict.symm.trans heq)]
    exact ⟨rfl, Resolver.requests_eq_nil.2 (hconsult.of_only Resolver.quiet_consult)⟩
  | walked hconsult =>
    rw [List.append_assoc] at htalks
    obtain ⟨w₁, hfront, -⟩ := Talks.append_iff.1 htalks
    cases hverdict.symm.trans ((Resolver.trace_consult hconsult).verdict hfront)

/-- **A success without a request comes from a cache.** -/
lemma Resolves.cacheVerdict_of_quiet {options : ρ → ResolveOptions} {data : ResolvedData}
    (h : Resolves D options c w t (.ok (.success data)) w')
    (hparse : ParsedUrn.parse D c.urn = .ok parsed) (hquiet : Resolver.requests t = []) :
    w.cacheVerdict D (options c.resolver) parsed c.resolver = some (.success data) := by
  obtain ⟨htrace, htalks⟩ := h
  have hresolved := Resolver.trace_resolveParsed (Resolver.trace_of_parse hparse htrace)
  rcases hresolved.of_success with hconsult | ⟨front, x, stored, fetched, rfl, hx, hresult, -, -⟩
  · exact (Resolver.trace_consult hconsult).verdict htalks
  · -- the visit that succeeded was a request at least
    simp only [Resolver.requests_append, List.append_eq_nil_iff] at hquiet
    obtain ⟨⟨-, hnothing⟩, -⟩ := hquiet
    have hcontacts := hx.2
    rw [Resolver.Visit.Contacts] at hcontacts
    cases hkind : x.endpoint.kind with
    | node =>
      rw [hkind] at hcontacts
      cases hnothing.symm.trans hcontacts
    | rpc =>
      rw [hkind] at hcontacts
      cases hresult.symm.trans (hcontacts.2 hnothing)

end Verdict

end DigUrnResolver
