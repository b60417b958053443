/-
# What becomes of the files of a host

The clients of a page share the files of their host, and the disk cache names a file by the hash of
an identity.  Whatever the functions of the host do, and whatever is replied to the calls: of each
call the host is asked to create the directory of the client, to unlink a file whose contents were
refused, and to write artifacts that were verified, nothing else, and nowhere else.
-/
import DigUrnResolver.Session.Failure
import DigUrnResolver.Session.NodeHost

namespace DigUrnResolver.Js

open Interaction

variable {φ : Type}

/-- The file of a resource at a root. -/
def cacheFile (D : Deps) (dir : String) (v : ParsedUrn) (root : String) : String :=
  dir ++ "/" ++ diskPath D (Resolver.cacheId v root)

/-- What the consultation of a cache makes of the files: the file of the URN is unlinked if there
are artifacts in it that do not verify under the pinned root. -/
inductive Cleared (D : Deps) (fs : NodeFs φ) (dir : String) (v : ParsedUrn) (files : φ) : φ → Prop
  | nothing : Cleared D fs dir v files files
  | refused {root : String} {contents : Bytes} {art : DiskArtifacts} {e : ResolveError}
      (pinned : v.rootHex = some root)
      (file : fs.readFileSync (cacheFile D dir v root) files = some contents)
      (artifacts : D.artifactsFromSlice contents = some art)
      (refused : Crypto.verifyAndDecrypt D v art.ciphertext art.proofB64 root art.chunkLens =
        .error e) :
      Cleared D fs dir v files (fs.unlinkSync (cacheFile D dir v root) files)

/-- What a walk makes of the files: artifacts that verified are written to the file of their
resource. -/
inductive Stored (D : Deps) (fs : NodeFs φ) (dir : String) (v : ParsedUrn) (files : φ) : φ → Prop
  | nothing : Stored D fs dir v files files
  | verified {root : String} {art : DiskArtifacts} {content contents : Bytes}
      (pinned : ∀ r, v.rootHex = some r → root = r)
      (verified : Crypto.verifyAndDecrypt D v art.ciphertext art.proofB64 root art.chunkLens =
        .ok content)
      (artifacts : D.artifactsToVec art = some contents) :
      Stored D fs dir v files (fs.writeFileSync (cacheFile D dir v root) contents files)

/-- What a call makes of the files: the directory of the client is created, and the file of the URN
may be cleared and written. -/
inductive Tends (D : Deps) (fs : NodeFs φ) (c : DigNetwork × JsCall) (files : φ) : φ → Prop
  | noDirectory (hpath : (Wasm.options c.1.endpoint c.1.cachePath).cachePath = none) :
      Tends D fs c files files
  | noUrn {e : ResolveError} (hpath : (Wasm.options c.1.endpoint c.1.cachePath).cachePath ≠ none)
      (hparse : ParsedUrn.parse D c.2.urn = .error e) :
      Tends D fs c files (fs.mkdirSync (directory c.1) files)
  | resolved {v : ParsedUrn} {mid files' : φ}
      (hpath : (Wasm.options c.1.endpoint c.1.cachePath).cachePath ≠ none)
      (hparse : ParsedUrn.parse D c.2.urn = .ok v)
      (hcleared : Cleared D fs (directory c.1) v (fs.mkdirSync (directory c.1) files) mid)
      (hstored : Stored D fs (directory c.1) v mid files') : Tends D fs c files files'

/-- What the calls of a session make of the files, one after the other. -/
inductive TendsAll (D : Deps) (fs : NodeFs φ) : List (DigNetwork × JsCall) → φ → φ → Prop
  | nil (files : φ) : TendsAll D fs [] files files
  | cons {c : DigNetwork × JsCall} {rest : List (DigNetwork × JsCall)} {files files' files'' : φ}
      (h : Tends D fs c files files') (hrest : TendsAll D fs rest files' files'') :
      TendsAll D fs (c :: rest) files files''

/-- A session of the clients of a page. -/
abbrev session (D : Deps) (transport : Program.Oracle Op Ans) :
    Page φ → List (DigNetwork × JsCall) → Page φ :=
  final fun page c => step D transport c.1 page c.2

variable {D : Deps} {transport : Program.Oracle Op Ans} {cache : Option DiskWasm.DiskCache}
  {s s' : Instance × Page φ} {t : List (Event Op Ans)} {fs : NodeFs φ} {dir : String}
  {o : ResolveOptions} {v : ParsedUrn} {files : φ}

/-! ### Conversations of a resolver with its surroundings -/

/-- A resolver over a host, as surroundings of its calls. -/
def Responds (D : Deps) (transport : Program.Oracle Op Ans) (cache : Option DiskWasm.DiskCache)
    (op : Op) (s : Instance × Page φ) (ans : Ans op) (s' : Instance × Page φ) : Prop :=
  ans = (respond D transport cache op s).1 ∧ s' = (respond D transport cache op s).2

/-- Without an operation of the disk cache, the host stays as it is. -/
lemma host_of_talks (h : Talks (Responds D transport cache) s t s')
    (ht : ∀ e ∈ t, inert e.op = none) : s'.2.host = s.2.host := by
  refine h.invariant (I := fun u => u.2.host = s.2.host) rfl ?_
  rintro ⟨op, ans⟩ he u _ hu ⟨-, rfl⟩
  rw [host_respond (ht _ he)]
  exact hu

/-- Nor does it change without files. -/
lemma host_of_talks_of_no_slot (h : Talks (Responds D transport cache) s t s')
    (hslot : s.2.host.slot = none) : s'.2.host = s.2.host := by
  refine h.invariant (I := fun u => u.2.host = s.2.host) rfl ?_
  rintro ⟨op, ans⟩ - u _ hu ⟨-, rfl⟩
  cases hop : inert op with
  | none =>
    rw [host_respond hop]
    exact hu
  | some ans' =>
    rw [respond_of_no_slot (hu ▸ hslot) hop]
    exact hu

/-- The consultation clears a file at most. -/
lemma cleared_of_consulted {answer : Option ResolveOutcome}
    (h : Resolver.Consulted o v t answer) (hs : s.2.host = ⟨some fs, files⟩)
    (htalks : Talks (Responds D transport (some ⟨dir⟩)) s t s') :
    ∃ files', s'.2.host = ⟨some fs, files'⟩ ∧ Cleared D fs dir v files files' := by
  have hquiet : (∀ e ∈ t, inert e.op = none) →
      ∃ files', s'.2.host = ⟨some fs, files'⟩ ∧ Cleared D fs dir v files files' :=
    fun ht => ⟨files, (host_of_talks htalks ht).trans hs, .nothing⟩
  cases h with
  | rootless | hit | noDirectory => exact hquiet (by simp [inert])
  | noFile hroot hpath =>
    obtain ⟨s₁, ⟨-, rfl⟩, hrest⟩ := Talks.cons_iff.1 htalks
    obtain ⟨s₂, ⟨-, rfl⟩, hrest⟩ := Talks.cons_iff.1 hrest
    obtain rfl := Talks.nil_iff.1 hrest
    exact ⟨files, hs, .nothing⟩
  | verified hroot hpath =>
    obtain ⟨s₁, ⟨-, rfl⟩, hrest⟩ := Talks.cons_iff.1 htalks
    obtain ⟨s₂, ⟨-, rfl⟩, hrest⟩ := Talks.cons_iff.1 hrest
    refine ⟨files, ?_, .nothing⟩
    rw [host_of_talks hrest (by simp [inert, Resolver.reverification])]
    exact hs
  | @refused root _ art e _ hroot hpath hanswer =>
    obtain ⟨s₁, ⟨-, rfl⟩, hrest⟩ := Talks.cons_iff.1 htalks
    obtain ⟨s₂, ⟨hfound, rfl⟩, hrest⟩ := Talks.cons_iff.1 hrest
    obtain ⟨s₃, ⟨hcheck, rfl⟩, hrest⟩ := Talks.cons_iff.1 hrest
    obtain ⟨s₄, ⟨-, rfl⟩, hrest⟩ := Talks.cons_iff.1 hrest
    obtain rfl := Talks.nil_iff.1 hrest
    obtain ⟨r, host, past⟩ := s
    obtain rfl : host = ⟨some fs, files⟩ := hs
    have hget : some art = (fs.readFileSync (cacheFile D dir v root) files).bind
        D.artifactsFromSlice := hfound
    obtain ⟨contents, hfile, hart⟩ := Option.bind_eq_some_iff.1 hget.symm
    exact ⟨fs.unlinkSync (cacheFile D dir v root) files, rfl, .refused hroot hfile hart hcheck.symm⟩

/-- What follows a fetch stores what was verified in it. -/
lemma stored_of_cacheSuccess {fetched : Fetched} (hpath : o.cachePath ≠ none)
    (hart : ∀ root art, fetched.root = some root → fetched.artifacts = some art →
      (∀ r, v.rootHex = some r → root = r) ∧ ∃ content, Crypto.verifyAndDecrypt D v art.ciphertext
        art.proofB64 root art.chunkLens = .ok content)
    (h : (Resolver.cacheSuccess o v fetched).Trace t ()) (hs : s.2.host = ⟨some fs, files⟩)
    (htalks : Talks (Responds D transport (some ⟨dir⟩)) s t s') :
    ∃ files', s'.2.host = ⟨some fs, files'⟩ ∧ Stored D fs dir v files files' := by
  obtain ⟨path, hpath⟩ := Option.ne_none_iff_exists'.1 hpath
  rw [Resolver.cacheSuccess] at h
  cases hroot : fetched.root with
  | none =>
    rw [hroot] at h
    obtain ⟨rfl, -⟩ := Program.trace_ret_iff.1 h
    obtain rfl := Talks.nil_iff.1 htalks
    exact ⟨files, hs, .nothing⟩
  | some root =>
    rw [hroot] at h
    obtain ⟨_, t', rfl, hrest⟩ := Program.trace_call_iff.1 h
    obtain ⟨s₁, ⟨-, rfl⟩, htalks'⟩ := Talks.cons_iff.1 htalks
    rw [hpath] at hrest
    cases hfetched : fetched.artifacts with
    | none =>
      rw [hfetched] at hrest
      obtain ⟨rfl, -⟩ := Program.trace_ret_iff.1 hrest
      obtain rfl := Talks.nil_iff.1 htalks'
      exact ⟨files, hs, .nothing⟩
    | some art =>
      rw [hfetched] at hrest
      obtain ⟨_, t'', rfl, hput⟩ := Program.trace_call_iff.1 hrest
      obtain ⟨rfl, -⟩ := Program.trace_ret_iff.1 hput
      obtain ⟨s₂, ⟨-, rfl⟩, hnil⟩ := Talks.cons_iff.1 htalks'
      obtain rfl := Talks.nil_iff.1 hnil
      obtain ⟨r, host, past⟩ := s
      obtain rfl : host = ⟨some fs, files⟩ := hs
      obtain ⟨hpinned, content, hverified⟩ := hart root art hroot hfetched
      change ∃ files', DiskWasm.DiskCache.put D ⟨dir⟩ (Resolver.cacheId v root) art
        ⟨some fs, files⟩ = ⟨some fs, files'⟩ ∧ _
      rw [DiskWasm.DiskCache.put]
      cases hvec : D.artifactsToVec art with
      | none => exact ⟨files, rfl, .nothing⟩
      | some contents => exact ⟨_, rfl, .verified hpinned hverified hvec⟩

/-! ### A whole call -/

/-- The artifacts of a fetch verified, in its conversation. -/
lemma verified_of_fetched {endpoint : Endpoint} {fetched : Fetched}
    (h : Resolver.FetchedBy endpoint v t fetched)
    (htalks : Talks (Responds D transport cache) s t s') {root : String} {art : DiskArtifacts}
    (hroot : fetched.root = some root) (hart : fetched.artifacts = some art) :
    (∀ r, v.rootHex = some r → root = r) ∧ ∃ content, Crypto.verifyAndDecrypt D v art.ciphertext
      art.proofB64 root art.chunkLens = .ok content := by
  cases h with
  | attested => cases hart
  | @decrypted front ciphertext bytes proofB64 root' lens pinned =>
    obtain rfl := Option.some.inj hroot
    obtain rfl := Option.some.inj hart
    obtain ⟨s₁, -, hlast⟩ := Talks.append_iff.1 htalks
    obtain ⟨s₂, ⟨hans, -⟩, -⟩ := Talks.cons_iff.1 hlast
    exact ⟨pinned, bytes, hans.symm⟩

lemma inert_of_visits {visits : List Resolver.Visit} (h : ∀ x ∈ visits, x.Valid D v) :
    ∀ e ∈ visits.flatMap Resolver.Visit.talk, inert e.op = none :=
  fun e he => inert_of_offCache (Resolver.offCache_visits h e he)

/-- A walk stores a file at most. -/
lemma stored_of_walked {plan : List Endpoint} {r : Except ResolveError ResolveOutcome}
    (h : Resolver.Walked D o v plan t r) (hpath : o.cachePath ≠ none)
    (hs : s.2.host = ⟨some fs, files⟩)
    (htalks : Talks (Responds D transport (some ⟨dir⟩)) s t s') :
    ∃ files', s'.2.host = ⟨some fs, files'⟩ ∧ Stored D fs dir v files files' := by
  cases h with
  | @succeeded passed x late stored fetched hplan hpassed hx hresult hstored hquiet =>
    rw [List.flatMap_append, List.flatMap_singleton, List.append_assoc] at htalks
    obtain ⟨s₁, hfront, hrest⟩ := Talks.append_iff.1 htalks
    obtain ⟨s₂, hvisit, hback⟩ := Talks.append_iff.1 hrest
    have hfetch := hx.1
    rw [hresult] at hfetch
    have hfetched := Resolver.trace_fetched hfetch
    have hs₂ : s₂.2.host = ⟨some fs, files⟩ := by
      have htalk : ∀ e ∈ x.talk, inert e.op = none :=
        fun e he => inert_of_offCache (hfetch.of_only (Resolver.offCache_fetchFrom _) e he)
      rw [host_of_talks hvisit htalk,
        host_of_talks hfront (inert_of_visits fun y hy => (hpassed y hy).1), hs]
    exact stored_of_cacheSuccess hpath (fun _ _ => verified_of_fetched hfetched hvisit) hstored hs₂
      hback
  | @failed passed x late e hplan hpassed hx hresult he =>
    have hvalid : ∀ y ∈ passed ++ [x], y.Valid D v := by
      intro y hy
      rcases List.mem_append.1 hy with hy | hy
      · exact (hpassed y hy).1
      · exact List.mem_singleton.1 hy ▸ hx
    exact ⟨files, (host_of_talks htalks (inert_of_visits hvalid)).trans hs, .nothing⟩
  | exhausted hplan hpassed hr =>
    have hvalid := inert_of_visits fun y hy => (hpassed y hy).1
    exact ⟨files, (host_of_talks htalks hvalid).trans hs, .nothing⟩

/-- A resolve clears a file at most, and then stores one at most. -/
lemma files_of_resolved {r : Except ResolveError ResolveOutcome}
    (h : Resolver.Resolved D o v t r) (hpath : o.cachePath ≠ none)
    (hs : s.2.host = ⟨some fs, files⟩)
    (htalks : Talks (Responds D transport (some ⟨dir⟩)) s t s') :
    ∃ mid files', s'.2.host = ⟨some fs, files'⟩ ∧ Cleared D fs dir v files mid ∧
      Stored D fs dir v mid files' := by
  cases h with
  | cached hconsult =>
    obtain ⟨mid, hmid, hcleared⟩ :=
      cleared_of_consulted (Resolver.trace_consult hconsult) hs htalks
    exact ⟨mid, mid, hmid, hcleared, .nothing⟩
  | @walked lookups planning t plan _ hconsult hplan hwalked =>
    obtain ⟨s₂, hfront, hwalk⟩ := Talks.append_iff.1 htalks
    obtain ⟨s₁, hlookups, hplanning⟩ := Talks.append_iff.1 hfront
    obtain ⟨mid, hmid, hcleared⟩ :=
      cleared_of_consulted (Resolver.trace_consult hconsult) hs hlookups
    have hplanned : ∀ e ∈ planning, inert e.op = none :=
      fun e he => inert_of_offCache (hplan.of_only Resolver.offCache_plan e he)
    have hs₂ : s₂.2.host = ⟨some fs, mid⟩ := (host_of_talks hplanning hplanned).trans hmid
    obtain ⟨files', hfiles, hstored⟩ := stored_of_walked hwalked hpath hs₂ hwalk
    exact ⟨mid, files', hfiles, hcleared, hstored⟩

/-! ### Sessions -/

section Sessions

variable {page : Page φ} {c : DigNetwork × JsCall}

/-- The run of a resolve is a conversation with its surroundings. -/
lemma talks_resolve (s : Instance × Page φ) (urn : String) :
    Talks (Responds D transport cache) s ((Resolver.resolve D o urn).script
        (respond D transport cache) s) ((Resolver.resolve D o urn).run
        (respond D transport cache) s).2 :=
  Program.talks_script id (fun _ _ => ⟨rfl, rfl⟩) _ s

lemma session_singleton (page : Page φ) (c : DigNetwork × JsCall) :
    session D transport page [c] = (step D transport c.1 page c.2).2 := rfl

/-- What is left of the page after a call. -/
lemma step_snd (dig : DigNetwork) (call : JsCall) (page : Page φ) :
    (step D transport dig page call).2 =
      ((Resolver.resolve D (Wasm.options dig.endpoint dig.cachePath) call.urn).run
        (respond D transport (openCache (Wasm.options dig.endpoint dig.cachePath) page.host).1)
        (Instance.new, { page with
          host := (openCache (Wasm.options dig.endpoint dig.cachePath) page.host).2 })).2.2 := by
  rw [step, body_eq]

/-- Without a cache directory, the host stays as it is. -/
lemma host_of_withoutCache (hpath : o.cachePath = none) (s : Instance × Page φ) (urn : String) :
    ((Resolver.resolve D o urn).run (respond D transport cache) s).2.2.host = s.2.host := by
  have hsame : o.withoutCache = o := by rw [ResolveOptions.withoutCache, ← hpath]
  have honly : (Resolver.resolve D o urn).Only fun op => inert op = none := by
    rw [← hsame, ← withFixed_resolve]
    exact Program.only_withFixed _
  refine host_of_talks (talks_resolve s urn) ?_
  exact (Program.trace_run (Resolver.resolve D o urn) s).of_only honly

lemma host_step_of_no_slot (hslot : page.host.slot = none) :
    (step D transport c.1 page c.2).2.host = page.host := by
  rw [step_snd, openCache_of_no_slot hslot]
  exact host_of_talks_of_no_slot (talks_resolve _ _) hslot

/-- **A call tends to its own file only.** -/
lemma tends_step (hs : page.host = ⟨some fs, files⟩) :
    ∃ files', (step D transport c.1 page c.2).2.host = ⟨some fs, files'⟩ ∧
      Tends D fs c files files' := by
  rw [step_snd]
  cases hpath : (Wasm.options c.1.endpoint c.1.cachePath).cachePath with
  | none =>
    refine ⟨files, ?_, .noDirectory hpath⟩
    rw [openCache, hpath]
    exact (host_of_withoutCache hpath _ _).trans hs
  | some dir =>
    have hne : (Wasm.options c.1.endpoint c.1.cachePath).cachePath ≠ none := by simp [hpath]
    have hdir : directory c.1 = Text.trimEndMatches '/' dir := by
      rw [directory, hpath]
      rfl
    have hopened : openCache (Wasm.options c.1.endpoint c.1.cachePath) page.host =
        (some ⟨directory c.1⟩, ⟨some fs, fs.mkdirSync (directory c.1) files⟩) := by
      rw [openCache, hpath, hdir, hs]
      rfl
    rw [hopened]
    cases hparse : ParsedUrn.parse D c.2.urn with
    | error e =>
      refine ⟨_, ?_, .noUrn hne hparse⟩
      rw [Resolver.resolve, hparse]
      rfl
    | ok v =>
      have htrace := Program.trace_run (h := respond D transport (some ⟨directory c.1⟩))
        (Resolver.resolve D (Wasm.options c.1.endpoint c.1.cachePath) c.2.urn)
        (Instance.new, { page with host := ⟨some fs, fs.mkdirSync (directory c.1) files⟩ })
      have hresolved := Resolver.trace_resolveParsed (Resolver.trace_of_parse hparse htrace)
      obtain ⟨mid, files', hfiles, hcleared, hstored⟩ :=
        files_of_resolved hresolved hne rfl (talks_resolve _ _)
      exact ⟨files', hfiles, .resolved hne hparse hcleared hstored⟩

lemma slash_notMem_of_isCacheFile {name : String} (h : IsCacheFile name) : '/' ∉ name.toList := by
  obtain ⟨stem, rfl, hstem⟩ := h
  rw [String.toList_append]
  intro hmem
  rcases List.mem_append.1 hmem with hmem | hmem
  · have hhex := hstem _ hmem
    revert hhex
    decide
  · revert hmem
    decide

/-- **Clients keep to their files.**  Over functions of a host whose reads have no effect, and
which otherwise may do anything to the files, in every session of any clients, whatever is replied
to their calls: the injected functions stay; without them no file changes; with them each call in
turn creates the directory of its client, unlinks the file of its URN only if it holds artifacts
that do not verify, and writes nothing but artifacts that verified for its URN; and every such file
is directly in the directory. -/
theorem files_confined (hD : D.DigestSpec) (transport : Program.Oracle Op Ans) (page : Page φ)
    (calls : List (DigNetwork × JsCall)) :
    (session D transport page calls).host.slot = page.host.slot ∧
      (page.host.slot = none → (session D transport page calls).host = page.host) ∧
      (∀ fs, page.host.slot = some fs →
        TendsAll D fs calls page.host.files (session D transport page calls).host.files) ∧
      ∀ dir v root, ∃ name, cacheFile D dir v root = dir ++ "/" ++ name ∧ '/' ∉ name.toList := by
  have hnone : ∀ page : Page φ, page.host.slot = none →
      (session D transport page calls).host = page.host := by
    induction calls with
    | nil => exact fun _ _ => rfl
    | cons c rest ih =>
      intro page hslot
      have hhost := @host_step_of_no_slot φ D transport page c hslot
      exact (ih _ (hhost ▸ hslot)).trans hhost
  have hsome : ∀ (page : Page φ) fs files, page.host = ⟨some fs, files⟩ →
      ∃ files', (session D transport page calls).host = ⟨some fs, files'⟩ ∧
        TendsAll D fs calls files files' := by
    clear hnone
    induction calls with
    | nil => exact fun _ _ files hs => ⟨files, hs, .nil files⟩
    | cons c rest ih =>
      intro page fs files hs
      obtain ⟨mid, hmid, htends⟩ := @tends_step φ D transport fs files page c hs
      obtain ⟨files', hfiles, hrest⟩ := ih _ fs mid hmid
      exact ⟨files', hfiles, .cons htends hrest⟩
  refine ⟨?_, hnone page, ?_, fun dir v root => ⟨_, rfl, slash_notMem_of_isCacheFile
    (isCacheFile_diskPath hD _)⟩⟩
  · cases hslot : page.host.slot with
    | none => rw [hnone page hslot, hslot]
    | some fs =>
      obtain ⟨files', hfiles, -⟩ := hsome page fs page.host.files (by rw [← hslot])
      rw [hfiles]
  · intro fs hslot
    obtain ⟨files', hfiles, htends⟩ := hsome page fs page.host.files (by rw [← hslot])
    rw [hfiles]
    exact htends

end Sessions

/-! ### A session over files in a map -/

lemma openCache_node : openCache { cachePath := some "cache/" } node.host =
    (some ⟨"cache"⟩, node.host) := by
  have htrim : Text.trimEndMatches '/' "cache/" = "cache" := by decide +kernel
  rw [openCache]
  dsimp only
  rw [DiskWasm.DiskCache.new, htrim]
  rfl

/-- The call finds nothing in the directory, and asks the gateway. -/
lemma session_node :
    session windowed gateway node [(⟨none, some "cache/"⟩, .resolve DigNetwork.chia)] =
    ((Resolver.resolveParsed windowed { cachePath := some "cache/" } (Sample.parsed "chia")).run
      (respond windowed gateway (some ⟨"cache"⟩)) (Instance.new, node)).2.2 := by
  have hoptions : Wasm.options (DigNetwork.mk none (some "cache/")).endpoint
      (DigNetwork.mk none (some "cache/")).cachePath = { cachePath := some "cache/" } :=
    congrArg (ResolveOptions.mk none) opt_cache
  have hparse : ParsedUrn.parse windowed (JsCall.resolve DigNetwork.chia).urn =
      .ok (Sample.parsed "chia") := parse_windowed
  rw [session_singleton, step_snd, hoptions, openCache_node, Resolver.resolve_of_parse hparse]

/-- What the gateway served is kept in the one file of the resource. -/
theorem files_confined_node :
    ∃ fs, node.host.slot = some fs ∧
      TendsAll windowed fs [(⟨none, some "cache/"⟩, .resolve DigNetwork.chia)] node.host.files
        (session windowed gateway node [(⟨none, some "cache/"⟩, .resolve DigNetwork.chia)]).host.files ∧
      (session windowed gateway node
        [(⟨none, some "cache/"⟩, .resolve DigNetwork.chia)]).host.files ("cache/" ++ digest ++ ".json") =
          some (Sample.ascii "\x7b\"ciphertext\":\"UwEC\"\x7d") := by
  have hconfined := files_confined digestSpec_windowed gateway node
    [(⟨none, some "cache/"⟩, .resolve DigNetwork.chia)]
  have hkept : ((Resolver.resolveParsed windowed { cachePath := some "cache/" }
      (Sample.parsed "chia")).run (respond windowed gateway (some ⟨"cache"⟩))
        (Instance.new, node)).2.2.host.files ("cache/" ++ digest ++ ".json") =
      some (Sample.ascii "\x7b\"ciphertext\":\"UwEC\"\x7d") := by decide +kernel
  rw [← session_node] at hkept
  exact ⟨_, rfl, hconfined.2.2.1 _ rfl, hkept⟩

end DigUrnResolver.Js
