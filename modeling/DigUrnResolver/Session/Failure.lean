/-
# Calls that fail

A call that does not end in success stores nothing.  It leaves the memory as it was, up to the
clock, and at most removes the file of its own identity, if it read that file and could not verify
it.  Later calls go on as if only this removal had happened.
-/
import DigUrnResolver.Session.Consultation

namespace DigUrnResolver

open Interaction

/-- The same entries with the same stamps, under a clock that may have advanced. -/
def MemoryCache.SameEntries (cache cache' : MemoryCache) : Prop :=
  ∃ tick, cache.tick ≤ tick ∧ cache' = { cache with tick := tick }

lemma MemoryCache.SameEntries.refl (cache : MemoryCache) : cache.SameEntries cache :=
  ⟨cache.tick, Nat.le_refl _, rfl⟩

/-- A miss changes the clock only. -/
lemma MemoryCache.sameEntries_get_of_none {cache : MemoryCache} {id : String}
    (h : cache.map.lookup id = none) : cache.SameEntries (cache.get id).2 := by
  refine ⟨cache.tick + 1, Nat.le_succ _, ?_⟩
  rw [MemoryCache.get, h]

/-- The list of the entries does not depend on the clock. -/
lemma MemoryCache.SameEntries.refines {cache cache' : MemoryCache} {lim : Lru.Limits}
    {l : List (String × ResolvedData)} (h : cache.SameEntries cache')
    (hrefines : cache.Refines lim l) : cache'.Refines lim l := by
  obtain ⟨tick, htick, rfl⟩ := h
  obtain ⟨haccounted, hlimits, items, hlists, hitems⟩ := hrefines
  refine ⟨⟨⟨haccounted.bytes, haccounted.stamps, ?_⟩, haccounted.entries_le, haccounted.bytes_le⟩,
    hlimits, items, ⟨hlists.perm, hlists.sorted⟩, hitems⟩
  intro e he
  exact (haccounted.le_tick e he).trans htick

variable {ρ : Type} [DecidableEq ρ]

/-- The call is about a pinned URN that the memory does not hold, and whose file it can read but
not verify. -/
inductive Discards (D : Deps) (options : ResolveOptions) (c : Call ρ) (w : World ρ) : String → Prop
  | mk {v : ParsedUrn} {root path : String} {art : DiskArtifacts} {e : ResolveError}
      (names : ParsedUrn.parse D c.urn = .ok v) (pinned : v.rootHex = some root)
      (directory : options.cachePath = some path)
      (missed : (w.inst c.resolver).memory.map.lookup (Resolver.cacheId v root) = none)
      (file : w.getFile D (Resolver.cacheId v root) = some art)
      (refused : Crypto.verifyAndDecrypt D v art.ciphertext art.proofB64 root art.chunkLens =
        .error e) : Discards D options c w (diskPath D (Resolver.cacheId v root))

/-- The caches are left as they were, but for the file that the call discards. -/
structure Untouched (D : Deps) (options : ResolveOptions) (c : Call ρ) (w w' : World ρ) : Prop where
  memory : ∀ r, (w.inst r).memory.SameEntries (w'.inst r).memory
  removed : ∀ path, Discards D options c w path → w'.disk = Function.update w.disk path none
  kept : (∀ path, ¬ Discards D options c w path) → w'.disk = w.disk

variable {D : Deps} {options : ρ → ResolveOptions} {w w' w₁ : World ρ} {c : Call ρ}
  {t : List (Event Op Ans)} {v : ParsedUrn}

omit [DecidableEq ρ] in
/-- The discarded file is the one of the URN of the call. -/
lemma Discards.inv {o : ResolveOptions} {path : String} (h : Discards D o c w path)
    (hnames : ParsedUrn.parse D c.urn = .ok v) :
    ∃ root dir art e, v.rootHex = some root ∧ o.cachePath = some dir ∧
      w.getFile D (Resolver.cacheId v root) = some art ∧
      Crypto.verifyAndDecrypt D v art.ciphertext art.proofB64 root art.chunkLens = .error e ∧
      path = diskPath D (Resolver.cacheId v root) := by
  cases h with
  | mk names pinned directory missed file refused =>
    obtain rfl := Except.ok.inj (hnames.symm.trans names)
    exact ⟨_, _, _, _, pinned, directory, file, refused, rfl⟩

/-! ### The consultation -/

lemma sameEntries_of_trans {op : Op} {ans : Ans op} (htr : World.trans D c op w ans w')
    (h : (w.inst c.resolver).memory.SameEntries
      (World.memoryAfter D (w.inst c.resolver).memory op)) (r : ρ) :
    (w.inst r).memory.SameEntries (w'.inst r).memory := by
  by_cases hr : r = c.resolver
  · subst hr
    rw [World.memory_of_trans htr]
    exact h
  · rw [World.inst_of_trans_of_ne htr hr]
    exact .refl _

/-- Conversations without operations of the caches leave these alone. -/
lemma eq_of_offCache (h : Talks (World.trans D c) w t w')
    (ht : ∀ e ∈ t, ¬ Resolver.IsCacheOp e.op) :
    (∀ r, (w'.inst r).memory = (w.inst r).memory) ∧ w'.disk = w.disk := by
  refine h.invariant (I := fun s => (∀ r, (s.inst r).memory = (w.inst r).memory) ∧
    s.disk = w.disk) ⟨fun _ => rfl, rfl⟩ ?_
  rintro ⟨op, ans⟩ he s s' ⟨hmemory, hdisk⟩ htr
  have hop := ht _ he
  have hafter : World.memoryAfter D (s.inst c.resolver).memory op = (s.inst c.resolver).memory ∧
      World.diskAfter D s.disk op = s.disk := by
    cases op with
    | memoryGet | memoryPut | diskGet | diskPut | diskRemove => exact absurd trivial hop
    | _ => exact ⟨rfl, rfl⟩
  constructor
  · intro r
    by_cases hr : r = c.resolver
    · subst hr
      rw [World.memory_of_trans htr, hafter.1, hmemory]
    · rw [World.inst_of_trans_of_ne htr hr, hmemory]
  · rw [World.disk_after_trans htr, hafter.2, hdisk]

/-- A consultation without success. -/
lemma Resolver.Consulted.untouched {answer : Option ResolveOutcome}
    (h : Resolver.Consulted (options c.resolver) v t answer)
    (hnames : ParsedUrn.parse D c.urn = .ok v) (hanswer : ∀ data, answer ≠ some (.success data))
    (htalks : Talks (World.trans D c) w t w') : Untouched D (options c.resolver) c w w' := by
  cases h with
  | rootless hroot =>
    obtain rfl := Talks.nil_iff.1 htalks
    refine ⟨fun r => .refl _, ?_, fun _ => rfl⟩
    intro path hpath
    obtain ⟨root, dir, art, e, hroot', -⟩ := hpath.inv hnames
    cases hroot.symm.trans hroot'
  | hit hroot => exact absurd rfl (hanswer _)
  | noDirectory hroot hpath =>
    obtain ⟨w₁, hget, hrest⟩ := Talks.cons_iff.1 htalks
    obtain rfl := Talks.nil_iff.1 hrest
    refine ⟨sameEntries_of_trans hget (MemoryCache.sameEntries_get_of_none
      (lookup_eq_none_of_memoryGet hget)), ?_, fun _ => World.disk_after_trans hget⟩
    intro path hdiscards
    obtain ⟨root, dir, art, e, -, hpath', -⟩ := hdiscards.inv hnames
    cases hpath.symm.trans hpath'
  | noFile hroot hpath =>
    obtain ⟨w₁, hget, hrest⟩ := Talks.cons_iff.1 htalks
    obtain ⟨w₂, hfile, hrest⟩ := Talks.cons_iff.1 hrest
    obtain rfl := Talks.nil_iff.1 hrest
    obtain rfl := hfile.2
    have hdisk := World.disk_after_trans hget
    refine ⟨sameEntries_of_trans hget (MemoryCache.sameEntries_get_of_none
      (lookup_eq_none_of_memoryGet hget)), ?_, fun _ => hdisk⟩
    intro path hdiscards
    obtain ⟨root, dir, art, e, hroot', -, hfile', -⟩ := hdiscards.inv hnames
    obtain rfl := Option.some.inj (hroot.symm.trans hroot')
    cases (hfile.1.trans (World.getFile_congr hdisk _)).trans hfile'
  | verified hroot hpath => exact absurd rfl (hanswer _)
  | @refused root dir art e _ hroot hpath hcases =>
    obtain ⟨w₁, hget, hrest⟩ := Talks.cons_iff.1 htalks
    obtain ⟨w₂, hfile, hrest⟩ := Talks.cons_iff.1 hrest
    obtain ⟨w₃, hcheck, hrest⟩ := Talks.cons_iff.1 hrest
    obtain ⟨w₄, hremove, hrest⟩ := Talks.cons_iff.1 hrest
    obtain rfl := Talks.nil_iff.1 hrest
    obtain rfl := hfile.2
    obtain rfl := hcheck.2
    have hmissed := lookup_eq_none_of_memoryGet hget
    have hmemory := sameEntries_of_trans hget (MemoryCache.sameEntries_get_of_none hmissed)
    have hdisk := World.disk_after_trans hget
    have hremoved : w'.disk = Function.update w.disk (diskPath D (cacheId v root)) none := by
      rw [World.disk_after_trans hremove, hdisk]
      rfl
    have hdiscards : Discards D (options c.resolver) c w (diskPath D (cacheId v root)) :=
      .mk hnames hroot hpath hmissed ((World.getFile_congr hdisk _).symm.trans hfile.1.symm)
        hcheck.1.symm
    refine ⟨?_, ?_, fun hnone => absurd hdiscards (hnone _)⟩
    · obtain rfl := hremove.2
      exact hmemory
    · intro path hpath'
      obtain ⟨root', _, _, _, hroot', -, -, -, rfl⟩ := hpath'.inv hnames
      obtain rfl := Option.some.inj (hroot.symm.trans hroot')
      exact hremoved

/-! ### The whole call -/

omit [DecidableEq ρ] in
lemma Untouched.congr {o : ResolveOptions} (h : Untouched D o c w w₁)
    (hmemory : ∀ r, (w'.inst r).memory = (w₁.inst r).memory) (hdisk : w'.disk = w₁.disk) :
    Untouched D o c w w' where
  memory r := by
    rw [hmemory]
    exact h.memory r
  removed path hpath := hdisk.trans (h.removed path hpath)
  kept hnone := hdisk.trans (h.kept hnone)

/-- The visits of a walk do not touch the caches. -/
lemma Resolver.offCache_visits {visits : List Resolver.Visit}
    (h : ∀ x ∈ visits, x.Valid D v) :
    ∀ e ∈ visits.flatMap Resolver.Visit.talk, ¬ Resolver.IsCacheOp e.op := by
  intro e he
  obtain ⟨x, hx, hmem⟩ := List.mem_flatMap.1 he
  exact (h x hx).1.of_only (Resolver.offCache_fetchFrom _) e hmem

/-- A walk without success does not touch the caches. -/
lemma Resolver.Walked.offCache {o : ResolveOptions} {plan : List Endpoint}
    {r : Except ResolveError ResolveOutcome} (h : Resolver.Walked D o v plan t r)
    (hfail : ∀ data, r ≠ .ok (.success data)) : ∀ e ∈ t, ¬ Resolver.IsCacheOp e.op := by
  cases h with
  | succeeded => exact absurd rfl (hfail _)
  | failed hplan hpassed hx =>
    refine @Resolver.offCache_visits D v _ fun y hy => ?_
    rcases List.mem_append.1 hy with hy | hy
    · exact (hpassed y hy).1
    · obtain rfl := List.mem_singleton.1 hy
      exact hx
  | exhausted hplan hpassed => exact Resolver.offCache_visits fun y hy => (hpassed y hy).1

lemma Resolves.untouched {r : Except ResolveError ResolveOutcome}
    (h : Resolves D options c w t r w') (hfail : ∀ data, r ≠ .ok (.success data)) :
    Untouched D (options c.resolver) c w w' := by
  obtain ⟨htrace, htalks⟩ := h
  cases hparse : ParsedUrn.parse D c.urn with
  | error e =>
    rw [Resolver.resolve, hparse] at htrace
    obtain ⟨rfl, rfl⟩ := Program.trace_ret_iff.1 htrace
    obtain rfl := Talks.nil_iff.1 htalks
    refine ⟨fun r => .refl _, ?_, fun _ => rfl⟩
    rintro path ⟨names, -, -, -, -, -⟩
    cases hparse.symm.trans names
  | ok v =>
    cases Resolver.trace_resolveParsed (Resolver.trace_of_parse hparse htrace) with
    | @cached _ outcome hconsult =>
      refine (Resolver.trace_consult hconsult).untouched hparse ?_ htalks
      intro data hdata
      exact hfail data (congrArg Except.ok (Option.some.inj hdata))
    | walked hconsult hplan hwalked =>
      rw [List.append_assoc] at htalks
      obtain ⟨w₁, hfront, hback⟩ := Talks.append_iff.1 htalks
      obtain ⟨hmemory, hdisk⟩ := eq_of_offCache hback (by
        intro e he
        rcases List.mem_append.1 he with he | he
        · exact hplan.of_only Resolver.offCache_plan e he
        · exact hwalked.offCache hfail e he)
      refine Untouched.congr ?_ hmemory hdisk
      exact (Resolver.trace_consult hconsult).untouched hparse (by simp) hfront

omit [DecidableEq ρ] in
/-- The failure cannot be told from a removal of the discarded file. -/
lemma Untouched.alike {o : ResolveOptions} (h : Untouched D o c w w') (hw : w.Ordered)
    (hplan : ∀ r, (w'.inst r).planCache = (w.inst r).planCache) :
    World.Alike w' { w with disk := w'.disk } where
  disk := rfl
  plan := hplan
  memory r := by
    obtain ⟨l, hl⟩ := hw r
    exact ⟨l, (h.memory r).refines hl, hl⟩

/-- **A call that does not succeed leaves the caches intact**, in every ordered state, which are
those that sessions keep to.  It removes the file of its own identity exactly when it discards it.
Where it leaves the plan as it was, later sessions are those that would have been possible without
it, but for this file. -/
theorem failure_leaves_caches {r : Except ResolveError ResolveOutcome} (hw : w.Ordered)
    (h : Resolves D options c w t r w') (hfail : ∀ data, r ≠ .ok (.success data)) :
    Untouched D (options c.resolver) c w w' ∧
    ((∀ r, (w'.inst r).planCache = (w.inst r).planCache) → ∀ later,
      (∃ w₁, Calls D options w' later w₁) ↔
        ∃ w₁, Calls D options { w with disk := w'.disk } later w₁) := by
  have huntouched := h.untouched hfail
  refine ⟨huntouched, fun hplan later => ?_⟩
  have halike := huntouched.alike hw hplan
  constructor
  · rintro ⟨w₁, hcalls⟩
    obtain ⟨w₂, hcalls', -⟩ := hcalls.simulate halike
    exact ⟨w₂, hcalls'⟩
  · rintro ⟨w₁, hcalls⟩
    obtain ⟨w₂, hcalls', -⟩ := hcalls.simulate halike.symm
    exact ⟨w₂, hcalls'⟩

/-! ### A broken file -/

namespace Untouched

/-- The executable instance, whose only file holds a ciphertext that does not open. -/
def brokenDeps : Deps := sample [] [(⟨[0], "qg==", []⟩, [1])]

def brokenDisk : String → Option Bytes := fun _ => some [1]

def onDisk : Unit → ResolveOptions := fun _ => { cachePath := some "/cache" }

def call : Call Unit := ⟨(), Sample.urn "chia"⟩

/-- Nobody answers. -/
def offline : World.Net where
  get _ := .error ⟨"connection refused"⟩
  post _ _ := .error ⟨"connection refused"⟩
  loopback _ := false

lemma names : ParsedUrn.parse brokenDeps call.urn = .ok (Sample.parsed "chia") :=
  Sample.parse_urn_chia _ _

lemma result : (resultAlone brokenDeps onDisk offline call (World.new brokenDisk)).1 =
    .ok .integrityFailure := by
  rw [resultAlone_of_parse names]
  decide +kernel

lemma discards : Discards brokenDeps (onDisk ()) call (World.new brokenDisk)
    (diskPath brokenDeps (Resolver.cacheId (Sample.parsed "chia") Sample.hex.text)) := by
  refine .mk names rfl rfl ?_ rfl (e := .decryptFailed) ?_
  · exact AList.lookup_empty _
  · decide +kernel

/-- The broken file is removed, and the memory stays empty. -/
theorem failure_leaves_caches_broken :
    (resultAlone brokenDeps onDisk offline call (World.new brokenDisk)).2.disk =
      Function.update brokenDisk
        (diskPath brokenDeps (Resolver.cacheId (Sample.parsed "chia") Sample.hex.text)) none ∧
    (MemoryCache.new MemoryCache.defaultMemoryEntries MemoryCache.defaultMemoryBytes).SameEntries
      ((resultAlone brokenDeps onDisk offline call (World.new brokenDisk)).2.inst ()).memory := by
  have hfail : ∀ data, (resultAlone brokenDeps onDisk offline call (World.new brokenDisk)).1 ≠
      .ok (.success data) := by
    intro data
    rw [result]
    intro h
    cases h
  have huntouched := (failure_leaves_caches (World.ordered_new brokenDisk)
    (resolves_alone offline call (World.new brokenDisk)) hfail).1
  exact ⟨huntouched.removed _ discards, huntouched.memory ()⟩

end Untouched

end DigUrnResolver
