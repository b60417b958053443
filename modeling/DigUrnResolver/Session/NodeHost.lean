/-
# The client over a host with files, and without

The disk cache of the wasm build goes through the functions that its host injected.  Without them
a resolve is the resolve without a cache directory, operation by operation.  With functions that
behave as a file system the sessions of the client are those over a directory, which is how the
rest of this development models them.
-/
import DigUrnResolver.Caching.SharedDisk
import DigUrnResolver.Session.DigNetwork
import DigUrnResolver.Source.NodeFs

namespace DigUrnResolver

open Interaction

variable {D : Deps} {transport : Program.Oracle Op Ans} {o : ResolveOptions} {v : ParsedUrn}
  {φ : Type}

/-- The options without a cache directory. -/
def ResolveOptions.withoutCache (o : ResolveOptions) : ResolveOptions := { o with cachePath := none }

/-! ### Without files -/

namespace Js

/-- What the disk cache answers without files. -/
def inert : (op : Op) → Option (Ans op)
  | .diskGet _ => some none
  | .diskPut _ _ => some ()
  | .diskRemove _ => some ()
  | _ => none

lemma inert_of_offCache {op : Op} (h : ¬ Resolver.IsCacheOp op) : inert op = none := by
  cases op with
  | diskGet | diskPut | diskRemove => exact absurd trivial h
  | _ => rfl

lemma withFixed_diskGetVerified (id : String) :
    (Resolver.diskGetVerified o v id).withFixed inert = .ret none := by
  rw [Resolver.diskGetVerified]
  cases o.cachePath with
  | none => rfl
  | some dir =>
    cases v.rootHex with
    | none => rfl
    | some root => rfl

lemma withFixed_cacheSuccess (fetched : Fetched) :
    (Resolver.cacheSuccess o v fetched).withFixed inert =
      Resolver.cacheSuccess o.withoutCache v fetched := by
  rw [Resolver.cacheSuccess, Resolver.cacheSuccess, ResolveOptions.withoutCache]
  cases fetched.root with
  | none => rfl
  | some root =>
    cases o.cachePath with
    | none => rfl
    | some dir =>
      cases fetched.artifacts with
      | none => rfl
      | some art => rfl

lemma withFixed_walk (last i : ℕ) (plan : List Endpoint) :
    (Resolver.walk D o v last i plan).withFixed inert =
      Resolver.walk D o.withoutCache v last i plan := by
  induction plan generalizing i with
  | nil => rfl
  | cons endpoint rest ih =>
    have hfetch : (Resolver.fetchFrom D endpoint v).withFixed inert =
        Resolver.fetchFrom D endpoint v :=
      Program.withFixed_of_only ((Resolver.offCache_fetchFrom endpoint).imp
        fun _ => inert_of_offCache)
    rw [Resolver.walk, Resolver.walk, Program.withFixed_bind, hfetch]
    refine congrArg _ (funext fun result => ?_)
    cases result with
    | ok fetched =>
      dsimp only
      rw [Program.withFixed_bind, withFixed_cacheSuccess]
      rfl
    | error e =>
      cases e with
      | notFound | transport =>
        dsimp only
        split_ifs
        · rfl
        · exact ih _
      | _ => rfl

/-- **Without files, a resolve is the resolve without a cache directory.** -/
lemma withFixed_resolve (urn : String) :
    (Resolver.resolve D o urn).withFixed inert = Resolver.resolve D o.withoutCache urn := by
  rw [Resolver.resolve, Resolver.resolve]
  cases ParsedUrn.parse D urn with
  | error e => rfl
  | ok v =>
    have huncached : (Resolver.resolveUncached D o v).withFixed inert =
        Resolver.resolveUncached D o.withoutCache v := by
      have hplan : (Resolver.plan D o).withFixed inert = Resolver.plan D o.withoutCache :=
        Program.withFixed_of_only (Resolver.offCache_plan.imp fun _ => inert_of_offCache)
      rw [Resolver.resolveUncached, Resolver.resolveUncached, Program.withFixed_bind, hplan]
      exact congrArg _ (funext fun plan => withFixed_walk _ _ _)
    dsimp only
    rw [Resolver.resolveParsed, Resolver.resolveParsed]
    cases v.rootHex.map (Resolver.cacheId v) with
    | none => exact huncached
    | some id =>
      dsimp only
      rw [Program.perform_bind, Program.perform_bind, Program.withFixed_call_of_none rfl]
      refine congrArg _ (funext fun answer => ?_)
      cases answer with
      | some data => rfl
      | none =>
        dsimp only
        rw [Program.withFixed_bind, withFixed_diskGetVerified]
        exact huncached

/-! ### A call of the client -/

/-- A call of the client: what is seen of it, and what it makes of the page. -/
def step (D : Deps) (transport : Program.Oracle Op Ans) (dig : DigNetwork) (page : Page φ)
    (call : JsCall) : (List Op × Except ResolveError ResolveOutcome) × Page φ :=
  let opened := openCache (Wasm.options dig.endpoint dig.cachePath) page.host
  let start := (Instance.new, { page with host := opened.2 })
  let run := (dig.body D call).run (respond D transport opened.1) start
  ((Resolver.requests ((dig.body D call).script (respond D transport opened.1) start), run.1),
    run.2.2)

/-- The client as far as its host lets it work: without files, it has no cache directory. -/
def onHost (host : Host φ) (dig : DigNetwork) : DigNetwork :=
  if NodeFs.isAvailable host then dig else { dig with cachePath := none }

/-- The directory of the client. -/
def directory (dig : DigNetwork) : String :=
  Text.trimEndMatches '/' ((Wasm.options dig.endpoint dig.cachePath).cachePath.getD "")

end Js

/-- The names of the files of a cache. -/
def IsCacheFile (name : String) : Prop :=
  ∃ stem, name = stem ++ ".json" ∧ ∀ c ∈ stem.toList, Text.isLowerHex c = true

/-- The hash is written in hex digits. -/
def Deps.DigestSpec (D : Deps) : Prop := ∀ s, ∀ c ∈ (D.sha256Hex s).toList, Text.isLowerHex c = true

namespace Js

/-! ### The host and the directory -/

/-- A process of the model stands for a resolver over a host: they remember and have exchanged the
same, and the directory is what the host reads. -/
structure Stands (D : Deps) (dir : String) (s : Instance × Page φ) (u : Process) : Prop where
  inst : u.world.inst () = s.1
  past : u.past = s.2.past
  disk : ∀ id, u.world.disk (diskPath D id) =
    NodeFs.readFile (dir ++ "/" ++ diskPath D id) s.2.host

/-- A resolver over a host is answered as the process that stands for it. -/
def Answers (D : Deps) (transport : Program.Oracle Op Ans) (dir : String)
    (cache : Option DiskWasm.DiskCache) (op : Op) (s : Instance × Page φ) (u : Process) : Prop :=
  (respond D transport cache op s).1 = (Process.respond D transport op u).1 ∧
    Stands D dir (respond D transport cache op s).2 (Process.respond D transport op u).2

variable {dir : String} {cache : Option DiskWasm.DiskCache} {op : Op} {s : Instance × Page φ}
  {u : Process}

/-- Operations that do not touch the disk cache leave the host alone. -/
lemma host_respond (hop : inert op = none) (s : Instance × Page φ) :
    (respond D transport cache op s).2.2.host = s.2.host := by
  cases op with
  | diskGet | diskPut | diskRemove => cases hop
  | _ => rfl

lemma Stands.answers (h : Stands D dir s u) (hop : inert op = none) :
    Answers D transport dir cache op s u := by
  have hhost := @host_respond D transport φ cache op hop s
  obtain ⟨r, page⟩ := s
  obtain ⟨hinst, hpast, hdisk⟩ := h
  obtain rfl : u.world.inst () = r := hinst
  have hlisting : ∀ id, u.world.disk (diskPath D id) = NodeFs.readFile
      (dir ++ "/" ++ diskPath D id) (respond D transport cache op (u.world.inst (), page)).2.2.host := by
    rw [hhost]
    exact hdisk
  cases op with
  | diskGet | diskPut | diskRemove => cases hop
  | get url =>
    refine ⟨congrArg (transport · (.get url)) hpast.symm, rfl, ?_, hlisting⟩
    show u.past ++ _ = page.past ++ _
    rw [hpast]
  | postJson url body =>
    refine ⟨congrArg (transport · (.postJson url body)) hpast.symm, rfl, ?_, hlisting⟩
    show u.past ++ _ = page.past ++ _
    rw [hpast]
  | resolvesToLoopback | verifyAndDecrypt | planGet => exact ⟨rfl, rfl, hpast, hlisting⟩
  | memoryGet | memoryPut | planSet =>
    refine ⟨rfl, ?_, hpast, hlisting⟩
    show Function.update u.world.inst () _ () = _
    exact Function.update_self ..

variable {fs : NodeFs φ} {ready : String → φ → Prop} {host : Host φ}

lemma isCacheFile_diskPath (hD : D.DigestSpec) (id : String) : IsCacheFile (diskPath D id) :=
  ⟨D.sha256Hex id, rfl, hD id⟩

lemma body_eq (dig : DigNetwork) (call : JsCall) : dig.body D call =
    Resolver.resolve D (Wasm.options dig.endpoint dig.cachePath) call.urn := by
  cases call <;> rfl

/-- Without files, the disk cache answers as if it were empty, and is left as it is. -/
lemma respond_of_no_slot {ans : Ans op} (hslot : s.2.host.slot = none) (hop : inert op = some ans) :
    respond D transport cache op s = (ans, s) := by
  obtain ⟨r, host, past⟩ := s
  change host.slot = none at hslot
  cases op with
  | diskGet id =>
    obtain rfl : (none : Option DiskArtifacts) = ans := Option.some.inj hop
    cases cache with
    | none => rfl
    | some cache =>
      have hmiss : cache.get D id host = none := by
        rw [DiskWasm.DiskCache.get, NodeFs.readFile, hslot]
        rfl
      show (cache.get D id host, r, Page.mk host past) = _
      rw [hmiss]
  | diskPut id art =>
    cases cache with
    | none => rfl
    | some cache =>
      have hsame : cache.put D id art host = host := by
        rw [DiskWasm.DiskCache.put]
        cases D.artifactsToVec art with
        | none => rfl
        | some bytes => simp only [NodeFs.writeFile, hslot]
      show ((), r, Page.mk (cache.put D id art host) past) = _
      rw [hsame]
  | diskRemove id =>
    cases cache with
    | none => rfl
    | some cache =>
      have hsame : cache.remove D id host = host := by
        simp only [DiskWasm.DiskCache.remove, NodeFs.removeFile, hslot]
      show ((), r, Page.mk (cache.remove D id host) past) = _
      rw [hsame]
  | _ => cases hop

/-- Nothing is injected in the course of a call. -/
lemma no_slot_respond (hslot : s.2.host.slot = none) :
    (respond D transport cache op s).2.2.host.slot = none := by
  cases hop : inert op with
  | none =>
    rw [host_respond hop]
    exact hslot
  | some ans =>
    rw [respond_of_no_slot hslot hop]
    exact hslot

/-- Without files, the operations of the disk cache need not be performed. -/
lemma run_inert {α : Type} (p : Prog α) (hslot : s.2.host.slot = none) :
    (p.withFixed inert).run (respond D transport cache) s = p.run (respond D transport cache) s :=
  Program.run_withFixed (fun _ _ _ => respond_of_no_slot) (fun _ _ => no_slot_respond) p hslot

variable {dig : DigNetwork} {page : Page φ} {call : JsCall}

/-- Without files, opening the disk cache does nothing. -/
lemma openCache_of_no_slot (hslot : host.slot = none) : (openCache o host).2 = host := by
  rw [openCache]
  cases o.cachePath with
  | none => rfl
  | some dir => simp only [DiskWasm.DiskCache.new, NodeFs.mkdirAll, hslot]

/-- `fs` over files in a map, where every directory is there. -/
def mapFs : FsObject (String → Option Bytes) where
  readFileSync := some fun path files => files path
  writeFileSync := some fun path bytes files => Function.update files path (some bytes)
  mkdirSync := some fun _ files => files
  unlinkSync := some fun path files => Function.update files path none

/-- The digest of the identity of `a.txt`. -/
def digest : String := "6bbecbb98ec9a39de64bc187fd4717de8503e290ad2910aa3a986dcfa7e7d4c7"

/-- A gateway that serves the ciphertext of `a.txt` in one window. -/
def windowed : Deps :=
  { sample [([1], .object [("result", .object [("total_length", .number (.posInt 3)),
      ("complete", .bool true), ("ciphertext", .string "UwEC"),
      ("inclusion_proof", .string "qg==")])])]
      [(DiskQuiet.artifacts, Sample.ascii "\x7b\"ciphertext\":\"UwEC\"\x7d")] with
    sha256Hex := fun _ => digest }

lemma digestSpec_windowed : windowed.DigestSpec := by
  have hhex : ∀ c ∈ digest.toList, Text.isLowerHex c = true := by decide +kernel
  exact fun _ => hhex

/-- Only the gateway replies. -/
def gateway : Program.Oracle Op Ans := fun _ op =>
  (⟨fun _ => .error ⟨"fetch failed"⟩, fun _ _ => .ok ⟨200, [], [1]⟩, fun _ => false⟩ :
    World.Net).answer op

/-- The page after the file system was injected. -/
def node : Page (String → Option Bytes) := ⟨NodeFs.setNodeFs mapFs ⟨none, fun _ => none⟩, []⟩

lemma parse_windowed : ParsedUrn.parse windowed DigNetwork.chia = .ok (Sample.parsed "chia") := by
  have hsame : ParsedUrn.parse windowed DigNetwork.chia =
      ParsedUrn.parse (sample [] []) DigNetwork.chia := rfl
  rw [hsame, DigNetwork.parse_chia]

lemma opt_cache : Wasm.opt (some "cache/") = some "cache/" := by decide +kernel

end Js

end DigUrnResolver
