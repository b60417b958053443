/-
# The memories of many resolvers

What holds of one memory cache over a sequence of operations holds of the memories of any number of
resolvers, while their calls overlap: each of them is the list of a reference LRU, replayed from
the log of the run.  So nobody can tell in which order the map is scanned for an eviction.
-/
import DigUrnResolver.Security.Provenance
import DigUrnResolver.Session.Calls

namespace DigUrnResolver

open Interaction

variable {ρ : Type} [DecidableEq ρ]

/-! ### Replaying the log -/

/-- The operations of the calls on a resolver. -/
def opsOn (r : ρ) (L : RunLog ρ) : List Op := (L.filter fun e => e.tag.resolver = r).map Entry.op

/-- The list that a reference LRU holds after the operations of the calls on a resolver. -/
def recalled (r : ρ) (L : RunLog ρ) : List (String × ResolvedData) :=
  (opsOn r L).foldl World.listAfter []

/-- Every lookup in a memory was answered as the reference LRU answers it. -/
def LookupsFaithful (L : RunLog ρ) : Prop :=
  ∀ L₁ L₂ i c id ans, L = L₁ ++ ⟨i, c, .memoryGet id, ans⟩ :: L₂ →
    ans = Lru.lookup id (recalled c.resolver L₁)

/-- A memory that is a reference LRU, within the bounds of the program, and counts its bytes. -/
structure Recalls (memory : MemoryCache) (l : List (String × ResolvedData)) (n : ℕ) : Prop where
  represents : memory.Represents l
  bytes_eq : memory.bytes = (memory.map.entries.map fun e => e.2.data.bytes.length).sum
  entries_le : memory.map.entries.length ≤ MemoryCache.defaultMemoryEntries
  bytes_le : (memory.map.entries.map fun e => e.2.data.bytes.length).sum ≤
    MemoryCache.defaultMemoryBytes
  tick_le : memory.tick ≤ n

variable {D : Deps} {options : ρ → ResolveOptions} {L : RunLog ρ} {r : ρ}

lemma opsOn_snoc (e : Entry (Call ρ) Op Ans) :
    opsOn r (L ++ [e]) = opsOn r L ++ if e.tag.resolver = r then [e.op] else [] := by
  rw [opsOn, List.filter_append, List.map_append]
  by_cases h : e.tag.resolver = r <;> simp [opsOn, h]

lemma tick_memoryAfter {cache : MemoryCache} (h : MemoryCache.Accounted cache) (op : Op) :
    (World.memoryAfter D cache op).tick ≤ cache.tick + 1 := by
  cases op with
  | memoryGet id => exact (MemoryCache.perform_keeps h (.get id)).2.1
  | memoryPut id data => exact (MemoryCache.perform_keeps h (.put D.iterOrder id data)).2.1
  | _ => exact Nat.le_succ _

/-- The invariant of the runs. -/
structure ReplayInv (w : World ρ) (L : RunLog ρ) : Prop where
  refines : ∀ r, MemoryCache.Refines World.memoryLimits (w.inst r).memory (recalled r L)
  tick_le : ∀ r, (w.inst r).memory.tick ≤ (opsOn r L).length
  lookups : LookupsFaithful L

lemma LookupsFaithful.snoc {e : Entry (Call ρ) Op Ans} (h : LookupsFaithful L)
    (he : ∀ i c id ans, e = ⟨i, c, .memoryGet id, ans⟩ →
      ans = Lru.lookup id (recalled c.resolver L)) : LookupsFaithful (L ++ [e]) := by
  intro L₁ L₂ i c id ans heq
  rcases List.eq_nil_or_concat L₂ with rfl | ⟨L₃, x, rfl⟩
  · obtain ⟨rfl, hlast⟩ := List.append_inj' heq rfl
    exact he i c id ans (List.singleton_inj.1 hlast)
  · rw [List.concat_eq_append, ← List.cons_append, ← List.append_assoc] at heq
    exact h L₁ L₃ i c id ans (List.append_inj' heq rfl).1

lemma ReplayInv.step {w w' : World ρ} (h : ReplayInv w L) {i : ℕ} {c : Call ρ} {op : Op}
    {ans : Ans op} (htr : World.trans D c op w ans w') :
    ReplayInv w' (L ++ [⟨i, c, op, ans⟩]) := by
  refine ⟨fun r => ?_, fun r => ?_, ?_⟩
  · rw [recalled, opsOn_snoc, List.foldl_append]
    by_cases hr : r = c.resolver
    · subst hr
      rw [World.memory_of_trans htr, if_pos rfl]
      exact World.refines_memoryAfter (h.refines _) op
    · rw [World.inst_of_trans_of_ne htr hr, if_neg (Ne.symm hr)]
      exact h.refines r
  · rw [opsOn_snoc, List.length_append]
    by_cases hr : r = c.resolver
    · subst hr
      rw [World.memory_of_trans htr, if_pos rfl]
      have htick := tick_memoryAfter (D := D) (h.refines c.resolver).accounted op
      have hold := h.tick_le c.resolver
      exact htick.trans (Nat.succ_le_succ hold)
    · rw [World.inst_of_trans_of_ne htr hr, if_neg (Ne.symm hr)]
      exact h.tick_le r
  · refine h.lookups.snoc ?_
    intro i' c' id ans' heq
    cases heq
    have hrefines := h.refines c.resolver
    have hans := (hrefines.represents.get hrefines.accounted.toCounted id).1
    obtain ⟨rfl, -⟩ := htr
    refine hans.trans ?_
    rw [Lru.get]
    cases Lru.lookup id (recalled c.resolver L) <;> rfl

lemma replayInv {disk : String → Option Bytes} {p : RunPool ρ}
    (hp : (machine D options Tampering).Reachable (World.new disk) p) : ReplayInv p.state p.log := by
  refine hp.invariant ?_ (fun _ _ _ _ _ _ _ h htr => h.step htr) ?_
  · refine ⟨fun r => .new _ _, fun r => Nat.le_refl _, ?_⟩
    intro L₁ L₂ i c id ans heq
    exact absurd heq (by simp)
  · intro w w' L h htamper
    have hinst : w'.inst = w.inst := htamper
    exact ⟨by rw [hinst]; exact h.refines, by rw [hinst]; exact h.tick_le, h.lookups⟩

/-- **Every memory is an LRU, in every run.**  However the calls on any number of resolvers overlap,
whatever is answered and whatever happens to the directory: each memory holds what a reference LRU
holds after the operations of its own calls, in the order of the run, and each lookup was answered
by that; the bytes are counted exactly, the bounds hold at every moment, and the clock is at most the
number of operations. -/
theorem memories_recall {disk : String → Option Bytes} {p : RunPool ρ}
    (hp : (machine D options Tampering).Reachable (World.new disk) p) :
    (∀ r, Recalls (p.state.inst r).memory (recalled r p.log) (opsOn r p.log).length) ∧
      LookupsFaithful p.log := by
  have hinv := replayInv hp
  refine ⟨fun r => ?_, hinv.lookups⟩
  obtain ⟨haccounted, hlimits, hrepresents⟩ := hinv.refines r
  obtain ⟨hentries, hbytes⟩ : (p.state.inst r).memory.maxEntries = MemoryCache.defaultMemoryEntries ∧
      (p.state.inst r).memory.maxBytes = MemoryCache.defaultMemoryBytes :=
    ⟨congrArg Lru.Limits.entries hlimits, congrArg Lru.Limits.load hlimits⟩
  refine ⟨hrepresents, haccounted.bytes, hentries ▸ haccounted.entries_le, ?_, hinv.tick_le r⟩
  have hload := haccounted.bytes_le
  rw [haccounted.bytes, hbytes] at hload
  exact hload

/-! ### A run with a memory hit -/

/-- The options of a resolver with a node for an override. -/
def atNode : Unit → ResolveOptions := fun _ => { endpoint := some "http://127.0.0.1:9778" }

/-- A URN that is fetched from a node, then, with the network gone, taken from the memory. -/
def twoCalls : RunPool Unit :=
  afterAlone (sample [] []) atNode silentNet ⟨(), Sample.urn "chia"⟩
    (afterAlone (sample [] []) atNode attestingNet ⟨(), Sample.urn "chia"⟩
      ⟨World.new fun _ => none, [], []⟩)

lemma reachable_twoCalls :
    (machine (sample [] []) atNode Tampering).Reachable (World.new fun _ => none) twoCalls :=
  reachable_afterAlone (reachable_afterAlone .refl attestingNet _) silentNet _

lemma threads_twoCalls : twoCalls.threads[1]? =
    some (⟨(), Sample.urn "chia"⟩, .ret (.ok (.success ⟨[1, 2, 3], "text/plain"⟩))) := by
  have hparse := Sample.parse_urn_chia [] []
  have hresult : (resultAlone (sample [] []) atNode silentNet ⟨(), Sample.urn "chia"⟩
      (afterAlone (sample [] []) atNode attestingNet ⟨(), Sample.urn "chia"⟩
        ⟨World.new fun _ => none, [], []⟩).state).1 = .ok (.success ⟨[1, 2, 3], "text/plain"⟩) := by
    rw [resultAlone_of_parse hparse, state_afterAlone, resultAlone_of_parse hparse]
    decide +kernel
  rw [← hresult]
  rfl

/-- The memory that answered is a reference LRU. -/
theorem memories_recall_twoCalls :
    Recalls (twoCalls.state.inst ()).memory (recalled () twoCalls.log)
        (opsOn () twoCalls.log).length ∧
      twoCalls.threads[1]? =
        some (⟨(), Sample.urn "chia"⟩, .ret (.ok (.success ⟨[1, 2, 3], "text/plain"⟩))) :=
  ⟨(memories_recall reachable_twoCalls).1 (), threads_twoCalls⟩

/-! ### The order of the map -/

/-- The same program over a map that is scanned in another order. -/
def Deps.withOrder (D : Deps) (order : IterOrder) : Deps := { D with iterOrder := order }

section Program

variable {o : ResolveOptions} {v : ParsedUrn} {order : IterOrder}

lemma Rpc.collect_withOrder {base root : String} {windows : ℕ} {st : Assembly} :
    collect (D.withOrder order) base v root windows st = collect D base v root windows st := by
  induction hn : maxWindows - windows using Nat.strong_induction_on generalizing windows st with
  | _ n ih =>
    rw [collect.eq_def (D.withOrder order), collect.eq_def D]
    by_cases hw : windows + 1 > maxWindows
    · rw [dif_pos hw, dif_pos hw]
    · rw [dif_neg hw, dif_neg hw]
      refine congrArg (rpcCall D GetContent.fromValue base "dig.getContent"
        (getContentParams D v root st.offset) >>= ·) (funext fun reply => ?_)
      cases reply with
      | error e => rfl
      | ok r =>
        have habsorb : absorb (D.withOrder order) st r = absorb D st r := rfl
        simp only [habsorb]
        rcases absorb D st r with e | ⟨st', last⟩
        · rfl
        · cases last with
          | true => rfl
          | false => exact ih _ (by omega) rfl

lemma Rpc.fetch_withOrder {base : String} : fetch (D.withOrder order) base v = fetch D base v := by
  rw [fetch, fetch]
  cases trustedRoot v with
  | error e => rfl
  | ok root => exact congrArg (· >>= _) collect_withOrder

namespace Resolver

lemma fetchFrom_withOrder {endpoint : Endpoint} :
    fetchFrom (D.withOrder order) endpoint v = fetchFrom D endpoint v := by
  rw [fetchFrom, fetchFrom, Rpc.fetch_withOrder]

lemma walk_withOrder {last i : ℕ} {plan : List Endpoint} :
    walk (D.withOrder order) o v last i plan = walk D o v last i plan := by
  induction plan generalizing i with
  | nil => rfl
  | cons endpoint rest ih =>
    rw [walk, walk, fetchFrom_withOrder]
    simp only [ih]

/-- The program does not depend on the order of the map. -/
lemma resolve_withOrder {urn : String} : resolve (D.withOrder order) o urn = resolve D o urn := by
  have huncached : ∀ v, resolveUncached (D.withOrder order) o v = resolveUncached D o v := by
    intro v
    rw [resolveUncached, resolveUncached]
    simp only [walk_withOrder]
    rfl
  rw [resolve, resolve]
  have hparse : ParsedUrn.parse (D.withOrder order) urn = ParsedUrn.parse D urn := rfl
  rw [hparse]
  cases ParsedUrn.parse D urn with
  | error e => rfl
  | ok v =>
    dsimp only
    rw [resolveParsed, resolveParsed]
    simp only [huncached]

end Resolver

end Program

variable {w w' u : World ρ} {c : Call ρ} {op : Op} {ans : Ans op}

/-- Like worlds give the same answers, in whatever order the map is scanned. -/
lemma World.Alike.trans_withOrder (h : World.Alike w u) (htr : World.trans D c op w ans w')
    (order : IterOrder) :
    ∃ u', World.trans (D.withOrder order) c op u ans u' ∧ World.Alike w' u' := by
  obtain ⟨u₁, htr₁, halike⟩ := h.trans htr
  cases op with
  | memoryPut id data =>
    -- the only operation that scans the map, and both memories become the same list
    refine ⟨u.setMemory c.resolver ((u.inst c.resolver).memory.put order id data), ⟨rfl, rfl⟩, ?_⟩
    have htr' : World.trans (D.withOrder order) c (.memoryPut id data) u ()
        (u.setMemory c.resolver ((u.inst c.resolver).memory.put order id data)) := ⟨rfl, rfl⟩
    refine ⟨?_, fun r => ?_, fun r => ?_⟩
    · rw [World.disk_after_trans htr]
      exact h.disk
    · by_cases hr : r = c.resolver
      · subst hr
        rw [World.planCache_after_trans htr, World.planCache_after_trans htr']
        exact h.plan _
      · rw [World.inst_of_trans_of_ne htr hr, World.inst_of_trans_of_ne htr' hr]
        exact h.plan r
    · obtain ⟨l, hl, hl'⟩ := h.memory r
      by_cases hr : r = c.resolver
      · subst hr
        rw [World.memory_of_trans htr, World.memory_of_trans htr']
        exact ⟨_, World.refines_memoryAfter hl _, World.refines_memoryAfter hl' _⟩
      · rw [World.inst_of_trans_of_ne htr hr, World.inst_of_trans_of_ne htr' hr]
        exact ⟨l, hl, hl'⟩
  | _ => exact ⟨u₁, htr₁, halike⟩

/-- **Nobody can tell in which order the map is scanned.**  Whatever happens in a run of overlapping
calls on any number of resolvers, may happen as well when the map scans its entries in another order
for its evictions: with the same calls, the same answers and the same results. -/
theorem order_unseen (order : IterOrder) {disk : String → Option Bytes} {p : RunPool ρ}
    (hp : (machine D options Tampering).Reachable (World.new disk) p) :
    ∃ w, (machine (D.withOrder order) options Tampering).Reachable (World.new disk)
      ⟨w, p.threads, p.log⟩ ∧ World.Alike p.state w := by
  have hbody : (machine D options Tampering).body =
      (machine (D.withOrder order) options Tampering).body :=
    funext fun c => Resolver.resolve_withOrder.symm
  refine hp.follow (R := World.Alike) hbody ?_ ?_ (World.ordered_new disk).alike
  · intro t op s u ans s' h htr
    exact h.trans_withOrder htr order
  · intro s u s' h htamper
    have hinst : s'.inst = s.inst := htamper
    refine ⟨⟨u.inst, s'.disk⟩, rfl, rfl, fun r => ?_, fun r => ?_⟩
    · rw [hinst]
      exact h.plan r
    · rw [hinst]
      exact h.memory r

/-- The order in which the entries are stored, backwards. -/
def IterOrder.backwards : IterOrder := ⟨fun m => m.entries.reverse, fun m => List.reverse_perm m.entries⟩

/-! ### A run that evicts -/

section Attested

variable {o : ResolveOptions} {v : ParsedUrn} {root base : String} {w : World Unit} {net : World.Net}
  {resp : HttpResponse}

lemma accept_attested (hroot : v.rootHex = some root) (hsuccess : resp.isSuccess = true)
    (hverified : Node.verifiedPlaintext resp = true) :
    Node.accept v resp = .ret (.ok ⟨Node.attestedData v resp, some root, none⟩) := by
  rw [Node.accept_of_attested hsuccess hverified, Node.nodeRoot_of_pinned hroot]

lemma ops_walk_of_attested (hroot : v.rootHex = some root) (hpath : o.cachePath = none)
    (hget : net.get (Node.serveUrl base v) = .ok resp) (hsuccess : resp.isSuccess = true)
    (hverified : Node.verifiedPlaintext resp = true) :
    ((Resolver.walk D o v 0 0 [.node base]).script (World.handle D net ()) w).map Event.op =
      [.get (Node.serveUrl base v),
        .memoryPut (Resolver.cacheId v root) (Node.attestedData v resp)] := by
  have hans : (World.handle D net () (.get (Node.serveUrl base v)) w).1 = .ok resp := hget
  have hfetch : (Resolver.fetchFrom D (.node base) v).script (World.handle D net ()) w =
        [⟨.get (Node.serveUrl base v), .ok resp⟩] ∧
      ((Resolver.fetchFrom D (.node base) v).run (World.handle D net ()) w).1 =
        .ok ⟨Node.attestedData v resp, some root, none⟩ := by
    show (Node.fetch base v).script (World.handle D net ()) w = _ ∧
      ((Node.fetch base v).run (World.handle D net ()) w).1 = _
    rw [Node.fetch, Program.perform_bind, Program.script, Program.run_call, hans]
    dsimp only
    rw [accept_attested hroot hsuccess hverified]
    exact ⟨rfl, rfl⟩
  rw [Resolver.walk, Program.script_bind, hfetch.1, hfetch.2]
  dsimp only
  rw [Program.script_bind, Resolver.cacheSuccess]
  dsimp only
  rw [hpath]
  rfl

/-- The operations of a resolve from the node of a stored plan, which attests its reply. -/
lemma ops_of_attested (hroot : v.rootHex = some root) (hpath : o.cachePath = none)
    (hmiss : (w.inst ()).memory.map.lookup (Resolver.cacheId v root) = none)
    (hplan : (w.inst ()).planCache = some [.node base])
    (hget : net.get (Node.serveUrl base v) = .ok resp) (hsuccess : resp.isSuccess = true)
    (hverified : Node.verifiedPlaintext resp = true) :
    ((Resolver.resolveParsed D o v).script (World.handle D net ()) w).map Event.op =
      [.memoryGet (Resolver.cacheId v root), .planGet, .get (Node.serveUrl base v),
        .memoryPut (Resolver.cacheId v root) (Node.attestedData v resp)] := by
  have hmissed : (World.handle D net () (.memoryGet (Resolver.cacheId v root)) w).1 = none := by
    show ((w.inst ()).memory.get (Resolver.cacheId v root)).1 = none
    rw [MemoryCache.get, hmiss]
  generalize hw₁ : (World.handle D net () (.memoryGet (Resolver.cacheId v root)) w).2 = w₁
  have hstored : (World.handle D net () .planGet w₁).1 = some [.node base] := by
    rw [← hw₁]
    exact hplan
  rw [Resolver.resolveParsed, hroot]
  dsimp only [Option.map_some]
  rw [Program.perform_bind, Program.script, hmissed, hw₁, Resolver.diskGetVerified, hpath]
  dsimp only
  show _ :: ((Resolver.resolveUncached D o v).script (World.handle D net ()) w₁).map Event.op = _
  have hplanned : (Resolver.plan D o).script (World.handle D net ()) w₁ =
        [⟨.planGet, some [.node base]⟩] ∧
      ((Resolver.plan D o).run (World.handle D net ()) w₁).1 = [.node base] := by
    rw [Resolver.plan, Program.perform_bind, Program.script, Program.run_call, hstored]
    exact ⟨rfl, rfl⟩
  rw [Resolver.resolveUncached, Program.script_bind, hplanned.1, hplanned.2, List.map_append]
  exact congrArg (_ :: _ :: ·) (ops_walk_of_attested hroot hpath hget hsuccess hverified)

end Attested

/-- A reply with a body that leaves room for three bytes in the memory. -/
def crowdingReply : HttpResponse where
  status := 200
  headers := [("x-dig-verified", "true"), ("content-type", "text/plain")]
  body := List.replicate (MemoryCache.defaultMemoryBytes - 3) 7

def crowdingNet : World.Net where
  get _ := .ok crowdingReply
  post _ _ := .error ⟨"connection refused"⟩
  loopback _ := false

def fileCall (key : String) : Call Unit := ⟨(), Sample.urnOf key⟩

def idOf (key : String) : String := Resolver.cacheId (Sample.parsedOf key) Sample.hex.text

/-- Two resources of three bytes are fetched. -/
def twoKept : RunPool Unit :=
  afterAlone (sample [] []) atNode attestingNet (fileCall "c.txt")
    (afterAlone (sample [] []) atNode attestingNet (fileCall "a.txt") ⟨World.new fun _ => none, [], []⟩)

/-- Then one that leaves no room for both of them. -/
def crowded : RunPool Unit := afterAlone (sample [] []) atNode crowdingNet (fileCall "b.txt") twoKept

lemma reachable_crowded :
    (machine (sample [] []) atNode Tampering).Reachable (World.new fun _ => none) crowded :=
  reachable_afterAlone (reachable_afterAlone (reachable_afterAlone .refl attestingNet _)
    attestingNet _) crowdingNet _

lemma names_fileCall (key : String) (h : key = "a.txt" ∨ key = "b.txt" ∨ key = "c.txt") :
    ParsedUrn.parse (sample [] []) (fileCall key).urn = .ok (Sample.parsedOf key) := by
  rcases h with rfl | rfl | rfl
  · exact Sample.parse_urnOf (by decide +kernel)
  · exact Sample.parse_urnOf (by decide +kernel)
  · exact Sample.parse_urnOf (by decide +kernel)

/-- A call that runs alone performs its operations on the list. -/
lemma recalled_afterAlone {options : Unit → ResolveOptions} {net : World.Net} {c : Call Unit}
    {v : ParsedUrn} (h : ParsedUrn.parse D c.urn = .ok v) (p : RunPool Unit) :
    recalled () (afterAlone D options net c p).log =
      (((Resolver.resolveParsed D (options ()) v).script (World.handle D net ()) p.state).map
        Event.op).foldl World.listAfter (recalled () p.log) := by
  rw [recalled, log_afterAlone_of_parse h, opsOn, List.filter_append, List.map_append,
    List.foldl_append]
  simp [recalled, opsOn, Function.comp_def]

def threeBytes : ResolvedData := ⟨[1, 2, 3], "text/plain"⟩

lemma state_twoKept : twoKept.state =
    ((Resolver.resolveParsed (sample [] []) (atNode ()) (Sample.parsedOf "c.txt")).run
      (World.handle (sample [] []) attestingNet ())
      ((Resolver.resolveParsed (sample [] []) (atNode ()) (Sample.parsedOf "a.txt")).run
        (World.handle (sample [] []) attestingNet ()) (World.new fun _ => none)).2).2 := by
  rw [twoKept, state_afterAlone, resultAlone_of_parse (names_fileCall _ (.inr (.inr rfl))),
    state_afterAlone, resultAlone_of_parse (names_fileCall _ (.inl rfl))]

lemma recalled_twoKept :
    recalled () twoKept.log = [(idOf "c.txt", threeBytes), (idOf "a.txt", threeBytes)] := by
  rw [twoKept, recalled_afterAlone (names_fileCall _ (.inr (.inr rfl))),
    recalled_afterAlone (names_fileCall _ (.inl rfl)), state_afterAlone,
    resultAlone_of_parse (names_fileCall _ (.inl rfl))]
  decide +kernel

/-- The third resource is not in the memory, and the plan is stored. -/
lemma ready_twoKept : (twoKept.state.inst ()).memory.map.lookup (idOf "b.txt") = none ∧
    (twoKept.state.inst ()).planCache = some [.node "http://127.0.0.1:9778"] := by
  rw [state_twoKept]
  constructor
  · decide +kernel
  · decide +kernel

/-- What the crowding node attests. -/
def crowdingData : ResolvedData :=
  ⟨List.replicate (MemoryCache.defaultMemoryBytes - 3) 7, "text/plain"⟩

/-- The headers of a reply do not depend on its body. -/
lemma attested_of_headers (body : Bytes) :
    Node.verifiedPlaintext
      ⟨200, [("x-dig-verified", "true"), ("content-type", "text/plain")], body⟩ = true ∧
    Node.headerContentType
      ⟨200, [("x-dig-verified", "true"), ("content-type", "text/plain")], body⟩ =
        some "text/plain" := by
  have hnoBody : Node.verifiedPlaintext
        ⟨200, [("x-dig-verified", "true"), ("content-type", "text/plain")], []⟩ = true ∧
      Node.headerContentType
        ⟨200, [("x-dig-verified", "true"), ("content-type", "text/plain")], []⟩ =
          some "text/plain" := by decide +kernel
  exact hnoBody

lemma attestedData_crowding (v : ParsedUrn) : Node.attestedData v crowdingReply = crowdingData := by
  rw [Node.attestedData, crowdingReply, (attested_of_headers _).2]
  rfl

lemma listAfter_fetched (l : List (String × ResolvedData)) (id url : String) (data : ResolvedData) :
    [Op.memoryGet id, .planGet, .get url, .memoryPut id data].foldl World.listAfter l =
      Lru.put MemoryCache.size World.memoryLimits id data (Lru.get id l).2 := rfl

/-- The large resource drives out the one that was used last of all, and no more. -/
lemma recalled_crowded :
    recalled () crowded.log = [(idOf "b.txt", crowdingData), (idOf "c.txt", threeBytes)] := by
  obtain ⟨hmiss, hplan⟩ := ready_twoKept
  have hops : ((Resolver.resolveParsed (sample [] []) (atNode ()) (Sample.parsedOf "b.txt")).script
      (World.handle (sample [] []) crowdingNet ()) twoKept.state).map Event.op =
        [.memoryGet (idOf "b.txt"), .planGet,
          .get (Node.serveUrl "http://127.0.0.1:9778" (Sample.parsedOf "b.txt")),
          .memoryPut (idOf "b.txt") (Node.attestedData (Sample.parsedOf "b.txt") crowdingReply)] :=
    ops_of_attested rfl rfl hmiss hplan rfl rfl (attested_of_headers _).1
  rw [attestedData_crowding] at hops
  rw [crowded, recalled_afterAlone (names_fileCall _ (.inr (.inl rfl))), hops, recalled_twoKept,
    listAfter_fetched]
  have hmissed : (Lru.get (idOf "b.txt")
      [(idOf "c.txt", threeBytes), (idOf "a.txt", threeBytes)]).2 =
        [(idOf "c.txt", threeBytes), (idOf "a.txt", threeBytes)] := by decide +kernel
  have hremoved : Lru.remove (idOf "b.txt")
      [(idOf "c.txt", threeBytes), (idOf "a.txt", threeBytes)] =
        [(idOf "c.txt", threeBytes), (idOf "a.txt", threeBytes)] := by decide +kernel
  have hlarge : MemoryCache.size crowdingData = MemoryCache.defaultMemoryBytes - 3 :=
    List.length_replicate
  have hkept : MemoryCache.size threeBytes = 3 := rfl
  have hbytes : World.memoryLimits.load = 33554432 ∧ MemoryCache.defaultMemoryBytes = 33554432 ∧
      World.memoryLimits.entries = 256 := ⟨rfl, rfl, rfl⟩
  have hboth : ¬ Lru.Fits MemoryCache.size World.memoryLimits
      [(idOf "b.txt", crowdingData), (idOf "c.txt", threeBytes), (idOf "a.txt", threeBytes)] := by
    simp only [Lru.Fits, Lru.load_cons, Lru.load_nil, hlarge, hkept]
    omega
  have hone : Lru.Fits MemoryCache.size World.memoryLimits
      [(idOf "b.txt", crowdingData), (idOf "c.txt", threeBytes)] := by
    simp only [Lru.Fits, Lru.load_cons, Lru.load_nil, hlarge, hkept, List.length_cons,
      List.length_nil]
    omega
  rw [hmissed, Lru.put, if_neg (by omega), hremoved, Lru.trim_of_not_fits hboth]
  exact Lru.trim_of_fits hone

/-- A map that is scanned backwards comes to the same eviction: the resource that was fetched first
is gone, the second one is kept. -/
theorem order_unseen_backwards : ∃ w,
    (machine ((sample [] []).withOrder .backwards) atNode Tampering).Reachable
      (World.new fun _ => none) ⟨w, crowded.threads, crowded.log⟩ ∧
    (w.inst ()).memory.map.lookup (idOf "a.txt") = none ∧
    ((w.inst ()).memory.map.lookup (idOf "c.txt")).map CacheEntry.data = some threeBytes := by
  obtain ⟨w, hp, halike⟩ := order_unseen .backwards reachable_crowded
  obtain ⟨l, hl, hl'⟩ := halike.memory ()
  have hsame : ∀ id, ((w.inst ()).memory.map.lookup id).map CacheEntry.data =
      Lru.lookup id [(idOf "b.txt", crowdingData), (idOf "c.txt", threeBytes)] := by
    intro id
    rw [← recalled_crowded, ((replayInv reachable_crowded).refines ()).lookup, ← hl.lookup,
      hl'.lookup]
  obtain ⟨hba, hca, hbc⟩ : idOf "b.txt" ≠ idOf "a.txt" ∧ idOf "c.txt" ≠ idOf "a.txt" ∧
      idOf "b.txt" ≠ idOf "c.txt" := by decide +kernel
  refine ⟨w, hp, Option.map_eq_none_iff.1 ((hsame _).trans (Lru.lookup_eq_none.2 ?_)),
    (hsame _).trans ?_⟩
  · intro e he
    rcases List.mem_pair.1 he with rfl | rfl
    · exact hba
    · exact hca
  · exact @Lru.lookup_append_cons _ _ _ _ threeBytes [(idOf "b.txt", crowdingData)] [] fun e he =>
      List.mem_singleton.1 he ▸ hbc

end DigUrnResolver
