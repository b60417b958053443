/-
# The caches (`cache.rs`)

The cache identity, the artifacts of the disk cache and the bounded in-memory LRU.  The hash
map of the source is an association list without duplicate keys; the order in which the
eviction scan iterates over it is left open, as an `IterOrder`.
-/
import DigUrnResolver.Source.Basic
import Mathlib.Data.List.AList
import Mathlib.Data.List.MinMax

namespace DigUrnResolver

/-- `content_id`: the cache identity `storeId:root:resourceKey:salt`. -/
def contentId (storeId root resourceKey : String) (salt : Option String) : String :=
  storeId ++ ":" ++ root ++ ":" ++ resourceKey ++ ":" ++ salt.getD ""

/-- `DiskArtifacts`: what is needed to verify a resource again from scratch. -/
structure DiskArtifacts where
  ciphertext : Bytes
  proofB64 : String
  chunkLens : List UInt32
deriving DecidableEq, Repr

/-! ### The memory cache -/

/-- `Entry`: an entry of the memory cache with its recency stamp. -/
structure CacheEntry where
  lastUsed : ℕ
  data : ResolvedData
deriving DecidableEq, Repr

/-- The map from identities to entries. -/
abbrev CacheMap : Type := AList fun _ : String => CacheEntry

/-- An order in which a hash map may be iterated over. -/
structure IterOrder where
  /-- The entries in the order of the iteration. -/
  iter : CacheMap → List (Sigma fun _ : String => CacheEntry)
  /-- Every entry is visited exactly once. -/
  perm : ∀ m, (iter m).Perm m.entries

/-- The order in which the association list stores the entries. -/
def IterOrder.stored : IterOrder := ⟨fun m => m.entries, fun _ => List.Perm.refl _⟩

/-- `MemoryCache` with its `Inner`. -/
structure MemoryCache where
  maxEntries : ℕ
  maxBytes : ℕ
  -- the clock of the recency stamps
  tick : ℕ
  -- the byte counter, kept beside the entries
  bytes : ℕ
  map : CacheMap

namespace MemoryCache

def new (maxEntries maxBytes : ℕ) : MemoryCache := ⟨maxEntries, maxBytes, 0, 0, ∅⟩

/-- A hit, which bumps the recency of the entry, or `none`. -/
def get (cache : MemoryCache) (id : String) : Option ResolvedData × MemoryCache :=
  let tick := cache.tick + 1
  match cache.map.lookup id with
  | none => (none, { cache with tick := tick })
  | some entry =>
    (some entry.data,
      { cache with tick := tick, map := cache.map.insert id { entry with lastUsed := tick } })

/-- The entry the eviction scan picks: the first one with the least recency stamp. -/
def victim (order : IterOrder) (map : CacheMap) : Option (Sigma fun _ : String => CacheEntry) :=
  (order.iter map).argmin fun e => e.2.lastUsed

lemma mem_of_victim {order : IterOrder} {map : CacheMap}
    {e : Sigma fun _ : String => CacheEntry} (h : victim order map = some e) : e ∈ map.entries :=
  (order.perm map).mem_iff.1 (List.argmin_mem h)

lemma length_erase_lt_of_victim {order : IterOrder} {map : CacheMap}
    {e : Sigma fun _ : String => CacheEntry} (h : victim order map = some e) :
    (map.erase e.1).entries.length < map.entries.length := by
  have hmem : e.1 ∈ map.keys := List.mem_map_of_mem (mem_of_victim h)
  have hkeys : (map.erase e.1).keys.length < map.keys.length := by
    rw [AList.keys_erase, List.length_erase_of_mem hmem]
    exact Nat.sub_lt (List.length_pos_of_mem hmem) Nat.one_pos
  simpa [AList.keys, List.keys] using hkeys

/-- Evict least recently used entries until the cache is within both bounds. -/
def evict (order : IterOrder) (cache : MemoryCache) : MemoryCache :=
  if cache.map.entries.length > cache.maxEntries ∨ cache.bytes > cache.maxBytes then
    match _h : victim order cache.map with
    | none => cache
    | some removed =>
      evict order { cache with
        map := cache.map.erase removed.1
        bytes := cache.bytes - removed.2.data.bytes.length }
  else cache
termination_by cache.map.entries.length
decreasing_by exact length_erase_lt_of_victim _h

/-- The bytes of the entry that an insertion under `id` replaces. -/
def replacedBytes (cache : MemoryCache) (id : String) : ℕ :=
  match cache.map.lookup id with
  | some prev => prev.data.bytes.length
  | none => 0

/-- Insert verified plaintext and evict.  An entry above the byte budget is not cached. -/
def put (order : IterOrder) (cache : MemoryCache) (id : String) (data : ResolvedData) :
    MemoryCache :=
  let size := data.bytes.length
  if cache.maxEntries = 0 ∨ size > cache.maxBytes then cache
  else
    let tick := cache.tick + 1
    evict order { cache with
      tick := tick
      bytes := cache.bytes - cache.replacedBytes id + size
      map := cache.map.insert id ⟨tick, data⟩ }

def defaultMemoryEntries : ℕ := 256

def defaultMemoryBytes : ℕ := 32 * 1024 * 1024

/-- Every entry of the cache, under its identity, has the property `P`. -/
def All (P : String → ResolvedData → Prop) (cache : MemoryCache) : Prop :=
  ∀ id entry, cache.map.lookup id = some entry → P id entry.data

variable {P Q : String → ResolvedData → Prop} {cache : MemoryCache}

lemma All.imp (h : cache.All P) (hPQ : ∀ id data, P id data → Q id data) : cache.All Q :=
  fun id entry hid => hPQ id entry.data (h id entry hid)

lemma all_new (maxEntries maxBytes : ℕ) : (new maxEntries maxBytes).All P := by
  intro id entry h
  simp [new] at h

/-- What a hit returns was in the cache. -/
lemma All.get_fst (h : cache.All P) {id : String} {data : ResolvedData}
    (hget : (cache.get id).1 = some data) : P id data := by
  unfold get at hget
  split at hget
  · exact absurd hget (by simp)
  · next entry hlook =>
    obtain rfl : entry.data = data := by simpa using hget
    exact h id entry hlook

/-- A lookup only changes recency. -/
lemma All.get_snd (h : cache.All P) (id : String) : (cache.get id).2.All P := by
  unfold get
  split
  · exact h
  · next entry hlook =>
    intro id' entry' h'
    by_cases hid : id' = id
    · subst hid
      rw [AList.lookup_insert, Option.some.injEq] at h'
      subst h'
      exact h _ entry hlook
    · rw [AList.lookup_insert_ne hid] at h'
      exact h id' entry' h'

/-- An eviction only removes entries. -/
lemma All.evict (h : cache.All P) (order : IterOrder) : (evict order cache).All P := by
  fun_induction MemoryCache.evict order cache with
  | case1 => exact h
  | case2 cache _ removed _ ih =>
    refine ih fun id entry hid => h id entry ?_
    by_cases hne : id = removed.1
    · subst hne
      simp at hid
    · rwa [AList.lookup_erase_ne hne] at hid
  | case3 => exact h

lemma All.put (h : cache.All P) (order : IterOrder) {id : String} {data : ResolvedData}
    (hnew : P id data) : (cache.put order id data).All P := by
  unfold MemoryCache.put
  dsimp only
  split
  · exact h
  · refine All.evict ?_ order
    intro id' entry' h'
    by_cases hid : id' = id
    · subst hid
      rw [AList.lookup_insert, Option.some.injEq] at h'
      subst h'
      exact hnew
    · rw [AList.lookup_insert_ne hid] at h'
      exact h id' entry' h'

end MemoryCache

end DigUrnResolver
