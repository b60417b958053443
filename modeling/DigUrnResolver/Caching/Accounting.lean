/-
# The accounts of the memory cache

The cache keeps the number of stored bytes beside its entries, and a recency stamp on each of them.
Inside `put` the counter is out of step with the bounds, until the eviction loop has restored them.
`Counted` is what holds throughout; `Evicts` are the rounds of the loop, each of which finds an
entry to remove and subtracts no more than the counter holds.
-/
import DigUrnResolver.Source.Cache
import Mathlib.Algebra.BigOperators.Group.List.Basic

namespace DigUrnResolver.MemoryCache

/-- An entry under its identity. -/
abbrev Item : Type := Sigma fun _ : String => CacheEntry

/-! ### Operations -/

/-- An operation on the cache.  Each insertion may see the map in another order. -/
inductive CacheOp where
  | get (id : String)
  | put (order : IterOrder) (id : String) (data : ResolvedData)

/-- The result of an operation and the cache after it. -/
def perform (cache : MemoryCache) : CacheOp → Option ResolvedData × MemoryCache
  | .get id => cache.get id
  | .put order id data => (none, cache.put order id data)

/-- The cache after a sequence of operations. -/
def after (cache : MemoryCache) (ops : List CacheOp) : MemoryCache :=
  ops.foldl (fun c op => (c.perform op).2) cache

/-- The cache with a new entry, before anything is evicted. -/
def inserted (cache : MemoryCache) (id : String) (data : ResolvedData) : MemoryCache :=
  { cache with
    tick := cache.tick + 1
    bytes := cache.bytes - cache.replacedBytes id + data.bytes.length
    map := cache.map.insert id ⟨cache.tick + 1, data⟩ }

/-- The cache without an entry that is evicted. -/
def without (cache : MemoryCache) (e : Item) : MemoryCache :=
  { cache with
    map := cache.map.erase e.1
    bytes := cache.bytes - e.2.data.bytes.length }

/-- One of the bounds is exceeded. -/
def Over (cache : MemoryCache) : Prop :=
  cache.map.entries.length > cache.maxEntries ∨ cache.bytes > cache.maxBytes

/-- The rounds of the eviction loop: each finds an entry, and the counter holds its bytes. -/
inductive Evicts (order : IterOrder) : MemoryCache → List Item → MemoryCache → Prop
  | done {cache : MemoryCache} (h : ¬ cache.Over) : Evicts order cache [] cache
  | round {cache cache' : MemoryCache} {e : Item} {es : List Item} (h : cache.Over)
      (hvictim : victim order cache.map = some e) (hle : e.2.data.bytes.length ≤ cache.bytes)
      (hrest : Evicts order (cache.without e) es cache') : Evicts order cache (e :: es) cache'

variable {cache cache' : MemoryCache} {order : IterOrder} {id : String} {data : ResolvedData}
  {e : Item} {es : List Item}

lemma put_eq (h : ¬ (cache.maxEntries = 0 ∨ data.bytes.length > cache.maxBytes)) :
    cache.put order id data = evict order (cache.inserted id data) := by
  rw [put, if_neg h]
  rfl

lemma put_of_rejected (h : cache.maxEntries = 0 ∨ data.bytes.length > cache.maxBytes) :
    cache.put order id data = cache := by
  rw [put, if_pos h]

/-! ### Entries -/

/-- The entries are that of a key and those of the other keys. -/
lemma perm_erase {map : CacheMap} {entry : CacheEntry} (h : map.lookup id = some entry) :
    map.entries.Perm (⟨id, entry⟩ :: (map.erase id).entries) := by
  have hmem : id ∈ map.keys := AList.lookup_isSome.1 (by rw [h]; rfl)
  obtain ⟨entry', front, back, hfront, hsplit, herase⟩ := List.exists_of_kerase hmem
  have hlookup : map.lookup id = some entry' := by
    rw [AList.lookup, hsplit, List.dlookup_append, List.dlookup_eq_none.2 hfront, Option.none_or,
      List.dlookup_cons_eq]
  obtain rfl := Option.some.inj (hlookup.symm.trans h)
  show map.entries.Perm (_ :: List.kerase id map.entries)
  rw [herase, hsplit]
  exact List.perm_middle

lemma entries_erase_of_none {map : CacheMap} (h : map.lookup id = none) :
    (map.erase id).entries = map.entries :=
  List.kerase_of_notMem_keys fun hmem => by
    rw [AList.lookup_eq_none] at h
    exact h hmem

lemma entries_insert_eq {map : CacheMap} {entry : CacheEntry} :
    (map.insert id entry).entries = ⟨id, entry⟩ :: (map.erase id).entries := rfl

lemma lookup_of_mem {map : CacheMap} (h : e ∈ map.entries) : map.lookup e.1 = some e.2 :=
  List.mem_dlookup map.nodupKeys h

lemma sublist_erase {map : CacheMap} : (map.erase id).entries.Sublist map.entries :=
  List.kerase_sublist id map.entries

/-- An item that is evicted was in the cache. -/
lemma perm_without (h : e ∈ cache.map.entries) :
    cache.map.entries.Perm (e :: (cache.without e).map.entries) :=
  perm_erase (lookup_of_mem h)

/-- The bytes of all entries. -/
def stored (items : List Item) : ℕ := (items.map fun e => e.2.data.bytes.length).sum

@[simp] lemma stored_cons (e : Item) (items : List Item) :
    stored (e :: items) = e.2.data.bytes.length + stored items := List.sum_cons

lemma stored_perm {items items' : List Item} (h : items.Perm items') :
    stored items = stored items' := (h.map _).sum_eq

/-- The recency stamps. -/
def stamps (items : List Item) : List ℕ := items.map fun e => e.2.lastUsed

/-! ### The invariant -/

/-- The counter is the number of stored bytes, and the stamps are distinct and in the past. -/
structure Counted (cache : MemoryCache) : Prop where
  bytes : cache.bytes = stored cache.map.entries
  stamps : (stamps cache.map.entries).Nodup
  le_tick : ∀ e ∈ cache.map.entries, e.2.lastUsed ≤ cache.tick

/-- Between operations, the bounds hold as well. -/
structure Accounted (cache : MemoryCache) : Prop extends Counted cache where
  entries_le : cache.map.entries.length ≤ cache.maxEntries
  bytes_le : cache.bytes ≤ cache.maxBytes

lemma Accounted.new (maxEntries maxBytes : ℕ) : Accounted (new maxEntries maxBytes) := by
  refine ⟨⟨rfl, List.nodup_nil, ?_⟩, Nat.zero_le _, Nat.zero_le _⟩
  intro e he
  exact absurd he List.not_mem_nil

/-- A newly stamped entry takes the place of the old one. -/
lemma Counted.nodup_insert (h : Counted cache) (entry : CacheEntry)
    (hstamp : entry.lastUsed = cache.tick + 1) :
    (MemoryCache.stamps (cache.map.insert id entry).entries).Nodup ∧
      ∀ e ∈ (cache.map.insert id entry).entries, e.2.lastUsed ≤ cache.tick + 1 := by
  have hrest : ∀ e ∈ (cache.map.erase id).entries, e.2.lastUsed ≤ cache.tick :=
    fun e he => h.le_tick e (sublist_erase.subset he)
  rw [entries_insert_eq]
  constructor
  · refine List.nodup_cons.2 ⟨?_, (sublist_erase.map _).nodup h.stamps⟩
    intro hmem
    obtain ⟨e, he, heq⟩ := List.mem_map.1 hmem
    have hle := hrest e he
    dsimp only at heq
    omega
  · intro e he
    rcases List.mem_cons.1 he with rfl | he
    · exact Nat.le_of_eq hstamp
    · exact Nat.le_succ_of_le (hrest e he)

lemma Accounted.get (h : Accounted cache) (id : String) : Accounted (cache.get id).2 := by
  rw [MemoryCache.get]
  cases hlookup : cache.map.lookup id with
  | none => exact ⟨⟨h.bytes, h.stamps, fun e he => Nat.le_succ_of_le (h.le_tick e he)⟩, h.entries_le,
      h.bytes_le⟩
  | some entry =>
    have hperm := perm_erase hlookup
    obtain ⟨hstamps, hticks⟩ := h.nodup_insert { entry with lastUsed := cache.tick + 1 } rfl
    refine ⟨⟨?_, hstamps, hticks⟩, ?_, h.bytes_le⟩
    · show cache.bytes = _
      rw [h.bytes, stored_perm hperm, stored_cons, entries_insert_eq, stored_cons]
    · have hlength := hperm.length_eq
      have hle := h.entries_le
      show (cache.map.insert id _).entries.length ≤ cache.maxEntries
      rw [entries_insert_eq, List.length_cons]
      rw [List.length_cons] at hlength
      omega

/-! ### Insertion -/

/-- What the new entry replaces is part of what is stored. -/
lemma Counted.stored_erase (h : Counted cache) (id : String) :
    cache.bytes = cache.replacedBytes id + stored (cache.map.erase id).entries := by
  rw [h.bytes, replacedBytes]
  cases hlookup : cache.map.lookup id with
  | none => rw [entries_erase_of_none hlookup, Nat.zero_add]
  | some prev => rw [stored_perm (perm_erase hlookup), stored_cons]

lemma Counted.inserted (h : Counted cache) (id : String) (data : ResolvedData) :
    Counted (cache.inserted id data) := by
  obtain ⟨hstamps, hticks⟩ := h.nodup_insert ⟨cache.tick + 1, data⟩ rfl
  refine ⟨?_, hstamps, hticks⟩
  have hsum := h.stored_erase id
  show cache.bytes - cache.replacedBytes id + data.bytes.length = _
  rw [MemoryCache.inserted]
  dsimp only
  rw [entries_insert_eq, stored_cons]
  dsimp only
  omega

/-! ### Eviction -/

lemma Counted.without (h : Counted cache) (he : e ∈ cache.map.entries) :
    e.2.data.bytes.length ≤ cache.bytes ∧ Counted (cache.without e) := by
  have hsum := stored_perm (perm_without he)
  rw [stored_cons, ← h.bytes] at hsum
  have hsub : (cache.without e).map.entries.Sublist cache.map.entries := sublist_erase
  refine ⟨by omega, ?_, (hsub.map _).nodup h.stamps, fun e' he' => h.le_tick e' (hsub.subset he')⟩
  show cache.bytes - e.2.data.bytes.length = _
  omega

lemma exists_victim (order : IterOrder) {map : CacheMap} (h : map.entries ≠ []) :
    ∃ e, victim order map = some e := by
  cases hvictim : victim order map with
  | some e => exact ⟨e, rfl⟩
  | none =>
    have hnil := List.argmin_eq_none.1 hvictim
    have hperm := order.perm map
    rw [hnil] at hperm
    exact absurd (List.nil_perm.1 hperm) h

/-- The victim carries the least stamp. -/
lemma le_of_victim {e' : Item} {map : CacheMap} (h : victim order map = some e)
    (hmem : e' ∈ map.entries) : e.2.lastUsed ≤ e'.2.lastUsed :=
  @List.le_of_mem_argmin _ _ _ (fun e : Item => e.2.lastUsed) _ _ _
    ((order.perm map).mem_iff.2 hmem) h

/-- A cache that is over a bound has entries. -/
lemma Counted.ne_nil_of_over (h : Counted cache) (hover : cache.Over) : cache.map.entries ≠ [] := by
  intro hnil
  have hbytes := h.bytes
  rw [hnil] at hbytes
  rcases hover with hlength | hover
  · rw [hnil, List.length_nil] at hlength
    omega
  · rw [hbytes] at hover
    exact absurd hover (Nat.not_lt_zero _)

/-- **The loop ends without meeting an empty map**, and no subtraction underflows. -/
lemma Counted.evicts (h : Counted cache) (order : IterOrder) :
    ∃ es, Evicts order cache es (evict order cache) := by
  fun_induction evict order cache with
  | case1 cache hover hnone =>
    obtain ⟨e, he⟩ := exists_victim order (h.ne_nil_of_over hover)
    cases hnone.symm.trans he
  | case2 cache hover e hvictim ih =>
    obtain ⟨hle, hcounted⟩ := h.without (mem_of_victim hvictim)
    obtain ⟨es, hes⟩ := ih hcounted
    exact ⟨e :: es, .round hover hvictim hle hes⟩
  | case3 cache hover => exact ⟨[], .done hover⟩

/-- The loop changes the entries and the counter only, and ends within the bounds. -/
lemma Evicts.keeps (hevicts : Evicts order cache es cache') (h : Counted cache) :
    Counted cache' ∧ cache'.tick = cache.tick ∧ cache'.maxEntries = cache.maxEntries ∧
      cache'.maxBytes = cache.maxBytes ∧ ¬ cache'.Over := by
  induction hevicts with
  | done hover => exact ⟨h, rfl, rfl, rfl, hover⟩
  | round hover hvictim hle hrest ih => exact ih (h.without (mem_of_victim hvictim)).2

/-- The entry just inserted: it carries the latest stamp, and would fit into an empty cache. -/
structure Newest (cache : MemoryCache) (id : String) (data : ResolvedData) : Prop where
  lookup : cache.map.lookup id = some ⟨cache.tick, data⟩
  entries : cache.maxEntries ≠ 0
  bytes : data.bytes.length ≤ cache.maxBytes

lemma newest_inserted (h : ¬ (cache.maxEntries = 0 ∨ data.bytes.length > cache.maxBytes)) :
    Newest (cache.inserted id data) id data := by
  rw [not_or, Nat.not_lt] at h
  exact ⟨AList.lookup_insert _, h.1, h.2⟩

/-- The scan finds the newest entry only in a cache without others, which is within the bounds. -/
lemma Newest.ne_victim (hnew : Newest cache id data) (h : Counted cache) (hover : cache.Over)
    (hvictim : victim order cache.map = some e) : e.1 ≠ id := by
  rintro rfl
  have hmem := mem_of_victim hvictim
  have hentry : e.2 = ⟨cache.tick, data⟩ :=
    Option.some.inj ((lookup_of_mem hmem).symm.trans hnew.lookup)
  have hperm := perm_without hmem
  have hrest : (cache.without e).map.entries = [] := by
    rw [List.eq_nil_iff_forall_not_mem]
    intro e' he'
    have hmem' : e' ∈ cache.map.entries := hperm.mem_iff.2 (List.mem_cons_of_mem _ he')
    -- the stamp of the victim is the least one, and that of the newest entry the greatest
    have hleast := le_of_victim hvictim hmem'
    have hle := h.le_tick e' hmem'
    have htick : e.2.lastUsed = cache.tick := by rw [hentry]
    have hnodup := (hperm.map fun e : Item => e.2.lastUsed).nodup_iff.1 h.stamps
    rw [List.map_cons, List.nodup_cons] at hnodup
    refine hnodup.1 (List.mem_map.2 ⟨e', he', ?_⟩)
    omega
  rw [hrest] at hperm
  have hlength := hperm.length_eq
  have hsum := h.bytes
  rw [stored_perm hperm, stored_cons, hentry] at hsum
  have hentries := hnew.entries
  have hbytes := hnew.bytes
  rw [List.length_singleton] at hlength
  change cache.bytes = data.bytes.length + 0 at hsum
  rcases hover with hover | hover <;> omega

lemma Newest.without (hnew : Newest cache id data) (hne : e.1 ≠ id) :
    Newest (cache.without e) id data :=
  ⟨(AList.lookup_erase_ne hne.symm).trans hnew.lookup, hnew.entries, hnew.bytes⟩

/-- **The newest entry is not evicted.** -/
lemma Newest.evicts (hnew : Newest cache id data) (h : Counted cache)
    (hevicts : Evicts order cache es cache') :
    (∀ e ∈ es, e.1 ≠ id) ∧ Newest cache' id data := by
  induction hevicts with
  | done hover => exact ⟨fun e he => absurd he List.not_mem_nil, hnew⟩
  | round hover hvictim hle hrest ih =>
    have hne := hnew.ne_victim h hover hvictim
    obtain ⟨hothers, hkept⟩ := ih (hnew.without hne) (h.without (mem_of_victim hvictim)).2
    refine ⟨?_, hkept⟩
    intro e' he'
    rcases List.mem_cons.1 he' with rfl | he'
    · exact hne
    · exact hothers e' he'

/-! ### Runs -/

lemma Accounted.put (h : Accounted cache) (order : IterOrder) (id : String)
    (data : ResolvedData) : Accounted (cache.put order id data) := by
  by_cases hrejected : cache.maxEntries = 0 ∨ data.bytes.length > cache.maxBytes
  · rw [put_of_rejected hrejected]
    exact h
  · rw [put_eq hrejected]
    have hinserted := h.toCounted.inserted id data
    obtain ⟨es, hevicts⟩ := hinserted.evicts order
    obtain ⟨hcounted, -, -, -, hover⟩ := hevicts.keeps hinserted
    rw [Over, not_or, Nat.not_lt, Nat.not_lt] at hover
    exact ⟨hcounted, hover.1, hover.2⟩

/-- The bounds of a cache never change, and its clock advances by at most one. -/
lemma perform_keeps (h : Accounted cache) (op : CacheOp) :
    Accounted (cache.perform op).2 ∧ (cache.perform op).2.tick ≤ cache.tick + 1 ∧
      (cache.perform op).2.maxEntries = cache.maxEntries ∧
      (cache.perform op).2.maxBytes = cache.maxBytes := by
  cases op with
  | get id =>
    refine ⟨h.get id, ?_⟩
    rw [perform, MemoryCache.get]
    cases cache.map.lookup id with
    | none => exact ⟨Nat.le_refl _, rfl, rfl⟩
    | some entry => exact ⟨Nat.le_refl _, rfl, rfl⟩
  | put order id data =>
    refine ⟨h.put order id data, ?_⟩
    rw [perform]
    by_cases hrejected : cache.maxEntries = 0 ∨ data.bytes.length > cache.maxBytes
    · rw [put_of_rejected hrejected]
      exact ⟨Nat.le_succ _, rfl, rfl⟩
    · rw [put_eq hrejected]
      have hinserted := h.toCounted.inserted id data
      obtain ⟨es, hevicts⟩ := hinserted.evicts order
      obtain ⟨-, htick, hentries, hbytes, -⟩ := hevicts.keeps hinserted
      exact ⟨Nat.le_of_eq htick, hentries, hbytes⟩

lemma after_keeps (h : Accounted cache) (ops : List CacheOp) :
    Accounted (cache.after ops) ∧ (cache.after ops).tick ≤ cache.tick + ops.length ∧
      (cache.after ops).maxEntries = cache.maxEntries ∧
      (cache.after ops).maxBytes = cache.maxBytes := by
  induction ops generalizing cache with
  | nil => exact ⟨h, Nat.le_refl _, rfl, rfl⟩
  | cons op rest ih =>
    obtain ⟨hstep, htick, hentries, hbytes⟩ := perform_keeps h op
    obtain ⟨hrun, htick', hentries', hbytes'⟩ := ih hstep
    rw [List.length_cons]
    refine ⟨hrun, ?_, hentries'.trans hentries, hbytes'.trans hbytes⟩
    change (after (cache.perform op).2 rest).tick ≤ _
    omega

/-- What an accepted insertion does: the counter does not leave its range, and the loop removes
other entries until the bounds hold. -/
structure Sound (usizeBits : ℕ) (cache : MemoryCache) (order : IterOrder) (id : String)
    (data : ResolvedData) : Prop where
  replaced_le : cache.replacedBytes id ≤ cache.bytes
  sum_lt : cache.bytes - cache.replacedBytes id + data.bytes.length < 2 ^ usizeBits
  evicts : ∃ es, Evicts order (cache.inserted id data) es (cache.put order id data) ∧
    ∀ e ∈ es, e.1 ≠ id

/-- **The accounts are right** after every sequence of operations, and throughout the next
insertion. -/
theorem accounted_after (maxEntries maxBytes usizeBits : ℕ) (hfit : 2 * maxBytes < 2 ^ usizeBits)
    (ops : List CacheOp) :
    Accounted ((new maxEntries maxBytes).after ops) ∧
    ((new maxEntries maxBytes).after ops).maxEntries = maxEntries ∧
    ((new maxEntries maxBytes).after ops).maxBytes = maxBytes ∧
    ((new maxEntries maxBytes).after ops).tick ≤ ops.length ∧
    ∀ order id (data : ResolvedData), ¬ (maxEntries = 0 ∨ data.bytes.length > maxBytes) →
      Sound usizeBits ((new maxEntries maxBytes).after ops) order id data := by
  obtain ⟨haccounted, htick, hentries, hbytes⟩ :=
    after_keeps (Accounted.new maxEntries maxBytes) ops
  have htick' : ((new maxEntries maxBytes).after ops).tick ≤ ops.length := by
    rwa [show (new maxEntries maxBytes).tick = 0 from rfl, Nat.zero_add] at htick
  refine ⟨haccounted, hentries, hbytes, htick', ?_⟩
  intro order id data haccepted
  have hreplaced := haccounted.stored_erase id
  have hbound := haccounted.bytes_le
  rw [not_or, Nat.not_lt] at haccepted
  have hrejected : ¬ (((new maxEntries maxBytes).after ops).maxEntries = 0 ∨
      data.bytes.length > ((new maxEntries maxBytes).after ops).maxBytes) := by
    rw [hentries, hbytes, not_or, Nat.not_lt]
    exact haccepted
  have hinserted := haccounted.toCounted.inserted id data
  obtain ⟨es, hevicts⟩ := hinserted.evicts order
  obtain ⟨hothers, -⟩ := (newest_inserted hrejected).evicts hinserted hevicts
  refine ⟨by omega, ?_, es, ?_, hothers⟩
  · rw [hbytes] at hbound
    change _ ≤ maxBytes at hbound
    omega
  · rw [put_eq hrejected]
    exact hevicts

/-- Two insertions into a cache for one entry, and a lookup. -/
def evictingRun : List CacheOp :=
  [.put .stored "a" ⟨[1, 2], "text/plain"⟩, .put .stored "b" ⟨[3], "text/plain"⟩, .get "b"]

theorem accounted_after_evictingRun :
    Accounted ((new 1 8).after evictingRun) ∧ ((new 1 8).after evictingRun).tick ≤ 3 ∧
      Sound 16 ((new 1 8).after evictingRun) .stored "a" ⟨[1, 2], "text/plain"⟩ := by
  obtain ⟨haccounted, -, -, htick, hsound⟩ :=
    accounted_after 1 8 16 (by decide) evictingRun
  exact ⟨haccounted, htick, hsound .stored "a" ⟨[1, 2], "text/plain"⟩ (by decide)⟩

end DigUrnResolver.MemoryCache
