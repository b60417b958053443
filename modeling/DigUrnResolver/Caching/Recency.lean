/-
# The memory cache is an LRU

The hash map of the memory cache has no order; recency is in the stamps of its entries.  `Lists`
relates a cache to the list of its entries, latest stamp first.  A hit and an insertion put the
entry with the new stamp at the front, and the entry that the eviction scan finds is the last one,
whatever the order of the scan.  So the cache gives the results of the reference model.
-/
import DigUrnResolver.Caching.Accounting
import DigUrnResolver.Interaction.Machine
import DigUrnResolver.Lru.Reference

namespace DigUrnResolver.MemoryCache

open Interaction

/-- The bytes that a value counts for. -/
def size (data : ResolvedData) : ℕ := data.bytes.length

def limits (cache : MemoryCache) : Lru.Limits := ⟨cache.maxEntries, cache.maxBytes⟩

/-- An entry without its stamp. -/
def plain (e : Item) : String × ResolvedData := (e.1, e.2.data)

/-- The items are the entries of the cache, the most recently used first. -/
structure Lists (cache : MemoryCache) (items : List Item) : Prop where
  perm : items.Perm cache.map.entries
  sorted : items.Pairwise fun e e' => e'.2.lastUsed < e.2.lastUsed

/-- The reference list holds the entries of the cache, the most recently used first. -/
def Represents (cache : MemoryCache) (l : List (String × ResolvedData)) : Prop :=
  ∃ items, Lists cache items ∧ items.map plain = l

/-- The reference model. -/
def reference (lim : Lru.Limits) (l : List (String × ResolvedData)) :
    CacheOp → Option ResolvedData × List (String × ResolvedData)
  | .get id => Lru.get id l
  | .put _ id data => (none, Lru.put size lim id data l)

variable {cache cache' : MemoryCache} {order : IterOrder} {id : String} {data : ResolvedData}
  {e : Item} {es items : List Item} {l : List (String × ResolvedData)}

/-! ### Entries of the list -/

lemma Lists.nodupKeys (h : Lists cache items) : Lru.NodupKeys (items.map plain) := by
  have hkeys : (items.map plain).map Prod.fst = items.map Sigma.fst := by
    rw [List.map_map]
    rfl
  rw [Lru.NodupKeys, hkeys]
  exact (h.perm.map Sigma.fst).nodup_iff.2 cache.map.nodupKeys

lemma Lists.lookup (h : Lists cache items) (id : String) :
    Lru.lookup id (items.map plain) = (cache.map.lookup id).map CacheEntry.data := by
  cases hlookup : cache.map.lookup id with
  | none =>
    rw [Option.map_none, Lru.lookup_eq_none]
    rintro e' he' rfl
    obtain ⟨e, he, rfl⟩ := List.mem_map.1 he'
    have hfound := lookup_of_mem (h.perm.mem_iff.1 he)
    change cache.map.lookup e.1 = none at hlookup
    rw [hlookup] at hfound
    exact absurd hfound (Option.some_ne_none _).symm
  | some entry =>
    have hmem : (⟨id, entry⟩ : Item) ∈ cache.map.entries :=
      (perm_erase hlookup).mem_iff.2 List.mem_cons_self
    exact Lru.lookup_of_mem h.nodupKeys
      (List.mem_map_of_mem (f := plain) (h.perm.mem_iff.2 hmem))

/-- Without a key, the items are the entries of the other keys. -/
lemma Lists.filter_perm (h : Lists cache items) (id : String) :
    (items.filter fun e => e.1 ≠ id).Perm (cache.map.erase id).entries := by
  have hothers : ∀ e ∈ (cache.map.erase id).entries, e.1 ≠ id := by
    rintro e he rfl
    have hkey : e.1 ∈ cache.map.erase e.1 := AList.mem_keys.2 (List.mem_map_of_mem he)
    exact (AList.mem_erase.1 hkey).1 rfl
  have hrest : (cache.map.erase id).entries.filter (fun e => e.1 ≠ id) =
      (cache.map.erase id).entries := by
    rw [List.filter_eq_self]
    intro e he
    exact decide_eq_true (hothers e he)
  have hperm := h.perm.filter fun e => e.1 ≠ id
  cases hlookup : cache.map.lookup id with
  | none =>
    rw [entries_erase_of_none hlookup] at hrest ⊢
    rwa [hrest] at hperm
  | some entry =>
    have hsplit := (perm_erase hlookup).filter fun e => e.1 ≠ id
    rw [List.filter_cons_of_neg (by simp), hrest] at hsplit
    exact hperm.trans hsplit

lemma plain_filter (id : String) (items : List Item) :
    (items.filter fun e => e.1 ≠ id).map plain = Lru.remove id (items.map plain) := by
  rw [Lru.remove, List.filter_map]
  rfl

/-- An entry with a new stamp goes to the front. -/
lemma Lists.insert (h : Lists cache items) (hcounted : Counted cache) {entry : CacheEntry}
    (hstamp : entry.lastUsed = cache.tick + 1) (htick : cache'.map = cache.map.insert id entry) :
    Lists cache' (⟨id, entry⟩ :: items.filter fun e => e.1 ≠ id) := by
  constructor
  · rw [htick, entries_insert_eq]
    exact (h.filter_perm id).cons _
  · rw [List.pairwise_cons]
    refine ⟨?_, h.sorted.filter _⟩
    intro e he
    have hle := hcounted.le_tick e (h.perm.mem_iff.1 (List.mem_of_mem_filter he))
    dsimp only
    omega

/-! ### Eviction -/

lemma Counted.not_over_iff (hcounted : Counted cache) (h : Lists cache items) :
    ¬ cache.Over ↔ Lru.Fits size cache.limits (items.map plain) := by
  have hload : Lru.load size (items.map plain) = cache.bytes := by
    rw [hcounted.bytes, stored_perm h.perm.symm, Lru.load, List.map_map]
    rfl
  rw [Over, not_or, Nat.not_lt, Nat.not_lt, Lru.Fits, hload, List.length_map, h.perm.length_eq]
  rfl

/-- **The scan finds the last item**, in whatever order it iterates. -/
lemma Lists.eq_concat_of_victim (h : Lists cache items) (hvictim : victim order cache.map = some e) :
    ∃ front, items = front ++ [e] ∧ Lists (cache.without e) front := by
  have hmem : e ∈ items := h.perm.mem_iff.2 (mem_of_victim hvictim)
  obtain ⟨front, back, rfl⟩ := List.append_of_mem hmem
  have hback : back = [] := by
    rw [List.eq_nil_iff_forall_not_mem]
    intro e' he'
    have hsorted := (List.pairwise_append.1 h.sorted).2.1
    have hlt := (List.pairwise_cons.1 hsorted).1 e' he'
    have hle := le_of_victim hvictim (h.perm.mem_iff.1
      (List.mem_append_right _ (List.mem_cons_of_mem _ he')))
    omega
  subst hback
  refine ⟨front, rfl, ?_, (List.pairwise_append.1 h.sorted).1⟩
  have hperm := perm_without (mem_of_victim hvictim)
  exact (List.perm_cons e).1 ((List.perm_append_singleton e front).symm.trans
    (h.perm.trans hperm))

/-- The rounds of the loop drop items from the back. -/
lemma Evicts.trim (hevicts : Evicts order cache es cache') (hcounted : Counted cache)
    (h : Lists cache items) :
    Represents cache' (Lru.trim size cache.limits (items.map plain)) := by
  induction hevicts generalizing items with
  | done hover =>
    rw [Lru.trim_of_fits ((hcounted.not_over_iff h).1 hover)]
    exact ⟨items, h, rfl⟩
  | round hover hvictim hle hrest ih =>
    obtain ⟨front, rfl, hfront⟩ := h.eq_concat_of_victim hvictim
    have hfits := mt (hcounted.not_over_iff h).2 (not_not_intro hover)
    rw [Lru.trim_of_not_fits hfits, List.map_append, List.map_singleton, List.dropLast_concat]
    exact ih (hcounted.without (mem_of_victim hvictim)).2 hfront

/-! ### Operations -/

lemma Represents.new (maxEntries maxBytes : ℕ) :
    Represents (MemoryCache.new maxEntries maxBytes) [] :=
  ⟨[], ⟨List.Perm.refl _, List.Pairwise.nil⟩, rfl⟩

lemma Represents.get (h : Represents cache l) (hcounted : Counted cache) (id : String) :
    (cache.get id).1 = (Lru.get id l).1 ∧ Represents (cache.get id).2 (Lru.get id l).2 := by
  obtain ⟨items, hlists, rfl⟩ := h
  have hfound := hlists.lookup id
  rw [MemoryCache.get, Lru.get, hfound]
  cases hlookup : cache.map.lookup id with
  | none => exact ⟨rfl, items, ⟨hlists.perm, hlists.sorted⟩, rfl⟩
  | some entry =>
    refine ⟨rfl, _, hlists.insert hcounted rfl rfl, ?_⟩
    rw [List.map_cons, plain_filter]
    rfl

lemma Represents.put (h : Represents cache l) (hcounted : Counted cache) (order : IterOrder)
    (id : String) (data : ResolvedData) :
    Represents (cache.put order id data) (Lru.put size cache.limits id data l) := by
  obtain ⟨items, hlists, rfl⟩ := h
  by_cases hrejected : cache.limits.entries = 0 ∨ size data > cache.limits.load
  · rw [put_of_rejected hrejected, Lru.put, if_pos hrejected]
    exact ⟨items, hlists, rfl⟩
  · rw [put_eq hrejected, Lru.put, if_neg hrejected]
    have hinserted := hcounted.inserted id data
    obtain ⟨es, hevicts⟩ := hinserted.evicts order
    have hlists' : Lists (cache.inserted id data) _ := hlists.insert hcounted rfl rfl
    have htrim := hevicts.trim hinserted hlists'
    rw [List.map_cons, plain_filter] at htrim
    exact htrim

/-- Between operations, the cache is accounted for and holds what the reference list holds. -/
structure Refines (lim : Lru.Limits) (cache : MemoryCache) (l : List (String × ResolvedData)) :
    Prop where
  accounted : Accounted cache
  limits : cache.limits = lim
  represents : Represents cache l

variable {lim : Lru.Limits}

/-- The reference list finds what the cache holds. -/
lemma Refines.lookup (h : Refines lim cache l) (id : String) :
    Lru.lookup id l = (cache.map.lookup id).map CacheEntry.data := by
  obtain ⟨items, hlists, rfl⟩ := h.represents
  exact hlists.lookup id

lemma Refines.new (maxEntries maxBytes : ℕ) :
    Refines ⟨maxEntries, maxBytes⟩ (MemoryCache.new maxEntries maxBytes) [] :=
  ⟨.new _ _, rfl, .new _ _⟩

/-- **Every operation gives the result of the reference model** and leads to its next list. -/
lemma Refines.perform (h : Refines lim cache l) (op : CacheOp) :
    (cache.perform op).1 = (reference lim l op).1 ∧
      Refines lim (cache.perform op).2 (reference lim l op).2 := by
  obtain ⟨haccounted, -, hentries, hbytes⟩ := perform_keeps h.accounted op
  have hlimits : (cache.perform op).2.limits = lim := by
    rw [MemoryCache.limits, hentries, hbytes]
    exact h.limits
  cases op with
  | get id =>
    obtain ⟨hresult, hrepresents⟩ := h.represents.get h.accounted.toCounted id
    exact ⟨hresult, haccounted, hlimits, hrepresents⟩
  | put order id data =>
    have hrepresents := h.represents.put h.accounted.toCounted order id data
    rw [h.limits] at hrepresents
    exact ⟨rfl, haccounted, hlimits, hrepresents⟩

/-- An accepted insertion after which the entry can be read, and which keeps as much of the
reference list as fits. -/
structure Inserts (lim : Lru.Limits) (cache : MemoryCache) (l : List (String × ResolvedData))
    (order : IterOrder) (id : String) (data : ResolvedData) : Prop where
  readable : ((cache.put order id data).get id).1 = some data
  kept : ∃ kept, Represents (cache.put order id data) kept ∧ Lru.Fits size lim kept ∧
    kept <+: (id, data) :: Lru.remove id l ∧
    ∀ l', l' <+: (id, data) :: Lru.remove id l → Lru.Fits size lim l' → l' <+: kept

lemma Refines.inserts (h : Refines lim cache l) (order : IterOrder)
    (haccepted : ¬ (lim.entries = 0 ∨ data.bytes.length > lim.load)) :
    Inserts lim cache l order id data := by
  obtain ⟨-, hput⟩ := h.perform (.put order id data)
  have hlist : (reference lim l (.put order id data)).2 =
      Lru.trim size lim ((id, data) :: Lru.remove id l) := by
    show Lru.put size lim id data l = _
    rw [Lru.put]
    exact if_neg haccepted
  rw [not_or, Nat.not_lt] at haccepted
  constructor
  · obtain ⟨hresult, -⟩ := hput.represents.get hput.accounted.toCounted id
    refine hresult.trans ?_
    show (Lru.get id (Lru.put size lim id data l)).1 = some data
    have hfound : Lru.lookup id (Lru.put size lim id data l) = some data :=
      Lru.lookup_put haccepted.1 haccepted.2
    rw [Lru.get, hfound]
  · refine ⟨_, hput.represents, ?_⟩
    rw [hlist]
    exact ⟨Lru.fits_trim _ _ _, Lru.trim_prefix_self _ _ _, fun l' => Lru.prefix_trim⟩

/-- **The memory cache is an LRU**: over every sequence of operations, in whatever order each
eviction scans the map, it gives the results of the reference model. -/
theorem outputs_eq_reference (maxEntries maxBytes : ℕ) (ops : List CacheOp) :
    outputs perform (new maxEntries maxBytes) ops =
      outputs (reference ⟨maxEntries, maxBytes⟩) [] ops ∧
    Represents ((new maxEntries maxBytes).after ops)
      (final (reference ⟨maxEntries, maxBytes⟩) [] ops) ∧
    ((new maxEntries maxBytes).after ops).tick ≤ ops.length ∧
    ∀ order id (data : ResolvedData), ¬ (maxEntries = 0 ∨ data.bytes.length > maxBytes) →
      Inserts ⟨maxEntries, maxBytes⟩ ((new maxEntries maxBytes).after ops)
        (final (reference ⟨maxEntries, maxBytes⟩) [] ops) order id data := by
  obtain ⟨hresults, hrefines⟩ := outputs_eq_of_simulation
    (R := Refines ⟨maxEntries, maxBytes⟩) (fun _ _ op h => h.perform op)
    (.new maxEntries maxBytes) ops
  obtain ⟨-, htick, -, -⟩ := after_keeps (Accounted.new maxEntries maxBytes) ops
  rw [show (new maxEntries maxBytes).tick = 0 from rfl, Nat.zero_add] at htick
  exact ⟨hresults, hrefines.represents, htick, fun order id data => hrefines.inserts order⟩

end DigUrnResolver.MemoryCache
