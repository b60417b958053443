/-
# Coherence of the memory cache

What the memory cache gives for an identity is what was last put under it, among the insertions
that the cache accepts.  The reference list holds nothing else: a lookup brings in no entry, and an
accepted insertion leaves no other entry of its identity.

An insertion that the cache does not accept changes nothing.  What was cached under its identity
stays, so it is not always the very last insertion that a lookup gives back.
-/
import DigUrnResolver.Caching.Recency

namespace DigUrnResolver.MemoryCache

open Interaction

/-- The cache takes the entry. -/
def Accepts (lim : Lru.Limits) (data : ResolvedData) : Prop :=
  ¬ (lim.entries = 0 ∨ size data > lim.load)

/-- Among the insertions under `id` whose data satisfy `p`, the last one is of `data`. -/
def LastPut (p : ResolvedData → Prop) (ops : List CacheOp) (id : String) (data : ResolvedData) :
    Prop :=
  ∃ front order back, ops = front ++ .put order id data :: back ∧ p data ∧
    ∀ order' data', .put order' id data' ∈ back → ¬ p data'

variable {p : ResolvedData → Prop} {lim : Lru.Limits} {ops : List CacheOp} {op : CacheOp}
  {order : IterOrder} {id : String} {data data' : ResolvedData}
  {l : List (String × ResolvedData)}

/-! ### The last insertion -/

lemma LastPut.concat (hput : p data) (order : IterOrder) :
    LastPut p (ops ++ [.put order id data]) id data :=
  ⟨ops, order, [], rfl, hput, fun _ _ hmem => absurd hmem List.not_mem_nil⟩

/-- Operations that put nothing of the kind under the identity do not matter. -/
lemma LastPut.snoc (h : LastPut p ops id data)
    (hop : ∀ order' data', op = .put order' id data' → ¬ p data') :
    LastPut p (ops ++ [op]) id data := by
  obtain ⟨front, order, back, rfl, hput, hback⟩ := h
  refine ⟨front, order, back ++ [op], by simp, hput, ?_⟩
  intro order' data' hmem
  rcases List.mem_append.1 hmem with hmem | hmem
  · exact hback order' data' hmem
  · exact hop order' data' (List.mem_singleton.1 hmem).symm

/-- There is one last insertion. -/
lemma LastPut.unique (h : LastPut p ops id data) (h' : LastPut p ops id data') : data = data' := by
  obtain ⟨front, order, back, rfl, hput, hback⟩ := h
  obtain ⟨front', order', back', heq, hput', hback'⟩ := h'
  rcases List.append_eq_append_iff.1 heq with ⟨mid, -, htail⟩ | ⟨mid, -, htail⟩
  · -- the second insertion is not before the first
    rcases mid with _ | ⟨op, mid⟩
    · obtain ⟨hop, -⟩ := List.cons.inj htail
      cases hop
      rfl
    · obtain ⟨-, rfl⟩ := List.cons.inj htail
      exact absurd hput' (hback order' data' (by simp))
  · rcases mid with _ | ⟨op, mid⟩
    · obtain ⟨hop, -⟩ := List.cons.inj htail
      cases hop
      rfl
    · obtain ⟨-, rfl⟩ := List.cons.inj htail
      exact absurd hput (hback' order data (by simp))

/-! ### The reference list -/

/-- Every entry of the list is the last accepted insertion under its identity. -/
def Coherent (lim : Lru.Limits) (ops : List CacheOp) (l : List (String × ResolvedData)) : Prop :=
  ∀ e ∈ l, LastPut (Accepts lim) ops e.1 e.2

lemma Coherent.get (h : Coherent lim ops l) (id : String) :
    Coherent lim (ops ++ [.get id]) (Lru.get id l).2 := by
  intro e he
  refine (h e (Lru.mem_of_mem_get he)).snoc ?_
  rintro order' data' ⟨⟩

lemma Coherent.put (h : Coherent lim ops l) (order : IterOrder) (id : String)
    (data : ResolvedData) :
    Coherent lim (ops ++ [.put order id data]) (Lru.put size lim id data l) := by
  intro e he
  by_cases haccepted : Accepts lim data
  · rcases Lru.mem_of_mem_put haccepted he with rfl | ⟨he, hne⟩
    · exact .concat haccepted order
    · refine (h e he).snoc ?_
      rintro order' data' ⟨⟩
      exact absurd rfl hne
  · rw [Lru.put, if_pos (not_not.1 haccepted)] at he
    refine (h e he).snoc ?_
    rintro order' data' ⟨⟩
    exact haccepted

/-- One operation of the reference model. -/
lemma Coherent.reference (h : Coherent lim ops l) (op : CacheOp) :
    Coherent lim (ops ++ [op]) (reference lim l op).2 := by
  cases op with
  | get id => exact h.get id
  | put order id data => exact h.put order id data

/-- A run of the reference model. -/
lemma coherent_final (lim : Lru.Limits) (ops : List CacheOp) :
    Coherent lim ops (final (reference lim) [] ops) := by
  induction ops using List.reverseRecOn with
  | nil => exact fun e he => absurd he List.not_mem_nil
  | append_singleton ops op ih =>
    rw [final, List.foldl_concat]
    exact ih.reference op

/-! ### The cache -/

lemma Refines.put_of_not_accepts {cache : MemoryCache} (h : Refines lim cache l)
    (hrejected : ¬ Accepts lim data) (order : IterOrder) (id : String) :
    cache.put order id data = cache := by
  have hlimits : cache.maxEntries = lim.entries ∧ cache.maxBytes = lim.load :=
    ⟨congrArg Lru.Limits.entries h.limits, congrArg Lru.Limits.load h.limits⟩
  refine put_of_rejected ?_
  rw [hlimits.1, hlimits.2]
  exact not_not.1 hrejected

/-- **The memory cache is coherent**: after every sequence of operations, a lookup gives nothing or
what was last put under the identity, among the insertions that the cache accepts; and an insertion
that it does not accept changes nothing. -/
theorem get_eq_lastPut (maxEntries maxBytes : ℕ) (ops : List CacheOp) (id : String) :
    ((((new maxEntries maxBytes).after ops).get id).1 = none ∨
      ∃ data, (((new maxEntries maxBytes).after ops).get id).1 = some data ∧
        LastPut (Accepts ⟨maxEntries, maxBytes⟩) ops id data) ∧
    ∀ order id' data, ¬ Accepts ⟨maxEntries, maxBytes⟩ data →
      ((new maxEntries maxBytes).after ops).put order id' data =
        (new maxEntries maxBytes).after ops := by
  obtain ⟨-, hrefines⟩ := outputs_eq_of_simulation (R := Refines ⟨maxEntries, maxBytes⟩)
    (fun _ _ op h => h.perform op) (.new maxEntries maxBytes) ops
  refine ⟨?_, fun order id' data hrejected => hrefines.put_of_not_accepts hrejected order id'⟩
  have hcoherent := coherent_final ⟨maxEntries, maxBytes⟩ ops
  obtain ⟨hresult, -⟩ := hrefines.represents.get hrefines.accounted.toCounted id
  change (((new maxEntries maxBytes).after ops).get id).1 = _ at hresult
  rw [hresult, Lru.get]
  cases hlookup : Lru.lookup id (final (reference ⟨maxEntries, maxBytes⟩) [] ops) with
  | none => exact .inl rfl
  | some data => exact .inr ⟨data, rfl, hcoherent _ (Lru.mem_of_lookup hlookup)⟩

/-- Two insertions under one identity, the second above the byte budget of the cache. -/
def staleRun : List CacheOp :=
  [.put .stored "k" ⟨[1], "text/plain"⟩, .put .stored "k" ⟨[1, 2, 3], "text/plain"⟩]

/-- **The insertion that is not accepted replaces nothing**: the first data is still given. -/
theorem staleRun_get :
    (((new 4 2).after staleRun).get "k").1 = some ⟨[1], "text/plain"⟩ ∧
    ¬ ∀ maxEntries maxBytes ops id,
      (((new maxEntries maxBytes).after ops).get id).1 = none ∨
      ∃ data, (((new maxEntries maxBytes).after ops).get id).1 = some data ∧
        LastPut (fun _ => True) ops id data := by
  have hget : (((new 4 2).after staleRun).get "k").1 = some ⟨[1], "text/plain"⟩ := by
    have hinserts : Inserts ⟨4, 2⟩ (new 4 2) [] .stored "k" ⟨[1], "text/plain"⟩ :=
      (Refines.new 4 2).inserts .stored (by decide)
    obtain ⟨-, -, -, hbytes⟩ := perform_keeps (Accounted.new 4 2)
      (.put .stored "k" ⟨[1], "text/plain"⟩)
    change ((new 4 2).put .stored "k" ⟨[1], "text/plain"⟩).maxBytes = 2 at hbytes
    change ((((new 4 2).put .stored "k" ⟨[1], "text/plain"⟩).put .stored "k"
      ⟨[1, 2, 3], "text/plain"⟩).get "k").1 = _
    rw [put_of_rejected]
    · exact hinserts.readable
    · rw [hbytes]
      exact .inr (by decide)
  refine ⟨hget, ?_⟩
  intro hcoherent
  have hlast : LastPut (fun _ => True) staleRun "k" ⟨[1, 2, 3], "text/plain"⟩ :=
    ⟨[_], .stored, [], rfl, trivial, fun _ _ hmem => absurd hmem List.not_mem_nil⟩
  rcases hcoherent 4 2 staleRun "k" with hnone | ⟨data, hdata, hput⟩
  · exact absurd (hnone.symm.trans hget) (Option.some_ne_none _).symm
  · obtain rfl := Option.some.inj (hdata.symm.trans hget)
    exact absurd (hput.unique hlast) (by decide)

end DigUrnResolver.MemoryCache
