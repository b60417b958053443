/-
# Least recently used

The reference model of a cache that is bounded in two ways: the list of its entries, from the most
to the least recently used.  A hit moves an entry to the front, an insertion puts a new one there
and drops entries from the back until both bounds hold.

What is kept by an insertion is the longest prefix within the bounds (`prefix_trim`).  Hence an
entry stays as long as those that were used after it leave room for it, which is what `Resident`
says; it is kept by every operation on other keys.
-/
import Mathlib.Algebra.BigOperators.Group.Finset.Basic
import Mathlib.Algebra.Order.BigOperators.Group.Finset
import Mathlib.Algebra.Ring.Nat

namespace Lru

/-! ### The model -/

/-- How many entries a cache may hold, and how much in total. -/
structure Limits where
  entries : ℕ
  load : ℕ

section Trim

variable {K V : Type} (size : V → ℕ) (lim : Limits)

/-- The total size of the entries. -/
def load (l : List (K × V)) : ℕ := (l.map fun e => size e.2).sum

/-- Both bounds hold. -/
def Fits (l : List (K × V)) : Prop := l.length ≤ lim.entries ∧ load size l ≤ lim.load

instance (l : List (K × V)) : Decidable (Fits size lim l) := inferInstanceAs (Decidable (_ ∧ _))

variable {size lim} in
lemma length_dropLast_lt_of_not_fits {l : List (K × V)} (h : ¬ Fits size lim l) :
    l.dropLast.length < l.length := by
  have hne : l ≠ [] := by
    rintro rfl
    exact h ⟨Nat.zero_le _, Nat.zero_le _⟩
  have hpos := List.length_pos_iff.2 hne
  rw [List.length_dropLast]
  omega

/-- Drop entries from the back until both bounds hold. -/
def trim (l : List (K × V)) : List (K × V) :=
  if _h : Fits size lim l then l else trim l.dropLast
termination_by l.length
decreasing_by exact length_dropLast_lt_of_not_fits _h

end Trim

section Operations

variable {K V : Type} [DecidableEq K] (size : V → ℕ) (lim : Limits)

/-- The value of a key. -/
def lookup (k : K) (l : List (K × V)) : Option V := (l.find? fun e => e.1 = k).map Prod.snd

/-- Remove any entry of a key. -/
def remove (k : K) (l : List (K × V)) : List (K × V) := l.filter fun e => e.1 ≠ k

/-- A hit moves the entry to the front, a miss changes nothing. -/
def get (k : K) (l : List (K × V)) : Option V × List (K × V) :=
  match lookup k l with
  | none => (none, l)
  | some v => (some v, (k, v) :: remove k l)

/-- An insertion is ignored when the new entry alone exceeds a bound. -/
def put (k : K) (v : V) (l : List (K × V)) : List (K × V) :=
  if lim.entries = 0 ∨ size v > lim.load then l else trim size lim ((k, v) :: remove k l)

end Operations

/-! ### What fits -/

section Trim

variable {K V : Type} {size : V → ℕ} {lim : Limits} {l l' : List (K × V)}

@[simp] lemma load_nil : load size ([] : List (K × V)) = 0 := rfl

@[simp] lemma load_cons (e : K × V) : load size (e :: l) = size e.2 + load size l := List.sum_cons

@[simp] lemma load_append : load size (l ++ l') = load size l + load size l' := by
  rw [load, List.map_append, List.sum_append]
  rfl

lemma Fits.of_prefix (h : Fits size lim l) (hinitial : l' <+: l) : Fits size lim l' := by
  obtain ⟨rest, rfl⟩ := hinitial
  obtain ⟨hlength, hload⟩ := h
  rw [List.length_append] at hlength
  rw [load_append] at hload
  exact ⟨by omega, by omega⟩

lemma trim_of_fits (h : Fits size lim l) : trim size lim l = l := by
  rw [trim, dif_pos h]

lemma trim_of_not_fits (h : ¬ Fits size lim l) : trim size lim l = trim size lim l.dropLast := by
  rw [trim, dif_neg h]

lemma trim_prefix_self (size : V → ℕ) (lim : Limits) (l : List (K × V)) : trim size lim l <+: l := by
  fun_induction trim size lim l with
  | case1 l h => exact List.prefix_rfl
  | case2 l h ih => exact ih.trans l.dropLast_prefix

lemma fits_trim (size : V → ℕ) (lim : Limits) (l : List (K × V)) :
    Fits size lim (trim size lim l) := by
  fun_induction trim size lim l with
  | case1 l h => exact h
  | case2 l h ih => exact ih

/-- **No more is dropped than needed.** -/
lemma prefix_trim (hinitial : l' <+: l) (hfits : Fits size lim l') : l' <+: trim size lim l := by
  fun_induction trim size lim l with
  | case1 l h => exact hinitial
  | case2 l h ih =>
    refine ih ?_
    -- what fits is not the whole list, so it lacks the last entry
    obtain ⟨rest, rfl⟩ := hinitial
    rcases List.eq_nil_or_concat rest with rfl | ⟨front, e, rfl⟩
    · rw [List.append_nil] at h
      exact absurd hfits h
    · rw [List.concat_eq_append, ← List.append_assoc, List.dropLast_concat]
      exact List.prefix_append _ _

end Trim

/-! ### Keys -/

section Keys

variable {K V : Type} [DecidableEq K] {size : V → ℕ} {lim : Limits} {k k' : K} {v v' : V}
  {l l' : List (K × V)}

@[simp] lemma mem_remove {e : K × V} : e ∈ remove k l ↔ e ∈ l ∧ e.1 ≠ k := by
  rw [remove, List.mem_filter, decide_eq_true_eq]

lemma remove_append : remove k (l ++ l') = remove k l ++ remove k l' := List.filter_append ..

lemma remove_cons_of_ne (h : k' ≠ k) : remove k ((k', v) :: l) = (k', v) :: remove k l :=
  List.filter_cons_of_pos (decide_eq_true h)

@[simp] lemma lookup_cons_self : lookup k ((k, v) :: l) = some v := by
  simp [lookup]

lemma lookup_eq_none : lookup k l = none ↔ ∀ e ∈ l, e.1 ≠ k := by
  rw [lookup, Option.map_eq_none_iff, List.find?_eq_none]
  simp

/-- The first entry of a key is found. -/
lemma lookup_append_cons (h : ∀ e ∈ l, e.1 ≠ k) : lookup k (l ++ (k, v) :: l') = some v := by
  have hnone : l.find? (fun e => e.1 = k) = none := by
    rw [List.find?_eq_none]
    simpa using h
  rw [lookup, List.find?_append, hnone, Option.none_or]
  exact lookup_cons_self

/-- The keys of the entries are distinct. -/
def NodupKeys (l : List (K × V)) : Prop := (l.map Prod.fst).Nodup

/-- The only entry of a key is found. -/
lemma lookup_of_mem (hnodup : NodupKeys l) (h : (k, v) ∈ l) : lookup k l = some v := by
  obtain ⟨front, back, rfl⟩ := List.append_of_mem h
  refine lookup_append_cons ?_
  rintro ⟨k', v'⟩ he rfl
  rw [NodupKeys, List.map_append, List.map_cons] at hnodup
  exact List.disjoint_of_nodup_append hnodup (List.mem_map_of_mem he) List.mem_cons_self

omit [DecidableEq K] in
lemma NodupKeys.of_sublist (h : NodupKeys l) (hsub : l'.Sublist l) : NodupKeys l' :=
  (hsub.map Prod.fst).nodup h

lemma NodupKeys.cons_remove (h : NodupKeys l) (k : K) (v : V) :
    NodupKeys ((k, v) :: remove k l) := by
  rw [NodupKeys, List.map_cons, List.nodup_cons]
  refine ⟨?_, h.of_sublist List.filter_sublist⟩
  intro hmem
  obtain ⟨e, he, hkey⟩ := List.mem_map.1 hmem
  exact (mem_remove.1 he).2 hkey

lemma NodupKeys.get (h : NodupKeys l) (k : K) : NodupKeys (get k l).2 := by
  rw [Lru.get]
  cases lookup k l with
  | none => exact h
  | some v => exact h.cons_remove k v

lemma NodupKeys.put (h : NodupKeys l) (k : K) (v : V) : NodupKeys (put size lim k v l) := by
  rw [Lru.put]
  split_ifs
  · exact h
  · exact (h.cons_remove k v).of_sublist (trim_prefix_self _ _ _).sublist

lemma Fits.put (h : Fits size lim l) (k : K) (v : V) : Fits size lim (put size lim k v l) := by
  rw [Lru.put]
  split_ifs
  · exact h
  · exact fits_trim _ _ _

lemma mem_of_lookup (h : lookup k l = some v) : (k, v) ∈ l := by
  rw [lookup, Option.map_eq_some_iff] at h
  obtain ⟨e, he, rfl⟩ := h
  have hkey : e.1 = k := by simpa using List.find?_some he
  subst hkey
  exact List.mem_of_find?_eq_some he

/-- A lookup brings in no entry. -/
lemma mem_of_mem_get {e : K × V} (h : e ∈ (get k l).2) : e ∈ l := by
  rw [Lru.get] at h
  cases hlookup : lookup k l with
  | none =>
    rw [hlookup] at h
    exact h
  | some v =>
    rw [hlookup] at h
    rcases List.mem_cons.1 h with rfl | h
    · exact mem_of_lookup hlookup
    · exact (mem_remove.1 h).1

/-- An accepted insertion brings in its entry only, and no other of that key remains. -/
lemma mem_of_mem_put {e : K × V} (haccepted : ¬ (lim.entries = 0 ∨ size v > lim.load))
    (h : e ∈ put size lim k v l) : e = (k, v) ∨ e ∈ l ∧ e.1 ≠ k := by
  rw [Lru.put, if_neg haccepted] at h
  have hmem := (trim_prefix_self size lim _).subset h
  rcases List.mem_cons.1 hmem with rfl | hmem
  · exact .inl rfl
  · exact .inr (mem_remove.1 hmem)

/-- **An accepted entry is readable.** -/
lemma lookup_put (hentries : lim.entries ≠ 0) (hload : size v ≤ lim.load) :
    lookup k (put size lim k v l) = some v := by
  have hfits : Fits size lim [(k, v)] := ⟨Nat.one_le_iff_ne_zero.2 hentries, by simpa using hload⟩
  have hinitial : [(k, v)] <+: (k, v) :: remove k l := by simp
  rw [put, if_neg (by omega)]
  obtain ⟨rest, hrest⟩ := prefix_trim hinitial hfits
  rw [← hrest]
  exact lookup_cons_self

end Keys

/-! ### Residency -/

section Resident

variable {K V : Type} [DecidableEq K] {size : V → ℕ} {lim : Limits} {k k' : K} {v v' : V}
  {l : List (K × V)} {S : Finset K} {bound : K → ℕ}

/-- The entry `(k, v)` is cached, and only keys of `S` were used after it, with entries no larger
than `bound` says. -/
structure Resident (size : V → ℕ) (S : Finset K) (bound : K → ℕ) (k : K) (v : V)
    (l : List (K × V)) : Prop where
  split : ∃ front back, l = front ++ (k, v) :: back ∧
    ∀ e ∈ front, e.1 ∈ S ∧ size e.2 ≤ bound e.1
  notMem : k ∉ S
  nodup : NodupKeys l

/-- There is room for the keys of `S` besides the entry. -/
def Room (size : V → ℕ) (lim : Limits) (S : Finset K) (bound : K → ℕ) (v : V) : Prop :=
  S.card < lim.entries ∧ size v + ∑ x ∈ S, bound x ≤ lim.load

lemma Resident.lookup (h : Resident size S bound k v l) : lookup k l = some v := by
  obtain ⟨front, back, rfl, hfront⟩ := h.split
  refine lookup_append_cons ?_
  rintro e he rfl
  exact h.notMem (hfront e he).1

/-- Distinct keys of `S` take no more room than all of `S`. -/
lemma length_load_le {front : List (K × V)} (hnodup : NodupKeys front)
    (hfront : ∀ e ∈ front, e.1 ∈ S ∧ size e.2 ≤ bound e.1) :
    front.length ≤ S.card ∧ load size front ≤ ∑ x ∈ S, bound x := by
  induction front generalizing S with
  | nil => exact ⟨Nat.zero_le _, Nat.zero_le _⟩
  | cons e rest ih =>
    obtain ⟨hmem, hsize⟩ := hfront e List.mem_cons_self
    rw [NodupKeys, List.map_cons, List.nodup_cons] at hnodup
    obtain ⟨hlength, hload⟩ := @ih (S.erase e.1) hnodup.2 (by
      intro e' he'
      obtain ⟨hmem', hsize'⟩ := hfront e' (List.mem_cons_of_mem _ he')
      refine ⟨Finset.mem_erase.2 ⟨?_, hmem'⟩, hsize'⟩
      intro heq
      exact hnodup.1 (heq ▸ List.mem_map_of_mem he'))
    have hcard := Finset.card_erase_add_one hmem
    have hsum := Finset.add_sum_erase S bound hmem
    rw [List.length_cons, load_cons]
    exact ⟨by omega, by omega⟩

/-- The entry was just used. -/
lemma resident_cons_remove (hk : k ∉ S) (hnodup : NodupKeys l) :
    Resident size S bound k v ((k, v) :: remove k l) :=
  ⟨⟨[], remove k l, rfl, fun _ he => absurd he List.not_mem_nil⟩, hk, hnodup.cons_remove k v⟩

/-- An entry of another key of `S` is put in front. -/
lemma Resident.cons_remove (h : Resident size S bound k v l) (hk : k' ∈ S)
    (hsize : size v' ≤ bound k') :
    Resident size S bound k v ((k', v') :: remove k' l) := by
  obtain ⟨front, back, rfl, hfront⟩ := h.split
  have hne : k ≠ k' := by
    rintro rfl
    exact h.notMem hk
  refine ⟨⟨(k', v') :: remove k' front, remove k' back, ?_, ?_⟩, h.notMem, h.nodup.cons_remove _ _⟩
  · rw [remove_append, remove_cons_of_ne hne, List.cons_append]
  · intro e he
    rcases List.mem_cons.1 he with rfl | he
    · exact ⟨hk, hsize⟩
    · exact hfront e (mem_remove.1 he).1

/-- Trimming keeps the entry, for what is in front of it leaves room. -/
lemma Resident.trim (h : Resident size S bound k v l) (hroom : Room size lim S bound v) :
    Resident size S bound k v (trim size lim l) := by
  obtain ⟨front, back, rfl, hfront⟩ := h.split
  obtain ⟨hcard, hsum⟩ := hroom
  have hsub : front.Sublist (front ++ (k, v) :: back) := List.sublist_append_left _ _
  obtain ⟨hlength, hload⟩ := length_load_le (h.nodup.of_sublist hsub) hfront
  have hfits : Fits size lim (front ++ [(k, v)]) := by
    constructor
    · rw [List.length_append, List.length_singleton]
      omega
    · rw [load_append, load_cons, load_nil]
      dsimp only
      omega
  have hinitial : front ++ [(k, v)] <+: front ++ (k, v) :: back := ⟨back, by simp⟩
  have hkept := trim_prefix_self size lim (front ++ (k, v) :: back)
  obtain ⟨rest, hrest⟩ := prefix_trim hinitial hfits
  refine ⟨⟨front, rest, ?_, hfront⟩, h.notMem, h.nodup.of_sublist hkept.sublist⟩
  rw [← hrest, List.append_assoc, List.singleton_append]

/-- **A hit** is one of the entry itself, or keeps it. -/
lemma Resident.get (h : Resident size S bound k v l)
    (hk : ∀ v', (Lru.get k' l).1 = some v' → k' = k ∨ k' ∈ S ∧ size v' ≤ bound k') :
    Resident size S bound k v (Lru.get k' l).2 := by
  rw [Lru.get] at hk ⊢
  cases hlookup : Lru.lookup k' l with
  | none => exact h
  | some v' =>
    rw [hlookup] at hk
    rcases hk v' rfl with rfl | ⟨hmem, hsize⟩
    · obtain rfl := Option.some.inj (hlookup.symm.trans h.lookup)
      exact resident_cons_remove h.notMem h.nodup
    · exact h.cons_remove hmem hsize

/-- **An insertion under another key** keeps the entry. -/
lemma Resident.put (h : Resident size S bound k v l) (hroom : Room size lim S bound v)
    (hk : size v' ≤ lim.load → k' ∈ S ∧ size v' ≤ bound k') :
    Resident size S bound k v (Lru.put size lim k' v' l) := by
  rw [Lru.put]
  split_ifs with hrejected
  · exact h
  · rw [not_or, Nat.not_lt] at hrejected
    obtain ⟨hmem, hsize⟩ := hk hrejected.2
    exact (h.cons_remove hmem hsize).trim hroom

/-- The entry was just inserted. -/
lemma resident_put (hk : k ∉ S) (hnodup : NodupKeys l) (hroom : Room size lim S bound v) :
    Resident size S bound k v (Lru.put size lim k v l) := by
  obtain ⟨hcard, hsum⟩ := hroom
  rw [Lru.put, if_neg (by omega)]
  exact (resident_cons_remove hk hnodup).trim ⟨hcard, hsum⟩

end Resident

end Lru
