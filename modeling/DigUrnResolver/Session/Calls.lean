/-
# Calls one after the other

A session is a sequence of finished calls of `resolve`, between which outsiders may change the
cache directory.  The memory cache of each resolver is an LRU throughout (`World.Ordered`), and
sessions cannot tell worlds apart whose memory caches hold the same entries in the same order of
recency (`Alike`), whatever their clocks show.
-/
import DigUrnResolver.Caching.Recency
import DigUrnResolver.Interaction.Talk
import DigUrnResolver.Source.World

namespace DigUrnResolver

open Interaction

variable {ρ : Type}

namespace World

variable {w w' : World ρ}

/-! ### Ordered memory -/

/-- The bounds of the memory cache of every resolver. -/
def memoryLimits : Lru.Limits :=
  ⟨MemoryCache.defaultMemoryEntries, MemoryCache.defaultMemoryBytes⟩

/-- The memory cache of every resolver is an LRU. -/
def Ordered (w : World ρ) : Prop := ∀ r, ∃ l, MemoryCache.Refines memoryLimits (w.inst r).memory l

/-- Worlds with the same files and plans, whose memory caches hold the same entries in the same
order of recency. -/
structure Alike (w w' : World ρ) : Prop where
  disk : w.disk = w'.disk
  plan : ∀ r, (w.inst r).planCache = (w'.inst r).planCache
  memory : ∀ r, ∃ l, MemoryCache.Refines memoryLimits (w.inst r).memory l ∧
    MemoryCache.Refines memoryLimits (w'.inst r).memory l

lemma Alike.symm (h : Alike w w') : Alike w' w where
  disk := h.disk.symm
  plan r := (h.plan r).symm
  memory r := by
    obtain ⟨l, hl, hl'⟩ := h.memory r
    exact ⟨l, hl', hl⟩

lemma ordered_new (disk : String → Option Bytes) : (World.new disk : World ρ).Ordered :=
  fun _ => ⟨[], .new _ _⟩

lemma Ordered.alike (h : w.Ordered) : Alike w w where
  disk := rfl
  plan _ := rfl
  memory r := by
    obtain ⟨l, hl⟩ := h r
    exact ⟨l, hl, hl⟩

lemma Alike.ordered_right (h : Alike w w') : w'.Ordered := by
  intro r
  obtain ⟨l, -, hl⟩ := h.memory r
  exact ⟨l, hl⟩

end World

variable [DecidableEq ρ]

/-- In the world `w`, the call may have the conversation `t` and the result `r`, and leave the
world as `w'`. -/
structure Resolves (D : Deps) (options : ρ → ResolveOptions) (c : Call ρ) (w : World ρ)
    (t : List (Event Op Ans)) (r : Except ResolveError ResolveOutcome) (w' : World ρ) : Prop where
  trace : (Resolver.resolve D (options c.resolver) c.urn).Trace t r
  talks : Talks (World.trans D c) w t w'

/-- A call with its conversation and its result. -/
structure Done (ρ : Type) where
  call : Call ρ
  talk : List (Event Op Ans)
  result : Except ResolveError ResolveOutcome

/-- `Calls D options w xs w'` : the calls `xs` may be made one after the other, from `w` to `w'`,
with any changes to the cache directory in between. -/
inductive Calls (D : Deps) (options : ρ → ResolveOptions) :
    World ρ → List (Done ρ) → World ρ → Prop
  | nil (w : World ρ) : Calls D options w [] w
  | cons {w w₁ w₂ w' : World ρ} {x : Done ρ} {xs : List (Done ρ)}
      (h : Resolves D options x.call w x.talk x.result w₁) (htamper : Tampering w₁ w₂)
      (hrest : Calls D options w₂ xs w') : Calls D options w (x :: xs) w'

variable {D : Deps} {options : ρ → ResolveOptions} {w w' w₁ w₂ : World ρ} {c : Call ρ} {op : Op}
  {ans : Ans op} {t : List (Event Op Ans)} {r : ρ}

namespace World

/-! ### What an operation does to each part of the world -/

/-- The memory cache after an operation of its resolver. -/
def memoryAfter (D : Deps) (cache : MemoryCache) : Op → MemoryCache
  | .memoryGet id => (cache.get id).2
  | .memoryPut id data => cache.put D.iterOrder id data
  | _ => cache

/-- The cached plan after an operation of its resolver. -/
def planAfter (cached : Option (List Endpoint)) : Op → Option (List Endpoint)
  | .planSet plan => some plan
  | _ => cached

/-- The cache directory after an operation. -/
def diskAfter (D : Deps) (disk : String → Option Bytes) : Op → String → Option Bytes
  | .diskPut id art =>
    match D.artifactsToVec art with
    | some contents => Function.update disk (diskPath D id) (some contents)
    | none => disk
  | .diskRemove id => Function.update disk (diskPath D id) none
  | _ => disk

lemma inst_of_trans_of_ne (htr : trans D c op w ans w') (hr : r ≠ c.resolver) :
    w'.inst r = w.inst r := by
  cases op with
  | get | postJson | resolvesToLoopback =>
    obtain rfl : w' = w := htr
    rfl
  | verifyAndDecrypt | diskGet | planGet | diskRemove =>
    obtain ⟨-, rfl⟩ := htr
    rfl
  | diskPut =>
    obtain ⟨-, rfl⟩ := htr
    rw [inst_putFile]
  | memoryGet | memoryPut | planSet =>
    obtain ⟨-, rfl⟩ := htr
    exact Function.update_of_ne hr _ _

lemma memory_of_trans (htr : trans D c op w ans w') :
    (w'.inst c.resolver).memory = memoryAfter D (w.inst c.resolver).memory op := by
  cases op with
  | get | postJson | resolvesToLoopback =>
    obtain rfl : w' = w := htr
    rfl
  | verifyAndDecrypt | diskGet | planGet | diskRemove =>
    obtain ⟨-, rfl⟩ := htr
    rfl
  | diskPut =>
    obtain ⟨-, rfl⟩ := htr
    rw [inst_putFile]
    rfl
  | memoryGet | memoryPut =>
    obtain ⟨-, rfl⟩ := htr
    exact memory_setMemory_self _ _ _
  | planSet =>
    obtain ⟨-, rfl⟩ := htr
    exact memory_setPlan _ _ _ _

lemma planCache_after_trans (htr : trans D c op w ans w') :
    (w'.inst c.resolver).planCache = planAfter (w.inst c.resolver).planCache op := by
  cases op with
  | get | postJson | resolvesToLoopback =>
    obtain rfl : w' = w := htr
    rfl
  | verifyAndDecrypt | diskGet | planGet | diskRemove =>
    obtain ⟨-, rfl⟩ := htr
    rfl
  | diskPut =>
    obtain ⟨-, rfl⟩ := htr
    rw [inst_putFile]
    rfl
  | memoryGet | memoryPut =>
    obtain ⟨-, rfl⟩ := htr
    exact planCache_setMemory _ _ _ _
  | planSet =>
    obtain ⟨-, rfl⟩ := htr
    exact planCache_setPlan_self _ _ _

lemma disk_after_trans (htr : trans D c op w ans w') : w'.disk = diskAfter D w.disk op := by
  cases op with
  | get | postJson | resolvesToLoopback =>
    obtain rfl : w' = w := htr
    rfl
  | verifyAndDecrypt | diskGet | planGet | diskRemove | memoryGet | memoryPut | planSet =>
    obtain ⟨-, rfl⟩ := htr
    rfl
  | diskPut id art =>
    obtain ⟨-, rfl⟩ := htr
    show (w.putFile D id art).disk = diskAfter D w.disk (.diskPut id art)
    rw [putFile, diskAfter]
    cases D.artifactsToVec art with
    | none => rfl
    | some contents => rfl

/-! ### Steps of like worlds -/

/-- The list of a memory cache after an operation of its resolver. -/
def listAfter (l : List (String × ResolvedData)) : Op → List (String × ResolvedData)
  | .memoryGet id => (Lru.get id l).2
  | .memoryPut id data => Lru.put MemoryCache.size memoryLimits id data l
  | _ => l

lemma refines_memoryAfter {cache : MemoryCache} {l : List (String × ResolvedData)}
    (h : MemoryCache.Refines memoryLimits cache l) (op : Op) :
    MemoryCache.Refines memoryLimits (memoryAfter D cache op) (listAfter l op) := by
  cases op with
  | memoryGet id => exact (h.perform (.get id)).2
  | memoryPut id data => exact (h.perform (.put D.iterOrder id data)).2
  | _ => exact h

/-- The same operation leads from like worlds to like worlds. -/
lemma Alike.after (h : Alike w w₁) {ans' : Ans op} (htr : trans D c op w ans w')
    (htr₁ : trans D c op w₁ ans' w₂) : Alike w' w₂ where
  disk := by rw [disk_after_trans htr, disk_after_trans htr₁, h.disk]
  plan r := by
    by_cases hr : r = c.resolver
    · subst hr
      rw [planCache_after_trans htr, planCache_after_trans htr₁, h.plan]
    · rw [inst_of_trans_of_ne htr hr, inst_of_trans_of_ne htr₁ hr, h.plan]
  memory r := by
    obtain ⟨l, hl, hl₁⟩ := h.memory r
    by_cases hr : r = c.resolver
    · subst hr
      rw [memory_of_trans htr, memory_of_trans htr₁]
      exact ⟨_, refines_memoryAfter hl op, refines_memoryAfter hl₁ op⟩
    · rw [inst_of_trans_of_ne htr hr, inst_of_trans_of_ne htr₁ hr]
      exact ⟨l, hl, hl₁⟩

/-- Like worlds may give the same answers. -/
lemma Alike.trans (h : Alike w w₁) (htr : trans D c op w ans w') :
    ∃ w₂, World.trans D c op w₁ ans w₂ ∧ Alike w' w₂ := by
  suffices hans : ∃ w₂, World.trans D c op w₁ ans w₂ by
    obtain ⟨w₂, htr₁⟩ := hans
    exact ⟨w₂, htr₁, h.after htr htr₁⟩
  cases op with
  | get | postJson | resolvesToLoopback => exact ⟨w₁, rfl⟩
  | verifyAndDecrypt | memoryPut | diskPut | diskRemove | planSet => exact ⟨_, htr.1, rfl⟩
  | planGet => exact ⟨_, htr.1.trans (h.plan _), rfl⟩
  | diskGet id =>
    refine ⟨_, htr.1.trans ?_, rfl⟩
    show w.getFile D id = w₁.getFile D id
    rw [getFile, getFile, h.disk]
  | memoryGet id =>
    obtain ⟨l, hl, hl₁⟩ := h.memory c.resolver
    have hresult := (hl.represents.get hl.accounted.toCounted id).1
    have hresult₁ := (hl₁.represents.get hl₁.accounted.toCounted id).1
    exact ⟨_, htr.1.trans (hresult.trans hresult₁.symm), rfl⟩

end World

/-! ### Sessions -/

/-- Like worlds allow the same call. -/
lemma Resolves.simulate {r : Except ResolveError ResolveOutcome}
    (h : Resolves D options c w t r w') (halike : World.Alike w w₁) :
    ∃ w₂, Resolves D options c w₁ t r w₂ ∧ World.Alike w' w₂ := by
  obtain ⟨w₂, htalks, halike'⟩ := h.talks.simulate (fun _ _ _ _ _ hR htr => hR.trans htr) halike
  exact ⟨w₂, ⟨h.trace, htalks⟩, halike'⟩

/-- **Like worlds allow the same sessions**, with the same conversations and results. -/
lemma Calls.simulate {xs : List (Done ρ)} (h : Calls D options w xs w')
    (halike : World.Alike w w₁) : ∃ w₂, Calls D options w₁ xs w₂ ∧ World.Alike w' w₂ := by
  induction h generalizing w₁ with
  | nil w => exact ⟨w₁, .nil w₁, halike⟩
  | @cons _ _ w₂ _ x xs h htamper _ ih =>
    obtain ⟨w₃, hcall, halike₃⟩ := h.simulate halike
    -- the outsiders do the same to both directories
    have htampered : World.Alike w₂ { w₃ with disk := w₂.disk } := by
      have hinst : w₂.inst = _ := htamper
      refine ⟨rfl, fun r => ?_, fun r => ?_⟩
      · rw [hinst]
        exact halike₃.plan r
      · rw [hinst]
        exact halike₃.memory r
    have htamper₃ : Tampering w₃ { w₃ with disk := w₂.disk } := rfl
    obtain ⟨w₄, hrest, halike₄⟩ := ih htampered
    exact ⟨w₄, .cons hcall htamper₃ hrest, halike₄⟩

lemma World.Ordered.talks (hw : w.Ordered) (h : Talks (World.trans D c) w t w') : w'.Ordered := by
  refine h.invariant hw ?_
  intro e _ s s' hs htr
  exact (hs.alike.after htr htr).ordered_right

lemma Calls.append {xs ys : List (Done ρ)} (h : Calls D options w xs w₁)
    (h' : Calls D options w₁ ys w') : Calls D options w (xs ++ ys) w' := by
  induction h with
  | nil => exact h'
  | cons hcall htamper _ ih => exact .cons hcall htamper (ih h')

/-- A session with one more call. -/
lemma Calls.snoc {xs : List (Done ρ)} {x : Done ρ} (h : Calls D options w xs w₁)
    (hcall : Resolves D options x.call w₁ x.talk x.result w') :
    Calls D options w (xs ++ [x]) w' := by
  have hquiet : Tampering w' w' := rfl
  exact h.append (.cons hcall hquiet (.nil w'))

/-- **The induction rule**: what every call and every change of the directory keeps holds after
the session. -/
lemma Calls.invariant {xs : List (Done ρ)} {I : World ρ → Prop} (h : Calls D options w xs w')
    (init : I w)
    (call : ∀ x ∈ xs, ∀ s s', I s → Resolves D options x.call s x.talk x.result s' → I s')
    (tamper : ∀ s s', I s → Tampering s s' → I s') : I w' := by
  induction h with
  | nil => exact init
  | cons h htamper _ ih =>
    refine ih (tamper _ _ (call _ List.mem_cons_self _ _ init h) htamper) ?_
    intro x hx
    exact call x (List.mem_cons_of_mem _ hx)

/-- **In every session the memory caches are LRUs.** -/
lemma Calls.ordered {xs : List (Done ρ)} (h : Calls D options w xs w') (hw : w.Ordered) :
    w'.Ordered := by
  refine h.invariant hw ?_ ?_
  · intro x _ s s' hs hcall
    exact hs.talks hcall.talks
  · intro s s' hs htamper r
    rw [show _ = _ from htamper]
    exact hs r

/-- A call does not touch the other resolvers. -/
lemma Resolves.inst_of_ne {result : Except ResolveError ResolveOutcome}
    (h : Resolves D options c w t result w') (hr : r ≠ c.resolver) : w'.inst r = w.inst r := by
  refine h.talks.invariant (I := fun s => s.inst r = w.inst r) rfl ?_
  intro e _ s s' hs htr
  rw [World.inst_of_trans_of_ne htr hr]
  exact hs

/-- A call over a network that answers by a fixed rule. -/
lemma resolves_alone (net : World.Net) (c : Call ρ) (w : World ρ) :
    Resolves D options c w
      ((Resolver.resolve D (options c.resolver) c.urn).script (World.handle D net c.resolver) w)
      (resultAlone D options net c w).1 (resultAlone D options net c w).2 where
  trace := Program.trace_run _ w
  talks := Program.talks_script id (fun op s => World.trans_handle D net c op s) _ w

end DigUrnResolver
