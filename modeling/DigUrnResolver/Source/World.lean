/-
# Resolvers at work

The meaning of the operations.  A world holds what each resolver keeps between its calls and
the one cache directory; the resolvers are named by the elements of an arbitrary type, so that
a single resolver is the case of a type with one element.  The read-crypto and the caches
answer from the world; the answers of the network and of the name lookup are left open.

A call of `resolve` awaits only at the operations of the transport.  The runs below let other
calls step in between any two operations, which covers these interleavings and those of a
resolver in another process, whose steps on the shared directory may fall anywhere.
-/
import DigUrnResolver.Interaction.Pool
import DigUrnResolver.Source.Resolver
import Mathlib.Logic.Function.Basic

namespace DigUrnResolver

open Interaction

/-- What a `Resolver` keeps between its calls. -/
structure Instance where
  memory : MemoryCache
  planCache : Option (List Endpoint)

/-- The resolvers and the cache directory, as a map from file names to contents. -/
structure World (ρ : Type) where
  inst : ρ → Instance
  disk : String → Option Bytes

/-- A call of `resolve` on one of the resolvers. -/
structure Call (ρ : Type) where
  resolver : ρ
  urn : String
deriving DecidableEq

/-- `Resolver::with_options`, as far as its state goes. -/
def Instance.new : Instance := ⟨.new MemoryCache.defaultMemoryEntries MemoryCache.defaultMemoryBytes, none⟩

/-- The file of an identity in the cache directory: `DiskCache::path`. -/
def diskPath (D : Deps) (id : String) : String := D.sha256Hex id ++ ".json"

namespace World

variable {ρ : Type}

/-- Resolvers that were just built, over a directory with arbitrary contents. -/
def new (disk : String → Option Bytes) : World ρ := ⟨fun _ => Instance.new, disk⟩

/-! ### The directory -/

def setDisk (w : World ρ) (path : String) (contents : Option Bytes) : World ρ :=
  { w with disk := Function.update w.disk path contents }

@[simp] lemma inst_setDisk (w : World ρ) (path : String) (contents : Option Bytes) :
    (w.setDisk path contents).inst = w.inst := rfl

variable (D : Deps)

/-- `DiskCache::put`: a file that cannot be serialized is not written. -/
def putFile (w : World ρ) (id : String) (artifacts : DiskArtifacts) : World ρ :=
  match D.artifactsToVec artifacts with
  | some contents => w.setDisk (diskPath D id) (some contents)
  | none => w

@[simp] lemma inst_putFile (w : World ρ) (id : String) (artifacts : DiskArtifacts) :
    (w.putFile D id artifacts).inst = w.inst := by
  unfold putFile
  split <;> rfl

/-- `DiskCache::get`: a missing or malformed file is a miss. -/
def getFile (w : World ρ) (id : String) : Option DiskArtifacts :=
  (w.disk (diskPath D id)).bind D.artifactsFromSlice

/-! ### The resolvers -/

variable [DecidableEq ρ]

def setMemory (w : World ρ) (r : ρ) (memory : MemoryCache) : World ρ :=
  { w with inst := Function.update w.inst r { w.inst r with memory := memory } }

def setPlan (w : World ρ) (r : ρ) (plan : List Endpoint) : World ρ :=
  { w with inst := Function.update w.inst r { w.inst r with planCache := some plan } }

section SimpSet

variable (w : World ρ) (r r' : ρ) (memory : MemoryCache) (plan : List Endpoint)

@[simp] lemma memory_setMemory_self : ((w.setMemory r memory).inst r).memory = memory := by
  simp [setMemory]

lemma memory_setMemory_of_ne {r r' : ρ} (h : r' ≠ r) :
    ((w.setMemory r memory).inst r').memory = (w.inst r').memory := by
  simp [setMemory, Function.update_of_ne h]

@[simp] lemma planCache_setMemory :
    ((w.setMemory r memory).inst r').planCache = (w.inst r').planCache := by
  by_cases h : r' = r
  · subst h
    simp [setMemory]
  · simp [setMemory, Function.update_of_ne h]

@[simp] lemma disk_setMemory : (w.setMemory r memory).disk = w.disk := rfl

@[simp] lemma memory_setPlan : ((w.setPlan r plan).inst r').memory = (w.inst r').memory := by
  by_cases h : r' = r
  · subst h
    simp [setPlan]
  · simp [setPlan, Function.update_of_ne h]

@[simp] lemma planCache_setPlan_self : ((w.setPlan r plan).inst r).planCache = some plan := by
  simp [setPlan]

lemma planCache_setPlan_of_ne {r r' : ρ} (h : r' ≠ r) :
    ((w.setPlan r plan).inst r').planCache = (w.inst r').planCache := by
  simp [setPlan, Function.update_of_ne h]

@[simp] lemma disk_setPlan : (w.setPlan r plan).disk = w.disk := rfl

end SimpSet

/-- The operations that the process answers itself, on the resolver `r`; `none` for those that
the network or the name service answers. -/
def localStep (r : ρ) : (op : Op) → World ρ → Option (Ans op × World ρ)
  | .get _, _ => none
  | .postJson _ _, _ => none
  | .resolvesToLoopback _, _ => none
  | .verifyAndDecrypt parsed ciphertext proofB64 root chunkLens, w =>
    some (Crypto.verifyAndDecrypt D parsed ciphertext proofB64 root chunkLens, w)
  | .memoryGet id, w =>
    some (((w.inst r).memory.get id).1, w.setMemory r ((w.inst r).memory.get id).2)
  | .memoryPut id data, w =>
    some ((), w.setMemory r ((w.inst r).memory.put D.iterOrder id data))
  | .diskGet id, w => some (w.getFile D id, w)
  | .diskPut id artifacts, w => some ((), w.putFile D id artifacts)
  | .diskRemove id, w => some ((), w.setDisk (diskPath D id) none)
  | .planGet, w => some ((w.inst r).planCache, w)
  | .planSet plan, w => some ((), w.setPlan r plan)

/-- What an operation of a call may answer and make of the world. -/
def trans (c : Call ρ) (op : Op) (w : World ρ) (ans : Ans op) (w' : World ρ) : Prop :=
  match localStep D c.resolver op w with
  | some result => ans = result.1 ∧ w' = result.2
  | none => w' = w

/-! ### A network that answers by a fixed rule -/

/-- What the network and the name lookup answer. -/
structure Net where
  get : String → Except TransportError HttpResponse
  post : String → Json → Except TransportError HttpResponse
  loopback : String → Bool

/-- The answer of the network; operations of the process are not put to it. -/
def Net.answer (net : Net) : (op : Op) → Ans op
  | .get url => net.get url
  | .postJson url body => net.post url body
  | .resolvesToLoopback host => net.loopback host
  | .verifyAndDecrypt _ _ _ _ _ => .error .decryptFailed
  | .memoryGet _ => none
  | .memoryPut _ _ => ()
  | .diskGet _ => none
  | .diskPut _ _ => ()
  | .diskRemove _ => ()
  | .planGet => none
  | .planSet _ => ()

/-- The surroundings of a resolver over such a network. -/
def handle (net : Net) (r : ρ) (op : Op) (w : World ρ) : Ans op × World ρ :=
  (localStep D r op w).getD (net.answer op, w)

lemma trans_handle (net : Net) (c : Call ρ) (op : Op) (w : World ρ) :
    trans D c op w (handle D net c.resolver op w).1 (handle D net c.resolver op w).2 := by
  unfold trans handle
  cases localStep D c.resolver op w with
  | some result => exact ⟨rfl, rfl⟩
  | none => rfl

/-! ### What an operation does to one part of the world -/

section Inversion

variable {D} {c : Call ρ} {op : Op} {w w' : World ρ} {ans : Ans op}

/-- A property of the entries of every memory cache is kept when it holds of what is put. -/
lemma all_of_trans (htr : trans D c op w ans w') {P : ρ → String → ResolvedData → Prop}
    (hall : ∀ r, (w.inst r).memory.All (P r))
    (hput : ∀ id data, op = .memoryPut id data → P c.resolver id data) (r : ρ) :
    (w'.inst r).memory.All (P r) := by
  by_cases hr : r = c.resolver
  · subst hr
    cases op with
    | memoryGet id =>
      obtain ⟨-, rfl⟩ := htr
      simpa using (hall c.resolver).get_snd id
    | memoryPut id data =>
      obtain ⟨-, rfl⟩ := htr
      simpa using (hall c.resolver).put D.iterOrder (hput id data rfl)
    | get | postJson | resolvesToLoopback =>
      obtain rfl : w' = w := htr
      exact hall _
    | verifyAndDecrypt | diskGet | planGet =>
      obtain ⟨-, rfl⟩ := htr
      exact hall _
    | diskPut | diskRemove | planSet =>
      obtain ⟨-, rfl⟩ := htr
      simpa using hall c.resolver
  · cases op with
    | memoryGet | memoryPut =>
      obtain ⟨-, rfl⟩ := htr
      rw [memory_setMemory_of_ne _ _ hr]
      exact hall r
    | get | postJson | resolvesToLoopback =>
      obtain rfl : w' = w := htr
      exact hall _
    | verifyAndDecrypt | diskGet | planGet =>
      obtain ⟨-, rfl⟩ := htr
      exact hall _
    | diskPut | diskRemove | planSet =>
      obtain ⟨-, rfl⟩ := htr
      simpa using hall r

/-- A cached plan was cached before, unless it was just stored. -/
lemma planCache_of_trans (htr : trans D c op w ans w') {r : ρ} {plan : List Endpoint}
    (hplan : (w'.inst r).planCache = some plan) :
    (w.inst r).planCache = some plan ∨ r = c.resolver ∧ op = .planSet plan := by
  cases op with
  | planSet plan' =>
    obtain ⟨-, rfl⟩ := htr
    by_cases hr : r = c.resolver
    · subst hr
      rw [planCache_setPlan_self, Option.some.injEq] at hplan
      exact Or.inr ⟨rfl, by rw [hplan]⟩
    · rw [planCache_setPlan_of_ne _ _ hr] at hplan
      exact Or.inl hplan
  | get | postJson | resolvesToLoopback =>
    obtain rfl : w' = w := htr
    exact Or.inl hplan
  | memoryGet | memoryPut | verifyAndDecrypt | diskGet | planGet | diskPut | diskRemove =>
    obtain ⟨-, rfl⟩ := htr
    exact Or.inl (by simpa using hplan)

/-- The contents of a file are old, unless they were just written. -/
lemma disk_of_trans (htr : trans D c op w ans w') {path : String} {contents : Bytes}
    (hfile : w'.disk path = some contents) :
    w.disk path = some contents ∨ ∃ id art, op = .diskPut id art ∧ path = diskPath D id ∧
      D.artifactsToVec art = some contents := by
  cases op with
  | diskPut id art =>
    obtain ⟨-, rfl⟩ := htr
    cases hvec : D.artifactsToVec art with
    | none =>
      simp only [putFile, hvec] at hfile
      exact Or.inl hfile
    | some new =>
      simp only [putFile, hvec, setDisk] at hfile
      by_cases hpath : path = diskPath D id
      · subst hpath
        rw [Function.update_self, Option.some.injEq] at hfile
        exact Or.inr ⟨id, art, rfl, rfl, by rw [hvec, hfile]⟩
      · rw [Function.update_of_ne hpath] at hfile
        exact Or.inl hfile
  | diskRemove id =>
    obtain ⟨-, rfl⟩ := htr
    by_cases hpath : path = diskPath D id
    · subst hpath
      simp [setDisk] at hfile
    · simp only [setDisk, Function.update_of_ne hpath] at hfile
      exact Or.inl hfile
  | get | postJson | resolvesToLoopback =>
    obtain rfl : w' = w := htr
    exact Or.inl hfile
  | memoryGet | memoryPut | verifyAndDecrypt | diskGet | planGet | planSet =>
    obtain ⟨-, rfl⟩ := htr
    exact Or.inl hfile

end Inversion

end World

variable {ρ : Type} [DecidableEq ρ]

/-- Calls of `resolve` on the resolvers of a world, each with its options, while outsiders
change the world as `interfere` allows. -/
def machine (D : Deps) (options : ρ → ResolveOptions) (interfere : World ρ → World ρ → Prop) :
    Machine (World ρ) (Call ρ) Op Ans (Except ResolveError ResolveOutcome) where
  trans := World.trans D
  body c := Resolver.resolve D (options c.resolver) c.urn
  interfere := interfere

/-- Outsiders may change the files of the cache directory in any way. -/
def Tampering (w w' : World ρ) : Prop := w'.inst = w.inst

/-- Nobody but the resolvers changes anything. -/
def NoTampering (_ _ : World ρ) : Prop := False

/-- The log of such runs. -/
abbrev RunLog (ρ : Type) : Type := Log (Call ρ) Op Ans

/-- The pools of such runs. -/
abbrev RunPool (ρ : Type) : Type :=
  Pool (World ρ) (Call ρ) Op Ans (Except ResolveError ResolveOutcome)

/-- The result of a call that runs alone over a network that answers by a fixed rule. -/
def resultAlone (D : Deps) (options : ρ → ResolveOptions) (net : World.Net) (c : Call ρ)
    (w : World ρ) : Except ResolveError ResolveOutcome × World ρ :=
  (Resolver.resolve D (options c.resolver) c.urn).run (World.handle D net c.resolver) w

/-- The pool after one more call, which ran alone. -/
def afterAlone (D : Deps) (options : ρ → ResolveOptions) (net : World.Net) (c : Call ρ)
    (p : RunPool ρ) : RunPool ρ where
  state := (resultAlone D options net c p.state).2
  threads := p.threads ++ [(c, .ret (resultAlone D options net c p.state).1)]
  log := p.log ++ ((Resolver.resolve D (options c.resolver) c.urn).script
    (World.handle D net c.resolver) p.state).map fun e => ⟨p.threads.length, c, e.op, e.ans⟩

lemma state_afterAlone (D : Deps) (options : ρ → ResolveOptions) (net : World.Net) (c : Call ρ)
    (p : RunPool ρ) :
    (afterAlone D options net c p).state = (resultAlone D options net c p.state).2 := rfl

lemma reachable_afterAlone {D : Deps} {options : ρ → ResolveOptions}
    {interfere : World ρ → World ρ → Prop} {w₀ : World ρ} {p : RunPool ρ}
    (hp : (machine D options interfere).Reachable w₀ p) (net : World.Net) (c : Call ρ) :
    (machine D options interfere).Reachable w₀ (afterAlone D options net c p) :=
  Machine.Reachable.solo (World.trans_handle D net c) hp

section Parsed

variable {D : Deps} {options : ρ → ResolveOptions} {net : World.Net} {c : Call ρ} {v : ParsedUrn}

lemma resultAlone_of_parse (h : ParsedUrn.parse D c.urn = .ok v) (w : World ρ) :
    resultAlone D options net c w =
      (Resolver.resolveParsed D (options c.resolver) v).run (World.handle D net c.resolver) w := by
  simp only [resultAlone, Resolver.resolve, h]

lemma log_afterAlone_of_parse (h : ParsedUrn.parse D c.urn = .ok v) (p : RunPool ρ) :
    (afterAlone D options net c p).log = p.log ++
      ((Resolver.resolveParsed D (options c.resolver) v).script
        (World.handle D net c.resolver) p.state).map
          fun e => ⟨p.threads.length, c, e.op, e.ans⟩ := by
  simp only [afterAlone, Resolver.resolve, h]

end Parsed

lemma mem_log_afterAlone {D : Deps} {options : ρ → ResolveOptions} {net : World.Net} {c : Call ρ}
    {p : RunPool ρ} {e : Entry (Call ρ) Op Ans} (he : e ∈ (afterAlone D options net c p).log) :
    e ∈ p.log ∨ e.thread = p.threads.length ∧ e.tag = c := by
  rcases List.mem_append.1 he with he | he
  · exact Or.inl he
  · obtain ⟨x, -, rfl⟩ := List.mem_map.1 he
    exact Or.inr ⟨rfl, rfl⟩

end DigUrnResolver
