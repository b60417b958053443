/-
# One resolver among many

Many resolvers, in one process or in several, may share a cache directory.  To each of them the
others are outsiders who change files: its calls, with the calls of all others forgotten, are a
run of this resolver alone, under tampering.  What holds of one resolver whatever happens to the
directory therefore holds of each of many, and no trust passes from one to the other.
-/
import DigUrnResolver.Interaction.Projection
import DigUrnResolver.Security.Provenance

namespace DigUrnResolver

open Interaction

variable {ρ : Type} {D : Deps}

/-! ### The world of one resolver -/

/-- What a resolver keeps, and the directory. -/
def World.only (r : ρ) (w : World ρ) : World Unit := ⟨fun _ => w.inst r, w.disk⟩

namespace World

@[simp] lemma only_setDisk (w : World ρ) (r : ρ) (path : String) (contents : Option Bytes) :
    (w.setDisk path contents).only r = (w.only r).setDisk path contents := rfl

@[simp] lemma only_putFile (w : World ρ) (r : ρ) (id : String) (art : DiskArtifacts) :
    (w.putFile D id art).only r = (w.only r).putFile D id art := by
  rw [putFile, putFile]
  cases D.artifactsToVec art <;> rfl

end World

variable [DecidableEq ρ]

/-- The call, if it is on this resolver. -/
def Call.on (r : ρ) (c : Call ρ) : Option (Call Unit) :=
  if c.resolver = r then some ⟨(), c.urn⟩ else none

lemma Call.on_eq_some_iff {r : ρ} {c : Call ρ} {c' : Call Unit} :
    c.on r = some c' ↔ c.resolver = r ∧ c.urn = c'.urn := by
  rw [Call.on]
  constructor
  · intro h
    split_ifs at h with hr
    obtain rfl := Option.some.inj h
    exact ⟨hr, rfl⟩
  · rintro ⟨hr, hurn⟩
    rw [if_pos hr, hurn]

lemma Call.on_eq_none_iff {r : ρ} {c : Call ρ} : c.on r = none ↔ c.resolver ≠ r := by
  rw [Call.on]
  split_ifs with hr <;> simp [hr]

namespace World

variable {w w' : World ρ} {c : Call ρ} {op : Op} {ans : Ans op}

@[simp] lemma only_setMemory (w : World ρ) (r : ρ) (memory : MemoryCache) :
    (w.setMemory r memory).only r = (w.only r).setMemory () memory := by
  simp only [only, setMemory, Function.update_self]
  exact congrArg (World.mk · _) (funext fun _ => by simp)

@[simp] lemma only_setPlan (w : World ρ) (r : ρ) (plan : List Endpoint) :
    (w.setPlan r plan).only r = (w.only r).setPlan () plan := by
  simp only [only, setPlan, Function.update_self]
  exact congrArg (World.mk · _) (funext fun _ => by simp)

/-- What a call does to its resolver, it does to it alone. -/
lemma trans_only (htr : trans D c op w ans w') :
    trans D (⟨(), c.urn⟩ : Call Unit) op (w.only c.resolver) ans (w'.only c.resolver) := by
  cases op with
  | get | postJson | resolvesToLoopback =>
    obtain rfl : w' = w := htr
    rfl
  | verifyAndDecrypt | diskGet | planGet =>
    obtain ⟨rfl, rfl⟩ := htr
    exact ⟨rfl, rfl⟩
  | memoryGet | memoryPut =>
    obtain ⟨rfl, rfl⟩ := htr
    exact ⟨rfl, only_setMemory _ _ _⟩
  | diskPut =>
    obtain ⟨rfl, rfl⟩ := htr
    exact ⟨rfl, only_putFile _ _ _ _⟩
  | diskRemove =>
    obtain ⟨rfl, rfl⟩ := htr
    exact ⟨rfl, rfl⟩
  | planSet =>
    obtain ⟨rfl, rfl⟩ := htr
    exact ⟨rfl, only_setPlan _ _ _⟩

/-- The calls of others leave a resolver as it is, apart from the directory. -/
lemma tampering_of_other {r : ρ} (htr : trans D c op w ans w') (hr : c.resolver ≠ r) :
    Tampering (w.only r) (w'.only r) := by
  have hinst : w'.inst r = w.inst r := by
    cases op with
    | get | postJson | resolvesToLoopback =>
      obtain rfl : w' = w := htr
      rfl
    | verifyAndDecrypt | diskGet | planGet | diskRemove =>
      obtain ⟨-, rfl⟩ := htr
      rfl
    | memoryGet | memoryPut =>
      obtain ⟨-, rfl⟩ := htr
      simp [setMemory, Function.update_of_ne hr.symm]
    | diskPut =>
      obtain ⟨-, rfl⟩ := htr
      rw [inst_putFile]
    | planSet =>
      obtain ⟨-, rfl⟩ := htr
      simp [setPlan, Function.update_of_ne hr.symm]
  exact funext fun _ => hinst

end World

/-- A resolver among many, as a component. -/
def resolverAmong (D : Deps) (options : ρ → ResolveOptions) (r : ρ) :
    Component (machine D options Tampering) (machine D (fun _ : Unit => options r) Tampering) where
  keep := Call.on r
  view := World.only r
  body h := by
    obtain ⟨rfl, hurn⟩ := Call.on_eq_some_iff.1 h
    simp only [machine, hurn]
  own h htr := by
    obtain ⟨rfl, hurn⟩ := Call.on_eq_some_iff.1 h
    have hown := World.trans_only htr
    rw [hurn] at hown
    exact hown
  other h htr := World.tampering_of_other htr (Call.on_eq_none_iff.1 h)
  interfere h := funext fun _ => congrFun h r

/-- The calls on a resolver, in the order in which they were started, with what is left of
them. -/
def RunPool.callsOn (r : ρ) (p : RunPool ρ) :
    List (Call Unit × Prog (Except ResolveError ResolveOutcome)) :=
  p.threads.filterMap fun x => (x.1.on r).map fun c => (c, x.2)

/-- What the calls on a resolver did, in the order of the run. -/
def RunPool.doneOn (r : ρ) (p : RunPool ρ) : List (Call Unit × Event Op Ans) :=
  p.log.filterMap fun e => (e.tag.on r).map fun c => (c, ⟨e.op, e.ans⟩)

/-- **A resolver among many is as good as alone.**  Of any run of any number of resolvers, which
share a directory that outsiders may change as well, there is a run of each resolver alone,
under tampering, with the same calls, which do the same in the same order and come to the same
results. -/
theorem alone_among_others {options : ρ → ResolveOptions} {w₀ : World ρ} {p : RunPool ρ}
    (hp : (machine D options Tampering).Reachable w₀ p) (r : ρ) :
    ∃ q : RunPool Unit,
      (machine D (fun _ : Unit => options r) Tampering).Reachable (w₀.only r) q ∧
      q.state = p.state.only r ∧ q.threads = p.callsOn r ∧
      q.log.map (fun e => (e.tag, Event.mk e.op e.ans)) = p.doneOn r := by
  refine ⟨_, hp.project (resolverAmong D options r), rfl, rfl, ?_⟩
  simp only [Component.pool, RunPool.doneOn, List.map_filterMap]
  refine List.filterMap_congr fun e _ => ?_
  rw [Component.entry, Option.map_map]
  rfl

/-! ### Two resolvers -/

/-- Both resolvers have the same node for an override. -/
def bothAtNode : Bool → ResolveOptions :=
  fun _ => { endpoint := some "http://127.0.0.1:9778", cachePath := some "/cache" }

/-- One call on each resolver, of which the second finds no network any more. -/
def oneCallEach : RunPool Bool :=
  afterAlone (sample [] []) bothAtNode silentNet ⟨true, Sample.urn "chia"⟩
    (afterAlone (sample [] []) bothAtNode attestingNet ⟨false, Sample.urn "chia"⟩
      ⟨World.new fun _ => none, [], []⟩)

/-- The first resolver alone has one call, with the same result. -/
theorem alone_among_others_first :
    ∃ q : RunPool Unit,
      (machine (sample [] []) (fun _ : Unit => bothAtNode false) Tampering).Reachable
        (World.new fun _ => none) q ∧
      q.threads = [(⟨(), Sample.urn "chia"⟩, .ret (.ok (.success ⟨[1, 2, 3], "text/plain"⟩)))] := by
  have hp : (machine (sample [] []) bothAtNode Tampering).Reachable (World.new fun _ => none)
      oneCallEach :=
    reachable_afterAlone (reachable_afterAlone .refl attestingNet _) silentNet _
  have hresult : (resultAlone (sample [] []) bothAtNode attestingNet ⟨false, Sample.urn "chia"⟩
      (World.new fun _ => none)).1 = .ok (.success ⟨[1, 2, 3], "text/plain"⟩) := by
    rw [resultAlone_of_parse (Sample.parse_urn_chia [] [])]
    decide +kernel
  obtain ⟨q, hq, -, hthreads, -⟩ := alone_among_others hp false
  refine ⟨q, hq, ?_⟩
  rw [hthreads, ← hresult]
  rfl

end DigUrnResolver
