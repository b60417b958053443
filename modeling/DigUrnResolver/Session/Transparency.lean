/-
# Caches and concurrency make no difference

Over a network that answers by a fixed rule, a resolve has a value of its own: what it comes to
when nothing is cached.  Resolvers with the same options may share a cache directory, and their
calls may overlap in any way; still every call about a root-pinned URN returns this value.  The
invariant is that a cache holds nothing else, and that the cached plan is the one that would be
built again.
-/
import DigUrnResolver.Session.Upkeep

namespace DigUrnResolver

open Interaction

section Setting

variable {ρ : Type} (D : Deps) (options : ResolveOptions) (net : World.Net) (urns : Set String)

/-- Overlapping calls about the URNs, on resolvers with the same options, over a network that
answers by a fixed rule. -/
def steadyMachine [DecidableEq ρ] :
    Machine (World ρ) {c : Call ρ // c.urn ∈ urns} Op Ans (Except ResolveError ResolveOutcome) where
  trans c op w ans w' := (ans, w') = World.handle D net c.1.resolver op w
  body c := Resolver.resolve D options c.1.urn
  interfere := NoTampering

/-- What a call on a resolver that was just built returns, over an empty cache directory. -/
def freshResult (urn : String) : Except ResolveError ResolveOutcome :=
  (resultAlone D (fun _ : Unit => options) net ⟨(), urn⟩ (World.new fun _ => none)).1

/-! ### The value of a resolve -/

/-- The answers when nothing is cached. -/
def World.Net.uncached : (op : Op) → Ans op
  | .verifyAndDecrypt parsed ciphertext proofB64 root chunkLens =>
    Crypto.verifyAndDecrypt D parsed ciphertext proofB64 root chunkLens
  | op => net.answer op

/-- What a resolve comes to when nothing is cached. -/
def directResult (parsed : ParsedUrn) : Except ResolveError ResolveOutcome :=
  (Resolver.resolveParsed D options parsed).eval (net.uncached D)

/-- The plan that a resolver builds. -/
def steadyPlan : List Endpoint := (buildPlan D options.endpoint).eval (net.uncached D)

variable {D options net}

/-- With nothing cached, a resolve of a pinned URN walks over the plan. -/
lemma directResult_eq_walk {parsed : ParsedUrn} {root : String}
    (hroot : parsed.rootHex = some root) :
    directResult D options net parsed = (Resolver.walk D options parsed
      ((steadyPlan D options net).length - 1) 0 (steadyPlan D options net)).eval
        (net.uncached D) := by
  have huncached : (Resolver.resolveUncached D options parsed).eval (net.uncached D) =
      (Resolver.walk D options parsed ((steadyPlan D options net).length - 1) 0
        (steadyPlan D options net)).eval (net.uncached D) := by
    rw [Resolver.resolveUncached, Program.eval_bind]
    have hplan : (Resolver.plan D options).eval (net.uncached D) = steadyPlan D options net := by
      show ((buildPlan D options.endpoint) >>= _).eval (net.uncached D) = _
      rw [Program.eval_bind]
      rfl
    rw [hplan]
  rw [directResult, Resolver.resolveParsed, hroot]
  show ((Resolver.diskGetVerified options parsed _) >>= _).eval (net.uncached D) = _
  rw [Program.eval_bind, Resolver.diskGetVerified]
  cases options.cachePath with
  | none => exact huncached
  | some path =>
    rw [hroot]
    exact huncached

end Setting

/-! ### The contract -/

section Contract

variable {ρ : Type} (D : Deps) (options : ResolveOptions) (net : World.Net) (urns : Set String)

/-- The data are what a resolve would come to. -/
def DataAsDirect (id : String) (data : ResolvedData) : Prop :=
  ∃ v root, PinnedAs D urns id v root ∧ directResult D options net v = .ok (.success data)

/-- The artifacts verify to what a resolve would come to. -/
def ArtifactsAsDirect (id : String) (art : DiskArtifacts) : Prop :=
  ∃ v root bytes, PinnedAs D urns id v root ∧
    Crypto.verifyAndDecrypt D v art.ciphertext art.proofB64 root art.chunkLens = .ok bytes ∧
    directResult D options net v = .ok (.success ⟨bytes, deriveContentType v.resourceKey bytes⟩)

/-- What is cached is what a resolve would come to, and the network answers by the fixed rule. -/
def steadyTerms : Terms where
  data := DataAsDirect D options net urns
  artifacts := ArtifactsAsDirect D options net urns
  plan plan := plan = steadyPlan D options net
  network op ans := IsPlain op → ans = net.uncached D op

variable {D options net urns} {L : Log {c : Call ρ // c.urn ∈ urns} Op Ans} {i : ℕ}
  {c : {c : Call ρ // c.urn ∈ urns}} {op : Op} {ans : Ans op} {w w' : World ρ}

lemma steady_trans [DecidableEq ρ] (htr : (ans, w') = World.handle D net c.1.resolver op w) :
    World.trans D c.1 op w ans w' := by
  have h := World.trans_handle D net c.1 op w
  rw [← htr] at h
  exact h

/-! ### The calls keep it -/

/-- Operations that nobody but the network and the read-crypto answers have known answers. -/
lemma sat_of_plain {α : Type} {p : Prog α} (hp : p.Only IsPlain) :
    p.Sat ((steadyTerms D options net urns).contract D) i c (fun _ a => a = p.eval (net.uncached D)) L := by
  refine Program.Sat.eval hp ?_ ?_
  · intro L op hop
    cases op with
    | get | postJson | resolvesToLoopback | verifyAndDecrypt => trivial
    | _ => exact absurd hop id
  · intro L op ans hop hknown
    cases op with
    | get | postJson | resolvesToLoopback => exact hknown trivial
    | verifyAndDecrypt => exact hknown
    | _ => exact absurd hop id

/-- The artifacts of a fetch of a pinned URN verify to its data. -/
lemma artifacts_of_fetched {endpoint : Endpoint} {v : ParsedUrn} {root : String} {f : Fetched}
    (hroot : v.rootHex = some root)
    (hf : (Resolver.fetchFrom D endpoint v).eval (net.uncached D) = .ok f) :
    f.root = some root ∧ ∀ art, f.artifacts = some art → ∃ bytes,
      Crypto.verifyAndDecrypt D v art.ciphertext art.proofB64 root art.chunkLens = .ok bytes ∧
        f.data = ⟨bytes, deriveContentType v.resourceKey bytes⟩ := by
  obtain ⟨t, htrace, hans⟩ := Program.exists_trace_eval (net.uncached D)
    (Resolver.fetchFrom D endpoint v)
  rw [hf] at htrace
  have hfetched := Resolver.trace_fetched htrace
  refine ⟨hfetched.root_eq hroot, fun art hart => ?_⟩
  cases hfetched with
  | attested => cases hart
  | @decrypted front ciphertext bytes proofB64 root' lens pinned =>
    obtain rfl := Option.some.inj hart
    obtain rfl : root' = root := pinned root hroot
    have hlast := hans ⟨.verifyAndDecrypt v ciphertext proofB64 root' lens, .ok bytes⟩
      (List.mem_append_right _ (List.mem_singleton_self _))
    exact ⟨bytes, hlast.symm, rfl⟩

/-- The walk comes to its value, and stores nothing else. -/
lemma walk_sat_steady {v : ParsedUrn} {root : String}
    (hv : PinnedAs D urns (Resolver.cacheId v root) v root) {last j : ℕ} {rest : List Endpoint}
    (hdirect : directResult D options net v =
      (Resolver.walk D options v last j rest).eval (net.uncached D)) :
    (Resolver.walk D options v last j rest).Sat ((steadyTerms D options net urns).contract D) i c
      (fun _ r => r = directResult D options net v) L := by
  induction rest generalizing L j with
  | nil => exact Program.Sat.ret fun _ _ => hdirect.symm
  | cons endpoint rest ih =>
    rw [Resolver.walk, Program.eval_bind] at hdirect
    refine (sat_of_plain (plain_fetchFrom endpoint v)).bind fun L₁ r _ hr => ?_
    rw [← hr] at hdirect
    cases r with
    | ok f =>
      have hsuccess : directResult D options net v = .ok (.success f.data) := by
        rw [hdirect]
        show ((Resolver.cacheSuccess options v f) >>= _).eval (net.uncached D) = _
        rw [Program.eval_bind]
        rfl
      obtain ⟨hroot, hart⟩ := artifacts_of_fetched hv.2.1 hr.symm
      have hartifacts : ∀ art, f.artifacts = some art →
          ArtifactsAsDirect D options net urns (Resolver.cacheId v root) art := by
        intro art hsome
        obtain ⟨bytes, hverify, hdata⟩ := hart art hsome
        exact ⟨v, root, bytes, hv, hverify, by rw [hsuccess, hdata]⟩
      have hdata : DataAsDirect D options net urns (Resolver.cacheId v root) f.data :=
        ⟨v, root, hv, hsuccess⟩
      refine (Terms.cacheSuccess_sat (T := steadyTerms D options net urns) hroot hdata
        hartifacts).bind fun L₂ _ _ _ => ?_
      exact Program.Sat.ret fun _ _ => hsuccess.symm
    | error e =>
      cases e with
      | notFound | transport =>
        dsimp only at hdirect ⊢
        split_ifs at hdirect ⊢
        · exact Program.Sat.ret fun _ _ => hdirect.symm
        · exact ih hdirect
      | _ => exact Program.Sat.ret fun _ _ => hdirect.symm

lemma resolveParsed_sat_steady (hart : Distinguished D urns) {v : ParsedUrn} {s : String}
    (hs : s ∈ urns) (hparse : ParsedUrn.parse D s = .ok v) :
    (Resolver.resolveParsed D options v).Sat ((steadyTerms D options net urns).contract D) i c
      (fun _ r => r = directResult D options net v) L := by
  obtain ⟨root, hroot⟩ := Option.ne_none_iff_exists'.1 (hart.pinned s hs v hparse)
  have hv : PinnedAs D urns (Resolver.cacheId v root) v root := ⟨⟨s, hs, hparse⟩, hroot, rfl⟩
  have hwalk := @directResult_eq_walk D options net v root hroot
  -- behind the caches, the walk comes to the value
  have huncached : ∀ L, (Resolver.resolveUncached D options v).Sat
      ((steadyTerms D options net urns).contract D) i c (fun _ r => r = directResult D options net v) L := by
    intro L
    refine (Terms.plan_sat fun _ => sat_of_plain (plain_buildPlan _)).bind fun L₁ plan _ hplan => ?_
    obtain rfl : plan = steadyPlan D options net := hplan
    exact walk_sat_steady hv hwalk
  refine Terms.resolveParsed_sat hroot ?_ ?_ huncached
  · rintro data ⟨u, r, hu, hdirect⟩
    obtain rfl := hu.eq hart hv rfl
    exact hdirect.symm
  · rintro id art hpath ⟨u, r, bytes, hu, hverify, hdirect⟩
    obtain rfl := hu.eq hart hv hpath
    obtain rfl : r = root := Option.some.inj (hu.2.1.symm.trans hroot)
    exact ⟨bytes, hverify, u, r, hv, hdirect⟩

lemma resolve_sat_steady (hurns : Distinguished D urns) :
    (Resolver.resolve D options c.1.urn).Sat ((steadyTerms D options net urns).contract D) i c
      (fun _ r => r = (Resolver.resolve D options c.1.urn).eval (net.uncached D)) L := by
  rw [Resolver.resolve]
  cases hparse : ParsedUrn.parse D c.1.urn with
  | error e => exact Program.Sat.ret fun _ _ => rfl
  | ok v => exact resolveParsed_sat_steady hurns c.2 hparse

/-- A call that has ended returned its value. -/
lemma eq_eval_of_reachable [DecidableEq ρ] (hart : D.ArtifactsSpec) (hurns : Distinguished D urns)
    {p : Pool (World ρ) {c : Call ρ // c.urn ∈ urns} Op Ans (Except ResolveError ResolveOutcome)}
    (hp : (steadyMachine D options net urns).Reachable (World.new fun _ => none) p)
    {r : Except ResolveError ResolveOutcome} (hi : p.threads[i]? = some (c, .ret r)) :
    r = (Resolver.resolve D options c.1.urn).eval (net.uncached D) := by
  have hholds : ((steadyTerms D options net urns).contract D).Holds
      (fun w _ => (steadyTerms D options net urns).Kept D w)
      (fun _ c _ r => r = (Resolver.resolve D options c.1.urn).eval (net.uncached D)) p := by
    refine Terms.holds (f := Subtype.val) hart ?_ (fun _ _ h => absurd h id)
      (fun _ _ _ => resolve_sat_steady hurns) hp
    intro c op w ans w' htr
    refine ⟨steady_trans htr, fun hop => ?_⟩
    have hans : ans = (World.handle D net c.1.resolver op w).1 := congrArg Prod.fst htr
    cases op with
    | get | postJson | resolvesToLoopback | verifyAndDecrypt => exact hans
    | _ => exact absurd hop id
  exact hholds.sat i c _ hi p.log List.prefix_rfl

end Contract

/-- **Caches and concurrency make no difference.**  Any number of resolvers with the same options
share a cache directory that was empty, over a network that answers by a fixed rule.  However
their calls about root-pinned URNs overlap, each returns what it would return on a resolver
that was just built, with nothing cached. -/
theorem concurrent_eq_fresh {ρ : Type} [DecidableEq ρ] {D : Deps} {options : ResolveOptions}
    {net : World.Net} {urns : Set String} (hart : D.ArtifactsSpec) (hurns : Distinguished D urns)
    {p : Pool (World ρ) {c : Call ρ // c.urn ∈ urns} Op Ans (Except ResolveError ResolveOutcome)}
    (hp : (steadyMachine D options net urns).Reachable (World.new fun _ => none) p) {i : ℕ}
    {c : {c : Call ρ // c.urn ∈ urns}} {r : Except ResolveError ResolveOutcome}
    (hi : p.threads[i]? = some (c, .ret r)) : r = freshResult D options net c.1.urn := by
  have hvalue := eq_eval_of_reachable hart hurns hp hi
  -- the fresh resolver is one more run of the machine
  let fresh : {c : Call Unit // c.urn ∈ urns} := ⟨⟨(), c.1.urn⟩, c.2⟩
  have hstart : (steadyMachine D options net urns).Reachable (World.new (ρ := Unit) fun _ => none)
      ⟨World.new fun _ => none, [], []⟩ := .refl
  have hsolo := Machine.Reachable.solo (h := World.handle D net ()) (t := fresh) (fun _ _ => rfl) hstart
  have hfresh := eq_eval_of_reachable hart hurns hsolo (i := 0) (c := fresh) rfl
  exact hvalue.trans hfresh.symm

/-! ### A resolver that reads what another one has stored -/

namespace DiskQuiet

def chiaUrns : Set String := {Sample.urn "chia"}

lemma distinguished_chiaUrns : Distinguished deps chiaUrns where
  pinned := by
    rintro s rfl v hv
    obtain rfl := Except.ok.inj ((Sample.parse_urn_chia _ _).symm.trans hv)
    simp [ParsedUrn.rootHex, Sample.parsed]
  chains := by
    rintro s rfl s' rfl u v root hu hv - - -
    rw [Except.ok.inj (hu.symm.trans hv)]
  collisionFree := fun _ _ _ _ _ _ _ _ _ _ _ _ h => h

/-- A call of a resolver with the directory. -/
def chiaCall (r : Bool) : {c : Call Bool // c.urn ∈ chiaUrns} := ⟨callOf r "chia", rfl⟩

/-- The second resolver returns what it would have fetched. -/
theorem concurrent_eq_fresh_two_resolvers :
    ∃ p, (steadyMachine deps (sharing true) cipherNode chiaUrns).Reachable
        (World.new fun _ => none) p ∧
      p.threads[1]? = some (chiaCall true, .ret (.ok (.success ⟨[1, 2], "text/plain"⟩))) := by
  have hfresh : freshResult deps (sharing true) cipherNode (Sample.urn "chia") =
      .ok (.success ⟨[1, 2], "text/plain"⟩) := by
    rw [freshResult, resultAlone_of_parse (Sample.parse_urn_chia _ _)]
    decide +kernel
  have hstart : (steadyMachine deps (sharing true) cipherNode chiaUrns).Reachable
      (World.new fun _ => none) ⟨World.new (ρ := Bool) fun _ => none, [], []⟩ := .refl
  have hfirst := Machine.Reachable.solo (t := chiaCall false)
    (h := World.handle deps cipherNode false) (fun _ _ => rfl) hstart
  have hboth := Machine.Reachable.solo (t := chiaCall true)
    (h := World.handle deps cipherNode true) (fun _ _ => rfl) hfirst
  have heq := concurrent_eq_fresh (sample_artifactsSpec _ _ _) distinguished_chiaUrns hboth
    (i := 1) (c := chiaCall true) rfl
  refine ⟨_, hboth, ?_⟩
  rw [← hfresh, ← show _ = freshResult deps (sharing true) cipherNode (Sample.urn "chia") from heq]
  rfl

end DiskQuiet

end DigUrnResolver
