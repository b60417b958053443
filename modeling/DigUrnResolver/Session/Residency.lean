/-
# How long a success stays in memory

A success of a pinned URN is in the memory cache of its resolver, in front of all other entries.
It stays there while the identities that are used after it leave room for it, and as long as it is
there, the URN is answered from memory and nobody is asked.
-/
import DigUrnResolver.Session.Consultation

namespace DigUrnResolver

open Interaction

variable {ρ : Type} [DecidableEq ρ]

/-- The data are in the memory of the resolver under the identity, and only identities of `S` were
used after it. -/
def World.Keeps (r : ρ) (S : Finset String) (bound : String → ℕ) (id : String) (data : ResolvedData)
    (w : World ρ) : Prop :=
  ∃ l, MemoryCache.Refines World.memoryLimits (w.inst r).memory l ∧
    Lru.Resident MemoryCache.size S bound id data l

/-- In the calls of the resolver, only the identity itself and those of `S` are hit or stored, with
data no larger than `bound` says.  What exceeds the budget of the cache is not stored. -/
structure Window (r : ρ) (S : Finset String) (bound : String → ℕ) (id : String)
    (xs : List (Done ρ)) : Prop where
  hits : ∀ x ∈ xs, x.call.resolver = r → ∀ id' data,
    ⟨.memoryGet id', some data⟩ ∈ x.talk → id' = id ∨ id' ∈ S ∧ data.bytes.length ≤ bound id'
  stores : ∀ x ∈ xs, x.call.resolver = r → ∀ id' data, ⟨.memoryPut id' data, ()⟩ ∈ x.talk →
    data.bytes.length ≤ MemoryCache.defaultMemoryBytes →
      id' ∈ S ∧ data.bytes.length ≤ bound id'

variable {D : Deps} {options : ρ → ResolveOptions} {w w' w₁ w₂ w₃ w₄ : World ρ} {c : Call ρ}
  {t t' : List (Event Op Ans)} {r : ρ} {S : Finset String} {bound : String → ℕ}
  {id urn root : String} {data : ResolvedData} {v : ParsedUrn}

/-! ### The entry stays -/

/-- An operation that uses an identity of the window keeps the entry. -/
lemma World.Keeps.trans {op : Op} {ans : Ans op} (h : w.Keeps r S bound id data)
    (hroom : Lru.Room MemoryCache.size World.memoryLimits S bound data)
    (htr : World.trans D c op w ans w')
    (hhit : c.resolver = r → ∀ id' found, (⟨op, ans⟩ : Event Op Ans) = ⟨.memoryGet id', some found⟩ →
      id' = id ∨ id' ∈ S ∧ found.bytes.length ≤ bound id')
    (hstore : c.resolver = r → ∀ id' new, (⟨op, ans⟩ : Event Op Ans) = ⟨.memoryPut id' new, ()⟩ →
      new.bytes.length ≤ MemoryCache.defaultMemoryBytes →
        id' ∈ S ∧ new.bytes.length ≤ bound id') : w'.Keeps r S bound id data := by
  obtain ⟨l, hl, hresident⟩ := h
  by_cases hr : r = c.resolver
  · subst hr
    rw [World.Keeps, World.memory_of_trans htr]
    refine ⟨_, World.refines_memoryAfter hl op, ?_⟩
    cases op with
    | memoryGet id' =>
      refine hresident.get ?_
      intro found hfound
      obtain ⟨hresult, -⟩ := hl.represents.get hl.accounted.toCounted id'
      have hans : ans = some found := htr.1.trans (hresult.trans hfound)
      exact hhit rfl id' found (by rw [hans])
    | memoryPut id' new => exact hresident.put hroom (hstore rfl id' new rfl)
    | _ => exact hresident
  · rw [World.Keeps, World.inst_of_trans_of_ne htr hr]
    exact ⟨l, hl, hresident⟩

/-- **The entry survives the window.** -/
lemma World.Keeps.calls {xs : List (Done ρ)} (h : w.Keeps r S bound id data)
    (hroom : Lru.Room MemoryCache.size World.memoryLimits S bound data)
    (hcalls : Calls D options w xs w') (hwindow : Window r S bound id xs) :
    w'.Keeps r S bound id data := by
  refine hcalls.invariant h ?_ ?_
  · intro x hx s s' hs hcall
    refine hcall.talks.invariant hs ?_
    rintro ⟨op, ans⟩ he u u' hu htr
    refine hu.trans hroom htr ?_ ?_
    · rintro hr id' found heq
      exact hwindow.hits x hx hr id' found (heq ▸ he)
    · rintro hr id' new heq
      exact hwindow.stores x hx hr id' new (heq ▸ he)
  · intro s s' hs htamper
    have hinst : s'.inst = s.inst := htamper
    rw [World.Keeps, hinst]
    exact hs

/-! ### A success puts the entry in front -/

lemma MemoryCache.Refines.nodupKeys {lim : Lru.Limits} {cache : MemoryCache}
    {l : List (String × ResolvedData)} (h : cache.Refines lim l) : Lru.NodupKeys l := by
  obtain ⟨items, hlists, rfl⟩ := h.represents
  exact hlists.nodupKeys

lemma keeps_of_memoryPut (hw : w.Ordered) (hid : id ∉ S)
    (hroom : Lru.Room MemoryCache.size World.memoryLimits S bound data)
    (htr : World.trans D c (.memoryPut id data) w () w') :
    w'.Keeps c.resolver S bound id data := by
  obtain ⟨l, hl⟩ := hw c.resolver
  rw [World.Keeps, World.memory_of_trans htr]
  exact ⟨_, World.refines_memoryAfter hl _, Lru.resident_put hid hl.nodupKeys hroom⟩

lemma keeps_of_memoryGet (hw : w.Ordered) (hid : id ∉ S)
    (htr : World.trans D c (.memoryGet id) w (some data) w') :
    w'.Keeps c.resolver S bound id data := by
  obtain ⟨l, hl⟩ := hw c.resolver
  obtain ⟨hresult, -⟩ := hl.represents.get hl.accounted.toCounted id
  have hfound : (Lru.get id l).1 = some data := hresult.symm.trans htr.1.symm
  rw [World.Keeps, World.memory_of_trans htr]
  refine ⟨_, World.refines_memoryAfter hl _, ?_⟩
  show Lru.Resident MemoryCache.size S bound id data (Lru.get id l).2
  rw [Lru.get] at hfound ⊢
  cases hlookup : Lru.lookup id l with
  | none =>
    rw [hlookup] at hfound
    cases hfound
  | some found =>
    rw [hlookup] at hfound
    obtain rfl := Option.some.inj hfound
    exact Lru.resident_cons_remove hid hl.nodupKeys

/-- A file that is written afterwards makes no difference. -/
lemma World.Keeps.diskPut {art : DiskArtifacts} {id' : String} (h : w.Keeps r S bound id data)
    (htr : World.trans D c (.diskPut id' art) w () w') : w'.Keeps r S bound id data := by
  obtain ⟨l, hl, hresident⟩ := h
  by_cases hr : r = c.resolver
  · subst hr
    rw [World.Keeps, World.memory_of_trans htr]
    exact ⟨l, hl, hresident⟩
  · rw [World.Keeps, World.inst_of_trans_of_ne htr hr]
    exact ⟨l, hl, hresident⟩

/-- A fetch that is stored under a root leaves the entry of this root in front. -/
lemma keeps_of_cacheSuccess {o : ResolveOptions} {fetched : Fetched} (hw : w.Ordered)
    (hroot : fetched.root = some root) (hid : Resolver.cacheId v root ∉ S)
    (hroom : Lru.Room MemoryCache.size World.memoryLimits S bound fetched.data)
    (hstored : (Resolver.cacheSuccess o v fetched).Trace t ())
    (htalks : Talks (World.trans D c) w t w') :
    w'.Keeps c.resolver S bound (Resolver.cacheId v root) fetched.data := by
  obtain ⟨rest, rfl, hrest, -⟩ := Resolver.trace_cacheSuccess hroot hstored
  obtain ⟨w₁, hput, hdisk⟩ := Talks.cons_iff.1 htalks
  have hkeeps := keeps_of_memoryPut hw hid hroom hput
  rcases hrest with rfl | ⟨art, rfl⟩
  · obtain rfl := Talks.nil_iff.1 hdisk
    exact hkeeps
  · obtain ⟨w₂, hwrite, hnil⟩ := Talks.cons_iff.1 hdisk
    obtain rfl := Talks.nil_iff.1 hnil
    exact hkeeps.diskPut hwrite

/-- After a success, the entry is in front. -/
lemma Resolves.keeps (h : Resolves D options c w t (.ok (.success data)) w') (hw : w.Ordered)
    (hparse : ParsedUrn.parse D c.urn = .ok v) (hpin : v.rootHex = some root)
    (hid : Resolver.cacheId v root ∉ S)
    (hroom : Lru.Room MemoryCache.size World.memoryLimits S bound data) :
    w'.Keeps c.resolver S bound (Resolver.cacheId v root) data := by
  obtain ⟨htrace, htalks⟩ := h
  have hresolved := Resolver.trace_resolveParsed (Resolver.trace_of_parse hparse htrace)
  rcases hresolved.of_success with
    hconsult | ⟨front, x, stored, fetched, rfl, hx, hresult, rfl, hstored⟩
  · have hconsulted := Resolver.trace_consult hconsult
    generalize ho : some (ResolveOutcome.success data) = answer at hconsulted
    cases hconsulted with
    | hit hroot =>
      obtain rfl := Option.some.inj (hpin.symm.trans hroot)
      obtain rfl := ResolveOutcome.success.inj (Option.some.inj ho)
      obtain ⟨w₁, hget, hrest⟩ := Talks.cons_iff.1 htalks
      obtain rfl := Talks.nil_iff.1 hrest
      exact keeps_of_memoryGet hw hid hget
    | verified hroot hpath =>
      obtain rfl := Option.some.inj (hpin.symm.trans hroot)
      obtain rfl := ResolveOutcome.success.inj (Option.some.inj ho)
      -- the entry is stored by the last of the four operations
      obtain ⟨w₁, hfront, hback⟩ := (Talks.append_iff (t := [_, _, _])).1 htalks
      obtain ⟨w₂, hput, hrest⟩ := Talks.cons_iff.1 hback
      obtain rfl := Talks.nil_iff.1 hrest
      exact keeps_of_memoryPut (hw.talks hfront) hid hroom hput
    | refused hroot hpath hcases =>
      rcases hcases with ⟨-, rfl⟩ | ⟨-, rfl⟩
      · cases ho
      · cases ho
    | _ => cases ho
  · have hfetch := hx.1
    rw [hresult] at hfetch
    have hroot := (Resolver.trace_fetched hfetch).root_eq hpin
    obtain ⟨w₁, hfront, hback⟩ := Talks.append_iff.1 htalks
    exact keeps_of_cacheSuccess (hw.talks hfront) hroot hid hroom hstored hback

/-! ### The entry is hit -/

/-- While the entry is there, the resolve is a hit. -/
lemma Resolves.eq_hit {result : Except ResolveError ResolveOutcome}
    (h : Resolves D options c w t result w') (hparse : ParsedUrn.parse D c.urn = .ok v)
    (hpin : v.rootHex = some root)
    (hkeeps : w.Keeps c.resolver S bound (Resolver.cacheId v root) data) :
    result = .ok (.success data) ∧ t = [⟨.memoryGet (Resolver.cacheId v root), some data⟩] := by
  obtain ⟨htrace, htalks⟩ := h
  have hparsed := Resolver.trace_of_parse hparse htrace
  obtain ⟨l, hl, hresident⟩ := hkeeps
  have hlookup := hresident.lookup
  rw [hl.lookup] at hlookup
  have hhit : ((w.inst c.resolver).memory.get (Resolver.cacheId v root)).1 = some data :=
    (MemoryCache.get_fst _ _).trans hlookup
  rw [Resolver.resolveParsed, hpin] at hparsed
  obtain ⟨answer, rest, rfl, hrest⟩ := Program.trace_call_iff.1 hparsed
  obtain ⟨w₁, hget, -⟩ := Talks.cons_iff.1 htalks
  obtain rfl : answer = some data := hget.1.trans hhit
  obtain ⟨rfl, rfl⟩ := Program.trace_ret_iff.1 hrest
  exact ⟨rfl, rfl⟩

/-- **A success stays resident.**  After a resolve of a pinned URN has returned `data`, a later
resolve of it is answered from memory, without a request or a look at the directory, whatever was
resolved in between: as long as fewer than 256 other identities were hit or stored since, and their
data leave room for `data` in 32 MiB. -/
theorem resident_across_calls {disk : String → Option Bytes} {before between : List (Done ρ)}
    {result : Except ResolveError ResolveOutcome}
    (hreached : Calls D options (World.new disk) before w)
    (hparse : ParsedUrn.parse D c.urn = .ok v) (hpin : v.rootHex = some root)
    (hfirst : Resolves D options c w t (.ok (.success data)) w₁) (htamper : Tampering w₁ w₂)
    (hcalls : Calls D options w₂ between w₃)
    (hwindow : Window c.resolver S bound (Resolver.cacheId v root) between)
    (hid : Resolver.cacheId v root ∉ S) (hcard : S.card < MemoryCache.defaultMemoryEntries)
    (hload : data.bytes.length + ∑ x ∈ S, bound x ≤ MemoryCache.defaultMemoryBytes)
    (hlater : Resolves D options c w₃ t' result w₄) :
    result = .ok (.success data) ∧
      t' = [⟨.memoryGet (Resolver.cacheId v root), some data⟩] := by
  have hroom : Lru.Room MemoryCache.size World.memoryLimits S bound data := ⟨hcard, hload⟩
  have hkeeps := hfirst.keeps (hreached.ordered (World.ordered_new disk)) hparse hpin hid hroom
  have hinst : w₂.inst = w₁.inst := htamper
  have hkeeps' : w₂.Keeps c.resolver S bound (Resolver.cacheId v root) data := by
    rw [World.Keeps, hinst]
    exact hkeeps
  exact hlater.eq_hit hparse hpin (hkeeps'.calls hroom hcalls hwindow)

/-! ### Another resource between two resolves -/

namespace Window

/-- A node that attests the same byte whatever it is asked for. -/
def node : World.Net where
  get _ := .ok ⟨200, [("x-dig-verified", "true")], [7]⟩
  post _ _ := .error ⟨"connection refused"⟩
  loopback _ := false

def nodeOptions : Unit → ResolveOptions := fun _ => { endpoint := some "http://127.0.0.1:9778" }

def call : Call Unit := ⟨(), Sample.urn "chia"⟩

def other : Call Unit := ⟨(), Sample.urnOf "b.txt"⟩

def identity : String := Resolver.cacheId (Sample.parsed "chia") Sample.hex.text

def otherIdentity : String := Resolver.cacheId (Sample.parsedOf "b.txt") Sample.hex.text

/-- The conversation of a call. -/
def talk (c : Call Unit) (w : World Unit) : List (Event Op Ans) :=
  (Resolver.resolve (sample [] []) (nodeOptions ()) c.urn).script (World.handle (sample [] []) node ())
    w

/-- The world after a call. -/
def next (c : Call Unit) (w : World Unit) : World Unit :=
  (resultAlone (sample [] []) nodeOptions node c w).2

lemma resolves (c : Call Unit) (w : World Unit) : Resolves (sample [] []) nodeOptions c w (talk c w)
    (resultAlone (sample [] []) nodeOptions node c w).1 (next c w) := by
  rw [next, talk]
  exact resolves_alone node c w

lemma names : ParsedUrn.parse (sample [] []) call.urn = .ok (Sample.parsed "chia") :=
  Sample.parse_urn_chia _ _

lemma names_other : ParsedUrn.parse (sample [] []) other.urn = .ok (Sample.parsedOf "b.txt") :=
  Sample.parse_urnOf (by decide +kernel)

lemma first_result : (resultAlone (sample [] []) nodeOptions node call (World.new fun _ => none)).1 =
    .ok (.success ⟨[7], "text/plain"⟩) := by
  rw [resultAlone_of_parse names]
  decide +kernel

/-- Whether an event is a use of no identity but that of the other resource, with a byte at most. -/
def isOther : Event Op Ans → Bool
  | ⟨.memoryGet id, some data⟩ => id = otherIdentity ∧ data.bytes.length ≤ 1
  | ⟨.memoryPut id data, _⟩ => id = otherIdentity ∧ data.bytes.length ≤ 1
  | _ => true

/-- Whether an operation stores the other resource. -/
def storesOther : Op → Bool
  | .memoryPut id data => id = otherIdentity ∧ data = ⟨[7], "text/plain"⟩
  | _ => false

lemma window_of_isOther {c : Call Unit} {t : List (Event Op Ans)} (h : t.all isOther = true)
    (result : Except ResolveError ResolveOutcome) :
    Window () {otherIdentity} (fun _ => 1) identity [⟨c, t, result⟩] := by
  have hall := List.all_eq_true.1 h
  constructor
  · intro x hx _ id' data he
    obtain rfl := List.mem_singleton.1 hx
    obtain ⟨hid, hle⟩ := of_decide_eq_true (hall _ he)
    exact Or.inr ⟨Finset.mem_singleton.2 hid, hle⟩
  · intro x hx _ id' data he _
    obtain rfl := List.mem_singleton.1 hx
    obtain ⟨hid, hle⟩ := of_decide_eq_true (hall _ he)
    exact ⟨Finset.mem_singleton.2 hid, hle⟩

lemma next_first : next call (World.new fun _ => none) =
    ((Resolver.resolveParsed (sample [] []) (nodeOptions ()) (Sample.parsed "chia")).run
      (World.handle (sample [] []) node ()) (World.new fun _ => none)).2 := by
  rw [next, resultAlone_of_parse names]

/-- The other resource is fetched and stored. -/
lemma talk_other :
    (talk other (next call (World.new fun _ => none))).all isOther = true ∧
      (talk other (next call (World.new fun _ => none))).any (fun e => storesOther e.op) = true := by
  rw [next_first, talk, Resolver.resolve_of_parse names_other]
  decide +kernel

/-- The third call is a hit, although another resource was stored in between. -/
theorem resident_across_three_calls :
    (talk other (next call (World.new fun _ => none))).any (fun e => storesOther e.op) = true ∧
    (resultAlone (sample [] []) nodeOptions node call
      (next other (next call (World.new fun _ => none)))).1 = .ok (.success ⟨[7], "text/plain"⟩) ∧
    talk call (next other (next call (World.new fun _ => none))) =
      [⟨.memoryGet identity, some ⟨[7], "text/plain"⟩⟩] := by
  have hfirst := resolves call (World.new fun _ => none)
  rw [first_result] at hfirst
  have hcalls : Calls (sample [] []) nodeOptions (next call (World.new fun _ => none)) _
      (next other (next call (World.new fun _ => none))) :=
    .cons (x := ⟨other, _, _⟩) (resolves other (next call (World.new fun _ => none))) rfl (.nil _)
  have hquiet : Tampering (next call (World.new fun _ => none))
      (next call (World.new fun _ => none)) := rfl
  have hid : identity ∉ ({otherIdentity} : Finset String) := by
    rw [Finset.mem_singleton]
    decide +kernel
  exact ⟨talk_other.2, resident_across_calls (.nil _) names rfl hfirst hquiet hcalls
    (window_of_isOther talk_other.1 _) hid (by decide) (by decide)
    (resolves call (next other (next call (World.new fun _ => none))))⟩

end Window

end DigUrnResolver
