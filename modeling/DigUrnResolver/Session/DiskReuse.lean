/-
# A file answers like the network did

What a success over ciphertext leaves on the disk is the ciphertext with its proof and chunk list.
A later resolver reads them back, hands them to the read-crypto under the root of the URN, and so
comes to the same plaintext, of the same content type.
-/
import DigUrnResolver.Caching.SharedDisk
import DigUrnResolver.Session.Consultation

namespace DigUrnResolver

open Interaction

variable {ρ : Type} [DecidableEq ρ] {D : Deps} {options : ρ → ResolveOptions}
  {w w' w₁ w₂ w₃ : World ρ} {c c' : Call ρ} {t t' : List (Event Op Ans)} {v : ParsedUrn}
  {root : String} {data : ResolvedData}

/-- The conversation asks somebody, and no node attests the resource of `v`: it can only have come
as ciphertext, from a node or from the gateway. -/
structure OverCiphertext (v : ParsedUrn) (t : List (Event Op Ans)) : Prop where
  asks : Resolver.requests t ≠ []
  unattested : ∀ base resp, (⟨.get (Node.serveUrl base v), .ok resp⟩ : Event Op Ans) ∈ t →
    resp.isSuccess = true → Node.verifiedPlaintext resp = false

/-- Whatever the conversation writes to the directory can be serialized. -/
def WritesSucceed (D : Deps) (t : List (Event Op Ans)) : Prop :=
  ∀ id art, (⟨.diskPut id art, ()⟩ : Event Op Ans) ∈ t →
    ∃ contents, D.artifactsToVec art = some contents

/-- What is written can be read back from the file. -/
lemma getFile_of_diskPut {art : DiskArtifacts} {contents : Bytes} {id : String}
    (hcontents : D.artifactsToVec art = some contents) (hart : D.ArtifactsSpec)
    (htr : World.trans D c (.diskPut id art) w () w') : w'.getFile D id = some art := by
  rw [World.getFile, World.disk_after_trans htr, World.diskAfter, hcontents]
  dsimp only
  rw [Function.update_self, Option.bind_some]
  exact hart art contents hcontents

/-- After a success over ciphertext, the directory answers the same. -/
lemma Resolves.diskVerdict (hart : D.ArtifactsSpec) (hwrites : WritesSucceed D t)
    (h : Resolves D options c w t (.ok (.success data)) w')
    (hparse : ParsedUrn.parse D c.urn = .ok v) (hpin : v.rootHex = some root) {dir : String}
    (hdir : (options c.resolver).cachePath = some dir) (hover : OverCiphertext v t) :
    ∃ art, w'.getFile D (Resolver.cacheId v root) = some art ∧
      reverified D v root art = some (.success data) := by
  obtain ⟨htrace, htalks⟩ := h
  have hresolved := Resolver.trace_resolveParsed (Resolver.trace_of_parse hparse htrace)
  rcases hresolved.of_success with
    hconsult | ⟨front, x, stored, fetched, rfl, hx, hresult, rfl, hstored⟩
  · exact absurd (Resolver.requests_eq_nil.2 (hconsult.of_only Resolver.quiet_consult)) hover.asks
  · have hfetch := hx.1
    rw [hresult] at hfetch
    have hfetched := Resolver.trace_fetched hfetch
    obtain ⟨rest, rfl, -, hwritten⟩ := Resolver.trace_cacheSuccess (hfetched.root_eq hpin) hstored
    generalize htalk : x.talk = talk at hfetched
    cases hfetched with
    | @attested resp success verified =>
      have hmem : (⟨.get (Node.serveUrl x.endpoint.base v), .ok resp⟩ : Event Op Ans) ∈
          x.talk := by
        rw [htalk]
        exact List.mem_singleton_self _
      have hnot := hover.unattested x.endpoint.base resp
        (List.mem_append_left _ (List.mem_append_right _ hmem)) success
      cases verified.symm.trans hnot
    | @decrypted before ciphertext bytes proofB64 root' lens pinned =>
      obtain rfl := pinned root hpin
      obtain rfl := hwritten dir _ hdir rfl
      -- the read-crypto was asked, and the file was written at the end
      have hmem : (⟨.verifyAndDecrypt v ciphertext proofB64 root' lens, .ok bytes⟩ :
          Event Op Ans) ∈ x.talk := by
        rw [htalk]
        exact List.mem_append_right _ (List.mem_singleton_self _)
      obtain ⟨s, s', hcheck⟩ := htalks.exists_step
        (List.mem_append_left _ (List.mem_append_right _ hmem))
      have hverify : Crypto.verifyAndDecrypt D v ciphertext proofB64 root' lens = .ok bytes :=
        hcheck.1.symm
      obtain ⟨w₁, -, hback⟩ := Talks.append_iff.1 htalks
      obtain ⟨w₂, -, hback⟩ := Talks.cons_iff.1 hback
      obtain ⟨w₃, hput, hnil⟩ := Talks.cons_iff.1 hback
      obtain rfl := Talks.nil_iff.1 hnil
      obtain ⟨contents, hcontents⟩ := hwrites _ _
        (List.mem_append_right _ (List.mem_cons_of_mem _ (List.mem_singleton_self _)))
      refine ⟨_, getFile_of_diskPut hcontents hart hput, ?_⟩
      simp only [reverified, hverify]

/-- **A disk hit equals the original resolve.**  After a success over ciphertext, a resolver on the
same directory whose memory does not hold the URN returns the same data and asks nobody, as long as
the file of the identity was not changed. -/
theorem disk_hit_eq (hart : D.ArtifactsSpec) (hparse : ParsedUrn.parse D c.urn = .ok v)
    (hpin : v.rootHex = some root) {dir : String}
    (hdir : (options c.resolver).cachePath = some dir)
    (hfirst : Resolves D options c w t (.ok (.success data)) w₁) (hover : OverCiphertext v t)
    (hwrites : WritesSucceed D t)
    (hfile : w₂.disk (diskPath D (Resolver.cacheId v root)) =
      w₁.disk (diskPath D (Resolver.cacheId v root)))
    (hparse' : ParsedUrn.parse D c'.urn = .ok v)
    (hdir' : (options c'.resolver).cachePath = some dir)
    (hempty : (w₂.inst c'.resolver).memory.map.lookup (Resolver.cacheId v root) = none)
    {r : Except ResolveError ResolveOutcome} (hlater : Resolves D options c' w₂ t' r w₃) :
    r = .ok (.success data) ∧ Resolver.requests t' = [] := by
  obtain ⟨art, hget, hverdict⟩ := hfirst.diskVerdict hart hwrites hparse hpin hdir hover
  refine hlater.of_cacheVerdict hparse' ?_
  have hget' : w₂.getFile D (Resolver.cacheId v root) = some art := by
    rw [World.getFile, hfile]
    exact hget
  simp only [World.cacheVerdict, hpin, hempty, World.diskVerdict, hdir', hget', Option.bind_some,
    hverdict]

/-! ### Two resolvers on one directory -/

namespace OverCiphertext

open DiskQuiet

/-- The conversation of the first resolver, which fetches the ciphertext from a node. -/
def talk : List (Event Op Ans) :=
  (Resolver.resolve deps (sharing false) (Sample.urn "chia")).script
    (World.handle deps cipherNode false) (World.new fun _ => none)

/-- The world afterwards. -/
def after : World Bool := (resultAlone deps sharing cipherNode (callOf false "chia")
  (World.new fun _ => none)).2

lemma parse_chia : ParsedUrn.parse deps (Sample.urn "chia") = .ok (Sample.parsed "chia") :=
  Sample.parse_urn_chia _ _

lemma talk_eq : talk = (Resolver.resolveParsed deps (sharing false) (Sample.parsed "chia")).script
    (World.handle deps cipherNode false) (World.new fun _ => none) := by
  rw [talk, Resolver.resolve_of_parse parse_chia]

lemma result : (resultAlone deps sharing cipherNode (callOf false "chia")
    (World.new fun _ => none)).1 = .ok (.success ⟨[1, 2], "text/plain"⟩) := by
  rw [resultAlone_of_parse names_chia]
  decide +kernel

lemma overCiphertext_talk : OverCiphertext (Sample.parsed "chia") talk where
  asks := by
    intro hnil
    have hlength : (Resolver.requests talk).length = 1 := by
      rw [talk_eq]
      decide +kernel
    rw [hnil] at hlength
    cases hlength
  unattested base resp he _ := by
    obtain ⟨s, hs⟩ := Program.exists_of_mem_script he
    obtain rfl : resp = _ := Except.ok.inj hs
    decide

lemma writesSucceed_talk : WritesSucceed deps talk := by
  have hall : talk.all (fun e => match e.op with
      | .diskPut _ art => (deps.artifactsToVec art).isSome
      | _ => true) = true := by
    rw [talk_eq]
    decide +kernel
  intro id art he
  exact Option.isSome_iff_exists.1 (List.all_eq_true.1 hall _ he)

lemma resolves_first : Resolves deps sharing (callOf false "chia") (World.new fun _ => none) talk
    (resultAlone deps sharing cipherNode (callOf false "chia") (World.new fun _ => none)).1
    after := by
  rw [after]
  exact resolves_alone cipherNode (callOf false "chia") (World.new fun _ => none)

/-- The second resolver answers from the file. -/
theorem disk_hit_eq_two_resolvers :
    (resultAlone deps sharing cipherNode (callOf true "chia") after).1 =
      .ok (.success ⟨[1, 2], "text/plain"⟩) ∧
    Resolver.requests ((Resolver.resolve deps (sharing true) (Sample.urn "chia")).script
      (World.handle deps cipherNode true) after) = [] := by
  have hfirst := resolves_first
  rw [result] at hfirst
  have hother : (callOf true "chia").resolver ≠ (callOf false "chia").resolver := by decide
  have hempty : (after.inst (callOf true "chia").resolver).memory.map.lookup
      (Resolver.cacheId (Sample.parsed "chia") Sample.hex.text) = none := by
    rw [resolves_first.inst_of_ne hother]
    exact AList.lookup_empty _
  have hsecond : ParsedUrn.parse deps (callOf true "chia").urn = .ok (Sample.parsed "chia") :=
    parse_chia
  have hfile := Eq.refl (after.disk
    (diskPath deps (Resolver.cacheId (Sample.parsed "chia") Sample.hex.text)))
  exact disk_hit_eq (c := callOf false "chia") (sample_artifactsSpec _ _ _) names_chia rfl rfl
    hfirst overCiphertext_talk writesSucceed_talk hfile hsecond rfl hempty
    (resolves_alone cipherNode (callOf true "chia") after)

end OverCiphertext

end DigUrnResolver
