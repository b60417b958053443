/-
# What a page is given

A page learns of its calls only what the methods of the client make of the results.  Whatever its
calls are answered, and however they overlap: an image shows a content that was certified in that
very call, or it is the fixed picture for what went wrong; and `resolve` hands over certified bytes
under the tag `success` only.
-/
import DigUrnResolver.Interaction.Finish
import DigUrnResolver.Rendering.ImageUrls
import DigUrnResolver.Security.Isolation
import DigUrnResolver.Security.TypeProvenance
import DigUrnResolver.Session.Reasons

namespace DigUrnResolver

open Interaction

variable {D : Deps} {S : Surface} {disk : String → Option Bytes} {i : ℕ} {t : PageCall}

/-! ### A call of a page is a run of a resolver alone -/

/-- What the client makes of the result of a resolve. -/
def Client.answer (S : Surface) (dig : Client) :
    JsCall → Except ResolveError ResolveOutcome → JsAnswer
  | .resolve _, .error e => .result (.error e.display)
  | .resolve _, .ok outcome =>
    .result (.ok (Wasm.outcomeToResult outcome (Wasm.connectOrDefault dig.connectUrl)))
  | .resolveImageUrl _, .ok (.success data) => .imageUrl (Wasm.imgUrl S data.bytes data.contentType)
  | .resolveImageUrl _, .ok outcome => .imageUrl (Images.dataUri S (Images.forOutcome outcome))
  | .resolveImageUrl _, .error e => .imageUrl (Images.dataUri S (Images.forError e))

lemma Client.method_eq (dig : Client) (call : JsCall) : dig.method D S call =
    Wasm.doResolve D call.urn dig.endpoint dig.cachePath >>= fun r => .ret (dig.answer S call r) := by
  cases call with
  | resolve urn =>
    show (Client.resolve D dig urn >>= fun r => .ret (JsAnswer.result r)) = _
    rw [Client.resolve, Program.bind_assoc]
    refine congrArg _ (funext fun r => ?_)
    rcases r with e | outcome <;> rfl
  | resolveImageUrl urn =>
    show (Client.resolveImageUrl D S dig urn >>= fun url => .ret (JsAnswer.imageUrl url)) = _
    rw [Client.resolveImageUrl, Program.bind_assoc]
    refine congrArg _ (funext fun r => ?_)
    rcases r with e | outcome
    · rfl
    · cases outcome <;> rfl

/-- The options of the resolver of a call. -/
def PageCall.options (t : PageCall) : ResolveOptions :=
  Wasm.options t.client.endpoint t.client.cachePath

/-- The calls of a page are resolves with something made of their results. -/
def pageFinishing (D : Deps) (S : Surface) :
    Finishing (machine D PageCall.options Tampering) (page D S) where
  tag t := ⟨t, t.call.urn⟩
  finish t := t.client.answer S t.call
  body t := t.client.method_eq t.call
  trans h := h
  interfere h := h

/-- What a call did, as the log of a resolver without other calls. -/
def ownLog (p : Pool (World PageCall) PageCall Op Ans JsAnswer) (i : ℕ) (t : PageCall) :
    RunLog Unit :=
  (Log.events p.log i).map fun e => ⟨0, ⟨(), t.call.urn⟩, e.op, e.ans⟩

/-- **A call of a page is a run of a resolver that has no other calls**, under tampering. -/
lemma own_run {p : Pool (World PageCall) PageCall Op Ans JsAnswer}
    (hp : (page D S).Reachable (World.new disk) p) (hnumbers : (Machine.tags p).Nodup)
    {answer : JsAnswer} (hi : p.threads[i]? = some (t, .ret answer)) :
    ∃ (q : RunPool Unit) (r : Except ResolveError ResolveOutcome),
      (machine D (fun _ : Unit => t.options) Tampering).Reachable (World.new disk) q ∧
      q.threads[0]? = some (⟨(), t.call.urn⟩, .ret r) ∧ q.log = ownLog p i t ∧
      t.client.answer S t.call r = answer := by
  obtain ⟨l, hthreads, hreach⟩ := hp.unfinished (pageFinishing D S)
  have htags : Machine.tags p = l.map Prod.fst := by
    rw [Machine.tags, hthreads, Finishing.outer, List.map_map]
    rfl
  rw [hthreads, Finishing.outer, List.getElem?_map] at hi
  obtain ⟨x, hl, heq⟩ := Option.map_eq_some_iff.1 hi
  obtain ⟨rfl, hq⟩ := Prod.mk.inj heq
  obtain ⟨r, hret, hanswer⟩ := Finishing.eq_ret_of_finished hq
  have hthread : ((pageFinishing D S).inner l)[i]? = some (⟨x.1, x.1.call.urn⟩, .ret r) := by
    rw [Finishing.inner, List.getElem?_map, hl, ← hret]
    rfl
  -- no other call has this resolver
  have hothers : ∀ j y, ((pageFinishing D S).inner l)[j]? = some y → j ≠ i →
      Call.on x.1 y.1 = none := by
    intro j y hj hne
    rw [Finishing.inner, List.getElem?_map] at hj
    obtain ⟨z, hz, rfl⟩ := Option.map_eq_some_iff.1 hj
    refine Call.on_eq_none_iff.2 fun hsame => hne ?_
    have hlt : j < (l.map Prod.fst).length := by
      rw [List.length_map]
      exact (List.getElem?_eq_some_iff.1 hz).1
    refine (List.getElem?_inj hlt (htags ▸ hnumbers)).1 ?_
    rw [List.getElem?_map, List.getElem?_map, hz, hl]
    exact congrArg some hsame
  have hkeep : Call.on x.1 (⟨x.1, x.1.call.urn⟩ : Call PageCall) = some ⟨(), x.1.call.urn⟩ :=
    Call.on_eq_some_iff.2 ⟨rfl, rfl⟩
  have hrun := hreach.project (resolverAmong D PageCall.options x.1)
  rw [(resolverAmong D PageCall.options x.1).pool_eq_of_single hreach hthread hkeep hothers] at hrun
  refine ⟨_, r, hrun, rfl, ?_, hanswer⟩
  show (Log.events ((pageFinishing D S).log p.log) i).map _ = _
  rw [Finishing.events_log]
  rfl

/-! ### What is certified -/

/-- `Certified D t u data` : in the conversation, a node attested the content, or the read-crypto was
asked and verified its bytes, under the pinned root of `u` or the one that a node named for a
rootless `u`. -/
inductive Certified (D : Deps) (t : List (Event Op Ans)) (u : ParsedUrn) : ResolvedData → Prop
  | attested {base : String} {resp : HttpResponse}
      (reply : (⟨.get (Node.serveUrl base u), .ok resp⟩ : Event Op Ans) ∈ t)
      (success : resp.isSuccess = true) (verified : Node.verifiedPlaintext resp = true) :
      Certified D t u (Node.attestedData u resp)
  | verified {ciphertext bytes : Bytes} {proofB64 root : String} {lens : List UInt32}
      (source : u.rootHex = some root ∨ u.rootHex = none ∧ ∃ base resp,
        (⟨.get (Node.serveUrl base u), .ok resp⟩ : Event Op Ans) ∈ t ∧ resp.isSuccess = true ∧
          (resp.header "x-dig-root").map Text.trim = some root)
      (did : (⟨.verifyAndDecrypt u ciphertext proofB64 root lens, .ok bytes⟩ : Event Op Ans) ∈ t)
      (ran : Crypto.verifyAndDecrypt D u ciphertext proofB64 root lens = .ok bytes) :
      Certified D t u ⟨bytes, deriveContentType u.resourceKey bytes⟩

variable {p : Pool (World PageCall) PageCall Op Ans JsAnswer} {u v : ParsedUrn}
  {data : ResolvedData}

lemma did_ownLog {j : ℕ} {c : Call Unit} {op : Op} {ans : Ans op}
    (h : Did (ownLog p i t) j c op ans) :
    j = 0 ∧ c = ⟨(), t.call.urn⟩ ∧ (⟨op, ans⟩ : Event Op Ans) ∈ Log.events p.log i := by
  obtain ⟨e, he, heq⟩ := List.mem_map.1 h
  cases heq
  exact ⟨rfl, rfl, he⟩

/-- All that was said in a conversation of its own was said to the call. -/
lemma NodeReply.own {j : ℕ} {c : Call Unit} {base : String} {resp : HttpResponse}
    (h : NodeReply (ownLog p i t) j c v base resp) (hv : Names D c v)
    (hu : Names D ⟨(), t.call.urn⟩ u) :
    v = u ∧ (⟨.get (Node.serveUrl base u), .ok resp⟩ : Event Op Ans) ∈ Log.events p.log i := by
  obtain ⟨-, rfl, hmem⟩ := did_ownLog h.reply
  obtain rfl : v = u := Except.ok.inj (hv.symm.trans hu)
  exact ⟨rfl, hmem⟩

lemma certified_of_typed (hu : Names D ⟨(), t.call.urn⟩ u)
    (h : TypedByNode D (ownLog p i t) 0 u data ∨ TypedByKey D (ownLog p i t) 0 u data) :
    Certified D (Log.events p.log i) u data := by
  rcases h with ⟨j, v, root, ⟨c, base, resp, hv, hreply, hsuccess, hverified, -, rfl⟩, -⟩ | h
  · obtain ⟨rfl, hmem⟩ := hreply.own hv hu
    exact .attested hmem hsuccess hverified
  · obtain ⟨⟨j, v, root, ⟨c, ct, proofB64, lens, hv, hsource, hdid, hran⟩, -, -, -⟩, hderived⟩ := h
    obtain ⟨-, rfl, hmem⟩ := did_ownLog hdid
    obtain rfl : v = u := Except.ok.inj (hv.symm.trans hu)
    rw [hderived.eq]
    refine .verified ?_ hmem hran
    rcases hsource with hpin | ⟨hnone, base, resp, hreply, hsuccess, hroot⟩
    · exact Or.inl hpin
    · exact Or.inr ⟨hnone, base, resp, (hreply.own hv hv).2, hsuccess, hroot⟩

/-- The result of a call of a page: a certified content, or a failure for a reason. -/
lemma certified_or_reason (hD : D.FromHexSpec) (hV : D.VerdictSpec)
    (hp : (page D S).Reachable (World.new disk) p) (hnumbers : (Machine.tags p).Nodup)
    {answer : JsAnswer} (hi : p.threads[i]? = some (t, .ret answer)) :
    ∃ r, t.client.answer S t.call r = answer ∧
      ((∃ u data, ParsedUrn.parse D t.call.urn = .ok u ∧
          Certified D (Log.events p.log i) u data ∧ r = .ok (.success data)) ∨
        Reason D (ownLog p i t) 0 ⟨(), t.call.urn⟩ r) := by
  obtain ⟨q, r, hq, hthread, hlog, hanswer⟩ := own_run hp hnumbers hi
  refine ⟨r, hanswer, ?_⟩
  obtain ⟨hinv, -, hsat⟩ := provenance_holds hq
  rcases reason_of_trace hV hinv.crypto (fun e he => hq.mem_log hthread he)
    (fun _ => ne_nil_of_used hq) (hq.trace hthread) with ⟨data, rfl⟩ | hreason
  · have hsucceeded : Succeeded D q.log 0 ⟨(), t.call.urn⟩ data :=
      hsat 0 _ _ hthread q.log List.prefix_rfl
    obtain ⟨u, hu, htyped⟩ := typed_of_succeeded hD hinv.crypto (hits_hold hq) hsucceeded
    rw [hlog] at htyped
    exact Or.inl ⟨u, data, hu, certified_of_typed hu htyped, rfl⟩
  · rw [hlog] at hreason
    exact Or.inr hreason

/-! ### The methods of the client -/

/-- The picture for a result that is no content. -/
def Images.forFailure : Except ResolveError ResolveOutcome → ErrorImage
  | .ok outcome => forOutcome outcome
  | .error e => forError e

/-- **An image shows what was certified, or what went wrong.**  On every page, whatever its calls
are answered and whatever happens to the files: the URL that a call of `resolve_image_url` comes to
is that of a content which was certified in this very call, and it shows this content unless the
type that a node chose cannot stand in a data URL; or it shows the fixed picture for the reason why
the call failed. -/
theorem image_shown (hD : D.FromHexSpec) (hV : D.VerdictSpec) (hS : S.EncodeSpec)
    (hp : (page D S).Reachable (World.new disk) p) (hnumbers : (Machine.tags p).Nodup) {url : String}
    (hi : p.threads[i]? = some (t, .ret (.imageUrl url))) :
    (∃ u data, ParsedUrn.parse D t.call.urn = .ok u ∧ Certified D (Log.events p.log i) u data ∧
        url = Wasm.imgUrl S data.bytes data.contentType ∧
        (Portable data.contentType ∨ Derived u data → Shows S url data)) ∨
      ∃ r, Reason D (ownLog p i t) 0 ⟨(), t.call.urn⟩ r ∧
        Carries url "image/png" (S.png (Images.forFailure r)) := by
  obtain ⟨r, hanswer, hr⟩ := certified_or_reason hD hV hp hnumbers hi
  cases hcall : t.call with
  | resolve urn =>
    rw [hcall] at hanswer
    rcases r with e | outcome <;> cases hanswer
  | resolveImageUrl urn =>
    rcases hr with ⟨u, data, hu, hcertified, rfl⟩ | hreason
    · refine Or.inl ⟨u, data, hcall ▸ hu, hcertified, ?_⟩
      rw [hcall] at hanswer
      obtain rfl := JsAnswer.imageUrl.inj hanswer
      refine ⟨rfl, fun htype => Wasm.shows_imgUrl hS data ?_⟩
      rcases htype with hportable | hderived
      · exact hportable
      · rw [hderived]
        exact portable_deriveContentType _ _
    · refine Or.inr ⟨r, hcall ▸ hreason, ?_⟩
      rw [hcall] at hanswer
      have hpicture : url = Images.dataUri S (Images.forFailure r) := by
        rcases r with e | outcome
        · exact (JsAnswer.imageUrl.inj hanswer).symm
        · cases outcome with
          | success data => cases hreason
          | integrityFailure | unreachable => exact (JsAnswer.imageUrl.inj hanswer).symm
      rw [hpicture]
      exact Images.carries_dataUri hS _

/-- **`resolve` hands over certified bytes under the tag `success` only.**  Otherwise the bytes are
one of the two pages, or the call is rejected with the text of the error; and each time there is
the reason for it. -/
theorem result_told (hD : D.FromHexSpec) (hV : D.VerdictSpec)
    (hp : (page D S).Reachable (World.new disk) p) (hnumbers : (Machine.tags p).Nodup)
    {result : Except String ResolveResult} (hi : p.threads[i]? = some (t, .ret (.result result))) :
    (∃ u data, ParsedUrn.parse D t.call.urn = .ok u ∧ Certified D (Log.events p.log i) u data ∧
        result = .ok ⟨"success", data.bytes, data.contentType⟩) ∨
      (Reason D (ownLog p i t) 0 ⟨(), t.call.urn⟩ (.ok .integrityFailure) ∧ result =
        .ok ⟨"integrity_failure", Pages.integrityFailureHtml.toUTF8.toList, "text/html"⟩) ∨
      (Reason D (ownLog p i t) 0 ⟨(), t.call.urn⟩ (.ok .unreachable) ∧ result =
        .ok ⟨"unreachable", (Pages.unreachableHtml
          (Wasm.connectOrDefault t.client.connectUrl)).toUTF8.toList, "text/html"⟩) ∨
      ∃ e, Reason D (ownLog p i t) 0 ⟨(), t.call.urn⟩ (.error e) ∧ result = .error e.display := by
  obtain ⟨r, hanswer, hr⟩ := certified_or_reason hD hV hp hnumbers hi
  cases hcall : t.call with
  | resolveImageUrl urn =>
    rw [hcall] at hanswer
    rcases r with e | outcome
    · cases hanswer
    · cases outcome <;> cases hanswer
  | resolve urn =>
    rw [← hcall]
    rcases hr with ⟨u, data, hu, hcertified, rfl⟩ | hreason
    · rw [hcall] at hanswer
      exact Or.inl ⟨u, data, hu, hcertified, (JsAnswer.result.inj hanswer).symm⟩
    · rw [hcall] at hanswer
      rcases r with e | outcome
      · exact Or.inr (Or.inr (Or.inr ⟨e, hreason, (JsAnswer.result.inj hanswer).symm⟩))
      · cases outcome with
        | success data => cases hreason
        | integrityFailure => exact Or.inr (Or.inl ⟨hreason, (JsAnswer.result.inj hanswer).symm⟩)
        | unreachable =>
          exact Or.inr (Or.inr (Or.inl ⟨hreason, (JsAnswer.result.inj hanswer).symm⟩))

/-! ### A page in Node.js -/

/-- The page after one more call, which ran while all others waited. -/
def afterCall (D : Deps) (S : Surface) (net : World.Net) (t : PageCall)
    (p : Pool (World PageCall) PageCall Op Ans JsAnswer) :
    Pool (World PageCall) PageCall Op Ans JsAnswer where
  state := (((page D S).body t).run (World.handle D net t) p.state).2
  threads := p.threads ++ [(t, .ret (((page D S).body t).run (World.handle D net t) p.state).1)]
  log := p.log ++ (((page D S).body t).script (World.handle D net t) p.state).map
    fun e => ⟨p.threads.length, t, e.op, e.ans⟩

lemma reachable_afterCall {w₀ : World PageCall} (hp : (page D S).Reachable w₀ p) (net : World.Net)
    (t : PageCall) : (page D S).Reachable w₀ (afterCall D S net t p) :=
  Machine.Reachable.solo (World.trans_handle D net ⟨t, t.call.urn⟩) hp

/-- What a call that ran alone has come to. -/
lemma value_body {net : World.Net} (hparse : ParsedUrn.parse D t.call.urn = .ok v)
    (w : World PageCall) : (((page D S).body t).run (World.handle D net t) w).1 =
      t.client.answer S t.call
        ((Resolver.resolveParsed D t.options v).run (World.handle D net t) w).1 := by
  show ((t.client.method D S t.call).run _ w).1 = _
  rw [Client.method_eq, Program.run_bind, Wasm.doResolve, Resolver.resolve_of_parse hparse]
  rfl

/-- What the calls of the sample resolve to. -/
lemma value_chia {net : World.Net} {r : Except ResolveError ResolveOutcome}
    (hurn : t.call.urn = Sample.urn "chia") (w : World PageCall)
    (hr : ((Resolver.resolveParsed (sample [] []) t.options (Sample.parsed "chia")).run
      (World.handle (sample [] []) net t) w).1 = r) :
    (((page (sample [] []) withoutBlobs).body t).run (World.handle (sample [] []) net t) w).1 =
      t.client.answer withoutBlobs t.call r := by
  have hparse : ParsedUrn.parse (sample [] []) t.call.urn = .ok (Sample.parsed "chia") := by
    rw [hurn]
    exact Sample.parse_urn_chia [] []
  rw [value_body hparse, hr]

/-- An image that a node attests as a page is one, in Node.js as well. -/
theorem image_shown_page :
    ∃ p, (page (sample [] []) withoutBlobs).Reachable (World.new fun _ => none) p ∧
      p.threads[0]? = some (⟨0, Client.new none, .resolveImageUrl (Sample.urn "chia")⟩,
        .ret (.imageUrl "data:text/html;base64,AQID")) ∧
      ((∃ u data, Certified (sample [] []) (Log.events p.log 0) u data ∧
          "data:text/html;base64,AQID" = Wasm.imgUrl withoutBlobs data.bytes data.contentType ∧
          (Portable data.contentType ∨ Derived u data →
            Shows withoutBlobs "data:text/html;base64,AQID" data)) ∨
        ∃ kind, Carries "data:text/html;base64,AQID" "image/png" (withoutBlobs.png kind)) := by
  let t : PageCall := ⟨0, Client.new none, .resolveImageUrl (Sample.urn "chia")⟩
  let p := afterCall (sample [] []) withoutBlobs pageNet t ⟨World.new fun _ => none, [], []⟩
  have hp : (page (sample [] []) withoutBlobs).Reachable (World.new fun _ => none) p :=
    reachable_afterCall .refl pageNet t
  have hresult : ((Resolver.resolveParsed (sample [] []) t.options (Sample.parsed "chia")).run
      (World.handle (sample [] []) pageNet t) (World.new fun _ => none)).1 =
        .ok (.success ⟨[1, 2, 3], "text/html"⟩) := by decide +kernel
  have hurl : Wasm.imgUrl withoutBlobs [1, 2, 3] "text/html" = "data:text/html;base64,AQID" := by
    decide +kernel
  have hthread : p.threads[0]? = some (t, .ret (.imageUrl "data:text/html;base64,AQID")) := by
    rw [← hurl]
    exact congrArg (fun a => some (t, Program.ret a)) (value_chia rfl _ hresult)
  rcases image_shown (sample_fromHexSpec [] []) (sample_verdictSpec [] []) withoutBlobs_encodeSpec hp
    (List.nodup_singleton _) hthread with ⟨u, data, -, hshown⟩ | ⟨r, -, hshown⟩
  · exact ⟨p, hp, hthread, Or.inl ⟨u, data, hshown⟩⟩
  · exact ⟨p, hp, hthread, Or.inr ⟨_, hshown⟩⟩

/-- Over a network without any host, `resolve` hands over the page that says so. -/
theorem result_told_silent :
    ∃ p, (page (sample [] []) withoutBlobs).Reachable (World.new fun _ => none) p ∧
      p.threads[0]? = some (⟨0, Client.new none, .resolve (Sample.urn "chia")⟩,
        .ret (.result (.ok ⟨"unreachable", (Pages.unreachableHtml "https://dig.net").toUTF8.toList,
          "text/html"⟩))) ∧
      ∃ r, Reason (sample [] []) (ownLog p 0 ⟨0, Client.new none, .resolve (Sample.urn "chia")⟩) 0
        ⟨(), Sample.urn "chia"⟩ r := by
  let t : PageCall := ⟨0, Client.new none, .resolve (Sample.urn "chia")⟩
  let p := afterCall (sample [] []) withoutBlobs silentNet t ⟨World.new fun _ => none, [], []⟩
  have hp : (page (sample [] []) withoutBlobs).Reachable (World.new fun _ => none) p :=
    reachable_afterCall .refl silentNet t
  have hresult : ((Resolver.resolveParsed (sample [] []) t.options (Sample.parsed "chia")).run
      (World.handle (sample [] []) silentNet t) (World.new fun _ => none)).1 = .ok .unreachable := by
    decide +kernel
  have hthread : p.threads[0]? = some (t, .ret (.result (.ok ⟨"unreachable",
      (Pages.unreachableHtml "https://dig.net").toUTF8.toList, "text/html"⟩))) :=
    congrArg (fun a => some (t, Program.ret a)) (value_chia rfl _ hresult)
  rcases result_told (sample_fromHexSpec [] []) (sample_verdictSpec [] []) hp
    (List.nodup_singleton _) hthread with ⟨u, data, -, -, heq⟩ | ⟨h, -⟩ | ⟨h, -⟩ | ⟨e, h, -⟩
  · have htag : "unreachable" = "success" := congrArg ResolveResult.outcome (Except.ok.inj heq)
    exact absurd htag (by decide)
  · exact ⟨p, hp, hthread, _, h⟩
  · exact ⟨p, hp, hthread, _, h⟩
  · exact ⟨p, hp, hthread, _, h⟩

end DigUrnResolver
