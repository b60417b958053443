/-
# The two transports

The native transport hands all headers of a reply to the resolver, and its content as it was sent.
The `fetch` transport hands on two of the headers, and the content with its codings undone.  Both
give the same answer to whoever asks for these two headers; the reads of a node that are decided by
others, or by a content that comes out differently, are where the environments differ.
-/
import DigUrnResolver.Source.Transport
import DigUrnResolver.Source.World
import DigUrnResolver.Source.Sample

namespace DigUrnResolver

open Interaction

/-! ### Looking up a header -/

section Lookup

variable {reply : HttpResponse} {name : String} {body : Bytes}

lemma toStr_of_ascii {value : String} (h : ∀ c ∈ value.toList, isVisibleAscii c = true) :
    (ReqwestTransport.toStr value).getD "" = value := by
  rw [ReqwestTransport.toStr, if_pos (List.all_eq_true.2 h), Option.getD_some]

/-- The native transport keeps every header. -/
lemma header_collect (hreply : reply.Readable) :
    (ReqwestTransport.collect reply).header name = reply.header name := by
  have hascii := hreply.ascii
  rw [HttpResponse.header, HttpResponse.header, ReqwestTransport.collect]
  generalize reply.headers = hs at hascii
  induction hs with
  | nil => rfl
  | cons h hs ih =>
    have hvalue := toStr_of_ascii (hascii h List.mem_cons_self)
    have hrest := ih fun h' hmem => hascii h' (List.mem_cons_of_mem _ hmem)
    simp only [List.map_cons, List.find?_cons, Text.eqIgnoreAsciiCase_toAsciiLowercase_left,
      hvalue] at hrest ⊢
    cases Text.eqIgnoreAsciiCase h.1 (Text.toAsciiLowercase name) with
    | true => rfl
    | false => exact hrest

/-- Where names are distinct, `Headers.get` reads the header of a lookup. -/
lemma headersGet_eq (hreply : reply.Readable) (hname : Text.toAsciiLowercase name = name) :
    FetchTransport.headersGet reply name = reply.header name := by
  have hdistinct := hreply.distinct
  rw [FetchTransport.headersGet, HttpResponse.header, hname]
  generalize reply.headers = hs at hdistinct
  induction hs with
  | nil => rfl
  | cons h hs ih =>
    rw [List.map_cons, List.nodup_cons] at hdistinct
    rw [List.filter_cons, List.find?_cons]
    cases hmatch : Text.eqIgnoreAsciiCase h.1 name with
    | false => exact ih hdistinct.2
    | true =>
      -- no other header has this name
      have hnone : (hs.filter fun h' => Text.eqIgnoreAsciiCase h'.1 name) = [] := by
        rw [List.filter_eq_nil_iff]
        intro h' hmem hmatch'
        refine hdistinct.1 (List.mem_map.2 ⟨h', hmem, ?_⟩)
        exact Text.toAsciiLowercase_eq_of_eqIgnoreAsciiCase hmatch' hmatch
      rw [if_pos rfl, hnone]
      simp

/-- The names of the two headers that are copied. -/
def isCopied (name : String) : Bool :=
  Text.eqIgnoreAsciiCase "content-type" name || Text.eqIgnoreAsciiCase "x-dig-verified" name

lemma find?_copied_of_ne {name' : String} (h : Text.eqIgnoreAsciiCase name' name = false) :
    (FetchTransport.copied reply name').find? (fun h => Text.eqIgnoreAsciiCase h.1 name) = none := by
  rw [FetchTransport.copied]
  cases FetchTransport.headersGet reply name' with
  | none => rfl
  | some value =>
    rw [Option.map_some, Option.toList_some, List.find?_cons, h]
    rfl

lemma find?_copied_self (h : Text.eqIgnoreAsciiCase name name = true) :
    ((FetchTransport.copied reply name).find? fun h => Text.eqIgnoreAsciiCase h.1 name).map
      Prod.snd = FetchTransport.headersGet reply name := by
  rw [FetchTransport.copied]
  cases FetchTransport.headersGet reply name with
  | none => rfl
  | some value =>
    rw [Option.map_some, Option.toList_some, List.find?_cons, h]
    rfl

lemma header_response (hname : Text.toAsciiLowercase name = name) :
    (FetchTransport.response reply body).header name =
      (((FetchTransport.copied reply "content-type").find?
          fun h => Text.eqIgnoreAsciiCase h.1 name).or
        ((FetchTransport.copied reply "x-dig-verified").find?
          fun h => Text.eqIgnoreAsciiCase h.1 name)).map Prod.snd := by
  rw [HttpResponse.header, hname, FetchTransport.response, List.find?_append]

/-- The `fetch` transport drops every other header. -/
lemma header_response_of_not_copied (hname : Text.toAsciiLowercase name = name)
    (h : isCopied name = false) : (FetchTransport.response reply body).header name = none := by
  rw [isCopied, Bool.or_eq_false_iff] at h
  rw [header_response hname, find?_copied_of_ne h.1, find?_copied_of_ne h.2]
  rfl

lemma header_response_contentType (hreply : reply.Readable) :
    (FetchTransport.response reply body).header "content-type" = reply.header "content-type" := by
  have hother : Text.eqIgnoreAsciiCase "x-dig-verified" "content-type" = false := by decide
  rw [header_response (by decide), find?_copied_of_ne hother, Option.or_none,
    find?_copied_self (by decide), headersGet_eq hreply (by decide)]

lemma header_response_verified (hreply : reply.Readable) :
    (FetchTransport.response reply body).header "x-dig-verified" = reply.header "x-dig-verified" := by
  have hother : Text.eqIgnoreAsciiCase "content-type" "x-dig-verified" = false := by decide
  rw [header_response (by decide), find?_copied_of_ne hother, Option.none_or,
    find?_copied_self (by decide), headersGet_eq hreply (by decide)]

end Lookup

/-! ### The two reads -/

/-- The result of `node::fetch` for the outcome of its request, with the crypto of the crate. -/
def exchangeResult (D : Deps) (base : String) (parsed : ParsedUrn)
    (answer : Except TransportError HttpResponse) : Except ResolveError Fetched :=
  ((Node.fetch base parsed).run
    (World.handle D ⟨fun _ => answer, fun _ _ => answer, fun _ => true⟩ ())
    (World.new fun _ => none)).1

/-- The result of `node::fetch` for a response. -/
def nodeResult (D : Deps) (base : String) (parsed : ParsedUrn) (resp : HttpResponse) :
    Except ResolveError Fetched :=
  ((Node.fetch base parsed).run
    (World.handle D ⟨fun _ => .ok resp, fun _ _ => .ok resp, fun _ => true⟩ ())
    (World.new fun _ => none)).1

/-- The same data, root and artifacts, or errors of the same kind. -/
def SameResult (r r' : Except ResolveError Fetched) : Prop :=
  r.mapError ResolveError.kind = r'.mapError ResolveError.kind

/-- The body can be read through `fetch`, or it does not matter. -/
def Legible (decode : String → Bytes → Except TransportError Bytes) (reply : HttpResponse) : Prop :=
  ∀ e, FetchTransport.arrayBuffer decode reply = .error e →
    reply.status ≠ 404 ∧ reply.isSuccess = false

/-- What a successful reply must be like for the two transports to agree. -/
structure Interchangeable (D : Deps) (decode : String → Bytes → Except TransportError Bytes)
    (parsed : ParsedUrn) (reply : HttpResponse) : Prop where
  -- the content of an attested reply is what it is without its codings
  body : Node.verifiedPlaintext reply = true →
    FetchTransport.arrayBuffer decode reply = .ok reply.content
  -- an attested reply to a rootless URN does not name a root
  root : Node.verifiedPlaintext reply = true → Node.nodeRoot parsed reply = parsed.rootHex
  -- a ciphertext reply does not verify
  ciphertext : Node.verifiedPlaintext reply = false → ∀ proof root lens,
    reply.header "x-dig-inclusion-proof" = some proof → Node.nodeRoot parsed reply = some root →
    Node.parseChunkLens (reply.header "x-dig-chunk-lens") = .ok lens →
    ∃ message, Crypto.verifyAndDecrypt D parsed reply.content proof root lens =
      .error (.verifyFailed message)

section Reads

variable {D : Deps} {base : String} {parsed : ParsedUrn} {resp reply : HttpResponse} {body : Bytes}
  {decode : String → Bytes → Except TransportError Bytes}

lemma exchangeResult_ok : exchangeResult D base parsed (.ok resp) = nodeResult D base parsed resp :=
  rfl

lemma exchangeResult_error (e : TransportError) :
    exchangeResult D base parsed (.error e) = .error (.transport e.message) := rfl

lemma nodeResult_of_notFound (h : resp.status = 404) :
    nodeResult D base parsed resp = .error .notFound := by
  show ((Node.accept parsed resp).run _ _).1 = _
  rw [Node.accept, if_pos h]
  rfl

lemma nodeResult_of_not_success (h404 : resp.status ≠ 404) (h : resp.isSuccess = false) :
    nodeResult D base parsed resp =
      .error (.transport ("node returned HTTP " ++ toString resp.status)) := by
  show ((Node.accept parsed resp).run _ _).1 = _
  rw [Node.accept, if_neg h404, if_pos h]
  rfl

/-- Attested plaintext, of which the headers matter for the content type and the root. -/
lemma nodeResult_of_attested (h : resp.isSuccess = true)
    (hverified : Node.verifiedPlaintext resp = true) :
    nodeResult D base parsed resp = .ok {
      data := ⟨resp.body, (Node.headerContentType resp).getD
        (deriveContentType parsed.resourceKey resp.body)⟩
      root := Node.nodeRoot parsed resp
      artifacts := none } := by
  show ((Node.accept parsed resp).run _ _).1 = _
  rw [Node.accept_of_attested h hverified]
  rfl

/-- What is left of `accept` when nothing is attested. -/
lemma nodeResult_of_unattested (h : resp.isSuccess = true)
    (hverified : Node.verifiedPlaintext resp = false) :
    nodeResult D base parsed resp =
      ((if Node.isCiphertext resp then Node.acceptCiphertext parsed resp
        else Program.ret (.error (.verifyFailed
          "node response was neither X-Dig-Verified plaintext nor decryptable ciphertext"))).run
        (World.handle D ⟨fun _ => .ok resp, fun _ _ => .ok resp, fun _ => true⟩ ())
        (World.new fun _ => none)).1 := by
  show ((Node.accept parsed resp).run _ _).1 = _
  rw [Node.accept, if_neg (HttpResponse.status_ne_of_isSuccess h), if_neg (by simp [h]),
    if_neg (by simp [hverified])]
  rfl

/-- Ciphertext with all that it takes to verify it. -/
lemma nodeResult_of_ciphertext (h : resp.isSuccess = true)
    (hverified : Node.verifiedPlaintext resp = false) {proof root : String} {lens : List UInt32}
    (hproof : resp.header "x-dig-inclusion-proof" = some proof)
    (hroot : Node.nodeRoot parsed resp = some root)
    (hlens : Node.parseChunkLens (resp.header "x-dig-chunk-lens") = .ok lens) :
    nodeResult D base parsed resp =
      (Crypto.verifyAndDecrypt D parsed resp.body proof root lens).map fun bytes =>
        { data := ⟨bytes, deriveContentType parsed.resourceKey bytes⟩
          root := some root
          artifacts := some ⟨resp.body, proof, lens⟩ } := by
  have hcipher : Node.isCiphertext resp = true := by
    rw [Node.isCiphertext, hproof, Option.isSome_some, Bool.or_true]
  rw [nodeResult_of_unattested h hverified, if_pos hcipher, Node.acceptCiphertext]
  simp only [hproof, hroot, hlens]
  rw [Program.perform_bind, Program.run_call]
  -- the read-crypto answers the operation
  have hanswer : ∀ net w, (World.handle D net ()
      (Op.verifyAndDecrypt parsed resp.body proof root lens) w).1 =
      Crypto.verifyAndDecrypt D parsed resp.body proof root lens := fun _ _ => rfl
  rw [hanswer]
  cases Crypto.verifyAndDecrypt D parsed resp.body proof root lens with
  | error e => rfl
  | ok bytes => rfl

/-- Without one of the pieces, the reply is refused. -/
lemma nodeResult_of_incomplete (h : resp.isSuccess = true)
    (hverified : Node.verifiedPlaintext resp = false)
    (hnone : ∀ proof root lens, resp.header "x-dig-inclusion-proof" = some proof →
      Node.nodeRoot parsed resp = some root →
      Node.parseChunkLens (resp.header "x-dig-chunk-lens") ≠ .ok lens) :
    ∃ message, nodeResult D base parsed resp = .error (.verifyFailed message) := by
  rw [nodeResult_of_unattested h hverified]
  by_cases hcipher : Node.isCiphertext resp = true
  · rw [if_pos hcipher, Node.acceptCiphertext]
    cases hproof : resp.header "x-dig-inclusion-proof" with
    | none => exact ⟨_, rfl⟩
    | some proof =>
      cases hroot : Node.nodeRoot parsed resp with
      | none => exact ⟨_, rfl⟩
      | some root =>
        cases hlens : Node.parseChunkLens (resp.header "x-dig-chunk-lens") with
        | ok lens => exact absurd hlens (hnone proof root lens hproof hroot)
        | error e =>
          rw [Node.parseChunkLens] at hlens
          split at hlens
          · cases hlens
          · split at hlens
            · cases hlens
            · obtain rfl := Except.error.inj hlens
              exact ⟨_, rfl⟩
  · rw [if_neg hcipher]
    exact ⟨_, rfl⟩

/-! What the node looks at, under either transport. -/

lemma verifiedPlaintext_response (hreply : reply.Readable) :
    Node.verifiedPlaintext (FetchTransport.response reply body) = Node.verifiedPlaintext reply := by
  rw [Node.verifiedPlaintext, Node.verifiedPlaintext, Node.flag, Node.flag,
    header_response_verified hreply]

lemma headerContentType_response (hreply : reply.Readable) :
    Node.headerContentType (FetchTransport.response reply body) = Node.headerContentType reply := by
  rw [Node.headerContentType, Node.headerContentType, header_response_contentType hreply]

lemma nodeRoot_response : Node.nodeRoot parsed (FetchTransport.response reply body) = parsed.rootHex := by
  rw [Node.nodeRoot, header_response_of_not_copied (by decide) (by decide)]
  exact Option.or_none

lemma verifiedPlaintext_collect (hreply : reply.Readable) :
    Node.verifiedPlaintext (ReqwestTransport.collect reply) = Node.verifiedPlaintext reply := by
  rw [Node.verifiedPlaintext, Node.verifiedPlaintext, Node.flag, Node.flag,
    header_collect hreply]

lemma headerContentType_collect (hreply : reply.Readable) :
    Node.headerContentType (ReqwestTransport.collect reply) = Node.headerContentType reply := by
  rw [Node.headerContentType, Node.headerContentType, header_collect hreply]

lemma nodeRoot_collect (hreply : reply.Readable) :
    Node.nodeRoot parsed (ReqwestTransport.collect reply) = Node.nodeRoot parsed reply := by
  rw [Node.nodeRoot, Node.nodeRoot, header_collect hreply]

/-- Through `fetch`, every reply that is not attested is refused. -/
lemma nodeResult_response (hreply : reply.Readable) (h : reply.isSuccess = true)
    (hverified : Node.verifiedPlaintext reply = false) :
    ∃ message, nodeResult D base parsed (FetchTransport.response reply body) =
      .error (.verifyFailed message) := by
  refine nodeResult_of_incomplete h ((verifiedPlaintext_response hreply).trans hverified) ?_
  intro proof root lens hproof
  rw [header_response_of_not_copied (by decide) (by decide)] at hproof
  cases hproof

lemma sameResult_verifyFailed_iff {message : String} {r : Except ResolveError Fetched} :
    SameResult (.error (.verifyFailed message)) r ↔ ∃ message', r = .error (.verifyFailed message') := by
  rw [SameResult]
  constructor
  · intro h
    cases r with
    | ok fetched => cases h
    | error e =>
      cases e with
      | verifyFailed message' => exact ⟨message', rfl⟩
      | _ => cases h
  · rintro ⟨message', rfl⟩
    rfl

/-- No body is read of a reply that is not successful. -/
lemma sameResult_of_not_success (hsuccess : reply.isSuccess = false) :
    SameResult (nodeResult D base parsed (FetchTransport.response reply body))
      (nodeResult D base parsed (ReqwestTransport.collect reply)) := by
  by_cases h404 : reply.status = 404
  · have hfetch : (FetchTransport.response reply body).status = 404 := h404
    have hnative : (ReqwestTransport.collect reply).status = 404 := h404
    rw [nodeResult_of_notFound hfetch, nodeResult_of_notFound hnative]
    exact rfl
  · have hfetch : (FetchTransport.response reply body).isSuccess = false := hsuccess
    have hnative : (ReqwestTransport.collect reply).isSuccess = false := hsuccess
    have hfetch404 : (FetchTransport.response reply body).status ≠ 404 := h404
    have hnative404 : (ReqwestTransport.collect reply).status ≠ 404 := h404
    rw [nodeResult_of_not_success hfetch404 hfetch, nodeResult_of_not_success hnative404 hnative]
    exact rfl

/-- Of attested plaintext, the transports differ in the body and the root at most. -/
lemma sameResult_attested_iff (hreply : reply.Readable) (hsuccess : reply.isSuccess = true)
    (hverified : Node.verifiedPlaintext reply = true) :
    SameResult (nodeResult D base parsed (FetchTransport.response reply body))
      (nodeResult D base parsed (ReqwestTransport.collect reply)) ↔
      body = reply.content ∧ Node.nodeRoot parsed reply = parsed.rootHex := by
  have hfetch : (FetchTransport.response reply body).isSuccess = true := hsuccess
  have hnative : (ReqwestTransport.collect reply).isSuccess = true := hsuccess
  rw [nodeResult_of_attested hfetch ((verifiedPlaintext_response hreply).trans hverified),
    nodeResult_of_attested hnative ((verifiedPlaintext_collect hreply).trans hverified),
    nodeRoot_response, nodeRoot_collect hreply, headerContentType_response hreply,
    headerContentType_collect hreply]
  constructor
  · intro hsame
    have hfetched := Except.ok.inj hsame
    have hdata := congrArg (fun f => f.data.bytes) hfetched
    exact ⟨hdata, (congrArg Fetched.root hfetched).symm⟩
  · rintro ⟨rfl, hroot⟩
    rw [hroot]
    exact rfl

/-- Ciphertext is refused by the one transport, so it has to fail verification in the other. -/
lemma sameResult_ciphertext_iff (hreply : reply.Readable) (hsuccess : reply.isSuccess = true)
    (hverified : Node.verifiedPlaintext reply = false) :
    SameResult (nodeResult D base parsed (FetchTransport.response reply body))
      (nodeResult D base parsed (ReqwestTransport.collect reply)) ↔
      Interchangeable D decode parsed reply := by
  have hnative : (ReqwestTransport.collect reply).isSuccess = true := hsuccess
  have hverified' := (verifiedPlaintext_collect hreply).trans hverified
  have hbody : (ReqwestTransport.collect reply).body = reply.content := rfl
  obtain ⟨message, hrefused⟩ := nodeResult_response hreply hsuccess hverified
  rw [hrefused, sameResult_verifyFailed_iff]
  constructor
  · rintro ⟨message', hresult⟩
    have hnot : Node.verifiedPlaintext reply ≠ true := by simp [hverified]
    refine ⟨fun h => absurd h hnot, fun h => absurd h hnot, ?_⟩
    intro _ proof root lens hproof hroot hlens
    rw [← header_collect hreply] at hproof hlens
    rw [← nodeRoot_collect hreply] at hroot
    rw [nodeResult_of_ciphertext hnative hverified' hproof hroot hlens, hbody] at hresult
    cases hverify : Crypto.verifyAndDecrypt D parsed reply.content proof root lens with
    | ok bytes =>
      rw [hverify] at hresult
      cases hresult
    | error e =>
      rw [hverify] at hresult
      exact ⟨message', congrArg Except.error (Except.error.inj hresult)⟩
  · intro hinter
    by_cases hpieces : ∃ proof root lens, reply.header "x-dig-inclusion-proof" = some proof ∧
        Node.nodeRoot parsed reply = some root ∧
        Node.parseChunkLens (reply.header "x-dig-chunk-lens") = .ok lens
    · obtain ⟨proof, root, lens, hproof, hroot, hlens⟩ := hpieces
      obtain ⟨message', hverify⟩ := hinter.ciphertext hverified proof root lens hproof hroot hlens
      rw [← header_collect hreply] at hproof hlens
      rw [← nodeRoot_collect hreply] at hroot
      rw [nodeResult_of_ciphertext hnative hverified' hproof hroot hlens, hbody, hverify]
      exact ⟨message', rfl⟩
    · refine nodeResult_of_incomplete hnative hverified' ?_
      intro proof root lens hproof hroot hlens
      rw [header_collect hreply] at hproof hlens
      rw [nodeRoot_collect hreply] at hroot
      exact hpieces ⟨proof, root, lens, hproof, hroot, hlens⟩

/-- A successful reply is never answered as an exchange that failed. -/
lemma not_sameResult_transport (hD : D.VerdictSpec) (hsuccess : reply.isSuccess = true)
    (message : String) :
    ¬ SameResult (.error (.transport message))
      (nodeResult D base parsed (ReqwestTransport.collect reply)) := by
  have hnative : (ReqwestTransport.collect reply).isSuccess = true := hsuccess
  intro hsame
  cases hverified : Node.verifiedPlaintext (ReqwestTransport.collect reply) with
  | true =>
    rw [nodeResult_of_attested hnative hverified] at hsame
    cases hsame
  | false =>
    by_cases hpieces : ∃ proof root lens,
        (ReqwestTransport.collect reply).header "x-dig-inclusion-proof" = some proof ∧
        Node.nodeRoot parsed (ReqwestTransport.collect reply) = some root ∧
        Node.parseChunkLens ((ReqwestTransport.collect reply).header "x-dig-chunk-lens") = .ok lens
    · obtain ⟨proof, root, lens, hproof, hroot, hlens⟩ := hpieces
      rw [nodeResult_of_ciphertext hnative hverified hproof hroot hlens] at hsame
      cases hverify : Crypto.verifyAndDecrypt D parsed (ReqwestTransport.collect reply).body proof
          root lens with
      | ok bytes =>
        rw [hverify] at hsame
        cases hsame
      | error e =>
        rw [hverify] at hsame
        have hrejects := Crypto.rejects_of_verifyAndDecrypt hD hverify
        cases hrejects <;> cases hsame
    · have hrefused : ∃ message', nodeResult D base parsed (ReqwestTransport.collect reply) =
          .error (.verifyFailed message') :=
        nodeResult_of_incomplete hnative hverified fun proof root lens hproof hroot hlens =>
          hpieces ⟨proof, root, lens, hproof, hroot, hlens⟩
      obtain ⟨message', hresult⟩ := hrefused
      rw [hresult] at hsame
      cases hsame

/-- Where the body cannot be read through `fetch`, the transports agree if it does not matter. -/
lemma sameResult_illegible_iff (hD : D.VerdictSpec) (message : String) :
    SameResult (.error (.transport message))
      (nodeResult D base parsed (ReqwestTransport.collect reply)) ↔
      reply.status ≠ 404 ∧ reply.isSuccess = false := by
  constructor
  · intro hsame
    constructor
    · intro h404
      have hnative : (ReqwestTransport.collect reply).status = 404 := h404
      rw [nodeResult_of_notFound hnative] at hsame
      cases hsame
    · rw [Bool.eq_false_iff]
      exact fun hsuccess => not_sameResult_transport hD hsuccess message hsame
  · rintro ⟨h404, hsuccess⟩
    have hnative : (ReqwestTransport.collect reply).isSuccess = false := hsuccess
    have hnative404 : (ReqwestTransport.collect reply).status ≠ 404 := h404
    rw [nodeResult_of_not_success hnative404 hnative]
    exact rfl

/-- **The transports agree** on a reply exactly when its body can be read through `fetch` or does
not matter, and it is not successful or interchangeable. -/
theorem transports_agree_iff (hD : D.VerdictSpec) (hreply : reply.Readable) :
    SameResult (exchangeResult D base parsed (FetchTransport.request decode reply))
        (exchangeResult D base parsed (.ok (ReqwestTransport.collect reply))) ↔
      Legible decode reply ∧ (reply.isSuccess = true → Interchangeable D decode parsed reply) := by
  rw [exchangeResult_ok, FetchTransport.request]
  cases hbuffer : FetchTransport.arrayBuffer decode reply with
  | error e =>
    rw [Except.map, exchangeResult_error, sameResult_illegible_iff hD]
    constructor
    · rintro ⟨h404, hsuccess⟩
      refine ⟨fun _ _ => ⟨h404, hsuccess⟩, fun h => ?_⟩
      cases hsuccess.symm.trans h
    · rintro ⟨hlegible, -⟩
      exact hlegible e hbuffer
  | ok body =>
    have hlegible : Legible decode reply := by
      intro e he
      cases hbuffer.symm.trans he
    rw [Except.map, exchangeResult_ok, and_iff_right hlegible]
    cases hsuccess : reply.isSuccess with
    | false => exact iff_of_true (sameResult_of_not_success hsuccess) (by simp)
    | true =>
      simp only [true_imp_iff]
      cases hverified : Node.verifiedPlaintext reply with
      | true =>
        rw [sameResult_attested_iff hreply hsuccess hverified]
        constructor
        · rintro ⟨rfl, hroot⟩
          refine ⟨fun _ => hbuffer, fun _ => hroot, fun hnot => ?_⟩
          cases hverified.symm.trans hnot
        · intro hinter
          exact ⟨Except.ok.inj (hbuffer.symm.trans (hinter.body hverified)), hinter.root hverified⟩
      | false => exact sameResult_ciphertext_iff hreply hsuccess hverified

end Reads

/-! ### Two replies of a node -/

namespace Interchangeable

/-- Attested plaintext. -/
def plaintextReply : HttpResponse :=
  ⟨200, [("Content-Type", "text/plain"), ("X-Dig-Verified", "true")], [7, 7]⟩

/-- Ciphertext of the same bytes under the key of the sample URN, with a proof. -/
def ciphertextReply : HttpResponse := ⟨200, [("X-Dig-Inclusion-Proof", "qg==")], [83, 7, 7]⟩

lemma readable_plaintextReply : plaintextReply.Readable where
  distinct := by decide
  ascii := by decide

lemma readable_ciphertextReply : ciphertextReply.Readable where
  distinct := by decide
  ascii := by decide

/-- A platform that knows no content codings. -/
def identity (_codings : String) (body : Bytes) : Except TransportError Bytes := .ok body

lemma arrayBuffer_identity {reply : HttpResponse}
    (h : reply.status ∉ FetchTransport.nullBodyStatuses) :
    FetchTransport.arrayBuffer identity reply = .ok reply.content := by
  rw [FetchTransport.arrayBuffer, if_neg h]
  cases FetchTransport.headersGet reply "content-encoding" with
  | none => rfl
  | some codings => rfl

/-- Natively the ciphertext is decrypted, through `fetch` it is refused. -/
theorem transports_disagree : ciphertextReply.Readable ∧
    ¬ SameResult
      (exchangeResult (sample [] []) "http://127.0.0.1:9778" (Sample.parsed "chia")
        (FetchTransport.request identity ciphertextReply))
      (exchangeResult (sample [] []) "http://127.0.0.1:9778" (Sample.parsed "chia")
        (.ok (ReqwestTransport.collect ciphertextReply))) := by
  refine ⟨readable_ciphertextReply, ?_⟩
  have hverified : Node.verifiedPlaintext ciphertextReply = false := by decide
  have hproof : (ReqwestTransport.collect ciphertextReply).header "x-dig-inclusion-proof" =
      some "qg==" := by decide
  have hlens : Node.parseChunkLens
      ((ReqwestTransport.collect ciphertextReply).header "x-dig-chunk-lens") = .ok [] := by decide
  have hroot : Node.nodeRoot (Sample.parsed "chia") (ReqwestTransport.collect ciphertextReply) =
      some Sample.hex.text := rfl
  have hverify : Crypto.verifyAndDecrypt (sample [] []) (Sample.parsed "chia") [83, 7, 7] "qg=="
      Sample.hex.text [] = .ok [7, 7] := by decide +kernel
  obtain ⟨message, hrefused⟩ := nodeResult_response readable_ciphertextReply rfl hverified
  have hverified' := (verifiedPlaintext_collect readable_ciphertextReply).trans hverified
  have hbody : (ReqwestTransport.collect ciphertextReply).body = [83, 7, 7] := rfl
  rw [FetchTransport.request, arrayBuffer_identity (by decide), Except.map, exchangeResult_ok,
    exchangeResult_ok, hrefused, sameResult_verifyFailed_iff,
    nodeResult_of_ciphertext rfl hverified' hproof hroot hlens, hbody, hverify]
  rintro ⟨message', h⟩
  cases h

/-- On attested plaintext they agree. -/
theorem transports_agree_plaintext :
    SameResult
      (exchangeResult (sample [] []) "http://127.0.0.1:9778" (Sample.parsed "chia")
        (FetchTransport.request identity plaintextReply))
      (exchangeResult (sample [] []) "http://127.0.0.1:9778" (Sample.parsed "chia")
        (.ok (ReqwestTransport.collect plaintextReply))) := by
  have hverified : Node.verifiedPlaintext plaintextReply = true := by decide
  have hbuffer : FetchTransport.arrayBuffer identity plaintextReply = .ok plaintextReply.content :=
    arrayBuffer_identity (by decide)
  refine (transports_agree_iff (sample_verdictSpec [] []) readable_plaintextReply).2 ⟨?_, ?_⟩
  · intro e he
    cases hbuffer.symm.trans he
  · intro _
    refine ⟨fun _ => hbuffer, fun _ => rfl, ?_⟩
    intro hnot
    cases hverified.symm.trans hnot

end Interchangeable

end DigUrnResolver
