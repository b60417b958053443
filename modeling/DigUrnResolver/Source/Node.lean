/-
# The node read path (`node.rs`)

`GET {base}/s/<storeId>[:<root>]/<resourceKey>` on a loopback node, which answers with
attested plaintext or with ciphertext.  The two shapes are told apart by headers.
-/
import DigUrnResolver.Source.Effects

namespace DigUrnResolver.Node

open Interaction

/-- The serve URL of a URN: root-pinned when the URN carries a root. -/
def serveUrl (base : String) (parsed : ParsedUrn) : String :=
  let store := match parsed.rootHex with
    | some root => parsed.storeIdHex ++ ":" ++ root
    | none => parsed.storeIdHex
  base ++ "/s/" ++ store ++ "/" ++ parsed.resourceKey

/-- A serve URL is longer than the hex digits in it. -/
lemma serveUrl_ne_of_length_lt {url base : String} {v : ParsedUrn}
    (h : url.toList.length < 64) : serveUrl base v ≠ url := by
  rintro rfl
  have hstore : v.storeIdHex.toList.length = 64 := v.isHex64_storeIdHex.1
  rw [serveUrl] at h
  cases hroot : v.rootHex with
  | none =>
    simp only [hroot, String.toList_append, List.length_append, hstore] at h
    omega
  | some root =>
    simp only [hroot, String.toList_append, List.length_append, hstore] at h
    omega

/-- The concrete root of a reply: the pinned root of the URN, else the `X-Dig-Root` header. -/
def nodeRoot (parsed : ParsedUrn) (resp : HttpResponse) : Option String :=
  parsed.rootHex.or (((resp.header "x-dig-root").map Text.trim).filter fun r => r ≠ "")

lemma nodeRoot_of_pinned {parsed : ParsedUrn} {root : String} (hroot : parsed.rootHex = some root)
    (resp : HttpResponse) : nodeRoot parsed resp = some root := by
  rw [nodeRoot, hroot, Option.some_or]

/-- Whether a header carries the value `true`, up to case and surrounding blanks. -/
def flag (resp : HttpResponse) (name : String) : Bool :=
  ((resp.header name).map fun v => Text.eqIgnoreAsciiCase (Text.trim v) "true").getD false

/-- The node attests that it verified the plaintext it serves. -/
def verifiedPlaintext (resp : HttpResponse) : Bool := flag resp "x-dig-verified"

/-- The reply is marked as ciphertext. -/
def isCiphertext (resp : HttpResponse) : Bool :=
  flag resp "x-dig-encrypted" || (resp.header "x-dig-inclusion-proof").isSome

/-- The bare `Content-Type` of a reply, if it is not empty. -/
def headerContentType (resp : HttpResponse) : Option String :=
  ((resp.header "content-type").map fun c => Text.trim (Text.splitFirst ';' c)).filter fun c =>
    c ≠ ""

/-- The per-chunk ciphertext lengths of the `X-Dig-Chunk-Lens` header. -/
def parseChunkLens (header : Option String) : Except ResolveError (List UInt32) :=
  match (header.map Text.trim).filter fun s => s ≠ "" with
  | none => .ok []
  | some raw =>
    match (Text.split ',' raw).mapM fun n => Text.parseU32 (Text.trim n) with
    | some lens => .ok lens
    | none => .error (.verifyFailed "invalid X-Dig-Chunk-Lens header")

/-- The ciphertext shape: verify and decrypt as on the rpc path. -/
def acceptCiphertext (parsed : ParsedUrn) (resp : HttpResponse) :
    Prog (Except ResolveError Fetched) :=
  match resp.header "x-dig-inclusion-proof" with
  | none =>
    return .error (.verifyFailed "ciphertext node response missing X-Dig-Inclusion-Proof")
  | some proofB64 =>
    match nodeRoot parsed resp with
    | none => return .error (.verifyFailed "ciphertext node response missing a root")
    | some root =>
      match parseChunkLens (resp.header "x-dig-chunk-lens") with
      | .error e => return .error e
      | .ok chunkLens => do
        match ← verifyAndDecrypt parsed resp.body proofB64 root chunkLens with
        | .error e => return .error e
        | .ok bytes =>
          return .ok {
            data := ⟨bytes, deriveContentType parsed.resourceKey bytes⟩
            root := some root
            artifacts := some ⟨resp.body, proofB64, chunkLens⟩ }

/-- What `fetch` makes of a reply. -/
def accept (parsed : ParsedUrn) (resp : HttpResponse) : Prog (Except ResolveError Fetched) :=
  if resp.status = 404 then
    return .error .notFound
  else if resp.isSuccess = false then
    return .error (.transport ("node returned HTTP " ++ toString resp.status))
  else if verifiedPlaintext resp then
    -- loopback-trusted: no client-side verification
    return .ok {
      data := ⟨resp.body, (headerContentType resp).getD
        (deriveContentType parsed.resourceKey resp.body)⟩
      root := nodeRoot parsed resp
      artifacts := none }
  else if isCiphertext resp then
    acceptCiphertext parsed resp
  else
    return .error (.verifyFailed
      "node response was neither X-Dig-Verified plaintext nor decryptable ciphertext")

/-- The content that an attested reply to a request for `v` amounts to. -/
def attestedData (v : ParsedUrn) (resp : HttpResponse) : ResolvedData :=
  ⟨resp.body, (headerContentType resp).getD (deriveContentType v.resourceKey resp.body)⟩

/-- Attested plaintext is accepted as it is. -/
lemma accept_of_attested {parsed : ParsedUrn} {resp : HttpResponse} (hsuccess : resp.isSuccess = true)
    (hverified : verifiedPlaintext resp = true) :
    accept parsed resp = .ret (.ok ⟨attestedData parsed resp, nodeRoot parsed resp, none⟩) := by
  rw [accept, if_neg (HttpResponse.status_ne_of_isSuccess hsuccess), if_neg (by simp [hsuccess]),
    if_pos hverified]
  rfl

/-- `node::fetch`. -/
def fetch (base : String) (parsed : ParsedUrn) : Prog (Except ResolveError Fetched) := do
  match ← httpGet (serveUrl base parsed) with
  | .error e => return .error (.transport e.message)
  | .ok resp => accept parsed resp

end DigUrnResolver.Node
