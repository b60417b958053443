/-
# Ciphertext from a node and from the gateway

A node puts a whole resource into one reply and describes it in headers; the gateway sends it in
windows.  Both reads hand the same ciphertext, proof and chunk lengths to the read-crypto, under
the root that the URN pins, and so have the same result.
-/
import DigUrnResolver.Gateway.Reassembly
import DigUrnResolver.Ladder.Walk
import DigUrnResolver.Transport.ChunkHeader
import DigUrnResolver.Transport.Interchange

namespace DigUrnResolver

open Interaction

variable {D : Deps} {R : Rpc.Resource}

/-- A network in which the gateway answers. -/
def gatewayNet (g : Rpc.Gateway D R) : World.Net where
  get _ := .error ⟨"connection refused"⟩
  post _ body := g.answer ((Rpc.requestedOffset body).getD 0)
  loopback _ := false

/-- The result of `rpc::fetch` against a gateway, with the crypto of the crate. -/
def gatewayResult (g : Rpc.Gateway D R) (base : String) (parsed : ParsedUrn) :
    Except ResolveError Fetched :=
  ((Rpc.fetch D base parsed).run (World.handle D (gatewayNet g) ()) (World.new fun _ => none)).1

/-- A successful reply of a node that carries the resource as ciphertext.  There may be any
`X-Dig-Root`, and an empty list of lengths may be left out. -/
structure CiphertextReply (R : Rpc.Resource) (resp : HttpResponse) : Prop where
  success : resp.isSuccess = true
  body : resp.body = R.ciphertext
  encrypted : Node.flag resp "x-dig-encrypted" = true
  unattested : resp.header "x-dig-verified" = none
  proof : resp.header "x-dig-inclusion-proof" = some R.proof
  chunkLens : resp.header "x-dig-chunk-lens" = some (Node.joinedLens R.chunkLens) ∨
    R.chunkLens = [] ∧ resp.header "x-dig-chunk-lens" = none

/-- The replies differ in nothing but the `X-Dig-Root`. -/
structure SameButRoot (resp resp' : HttpResponse) : Prop where
  status : resp.status = resp'.status
  body : resp.body = resp'.body
  header : ∀ name, Text.toAsciiLowercase name ≠ "x-dig-root" →
    resp.header name = resp'.header name

section Agreement

variable {parsed : ParsedUrn} {root : String}

/-- What is handed to the read-crypto on the gateway path. -/
lemma gatewayResult_eq (hroot : parsed.rootHex = some root) (hR : R.Legal) {g : Rpc.Gateway D R}
    {n : ℕ} (hg : g.Completes n) (hn : n ≤ Rpc.maxWindows) (base : String) :
    gatewayResult g base parsed =
      (Crypto.verifyAndDecrypt D parsed R.ciphertext R.proof root R.chunkLens).map
        (R.delivered parsed root) := by
  have htrace := Program.trace_run (h := World.handle D (gatewayNet g) ())
    (Rpc.fetch D base parsed) (World.new fun _ => none)
  have hanswer : ∀ e ∈ (Rpc.fetch D base parsed).script (World.handle D (gatewayNet g) ())
      (World.new fun _ => none), ∃ w, e.ans = (World.handle D (gatewayNet g) () e.op w).1 :=
    fun e he => Program.exists_of_mem_script he
  obtain ⟨verdict, hscript, hresult⟩ := (Rpc.trace_fetch htrace).honest hroot hR hg hn (by
    intro offset answer he
    obtain ⟨w, hw⟩ := hanswer _ he
    exact hw)
  -- the verification at the end was answered by the crypto of the crate
  have hverdict : verdict =
      Crypto.verifyAndDecrypt D parsed R.ciphertext R.proof root R.chunkLens := by
    have hmem : (⟨R.verification parsed root, verdict⟩ : Event Op Ans) ∈
        (Rpc.fetch D base parsed).script (World.handle D (gatewayNet g) ())
          (World.new fun _ => none) := by
      rw [hscript]
      exact List.mem_append_right _ (List.mem_singleton_self _)
    obtain ⟨w, hw⟩ := hanswer _ hmem
    exact hw
  rw [gatewayResult, hresult, hverdict]

lemma CiphertextReply.parseChunkLens {resp : HttpResponse} (h : CiphertextReply R resp) :
    Node.parseChunkLens (resp.header "x-dig-chunk-lens") = .ok R.chunkLens := by
  rcases h.chunkLens with hlens | ⟨hnil, hnone⟩
  · rw [hlens, Node.parseChunkLens_joinedLens]
  · rw [hnone, hnil]
    rfl

/-- What is handed to the read-crypto on the node path. -/
lemma CiphertextReply.nodeResult_eq (hroot : parsed.rootHex = some root) {resp : HttpResponse}
    (h : CiphertextReply R resp) (base : String) :
    nodeResult D base parsed resp =
      (Crypto.verifyAndDecrypt D parsed R.ciphertext R.proof root R.chunkLens).map
        (R.delivered parsed root) := by
  have hverified : Node.verifiedPlaintext resp = false := by
    rw [Node.verifiedPlaintext, Node.flag, h.unattested]
    rfl
  rw [nodeResult_of_ciphertext h.success hverified h.proof (Node.nodeRoot_of_pinned hroot resp)
    h.parseChunkLens, h.body]
  rfl

/-- A reply to a pinned URN is accepted alike whatever root it names. -/
lemma SameButRoot.accept_eq (hroot : parsed.rootHex = some root) {resp resp' : HttpResponse}
    (h : SameButRoot resp resp') : Node.accept parsed resp = Node.accept parsed resp' := by
  have hsuccess : resp.isSuccess = resp'.isSuccess := by
    rw [HttpResponse.isSuccess, HttpResponse.isSuccess, h.status]
  have hverified : Node.verifiedPlaintext resp = Node.verifiedPlaintext resp' := by
    rw [Node.verifiedPlaintext, Node.verifiedPlaintext, Node.flag, Node.flag,
      h.header "x-dig-verified" (by decide)]
  have htype : Node.headerContentType resp = Node.headerContentType resp' := by
    rw [Node.headerContentType, Node.headerContentType, h.header "content-type" (by decide)]
  have hcipher : Node.isCiphertext resp = Node.isCiphertext resp' := by
    rw [Node.isCiphertext, Node.isCiphertext, Node.flag, Node.flag,
      h.header "x-dig-encrypted" (by decide), h.header "x-dig-inclusion-proof" (by decide)]
  have haccept : Node.acceptCiphertext parsed resp = Node.acceptCiphertext parsed resp' := by
    simp only [Node.acceptCiphertext, Node.nodeRoot_of_pinned hroot, h.body,
      h.header "x-dig-inclusion-proof" (by decide), h.header "x-dig-chunk-lens" (by decide)]
  simp only [Node.accept, h.status, h.body, hsuccess, hverified, htype, hcipher, haccept,
    Node.nodeRoot_of_pinned hroot]

/-- **The two ciphertext paths agree**: a node that serves a resource as ciphertext and an honest
gateway within the window cap lead to the same result.  For a pinned URN, no reply is read
differently because of its `X-Dig-Root`. -/
theorem ciphertext_paths_agree (hroot : parsed.rootHex = some root) (hR : R.Legal) :
    (∀ (g : Rpc.Gateway D R) (n : ℕ) (resp : HttpResponse) (nodeBase rpcBase : String),
      g.Completes n → n ≤ Rpc.maxWindows → CiphertextReply R resp →
        nodeResult D nodeBase parsed resp = gatewayResult g rpcBase parsed) ∧
    ∀ resp resp' base, SameButRoot resp resp' →
      nodeResult D base parsed resp = nodeResult D base parsed resp' := by
  refine ⟨?_, ?_⟩
  · intro g n resp nodeBase rpcBase hg hn hresp
    rw [hresp.nodeResult_eq hroot, gatewayResult_eq hroot hR hg hn]
  · intro resp resp' base h
    show ((Node.accept parsed resp).run _ _).1 = ((Node.accept parsed resp').run _ _).1
    rw [h.accept_eq hroot]
    -- the replies of the network play no role any more
    refine congrArg Prod.fst (Program.run_congr_of_only (Resolver.quiet_accept resp') ?_ _)
    intro op hquiet w
    cases op with
    | get | postJson => exact absurd trivial hquiet
    | _ => rfl

end Agreement

/-! ### Two chunks in two windows -/

namespace CiphertextReply

/-- Two chunks that open to nothing and to one byte under the key of the sample URN. -/
def chunked : Rpc.Resource := ⟨[83, 83, 7], "qg==", [1, 2]⟩

/-- The fields of the answer at an offset: a window ends in the middle of a chunk, the chunk lengths
come first and the proof comes last. -/
def chunkedFields : ℕ → List (String × Json)
  | 0 => [("total_length", Rpc.count 3), ("next_offset", Rpc.count 2), ("complete", .bool false),
      ("ciphertext", .string "U1M="), ("chunk_lens", .array [Rpc.count 1, Rpc.count 2])]
  | 1 => [("total_length", Rpc.count 3), ("next_offset", Rpc.count 2), ("complete", .bool false),
      ("ciphertext", .string "Uw==")]
  | _ => [("total_length", Rpc.count 3), ("complete", .bool true), ("ciphertext", .string "Bw=="),
      ("inclusion_proof", .string "qg==")]

/-- The executable instance, whose JSON texts are the answers at the offsets. -/
def chunkedDeps : Deps :=
  sample ([0, 1, 2].map fun o : ℕ =>
    ([UInt8.ofNat o], .object [("result", .object (chunkedFields o))])) []

lemma chunkedFields_zero : Rpc.HonestFields chunkedDeps chunked 0 2 (chunkedFields 0) where
  total := rfl
  offset := Or.inl rfl
  bytes := ⟨_, rfl, by decide +kernel⟩
  more _ := ⟨rfl, rfl⟩
  last h := absurd h (by decide)
  proof := Or.inl rfl
  chunkLens := Or.inr (Or.inr (Or.inr rfl))

lemma chunkedFields_one : Rpc.HonestFields chunkedDeps chunked 1 2 (chunkedFields 1) where
  total := rfl
  offset := Or.inl rfl
  bytes := ⟨_, rfl, by decide +kernel⟩
  more _ := ⟨rfl, rfl⟩
  last h := absurd h (by decide)
  proof := Or.inl rfl
  chunkLens := Or.inl rfl

lemma chunkedFields_two : Rpc.HonestFields chunkedDeps chunked 2 3 (chunkedFields 2) where
  total := rfl
  offset := Or.inl rfl
  bytes := ⟨_, rfl, by decide +kernel⟩
  more h := absurd h (by decide)
  last _ := ⟨rfl, Or.inl rfl⟩
  proof := Or.inr (Or.inr (Or.inr rfl))
  chunkLens := Or.inl rfl

/-- The windows are cut after two bytes. -/
def chunkedCut (o : ℕ) : ℕ := if o < 2 then 2 else 3

lemma honest_chunked (o : ℕ) (ho : o < chunked.ciphertext.length) :
    Rpc.Honest chunkedDeps chunked o (chunkedCut o)
      (.ok ⟨200, [], [(UInt64.ofNat o).toUInt8]⟩) := by
  have ho' : o < 3 := ho
  have hcases : o = 0 ∨ o = 1 ∨ o = 2 := by omega
  rcases hcases with rfl | rfl | rfl
  · exact ⟨by decide, by decide, by decide,
      _, _, _, rfl, rfl, rfl, Or.inl rfl, rfl, chunkedFields_zero⟩
  · exact ⟨by decide, by decide, by decide,
      _, _, _, rfl, rfl, rfl, Or.inl rfl, rfl, chunkedFields_one⟩
  · exact ⟨by decide, by decide, by decide,
      _, _, _, rfl, rfl, rfl, Or.inl rfl, rfl, chunkedFields_two⟩

def chunkedGateway : Rpc.Gateway chunkedDeps chunked where
  cut := chunkedCut
  answer offset := .ok ⟨200, [], [offset.toUInt8]⟩
  honest := honest_chunked

lemma completes_chunkedGateway : chunkedGateway.Completes 2 where
  before := by decide
  done := rfl
  proof := ⟨1, by decide, _, rfl, rfl⟩
  chunkLens := Or.inr ⟨0, by decide, _, rfl, rfl⟩

/-- The reply of a node, which names another root. -/
def chunkedReply : HttpResponse where
  status := 200
  headers := [("x-dig-encrypted", "true"), ("x-dig-inclusion-proof", "qg=="),
    ("x-dig-chunk-lens", "1,2"), ("x-dig-root", "bb")]
  body := [83, 83, 7]

lemma ciphertextReply_chunked : CiphertextReply chunked chunkedReply where
  success := rfl
  body := rfl
  encrypted := by decide
  unattested := by decide
  proof := by decide
  chunkLens := Or.inl (by decide)

/-- Both read the byte that the chunks hold. -/
theorem ciphertext_paths_agree_two_chunks :
    nodeResult chunkedDeps "http://127.0.0.1:9778" (Sample.parsed "chia") chunkedReply =
        gatewayResult chunkedGateway "https://rpc.example" (Sample.parsed "chia") ∧
      nodeResult chunkedDeps "http://127.0.0.1:9778" (Sample.parsed "chia") chunkedReply =
        .ok (chunked.delivered (Sample.parsed "chia") Sample.hex.text [7]) := by
  have hopens : Crypto.verifyAndDecrypt chunkedDeps (Sample.parsed "chia") chunked.ciphertext
      chunked.proof Sample.hex.text chunked.chunkLens = .ok [7] := by decide +kernel
  refine ⟨(ciphertext_paths_agree rfl ⟨by decide, by decide, by decide⟩).1 chunkedGateway 2
    chunkedReply _ _ completes_chunkedGateway (by decide) ciphertextReply_chunked, ?_⟩
  rw [ciphertextReply_chunked.nodeResult_eq rfl, hopens]
  rfl

end CiphertextReply

end DigUrnResolver
