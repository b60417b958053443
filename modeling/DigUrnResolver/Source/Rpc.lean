/-
# The rpc read path (`rpc.rs`)

The blind fetch over the untrusted gateway: `dig.getContent` windows are assembled, then
verified against the root pinned in the URN and decrypted.  The loop of `rpc::fetch` is split
into `absorb`, which is everything an iteration does with a window, and `collect`, which
requests the windows one after the other.
-/
import DigUrnResolver.Source.Effects

namespace DigUrnResolver.Rpc

open Interaction

def rpcWindowBytes : UInt64 := 3 * 1024 * 1024

def maxResourceBytes : UInt64 := 64 * 1024 * 1024

def maxWindows : ℕ := (maxResourceBytes / rpcWindowBytes).toNat + 16

/-! ### One call -/

/-- `GetContent`: one window of content. -/
structure GetContent where
  totalLength : UInt64 := 0
  offset : UInt64 := 0
  nextOffset : Option UInt64 := none
  complete : Option Bool := none
  ciphertext : Option String := none
  inclusionProof : Option String := none
  chunkLens : Option (List UInt32) := none
deriving DecidableEq, Repr

/-- A field marked `#[serde(default)]`. -/
def defaulted {α : Type} (default : α) (read : Json → Option α) : Option Json → Option α
  | none => some default
  | some j => read j

/-- A field of an `Option` type, for which `null` means absent. -/
def optional {α : Type} (read : Json → Option α) : Option Json → Option (Option α) :=
  defaulted none fun j => if j.isNull then some none else (read j).map some

/-- The fields of a window, given by position and by name. -/
def GetContent.read (field : ℕ → String → Option Json) : Option GetContent := do
  let totalLength ← defaulted 0 Json.asU64 (field 0 "total_length")
  let offset ← defaulted 0 Json.asU64 (field 1 "offset")
  let nextOffset ← optional Json.asU64 (field 2 "next_offset")
  let complete ← optional Json.asBool (field 3 "complete")
  let ciphertext ← optional Json.asStr (field 4 "ciphertext")
  let inclusionProof ← optional Json.asStr (field 5 "inclusion_proof")
  let chunkLens ← optional Json.asVecU32 (field 6 "chunk_lens")
  return { totalLength, offset, nextOffset, complete, ciphertext, inclusionProof, chunkLens }

/-- The derived `Deserialize`: from an object by name, from an array by position. -/
def GetContent.fromValue : Json → Option GetContent
  | .object fields => GetContent.read fun _ name => fields.lookup name
  | .array items => if items.length ≤ 7 then GetContent.read fun i _ => items[i]? else none
  | _ => none

/-- The body of a JSON-RPC 2.0 call. -/
def callBody (method : String) (params : Json) : Json :=
  .object [("jsonrpc", .string "2.0"), ("id", .number (.posInt 1)), ("method", .string method),
    ("params", params)]

/-- What `rpc_call` makes of a reply. -/
def decodeReply (D : Deps) {R : Type} (fromValue : Json → Option R) (method : String)
    (resp : HttpResponse) : Except ResolveError R :=
  if resp.isSuccess = false then
    .error (.transport ("rpc " ++ method ++ " returned HTTP " ++ toString resp.status))
  else match D.jsonFromSlice resp.body with
  | .error e => .error (.rpc ("rpc " ++ method ++ ": malformed JSON (" ++ e ++ ")"))
  | .ok envelope =>
    match (envelope.get "error").filter fun e => e.isNull = false with
    | some err =>
      .error (.rpc ("rpc " ++ method ++ ": " ++ (((err.get "message").bind Json.asStr).getD "error")))
    | none =>
      match envelope.get "result" with
      | none => .error (.rpc ("rpc " ++ method ++ ": no result"))
      | some result =>
        match fromValue result with
        | some r => .ok r
        | none =>
          .error (.rpc ("rpc " ++ method ++ ": unexpected result shape (" ++ D.shapeError result
            ++ ")"))

/-- `rpc_call`. -/
def rpcCall (D : Deps) {R : Type} (fromValue : Json → Option R) (base method : String)
    (params : Json) : Prog (Except ResolveError R) := do
  match ← httpPostJson base (callBody method params) with
  | .error e => return .error (.transport e.message)
  | .ok resp => return decodeReply D fromValue method resp

/-! ### Assembling the windows -/

/-- `trusted_root`: only the root pinned in the URN is trusted on this tier. -/
def trustedRoot (parsed : ParsedUrn) : Except ResolveError String :=
  match parsed.rootHex with
  | some root => .ok root
  | none => .error .rootRequired

/-- The variables of the loop of `rpc::fetch`, apart from the window counter. -/
structure Assembly where
  buf : Bytes := []
  total : Option UInt64 := none
  proof : String := ""
  chunkLens : List UInt32 := []
  offset : UInt64 := 0
  -- the argument of `buf.reserve`, once it was called
  reserved : Option ℕ := none
deriving DecidableEq, Repr

/-- A return with an error out of an iteration, and the variables of the loop at that point. -/
structure Rejection where
  error : ResolveError
  st : Assembly

/-- The first window fixes the declared length and reserves the buffer. -/
def Assembly.declare (D : Deps) (st : Assembly) (r : GetContent) : Except Rejection Assembly :=
  match st.total with
  | some _ => .ok st
  | none =>
    if r.totalLength = 0 then .error ⟨.notFound, st⟩
    else if r.totalLength > maxResourceBytes then
      .error ⟨.rpc "resource exceeds maximum size", st⟩
    else .ok { st with
      total := some r.totalLength
      reserved := some (r.totalLength.toNat % 2 ^ D.usizeBits) }

/-- The first non-empty chunk list wins. -/
def Assembly.takeLens (st : Assembly) (r : GetContent) : Assembly :=
  if st.chunkLens = [] then
    match r.chunkLens with
    | some lens => { st with chunkLens := lens }
    | none => st
  else st

/-- Append the ciphertext of a window, within the declared length. -/
def Assembly.takeCiphertext (D : Deps) (st : Assembly) (r : GetContent) :
    Except Rejection Assembly :=
  match r.ciphertext with
  | none => .ok st
  | some ctB64 =>
    match D.base64Decode (Text.trim ctB64) with
    | none => .error ⟨.rpc "ciphertext is not valid base64", st⟩
    | some chunk =>
      -- the sum is one of two `u64`, and wraps where it overflows
      if UInt64.ofNat st.buf.length + UInt64.ofNat chunk.length > st.total.getD 0 then
        .error ⟨.rpc "gateway returned more bytes than declared", st⟩
      else .ok { st with buf := st.buf ++ chunk }

/-- The last non-empty proof wins. -/
def Assembly.takeProof (st : Assembly) (r : GetContent) : Assembly :=
  match r.inclusionProof with
  | some p => if p = "" then st else { st with proof := p }
  | none => st

/-- Move the cursor, or report that the content is complete. -/
def Assembly.advance (st : Assembly) (r : GetContent) : Except Rejection (Assembly × Bool) :=
  match r.complete, r.nextOffset with
  | some true, _ => .ok (st, true)
  | _, none => .ok (st, true)
  | _, some next =>
    if next ≤ st.offset then .error ⟨.rpc "content offset did not advance", st⟩
    else .ok ({ st with offset := next }, false)

/-- What an iteration does with a window; the flag says whether the loop is left. -/
def absorb (D : Deps) (st : Assembly) (r : GetContent) : Except Rejection (Assembly × Bool) := do
  let st ← st.declare D r
  let st ← (st.takeLens r).takeCiphertext D r
  (st.takeProof r).advance r

/-- The parameters of `dig.getContent`. -/
def getContentParams (D : Deps) (parsed : ParsedUrn) (root : String) (offset : UInt64) : Json :=
  .object [("store_id", .string parsed.storeIdHex), ("root", .string root),
    ("retrieval_key", .string (parsed.retrievalKeyHex D)), ("offset", .number (.posInt offset)),
    ("length", .number (.posInt rpcWindowBytes))]

/-- The loop of `rpc::fetch`, entered with `windows` windows behind it. -/
def collect (D : Deps) (base : String) (parsed : ParsedUrn) (root : String) (windows : ℕ)
    (st : Assembly) : Prog (Except ResolveError Assembly) :=
  if _h : windows + 1 > maxWindows then return .error (.rpc "too many content windows")
  else do
    match ← rpcCall D GetContent.fromValue base "dig.getContent"
        (getContentParams D parsed root st.offset) with
    | .error e => return .error e
    | .ok r =>
      match absorb D st r with
      | .error e => return .error e.error
      | .ok (st', true) => return .ok st'
      | .ok (st', false) => collect D base parsed root (windows + 1) st'
termination_by maxWindows - windows
decreasing_by omega

/-- `rpc::fetch`. -/
def fetch (D : Deps) (base : String) (parsed : ParsedUrn) : Prog (Except ResolveError Fetched) :=
  let base := Text.trimEndMatches '/' base
  match trustedRoot parsed with
  | .error e => return .error e
  | .ok root => do
    match ← collect D base parsed root 0 {} with
    | .error e => return .error e
    | .ok st =>
      match ← verifyAndDecrypt parsed st.buf st.proof root st.chunkLens with
      | .error e => return .error e
      | .ok bytes =>
        return .ok {
          data := ⟨bytes, deriveContentType parsed.resourceKey bytes⟩
          root := some root
          artifacts := some ⟨st.buf, st.proof, st.chunkLens⟩ }

end DigUrnResolver.Rpc
