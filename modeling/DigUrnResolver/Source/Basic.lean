/-
# The vocabulary of the resolver

The types that every part of the crate speaks of: the errors of `error.rs`, the HTTP
response of `transport.rs`, the parsed URN of `urn.rs`, the resolved data and the options of
`resolver.rs`, and the content type derivation of `content_type.rs`.
-/
import DigUrnResolver.Text

namespace Except

variable {ε α β : Type} {x : Except ε α} {f : α → Except ε β}

/-- A bind succeeds when both of its parts do. -/
lemma bind_eq_ok_iff {b : β} : x >>= f = .ok b ↔ ∃ a, x = .ok a ∧ f a = .ok b := by
  constructor
  · intro h
    cases x with
    | error e => cases h
    | ok a => exact ⟨a, rfl, h⟩
  · rintro ⟨a, rfl, h⟩
    exact h

/-- A bind fails with its first part, or behind it. -/
lemma bind_eq_error_iff {e : ε} :
    x >>= f = .error e ↔ x = .error e ∨ ∃ a, x = .ok a ∧ f a = .error e := by
  constructor
  · intro h
    cases x with
    | error e' => exact .inl (congrArg Except.error (Except.error.inj h))
    | ok a => exact .inr ⟨a, rfl, h⟩
  · rintro (rfl | ⟨a, rfl, h⟩)
    · rfl
    · exact h

end Except

namespace DigUrnResolver

/-- Byte strings. -/
abbrev Bytes : Type := List UInt8

/-! ### Errors -/

/-- `ResolveError`: a hard, fail-closed failure. -/
inductive ResolveError where
  | parse (message : String)
  | transport (message : String)
  | rpc (message : String)
  | notFound
  | rootRequired
  | verifyFailed (message : String)
  | decryptFailed
deriving DecidableEq, Repr

/-- The kinds of `ResolveError`, without their messages. -/
inductive ErrorKind where
  | parse | transport | rpc | notFound | rootRequired | verifyFailed | decryptFailed
deriving DecidableEq, Repr

/-- The kind of an error. -/
def ResolveError.kind : ResolveError → ErrorKind
  | .parse _ => .parse
  | .transport _ => .transport
  | .rpc _ => .rpc
  | .notFound => .notFound
  | .rootRequired => .rootRequired
  | .verifyFailed _ => .verifyFailed
  | .decryptFailed => .decryptFailed

/-- `TransportError`: a failure below HTTP. -/
structure TransportError where
  message : String
deriving DecidableEq, Repr

/-! ### HTTP -/

/-- `HttpResponse`: what the resolver sees of an HTTP reply. -/
structure HttpResponse where
  status : UInt16
  headers : List (String × String)
  body : Bytes
deriving DecidableEq, Repr

namespace HttpResponse

/-- A `2xx` status. -/
def isSuccess (resp : HttpResponse) : Bool := 200 ≤ resp.status && resp.status < 300

lemma status_ne_of_isSuccess {resp : HttpResponse} (h : resp.isSuccess = true) :
    resp.status ≠ 404 := by
  intro h404
  rw [isSuccess, h404] at h
  revert h
  decide

/-- The value of the first header with this name, up to ASCII case. -/
def header (resp : HttpResponse) (name : String) : Option String :=
  (resp.headers.find? fun h => Text.eqIgnoreAsciiCase h.1 (Text.toAsciiLowercase name)).map
    Prod.snd

end HttpResponse

/-! ### URNs -/

/-- 64 lowercase hex digits. -/
def IsHex64 (s : String) : Prop := s.toList.length = 64 ∧ ∀ c ∈ s.toList, Text.isLowerHex c = true

instance (s : String) : Decidable (IsHex64 s) := inferInstanceAs (Decidable (_ ∧ _))

/-- A text of 64 lowercase hex digits, such as `store_id_hex` and `root_hex` return. -/
structure Hex64 where
  text : String
  hex : IsHex64 text
deriving DecidableEq

@[ext] lemma Hex64.ext {a b : Hex64} (h : a.text = b.text) : a = b := by
  cases a
  cases b
  simpa using h

/-- A secret salt as the edge parser extracts it: a non-empty run of hex digits. -/
structure Salt where
  text : String
  nonempty : text ≠ ""
  hex : ∀ c ∈ text.toList, Text.isHexDigit c = true
deriving DecidableEq

/-- `dig_urn_protocol::DigUrn`, as the crate reads it. -/
structure DigUrn where
  -- the label after `urn:dig:`, such as `chia`, `mainnet` or `testnet`
  chain : String
  storeIdHex : Hex64
  rootHex : Option Hex64
  -- the resource path, with the default view in place of an absent or empty one
  effectiveResourceKey : String
deriving DecidableEq

/-- `ParsedUrn`: the URN and the salt that was peeled off it. -/
structure ParsedUrn where
  urn : DigUrn
  salt : Option Salt
deriving DecidableEq

namespace ParsedUrn

def storeIdHex (parsed : ParsedUrn) : String := parsed.urn.storeIdHex.text

def rootHex (parsed : ParsedUrn) : Option String := parsed.urn.rootHex.map Hex64.text

def resourceKey (parsed : ParsedUrn) : String := parsed.urn.effectiveResourceKey

def saltText (parsed : ParsedUrn) : Option String := parsed.salt.map Salt.text

lemma isHex64_storeIdHex (parsed : ParsedUrn) : IsHex64 parsed.storeIdHex :=
  parsed.urn.storeIdHex.hex

lemma urn_storeIdHex_eq {u v : ParsedUrn} (h : u.storeIdHex = v.storeIdHex) :
    u.urn.storeIdHex = v.urn.storeIdHex := Hex64.ext h

lemma isHex64_rootHex {parsed : ParsedUrn} {root : String} (h : parsed.rootHex = some root) :
    IsHex64 root := by
  obtain ⟨r, -, rfl⟩ := Option.map_eq_some_iff.1 h
  exact r.hex

end ParsedUrn

/-- A hex root contains no separator of the cache identity. -/
lemma IsHex64.colon_notMem {s : String} (h : IsHex64 s) : ':' ∉ s.toList :=
  fun hc => Text.ne_colon_of_isLowerHex (h.2 _ hc) rfl

/-! ### Resolved data and options -/

/-- `ResolvedData`: the bytes of a resource and their MIME type. -/
structure ResolvedData where
  bytes : Bytes
  contentType : String
deriving DecidableEq, Repr

/-- `ResolveOutcome`: the typed result of a resolve. -/
inductive ResolveOutcome where
  | success (data : ResolvedData)
  | integrityFailure
  | unreachable
deriving DecidableEq, Repr

/-- `ResolveOptions`, as far as `resolve` reads them. -/
structure ResolveOptions where
  endpoint : Option String := none
  cachePath : Option String := none
deriving DecidableEq, Repr

/-! ### Content types -/

def defaultContentType : String := "application/octet-stream"

/-- Map the extension of a resource path to a MIME type. -/
def fromExtension (resourceKey : String) : Option String :=
  match Text.toAsciiLowercase (Text.rsplitFirst '.' resourceKey) with
  | "html" | "htm" => some "text/html"
  | "css" => some "text/css"
  | "js" | "mjs" => some "text/javascript"
  | "json" => some "application/json"
  | "txt" => some "text/plain"
  | "xml" => some "application/xml"
  | "svg" => some "image/svg+xml"
  | "png" => some "image/png"
  | "jpg" | "jpeg" => some "image/jpeg"
  | "gif" => some "image/gif"
  | "webp" => some "image/webp"
  | "avif" => some "image/avif"
  | "ico" => some "image/x-icon"
  | "bmp" => some "image/bmp"
  | "pdf" => some "application/pdf"
  | "wasm" => some "application/wasm"
  | "mp4" => some "video/mp4"
  | "webm" => some "video/webm"
  | "mp3" => some "audio/mpeg"
  | "ogg" => some "audio/ogg"
  | "wav" => some "audio/wav"
  | "woff2" => some "font/woff2"
  | "woff" => some "font/woff"
  | "ttf" => some "font/ttf"
  | _ => none

/-- Sniff a MIME type from the leading magic bytes. -/
def fromMagicBytes : Bytes → Option String
  | 0x89 :: 0x50 :: 0x4E :: 0x47 :: 0x0D :: 0x0A :: 0x1A :: 0x0A :: _ => some "image/png"
  | 0xFF :: 0xD8 :: 0xFF :: _ => some "image/jpeg"
  | 0x47 :: 0x49 :: 0x46 :: 0x38 :: _ => some "image/gif"
  | 0x52 :: 0x49 :: 0x46 :: 0x46 :: _ :: _ :: _ :: _ :: 0x57 :: 0x45 :: 0x42 :: 0x50 :: _ =>
    some "image/webp"
  | 0x25 :: 0x50 :: 0x44 :: 0x46 :: _ => some "application/pdf"
  | 0x00 :: 0x61 :: 0x73 :: 0x6D :: _ => some "application/wasm"
  | _ => none

/-- The content type of a resource: by its extension, else by its magic bytes. -/
def deriveContentType (resourceKey : String) (bytes : Bytes) : String :=
  ((fromExtension resourceKey).or (fromMagicBytes bytes)).getD defaultContentType

end DigUrnResolver
