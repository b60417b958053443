/-
# What JavaScript is given (`images.rs`, `wasm.rs`)

The methods of `DigNetwork` make two things of the result of a resolve.  `resolve` hands it over as
a tag with bytes and a type, or rejects with the text of the error; `resolve_image_url` always
comes to the URL of an image, that of the content or that of one of five fixed pictures.
-/
import DigUrnResolver.Source.Pages
import DigUrnResolver.Source.Wasm

namespace DigUrnResolver

open Interaction

/-! ### Results -/

/-- `Display` of `ResolveError`. -/
def ResolveError.display : ResolveError → String
  | .parse message => "invalid DIG URN: " ++ message
  | .transport message => "transport error: " ++ message
  | .rpc message => "rpc error: " ++ message
  | .notFound => "resource not found"
  | .rootRequired => "a root-pinned URN is required to resolve over the public gateway (rootless URNs are not chain-verified there)"
  | .verifyFailed message => "inclusion verification failed: " ++ message
  | .decryptFailed => "decryption failed (wrong key/salt or corrupt ciphertext)"

/-- `ResolveOutcome::kind`. -/
def ResolveOutcome.kind : ResolveOutcome → String
  | .success _ => "success"
  | .integrityFailure => "integrity_failure"
  | .unreachable => "unreachable"

/-- `ResolveResult`. -/
structure ResolveResult where
  outcome : String
  bytes : Bytes
  contentType : String
deriving DecidableEq, Repr

namespace Pages

def defaultConnectUrl : String := "https://dig.net"

end Pages

namespace Wasm

/-- `connect_or_default`. -/
def connectOrDefault (connectUrl : Option String) : String :=
  (opt connectUrl).getD Pages.defaultConnectUrl

/-- `outcome_to_result`. -/
def outcomeToResult (outcome : ResolveOutcome) (connectUrl : String) : ResolveResult :=
  let rendered := outcome.render connectUrl
  ⟨outcome.kind, rendered.bytes, rendered.contentType⟩

end Wasm

/-! ### Images -/

/-- `ErrorImage`. -/
inductive ErrorImage where
  | integrity | unreachable | notFound | invalidUrn | generic
deriving DecidableEq, Repr

/-- What the image path takes from outside: the standard encoding of `base64`, the embedded PNG
files, and what the runtime makes of a blob with these bytes and this type. -/
structure Surface where
  base64Encode : Bytes → String
  png : ErrorImage → Bytes
  objectUrl : Bytes → String → Except TransportError String

namespace Images

/-- `for_outcome`. -/
def forOutcome : ResolveOutcome → ErrorImage
  | .success _ => .generic
  | .integrityFailure => .integrity
  | .unreachable => .unreachable

/-- `for_error`. -/
def forError : ResolveError → ErrorImage
  | .parse _ | .rootRequired => .invalidUrn
  | .notFound => .notFound
  | .transport _ => .unreachable
  | .verifyFailed _ | .decryptFailed => .integrity
  | .rpc _ => .generic

/-- `data_uri`. -/
def dataUri (S : Surface) (kind : ErrorImage) : String :=
  "data:image/png;base64," ++ S.base64Encode (S.png kind)

end Images

namespace Wasm

/-- `data_url`. -/
def dataUrl (S : Surface) (bytes : Bytes) (contentType : String) : String :=
  "data:" ++ contentType ++ ";base64," ++ S.base64Encode bytes

/-- `img_url`: a blob URL, or a data URL where there are no blobs. -/
def imgUrl (S : Surface) (bytes : Bytes) (contentType : String) : String :=
  match S.objectUrl bytes contentType with
  | .ok url => url
  | .error _ => dataUrl S bytes contentType

end Wasm

/-! ### The client -/

/-- `ParsedOptions`. -/
structure ClientOptions extends ParsedOptions where
  connectUrl : Option String := none

/-- `DigNetwork`, with the field that its pages need. -/
structure Client extends DigNetwork where
  connectUrl : Option String

deriving instance DecidableEq for DigNetwork, Client, JsCall

/-- What a method of the client comes to: `resolve` is fulfilled or rejected, `resolve_image_url` is
never rejected. -/
inductive JsAnswer where
  | result (result : Except String ResolveResult)
  | imageUrl (url : String)

namespace Client

/-- `from_parts`. -/
def fromParts (endpoint connectUrl cachePath : Option String) : Client :=
  ⟨DigNetwork.fromParts endpoint cachePath, Wasm.opt connectUrl⟩

/-- `new DigNetwork(options?)`. -/
def new (parsed : Option ClientOptions) : Client :=
  fromParts (parsed.getD {}).endpoint (parsed.getD {}).connectUrl (parsed.getD {}).cachePath

/-- `DigNetwork::resolve`. -/
def resolve (D : Deps) (dig : Client) (urn : String) : Prog (Except String ResolveResult) := do
  match ← Wasm.doResolve D urn dig.endpoint dig.cachePath with
  | .error e => return .error e.display
  | .ok outcome => return .ok (Wasm.outcomeToResult outcome (Wasm.connectOrDefault dig.connectUrl))

/-- `DigNetwork::resolve_image_url`. -/
def resolveImageUrl (D : Deps) (S : Surface) (dig : Client) (urn : String) : Prog String := do
  match ← Wasm.doResolve D urn dig.endpoint dig.cachePath with
  | .ok (.success data) => return Wasm.imgUrl S data.bytes data.contentType
  | .ok other => return Images.dataUri S (Images.forOutcome other)
  | .error e => return Images.dataUri S (Images.forError e)

/-- A method of the client. -/
def method (D : Deps) (S : Surface) (dig : Client) : JsCall → Prog JsAnswer
  | .resolve urn => do return .result (← dig.resolve D urn)
  | .resolveImageUrl urn => do return .imageUrl (← dig.resolveImageUrl D S urn)

end Client

namespace Wasm

/-- The free function `resolve`. -/
def resolve (D : Deps) (urn : String) (endpoint connectUrl : Option String) :
    Prog (Except String ResolveResult) :=
  (Client.fromParts endpoint connectUrl none).resolve D urn

/-- The free function `resolve_object_url`. -/
def resolveObjectUrl (D : Deps) (S : Surface) (urn : String) (endpoint connectUrl : Option String) :
    Prog String :=
  (Client.fromParts endpoint connectUrl none).resolveImageUrl D S urn

end Wasm

/-! ### A page -/

/-- A call of a client on a page, by its number. -/
structure PageCall where
  number : ℕ
  client : Client
  call : JsCall
deriving DecidableEq

/-- A page: any number of clients, whose calls may overlap.  Each call has a resolver of its own;
the directory, where there is one, belongs to all, and outsiders may change it. -/
def page (D : Deps) (S : Surface) : Machine (World PageCall) PageCall Op Ans JsAnswer where
  trans t := World.trans D ⟨t, t.call.urn⟩
  body t := t.client.method D S t.call
  interfere := Tampering

end DigUrnResolver
