/-
# The bundled transports (`native.rs`, `wasm.rs`)

What the two transports make of a reply.  The reply on the wire has the shape of an
`HttpResponse`, with header names in any case; both transports hand their own `HttpResponse`
to the resolver.  The native one is built without content codings and hands on the content as it
was sent; `fetch` undoes them.
-/
import DigUrnResolver.Source.Basic

namespace DigUrnResolver

/-- The characters of a header value that `HeaderValue::to_str` reads. -/
def isVisibleAscii (c : Char) : Bool := c == '\t' || (32 ≤ c.toNat && c.toNat < 127)

/-- The content of a reply: with some statuses a message has none, whatever comes after it. -/
def HttpResponse.content (reply : HttpResponse) : Bytes :=
  if reply.status < 200 ∨ reply.status = 204 ∨ reply.status = 304 then [] else reply.body

namespace ReqwestTransport

/-- `HeaderValue::to_str`. -/
def toStr (value : String) : Option String :=
  if value.toList.all isVisibleAscii then some value else none

/-- `collect`: every header, its name in lower case. -/
def collect (reply : HttpResponse) : HttpResponse where
  status := reply.status
  headers := reply.headers.map fun h => (Text.toAsciiLowercase h.1, (toStr h.2).getD "")
  body := reply.content

end ReqwestTransport

namespace FetchTransport

/-- `Headers.get`: the values of all headers of this name, joined. -/
def headersGet (reply : HttpResponse) (name : String) : Option String :=
  match reply.headers.filter fun h => Text.eqIgnoreAsciiCase h.1 name with
  | [] => none
  | hs => some (", ".intercalate (hs.map Prod.snd))

/-- A header that is copied, if it is there. -/
def copied (reply : HttpResponse) (name : String) : List (String × String) :=
  ((headersGet reply name).map fun value => (name, value)).toList

/-- The statuses of replies without a body. -/
def nullBodyStatuses : List UInt16 := [101, 103, 204, 205, 304]

/-- `Response.arrayBuffer`: the content, after the content codings that the reply names were undone.
What the platform makes of codings is `decode`, which may fail. -/
def arrayBuffer (decode : String → Bytes → Except TransportError Bytes) (reply : HttpResponse) :
    Except TransportError Bytes :=
  if reply.status ∈ nullBodyStatuses then .ok []
  else match headersGet reply "content-encoding" with
    | none => .ok reply.content
    | some codings => decode codings reply.content

/-- What is made of the `Response` and its body: two headers are copied. -/
def response (reply : HttpResponse) (body : Bytes) : HttpResponse where
  status := reply.status
  headers := copied reply "content-type" ++ copied reply "x-dig-verified"
  body := body

/-- `request`, once there is a reply. -/
def request (decode : String → Bytes → Except TransportError Bytes) (reply : HttpResponse) :
    Except TransportError HttpResponse :=
  (arrayBuffer decode reply).map (response reply)

end FetchTransport

/-- A reply with distinct header names and ASCII values. -/
structure HttpResponse.Readable (reply : HttpResponse) : Prop where
  distinct : (reply.headers.map fun h => Text.toAsciiLowercase h.1).Nodup
  ascii : ∀ h ∈ reply.headers, ∀ c ∈ h.2.toList, isVisibleAscii c = true

end DigUrnResolver
