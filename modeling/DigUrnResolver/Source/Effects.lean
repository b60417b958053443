/-
# The operations of the resolver

What a resolve does besides computing: it sends requests through the injected transport, asks
the operating system whether a name is loopback, runs the read-crypto, and reads and writes
the caches.  The functions of the crate are programs over these operations
(`Interaction/Program.lean`), so that the order of the operations, and where a call awaits,
is part of the model.
-/
import DigUrnResolver.Interaction.Program
import DigUrnResolver.Source.Crypto

namespace DigUrnResolver

open Interaction

/-- Which read surface a base URL speaks. -/
inductive EndpointKind where
  | node
  | rpc
deriving DecidableEq, Repr

/-- `Endpoint`: a base URL and the surface it speaks. -/
structure Endpoint where
  base : String
  kind : EndpointKind
deriving DecidableEq, Repr

namespace Endpoint

def node (base : String) : Endpoint := ⟨base, .node⟩

def rpc (base : String) : Endpoint := ⟨base, .rpc⟩

end Endpoint

/-- The operations. -/
inductive Op where
  -- `HttpTransport`: the only operations at which a call awaits
  | get (url : String)
  | postJson (url : String) (body : Json)
  -- the lookup inside `resolves_to_loopback`
  | resolvesToLoopback (host : String)
  -- `crypto::verify_and_decrypt`
  | verifyAndDecrypt (parsed : ParsedUrn) (ciphertext : Bytes) (proofB64 trustedRootHex : String)
      (chunkLens : List UInt32)
  -- `MemoryCache`
  | memoryGet (id : String)
  | memoryPut (id : String) (data : ResolvedData)
  -- `DiskCache`
  | diskGet (id : String)
  | diskPut (id : String) (artifacts : DiskArtifacts)
  | diskRemove (id : String)
  -- the cached try-plan of the resolver
  | planGet
  | planSet (plan : List Endpoint)

/-- The answers of the operations. -/
@[reducible] def Ans : Op → Type
  | .get _ => Except TransportError HttpResponse
  | .postJson _ _ => Except TransportError HttpResponse
  | .resolvesToLoopback _ => Bool
  | .verifyAndDecrypt _ _ _ _ _ => Except ResolveError Bytes
  | .memoryGet _ => Option ResolvedData
  | .memoryPut _ _ => Unit
  | .diskGet _ => Option DiskArtifacts
  | .diskPut _ _ => Unit
  | .diskRemove _ => Unit
  | .planGet => Option (List Endpoint)
  | .planSet _ => Unit

/-- Programs of the crate. -/
abbrev Prog (α : Type) : Type := Program Op Ans α

/-! ### One operation each -/

abbrev httpGet (url : String) : Prog (Except TransportError HttpResponse) :=
  Program.perform (Op.get url)

abbrev httpPostJson (url : String) (body : Json) : Prog (Except TransportError HttpResponse) :=
  Program.perform (Op.postJson url body)

abbrev lookupLoopback (host : String) : Prog Bool := Program.perform (Op.resolvesToLoopback host)

abbrev verifyAndDecrypt (parsed : ParsedUrn) (ciphertext : Bytes)
    (proofB64 trustedRootHex : String) (chunkLens : List UInt32) :
    Prog (Except ResolveError Bytes) :=
  Program.perform (Op.verifyAndDecrypt parsed ciphertext proofB64 trustedRootHex chunkLens)

abbrev memoryGet (id : String) : Prog (Option ResolvedData) := Program.perform (Op.memoryGet id)

abbrev memoryPut (id : String) (data : ResolvedData) : Prog Unit :=
  Program.perform (Op.memoryPut id data)

abbrev diskGet (id : String) : Prog (Option DiskArtifacts) := Program.perform (Op.diskGet id)

abbrev diskPut (id : String) (artifacts : DiskArtifacts) : Prog Unit :=
  Program.perform (Op.diskPut id artifacts)

abbrev diskRemove (id : String) : Prog Unit := Program.perform (Op.diskRemove id)

abbrev planGet : Prog (Option (List Endpoint)) := Program.perform Op.planGet

abbrev planSet (plan : List Endpoint) : Prog Unit := Program.perform (Op.planSet plan)

/-- `Fetched`: the result of one endpoint fetch, with the concrete root and the artifacts that
can be verified again, as far as they are known. -/
structure Fetched where
  data : ResolvedData
  root : Option String
  artifacts : Option DiskArtifacts
deriving DecidableEq, Repr

end DigUrnResolver
