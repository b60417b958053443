/-
# The resolver (`resolver.rs`)

`Resolver::resolve`: the cache layer in front of the walk over the try-plan.
-/
import DigUrnResolver.Source.Ladder
import DigUrnResolver.Source.Node
import DigUrnResolver.Source.Rpc

namespace DigUrnResolver.Resolver

open Interaction

variable (D : Deps) (options : ResolveOptions)

/-- `Resolver::plan`: the cached try-plan, built on the first use. -/
def plan : Prog (List Endpoint) := do
  match ← planGet with
  | some plan => return plan
  | none =>
    let plan ← buildPlan D options.endpoint
    planSet plan
    return plan

/-- `Resolver::fetch_from`. -/
def fetchFrom (endpoint : Endpoint) (parsed : ParsedUrn) : Prog (Except ResolveError Fetched) :=
  match endpoint.kind with
  | .node => Node.fetch endpoint.base parsed
  | .rpc => Rpc.fetch D endpoint.base parsed

/-- `Resolver::cache_id`: the cache identity of a resource at a concrete root. -/
def cacheId (parsed : ParsedUrn) (root : String) : String :=
  contentId parsed.storeIdHex root parsed.resourceKey parsed.saltText

/-- `disk_get_verified`: a disk hit, verified again under the pinned root before use. -/
def diskGetVerified (parsed : ParsedUrn) (id : String) : Prog (Option ResolveOutcome) :=
  match options.cachePath, parsed.rootHex with
  | none, _ => return none
  | some _, none => return none
  | some _, some root => do
    match ← diskGet id with
    | none => return none
    | some art =>
      match ← verifyAndDecrypt parsed art.ciphertext art.proofB64 root art.chunkLens with
      | .ok bytes => return some (.success ⟨bytes, deriveContentType parsed.resourceKey bytes⟩)
      | .error (.verifyFailed _) | .error .decryptFailed => do
        diskRemove id
        return some .integrityFailure
      | .error _ => do
        diskRemove id
        return none

/-- `cache_success`: memory always, disk when there are artifacts and a directory. -/
def cacheSuccess (parsed : ParsedUrn) (fetched : Fetched) : Prog Unit :=
  match fetched.root with
  | none => return ()
  | some root => do
    let id := cacheId parsed root
    memoryPut id fetched.data
    match options.cachePath, fetched.artifacts with
    | some _, some art => diskPut id art
    | _, _ => return ()

/-- The loop of `resolve` over the rest of the plan, whose first endpoint has the index `i`. -/
def walk (parsed : ParsedUrn) (last : ℕ) :
    ℕ → List Endpoint → Prog (Except ResolveError ResolveOutcome)
  | _, [] => return .ok .unreachable
  | i, endpoint :: rest => do
    match ← fetchFrom D endpoint parsed with
    | .ok fetched => do
      cacheSuccess options parsed fetched
      return .ok (.success fetched.data)
    -- integrity failures abort the whole ladder
    | .error (.verifyFailed _) | .error .decryptFailed => return .ok .integrityFailure
    -- genuine absence and unreachability fall through
    | .error .notFound =>
      if i = last then return .error .notFound else walk parsed last (i + 1) rest
    | .error (.transport _) =>
      if i = last then return .ok .unreachable else walk parsed last (i + 1) rest
    | .error other => return .error other

/-- The part of `resolve` behind the caches. -/
def resolveUncached (parsed : ParsedUrn) : Prog (Except ResolveError ResolveOutcome) := do
  let plan ← plan D options
  walk D options parsed (plan.length - 1) 0 plan

/-- `resolve`, of a URN that was parsed. -/
def resolveParsed (parsed : ParsedUrn) : Prog (Except ResolveError ResolveOutcome) :=
  match parsed.rootHex.map (cacheId parsed) with
  | none => resolveUncached D options parsed
  | some id => do
    match ← memoryGet id with
    | some data => return .ok (.success data)
    | none =>
      match ← diskGetVerified options parsed id with
      | some (.success data) => do
        memoryPut id data
        return .ok (.success data)
      | some outcome => return .ok outcome
      | none => resolveUncached D options parsed

/-- `Resolver::resolve`. -/
def resolve (urn : String) : Prog (Except ResolveError ResolveOutcome) :=
  match ParsedUrn.parse D urn with
  | .error e => return .error e
  | .ok parsed => resolveParsed D options parsed

end DigUrnResolver.Resolver
