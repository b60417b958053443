/-
# The connection ladder (`ladder.rs`)

Classification of base URLs and the try-plan.  Node trust is loopback-only: a base is a node
base exactly when its host, as the URL parser of the transport sees it, is asserted loopback.
The literals that `str::parse::<IpAddr>` accepts are those of `std::net`.
-/
import DigUrnResolver.Source.Effects

namespace DigUrnResolver

open Interaction

/-! ### IP addresses -/

/-- `std::net::IpAddr`. -/
inductive IpAddr where
  | v4 (a b c d : UInt8)
  -- the eight 16-bit segments
  | v6 (segments : List UInt16)
deriving DecidableEq, Repr

namespace IpAddr

/-- `IpAddr::is_loopback`: `127.0.0.0/8` or `::1`. -/
def isLoopback : IpAddr → Bool
  | v4 a _ _ _ => a == 127
  | v6 segments => segments == [0, 0, 0, 0, 0, 0, 0, 1]

/-- A decimal octet, without leading zeros. -/
def parseOctet (cs : List Char) : Option UInt8 :=
  let value : ℕ := cs.foldl (fun n c => 10 * n + (c.toNat - 48)) 0
  if cs ≠ [] ∧ cs.length ≤ 3 ∧ cs.all Char.isDigit ∧ (cs.head? = some '0' → cs.length = 1) ∧
    value < 256 then some (UInt8.ofNat value) else none

/-- Dotted decimal notation. -/
def parseV4 (cs : List Char) : Option (UInt8 × UInt8 × UInt8 × UInt8) :=
  match (cs.splitOn '.').map parseOctet with
  | [some a, some b, some c, some d] => some (a, b, c, d)
  | _ => none

/-- A segment of one to four hex digits. -/
def parseSegment (cs : List Char) : Option UInt16 :=
  if cs ≠ [] ∧ cs.length ≤ 4 then
    (cs.mapM Text.hexValue).map fun ds => UInt16.ofNat (ds.foldl (fun n d => 16 * n + d) 0)
  else none

/-- Segments between single colons; none at all for the empty text. -/
def parseSegments (cs : List Char) : Option (List UInt16) :=
  if cs = [] then some [] else (cs.splitOn ':').mapM parseSegment

/-- Segments between single colons, of which the last two may be an embedded IPv4 address. -/
def parseTail (cs : List Char) : Option (List UInt16) :=
  match parseV4 ((cs.splitOn ':').getLastD []) with
  | none => parseSegments cs
  | some (a, b, c, d) =>
    (((cs.splitOn ':').dropLast).mapM parseSegment).map fun segments => segments ++
      [UInt16.ofNat (256 * a.toNat + b.toNat), UInt16.ofNat (256 * c.toNat + d.toNat)]

/-- The texts before and after the first `::`. -/
def splitDoubleColon : List Char → Option (List Char × List Char)
  | ':' :: ':' :: rest => some ([], rest)
  | c :: rest => (splitDoubleColon rest).map fun p => (c :: p.1, p.2)
  | [] => none

/-- IPv6 notation; `::` stands for at least one segment of zeros. -/
def parseV6 (cs : List Char) : Option (List UInt16) :=
  match splitDoubleColon cs with
  | none => (parseTail cs).filter fun segments => segments.length = 8
  | some (head, tail) => do
    let front ← parseSegments head
    let back ← parseTail tail
    if front.length + back.length ≤ 7 then
      some (front ++ List.replicate (8 - front.length - back.length) 0 ++ back)
    else none

/-- `str::parse::<IpAddr>`. -/
def parse (s : String) : Option IpAddr :=
  match parseV4 s.toList with
  | some (a, b, c, d) => some (v4 a b c d)
  | none => (parseV6 s.toList).map v6

example : parse "127.0.0.1" = some (v4 127 0 0 1) := by decide
example : (parse "::1").map isLoopback = some true := by decide
example : parse "127.0.0.01" = none := by decide

end IpAddr

/-! ### Classification -/

def digLocalBase : String := "http://dig.local:9778"

def localhostBase : String := "http://localhost:9778"

def rpcDefaultBase : String := "https://rpc.dig.net"

/-- The host without brackets, in lower case. -/
@[irreducible] def bareHost (host : String) : String :=
  Text.toAsciiLowercase
    (Text.trimEndMatches ']' (Text.trimStartMatches '[' (Text.trim host)))

/-- `is_loopback_host`: the reserved name, a loopback literal, or `dig.local` when it resolves
to loopback addresses only. -/
def isLoopbackHost (host : String) : Prog Bool :=
  let h := bareHost host
  if h = "localhost" then return true
  else match IpAddr.parse h with
  | some ip => return ip.isLoopback
  | none => if h = "dig.local" then lookupLoopback "dig.local" else return false

/-- `is_loopback_base`. -/
def isLoopbackBase (D : Deps) (base : String) : Prog Bool :=
  match D.parsedHost base with
  | some host => isLoopbackHost host
  | none => return false

/-- `classify`: a node only for an asserted-loopback host. -/
def classify (D : Deps) (base : String) : Prog Endpoint := do
  let trimmed := Text.trimEndMatches '/' base
  if ← isLoopbackBase D trimmed then return .node trimmed else return .rpc trimmed

/-- `health_ok`. -/
def healthOk (base : String) : Prog Bool := do
  match ← httpGet (base ++ "/health") with
  | .ok resp => return resp.isSuccess
  | .error _ => return false

/-- The probes of `build_plan`: the first tier that is loopback and healthy. -/
def probeTiers (D : Deps) : List String → Prog (List Endpoint)
  | [] => return [.rpc rpcDefaultBase]
  | tier :: rest => do
    if ← isLoopbackBase D tier then
      if ← healthOk tier then return [.node tier, .rpc rpcDefaultBase]
      else probeTiers D rest
    else probeTiers D rest

/-- `build_plan`. -/
def buildPlan (D : Deps) (overrideEndpoint : Option String) : Prog (List Endpoint) :=
  match overrideEndpoint with
  | some base => do
    let endpoint ← classify D base
    return [endpoint]
  | none => probeTiers D [digLocalBase, localhostBase]

end DigUrnResolver
