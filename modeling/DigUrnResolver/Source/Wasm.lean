/-
# The JavaScript client (`wasm.rs`)

`DigNetwork` holds options only.  Each of its calls goes through `do_resolve`, which builds a
resolver, resolves one URN with it and drops it.  What the two methods make of the outcome for
JavaScript, a page or an image, depends on nothing but the outcome.
-/
import DigUrnResolver.Source.World

namespace DigUrnResolver

open Interaction

/-- A JavaScript process: its resolver, the cache directory, and the exchanges over `fetch` so
far. -/
structure Process where
  world : World Unit
  past : List (Event Op Ans)

namespace Process

/-- A process with a resolver that was just built. -/
def start (disk : String → Option Bytes) : Process := ⟨World.new disk, []⟩

/-- `Resolver::with_options`: a new resolver in place of the old one, in the same process. -/
def withNewResolver (s : Process) : Process := { s with world := World.new s.world.disk }

/-- An exchange over `fetch`, whose replies may depend on all that was exchanged before. -/
def exchange (transport : Program.Oracle Op Ans) (op : Op) (s : Process) : Ans op × Process :=
  (transport s.past op, { s with past := s.past ++ [⟨op, transport s.past op⟩] })

/-- What is not answered in the process.  There is no name service in a browser, and no name
counts as loopback. -/
def outside (transport : Program.Oracle Op Ans) : (op : Op) → Process → Ans op × Process
  | .resolvesToLoopback _, s => (false, s)
  | op, s => s.exchange transport op

/-- The surroundings of the resolver of a process. -/
def respond (D : Deps) (transport : Program.Oracle Op Ans) (op : Op) (s : Process) :
    Ans op × Process :=
  match World.localStep D () op s.world with
  | some result => (result.1, { s with world := result.2 })
  | none => outside transport op s

end Process

namespace Wasm

/-- `opt`: a text that the app supplies, where a blank one counts as absent. -/
def opt (s : Option String) : Option String := s.filter fun v => Text.trim v ≠ ""

/-- `options`. -/
def options (endpoint cachePath : Option String) : ResolveOptions where
  endpoint := opt endpoint
  cachePath := opt cachePath

/-- `do_resolve`, to be run on a resolver of its own. -/
def doResolve (D : Deps) (urn : String) (endpoint cachePath : Option String) :
    Prog (Except ResolveError ResolveOutcome) :=
  Resolver.resolve D (options endpoint cachePath) urn

end Wasm

/-- `ParsedOptions`: the fields of the options object, as far as a resolve reads them. -/
structure ParsedOptions where
  endpoint : Option String := none
  cachePath : Option String := none

/-- `DigNetwork`. -/
structure DigNetwork where
  endpoint : Option String
  cachePath : Option String

/-- A call of one of the methods of `DigNetwork`. -/
inductive JsCall where
  | resolve (urn : String)
  | resolveImageUrl (urn : String)

def JsCall.urn : JsCall → String
  | .resolve urn | .resolveImageUrl urn => urn

namespace DigNetwork

/-- `from_parts`. -/
def fromParts (endpoint cachePath : Option String) : DigNetwork :=
  ⟨Wasm.opt endpoint, Wasm.opt cachePath⟩

/-- `new DigNetwork(options?)`: options that are absent or malformed are the defaults. -/
def new (parsed : Option ParsedOptions) : DigNetwork :=
  fromParts (parsed.getD {}).endpoint (parsed.getD {}).cachePath

/-- What a method of the client runs. -/
def body (D : Deps) (dig : DigNetwork) : JsCall → Prog (Except ResolveError ResolveOutcome)
  | .resolve urn => Wasm.doResolve D urn dig.endpoint dig.cachePath
  | .resolveImageUrl urn => Wasm.doResolve D urn dig.endpoint dig.cachePath

end DigNetwork

end DigUrnResolver
