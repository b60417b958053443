/-
# Files under JavaScript (`node_fs.rs`, `cache.rs`, `wasm.rs`)

The wasm build reaches files through the functions of an object that its host may inject: the
entry point for Node.js does, a browser never does.  Without it every operation of the disk cache
does nothing.  The disk cache of the wasm build, and a client with its resolvers over such a host,
are built on these functions.
-/
import DigUrnResolver.Interaction.Absorb
import DigUrnResolver.Source.Wasm

namespace DigUrnResolver

open Interaction

variable {φ : Type}

/-! ### The seam -/

/-- `NodeFs`: the functions of Node's `fs`, over files whose state is a `φ`.  A read that throws, or
returns no bytes, is `none`; the others are called for their effect. -/
structure NodeFs (φ : Type) where
  readFileSync : String → φ → Option Bytes
  writeFileSync : String → Bytes → φ → φ
  mkdirSync : String → φ → φ
  unlinkSync : String → φ → φ

/-- An object that is injected: its properties, as far as they are functions. -/
structure FsObject (φ : Type) where
  readFileSync : Option (String → φ → Option Bytes)
  writeFileSync : Option (String → Bytes → φ → φ)
  mkdirSync : Option (String → φ → φ)
  unlinkSync : Option (String → φ → φ)

/-- The slot `NODE_FS` of a process, and the files. -/
structure Host (φ : Type) where
  slot : Option (NodeFs φ)
  files : φ

namespace NodeFs

/-- `set_node_fs`: an object that lacks a function is ignored. -/
def setNodeFs (object : FsObject φ) (host : Host φ) : Host φ :=
  match object.readFileSync, object.writeFileSync, object.mkdirSync, object.unlinkSync with
  | some readFileSync, some writeFileSync, some mkdirSync, some unlinkSync =>
    { host with slot := some ⟨readFileSync, writeFileSync, mkdirSync, unlinkSync⟩ }
  | _, _, _, _ => host

/-- `is_available`. -/
def isAvailable (host : Host φ) : Bool := host.slot.isSome

/-- `mkdir_all`. -/
def mkdirAll (dir : String) (host : Host φ) : Host φ :=
  match host.slot with
  | some fs => { host with files := fs.mkdirSync dir host.files }
  | none => host

/-- `read_file`. -/
def readFile (path : String) (host : Host φ) : Option Bytes :=
  host.slot.bind fun fs => fs.readFileSync path host.files

/-- `write_file`. -/
def writeFile (path : String) (bytes : Bytes) (host : Host φ) : Host φ :=
  match host.slot with
  | some fs => { host with files := fs.writeFileSync path bytes host.files }
  | none => host

/-- `remove_file`. -/
def removeFile (path : String) (host : Host φ) : Host φ :=
  match host.slot with
  | some fs => { host with files := fs.unlinkSync path host.files }
  | none => host

section Slot

variable {fs : NodeFs φ} {host : Host φ} (h : host.slot = some fs)
include h

end Slot

end NodeFs

/-! ### The disk cache of the wasm build -/

namespace DiskWasm

/-- `disk_wasm::DiskCache`. -/
structure DiskCache where
  dir : String

namespace DiskCache

/-- `DiskCache::new`: slashes at the end of the directory are dropped, and it is created. -/
def new (dir : String) (host : Host φ) : DiskCache × Host φ :=
  let dir := Text.trimEndMatches '/' dir
  (⟨dir⟩, NodeFs.mkdirAll dir host)

variable (D : Deps) (cache : DiskCache)

/-- `path`: the file of an identity. -/
def path (id : String) : String := cache.dir ++ "/" ++ diskPath D id

def get (id : String) (host : Host φ) : Option DiskArtifacts :=
  (NodeFs.readFile (cache.path D id) host).bind D.artifactsFromSlice

def put (id : String) (artifacts : DiskArtifacts) (host : Host φ) : Host φ :=
  match D.artifactsToVec artifacts with
  | some bytes => NodeFs.writeFile (cache.path D id) bytes host
  | none => host

def remove (id : String) (host : Host φ) : Host φ := NodeFs.removeFile (cache.path D id) host

end DiskCache

end DiskWasm

/-! ### Resolvers over a host -/

namespace Js

/-- The operations that a resolver of the wasm build answers by itself: those on its memory and its
plan, the read-crypto, and the lookup of a name, which finds nothing in this build. -/
def own (D : Deps) : (op : Op) → Instance → Option (Ans op × Instance)
  | .resolvesToLoopback _, r => some (false, r)
  | .verifyAndDecrypt parsed ciphertext proofB64 root chunkLens, r =>
    some (Crypto.verifyAndDecrypt D parsed ciphertext proofB64 root chunkLens, r)
  | .memoryGet id, r => some ((r.memory.get id).1, { r with memory := (r.memory.get id).2 })
  | .memoryPut id data, r => some ((), { r with memory := r.memory.put D.iterOrder id data })
  | .planGet, r => some (r.planCache, r)
  | .planSet plan, r => some ((), { r with planCache := some plan })
  | .get _, _ | .postJson _ _, _ | .diskGet _, _ | .diskPut _ _, _ | .diskRemove _, _ => none

/-- What is around the resolvers: the host, and the exchanges over `fetch` so far. -/
structure Page (φ : Type) where
  host : Host φ
  past : List (Event Op Ans)

def Page.onHost (page : Page φ) (f : Host φ → Host φ) : Page φ := { page with host := f page.host }

/-- A request is an exchange over `fetch`, an operation on the disk cache goes to the host.  The
rest does not get here. -/
def answer (D : Deps) (transport : Program.Oracle Op Ans) (cache : Option DiskWasm.DiskCache) :
    (op : Op) → Page φ → Ans op × Page φ
  | .diskGet id, page => (cache.bind fun cache => cache.get D id page.host, page)
  | .diskPut id artifacts, page =>
    ((), page.onHost fun host => cache.elim host fun cache => cache.put D id artifacts host)
  | .diskRemove id, page =>
    ((), page.onHost fun host => cache.elim host fun cache => cache.remove D id host)
  | op, page =>
    (transport page.past op, { page with past := page.past ++ [⟨op, transport page.past op⟩] })

/-- The surroundings of a resolver of the wasm build. -/
abbrev respond (D : Deps) (transport : Program.Oracle Op Ans) (cache : Option DiskWasm.DiskCache) :
    (op : Op) → Instance × Page φ → Ans op × (Instance × Page φ) :=
  Program.serve (own D) (answer D transport cache)

/-- `Resolver::with_options`, as far as the disk cache goes. -/
def openCache (options : ResolveOptions) (host : Host φ) : Option DiskWasm.DiskCache × Host φ :=
  match options.cachePath with
  | none => (none, host)
  | some dir => (some (DiskWasm.DiskCache.new dir host).1, (DiskWasm.DiskCache.new dir host).2)

end Js

end DigUrnResolver
