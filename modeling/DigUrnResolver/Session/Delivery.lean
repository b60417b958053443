/-
# What the network holds is delivered

As long as the gateway serves the resources honestly, every call delivers them.  It may overlap
with any others, on any number of resolvers; local nodes may come and go, and be asked or not; the
files of the shared directory may be lost at any time.  What a call finds in a cache is the content,
and a walk that finds no node to serve it comes to the gateway.
-/
import DigUrnResolver.Session.Upkeep
import DigUrnResolver.Transport.CiphertextPaths

namespace DigUrnResolver

open Interaction

/-! ### An honest network -/

/-- What the network holds of a URN: a resource that opens to the content, at a gateway that serves
it within the cap on windows. -/
structure Holding (D : Deps) (v : ParsedUrn) where
  resource : Rpc.Resource
  content : Bytes
  gateway : Rpc.Gateway D resource
  windows : ℕ
  legal : resource.Legal
  completes : gateway.Completes windows
  within : windows ≤ Rpc.maxWindows
  opens : ∀ root, v.rootHex = some root → Crypto.verifyAndDecrypt D v resource.ciphertext
    resource.proof root resource.chunkLens = .ok content

/-- The answer of a node that does not lie: it is down, fails, has nothing, or serves the content,
in plain or as ciphertext. -/
def Holding.Fair {D : Deps} {v : ParsedUrn} (H : Holding D v) :
    Except TransportError HttpResponse → Prop
  | .error _ => True
  | .ok resp => resp.status = 404 ∨ resp.isSuccess = false ∨
      resp.isSuccess = true ∧ Node.verifiedPlaintext resp = true ∧ resp.body = H.content ∨
      CiphertextReply H.resource resp

/-- The URN is one of those that are spoken of. -/
def About (D : Deps) (urns : Set String) (v : ParsedUrn) : Prop :=
  ∃ s ∈ urns, ParsedUrn.parse D s = .ok v

section Setting

variable {ρ : Type} (D : Deps) {urns : Set String}
  (holdings : (v : ParsedUrn) → About D urns v → Holding D v)

/-- Who is asked for a resource does not lie, and the gateway serves it. -/
def Serves : (op : Op) → Ans op → Prop
  | .get url, ans => ∀ v (hv : About D urns v) base, url = Node.serveUrl base v →
      (holdings v hv).Fair ans
  | .postJson url body, ans => ∀ v (hv : About D urns v) base root offset,
      v.rootHex = some root → Op.postJson url body = Rpc.request D base v root offset →
      ans = (holdings v hv).gateway.answer offset
  | _, _ => True

end Setting

section Runs

variable {ρ : Type} {D : Deps} {urns : Set String}
  {holdings : (v : ParsedUrn) → About D urns v → Holding D v} {v : ParsedUrn} {root : String}
  {t : List (Event Op Ans)}

/-! ### Plans end with a gateway -/

section Visits

variable {hv : About D urns v} {endpoint : Endpoint} {res : Except ResolveError Fetched}

/-- A fetch that delivers: what it returns may be stored. -/
def Fetched.Holds (f : Fetched) (root : String) (H : Holding D v) : Prop :=
  f.root = some root ∧ f.data.bytes = H.content ∧ ∀ art, f.artifacts = some art →
    Crypto.verifyAndDecrypt D v art.ciphertext art.proofB64 root art.chunkLens = .ok H.content

lemma CiphertextReply.verifiedPlaintext {R : Rpc.Resource} {resp : HttpResponse}
    (h : CiphertextReply R resp) : Node.verifiedPlaintext resp = false := by
  rw [Node.verifiedPlaintext, Node.flag, h.unattested]
  rfl

end Visits

/-! ### Calls -/

variable {L : Log {c : Call ρ // c.urn ∈ urns} Op Ans} {i : ℕ} {c : {c : Call ρ // c.urn ∈ urns}}
  {o : ResolveOptions}

end Runs

/-! ### Two resolvers and a gateway -/

namespace Delivery

/-- The ciphertext of `a.txt`. -/
def resource : Rpc.Resource := ⟨[83, 1, 2], "qg==", []⟩

/-- The answer to a request for the bytes from an offset on, which are `text` in base64. -/
def fields (text : String) : List (String × Json) :=
  [("total_length", Rpc.count 3), ("complete", .bool true), ("ciphertext", .string text),
    ("inclusion_proof", .string "qg==")]

def deps : Deps :=
  sample [([0], .object [("result", .object (fields "UwEC"))]),
    ([1], .object [("result", .object (fields "AQI="))]),
    ([2], .object [("result", .object (fields "Ag=="))])]
    [(⟨[83, 1, 2], "qg==", []⟩, [123])]

lemma honestFields {text : String} {o : ℕ}
    (htext : deps.base64Decode (Text.trim text) = some (resource.slice o 3)) :
    Rpc.HonestFields deps resource o 3 (fields text) where
  total := rfl
  offset := Or.inl rfl
  bytes := ⟨text, rfl, htext⟩
  more h := absurd h (by decide)
  last _ := ⟨rfl, Or.inl rfl⟩
  proof := Or.inr (Or.inr (Or.inr rfl))
  chunkLens := Or.inl rfl

lemma honest_answer (o : ℕ) (ho : o < resource.ciphertext.length) :
    Rpc.Honest deps resource o 3 (.ok ⟨200, [], [(UInt64.ofNat o).toUInt8]⟩) := by
  have ho' : o < 3 := ho
  have hcases : o = 0 ∨ o = 1 ∨ o = 2 := by omega
  rcases hcases with rfl | rfl | rfl
  · exact ⟨by decide, by decide, by decide,
      _, _, _, rfl, rfl, rfl, Or.inl rfl, rfl, honestFields (by decide +kernel)⟩
  · exact ⟨by decide, by decide, by decide,
      _, _, _, rfl, rfl, rfl, Or.inl rfl, rfl, honestFields (by decide +kernel)⟩
  · exact ⟨by decide, by decide, by decide,
      _, _, _, rfl, rfl, rfl, Or.inl rfl, rfl, honestFields (by decide +kernel)⟩

/-- The gateway serves everything in one window. -/
def gateway : Rpc.Gateway deps resource where
  cut _ := 3
  answer offset := .ok ⟨200, [], [offset.toUInt8]⟩
  honest := honest_answer

def chiaUrns : Set String := {Sample.urn "chia"}

lemma eq_of_about {v : ParsedUrn} (h : About deps chiaUrns v) : v = Sample.parsed "chia" := by
  obtain ⟨s, rfl, hv⟩ := h
  exact Except.ok.inj (hv.symm.trans (Sample.parse_urn_chia _ _))

lemma distinguished_chiaUrns : Distinguished deps chiaUrns where
  pinned := by
    intro s hs v hv
    obtain rfl := eq_of_about ⟨s, hs, hv⟩
    simp [ParsedUrn.rootHex, Sample.parsed]
  chains := by
    intro s hs s' hs' u v root hu hv _ _ _
    rw [eq_of_about ⟨s, hs, hu⟩, eq_of_about ⟨s', hs', hv⟩]
  collisionFree := fun _ _ _ _ _ _ _ _ _ _ _ _ h => h

def holdings (v : ParsedUrn) (hv : About deps chiaUrns v) : Holding deps v where
  resource := resource
  content := [1, 2]
  gateway := gateway
  windows := 1
  legal := ⟨by decide, by decide, by decide⟩
  completes := ⟨by decide, rfl, ⟨0, by decide, _, rfl, rfl⟩, Or.inl rfl⟩
  within := by decide
  opens := by
    intro root hroot
    obtain rfl := eq_of_about hv
    obtain rfl := Option.some.inj hroot
    decide +kernel

/-- Both resolvers have the directory, and no override. -/
def options : Bool → ResolveOptions := fun _ => { cachePath := some "/cache" }

def callOf (r : Bool) : {c : Call Bool // c.urn ∈ chiaUrns} := ⟨⟨r, Sample.urn "chia"⟩, rfl⟩

end Delivery

end DigUrnResolver
