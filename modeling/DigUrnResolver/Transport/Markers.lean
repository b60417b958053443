/-
# Replies with contradictory markers

A node tells plaintext from ciphertext by headers, and nothing keeps it from sending both kinds.
The attestation is looked at first.  An attested reply is taken at its word, whatever else it
carries; the body of any other reply is never shown, only what the read-crypto makes of it.
-/
import DigUrnResolver.Transport.Interchange

namespace DigUrnResolver

open Interaction

namespace Node

/-- The reply carries a marker of ciphertext, in any of its headers. -/
def Marked (resp : HttpResponse) : Prop :=
  ∃ h ∈ resp.headers, Text.eqIgnoreAsciiCase h.1 "x-dig-inclusion-proof" = true ∨
    Text.eqIgnoreAsciiCase h.1 "x-dig-encrypted" = true ∧
      Text.eqIgnoreAsciiCase (Text.trim h.2) "true" = true

instance (resp : HttpResponse) : Decidable (Marked resp) :=
  inferInstanceAs (Decidable (∃ h ∈ resp.headers, _))

/-- The data are what the read-crypto made of the body, under the root that the URN pins or, for
a rootless URN, the reply names.  The body goes along as ciphertext only. -/
def Decrypted (D : Deps) (parsed : ParsedUrn) (resp : HttpResponse) (fetched : Fetched) : Prop :=
  ∃ proof root lens bytes, nodeRoot parsed resp = some root ∧
    Crypto.verifyAndDecrypt D parsed resp.body proof root lens = .ok bytes ∧
    fetched = ⟨⟨bytes, deriveContentType parsed.resourceKey bytes⟩, some root,
      some ⟨resp.body, proof, lens⟩⟩

/-- The data are the body of an attested reply, of which nothing is kept for the disk. -/
def TakenAtItsWord (parsed : ParsedUrn) (resp : HttpResponse) (fetched : Fetched) : Prop :=
  fetched = ⟨⟨resp.body, (headerContentType resp).getD
    (deriveContentType parsed.resourceKey resp.body)⟩, nodeRoot parsed resp, none⟩

/-- An operation of a cache that stores what was fetched: the data in the memory, the artifacts
on the disk. -/
def Stores (fetched : Fetched) : Op → Prop
  | .memoryPut _ data => data = fetched.data
  | .diskPut _ art => fetched.artifacts = some art
  | _ => False

variable {D : Deps} {base : String} {parsed : ParsedUrn} {resp : HttpResponse} {fetched : Fetched}

lemma decrypted_of_ok (hsuccess : resp.isSuccess = true) (hverified : verifiedPlaintext resp = false)
    (hok : nodeResult D base parsed resp = .ok fetched) : Decrypted D parsed resp fetched := by
  by_cases hpieces : ∃ proof root lens, resp.header "x-dig-inclusion-proof" = some proof ∧
      nodeRoot parsed resp = some root ∧ parseChunkLens (resp.header "x-dig-chunk-lens") = .ok lens
  · obtain ⟨proof, root, lens, hproof, hroot, hlens⟩ := hpieces
    rw [nodeResult_of_ciphertext hsuccess hverified hproof hroot hlens] at hok
    cases hverify : Crypto.verifyAndDecrypt D parsed resp.body proof root lens with
    | error e =>
      rw [hverify] at hok
      cases hok
    | ok bytes =>
      rw [hverify] at hok
      exact ⟨proof, root, lens, bytes, hroot, hverify, (Except.ok.inj hok).symm⟩
  · have hrefused : ∃ message, nodeResult D base parsed resp = .error (.verifyFailed message) :=
      nodeResult_of_incomplete hsuccess hverified fun proof root lens hproof hroot hlens =>
        hpieces ⟨proof, root, lens, hproof, hroot, hlens⟩
    obtain ⟨message, hrefused⟩ := hrefused
    rw [hrefused] at hok
    cases hok

lemma isSuccess_of_ok (hok : nodeResult D base parsed resp = .ok fetched) :
    resp.isSuccess = true := by
  by_contra hnot
  rw [Bool.not_eq_true] at hnot
  by_cases h404 : resp.status = 404
  · rw [nodeResult_of_notFound h404] at hok
    cases hok
  · rw [nodeResult_of_not_success h404 hnot] at hok
    cases hok

lemma stores_cacheSuccess (options : ResolveOptions) (fetched : Fetched) :
    (Resolver.cacheSuccess options parsed fetched).Only (Stores fetched) := by
  rw [Resolver.cacheSuccess]
  cases fetched.root with
  | none => trivial
  | some root =>
    refine ⟨rfl, fun _ => ?_⟩
    cases options.cachePath with
    | none => trivial
    | some path =>
      cases hart : fetched.artifacts with
      | none => trivial
      | some art => exact ⟨hart, fun _ => trivial⟩

/-- **What a reply of a node is accepted as**, whatever headers it has: without an attestation
only as the plaintext of its body, with one as the body itself.  The caches get what is returned,
and for the disk what was verified. -/
theorem accepted_reply (hok : nodeResult D base parsed resp = .ok fetched) :
    (verifiedPlaintext resp = false → Decrypted D parsed resp fetched) ∧
    (verifiedPlaintext resp = true → TakenAtItsWord parsed resp fetched) ∧
    ∀ options, (Resolver.cacheSuccess options parsed fetched).Only (Stores fetched) := by
  have hsuccess := isSuccess_of_ok hok
  refine ⟨fun hverified => decrypted_of_ok hsuccess hverified hok, ?_,
    fun options => stores_cacheSuccess options fetched⟩
  intro hverified
  rw [nodeResult_of_attested hsuccess hverified] at hok
  exact (Except.ok.inj hok).symm

/-! ### Tampered ciphertext, attested -/

/-- Two bytes with a proof that does not fit them, marked as ciphertext and attested. -/
def contradictory : HttpResponse :=
  ⟨200, [("X-Dig-Encrypted", "true"), ("X-Dig-Inclusion-Proof", "qg=="),
    ("X-Dig-Verified", "true")], [7, 7]⟩

/-- The body of a marked reply is returned as it is, though the read-crypto refuses it under the
proof that comes with it. -/
theorem marked_body_returned :
    Marked contradictory ∧
    nodeResult (sample [] []) "http://127.0.0.1:9778" (Sample.parsed "chia") contradictory =
      .ok ⟨⟨[7, 7], "text/plain"⟩, some Sample.hex.text, none⟩ ∧
    Crypto.verifyAndDecrypt (sample [] []) (Sample.parsed "chia") [7, 7] "qg==" Sample.hex.text
      [] ≠ .ok [7, 7] ∧
    ¬ Decrypted (sample [] []) (Sample.parsed "chia") contradictory
      ⟨⟨[7, 7], "text/plain"⟩, some Sample.hex.text, none⟩ := by
  have hverified : verifiedPlaintext contradictory = true := by decide
  have htype : (headerContentType contradictory).getD
      (deriveContentType (Sample.parsed "chia").resourceKey contradictory.body) = "text/plain" := by
    decide +kernel
  refine ⟨by decide, ?_, by decide +kernel, ?_⟩
  · rw [nodeResult_of_attested rfl hverified, htype]
    rfl
  · rintro ⟨proof, root, lens, bytes, -, -, h⟩
    cases congrArg Fetched.artifacts h

/-- A ciphertext that verifies is accepted as its plaintext. -/
theorem accepted_reply_ciphertext :
    Decrypted (sample [] []) (Sample.parsed "chia") Interchangeable.ciphertextReply
      ⟨⟨[7, 7], "text/plain"⟩, some Sample.hex.text, some ⟨[83, 7, 7], "qg==", []⟩⟩ := by
  have hverified : verifiedPlaintext Interchangeable.ciphertextReply = false := by decide
  have hproof : Interchangeable.ciphertextReply.header "x-dig-inclusion-proof" = some "qg==" := by
    decide
  have hlens : parseChunkLens (Interchangeable.ciphertextReply.header "x-dig-chunk-lens") =
      .ok [] := by decide
  have hroot : nodeRoot (Sample.parsed "chia") Interchangeable.ciphertextReply =
      some Sample.hex.text := rfl
  have hverify : Crypto.verifyAndDecrypt (sample [] []) (Sample.parsed "chia") [83, 7, 7] "qg=="
      Sample.hex.text [] = .ok [7, 7] := by decide +kernel
  have htype : deriveContentType (Sample.parsed "chia").resourceKey [7, 7] = "text/plain" := by
    decide +kernel
  refine (@accepted_reply _ "http://127.0.0.1:9778" _ _ _ ?_).1 hverified
  rw [nodeResult_of_ciphertext rfl hverified hproof hroot hlens]
  change (Crypto.verifyAndDecrypt (sample [] []) (Sample.parsed "chia") [83, 7, 7] "qg=="
    Sample.hex.text []).map _ = _
  rw [hverify, ← htype]
  rfl

end Node

end DigUrnResolver
