/-
# What the crate takes from elsewhere, and its read-crypto (`crypto.rs`)

The functions of `dig-urn-protocol`, `digstore-core`, `base64`, `serde_json` and of the
platform that the crate calls are the fields of `Deps`; every result is for an arbitrary
`Deps`.  What the crate relies on about them is stated as predicates of `Deps`, which appear
as hypotheses where they are needed.  `Crypto.verifyAndDecrypt` is the pipeline of
`crypto.rs` over these functions.
-/
import DigUrnResolver.Source.Cache

namespace DigUrnResolver

/-! ### JSON values -/

/-- `serde_json::Number`. -/
inductive JsonNumber where
  | posInt (n : UInt64)
  | negInt (n : Int64)
  | float (text : String)
deriving DecidableEq, Repr

/-- `serde_json::Value`. -/
inductive Json where
  | null
  | bool (b : Bool)
  | number (n : JsonNumber)
  | string (s : String)
  | array (items : List Json)
  | object (fields : List (String × Json))
deriving Repr

namespace Json

/-- `Value::get` at a key: the member of an object. -/
def get (key : String) : Json → Option Json
  | object fields => fields.lookup key
  | _ => none

def isNull : Json → Bool
  | null => true
  | _ => false

def asStr : Json → Option String
  | string s => some s
  | _ => none

def asBool : Json → Option Bool
  | bool b => some b
  | _ => none

/-- Deserialization of a `u64`. -/
def asU64 : Json → Option UInt64
  | number (.posInt n) => some n
  | _ => none

/-- Deserialization of a `u32`. -/
def asU32 (j : Json) : Option UInt32 :=
  j.asU64.bind fun n => if n.toNat < 2 ^ 32 then some n.toUInt32 else none

/-- Deserialization of a `Vec<u32>`. -/
def asVecU32 : Json → Option (List UInt32)
  | array items => items.mapM asU32
  | _ => none

end Json

/-! ### The dependencies -/

/-- `Bytes32` of the protocol crate. -/
abbrev Bytes32 : Type := Bytes

/-- `SecretSalt`: the 32 bytes of a validated salt. -/
abbrev SecretSalt : Type := Bytes

/-- `dig_urn_protocol::ResolveError`. -/
inductive ProtocolError where
  | parse (message : String)
  | transport (message : String)
  | rpc (message : String)
  | notFound
  | rootRequired
  | verifyFailed (message : String)
  | decryptFailed
deriving DecidableEq, Repr

/-- `FoldedProof`: the two ends of a folded inclusion proof. -/
structure FoldedProof where
  leaf : Bytes32
  root : Bytes32
deriving DecidableEq, Repr

/-- `digstore_core::MerkleProof`, as the crate reads it. -/
structure MerkleProof where
  leaf : Bytes32
  root : Bytes32
  -- whether the path folds from the leaf to the root
  verify : Bool
deriving DecidableEq, Repr

/-- `ContentCrypto`: the primitives that the verification contract is handed. -/
structure ContentCrypto where
  decodeAndFold : Bytes → Option FoldedProof
  decryptChunk : DigUrn → Option SecretSalt → Bytes → Option Bytes

/-- The functions the crate calls but does not define. -/
structure Deps where
  -- `dig-urn-protocol`: the URN parser, its derived forms and the verification contract
  parseWithSalt : String → Except String (DigUrn × Option Salt)
  canonicalRootless : DigUrn → String
  contentKeyHex : DigUrn → String
  saltBytes : String → Option SecretSalt
  bytes32FromHex : String → Option Bytes32
  protocolVerifyAndDecrypt : ContentCrypto → DigUrn → Option SecretSalt → Bytes → Bytes →
    Bytes32 → List UInt32 → Except ProtocolError Bytes
  -- `digstore-core`: the merkle codec and the symmetric primitives
  merkleProofFromBytes : Bytes → Option MerkleProof
  deriveDecryptionKey : String → Option SecretSalt → Bytes
  openChunk : Bytes → Bytes → Option Bytes
  sha256Hex : String → String
  -- `base64` and `serde_json`; `shapeError` is the message with which `from_value` rejects
  base64Decode : String → Option Bytes
  jsonFromSlice : Bytes → Except String Json
  shapeError : Json → String
  artifactsToVec : DiskArtifacts → Option Bytes
  artifactsFromSlice : Bytes → Option DiskArtifacts
  -- the platform: the URL parser of the transport, the width of `usize`, the hash map
  parsedHost : String → Option String
  usizeBits : ℕ
  iterOrder : IterOrder

namespace Deps

variable (D : Deps)

/-- `Bytes32::from_hex` accepts nothing but 64 hex digits. -/
def FromHexSpec : Prop :=
  ∀ s b, D.bytes32FromHex s = some b →
    s.toList.length = 64 ∧ ∀ c ∈ s.toList, Text.isHexDigit c = true

/-- The canonical rootless form is determined by the chain label, the store and the resource
key. -/
def CanonicalSpec : Prop :=
  ∀ u v : DigUrn, u.chain = v.chain → u.storeIdHex = v.storeIdHex →
    u.effectiveResourceKey = v.effectiveResourceKey → D.canonicalRootless u = D.canonicalRootless v

/-- The content key is a hash of the canonical rootless form. -/
def ContentKeySpec : Prop :=
  ∀ u v : DigUrn, D.canonicalRootless u = D.canonicalRootless v →
    D.contentKeyHex u = D.contentKeyHex v

/-- What is written to the cache directory is read back. -/
def ArtifactsSpec : Prop :=
  ∀ art contents, D.artifactsToVec art = some contents → D.artifactsFromSlice contents = some art

/-- A path does not change the host of a URL. -/
def HostSpec : Prop :=
  ∀ base path host host', D.parsedHost base = some host →
    D.parsedHost (base ++ "/" ++ path) = some host' → host' = host

/-- The verification contract sees the URN only through the primitives it is handed. -/
def VerifySpec : Prop :=
  ∀ crypto u v salt ciphertext proof root lens,
    crypto.decryptChunk u = crypto.decryptChunk v →
    D.protocolVerifyAndDecrypt crypto u salt ciphertext proof root lens =
      D.protocolVerifyAndDecrypt crypto v salt ciphertext proof root lens

/-- The verification contract fails for want of a root, or because the inclusion does not verify
or a chunk does not open. -/
def VerdictSpec : Prop :=
  ∀ crypto urn salt ciphertext proof root lens e,
    D.protocolVerifyAndDecrypt crypto urn salt ciphertext proof root lens = .error e →
      e = .rootRequired ∨ (∃ message, e = .verifyFailed message) ∨ e = .decryptFailed

end Deps

/-- `ParsedUrn::parse`. -/
def ParsedUrn.parse (D : Deps) (input : String) : Except ResolveError ParsedUrn :=
  match D.parseWithSalt input with
  | .error e => .error (.parse e)
  | .ok (urn, salt) => .ok ⟨urn, salt⟩

lemma ParsedUrn.parse_of_parseWithSalt {D : Deps} {input : String} {urn : DigUrn}
    {salt : Option Salt} (h : D.parseWithSalt input = .ok (urn, salt)) :
    ParsedUrn.parse D input = .ok ⟨urn, salt⟩ := by
  rw [ParsedUrn.parse, h]

/-- `ParsedUrn::retrieval_key_hex`: the wire key, which is the content key. -/
def ParsedUrn.retrievalKeyHex (D : Deps) (parsed : ParsedUrn) : String := D.contentKeyHex parsed.urn

/-! ### `crypto.rs` -/

namespace Crypto

variable (D : Deps)

/-- `DigstoreCrypto`. -/
def digstoreCrypto : ContentCrypto where
  decodeAndFold proof :=
    match D.merkleProofFromBytes proof with
    | none => none
    | some proof => if proof.verify then some ⟨proof.leaf, proof.root⟩ else none
  decryptChunk urn salt chunk :=
    D.openChunk (D.deriveDecryptionKey (D.canonicalRootless urn) salt) chunk

def parseSalt : Option String → Except ResolveError (Option SecretSalt)
  | none => .ok none
  | some s =>
    if Text.trim s = "" then .ok none
    else match D.saltBytes s with
      | some salt => .ok (some salt)
      | none => .error (.parse "secret salt must be 64 hex chars")

def parseTrustedRoot (trustedRootHex : String) : Except ResolveError Bytes32 :=
  match D.bytes32FromHex (Text.trim trustedRootHex) with
  | some root => .ok root
  | none => .error (.verifyFailed "trusted root must be 64 hex chars")

def decodeProofB64 (proofB64 : String) : Except ResolveError Bytes :=
  match D.base64Decode (Text.trim proofB64) with
  | some proof => .ok proof
  | none => .error (.verifyFailed "inclusion proof is not valid base64")

def mapErr : ProtocolError → ResolveError
  | .parse m => .parse m
  | .transport m => .transport m
  | .rpc m => .rpc m
  | .notFound => .notFound
  | .rootRequired => .rootRequired
  | .verifyFailed m => .verifyFailed m
  | .decryptFailed => .decryptFailed

/-- `verify_and_decrypt`: gate, then decrypt. -/
def verifyAndDecrypt (parsed : ParsedUrn) (ciphertext : Bytes) (proofB64 trustedRootHex : String)
    (chunkLens : List UInt32) : Except ResolveError Bytes := do
  let salt ← parseSalt D parsed.saltText
  let trustedRoot ← parseTrustedRoot D trustedRootHex
  let proof ← decodeProofB64 D proofB64
  match D.protocolVerifyAndDecrypt (digstoreCrypto D) parsed.urn salt ciphertext proof trustedRoot
      chunkLens with
  | .ok bytes => .ok bytes
  | .error e => .error (mapErr e)

variable {D}

/-- Only a trust root of 64 hex digits, up to surrounding blanks, can verify anything. -/
lemma fromHex_of_verifyAndDecrypt_ok {parsed : ParsedUrn} {ciphertext bytes : Bytes}
    {proofB64 root : String} {lens : List UInt32}
    (h : verifyAndDecrypt D parsed ciphertext proofB64 root lens = .ok bytes) :
    ∃ b, D.bytes32FromHex (Text.trim root) = some b := by
  rw [verifyAndDecrypt] at h
  obtain ⟨salt, -, h⟩ := Except.bind_eq_ok_iff.1 h
  obtain ⟨b, hroot, -⟩ := Except.bind_eq_ok_iff.1 h
  rw [parseTrustedRoot] at hroot
  cases hhex : D.bytes32FromHex (Text.trim root) with
  | none =>
    rw [hhex] at hroot
    cases hroot
  | some b => exact ⟨b, rfl⟩

lemma parseSalt_ne_notFound (salt : Option String) : parseSalt D salt ≠ .error .notFound := by
  unfold parseSalt
  split
  · exact fun h => by cases h
  · split_ifs
    · exact fun h => by cases h
    · split
      · exact fun h => by cases h
      · exact fun h => by cases h

lemma parseTrustedRoot_ne_notFound (root : String) :
    parseTrustedRoot D root ≠ .error .notFound := by
  rw [parseTrustedRoot]
  split
  · exact fun h => by cases h
  · exact fun h => by cases h

lemma decodeProofB64_ne_notFound (proofB64 : String) :
    decodeProofB64 D proofB64 ≠ .error .notFound := by
  rw [decodeProofB64]
  split
  · exact fun h => by cases h
  · exact fun h => by cases h

/-- The read-crypto does not report an absence. -/
lemma verifyAndDecrypt_ne_notFound (hD : D.VerdictSpec) (parsed : ParsedUrn) (ciphertext : Bytes)
    (proofB64 root : String) (lens : List UInt32) :
    verifyAndDecrypt D parsed ciphertext proofB64 root lens ≠ .error .notFound := by
  intro h
  rw [verifyAndDecrypt] at h
  rcases Except.bind_eq_error_iff.1 h with hsalt | ⟨salt, -, h⟩
  · exact parseSalt_ne_notFound _ hsalt
  rcases Except.bind_eq_error_iff.1 h with hroot | ⟨b, -, h⟩
  · exact parseTrustedRoot_ne_notFound _ hroot
  rcases Except.bind_eq_error_iff.1 h with hproof | ⟨proof, -, h⟩
  · exact decodeProofB64_ne_notFound _ hproof
  cases hverify : D.protocolVerifyAndDecrypt (digstoreCrypto D) parsed.urn salt ciphertext proof b
      lens with
  | ok bytes =>
    rw [hverify] at h
    cases h
  | error e =>
    rw [hverify] at h
    rcases hD _ _ _ _ _ _ _ _ hverify with rfl | ⟨message, rfl⟩ | rfl
    · cases h
    · cases h
    · cases h

/-- The ways in which the read-crypto fails: a salt that is none, a root that is missing, and what
does not verify or open. -/
inductive Rejects : ResolveError → Prop
  | badSalt (message : String) : Rejects (.parse message)
  | rootless : Rejects .rootRequired
  | unverified (message : String) : Rejects (.verifyFailed message)
  | unopened : Rejects .decryptFailed

lemma rejects_of_verifyAndDecrypt (hD : D.VerdictSpec) {parsed : ParsedUrn} {ciphertext : Bytes}
    {proofB64 root : String} {lens : List UInt32} {e : ResolveError}
    (h : verifyAndDecrypt D parsed ciphertext proofB64 root lens = .error e) : Rejects e := by
  rw [verifyAndDecrypt] at h
  rcases Except.bind_eq_error_iff.1 h with hsalt | ⟨salt, -, h⟩
  · unfold parseSalt at hsalt
    split at hsalt
    · cases hsalt
    · split_ifs at hsalt
      split at hsalt
      · cases hsalt
      · cases hsalt
        exact .badSalt _
  rcases Except.bind_eq_error_iff.1 h with hroot | ⟨b, -, h⟩
  · rw [parseTrustedRoot] at hroot
    split at hroot
    · cases hroot
    · cases hroot
      exact .unverified _
  rcases Except.bind_eq_error_iff.1 h with hproof | ⟨proof, -, h⟩
  · rw [decodeProofB64] at hproof
    split at hproof
    · cases hproof
    · cases hproof
      exact .unverified _
  cases hverify : D.protocolVerifyAndDecrypt (digstoreCrypto D) parsed.urn salt ciphertext proof b
      lens with
  | ok bytes =>
    rw [hverify] at h
    cases h
  | error e' =>
    rw [hverify] at h
    obtain rfl := Except.error.inj h
    rcases hD _ _ _ _ _ _ _ _ hverify with rfl | ⟨message, rfl⟩ | rfl
    · exact .rootless
    · exact .unverified message
    · exact .unopened

/-- The decryption key depends on the URN through its canonical rootless form. -/
lemma decryptChunk_congr {u v : DigUrn} (hcanon : D.canonicalRootless u = D.canonicalRootless v) :
    (digstoreCrypto D).decryptChunk u = (digstoreCrypto D).decryptChunk v := by
  funext salt chunk
  simp only [digstoreCrypto, hcanon]

/-- The outcome depends on the URN through its canonical rootless form and its salt only. -/
lemma verifyAndDecrypt_congr (hV : D.VerifySpec) {u v : ParsedUrn}
    (hcanon : D.canonicalRootless u.urn = D.canonicalRootless v.urn) (hsalt : u.salt = v.salt)
    (ciphertext : Bytes) (proofB64 root : String) (lens : List UInt32) :
    verifyAndDecrypt D u ciphertext proofB64 root lens =
      verifyAndDecrypt D v ciphertext proofB64 root lens := by
  have hkey := decryptChunk_congr hcanon
  have hverify := fun salt proof b => hV (digstoreCrypto D) u.urn v.urn salt ciphertext proof b
    lens hkey
  simp only [verifyAndDecrypt, ParsedUrn.saltText, hsalt, hverify]

end Crypto

end DigUrnResolver
