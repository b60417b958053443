/-
# An executable instance of the dependencies

A `Deps` whose functions can be evaluated, on which concrete runs are computed.  The URN
grammar, hex and base64 are the real ones.  JSON texts and cache files are looked up in tables.
The crypto is a toy of the right shape: a proof folds to the root that repeats its first byte,
and a chunk opens when it begins with the key, which is derived from the canonical rootless URN
and the salt.
-/
import DigUrnResolver.Source.Crypto

namespace DigUrnResolver.Sample

/-- The bytes of an ASCII text. -/
def ascii (s : String) : Bytes := s.toList.map fun c => UInt8.ofNat c.toNat

/-! ### The URN grammar -/

def hex64 (cs : List Char) : Option Hex64 :=
  if h : cs.length = 64 ∧ ∀ c ∈ cs, Text.isLowerHex c = true then
    some ⟨String.ofList cs, by rwa [IsHex64, String.toList_ofList]⟩
  else none

def salt (cs : List Char) : Option Salt :=
  if h : cs ≠ [] ∧ ∀ c ∈ cs, Text.isHexDigit c = true then
    some ⟨String.ofList cs, by simpa [← String.toList_inj] using h.1,
      by rw [String.toList_ofList]; exact h.2⟩
  else none

/-- Peel off a final `?salt=` with a run of hex digits behind it. -/
def peelSalt (cs : List Char) : List Char × Option Salt :=
  let rest := cs.rdropWhile Text.isHexDigit
  match salt (cs.rtakeWhile Text.isHexDigit) with
  | some s =>
    if "?salt=".toList <:+ rest then (rest.take (rest.length - 6), some s) else (cs, none)
  | none => (cs, none)

def scheme : List Char := "urn:dig:".toList

/-- `urn:dig:<chain>:<store_id>[:<root>][/<resource_key>][?salt=<hex>]`. -/
def parseChars (cs : List Char) : Except String (DigUrn × Option Salt) :=
  let (cs, salt) := peelSalt cs
  if scheme <+: cs then
    let cs := cs.drop scheme.length
    let key := (cs.dropWhile (· ≠ '/')).tail
    let key := if key = [] then "index.html" else String.ofList key
    match (cs.takeWhile (· ≠ '/')).splitOn ':' with
    | [chain, store] =>
      match hex64 store with
      | some store => .ok (⟨String.ofList chain, store, none, key⟩, salt)
      | none => .error "invalid store id"
    | [chain, store, root] =>
      match hex64 store, hex64 root with
      | some store, some root => .ok (⟨String.ofList chain, store, some root, key⟩, salt)
      | _, _ => .error "invalid store id or root"
    | _ => .error "malformed URN"
  else .error "missing scheme"

def parseWithSalt (input : String) : Except String (DigUrn × Option Salt) :=
  parseChars input.toList

def canonicalRootless (urn : DigUrn) : String :=
  "urn:dig:" ++ urn.chain ++ ":" ++ urn.storeIdHex.text ++ "/" ++ urn.effectiveResourceKey

/-! ### Codecs -/

/-- The bytes of a text of hex digits. -/
def hexBytes : List Char → Option Bytes
  | [] => some []
  | [_] => none
  | a :: b :: rest => do
    let hi ← Text.hexValue a
    let lo ← Text.hexValue b
    let tail ← hexBytes rest
    return UInt8.ofNat (16 * hi + lo) :: tail

def bytes32FromHex (s : String) : Option Bytes32 :=
  let cs := s.toList
  if cs.length = 64 ∧ cs.all Text.isHexDigit then hexBytes cs else none

def base64Value (c : Char) : Option ℕ :=
  if 'A' ≤ c && c ≤ 'Z' then some (c.toNat - 65)
  else if 'a' ≤ c && c ≤ 'z' then some (c.toNat - 71)
  else if c.isDigit then some (c.toNat + 4)
  else if c == '+' then some 62
  else if c == '/' then some 63
  else none

/-- Standard base64 with padding. -/
def base64Bytes : List Char → Option Bytes
  | [] => some []
  | [a, b, '=', '='] => do
    let n := 64 * (← base64Value a) + (← base64Value b)
    if n % 16 = 0 then some [UInt8.ofNat (n / 16)] else none
  | [a, b, c, '='] => do
    let n := 4096 * (← base64Value a) + 64 * (← base64Value b) + (← base64Value c)
    if n % 4 = 0 then some [UInt8.ofNat (n / 1024), UInt8.ofNat (n / 4)] else none
  | a :: b :: c :: d :: rest => do
    let n := 262144 * (← base64Value a) + 4096 * (← base64Value b) + 64 * (← base64Value c) +
      (← base64Value d)
    let tail ← base64Bytes rest
    return UInt8.ofNat (n / 65536) :: UInt8.ofNat (n / 256) :: UInt8.ofNat n :: tail
  | _ => none

/-- The host at the beginning of what follows the scheme. -/
def authority (cs : List Char) : Option String :=
  let host := cs.takeWhile fun c => c != ':' && c != '/'
  if host = [] then none else some (String.ofList host)

/-- The host of an `http` or `https` URL that is a plain origin. -/
def parsedHost (base : String) : Option String :=
  match base.toList with
  | 'h' :: 't' :: 't' :: 'p' :: ':' :: '/' :: '/' :: rest => authority rest
  | 'h' :: 't' :: 't' :: 'p' :: 's' :: ':' :: '/' :: '/' :: rest => authority rest
  | _ => none

lemma authority_append_slash (cs path : List Char) : authority (cs ++ '/' :: path) = authority cs := by
  have htake : (cs ++ '/' :: path).takeWhile (fun c => c != ':' && c != '/') =
      cs.takeWhile fun c => c != ':' && c != '/' := by
    induction cs with
    | nil => rfl
    | cons c cs ih =>
      rw [List.cons_append, List.takeWhile_cons, List.takeWhile_cons, ih]
  rw [authority, authority, htake]

/-! ### The crypto -/

/-- Cut into chunks of the given lengths; no lengths mean a single chunk. -/
def chunks (lens : List UInt32) (bytes : Bytes) : List Bytes :=
  match lens with
  | [] => [bytes]
  | [n] => [bytes.take n.toNat]
  | n :: rest => bytes.take n.toNat :: chunks rest (bytes.drop n.toNat)

def deriveDecryptionKey (canonical : String) (salt : Option SecretSalt) : Bytes :=
  UInt8.ofNat canonical.utf8ByteSize :: salt.getD []

def openChunk (key chunk : Bytes) : Option Bytes :=
  if key <+: chunk then some (chunk.drop key.length) else none

def verifyAndDecrypt (crypto : ContentCrypto) (urn : DigUrn) (salt : Option SecretSalt)
    (ciphertext proof : Bytes) (root : Bytes32) (lens : List UInt32) :
    Except ProtocolError Bytes :=
  match crypto.decodeAndFold proof with
  | none => .error (.verifyFailed "malformed proof")
  | some folded =>
    if folded.root = root then
      match (chunks lens ciphertext).mapM (crypto.decryptChunk urn salt) with
      | some plain => .ok plain.flatten
      | none => .error .decryptFailed
    else .error (.verifyFailed "proof does not chain to the trusted root")

end Sample

/-- The instance, with tables of the JSON texts and of the cache files. -/
def sample (texts : List (Bytes × Json)) (files : List (DiskArtifacts × Bytes)) : Deps where
  parseWithSalt := Sample.parseWithSalt
  canonicalRootless := Sample.canonicalRootless
  contentKeyHex := Sample.canonicalRootless
  saltBytes := Sample.bytes32FromHex
  bytes32FromHex := Sample.bytes32FromHex
  protocolVerifyAndDecrypt := Sample.verifyAndDecrypt
  merkleProofFromBytes proof :=
    proof.head?.map fun b => ⟨List.replicate 32 b, List.replicate 32 b, true⟩
  deriveDecryptionKey := Sample.deriveDecryptionKey
  openChunk := Sample.openChunk
  sha256Hex id := id
  base64Decode s := Sample.base64Bytes s.toList
  jsonFromSlice bytes :=
    match texts.lookup bytes with
    | some j => .ok j
    | none => .error "expected value at line 1 column 1"
  shapeError _ := "invalid type"
  artifactsToVec art := files.lookup art
  artifactsFromSlice bytes := (files.find? fun file => file.2 = bytes).map Prod.fst
  parsedHost := Sample.parsedHost
  usizeBits := 64
  iterOrder := .stored

namespace Sample

/-- 64 digits `a`. -/
def digits : List Char := List.replicate 64 'a'

def hex : Hex64 where
  text := String.ofList digits
  hex := by
    have hlist : (String.ofList digits).toList = digits := String.toList_ofList
    simp only [IsHex64, hlist]
    decide

/-- The pinned URN of `a.txt` under a chain label. -/
def urn (chain : String) : String :=
  String.ofList ("urn:dig:".toList ++ chain.toList ++ ':' :: (digits ++ ':' ::
    (digits ++ "/a.txt".toList)))

/-- What it parses to. -/
def parsed (chain : String) : ParsedUrn := ⟨⟨chain, hex, some hex, "a.txt"⟩, none⟩

/-- The pinned URN of another resource. -/
def urnOf (key : String) : String :=
  String.ofList ("urn:dig:chia:".toList ++ (digits ++ ':' :: (digits ++ '/' :: key.toList)))

def parsedOf (key : String) : ParsedUrn := ⟨⟨"chia", hex, some hex, key⟩, none⟩

lemma parseWithSalt_urn (chain : String) : parseWithSalt (urn chain) = parseChars
    ("urn:dig:".toList ++ chain.toList ++ ':' :: (digits ++ ':' :: (digits ++ "/a.txt".toList))) :=
  congrArg parseChars String.toList_ofList

lemma parseWithSalt_urnOf (key : String) : parseWithSalt (urnOf key) = parseChars
    ("urn:dig:chia:".toList ++ (digits ++ ':' :: (digits ++ '/' :: key.toList))) :=
  congrArg parseChars String.toList_ofList

-- no term should be compared with this text character by character
attribute [irreducible] urn urnOf

lemma parseWithSalt_sample (texts : List (Bytes × Json)) (files : List (DiskArtifacts × Bytes)) :
    (sample texts files).parseWithSalt = parseWithSalt := rfl

/-- Only the characters of the text matter, whatever the tables. -/
lemma parse_urn {texts : List (Bytes × Json)} {files : List (DiskArtifacts × Bytes)}
    {chain : String} {v : ParsedUrn}
    (h : parseChars ("urn:dig:".toList ++ chain.toList ++ ':' :: (digits ++ ':' ::
      (digits ++ "/a.txt".toList))) = .ok (v.urn, v.salt)) :
    ParsedUrn.parse (sample texts files) (urn chain) = .ok v := by
  have htext : (sample texts files).parseWithSalt (urn chain) = .ok (v.urn, v.salt) := by
    rw [parseWithSalt_sample, parseWithSalt_urn, h]
  exact ParsedUrn.parse_of_parseWithSalt htext

lemma parse_urnOf {texts : List (Bytes × Json)} {files : List (DiskArtifacts × Bytes)}
    {key : String} (h : parseChars ("urn:dig:chia:".toList ++ (digits ++ ':' ::
      (digits ++ '/' :: key.toList))) = .ok ((parsedOf key).urn, none)) :
    ParsedUrn.parse (sample texts files) (urnOf key) = .ok (parsedOf key) := by
  have htext : (sample texts files).parseWithSalt (urnOf key) = .ok ((parsedOf key).urn, none) := by
    rw [parseWithSalt_sample, parseWithSalt_urnOf, h]
  exact ParsedUrn.parse_of_parseWithSalt htext

variable (texts : List (Bytes × Json)) (files : List (DiskArtifacts × Bytes))

lemma parse_urn_chia : ParsedUrn.parse (sample texts files) (urn "chia") = .ok (parsed "chia") :=
  parse_urn (by decide +kernel)

lemma parse_urn_mainnet :
    ParsedUrn.parse (sample texts files) (urn "mainnet") = .ok (parsed "mainnet") :=
  parse_urn (by decide +kernel)

end Sample

lemma sample_fromHexSpec (texts : List (Bytes × Json)) (files : List (DiskArtifacts × Bytes)) :
    (sample texts files).FromHexSpec := by
  intro s b h
  simp only [sample, Sample.bytes32FromHex, List.all_eq_true, Option.ite_none_right_eq_some] at h
  exact h.1

lemma sample_canonicalSpec (texts : List (Bytes × Json)) (files : List (DiskArtifacts × Bytes)) :
    (sample texts files).CanonicalSpec := by
  intro u v hchain hstore hkey
  simp only [sample, Sample.canonicalRootless, hchain, hstore, hkey]

lemma sample_contentKeySpec (texts : List (Bytes × Json)) (files : List (DiskArtifacts × Bytes)) :
    (sample texts files).ContentKeySpec := fun _ _ h => h

lemma sample_artifactsSpec (texts : List (Bytes × Json)) (art : DiskArtifacts) (contents : Bytes) :
    (sample texts [(art, contents)]).ArtifactsSpec := by
  intro art' contents' h
  simp only [sample, List.lookup_cons, List.lookup_nil] at h ⊢
  by_cases heq : art' = art
  · subst heq
    obtain rfl : contents = contents' := by simpa using h
    simp
  · have hbeq : (art' == art) = false := beq_false_of_ne heq
    rw [hbeq] at h
    cases h

lemma sample_hostSpec (texts : List (Bytes × Json)) (files : List (DiskArtifacts × Bytes)) :
    (sample texts files).HostSpec := by
  intro base path host host' hbase hurl
  simp only [sample, Sample.parsedHost, String.toList_append] at hbase hurl
  rw [show "/".toList = ['/'] by decide, List.append_assoc, List.singleton_append] at hurl
  generalize base.toList = cs at hbase hurl
  split at hbase
  · simp only [List.cons_append, Sample.authority_append_slash] at hurl
    exact Option.some.inj (hurl.symm.trans hbase)
  · simp only [List.cons_append, Sample.authority_append_slash] at hurl
    exact Option.some.inj (hurl.symm.trans hbase)
  · cases hbase

lemma sample_verifySpec (texts : List (Bytes × Json)) (files : List (DiskArtifacts × Bytes)) :
    (sample texts files).VerifySpec := by
  intro crypto u v salt ciphertext proof root lens h
  simp only [sample, Sample.verifyAndDecrypt, h]

lemma sample_verdictSpec (texts : List (Bytes × Json)) (files : List (DiskArtifacts × Bytes)) :
    (sample texts files).VerdictSpec := by
  intro crypto urn salt ciphertext proof root lens e h
  simp only [sample, Sample.verifyAndDecrypt] at h
  split at h
  · exact .inr (.inl ⟨_, (Except.error.inj h).symm⟩)
  · split at h
    · split at h
      · cases h
      · exact .inr (.inr (Except.error.inj h).symm)
    · exact .inr (.inl ⟨_, (Except.error.inj h).symm⟩)

end DigUrnResolver
