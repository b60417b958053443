/-
# Honest gateways

An honest gateway answers a request at an offset with the bytes from there up to a cut of its
choice, says where to go on, and gives the proof and the chunk lengths in some window of its
choice.  `Honest` is this at the level of the JSON object of an answer, with fields that are
left out, `null` or empty; `Serves` says the same of the window that is read from it.
-/
import DigUrnResolver.Gateway.Rounds

namespace DigUrnResolver.Rpc

/-- A resource as the gateway holds it. -/
structure Resource where
  ciphertext : Bytes
  proof : String
  chunkLens : List UInt32

variable (D : Deps) (R : Resource)

/-- The bytes from one offset to another. -/
def Resource.slice (o e : ℕ) : Bytes := (R.ciphertext.drop o).take (e - o)

/-- The number of a JSON object. -/
def count (n : ℕ) : Json := .number (.posInt (UInt64.ofNat n))

/-- The fields of the result of an honest answer, for the bytes from `o` to `e`. -/
structure HonestFields (o e : ℕ) (fields : List (String × Json)) : Prop where
  total : fields.lookup "total_length" = some (count R.ciphertext.length)
  -- the echo of the offset may be left out
  offset : fields.lookup "offset" = none ∨ fields.lookup "offset" = some (count o)
  bytes : ∃ text, fields.lookup "ciphertext" = some (.string text) ∧
    D.base64Decode (Text.trim text) = some (R.slice o e)
  more : e < R.ciphertext.length → fields.lookup "next_offset" = some (count e) ∧
    fields.lookup "complete" = some (.bool false)
  last : e = R.ciphertext.length → fields.lookup "complete" = some (.bool true) ∧
    (fields.lookup "next_offset" = none ∨ fields.lookup "next_offset" = some .null ∨
      fields.lookup "next_offset" = some (count e))
  proof : fields.lookup "inclusion_proof" = none ∨ fields.lookup "inclusion_proof" = some .null ∨
    fields.lookup "inclusion_proof" = some (.string "") ∨
    fields.lookup "inclusion_proof" = some (.string R.proof)
  chunkLens : fields.lookup "chunk_lens" = none ∨ fields.lookup "chunk_lens" = some .null ∨
    fields.lookup "chunk_lens" = some (.array []) ∨
    fields.lookup "chunk_lens" = some (.array (R.chunkLens.map fun n => count n.toNat))

/-- A 2xx answer with a JSON-RPC result that serves the bytes from `o` to `e`, at most one full
window of them. -/
structure Honest (o e : ℕ) (answer : Answer) : Prop where
  lt : o < e
  le_window : e ≤ o + rpcWindowBytes.toNat
  le_length : e ≤ R.ciphertext.length
  reply : ∃ resp envelope fields, answer = .ok resp ∧ resp.isSuccess = true ∧
    D.jsonFromSlice resp.body = .ok envelope ∧
    (envelope.get "error" = none ∨ envelope.get "error" = some .null) ∧
    envelope.get "result" = some (.object fields) ∧ HonestFields D R o e fields

/-- The window that is read from an honest answer. -/
structure Serves (o e : ℕ) (r : GetContent) : Prop where
  total : r.totalLength = UInt64.ofNat R.ciphertext.length
  bytes : ∃ text, r.ciphertext = some text ∧ D.base64Decode (Text.trim text) = some (R.slice o e)
  more : e < R.ciphertext.length → r.nextOffset = some (UInt64.ofNat e) ∧ r.complete = some false
  last : e = R.ciphertext.length → r.complete = some true
  proof : r.inclusionProof = none ∨ r.inclusionProof = some "" ∨ r.inclusionProof = some R.proof
  chunkLens : r.chunkLens = none ∨ r.chunkLens = some [] ∨ r.chunkLens = some R.chunkLens

variable {D R}

/-! ### Reading an honest answer -/

@[simp] lemma asU64_count (n : ℕ) : (count n).asU64 = some (UInt64.ofNat n) := rfl

@[simp] lemma isNull_count (n : ℕ) : (count n).isNull = false := rfl

lemma asU32_count (n : UInt32) : (count n.toNat).asU32 = some n := by
  have hlt : n.toNat < 2 ^ 32 := n.toNat_lt
  have hsize : UInt64.size = 2 ^ 64 := rfl
  have hcast : (UInt64.ofNat n.toNat).toNat = n.toNat :=
    UInt64.toNat_ofNat_of_lt' (by omega)
  rw [Json.asU32, asU64_count, Option.bind_some, hcast, if_pos hlt]
  refine congrArg some (UInt32.toNat_inj.1 ?_)
  rw [UInt64.toNat_toUInt32, hcast]
  exact Nat.mod_eq_of_lt hlt

lemma asVecU32_counts (lens : List UInt32) :
    (Json.array (lens.map fun n => count n.toNat)).asVecU32 = some lens := by
  rw [Json.asVecU32]
  induction lens with
  | nil => rfl
  | cons n lens ih =>
    rw [List.map_cons, List.mapM_cons, asU32_count, ih]
    rfl

/-- What an optional field may be read as. -/
lemma optional_eq {α : Type} {read : Json → Option α} {j : Json} {a : α} (hnull : j.isNull = false)
    (h : read j = some a) : optional read (some j) = some (some a) := by
  simp only [optional, defaulted, hnull, h]
  rfl

lemma optional_none {α : Type} (read : Json → Option α) : optional read none = some none := rfl

lemma optional_null {α : Type} (read : Json → Option α) :
    optional read (some .null) = some none := rfl

lemma optional_string (s : String) :
    optional Json.asStr (some (.string s)) = some (some s) := rfl

lemma optional_bool (b : Bool) : optional Json.asBool (some (.bool b)) = some (some b) := rfl

variable {o e : ℕ} {fields : List (String × Json)} {answer : Answer}

namespace HonestFields

lemma read_offset (h : HonestFields D R o e fields) :
    ∃ offset, defaulted 0 Json.asU64 (fields.lookup "offset") = some offset := by
  rcases h.offset with hnone | hsome
  · exact ⟨0, by rw [hnone]; rfl⟩
  · exact ⟨UInt64.ofNat o, by rw [hsome]; rfl⟩

/-- The cursor and the flag, which tell whether more follows. -/
lemma read_next (h : HonestFields D R o e fields) (hle : e ≤ R.ciphertext.length) :
    ∃ next complete, optional Json.asU64 (fields.lookup "next_offset") = some next ∧
      optional Json.asBool (fields.lookup "complete") = some complete ∧
      (e < R.ciphertext.length → next = some (UInt64.ofNat e) ∧ complete = some false) ∧
      (e = R.ciphertext.length → complete = some true) := by
  rcases Nat.lt_or_eq_of_le hle with hlt | heq
  · obtain ⟨hnext, hcomplete⟩ := h.more hlt
    refine ⟨some (UInt64.ofNat e), some false, ?_, ?_, fun _ => ⟨rfl, rfl⟩, ?_⟩
    · rw [hnext, optional_eq (isNull_count e) (asU64_count e)]
    · rw [hcomplete, optional_bool]
    · intro heq
      omega
  · obtain ⟨hcomplete, hnext⟩ := h.last heq
    have hread : ∃ next, optional Json.asU64 (fields.lookup "next_offset") = some next := by
      rcases hnext with hnone | hnull | hsome
      · exact ⟨none, by rw [hnone, optional_none]⟩
      · exact ⟨none, by rw [hnull, optional_null]⟩
      · exact ⟨_, by rw [hsome, optional_eq (isNull_count e) (asU64_count e)]⟩
    obtain ⟨next, hread⟩ := hread
    refine ⟨next, some true, hread, ?_, ?_, fun _ => rfl⟩
    · rw [hcomplete, optional_bool]
    · intro hlt
      omega

lemma read_proof (h : HonestFields D R o e fields) :
    ∃ proof, optional Json.asStr (fields.lookup "inclusion_proof") = some proof ∧
      (proof = none ∨ proof = some "" ∨ proof = some R.proof) := by
  rcases h.proof with hnone | hnull | hempty | hproof
  · exact ⟨none, by rw [hnone, optional_none], Or.inl rfl⟩
  · exact ⟨none, by rw [hnull, optional_null], Or.inl rfl⟩
  · exact ⟨some "", by rw [hempty, optional_string], Or.inr (Or.inl rfl)⟩
  · exact ⟨some R.proof, by rw [hproof, optional_string], Or.inr (Or.inr rfl)⟩

lemma read_chunkLens (h : HonestFields D R o e fields) :
    ∃ lens, optional Json.asVecU32 (fields.lookup "chunk_lens") = some lens ∧
      (lens = none ∨ lens = some [] ∨ lens = some R.chunkLens) := by
  rcases h.chunkLens with hnone | hnull | hempty | hlens
  · exact ⟨none, by rw [hnone, optional_none], Or.inl rfl⟩
  · exact ⟨none, by rw [hnull, optional_null], Or.inl rfl⟩
  · exact ⟨some [], by rw [hempty]; rfl, Or.inr (Or.inl rfl)⟩
  · refine ⟨some R.chunkLens, ?_, Or.inr (Or.inr rfl)⟩
    rw [hlens, optional_eq rfl (asVecU32_counts R.chunkLens)]

lemma fromValue (h : HonestFields D R o e fields) (hle : e ≤ R.ciphertext.length) :
    ∃ r, GetContent.fromValue (.object fields) = some r ∧ Serves D R o e r := by
  have htotal : defaulted 0 Json.asU64 (fields.lookup "total_length") =
      some (UInt64.ofNat R.ciphertext.length) := by
    rw [h.total]
    rfl
  obtain ⟨offset, hoffset⟩ := h.read_offset
  obtain ⟨next, complete, hnext, hcomplete, hmore, hlast⟩ := h.read_next hle
  obtain ⟨text, hlookup, hdecode⟩ := h.bytes
  have htext : optional Json.asStr (fields.lookup "ciphertext") = some (some text) := by
    rw [hlookup, optional_string]
  obtain ⟨proof, hproof, hproofs⟩ := h.read_proof
  obtain ⟨lens, hlens, hlenss⟩ := h.read_chunkLens
  refine ⟨⟨_, offset, next, complete, some text, proof, lens⟩, ?_,
    ⟨rfl, ⟨text, rfl, hdecode⟩, hmore, hlast, hproofs, hlenss⟩⟩
  simp only [GetContent.fromValue, GetContent.read, htotal, hoffset, hnext, hcomplete, htext,
    hproof, hlens]
  rfl

end HonestFields

/-- An honest answer is read as the window it serves. -/
lemma Honest.window (h : Honest D R o e answer) :
    ∃ r, windowOf D answer = .ok r ∧ Serves D R o e r := by
  obtain ⟨resp, envelope, fields, rfl, hsuccess, hjson, herror, hresult, hfields⟩ := h.reply
  obtain ⟨r, hr, hserves⟩ := hfields.fromValue h.le_length
  refine ⟨r, ?_, hserves⟩
  have hnone : (envelope.get "error").filter (fun e => e.isNull = false) = none := by
    rcases herror with hnone | hnull
    · rw [hnone]
      rfl
    · rw [hnull]
      rfl
  rw [windowOf, decodeReply, hsuccess, if_neg (by decide)]
  simp only [hjson, hnone, hresult, hr]

end DigUrnResolver.Rpc
