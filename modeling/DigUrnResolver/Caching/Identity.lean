/-
# What the cache identity determines

The identity joins its parts with a colon, and the resource key may contain colons itself.
Store, root and salt contain none, so they can be read off from the two ends; what is left is
the key.  The chain label of the URN is not part of the identity.
-/
import DigUrnResolver.Source.Conduct

namespace DigUrnResolver

/-! ### Reading the parts off the text -/

lemma toList_contentId (storeId root resourceKey : String) (salt : Option String) :
    (contentId storeId root resourceKey salt).toList = storeId.toList ++ ':' :: (root.toList ++
      ':' :: (resourceKey.toList ++ ':' :: (salt.getD "").toList)) := by
  simp [contentId]

section Decode

variable {storeId storeId' root root' resourceKey resourceKey' : String} {salt salt' : Option String}

/-- The store and everything behind it. -/
lemma storeId_eq_of_contentId_eq (hstore : ':' ∉ storeId.toList) (hstore' : ':' ∉ storeId'.toList)
    (h : contentId storeId root resourceKey salt = contentId storeId' root' resourceKey' salt') :
    storeId = storeId' ∧
      root.toList ++ ':' :: (resourceKey.toList ++ ':' :: (salt.getD "").toList) =
        root'.toList ++ ':' :: (resourceKey'.toList ++ ':' :: (salt'.getD "").toList) := by
  have hlist := congrArg String.toList h
  rw [toList_contentId, toList_contentId] at hlist
  obtain ⟨hid, hrest⟩ := Text.append_cons_inj_of_notMem_left hstore hstore' hlist
  exact ⟨String.toList_inj.1 hid, hrest⟩

/-- The root is in front of the first colon of what is left, the salt behind the last one. -/
lemma parts_eq_of_rest_eq (hroot : ':' ∉ root.toList) (hroot' : ':' ∉ root'.toList)
    (hsalt : ':' ∉ (salt.getD "").toList) (hsalt' : ':' ∉ (salt'.getD "").toList)
    (h : root.toList ++ ':' :: (resourceKey.toList ++ ':' :: (salt.getD "").toList) =
      root'.toList ++ ':' :: (resourceKey'.toList ++ ':' :: (salt'.getD "").toList)) :
    root = root' ∧ resourceKey = resourceKey' ∧ salt.getD "" = salt'.getD "" := by
  obtain ⟨hid, hrest⟩ := Text.append_cons_inj_of_notMem_left hroot hroot' h
  obtain ⟨hkey, hend⟩ := Text.append_cons_inj_of_notMem_right hsalt hsalt' hrest
  exact ⟨String.toList_inj.1 hid, String.toList_inj.1 hkey, String.toList_inj.1 hend⟩

end Decode

/-- An absent salt and the salts that are not empty are told apart by their text. -/
lemma salt_eq_of_getD_eq {salt salt' : Option String} (hne : ∀ s ∈ salt, s ≠ "")
    (hne' : ∀ s ∈ salt', s ≠ "") (h : salt.getD "" = salt'.getD "") : salt = salt' := by
  cases salt with
  | none =>
    cases salt' with
    | none => rfl
    | some s' => exact absurd h.symm (hne' s' rfl)
  | some s =>
    cases salt' with
    | none => exact absurd h (hne s rfl)
    | some s' => exact congrArg some h

/-! ### Identities of any parts -/

/-- What `content_id` is called with: a store and a root of 64 hex digits in either case, any
resource key, and a salt that is absent or a non-empty run of hex digits. -/
structure IdentityParts where
  storeId : String
  root : String
  resourceKey : String
  salt : Option String
  storeId_length : storeId.toList.length = 64
  storeId_hex : ∀ c ∈ storeId.toList, Text.isHexDigit c = true
  root_length : root.toList.length = 64
  root_hex : ∀ c ∈ root.toList, Text.isHexDigit c = true
  salt_nonempty : ∀ s ∈ salt, s ≠ ""
  salt_hex : ∀ s ∈ salt, ∀ c ∈ s.toList, Text.isHexDigit c = true

namespace IdentityParts

@[ext] lemma ext {p q : IdentityParts} (hstore : p.storeId = q.storeId) (hroot : p.root = q.root)
    (hkey : p.resourceKey = q.resourceKey) (hsalt : p.salt = q.salt) : p = q := by
  cases p
  cases q
  simp only at hstore hroot hkey hsalt
  subst hstore hroot hkey hsalt
  rfl

/-- The identity of the parts. -/
def identity (p : IdentityParts) : String := contentId p.storeId p.root p.resourceKey p.salt

variable (p : IdentityParts)

lemma colon_notMem_storeId : ':' ∉ p.storeId.toList :=
  fun h => Text.ne_colon_of_isHexDigit (p.storeId_hex _ h) rfl

lemma colon_notMem_root : ':' ∉ p.root.toList :=
  fun h => Text.ne_colon_of_isHexDigit (p.root_hex _ h) rfl

lemma colon_notMem_salt : ':' ∉ (p.salt.getD "").toList := by
  cases hsalt : p.salt with
  | none => exact List.not_mem_nil
  | some s => exact fun h => Text.ne_colon_of_isHexDigit (p.salt_hex s hsalt _ h) rfl

/-- **The identity determines its four parts**, although the key may contain colons. -/
theorem identity_injective : Function.Injective identity := by
  intro p q h
  obtain ⟨hstore, hrest⟩ :=
    storeId_eq_of_contentId_eq p.colon_notMem_storeId q.colon_notMem_storeId h
  obtain ⟨hroot, hkey, hsalt⟩ := parts_eq_of_rest_eq p.colon_notMem_root q.colon_notMem_root
    p.colon_notMem_salt q.colon_notMem_salt hrest
  exact IdentityParts.ext hstore hroot hkey
    (salt_eq_of_getD_eq p.salt_nonempty q.salt_nonempty hsalt)

end IdentityParts

/-! ### Identities of URNs -/

lemma Salt.colon_notMem (salt : Salt) : ':' ∉ salt.text.toList :=
  fun h => Text.ne_colon_of_isHexDigit (salt.hex _ h) rfl

namespace ParsedUrn

lemma colon_notMem_salt (v : ParsedUrn) : ':' ∉ (v.saltText.getD "").toList := by
  unfold saltText
  cases v.salt with
  | none => simp
  | some salt => exact salt.colon_notMem

/-- Absent salts and salts are told apart by their text, since no salt is empty. -/
lemma salt_eq_of_getD_eq {u v : ParsedUrn} (h : u.saltText.getD "" = v.saltText.getD "") :
    u.salt = v.salt := by
  have hne : ∀ w : ParsedUrn, ∀ s ∈ w.saltText, s ≠ "" := by
    intro w s hs
    obtain ⟨salt, -, rfl⟩ := Option.map_eq_some_iff.1 hs
    exact salt.nonempty
  have htext := DigUrnResolver.salt_eq_of_getD_eq (hne u) (hne v) h
  refine Option.map_injective ?_ htext
  rintro ⟨text, _, _⟩ ⟨text', _, _⟩ rfl
  rfl

lemma colon_notMem_rootHex {v : ParsedUrn} {root : String} (h : v.rootHex = some root) :
    ':' ∉ root.toList := (isHex64_rootHex h).colon_notMem

end ParsedUrn

namespace Resolver

/-- The store and everything behind it. -/
lemma store_eq_of_cacheId_eq {u v : ParsedUrn} {r r' : String} (h : cacheId u r = cacheId v r') :
    u.storeIdHex = v.storeIdHex ∧
      r.toList ++ ':' :: (u.resourceKey.toList ++ ':' :: (u.saltText.getD "").toList) =
        r'.toList ++ ':' :: (v.resourceKey.toList ++ ':' :: (v.saltText.getD "").toList) :=
  storeId_eq_of_contentId_eq u.isHex64_storeIdHex.colon_notMem v.isHex64_storeIdHex.colon_notMem h

/-- Of one URN, the identity determines the text of the root. -/
lemma cacheId_injective (v : ParsedUrn) : Function.Injective (cacheId v) := by
  intro r r' h
  obtain ⟨-, hrest⟩ := store_eq_of_cacheId_eq h
  exact String.toList_inj.1 (List.append_cancel_right hrest)

/-- At roots without a colon, the identity determines the store, the root, the resource key
and the salt. -/
theorem cacheId_inj {u v : ParsedUrn} {r r' : String} (hr : ':' ∉ r.toList)
    (hr' : ':' ∉ r'.toList) (h : cacheId u r = cacheId v r') :
    u.storeIdHex = v.storeIdHex ∧ r = r' ∧ u.resourceKey = v.resourceKey ∧ u.salt = v.salt := by
  obtain ⟨hstore, hrest⟩ := store_eq_of_cacheId_eq h
  obtain ⟨hroot, hkey, hsalt⟩ := parts_eq_of_rest_eq hr hr' u.colon_notMem_salt
    v.colon_notMem_salt hrest
  exact ⟨hstore, hroot, hkey, ParsedUrn.salt_eq_of_getD_eq hsalt⟩

end Resolver

/-- A root that verified anything contains no colon. -/
lemma Crypto.colon_notMem_of_verifyAndDecrypt_ok {D : Deps} (hD : D.FromHexSpec) {v : ParsedUrn}
    {ciphertext bytes : Bytes} {proofB64 root : String} {lens : List UInt32}
    (h : verifyAndDecrypt D v ciphertext proofB64 root lens = .ok bytes) : ':' ∉ root.toList := by
  obtain ⟨b, hb⟩ := fromHex_of_verifyAndDecrypt_ok h
  intro hcolon
  have hmem := Text.mem_trim_of_not_isWhitespace (by decide) hcolon
  exact Text.ne_colon_of_isHexDigit ((hD _ _ hb).2 _ hmem) rfl

/-- Calls about the same identity are about the same chain label.  The identity is that of the URN
at the root that it pins or that a reply names. -/
def ChainsAgree {ρ : Type} (D : Deps) (L : RunLog ρ) : Prop :=
  ∀ e ∈ L, ∀ e' ∈ L, ∀ u v root, Names D e.tag u → Names D e'.tag v →
    RootSource L e.thread e.tag u root → RootSource L e'.thread e'.tag v root →
    Resolver.cacheId u root = Resolver.cacheId v root → u.urn.chain = v.urn.chain

end DigUrnResolver
