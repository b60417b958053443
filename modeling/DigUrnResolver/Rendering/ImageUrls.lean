/-
# The URLs of images

Where there are no blobs, the URL of an image is a data URL, and so is that of each picture for a
failure.  Such a URL shows what it was made of, unless a node chose a type that is none, or one with
a comma or a number sign in it; all types that the program derives itself can stand in one.
-/
import DigUrnResolver.Rendering.ContentType
import DigUrnResolver.Source.Facade
import DigUrnResolver.Url.DataUrl

namespace DigUrnResolver

variable {S : Surface}

/-! ### Data URLs -/

/-- `base64` encodes in the standard way. -/
def Surface.EncodeSpec (S : Surface) : Prop :=
  ∀ bytes, (S.base64Encode bytes).toList = Base64.encode bytes

/-- The data URL carries the content: it reads back as the MIME type that the text denotes, and the
bytes. -/
def Carries (url type : String) (bytes : Bytes) : Prop :=
  ∃ m, Mime.parse type.toList = some m ∧ Url.readData url.toList = some (m, bytes)

/-- The type can stand in a data URL. -/
structure Portable (type : String) : Prop where
  regular : Url.Regular type.toList
  denotes : Mime.parse type.toList ≠ none
  comma : ',' ∉ type.toList
  sign : '#' ∉ type.toList

instance (type : String) : Decidable (Portable type) :=
  decidable_of_iff (Url.Regular type.toList ∧ Mime.parse type.toList ≠ none ∧
      ',' ∉ type.toList ∧ '#' ∉ type.toList)
    ⟨fun h => ⟨h.1, h.2.1, h.2.2.1, h.2.2.2⟩, fun h => ⟨h.regular, h.denotes, h.comma, h.sign⟩⟩

lemma Wasm.toList_dataUrl (hS : S.EncodeSpec) (bytes : Bytes) (type : String) :
    (dataUrl S bytes type).toList = Url.dataUrl type.toList bytes := by
  have hmark : ";base64,".toList = ";base64".toList ++ [','] := by decide
  simp only [dataUrl, Url.dataUrl, String.toList_append, hS bytes, hmark, List.append_assoc,
    List.singleton_append]

lemma Wasm.carries_dataUrl (hS : S.EncodeSpec) (bytes : Bytes) {type : String}
    (htype : Portable type) : Carries (dataUrl S bytes type) type bytes := by
  obtain ⟨m, hm⟩ := Option.ne_none_iff_exists'.1 htype.denotes
  refine ⟨m, hm, ?_⟩
  rw [toList_dataUrl hS]
  exact Url.readData_dataUrl htype.regular hm htype.comma htype.sign bytes

lemma Images.carries_dataUri (hS : S.EncodeSpec) (kind : ErrorImage) :
    Carries (dataUri S kind) "image/png" (S.png kind) := by
  have htype : Portable "image/png" := by decide +kernel
  have hmark : "data:image/png;base64," = "data:" ++ "image/png" ++ ";base64," := by decide +kernel
  have htext : dataUri S kind = Wasm.dataUrl S (S.png kind) "image/png" :=
    congrArg (· ++ S.base64Encode (S.png kind)) hmark
  rw [htext]
  exact Wasm.carries_dataUrl hS _ htype

/-- Whatever type the program derives, it can stand in a data URL. -/
lemma portable_deriveContentType (key : String) (bytes : Bytes) :
    Portable (deriveContentType key bytes) := by
  have hknown : ∀ e ∈ extensionTypes, Portable e.2 := by decide +kernel
  have hmagic : ∀ type, fromMagicBytes bytes = some type → Portable type := by
    have htypes : ∀ type ∈ ["image/png", "image/jpeg", "image/gif", "image/webp",
        "application/pdf", "application/wasm"], Portable type := by decide +kernel
    intro type htype
    refine htypes type ?_
    unfold fromMagicBytes at htype
    split at htype <;> cases htype <;> simp
  rw [deriveContentType_eq]
  cases hext : knownType (Text.rsplitFirst '.' key) with
  | some type =>
    obtain ⟨front, back, hsplit, -⟩ := List.lookup_eq_some_iff.1 hext
    have hmem : (Text.toAsciiLowercase (Text.rsplitFirst '.' key), type) ∈ extensionTypes := by
      rw [hsplit]
      exact List.mem_append_right _ List.mem_cons_self
    exact hknown _ hmem
  | none =>
    rw [Option.getD_none, sniffedType]
    cases hbytes : fromMagicBytes bytes with
    | some type => exact hmagic type hbytes
    | none =>
      have hdefault : Portable defaultContentType := by decide +kernel
      exact hdefault

/-- `Shows S url data` : the URL is that of a blob of the content, or a data URL that carries it. -/
inductive Shows (S : Surface) (url : String) (data : ResolvedData) : Prop
  | blob (h : S.objectUrl data.bytes data.contentType = .ok url)
  | data (h : Carries url data.contentType data.bytes)

lemma Wasm.shows_imgUrl (hS : S.EncodeSpec) (data : ResolvedData)
    (htype : Portable data.contentType) : Shows S (imgUrl S data.bytes data.contentType) data := by
  rw [imgUrl]
  cases hblob : S.objectUrl data.bytes data.contentType with
  | ok url => exact .blob hblob
  | error e => exact .data (carries_dataUrl hS data.bytes htype)

/-- **What data URLs carry.**  The data URLs of a type carry whatever bytes they are made of exactly
when its text denotes a MIME type and there is neither a comma nor a number sign in it.  Types that
the program derives are always carried, and so are the pictures for failures. -/
theorem data_urls_carry (hS : S.EncodeSpec) :
    (∀ type : String, Url.Regular type.toList →
      ((∀ bytes, Carries (Wasm.dataUrl S bytes type) type bytes) ↔
        Mime.parse type.toList ≠ none ∧ ',' ∉ type.toList ∧ '#' ∉ type.toList)) ∧
    (∀ key bytes, Carries (Wasm.dataUrl S bytes (deriveContentType key bytes))
      (deriveContentType key bytes) bytes) ∧
    ∀ kind, Carries (Images.dataUri S kind) "image/png" (S.png kind) := by
  refine ⟨fun type htype => ?_, fun key bytes => ?_, fun kind => ?_⟩
  · simp only [Carries, Wasm.toList_dataUrl hS]
    exact Url.readData_dataUrl_iff htype
  · exact Wasm.carries_dataUrl hS bytes (portable_deriveContentType key bytes)
  · exact Images.carries_dataUri hS kind

/-- A runtime without blobs. -/
def withoutBlobs : Surface where
  base64Encode bytes := String.ofList (Base64.encode bytes)
  png _ := pngBytes
  objectUrl _ _ := .error ⟨"Blob is not defined"⟩

lemma withoutBlobs_encodeSpec : withoutBlobs.EncodeSpec := fun _ => String.toList_ofList

/-- Three bytes as an image, whose type may be in capitals; a type that holds a list does not carry
all bytes, nor does one that is none. -/
theorem data_urls_carry_three :
    Carries (Wasm.dataUrl withoutBlobs [1, 2, 3] "Image/PNG") "Image/PNG" [1, 2, 3] ∧
      (∃ bytes, ¬ Carries (Wasm.dataUrl withoutBlobs bytes "image/png,text/html")
        "image/png,text/html" bytes) ∧
      ∃ bytes, ¬ Carries (Wasm.dataUrl withoutBlobs bytes "image") "image" bytes := by
  obtain ⟨hcarries, -⟩ := data_urls_carry withoutBlobs_encodeSpec
  have hlist := (hcarries "image/png,text/html" (by decide +kernel)).not.2 (by decide +kernel)
  have hnone := (hcarries "image" (by decide +kernel)).not.2 (by decide +kernel)
  exact ⟨(hcarries "Image/PNG" (by decide +kernel)).2 (by decide +kernel) [1, 2, 3],
    not_forall.1 hlist, not_forall.1 hnone⟩

end DigUrnResolver
