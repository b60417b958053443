/-
# What decides a content type

A known extension behind the last dot of a resource key decides the type, and the leading bytes
decide it otherwise.  The extension is looked for in the whole key.  A dot in a directory name does
no harm, since a slash follows it; but a key without any dot is taken for an extension as it is.
-/
import DigUrnResolver.Source.Basic

namespace DigUrnResolver

/-! ### Segments and extensions -/

/-- What follows the last slash of a resource key. -/
def lastSegment (key : String) : String := Text.rsplitFirst '/' key

/-- The last segment of the key has no extension. -/
def Extensionless (key : String) : Prop := '.' ∉ (lastSegment key).toList

instance (key : String) : Decidable (Extensionless key) := inferInstanceAs (Decidable (¬ _ ∈ _))

/-- The known extensions with their types. -/
def extensionTypes : List (String × String) :=
  [("html", "text/html"), ("htm", "text/html"), ("css", "text/css"), ("js", "text/javascript"),
    ("mjs", "text/javascript"), ("json", "application/json"), ("txt", "text/plain"),
    ("xml", "application/xml"), ("svg", "image/svg+xml"), ("png", "image/png"),
    ("jpg", "image/jpeg"), ("jpeg", "image/jpeg"), ("gif", "image/gif"), ("webp", "image/webp"),
    ("avif", "image/avif"), ("ico", "image/x-icon"), ("bmp", "image/bmp"),
    ("pdf", "application/pdf"), ("wasm", "application/wasm"), ("mp4", "video/mp4"),
    ("webm", "video/webm"), ("mp3", "audio/mpeg"), ("ogg", "audio/ogg"), ("wav", "audio/wav"),
    ("woff2", "font/woff2"), ("woff", "font/woff"), ("ttf", "font/ttf")]

/-- The type of an extension, in any letter case. -/
def knownType (ext : String) : Option String := extensionTypes.lookup (Text.toAsciiLowercase ext)

/-- The type of a resource by its bytes alone. -/
def sniffedType (bytes : Bytes) : String := (fromMagicBytes bytes).getD defaultContentType

lemma fromExtension_eq (key : String) :
    fromExtension key = knownType (Text.rsplitFirst '.' key) := by
  rw [fromExtension, knownType]
  generalize Text.toAsciiLowercase (Text.rsplitFirst '.' key) = ext
  split
  case h_28 =>
    refine (List.lookup_eq_none_iff.2 ?_).symm
    simp_all [extensionTypes]
  all_goals rfl

lemma deriveContentType_eq (key : String) (bytes : Bytes) : deriveContentType key bytes =
    (knownType (Text.rsplitFirst '.' key)).getD (sniffedType bytes) := by
  rw [deriveContentType, fromExtension_eq, sniffedType]
  cases knownType (Text.rsplitFirst '.' key) <;> rfl

lemma plain_of_knownType {ext type : String} (h : knownType ext = some type) :
    '.' ∉ ext.toList ∧ '/' ∉ ext.toList := by
  have hplain : ∀ e ∈ extensionTypes, '.' ∉ e.1.toList ∧ '/' ∉ e.1.toList := by decide +kernel
  obtain ⟨front, back, hsplit, -⟩ := List.lookup_eq_some_iff.1 h
  obtain ⟨hdot, hslash⟩ := hplain (Text.toAsciiLowercase ext, type) (by simp [hsplit])
  rw [Text.toAsciiLowercase, String.toList_ofList] at hdot hslash
  -- dots and slashes have no case
  exact ⟨fun hmem => hdot (List.mem_map_of_mem (f := Char.toLower) hmem),
    fun hmem => hslash (List.mem_map_of_mem (f := Char.toLower) hmem)⟩

/-! ### The last piece of a text -/

lemma rsplitFirst_of_notMem {c : Char} {s : String} (h : c ∉ s.toList) :
    Text.rsplitFirst c s = s := by
  rw [Text.rsplitFirst, Text.split, List.splitOn_eq_singleton h, List.map_singleton,
    String.ofList_toList]
  rfl

lemma rsplitFirst_of_append {c : Char} {s : String} {u x : List Char}
    (hs : s.toList = u ++ c :: x) (hx : c ∉ x) : Text.rsplitFirst c s = String.ofList x := by
  rw [Text.rsplitFirst, Text.split, hs, List.splitOn_append_cons_self,
    List.splitOn_eq_singleton hx, List.map_append, List.getLastD_eq_getLast?, List.map_singleton,
    List.getLast?_concat, Option.getD_some]

/-- What follows the last dot of a key without extension is the whole key, or has a slash. -/
lemma Extensionless.rsplitFirst {key : String} (h : Extensionless key) :
    Text.rsplitFirst '.' key = key ∨ '/' ∈ (Text.rsplitFirst '.' key).toList := by
  by_cases hdot : '.' ∈ key.toList
  · obtain ⟨u, x, hkey, hx⟩ := Text.exists_last_of_mem hdot
    rw [rsplitFirst_of_append hkey hx, String.toList_ofList]
    refine Or.inr ?_
    by_contra hslash
    -- without a slash behind it, the dot would be in the last segment
    apply h
    rw [lastSegment]
    by_cases hu : '/' ∈ u
    · obtain ⟨a, b, rfl, hb⟩ := Text.exists_last_of_mem hu
      rw [rsplitFirst_of_append (u := a) (x := b ++ '.' :: x) (by simp [hkey]) (by simp [hb, hslash]),
        String.toList_ofList]
      simp
    · rw [rsplitFirst_of_notMem (by simp [hkey, hu, hslash]), hkey]
      simp
  · exact Or.inl (rsplitFirst_of_notMem hdot)

/-! ### When the bytes alone decide -/

/-- A key without extension is typed by its bytes, unless it is the name of an extension. -/
lemma Extensionless.deriveContentType_eq_iff {key : String} (h : Extensionless key)
    (bytes : Bytes) : deriveContentType key bytes = sniffedType bytes ↔
      ∀ type, knownType key = some type → type = sniffedType bytes := by
  rw [deriveContentType_eq]
  rcases h.rsplitFirst with heq | hslash
  · rw [heq]
    cases hknown : knownType key with
    | none => simp
    | some type => simp
  · have hnone : knownType (Text.rsplitFirst '.' key) = none := by
      rw [Option.eq_none_iff_forall_not_mem]
      intro type htype
      exact (plain_of_knownType htype).2 hslash
    rw [hnone]
    refine iff_of_true rfl ?_
    intro type htype
    -- a key that is the name of an extension has no dot
    rw [rsplitFirst_of_notMem (plain_of_knownType htype).1] at hslash
    exact absurd hslash (plain_of_knownType htype).2

/-- A known extension of the last segment decides the type. -/
lemma deriveContentType_of_extension {key stem ext type : String}
    (hkey : lastSegment key = stem ++ "." ++ ext) (hext : knownType ext = some type)
    (bytes : Bytes) : deriveContentType key bytes = type := by
  obtain ⟨hdot, hslash⟩ := plain_of_knownType hext
  have hsegment : (lastSegment key).toList = stem.toList ++ '.' :: ext.toList := by
    rw [hkey]
    simp
  -- the dot in front of the extension is the last one of the whole key
  have hlast : Text.rsplitFirst '.' key = ext := by
    rw [lastSegment] at hsegment
    by_cases hmem : '/' ∈ key.toList
    · obtain ⟨u, x, hu, hx⟩ := Text.exists_last_of_mem hmem
      rw [rsplitFirst_of_append hu hx, String.toList_ofList] at hsegment
      rw [rsplitFirst_of_append (u := u ++ '/' :: stem.toList) (x := ext.toList)
        (by simp [hu, hsegment]) hdot, String.ofList_toList]
    · rw [rsplitFirst_of_notMem hmem] at hsegment
      rw [rsplitFirst_of_append hsegment hdot, String.ofList_toList]
  rw [deriveContentType_eq, hlast, hext, Option.getD_some]

/-- **What decides the type.**  Two keys without extension get the type of the bytes exactly when
neither is, as a whole, the name of an extension of another type.  A known extension decides
alone. -/
theorem derived_types (key key' : String) (bytes : Bytes) :
    (Extensionless key → Extensionless key' →
      (deriveContentType key bytes = deriveContentType key' bytes ∧
          deriveContentType key bytes = sniffedType bytes ↔
        ∀ k ∈ [key, key'], ∀ type, knownType k = some type → type = sniffedType bytes)) ∧
    ∀ stem ext type, lastSegment key = stem ++ "." ++ ext → knownType ext = some type →
      deriveContentType key bytes = type := by
  refine ⟨?_, fun stem ext type hkey hext => deriveContentType_of_extension hkey hext bytes⟩
  intro h h'
  rw [List.forall_mem_cons, List.forall_mem_singleton, ← h.deriveContentType_eq_iff,
    ← h'.deriveContentType_eq_iff]
  constructor
  · rintro ⟨hsame, hsniffed⟩
    exact ⟨hsniffed, hsame.symm.trans hsniffed⟩
  · rintro ⟨hsniffed, hsniffed'⟩
    exact ⟨hsniffed.trans hsniffed'.symm, hsniffed⟩

/-- The beginning of a PNG image. -/
def pngBytes : Bytes := [0x89, 0x50, 0x4E, 0x47, 0x0D, 0x0A, 0x1A, 0x0A]

/-- Directories with dots do no harm, and an extension counts in any letter case. -/
theorem derived_types_png :
    (deriveContentType "blob" pngBytes = deriveContentType "v1.2/html" pngBytes ∧
      deriveContentType "blob" pngBytes = sniffedType pngBytes) ∧
    deriveContentType "v1.2/logo.SVG" pngBytes = "image/svg+xml" := by
  have hnames : ∀ k ∈ ["blob", "v1.2/html"], ∀ type, knownType k = some type →
      type = sniffedType pngBytes := by
    have hnone : ∀ k ∈ ["blob", "v1.2/html"], knownType k = none := by decide +kernel
    intro k hk type htype
    cases (hnone k hk).symm.trans htype
  exact ⟨((derived_types _ _ _).1 (by decide +kernel) (by decide +kernel)).2 hnames,
    (derived_types _ "" _).2 "logo" "SVG" _ (by decide +kernel) (by decide +kernel)⟩

/-- An image under the key `html` is rendered as a document. -/
theorem derived_type_of_bare_name : Extensionless "html" ∧ Extensionless "blob" ∧
    deriveContentType "html" pngBytes = "text/html" ∧
    deriveContentType "blob" pngBytes = "image/png" ∧ sniffedType pngBytes = "image/png" := by
  decide +kernel

end DigUrnResolver
