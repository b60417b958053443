/-
# What a node is asked for

The resource key of a URN is any text, and it is pasted into the serve URL as it stands.  The
transport parses this URL, and what is left of the key on the way is what the node is asked for.
Every step of the parser that changes the key makes it shorter, except that it turns backslashes
into slashes; hence the request names the resource exactly when there is nothing to change.
-/
import DigUrnResolver.Source.Node
import DigUrnResolver.Source.Sample
import DigUrnResolver.Url.Parse
import Mathlib.Data.List.Flatten

namespace DigUrnResolver.Node

/-! ### Requests for resources -/

/-- A base that is a plain origin: an `http` or `https` scheme and an authority, which is not empty,
begins neither path, query nor fragment and has no blanks. -/
def PlainOrigin (base : String) : Prop :=
  ∃ scheme ∈ Url.schemes, ∃ authority, base.toList = scheme ++ authority ∧ authority ≠ [] ∧
    ∀ c ∈ authority, Url.isDelimiter c = false ∧ Url.isC0OrSpace c = false

/-- The store of a serve URL, with the root if there is one. -/
def storePart (parsed : ParsedUrn) : List Char :=
  match parsed.rootHex with
  | some root => parsed.storeIdHex.toList ++ ':' :: root.toList
  | none => parsed.storeIdHex.toList

/-- The request that the transport makes for a URN. -/
def request (base : String) (parsed : ParsedUrn) : Option Url.Request :=
  Url.parse (serveUrl base parsed).toList

/-- The request goes to the base, its path stays under the store, and what follows is the
resource key once it is decoded. -/
def NamesResource (base : String) (parsed : ParsedUrn) : Prop :=
  ∃ r rest, request base parsed = some r ∧ r.scheme ++ r.authority = base.toList ∧
    Url.render r.path = "/s/".toList ++ storePart parsed ++ '/' :: rest ∧
    Url.percentDecode rest = Url.utf8 parsed.resourceKey.toList

/-- A resource key that the URL parser leaves as it is. -/
structure PlainKey (key : List Char) : Prop where
  -- no character ends the path, is dropped, or is read as a slash
  chars : ∀ c ∈ key, Url.isPathEnd c = false ∧ Url.isTabOrNewline c = false ∧ c ≠ '\\'
  -- no escape such as `%2f`
  noEscape : Url.NoEscape key
  -- no segment `.` or `..`
  noDots : ∀ seg ∈ key.splitOnP Url.isSlash, Url.IsPlain seg
  -- no blank or control character at the end
  ends : key.rdropWhile Url.isC0OrSpace = key

/-! ### What the parser makes of a serve URL -/

/-- The key without blanks at the end, tabs and newlines. -/
def cleanKey (key : List Char) : List Char :=
  (key.rdropWhile Url.isC0OrSpace).filter fun c => !Url.isTabOrNewline c

/-- The key as it is when its path is split: without what begins a query or a fragment. -/
def cutKey (key : List Char) : List Char := (cleanKey key).takeWhile fun c => !Url.isPathEnd c

/-- The segments of the path, before dots are resolved. -/
def segments (parsed : ParsedUrn) : List (List Char) :=
  ['s'] :: storePart parsed :: (cutKey parsed.resourceKey.toList).splitOnP Url.isSlash

variable {base : String} {parsed : ParsedUrn}

lemma toList_serveUrl : (serveUrl base parsed).toList =
    base.toList ++ "/s/".toList ++ storePart parsed ++ '/' :: parsed.resourceKey.toList := by
  rw [serveUrl, storePart]
  cases parsed.rootHex with
  | none => simp
  | some root => simp

/-- The characters of hex digits with a colon, of which a store part is made. -/
lemma mem_storePart {c : Char} (h : c ∈ storePart parsed) : Text.isLowerHex c = true ∨ c = ':' := by
  rw [storePart] at h
  cases hroot : parsed.rootHex with
  | none =>
    rw [hroot] at h
    exact Or.inl (parsed.isHex64_storeIdHex.2 c h)
  | some root =>
    rw [hroot] at h
    rcases List.mem_append.1 h with h | h
    · exact Or.inl (parsed.isHex64_storeIdHex.2 c h)
    · rcases List.mem_cons.1 h with rfl | h
      · exact Or.inr rfl
      · exact Or.inl ((ParsedUrn.isHex64_rootHex hroot).2 c h)

/-- The store part is plain text for the URL parser. -/
lemma storePart_safe {c : Char} (h : c ∈ storePart parsed) :
    Url.isC0OrSpace c = false ∧ Url.isSlash c = false ∧ Url.isPathEnd c = false ∧
      Url.inPathSet c = false := by
  rcases mem_storePart h with hhex | rfl
  · obtain ⟨n, hn⟩ := Text.exists_hexValue hhex
    have hrange := Url.toNat_of_hexValue hn
    have hother : ∀ d ∈ ['/', '\\', '?', '#'], c ≠ d := by
      rintro d hd rfl
      have hall : ∀ e ∈ ['/', '\\', '?', '#'], Text.isLowerHex e = false := by decide
      exact absurd hhex (by simp [hall c hd])
    refine ⟨decide_eq_false (by omega), ?_, ?_, Url.inPathSet_of_hex hn⟩
    · simp [Url.isSlash, hother]
    · simp [Url.isPathEnd, hother]
  · decide

/-- The parts of the serve URL in front of the key. -/
lemma clean_serveUrl (hbase : PlainOrigin base) :
    Url.clean (serveUrl base parsed).toList =
      base.toList ++ "/s/".toList ++ storePart parsed ++ '/' ::
        cleanKey parsed.resourceKey.toList := by
  obtain ⟨scheme, hscheme, authority, hsplit, -, hauthority⟩ := hbase
  have hchars : ∀ c ∈ base.toList ++ "/s/".toList ++ storePart parsed ++ ['/'],
      Url.isC0OrSpace c = false := by
    intro c hc
    rw [hsplit] at hc
    simp only [List.mem_append] at hc
    rcases hc with (((hc | hc) | hc) | hc) | hc
    · have hall : ∀ s ∈ Url.schemes, ∀ d ∈ s, Url.isC0OrSpace d = false := by decide
      exact hall scheme hscheme c hc
    · exact (hauthority c hc).2
    · have hall : ∀ d ∈ "/s/".toList, Url.isC0OrSpace d = false := by decide
      exact hall c hc
    · exact (storePart_safe hc).1
    · obtain rfl := List.mem_singleton.1 hc
      decide
  have happend : (serveUrl base parsed).toList =
      (base.toList ++ "/s/".toList ++ storePart parsed ++ ['/']) ++ parsed.resourceKey.toList := by
    rw [toList_serveUrl]
    simp
  rw [happend, Url.clean_append (by simp) hchars, cleanKey]
  simp

/-- **The request for a serve URL.** -/
lemma request_eq (hbase : PlainOrigin base) :
    ∃ scheme authority, scheme ++ authority = base.toList ∧ ∀ parsed : ParsedUrn,
      request base parsed = some
        { scheme
          authority
          path := Url.resolveDots [] (segments parsed)
          query := Url.queryOf
            ((cleanKey parsed.resourceKey.toList).dropWhile fun c => !Url.isPathEnd c) } := by
  have hclean := fun parsed => @clean_serveUrl base parsed hbase
  obtain ⟨scheme, hscheme, authority, hsplit, -, hauthority⟩ := hbase
  refine ⟨scheme, authority, hsplit.symm, fun parsed => ?_⟩
  set kept := cleanKey parsed.resourceKey.toList with hkept
  have hclean' : Url.clean (serveUrl base parsed).toList =
      scheme ++ (authority ++ '/' :: ('s' :: '/' :: (storePart parsed ++ ['/']) ++ kept)) := by
    rw [hclean, hsplit, ← hkept, show "/s/".toList = ['/', 's', '/'] by decide]
    simp
  have hparse := Url.parse_eq hscheme (fun c hc => (hauthority c hc).1) hclean'
  have hfront : ∀ c ∈ 's' :: '/' :: (storePart parsed ++ ['/']), (!Url.isPathEnd c) = true := by
    intro c hc
    rw [Bool.not_eq_true']
    simp only [List.mem_cons, List.mem_append, List.not_mem_nil, or_false] at hc
    rcases hc with rfl | rfl | hc | rfl
    · decide
    · decide
    · exact (storePart_safe hc).2.2.1
    · decide
  have htake : ('s' :: '/' :: (storePart parsed ++ ['/']) ++ kept).takeWhile
      (fun c => !Url.isPathEnd c) =
      ['s'] ++ '/' :: (storePart parsed ++ '/' :: cutKey parsed.resourceKey.toList) := by
    rw [List.takeWhile_append_of_pos hfront, cutKey, ← hkept]
    simp
  have hs : ∀ c ∈ ['s'], Url.isSlash c = false := by decide
  have hstore : ∀ c ∈ storePart parsed, Url.isSlash c = false :=
    fun c hc => (storePart_safe hc).2.1
  rw [request, hparse, htake, List.dropWhile_append_of_pos hfront,
    List.splitOnP_append_cons_of_forall_mem hs '/' (by decide),
    List.splitOnP_append_cons_of_forall_mem hstore '/' (by decide)]
  rfl

/-! ### Keys that the parser leaves alone -/

/-- What the parser cuts from a key. -/
lemma cutKey_sublist (key : List Char) : (cutKey key).Sublist key :=
  ((List.takeWhile_sublist _).trans List.filter_sublist).trans (List.rdropWhile_prefix _ _).sublist

/-- Nothing is cut from a key exactly when there is nothing to cut. -/
lemma cutKey_eq_self_iff {key : List Char} : cutKey key = key ↔
    key.rdropWhile Url.isC0OrSpace = key ∧
      ∀ c ∈ key, Url.isPathEnd c = false ∧ Url.isTabOrNewline c = false := by
  rw [cutKey, cleanKey]
  constructor
  · intro h
    have hends : (key.rdropWhile Url.isC0OrSpace).Sublist key :=
      (List.rdropWhile_prefix _ _).sublist
    -- every stage leaves the key as it is, since the last one does
    have hfilter : (key.rdropWhile Url.isC0OrSpace).filter (fun c => !Url.isTabOrNewline c) = key := by
      refine (List.filter_sublist.trans hends).antisymm ?_
      conv_lhs => rw [← h]
      exact List.takeWhile_sublist _
    have hdrop : key.rdropWhile Url.isC0OrSpace = key := by
      refine hends.antisymm ?_
      conv_lhs => rw [← hfilter]
      exact List.filter_sublist
    rw [hfilter, List.takeWhile_eq_self_iff] at h
    rw [hdrop, List.filter_eq_self] at hfilter
    exact ⟨hdrop, fun c hc => ⟨by simpa using h c hc, by simpa using hfilter c hc⟩⟩
  · rintro ⟨hends, hchars⟩
    rw [hends, List.filter_eq_self.2, List.takeWhile_eq_self_iff.2]
    · intro c hc
      rw [(hchars c hc).1]
      rfl
    · intro c hc
      rw [(hchars c hc).2]
      rfl

/-- Only backslashes are read as other characters. -/
lemma map_slashed_eq_self_iff {key : List Char} :
    key.map Url.slashed = key ↔ ∀ c ∈ key, c ≠ '\\' := by
  conv_lhs => rw [← List.map_id key, List.map_map, List.map_inj_left]
  refine forall₂_congr fun c _ => ?_
  rw [Function.comp_apply, id_eq, Url.slashed, Url.isSlash]
  by_cases hslash : c = '/'
  · subst hslash
    decide
  · by_cases hback : c = '\\'
    · subst hback
      decide
    · simp [hslash, hback]

lemma length_utf8_map_slashed (cs : List Char) :
    (Url.utf8 (cs.map Url.slashed)).length = (Url.utf8 cs).length := by
  induction cs with
  | nil => rfl
  | cons c cs ih =>
    have hc : (String.utf8EncodeChar (Url.slashed c)).length = (String.utf8EncodeChar c).length := by
      rw [Url.slashed]
      split_ifs with hslash
      · rw [Url.isSlash, Bool.or_eq_true, beq_iff_eq, beq_iff_eq] at hslash
        rcases hslash with rfl | rfl
        · rfl
        · decide
      · rfl
    rw [List.map_cons, Url.utf8_cons, Url.utf8_cons, List.length_append, List.length_append, ih, hc]

/-! ### When the request names the resource -/

/-- The text in front of the key, which is not changed. -/
def front (parsed : ParsedUrn) : List Char := "/s/".toList ++ storePart parsed

lemma encode_front : Url.encode (front parsed) = front parsed := by
  refine Url.encode_of_forall ?_
  intro c hc
  rcases List.mem_append.1 hc with hc | hc
  · have hall : ∀ d ∈ "/s/".toList, Url.inPathSet d = false := by decide
    exact hall c hc
  · exact (storePart_safe hc).2.2.2

lemma render_segments : Url.render (segments parsed) =
    front parsed ++ '/' :: (cutKey parsed.resourceKey.toList).map Url.slashed := by
  rw [segments, Url.render_cons, Url.render_cons, Url.render_splitOnP, front,
    show "/s/".toList = ['/', 's', '/'] by decide]
  simp

lemma sixty_four_le_length_storePart : 64 ≤ (storePart parsed).length := by
  have hstore : parsed.storeIdHex.toList.length = 64 := parsed.isHex64_storeIdHex.1
  rw [storePart]
  cases parsed.rootHex with
  | none => exact Nat.le_of_eq hstore.symm
  | some root =>
    rw [List.length_append]
    omega

lemma isPlain_storePart : Url.IsPlain (storePart parsed) := by
  have hlong := @sixty_four_le_length_storePart parsed
  have hne : ∀ dots : List Char, dots.length ≤ 6 → (storePart parsed).map Char.toLower ≠ dots := by
    rintro dots hdots rfl
    rw [List.length_map] at hdots
    omega
  constructor
  · refine decide_eq_false fun hmem => ?_
    rcases List.mem_pair.1 hmem with h | h
    · exact hne _ (by decide) h
    · exact hne _ (by decide) h
  · refine decide_eq_false fun hmem => ?_
    have hshort : ∀ dots ∈ ["..".toList, ".%2e".toList, "%2e.".toList, "%2e%2e".toList],
        dots.length ≤ 6 := by decide
    exact hne _ (hshort _ hmem) rfl

/-- The path of the request for a plain key. -/
lemma PlainKey.request (h : PlainKey parsed.resourceKey.toList) (hbase : PlainOrigin base) :
    ∃ r, Node.request base parsed = some r ∧ r.scheme ++ r.authority = base.toList ∧
      Url.render r.path = front parsed ++ '/' :: Url.encode parsed.resourceKey.toList := by
  obtain ⟨scheme, authority, horigin, hrequest⟩ := request_eq hbase
  have hcut : cutKey parsed.resourceKey.toList = parsed.resourceKey.toList :=
    cutKey_eq_self_iff.2 ⟨h.ends, fun c hc => ⟨(h.chars c hc).1, (h.chars c hc).2.1⟩⟩
  have hslashed : parsed.resourceKey.toList.map Url.slashed = parsed.resourceKey.toList :=
    map_slashed_eq_self_iff.2 fun c hc => (h.chars c hc).2.2
  have hplain : ∀ seg ∈ segments parsed, Url.IsPlain seg := by
    intro seg hseg
    rw [segments, hcut] at hseg
    rcases List.mem_cons.1 hseg with rfl | hseg
    · exact ⟨by decide, by decide⟩
    · rcases List.mem_cons.1 hseg with rfl | hseg
      · exact isPlain_storePart
      · exact h.noDots seg hseg
  refine ⟨_, hrequest parsed, horigin, ?_⟩
  rw [Url.resolveDots_of_plain hplain, List.nil_append, Url.render_map_encode,
    render_segments, hcut, hslashed, Url.encode_append, encode_front, Url.encode_cons]
  rfl

lemma PlainKey.percentDecode {key : List Char} (h : PlainKey key) :
    Url.percentDecode (Url.encode key) = Url.utf8 key := by
  rw [Url.percentDecode_encode, Url.percentDecode_of_noEscape h.noEscape]

/-- A decoded path tells how long the decoded rest is. -/
lemma weight_of_render {path : List (List Char)} {rest : List Char}
    (h : Url.render path = front parsed ++ '/' :: rest) :
    Url.weight path = (Url.percentDecode (front parsed)).length + 1 +
      (Url.percentDecode rest).length := by
  rw [← Url.length_percentDecode_render, h, Url.percentDecode_append_slash, List.length_append,
    List.length_cons]
  omega

/-- **A request that names the resource** leaves nothing of the key out. -/
lemma NamesResource.plainKey (hbase : PlainOrigin base) (h : NamesResource base parsed) :
    PlainKey parsed.resourceKey.toList := by
  obtain ⟨r, rest, hr, -, hrender, hrest⟩ := h
  obtain ⟨scheme, authority, -, hrequest⟩ := request_eq hbase
  have hpath : r.path = Url.resolveDots [] (segments parsed) := by
    rw [hrequest] at hr
    rw [← Option.some.inj hr]
  have hweight := weight_of_render hrender
  rw [hrest] at hweight
  have hsegments := weight_of_render (@render_segments parsed)
  -- the lengths of the key at the stages of the parser
  have hdecode := Url.length_percentDecode_le
    ((cutKey parsed.resourceKey.toList).map Url.slashed)
  rw [length_utf8_map_slashed] at hdecode
  have hcutle : (Url.utf8 (cutKey parsed.resourceKey.toList)).length ≤
      (Url.utf8 parsed.resourceKey.toList).length :=
    ((cutKey_sublist _).flatMap String.utf8EncodeChar).length_le
  rcases Url.resolveDots_cases [] (segments parsed) with ⟨hplain, heq⟩ | hlt
  · rw [List.nil_append, ← hpath] at heq
    rw [heq, Url.weight_map_encode] at hweight
    have hcut : cutKey parsed.resourceKey.toList = parsed.resourceKey.toList :=
      Url.eq_of_sublist_of_length_utf8_le (cutKey_sublist _) (by omega)
    have hnoEscape : Url.NoEscape (parsed.resourceKey.toList.map Url.slashed) := by
      rcases Url.noEscape_or_length_lt (parsed.resourceKey.toList.map Url.slashed) with h | hlt
      · exact h
      · rw [hcut] at hsegments
        rw [length_utf8_map_slashed] at hlt
        omega
    have hrest' : rest = Url.encode (parsed.resourceKey.toList.map Url.slashed) := by
      rw [heq, Url.render_map_encode, render_segments, hcut, Url.encode_append, encode_front,
        Url.encode_cons] at hrender
      exact (List.cons.inj (List.append_cancel_left hrender)).2.symm
    have hslashed : parsed.resourceKey.toList.map Url.slashed = parsed.resourceKey.toList := by
      rw [hrest', Url.percentDecode_encode, Url.percentDecode_of_noEscape hnoEscape] at hrest
      exact Url.utf8_injective hrest
    obtain ⟨hends, hchars⟩ := cutKey_eq_self_iff.1 hcut
    refine ⟨?_, hslashed ▸ hnoEscape, ?_, hends⟩
    · intro c hc
      exact ⟨(hchars c hc).1, (hchars c hc).2, map_slashed_eq_self_iff.1 hslashed c hc⟩
    · intro seg hseg
      rw [← hcut] at hseg
      exact hplain seg (List.mem_cons_of_mem _ (List.mem_cons_of_mem _ hseg))
  · -- resolving dots has made the path too short for the key
    rw [← hpath, Url.weight_nil] at hlt
    omega

/-- The store part tells the store and the root. -/
lemma storePart_inj {u v : ParsedUrn} (h : storePart u = storePart v) :
    u.storeIdHex = v.storeIdHex ∧ u.rootHex = v.rootHex := by
  have hu : u.storeIdHex.toList.length = 64 := u.isHex64_storeIdHex.1
  have hv : v.storeIdHex.toList.length = 64 := v.isHex64_storeIdHex.1
  rw [storePart, storePart] at h
  cases hroot : u.rootHex with
  | none =>
    cases hroot' : v.rootHex with
    | none =>
      rw [hroot, hroot'] at h
      exact ⟨String.toList_inj.1 h, rfl⟩
    | some root' =>
      rw [hroot, hroot'] at h
      have hlength := congrArg List.length h
      simp only [List.length_append, List.length_cons] at hlength
      omega
  | some root =>
    cases hroot' : v.rootHex with
    | none =>
      rw [hroot, hroot'] at h
      have hlength := congrArg List.length h
      simp only [List.length_append, List.length_cons] at hlength
      omega
    | some root' =>
      rw [hroot, hroot'] at h
      obtain ⟨hstore, hrest⟩ := List.append_inj h (hu.trans hv.symm)
      have hroots := String.toList_inj.1 (List.cons.inj hrest).2
      exact ⟨String.toList_inj.1 hstore, congrArg some hroots⟩

/-- Requests for plain keys differ when anything of the resource does. -/
lemma PlainKey.request_inj (hbase : PlainOrigin base) {u v : ParsedUrn}
    (hu : PlainKey u.resourceKey.toList) (hv : PlainKey v.resourceKey.toList)
    (h : Node.request base u = Node.request base v) :
    u.storeIdHex = v.storeIdHex ∧ u.rootHex = v.rootHex ∧ u.resourceKey = v.resourceKey := by
  obtain ⟨r, hr, -, hpath⟩ := hu.request hbase
  obtain ⟨r', hr', -, hpath'⟩ := hv.request hbase
  obtain rfl := Option.some.inj (hr.symm.trans (h.trans hr'))
  have hsame := hpath.symm.trans hpath'
  rw [front, front, List.append_assoc, List.append_assoc] at hsame
  have hslash : ∀ w : ParsedUrn, '/' ∉ storePart w := by
    intro w hmem
    exact absurd (storePart_safe hmem).2.1 (by decide)
  obtain ⟨hstore, hkeys⟩ := Text.append_cons_inj_of_notMem_left (hslash u) (hslash v)
    (List.append_cancel_left hsame)
  obtain ⟨hid, hroot⟩ := storePart_inj hstore
  have hbytes := congrArg Url.percentDecode hkeys
  rw [hu.percentDecode, hv.percentDecode] at hbytes
  exact ⟨hid, hroot, String.toList_inj.1 (Url.utf8_injective hbytes)⟩

/-- **A node is asked for the resource** of a URN exactly when the URL parser leaves its key as it
is, and such requests tell different resources apart. -/
theorem namesResource_iff (hbase : PlainOrigin base) :
    (∀ v : ParsedUrn, NamesResource base v ↔ PlainKey v.resourceKey.toList) ∧
    ∀ u v : ParsedUrn, PlainKey u.resourceKey.toList → PlainKey v.resourceKey.toList →
      request base u = request base v →
      u.storeIdHex = v.storeIdHex ∧ u.rootHex = v.rootHex ∧ u.resourceKey = v.resourceKey := by
  refine ⟨fun v => ⟨fun h => h.plainKey hbase, fun h => ?_⟩, fun u v hu hv h =>
    hu.request_inj hbase hv h⟩
  obtain ⟨r, hr, horigin, hpath⟩ := h.request hbase
  exact ⟨r, _, hr, horigin, hpath, h.percentDecode⟩

/-! ### Keys with and without a query -/

namespace NamesResource

def nodeBase : String := String.ofList ("http://".toList ++ "127.0.0.1:9778".toList)

/-- The pinned URN of a key. -/
def keyed (key : List Char) : ParsedUrn :=
  ⟨⟨"chia", Sample.hex, some Sample.hex, String.ofList key⟩, none⟩

lemma toList_resourceKey_keyed (key : List Char) : (keyed key).resourceKey.toList = key :=
  String.toList_ofList

lemma plainOrigin_nodeBase : PlainOrigin nodeBase :=
  ⟨"http://".toList, by decide, "127.0.0.1:9778".toList, String.toList_ofList, by decide, by decide⟩

/-- A query is no part of the path, and a fragment is not sent at all. -/
theorem not_namesResource_of_query :
    PlainOrigin nodeBase ∧ ¬ NamesResource nodeBase (keyed "a.txt?v=2".toList) ∧
      keyed "a.txt#1".toList ≠ keyed "a.txt".toList ∧
      request nodeBase (keyed "a.txt#1".toList) = request nodeBase (keyed "a.txt".toList) := by
  refine ⟨plainOrigin_nodeBase, ?_, ?_, ?_⟩
  · intro h
    have hplain := h.plainKey plainOrigin_nodeBase
    rw [toList_resourceKey_keyed] at hplain
    exact absurd (hplain.chars '?' (by decide)).1 (by decide)
  · intro h
    have hkey := congrArg (fun v => v.resourceKey.toList) h
    simp only [toList_resourceKey_keyed] at hkey
    exact absurd hkey (by decide)
  · have hcut : cutKey "a.txt#1".toList = cutKey "a.txt".toList := by decide
    have hquery : Url.queryOf ((cleanKey "a.txt#1".toList).dropWhile fun c => !Url.isPathEnd c) =
        Url.queryOf ((cleanKey "a.txt".toList).dropWhile fun c => !Url.isPathEnd c) := by decide
    obtain ⟨scheme, authority, -, hrequest⟩ := request_eq plainOrigin_nodeBase
    rw [hrequest, hrequest, segments, segments, toList_resourceKey_keyed,
      toList_resourceKey_keyed, hcut, hquery]
    rfl

/-- The request for a plain file name. -/
theorem namesResource_iff_plain : NamesResource nodeBase (keyed "docs/a.txt".toList) := by
  refine ((namesResource_iff plainOrigin_nodeBase).1 _).2 ?_
  rw [toList_resourceKey_keyed]
  refine ⟨by decide, ?_, by decide, by decide⟩
  intro rest hsuffix hstart
  have hall : ∀ r ∈ "docs/a.txt".toList.tails, ¬ Url.StartsEscape r := by decide
  exact hall rest ((List.mem_tails _ _).2 hsuffix) hstart

end NamesResource

end DigUrnResolver.Node
