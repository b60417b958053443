/-
# Data URLs

A `data:` URL carries a content with its MIME type.  The text of the type stands in it as it is, in
front of the first comma, and what follows a number sign does not belong to the URL at all; so base64
data URLs read back exactly when the text denotes a MIME type and contains neither of the two.
-/
import DigUrnResolver.Url.Base64
import DigUrnResolver.Url.Mime
import DigUrnResolver.Url.Percent

namespace Url

/-! ### Writing and reading -/

/-- The base64 data URL of a content. -/
def dataUrl (type : List Char) (body : List UInt8) : List Char :=
  "data:".toList ++ (type ++ (";base64".toList ++ ',' :: Base64.encode body))

/-- The bytes of a text as characters. -/
def isomorphic (bytes : List UInt8) : List Char := bytes.map fun b => Char.ofNat b.toNat

/-- The type in front of a `;base64` at the end. -/
def base64Type (type : List Char) : Option (List Char) :=
  let front := (type.rdrop 6).rdropWhile (· == ' ')
  if (type.rtake 6).map Char.toLower = "base64".toList ∧ front.getLast? = some ';' then
    some front.dropLast
  else none

/-- The MIME type of a data URL: `text/plain` if only parameters are given, and plain ASCII text if
the text denotes none. -/
def mimeType (text : List Char) : Mime.MimeType :=
  (Mime.parse (if text.head? = some ';' then "text/plain".toList ++ text else text)).getD
    ⟨"text".toList, "plain".toList, [("charset".toList, "US-ASCII".toList)]⟩

/-- What a data URL carries: its MIME type, and its body.  The text of the URL is one that stays as
it is when the URL is parsed. -/
def readData (url : List Char) : Option (Mime.MimeType × List UInt8) :=
  let input := url.takeWhile (· != '#')
  if input.take 5 = "data:".toList then
    let type := ((input.drop 5).takeWhile (· != ',')).dropWhile Base64.isBlank |>.rdropWhile
      Base64.isBlank
    match (input.drop 5).dropWhile (· != ',') with
    | [] => none
    | _ :: encoded =>
      match base64Type type with
      | some type => (Base64.decode (isomorphic (percentDecode encoded))).map (mimeType type, ·)
      | none => some (mimeType type, percentDecode encoded)
  else none

/-- A text that stays as it is in a data URL: visible ASCII characters without those that are
encoded, and no slash in front. -/
def Regular (type : List Char) : Prop :=
  (∀ c ∈ type, '!' ≤ c ∧ c ≤ '~' ∧ c ∉ ['"', '<', '>']) ∧ type.head? ≠ some '/'

instance (type : List Char) : Decidable (Regular type) := inferInstanceAs (Decidable (_ ∧ _))

lemma Regular.not_isBlank {type : List Char} (h : Regular type) {c : Char} (hc : c ∈ type) :
    Base64.isBlank c = false := by
  by_contra hblank
  have hmem : c ∈ ['\t', '\n', '\x0c', '\r', ' '] := by
    rw [Bool.not_eq_false, Base64.isBlank] at hblank
    exact of_decide_eq_true hblank
  obtain ⟨hlow, -⟩ := h.1 c hc
  simp only [List.mem_cons, List.not_mem_nil, or_false] at hmem
  rcases hmem with rfl | rfl | rfl | rfl | rfl <;> revert hlow <;> decide

/-! ### Reading back -/

lemma base64Type_append (type : List Char) : base64Type (type ++ ";base64".toList) = some type := by
  have hsplit : type ++ ";base64".toList = (type ++ [';']) ++ "base64".toList := by
    rw [List.append_assoc]
    rfl
  have hfront : (type ++ ";base64".toList).rdrop 6 = type ++ [';'] := by
    rw [hsplit, List.rdrop, List.length_append]
    exact List.take_left' rfl
  have hend : (type ++ ";base64".toList).rtake 6 = "base64".toList := by
    rw [hsplit, List.rtake, List.length_append]
    exact List.drop_left' rfl
  rw [base64Type, hfront, hend, List.rdropWhile_concat_neg _ _ _ (by decide)]
  simp only [List.getLast?_concat, List.dropLast_concat]
  exact if_pos ⟨by decide, trivial⟩

/-- A base64 text stands in a URL as it is. -/
lemma isomorphic_percentDecode_encode (body : List UInt8) :
    isomorphic (percentDecode (Base64.encode body)) = Base64.encode body := by
  have hplain : NoEscape (Base64.encode body) := by
    intro rest hsuffix hstart
    unfold StartsEscape at hstart
    split at hstart
    · refine Base64.forall_mem_encode (P := (· ≠ '%')) (by decide +kernel) (by decide) body '%' ?_ rfl
      exact hsuffix.subset List.mem_cons_self
    · exact hstart
  have hbytes : ∀ c ∈ Base64.encode body, isomorphic (String.utf8EncodeChar c) = [c] :=
    Base64.forall_mem_encode (by decide +kernel) (by decide +kernel) body
  rw [percentDecode_of_noEscape hplain]
  generalize Base64.encode body = cs at hbytes
  induction cs with
  | nil => rfl
  | cons c cs ih =>
    obtain ⟨hc, hcs⟩ := List.forall_mem_cons.1 hbytes
    rw [utf8_cons, isomorphic, List.map_append]
    exact congrArg₂ (· ++ ·) hc (ih hcs)

lemma mimeType_of_parse {text : List Char} {m : Mime.MimeType} (h : Mime.parse text = some m) :
    mimeType text = m := by
  have hhead := Mime.head?_ne_of_parse (h ▸ Option.some_ne_none m)
  rw [mimeType, if_neg hhead, h, Option.getD_some]

lemma sign_notMem_dataUrl {type : List Char} (hsign : '#' ∉ type) (body : List UInt8) :
    '#' ∉ dataUrl type body := by
  intro hmem
  have hencoded : '#' ∉ Base64.encode body := fun hmem =>
    Base64.forall_mem_encode (P := (· ≠ '#')) (by decide +kernel) (by decide) body '#' hmem rfl
  simp only [dataUrl, List.mem_append, List.mem_cons] at hmem
  rcases hmem with hmem | hmem | hmem | hmem | hmem
  · exact absurd hmem (by decide)
  · exact hsign hmem
  · exact absurd hmem (by decide)
  · exact absurd hmem (by decide)
  · exact hencoded hmem

/-- What is read of a text with a comma: the part in front of it, and the part behind it. -/
lemma readData_append {front : List Char} (hcomma : ',' ∉ front) (encoded : List Char)
    (hsign : '#' ∉ "data:".toList ++ (front ++ ',' :: encoded)) :
    readData ("data:".toList ++ (front ++ ',' :: encoded)) =
      match base64Type ((front.dropWhile Base64.isBlank).rdropWhile Base64.isBlank) with
      | some type => (Base64.decode (isomorphic (percentDecode encoded))).map (mimeType type, ·)
      | none => some (mimeType ((front.dropWhile Base64.isBlank).rdropWhile Base64.isBlank),
          percentDecode encoded) := by
  have hinput : ("data:".toList ++ (front ++ ',' :: encoded)).takeWhile (· != '#') =
      "data:".toList ++ (front ++ ',' :: encoded) := by
    refine List.takeWhile_eq_self_iff.2 fun c hc => ?_
    rw [bne_iff_ne]
    rintro rfl
    exact hsign hc
  have hdrop : ("data:".toList ++ (front ++ ',' :: encoded)).drop 5 = front ++ ',' :: encoded :=
    List.drop_left' rfl
  have htake : ("data:".toList ++ (front ++ ',' :: encoded)).take 5 = "data:".toList :=
    List.take_left' rfl
  have hfree : ∀ c ∈ front, (c != ',') = true := by
    intro c hc
    rw [bne_iff_ne]
    rintro rfl
    exact hcomma hc
  simp only [readData, hinput, htake, if_true, hdrop, List.takeWhile_append_of_pos hfree,
    List.dropWhile_append_of_pos hfree, List.append_nil,
    List.takeWhile_cons_of_neg (p := (· != ',')) (a := ',') (by decide),
    List.dropWhile_cons_of_neg (p := (· != ',')) (a := ',') (by decide)]

lemma readData_dataUrl {type : List Char} {m : Mime.MimeType} (h : Regular type)
    (hparse : Mime.parse type = some m) (hcomma : ',' ∉ type) (hsign : '#' ∉ type)
    (body : List UInt8) : readData (dataUrl type body) = some (m, body) := by
  have hfront : ',' ∉ type ++ ";base64".toList := by
    intro hmem
    rcases List.mem_append.1 hmem with hmem | hmem
    · exact hcomma hmem
    · exact absurd hmem (by decide)
  have htrim : ((type ++ ";base64".toList).dropWhile Base64.isBlank).rdropWhile Base64.isBlank =
      type ++ ";base64".toList := by
    have hblank : ∀ c ∈ type ++ ";base64".toList, Base64.isBlank c = false := by
      intro c hc
      rcases List.mem_append.1 hc with hc | hc
      · exact h.not_isBlank hc
      · have htext : ∀ c ∈ ";base64".toList, Base64.isBlank c = false := by decide
        exact htext c hc
    rw [List.dropWhile_eq_self_iff.2 fun hpos => ?_, List.rdropWhile_eq_self_iff.2 fun hne => ?_]
    · rw [hblank _ (List.getLast_mem hne)]
      decide
    · rw [hblank _ (List.getElem_mem _)]
      decide
  have hurl := sign_notMem_dataUrl hsign body
  rw [dataUrl, ← List.append_assoc type] at hurl ⊢
  rw [readData_append hfront _ hurl, htrim, base64Type_append]
  simp only [isomorphic_percentDecode_encode, Base64.decode_encode, Option.map_some,
    mimeType_of_parse hparse]

/-- What follows a number sign is not read. -/
lemma readData_of_sign {type : List Char} (hsign : '#' ∈ type) (body body' : List UInt8) :
    readData (dataUrl type body) = readData (dataUrl type body') := by
  obtain ⟨front, back, rfl, hfront⟩ := List.eq_append_cons_of_mem hsign
  have hfree : ∀ c ∈ "data:".toList ++ front, (c != '#') = true := by
    intro c hc
    rw [bne_iff_ne]
    rintro rfl
    rcases List.mem_append.1 hc with hc | hc
    · exact absurd hc (by decide)
    · exact hfront hc
  have hinput : ∀ body, (dataUrl (front ++ '#' :: back) body).takeWhile (· != '#') =
      "data:".toList ++ front := by
    intro body
    rw [dataUrl, List.append_assoc, ← List.append_assoc, List.takeWhile_append_of_pos hfree,
      List.cons_append, List.takeWhile_cons_of_neg (by decide), List.append_nil]
  rw [readData, readData, hinput, hinput]

/-- A comma in the type cuts the body off. -/
lemma readData_ne_of_comma {type : List Char} (hcomma : ',' ∈ type) (hsign : '#' ∉ type)
    (m : Mime.MimeType) : readData (dataUrl type []) ≠ some (m, []) := by
  have hurl := sign_notMem_dataUrl hsign []
  obtain ⟨front, back, rfl, hfront⟩ := List.eq_append_cons_of_mem hcomma
  rw [dataUrl, List.append_assoc, List.cons_append] at hurl ⊢
  rw [readData_append hfront _ hurl]
  cases base64Type ((front.dropWhile Base64.isBlank).rdropWhile Base64.isBlank) with
  | none =>
    -- the rest of the type and the mark are taken for the body
    have hne : back ++ (";base64".toList ++ ',' :: Base64.encode []) ≠ [] := by simp
    have hpos := length_percentDecode_pos hne
    intro heq
    rw [(Prod.mk.inj (Option.some.inj heq)).2] at hpos
    exact absurd hpos (by decide)
  | some text =>
    -- the semicolon of the mark is not of the alphabet
    have hmem : ';' ∈ isomorphic (percentDecode
        (back ++ (";base64".toList ++ ',' :: Base64.encode []))) := by
      have hmark : ";base64".toList ++ ',' :: Base64.encode [] = ';' :: "base64,".toList := by decide
      rw [hmark, percentDecode_append_cons (by decide) (by decide), isomorphic, List.map_append,
        List.map_append]
      exact List.mem_append_right _ (List.mem_append_left _ (by decide))
    rw [Base64.decode_of_mem hmem (by decide) (by decide) (by decide)]
    intro heq
    cases heq

/-- **Data URLs read back**, whatever their bodies, exactly when the text of their type denotes a
MIME type and contains neither a comma nor a number sign. -/
theorem readData_dataUrl_iff {type : List Char} (h : Regular type) :
    (∀ body, ∃ m, Mime.parse type = some m ∧ readData (dataUrl type body) = some (m, body)) ↔
      Mime.parse type ≠ none ∧ ',' ∉ type ∧ '#' ∉ type := by
  constructor
  · intro hreads
    obtain ⟨m, hparse, hempty⟩ := hreads []
    have hsign : '#' ∉ type := by
      intro hsign
      obtain ⟨m', -, hone⟩ := hreads [0]
      rw [readData_of_sign hsign [0] []] at hone
      cases hempty.symm.trans hone
    refine ⟨hparse ▸ Option.some_ne_none m, ?_, hsign⟩
    exact fun hcomma => readData_ne_of_comma hcomma hsign m hempty
  · rintro ⟨hparse, hcomma, hsign⟩ body
    obtain ⟨m, hm⟩ := Option.ne_none_iff_exists'.1 hparse
    exact ⟨m, hm, readData_dataUrl h hm hcomma hsign body⟩

end Url
