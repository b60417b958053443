/-
# Percent-encoding

UTF-8 and percent-encoding of the URL standard, on lists of characters.  The parser encodes some
of the characters of a path and leaves escapes as they are, so decoding an encoded text is the
same as decoding the text itself; and decoding gives back the bytes of a text exactly when it
contains no escape.
-/
import DigUrnResolver.Text

namespace Url

/-! ### UTF-8 -/

/-- The UTF-8 bytes of a text. -/
def utf8 (cs : List Char) : List UInt8 := cs.flatMap String.utf8EncodeChar

@[simp] lemma utf8_nil : utf8 [] = [] := rfl

@[simp] lemma utf8_cons (c : Char) (cs : List Char) :
    utf8 (c :: cs) = String.utf8EncodeChar c ++ utf8 cs := List.flatMap_cons

lemma length_utf8EncodeChar_pos (c : Char) : 1 ≤ (String.utf8EncodeChar c).length :=
  List.length_pos_iff.2 String.utf8EncodeChar_ne_nil

/-- A text is determined by its bytes. -/
lemma utf8_injective {cs cs' : List Char} (h : utf8 cs = utf8 cs') : cs = cs' := by
  have hstring : String.ofList cs = String.ofList cs' := by
    rw [← String.toByteArray_inj, String.toByteArray_ofList, String.toByteArray_ofList]
    exact congrArg List.toByteArray h
  exact String.ofList_inj.1 hstring

/-- A text with fewer characters in it has fewer bytes. -/
lemma eq_of_sublist_of_length_utf8_le {cs cs' : List Char} (hsub : cs.Sublist cs')
    (hlength : (utf8 cs').length ≤ (utf8 cs).length) : cs = cs' := by
  induction hsub with
  | slnil => rfl
  | @cons cs cs' c hsub ih =>
    have hpos := length_utf8EncodeChar_pos c
    rw [utf8_cons, List.length_append] at hlength
    obtain rfl := ih (by omega)
    omega
  | @cons_cons cs cs' c hsub ih =>
    simp only [utf8_cons, List.length_append] at hlength
    rw [ih (by omega)]

/-! ### Decoding -/

/-- The text begins with `%` and two hex digits. -/
def StartsEscape : List Char → Prop
  | '%' :: a :: b :: _ => (Text.hexValue a).isSome = true ∧ (Text.hexValue b).isSome = true
  | _ => False

instance : DecidablePred StartsEscape := fun cs => by
  unfold StartsEscape
  split <;> infer_instance

/-- No part of the text is an escape. -/
def NoEscape (cs : List Char) : Prop := ∀ rest, rest <:+ cs → ¬ StartsEscape rest

/-- Percent-decoding: the bytes of a text, with the escapes replaced. -/
def percentDecode : List Char → List UInt8
  | [] => []
  | '%' :: a :: b :: rest =>
    match Text.hexValue a, Text.hexValue b with
    | some hi, some lo => UInt8.ofNat (16 * hi + lo) :: percentDecode rest
    | _, _ => String.utf8EncodeChar '%' ++ percentDecode (a :: b :: rest)
  | c :: cs => String.utf8EncodeChar c ++ percentDecode cs

lemma percentDecode_escape {a b : Char} {hi lo : ℕ} (rest : List Char)
    (ha : Text.hexValue a = some hi) (hb : Text.hexValue b = some lo) :
    percentDecode ('%' :: a :: b :: rest) = UInt8.ofNat (16 * hi + lo) :: percentDecode rest := by
  rw [percentDecode]
  simp only [ha, hb]

lemma percentDecode_cons {c : Char} {cs : List Char} (h : ¬ StartsEscape (c :: cs)) :
    percentDecode (c :: cs) = String.utf8EncodeChar c ++ percentDecode cs := by
  rw [percentDecode.eq_def]
  split
  · next heq => cases heq
  · next a b rest heq =>
    obtain ⟨rfl, rfl⟩ := List.cons.inj heq
    split
    · next hi lo ha hb => exact absurd ⟨by rw [ha]; rfl, by rw [hb]; rfl⟩ h
    · rfl
  · next heq =>
    obtain ⟨rfl, rfl⟩ := List.cons.inj heq
    rfl

/-- The cases of a text: it begins with an escape or not. -/
lemma escape_cases (c : Char) (cs : List Char) :
    (∃ a b rest hi lo, c = '%' ∧ cs = a :: b :: rest ∧ Text.hexValue a = some hi ∧
      Text.hexValue b = some lo) ∨ ¬ StartsEscape (c :: cs) := by
  by_cases h : StartsEscape (c :: cs)
  · refine Or.inl ?_
    unfold StartsEscape at h
    split at h
    · next a b rest heq =>
      obtain ⟨rfl, rfl⟩ := List.cons.inj heq
      obtain ⟨hi, ha⟩ := Option.isSome_iff_exists.1 h.1
      obtain ⟨lo, hb⟩ := Option.isSome_iff_exists.1 h.2
      exact ⟨a, b, rest, hi, lo, rfl, rfl, ha, hb⟩
    · exact h.elim
  · exact Or.inr h

/-- Induction over a text in the way it is decoded. -/
lemma decode_induction {P : List Char → Prop} (nil : P [])
    (escape : ∀ a b rest hi lo, Text.hexValue a = some hi → Text.hexValue b = some lo → P rest →
      P ('%' :: a :: b :: rest))
    (cons : ∀ c cs, ¬ StartsEscape (c :: cs) → P cs → P (c :: cs)) (cs : List Char) : P cs := by
  induction hn : cs.length using Nat.strong_induction_on generalizing cs with
  | _ n ih =>
    cases cs with
    | nil => exact nil
    | cons c cs =>
      rw [List.length_cons] at hn
      rcases escape_cases c cs with ⟨a, b, rest, hi, lo, rfl, rfl, ha, hb⟩ | hstart
      · simp only [List.length_cons] at hn
        exact escape a b rest hi lo ha hb (ih rest.length (by omega) rest rfl)
      · exact cons c cs hstart (ih cs.length (by omega) cs rfl)

/-- Without escapes, decoding gives the bytes of the text. -/
lemma percentDecode_of_noEscape {cs : List Char} (h : NoEscape cs) : percentDecode cs = utf8 cs := by
  induction cs with
  | nil => rfl
  | cons c cs ih =>
    have hrest : NoEscape cs := fun rest hsuffix => h rest (hsuffix.trans (List.suffix_cons c cs))
    rw [percentDecode_cons (h _ List.suffix_rfl), ih hrest, utf8_cons]

/-- An escape makes the decoded text shorter. -/
lemma noEscape_or_length_lt (cs : List Char) :
    NoEscape cs ∨ (percentDecode cs).length < (utf8 cs).length := by
  induction cs using decode_induction with
  | nil =>
    refine Or.inl ?_
    intro rest hsuffix
    obtain rfl := List.suffix_nil.1 hsuffix
    exact id
  | escape a b rest hi lo ha hb ih =>
    have hpercent := length_utf8EncodeChar_pos '%'
    have hposa := length_utf8EncodeChar_pos a
    have hposb := length_utf8EncodeChar_pos b
    have hle : (percentDecode rest).length ≤ (utf8 rest).length := by
      rcases ih with hnone | hlt
      · rw [percentDecode_of_noEscape hnone]
      · exact Nat.le_of_lt hlt
    refine Or.inr ?_
    rw [percentDecode_escape rest ha hb]
    simp only [utf8_cons, List.length_append, List.length_cons]
    omega
  | cons c cs hstart ih =>
    rcases ih with hnone | hlt
    · refine Or.inl ?_
      intro rest hsuffix
      rcases List.suffix_cons_iff.1 hsuffix with rfl | hsuffix
      · exact hstart
      · exact hnone rest hsuffix
    · refine Or.inr ?_
      rw [percentDecode_cons hstart, utf8_cons, List.length_append, List.length_append]
      omega

lemma length_percentDecode_le (cs : List Char) :
    (percentDecode cs).length ≤ (utf8 cs).length := by
  rcases noEscape_or_length_lt cs with hnone | hlt
  · rw [percentDecode_of_noEscape hnone]
  · exact Nat.le_of_lt hlt

lemma length_percentDecode_pos {cs : List Char} (h : cs ≠ []) : 1 ≤ (percentDecode cs).length := by
  cases cs with
  | nil => exact absurd rfl h
  | cons c cs =>
    rcases escape_cases c cs with ⟨a, b, rest, hi, lo, rfl, rfl, ha, hb⟩ | hstart
    · rw [percentDecode_escape rest ha hb, List.length_cons]
      omega
    · have hpos := length_utf8EncodeChar_pos c
      rw [percentDecode_cons hstart, List.length_append]
      omega

/-- No escape reaches over a character that is not a hex digit. -/
lemma startsEscape_append_iff {d : Char} (hd : Text.hexValue d = none) (c : Char)
    (cs ds : List Char) : StartsEscape (c :: cs ++ d :: ds) ↔ StartsEscape (c :: cs) := by
  have hnone : ¬ (Text.hexValue d).isSome = true := by simp [hd]
  by_cases hc : c = '%'
  · subst hc
    match cs with
    | [] =>
      cases ds with
      | nil => simp [StartsEscape]
      | cons e ds => simp [StartsEscape, hd]
    | [a] => simp [StartsEscape, hd]
    | a :: b :: rest => rfl
  · have hfalse : ∀ l, ¬ StartsEscape (c :: l) := by
      intro l h
      unfold StartsEscape at h
      split at h
      · next heq => exact hc (List.cons.inj heq).1
      · exact h
    exact iff_of_false (hfalse _) (hfalse _)

/-- What is no part of an escape separates: what is before it and behind it is decoded on its own. -/
lemma percentDecode_append_cons {d : Char} (hd : Text.hexValue d = none) (hpercent : d ≠ '%')
    (cs ds : List Char) :
    percentDecode (cs ++ d :: ds) =
      percentDecode cs ++ (String.utf8EncodeChar d ++ percentDecode ds) := by
  induction cs using decode_induction with
  | nil =>
    refine percentDecode_cons ?_
    intro hstart
    unfold StartsEscape at hstart
    split at hstart
    · next heq => exact hpercent (List.cons.inj heq).1
    · exact hstart
  | escape a b rest hi lo ha hb ih =>
    rw [percentDecode_escape rest ha hb, List.cons_append, List.cons_append, List.cons_append,
      percentDecode_escape _ ha hb, ih, List.cons_append]
  | cons c cs hstart ih =>
    have hstart' : ¬ StartsEscape (c :: (cs ++ d :: ds)) :=
      (startsEscape_append_iff hd c cs ds).not.2 hstart
    rw [percentDecode_cons hstart, List.cons_append, percentDecode_cons hstart', ih,
      List.append_assoc]

lemma percentDecode_append_slash (cs ds : List Char) :
    percentDecode (cs ++ '/' :: ds) = percentDecode cs ++ 0x2F :: percentDecode ds :=
  percentDecode_append_cons (by decide) (by decide) cs ds

/-! ### Encoding -/

/-- The path percent-encode set. -/
def inPathSet (c : Char) : Bool :=
  c.toNat ≤ 0x1F || 0x7E < c.toNat || c ∈ [' ', '"', '#', '<', '>', '?', '^', '\x60', '{', '}']

def hexDigit (n : ℕ) : Char := if n < 10 then Char.ofNat (0x30 + n) else Char.ofNat (0x37 + n)

def percentEncodeByte (b : UInt8) : List Char :=
  ['%', hexDigit (b.toNat / 16), hexDigit (b.toNat % 16)]

/-- UTF-8 percent-encoding of a character of a path. -/
def encodeChar (c : Char) : List Char :=
  if inPathSet c then (String.utf8EncodeChar c).flatMap percentEncodeByte else [c]

def encode (cs : List Char) : List Char := cs.flatMap encodeChar

@[simp] lemma encode_nil : encode [] = [] := rfl

lemma encode_cons (c : Char) (cs : List Char) : encode (c :: cs) = encodeChar c ++ encode cs :=
  List.flatMap_cons

lemma encode_append (cs ds : List Char) : encode (cs ++ ds) = encode cs ++ encode ds :=
  List.flatMap_append

lemma encodeChar_of_not_mem {c : Char} (h : inPathSet c = false) : encodeChar c = [c] := by
  rw [encodeChar, h]
  rfl

lemma hexValue_hexDigit {n : ℕ} (h : n < 16) : Text.hexValue (hexDigit n) = some n := by
  have hall : ∀ m < 16, Text.hexValue (hexDigit m) = some m := by decide
  exact hall n h

/-- An encoded byte is decoded. -/
lemma percentDecode_encodeByte (b : UInt8) (cs : List Char) :
    percentDecode (percentEncodeByte b ++ cs) = b :: percentDecode cs := by
  have hlt : b.toNat < 256 := b.toNat_lt
  have hb : 16 * (b.toNat / 16) + b.toNat % 16 = b.toNat := by omega
  rw [percentEncodeByte, List.cons_append, List.cons_append, List.cons_append, List.nil_append,
    percentDecode_escape cs (hexValue_hexDigit (by omega)) (hexValue_hexDigit (by omega)), hb,
    UInt8.ofNat_toNat]

lemma percentDecode_encodeBytes (bs : List UInt8) (cs : List Char) :
    percentDecode (bs.flatMap percentEncodeByte ++ cs) = bs ++ percentDecode cs := by
  induction bs with
  | nil => rfl
  | cons b bs ih =>
    rw [List.flatMap_cons, List.append_assoc, percentDecode_encodeByte, ih, List.cons_append]

/-- What is encoded begins with `%`. -/
lemma encodeChar_eq_percent {c : Char} (h : inPathSet c = true) :
    ∃ cs, encodeChar c = '%' :: cs := by
  rw [encodeChar, if_pos h]
  cases hbytes : String.utf8EncodeChar c with
  | nil => exact absurd hbytes String.utf8EncodeChar_ne_nil
  | cons b bs => exact ⟨_, rfl⟩

/-- The code points of hex digits. -/
lemma toNat_of_hexValue {c : Char} {n : ℕ} (h : Text.hexValue c = some n) :
    48 ≤ c.toNat ∧ c.toNat ≤ 57 ∨ 97 ≤ c.toNat ∧ c.toNat ≤ 102 ∨
      65 ≤ c.toNat ∧ c.toNat ≤ 70 := by
  rw [Text.hexValue] at h
  split_ifs at h with hdigit hlower hupper
  · rw [Char.isDigit, Bool.and_eq_true, decide_eq_true_eq, decide_eq_true_eq] at hdigit
    exact Or.inl ⟨UInt32.le_iff_toNat_le.1 hdigit.1, UInt32.le_iff_toNat_le.1 hdigit.2⟩
  · rw [Bool.and_eq_true, decide_eq_true_eq, decide_eq_true_eq] at hlower
    exact Or.inr (Or.inl ⟨UInt32.le_iff_toNat_le.1 hlower.1, UInt32.le_iff_toNat_le.1 hlower.2⟩)
  · rw [Bool.and_eq_true, decide_eq_true_eq, decide_eq_true_eq] at hupper
    exact Or.inr (Or.inr ⟨UInt32.le_iff_toNat_le.1 hupper.1, UInt32.le_iff_toNat_le.1 hupper.2⟩)

lemma inPathSet_of_hex {c : Char} {n : ℕ} (h : Text.hexValue c = some n) :
    inPathSet c = false := by
  have hrange := toNat_of_hexValue h
  have hlist : c ∉ [' ', '"', '#', '<', '>', '?', '^', '\x60', '{', '}'] := by
    intro hmem
    have hall : ∀ d ∈ [' ', '"', '#', '<', '>', '?', '^', '\x60', '{', '}'],
        ¬ (48 ≤ d.toNat ∧ d.toNat ≤ 57 ∨ 97 ≤ d.toNat ∧ d.toNat ≤ 102 ∨
          65 ≤ d.toNat ∧ d.toNat ≤ 70) := by decide
    exact hall c hmem hrange
  rw [inPathSet, decide_eq_false hlist, Bool.or_false, Bool.or_eq_false_iff]
  constructor
  · exact decide_eq_false (by omega)
  · exact decide_eq_false (by omega)

lemma encode_of_forall {cs : List Char} (h : ∀ c ∈ cs, inPathSet c = false) : encode cs = cs := by
  induction cs with
  | nil => rfl
  | cons c cs ih =>
    rw [encode_cons, encodeChar_of_not_mem (h c List.mem_cons_self),
      ih fun d hd => h d (List.mem_cons_of_mem _ hd), List.singleton_append]

/-- A hex digit in front of an encoded text is one in front of the text itself. -/
lemma encode_eq_cons {cs ds : List Char} {a : Char} (h : encode cs = a :: ds)
    (ha : (Text.hexValue a).isSome = true) : ∃ cs', cs = a :: cs' ∧ encode cs' = ds := by
  cases cs with
  | nil => cases h
  | cons c cs' =>
    rw [encode_cons] at h
    cases hset : inPathSet c with
    | true =>
      obtain ⟨rest, hrest⟩ := encodeChar_eq_percent hset
      rw [hrest, List.cons_append] at h
      obtain ⟨rfl, -⟩ := List.cons.inj h
      exact absurd ha (by decide)
    | false =>
      rw [encodeChar_of_not_mem hset, List.singleton_append] at h
      obtain ⟨rfl, rfl⟩ := List.cons.inj h
      exact ⟨cs', rfl, rfl⟩

/-- Encoding makes no escapes in front of a character that it leaves alone. -/
lemma startsEscape_of_encode {c : Char} {cs : List Char} (h : StartsEscape (c :: encode cs)) :
    StartsEscape (c :: cs) := by
  rcases escape_cases c (encode cs) with ⟨a, b, rest, hi, lo, rfl, heq, ha, hb⟩ | hstart
  · obtain ⟨cs₁, rfl, heq₁⟩ := encode_eq_cons heq (by rw [ha]; rfl)
    obtain ⟨cs₂, rfl, -⟩ := encode_eq_cons heq₁ (by rw [hb]; rfl)
    exact ⟨by rw [ha]; rfl, by rw [hb]; rfl⟩
  · exact absurd h hstart

/-- **Decoding does not see the encoding.** -/
lemma percentDecode_encode (cs : List Char) : percentDecode (encode cs) = percentDecode cs := by
  induction cs using decode_induction with
  | nil => rfl
  | escape a b rest hi lo ha hb ih =>
    have hpercent : inPathSet '%' = false := by decide
    rw [encode_cons, encode_cons, encode_cons, encodeChar_of_not_mem hpercent,
      encodeChar_of_not_mem (inPathSet_of_hex ha), encodeChar_of_not_mem (inPathSet_of_hex hb)]
    simp only [List.singleton_append]
    rw [percentDecode_escape _ ha hb, percentDecode_escape rest ha hb, ih]
  | cons c cs hstart ih =>
    rw [encode_cons, percentDecode_cons hstart]
    cases hset : inPathSet c with
    | true => rw [encodeChar, if_pos hset, percentDecode_encodeBytes, ih]
    | false =>
      rw [encodeChar_of_not_mem hset, List.singleton_append,
        percentDecode_cons fun h => hstart (startsEscape_of_encode h), ih]

end Url
