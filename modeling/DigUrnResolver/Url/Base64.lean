/-
# Base64

The standard alphabet with padding, and the forgiving decoder that web platforms read it with.
Both go through sextets, that is, numbers below 64: three octets are four of them, and a group of
one or two octets at the end is filled up with zero bits.  The decoder gives back what was
encoded.
-/
import Mathlib.Algebra.Ring.Nat
import Mathlib.Data.List.DropRight

namespace Base64

/-! ### The alphabet -/

/-- The character of a sextet. -/
def digit (n : ℕ) : Char :=
  if n < 26 then Char.ofNat (65 + n)
  else if n < 52 then Char.ofNat (71 + n)
  else if n < 62 then Char.ofNat (n - 4)
  else if n = 62 then '+'
  else '/'

/-- The sextet of a character of the alphabet. -/
def value (c : Char) : Option ℕ :=
  if 'A' ≤ c && c ≤ 'Z' then some (c.toNat - 65)
  else if 'a' ≤ c && c ≤ 'z' then some (c.toNat - 71)
  else if '0' ≤ c && c ≤ '9' then some (c.toNat + 4)
  else if c = '+' then some 62
  else if c = '/' then some 63
  else none

lemma value_digit {n : ℕ} (h : n < 64) : value (digit n) = some n := by
  have htable : ∀ n < 64, value (digit n) = some n := by decide +kernel
  exact htable n h

lemma digit_ne_pad {n : ℕ} (h : n < 64) : digit n ≠ '=' := by
  have htable : ∀ n < 64, digit n ≠ '=' := by decide +kernel
  exact htable n h

/-! ### Sextets -/

/-- The sextets of a sequence of octets. -/
def sextets : List UInt8 → List ℕ
  | [] => []
  | [a] => [a.toNat / 4, a.toNat % 4 * 16]
  | [a, b] => [a.toNat / 4, a.toNat % 4 * 16 + b.toNat / 16, b.toNat % 16 * 4]
  | a :: b :: c :: rest =>
    a.toNat / 4 :: (a.toNat % 4 * 16 + b.toNat / 16) :: (b.toNat % 16 * 4 + c.toNat / 64) ::
      c.toNat % 64 :: sextets rest

/-- The octets of a sequence of sextets.  What the last group has beyond whole octets is dropped,
and a group of one sextet is none. -/
def octets : List ℕ → Option (List UInt8)
  | [] => some []
  | [_] => none
  | [x, y] => some [UInt8.ofNat (x * 4 + y / 16)]
  | [x, y, z] => some [UInt8.ofNat (x * 4 + y / 16), UInt8.ofNat (y % 16 * 16 + z / 4)]
  | x :: y :: z :: w :: rest => (octets rest).map fun bytes =>
      UInt8.ofNat (x * 4 + y / 16) :: UInt8.ofNat (y % 16 * 16 + z / 4) ::
        UInt8.ofNat (z % 4 * 64 + w) :: bytes

lemma ofNat_eq {a : UInt8} {n : ℕ} (h : n = a.toNat) : UInt8.ofNat n = a := by
  rw [h, UInt8.ofNat_toNat]

/-- Three octets go through four sextets. -/
lemma octets_sextets (bytes : List UInt8) : octets (sextets bytes) = some bytes := by
  induction bytes using sextets.induct with
  | case1 => rfl
  | case2 a =>
    have ha := a.toNat_lt
    rw [sextets, octets, ofNat_eq (a := a) (by omega)]
  | case3 a b =>
    have ha := a.toNat_lt
    have hb := b.toNat_lt
    rw [sextets, octets, ofNat_eq (a := a) (by omega), ofNat_eq (a := b) (by omega)]
  | case4 a b c rest ih =>
    have ha := a.toNat_lt
    have hb := b.toNat_lt
    have hc := c.toNat_lt
    rw [sextets, octets, ih, ofNat_eq (a := a) (by omega), ofNat_eq (a := b) (by omega),
      ofNat_eq (a := c) (by omega)]
    rfl

lemma sextets_lt (bytes : List UInt8) : ∀ n ∈ sextets bytes, n < 64 := by
  induction bytes using sextets.induct with
  | case1 => simp [sextets]
  | case2 a =>
    have ha := a.toNat_lt
    simp only [sextets, List.forall_mem_cons]
    exact ⟨by omega, by omega, by simp⟩
  | case3 a b =>
    have ha := a.toNat_lt
    have hb := b.toNat_lt
    simp only [sextets, List.forall_mem_cons]
    exact ⟨by omega, by omega, by omega, by simp⟩
  | case4 a b c rest ih =>
    have ha := a.toNat_lt
    have hb := b.toNat_lt
    have hc := c.toNat_lt
    simp only [sextets, List.forall_mem_cons]
    exact ⟨by omega, by omega, by omega, by omega, ih⟩

/-! ### Texts -/

/-- What fills the last group up. -/
def padding (bytes : List UInt8) : List Char := List.replicate ((3 - bytes.length % 3) % 3) '='

/-- Encoding with padding. -/
def encode (bytes : List UInt8) : List Char := (sextets bytes).map digit ++ padding bytes

/-- A pad at the end is taken away. -/
def withoutPad (cs : List Char) : List Char := if cs.getLast? = some '=' then cs.dropLast else cs

/-- ASCII whitespace. -/
def isBlank (c : Char) : Bool := c ∈ ['\t', '\n', '\x0c', '\r', ' ']

/-- Forgiving decoding: blanks do not count, and the padding of whole groups may be left out. -/
def decode (cs : List Char) : Option (List UInt8) :=
  let text := cs.filter fun c => !isBlank c
  let body := if text.length % 4 = 0 then withoutPad (withoutPad text) else text
  (body.mapM value).bind octets

lemma length_encode (bytes : List UInt8) : (encode bytes).length % 4 = 0 := by
  rw [encode, padding, List.length_append, List.length_map, List.length_replicate]
  induction bytes using sextets.induct with
  | case1 => rfl
  | case2 a => rw [sextets, List.length_cons, List.length_singleton, List.length_singleton]
  | case3 a b => simp only [sextets, List.length_cons, List.length_nil]
  | case4 a b c rest ih =>
    simp only [sextets, List.length_cons]
    omega

lemma withoutPad_concat (cs : List Char) : withoutPad (cs ++ ['=']) = cs := by
  rw [withoutPad, List.getLast?_concat, if_pos rfl, List.dropLast_concat]

lemma withoutPad_of_notMem {cs : List Char} (h : '=' ∉ cs) : withoutPad cs = cs := by
  rw [withoutPad, if_neg]
  intro hlast
  exact h (List.mem_of_getLast? hlast)

lemma withoutPad_append {cs : List Char} {k : ℕ} (hcs : '=' ∉ cs) (hk : k ≤ 2) :
    withoutPad (withoutPad (cs ++ List.replicate k '=')) = cs := by
  obtain rfl | rfl | rfl : k = 0 ∨ k = 1 ∨ k = 2 := by omega
  · rw [List.replicate_zero, List.append_nil, withoutPad_of_notMem hcs, withoutPad_of_notMem hcs]
  · rw [List.replicate_one, withoutPad_concat, withoutPad_of_notMem hcs]
  · rw [List.replicate_succ', List.replicate_one, ← List.append_assoc, withoutPad_concat,
      withoutPad_concat]

/-- What holds of the alphabet and of the pad holds of every character of an encoded text. -/
lemma forall_mem_encode {P : Char → Prop} (hdigit : ∀ n < 64, P (digit n)) (hpad : P '=')
    (bytes : List UInt8) : ∀ c ∈ encode bytes, P c := by
  intro c hc
  rcases List.mem_append.1 hc with hc | hc
  · obtain ⟨n, hn, rfl⟩ := List.mem_map.1 hc
    exact hdigit n (sextets_lt bytes n hn)
  · obtain rfl := List.eq_of_mem_replicate hc
    exact hpad

lemma mapM_value_digit {ns : List ℕ} (h : ∀ n ∈ ns, n < 64) :
    (ns.map digit).mapM value = some ns := by
  induction ns with
  | nil => rfl
  | cons n ns ih =>
    obtain ⟨hn, hns⟩ := List.forall_mem_cons.1 h
    rw [List.map_cons, List.mapM_cons, value_digit hn, ih hns]
    rfl

/-- **Decoding gives back what was encoded.** -/
theorem decode_encode (bytes : List UInt8) : decode (encode bytes) = some bytes := by
  have hblank : (encode bytes).filter (fun c => !isBlank c) = encode bytes :=
    List.filter_eq_self.2 (forall_mem_encode (by decide +kernel) (by decide) bytes)
  have hdigits : '=' ∉ (sextets bytes).map digit := by
    intro hc
    obtain ⟨n, hn, hdigit⟩ := List.mem_map.1 hc
    exact digit_ne_pad (sextets_lt bytes n hn) hdigit
  have hbody : withoutPad (withoutPad (encode bytes)) = (sextets bytes).map digit :=
    withoutPad_append hdigits (by omega)
  simp only [decode, hblank, length_encode, if_true, hbody]
  rw [mapM_value_digit (sextets_lt bytes), Option.bind_some, octets_sextets]

lemma mem_withoutPad {cs : List Char} {c : Char} (hc : c ≠ '=') (h : c ∈ cs) :
    c ∈ withoutPad cs := by
  rw [withoutPad]
  split_ifs with hlast
  · rw [List.getLast?_eq_some_iff] at hlast
    obtain ⟨front, rfl⟩ := hlast
    rw [List.dropLast_concat]
    exact (List.mem_append.1 h).resolve_right fun hpad => hc (List.mem_singleton.1 hpad)
  · exact h

/-- A text with a foreign character in it does not decode. -/
lemma decode_of_mem {cs : List Char} {c : Char} (h : c ∈ cs) (hvalue : value c = none)
    (hblank : isBlank c = false) (hpad : c ≠ '=') : decode cs = none := by
  have htext : c ∈ cs.filter fun c => !isBlank c := List.mem_filter.2 ⟨h, by simp [hblank]⟩
  have hnone : ∀ body : List Char, c ∈ body → (body.mapM value).bind octets = none := by
    intro body hmem
    suffices hmap : body.mapM value = none by rw [hmap, Option.bind_none]
    induction body with
    | nil => exact absurd hmem List.not_mem_nil
    | cons d body ih =>
      rw [List.mapM_cons]
      rcases List.mem_cons.1 hmem with rfl | hmem
      · rw [hvalue]
        rfl
      · rw [ih hmem]
        cases value d <;> rfl
  rw [decode]
  split_ifs
  · exact hnone _ (mem_withoutPad hpad (mem_withoutPad hpad htext))
  · exact hnone _ htext

example : encode [0x4d, 0x61] = "TWE=".toList ∧ decode "TWE".toList = some [0x4d, 0x61] := by
  decide +kernel

end Base64
