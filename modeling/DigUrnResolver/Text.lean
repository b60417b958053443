/-
# Text

The functions of Rust's `str` that the program uses, on Lean's strings, and the splitting
lemmas that separator-joined texts are decoded with.  Everything is reduced to lists of
characters, where the reasoning takes place.
-/
import Mathlib.Algebra.Ring.Nat
import Mathlib.Data.List.DropRight

namespace Text

/-! ### Characters -/

-- a statement about the characters of a text is decided along the text, not over all characters
instance (priority := high) decidableForallMem (p : Char → Prop) [DecidablePred p]
    (cs : List Char) : Decidable (∀ c ∈ cs, p c) := List.decidableBAll p cs

/-- `char::is_whitespace`: the Unicode property `White_Space`. -/
def isWhitespace (c : Char) : Bool :=
  (9 ≤ c.toNat && c.toNat ≤ 13) || c.toNat == 0x20 || c.toNat == 0x85 || c.toNat == 0xA0 ||
    c.toNat == 0x1680 || (0x2000 ≤ c.toNat && c.toNat ≤ 0x200A) || c.toNat == 0x2028 ||
    c.toNat == 0x2029 || c.toNat == 0x202F || c.toNat == 0x205F || c.toNat == 0x3000

/-- A decimal digit, or a hex digit in lower case. -/
def isLowerHex (c : Char) : Bool := c.isDigit || ('a' ≤ c && c ≤ 'f')

/-- A hex digit in either case. -/
def isHexDigit (c : Char) : Bool := c.isDigit || ('a' ≤ c && c ≤ 'f') || ('A' ≤ c && c ≤ 'F')

lemma ne_colon_of_isLowerHex {c : Char} (h : isLowerHex c = true) : c ≠ ':' := by
  rintro rfl
  revert h
  decide

lemma ne_colon_of_isHexDigit {c : Char} (h : isHexDigit c = true) : c ≠ ':' := by
  rintro rfl
  revert h
  decide

/-- The value of a hex digit. -/
def hexValue (c : Char) : Option ℕ :=
  if c.isDigit then some (c.toNat - 48)
  else if 'a' ≤ c && c ≤ 'f' then some (c.toNat - 87)
  else if 'A' ≤ c && c ≤ 'F' then some (c.toNat - 55)
  else none

lemma exists_hexValue {c : Char} (h : isLowerHex c = true) : ∃ n, hexValue c = some n := by
  rw [isLowerHex, Bool.or_eq_true] at h
  rw [hexValue]
  rcases h with h | h
  · exact ⟨_, if_pos h⟩
  · by_cases hdigit : c.isDigit = true
    · exact ⟨_, if_pos hdigit⟩
    · exact ⟨_, (if_neg hdigit).trans (if_pos h)⟩

/-! ### Functions of `str` -/

/-- `str::trim`. -/
def trim (s : String) : String :=
  String.ofList ((s.toList.dropWhile isWhitespace).rdropWhile isWhitespace)

/-- `str::trim_start_matches`, for a character. -/
def trimStartMatches (c : Char) (s : String) : String := String.ofList (s.toList.dropWhile (· == c))

/-- `str::trim_end_matches`, for a character. -/
def trimEndMatches (c : Char) (s : String) : String := String.ofList (s.toList.rdropWhile (· == c))

/-- `str::to_ascii_lowercase`. -/
def toAsciiLowercase (s : String) : String := String.ofList (s.toList.map Char.toLower)

/-- `str::eq_ignore_ascii_case`. -/
def eqIgnoreAsciiCase (s t : String) : Bool :=
  s.toList.map Char.toLower == t.toList.map Char.toLower

/-- `str::split` at a character: the pieces, of which there is always one. -/
def split (c : Char) (s : String) : List String := (s.toList.splitOn c).map String.ofList

/-- The first piece of `str::split`. -/
def splitFirst (c : Char) (s : String) : String := (split c s).headD s

/-- The first piece of `str::rsplit`, which is the last one of `str::split`. -/
def rsplitFirst (c : Char) (s : String) : String := (split c s).getLastD s

/-- `str::replace`, of a character by a text. -/
def replace (c : Char) (new s : String) : String :=
  String.ofList (s.toList.flatMap fun a => if a = c then new.toList else [a])

/-- `str::parse::<u32>`: an optional `+` and at least one decimal digit, below `2 ^ 32`. -/
def parseU32 (s : String) : Option UInt32 :=
  let digits : List Char := match s.toList with
    | '+' :: rest => rest
    | cs => cs
  let value : ℕ := digits.foldl (fun n c => 10 * n + (c.toNat - 48)) 0
  if digits ≠ [] ∧ digits.all Char.isDigit ∧ value < 2 ^ 32 then some (UInt32.ofNat value)
  else none

lemma toList_replace (c : Char) (new s : String) : (replace c new s).toList =
    s.toList.flatMap fun a => if a = c then new.toList else [a] := String.toList_ofList

/-! ### Case -/

lemma toLower_toLower (c : Char) : c.toLower.toLower = c.toLower := by
  by_cases h : c.val ≥ 'A'.val ∧ c.val ≤ 'Z'.val
  · have hval : c.toLower.val = c.val + ('a'.val - 'A'.val) :=
      congrArg Char.val (dif_pos h)
    -- a letter in lower case lies behind those in upper case
    have hlower : ¬ (c.toLower.val ≥ 'A'.val ∧ c.toLower.val ≤ 'Z'.val) := by
      rw [hval]
      generalize c.val = n at h
      have hge := UInt32.le_iff_toNat_le.1 h.1
      have hle := UInt32.le_iff_toNat_le.1 h.2
      simp only [ge_iff_le, UInt32.le_iff_toNat_le, UInt32.toNat_add]
      simp at hge hle ⊢
      omega
    exact dif_neg hlower
  · have hc : c.toLower = c := dif_neg h
    rw [hc, hc]

/-- Lowercase hex digits are in lower case. -/
lemma toLower_of_isLowerHex {c : Char} (h : isLowerHex c = true) : c.toLower = c := by
  refine dif_neg ?_
  rintro ⟨hge, hle⟩
  rw [isLowerHex, Bool.or_eq_true, Char.isDigit, Bool.and_eq_true, Bool.and_eq_true,
    decide_eq_true_eq, decide_eq_true_eq, decide_eq_true_eq, decide_eq_true_eq] at h
  rcases h with ⟨-, h⟩ | ⟨h, -⟩
  · exact absurd (UInt32.le_trans hge h) (by decide)
  · exact absurd (UInt32.le_trans h hle) (by decide)

/-- A comparison up to case does not see whether a side is in lower case. -/
lemma eqIgnoreAsciiCase_toAsciiLowercase_left (s t : String) :
    eqIgnoreAsciiCase (toAsciiLowercase s) t = eqIgnoreAsciiCase s t := by
  have hlower : (toAsciiLowercase s).toList.map Char.toLower = s.toList.map Char.toLower := by
    rw [toAsciiLowercase, String.toList_ofList, List.map_map]
    exact List.map_congr_left fun c _ => toLower_toLower c
  rw [eqIgnoreAsciiCase, eqIgnoreAsciiCase, hlower]

/-- Texts that are equal up to case are equal in lower case. -/
lemma toAsciiLowercase_eq_of_eqIgnoreAsciiCase {s t u : String}
    (hs : eqIgnoreAsciiCase s u = true) (ht : eqIgnoreAsciiCase t u = true) :
    toAsciiLowercase s = toAsciiLowercase t := by
  rw [eqIgnoreAsciiCase, beq_iff_eq] at hs ht
  rw [toAsciiLowercase, toAsciiLowercase, hs, ht]

/-! ### Trimming -/

lemma toList_trim (s : String) :
    (trim s).toList = (s.toList.dropWhile isWhitespace).rdropWhile isWhitespace := by
  rw [trim, String.toList_ofList]

/-- There is nothing to trim in a text without whitespace. -/
lemma trim_of_forall {s : String} (h : ∀ c ∈ s.toList, isWhitespace c = false) : trim s = s := by
  have hdrop : ∀ l : List Char, (∀ c ∈ l, isWhitespace c = false) →
      l.dropWhile isWhitespace = l := by
    intro l hl
    cases l with
    | nil => rfl
    | cons c l => rw [List.dropWhile_cons_of_neg (by simp [hl c List.mem_cons_self])]
  rw [← String.toList_inj, toList_trim, hdrop _ h, List.rdropWhile, hdrop, List.reverse_reverse]
  intro c hc
  exact h c (List.mem_reverse.1 hc)

/-- Trimming drops whitespace only. -/
lemma mem_trim_of_not_isWhitespace {c : Char} {s : String} (hc : isWhitespace c = false)
    (h : c ∈ s.toList) : c ∈ (trim s).toList := by
  have hkeep : ∀ l : List Char, c ∈ l → c ∈ l.dropWhile isWhitespace := by
    intro l hl
    rw [← List.takeWhile_append_dropWhile (p := isWhitespace) (l := l), List.mem_append] at hl
    rcases hl with hl | hl
    · exact absurd (List.mem_takeWhile_imp hl) (by simp [hc])
    · exact hl
  rw [toList_trim, List.rdropWhile, List.mem_reverse]
  exact hkeep _ (List.mem_reverse.2 (hkeep _ h))

lemma trim_ofList_append_left {a x : List Char} (ha : ∀ c ∈ a, isWhitespace c = true) :
    trim (String.ofList (a ++ x)) = trim (String.ofList x) := by
  rw [trim, trim, String.toList_ofList, String.toList_ofList, List.dropWhile_append_of_pos ha]

lemma trim_ofList_append_right {x b : List Char} (hb : ∀ c ∈ b, isWhitespace c = true) :
    trim (String.ofList (x ++ b)) = trim (String.ofList x) := by
  rw [trim, trim, String.toList_ofList, String.toList_ofList, List.dropWhile_append]
  split_ifs with hnil
  · rw [List.isEmpty_iff.1 hnil, List.dropWhile_eq_nil_iff.2 hb]
  · have hrev : ∀ c ∈ b.reverse, isWhitespace c = true := fun c hc => hb c (List.mem_reverse.1 hc)
    rw [List.rdropWhile, List.rdropWhile, List.reverse_append, List.dropWhile_append_of_pos hrev]

/-- A text is what trimming leaves of it, between two runs of whitespace. -/
lemma exists_toList_eq_trim (s : String) : ∃ a b : List Char, s.toList = a ++ (trim s).toList ++ b ∧
    (∀ c ∈ a, isWhitespace c = true) ∧ ∀ c ∈ b, isWhitespace c = true := by
  refine ⟨s.toList.takeWhile isWhitespace,
    (s.toList.dropWhile isWhitespace).rtakeWhile isWhitespace, ?_,
    fun c hc => List.mem_takeWhile_imp hc, fun c hc => List.mem_rtakeWhile_imp hc⟩
  rw [toList_trim, List.append_assoc, List.rdropWhile_append_rtakeWhile,
    List.takeWhile_append_dropWhile]

/-- Nothing is left exactly of a text of whitespace. -/
lemma trim_eq_empty_iff {s : String} : trim s = "" ↔ ∀ c ∈ s.toList, isWhitespace c = true := by
  constructor
  · intro hempty c hc
    by_contra hkeep
    have hmem := mem_trim_of_not_isWhitespace (Bool.eq_false_iff.2 hkeep) hc
    rw [hempty] at hmem
    exact List.not_mem_nil hmem
  · intro hblank
    rw [← String.toList_inj, toList_trim, List.dropWhile_eq_nil_iff.2 hblank]
    rfl

lemma toList_trimEndMatches (c : Char) (s : String) :
    (trimEndMatches c s).toList = s.toList.rdropWhile (· == c) := by
  rw [trimEndMatches, String.toList_ofList]

/-- Trimming at the end twice is trimming once. -/
lemma trimEndMatches_idem (c : Char) (s : String) :
    trimEndMatches c (trimEndMatches c s) = trimEndMatches c s := by
  rw [← String.toList_inj, toList_trimEndMatches, toList_trimEndMatches, List.rdropWhile_idempotent]

/-! ### Decoding at a separator -/

variable {α : Type}

/-- A word with a separator behind it is determined when it does not contain the separator. -/
lemma append_cons_inj_of_notMem_left {c : α} {u v x y : List α} (hu : c ∉ u) (hv : c ∉ v)
    (h : u ++ c :: x = v ++ c :: y) : u = v ∧ x = y := by
  induction u generalizing v with
  | nil =>
    cases v with
    | nil => simpa using h
    | cons b v' =>
      simp only [List.nil_append, List.cons_append, List.cons.injEq] at h
      exact absurd (by simp [h.1]) hv
  | cons a u' ih =>
    cases v with
    | nil =>
      simp only [List.nil_append, List.cons_append, List.cons.injEq] at h
      exact absurd (by simp [h.1]) hu
    | cons b v' =>
      simp only [List.cons_append, List.cons.injEq] at h
      simp only [List.mem_cons, not_or] at hu hv
      obtain ⟨h₁, h₂⟩ := ih hu.2 hv.2 h.2
      exact ⟨by rw [h.1, h₁], h₂⟩

/-- The same from the right: what follows the last separator is determined. -/
lemma append_cons_inj_of_notMem_right {c : α} {u v x y : List α} (hx : c ∉ x) (hy : c ∉ y)
    (h : u ++ c :: x = v ++ c :: y) : u = v ∧ x = y := by
  have hr : x.reverse ++ c :: u.reverse = y.reverse ++ c :: v.reverse := by
    simpa using congrArg List.reverse h
  obtain ⟨h₁, h₂⟩ := append_cons_inj_of_notMem_left (by simpa using hx) (by simpa using hy) hr
  exact ⟨List.reverse_injective h₂, List.reverse_injective h₁⟩

/-- A list that contains a separator is cut at the last one. -/
lemma exists_last_of_mem {c : α} {l : List α} (h : c ∈ l) : ∃ u x, l = u ++ c :: x ∧ c ∉ x := by
  obtain ⟨u, x, hsplit, hu⟩ := List.eq_append_cons_of_mem (List.mem_reverse.2 h)
  refine ⟨x.reverse, u.reverse, ?_, mt List.mem_reverse.1 hu⟩
  rw [← List.reverse_reverse l, hsplit, List.reverse_append, List.reverse_cons, List.append_assoc]
  rfl

/-- Whitespace at the two ends of a text does not matter to the trimmed pieces of it. -/
lemma map_trim_split_trim {c : Char} (hc : isWhitespace c = false) (s : String) :
    (split c (trim s)).map trim = (split c s).map trim := by
  have hfree : ∀ {a : List Char}, (∀ d ∈ a, isWhitespace d = true) → c ∉ a := by
    intro a ha hmem
    cases hc.symm.trans (ha c hmem)
  obtain ⟨a, b, hs, ha, hb⟩ := exists_toList_eq_trim s
  rw [split, split, hs]
  generalize (trim s).toList = m
  -- what is behind the last separator, and what is in front of the first one
  have hright : ((m ++ b).splitOn c).map (trim ∘ String.ofList) =
      (m.splitOn c).map (trim ∘ String.ofList) := by
    by_cases hmem : c ∈ m
    · obtain ⟨u, x, rfl, hx⟩ := exists_last_of_mem hmem
      have hxb : c ∉ x ++ b := by
        rw [List.mem_append]
        exact not_or.2 ⟨hx, hfree hb⟩
      rw [List.append_assoc, List.cons_append, List.splitOn_append_cons_self,
        List.splitOn_append_cons_self, List.splitOn_eq_singleton hxb, List.splitOn_eq_singleton hx,
        List.map_append, List.map_append]
      exact congrArg (_ ++ [·]) (trim_ofList_append_right hb)
    · have hmb : c ∉ m ++ b := by
        rw [List.mem_append]
        exact not_or.2 ⟨hmem, hfree hb⟩
      rw [List.splitOn_eq_singleton hmb, List.splitOn_eq_singleton hmem]
      exact congrArg ([·]) (trim_ofList_append_right hb)
  have hleft : ∀ l : List Char, ((a ++ l).splitOn c).map (trim ∘ String.ofList) =
      (l.splitOn c).map (trim ∘ String.ofList) := by
    intro l
    by_cases hmem : c ∈ l
    · obtain ⟨u, x, rfl, hu⟩ := List.eq_append_cons_of_mem hmem
      have hau : c ∉ a ++ u := by
        rw [List.mem_append]
        exact not_or.2 ⟨hfree ha, hu⟩
      rw [← List.append_assoc, List.splitOn_append_cons_self_of_not_mem hau,
        List.splitOn_append_cons_self_of_not_mem hu, List.map_cons, List.map_cons]
      exact congrArg (· :: _) (trim_ofList_append_left ha)
    · have hal : c ∉ a ++ l := by
        rw [List.mem_append]
        exact not_or.2 ⟨hfree ha, hmem⟩
      rw [List.splitOn_eq_singleton hal, List.splitOn_eq_singleton hmem]
      exact congrArg ([·]) (trim_ofList_append_left ha)
  rw [List.map_map, List.map_map, List.append_assoc, hleft, hright]

end Text
