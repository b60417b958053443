/-
# The header of the chunk lengths

A node sends the lengths of the chunks as decimal numbers with commas in between.  The parser of
the header reads such a text back, number by number, and accepts nothing but the texts of this
grammar, up to whitespace around the pieces and a plus sign in front of a number.
-/
import DigUrnResolver.Source.Node

namespace Text

/-! ### Decimal numbers -/

lemma isDigit_of_mem_repr {c : Char} {n : ℕ} (h : c ∈ n.repr.toList) : c.isDigit = true := by
  rw [Nat.toList_repr] at h
  exact Nat.isDigit_of_mem_toDigits (by decide) (by decide) h

lemma isWhitespace_of_isDigit {c : Char} (h : c.isDigit = true) : isWhitespace c = false := by
  rw [Char.isDigit, Bool.and_eq_true, decide_eq_true_eq, decide_eq_true_eq] at h
  have hge : 48 ≤ c.toNat := UInt32.le_iff_toNat_le.1 h.1
  have hle : c.toNat ≤ 57 := UInt32.le_iff_toNat_le.1 h.2
  simp only [isWhitespace, Bool.or_eq_false_iff, Bool.and_eq_false_iff, decide_eq_false_iff_not,
    beq_eq_false_iff_ne]
  omega

/-- Without a sign, all characters count. -/
lemma parseU32_of_digits {s : String} (hne : s.toList ≠ [])
    (hdigits : ∀ c ∈ s.toList, c.isDigit = true)
    (hlt : Nat.ofDigitChars 10 s.toList 0 < 2 ^ 32) :
    parseU32 s = some (UInt32.ofNat (Nat.ofDigitChars 10 s.toList 0)) := by
  rw [parseU32]
  generalize s.toList = cs at hne hdigits hlt
  split
  · have hplus := hdigits '+' List.mem_cons_self
    exact absurd hplus (by decide)
  · exact if_pos ⟨hne, List.all_eq_true.2 hdigits, hlt⟩

/-- A `u32` is read back from its decimal text. -/
lemma parseU32_repr (n : UInt32) : parseU32 n.toNat.repr = some n := by
  have hvalue : Nat.ofDigitChars 10 n.toNat.repr.toList 0 = n.toNat := by
    rw [Nat.toList_repr, Nat.ofDigitChars_ten_toDigits]
  rw [parseU32_of_digits, hvalue, UInt32.ofNat_toNat]
  · rw [Nat.toList_repr]
    exact Nat.toDigits_ne_nil
  · intro c hc
    exact isDigit_of_mem_repr hc
  · rw [hvalue]
    exact n.toNat_lt

/-- The texts of a `u32`: an optional `+`, then decimal digits, at least one, of this value. -/
def IsU32 (s : String) (n : UInt32) : Prop :=
  ∃ digits : List Char, digits ≠ [] ∧ (∀ c ∈ digits, c.isDigit = true) ∧
    (s.toList = digits ∨ s.toList = '+' :: digits) ∧ Nat.ofDigitChars 10 digits 0 = n.toNat

/-- The value of the digits is what is parsed, if there are any and they fit. -/
lemma parseDigits_eq_some_iff {digits : List Char} {n : UInt32} :
    (if digits ≠ [] ∧ digits.all Char.isDigit ∧ Nat.ofDigitChars 10 digits 0 < 2 ^ 32 then
        some (UInt32.ofNat (Nat.ofDigitChars 10 digits 0)) else none) = some n ↔
      digits ≠ [] ∧ (∀ c ∈ digits, c.isDigit = true) ∧
        Nat.ofDigitChars 10 digits 0 = n.toNat := by
  rw [Option.ite_none_right_eq_some, List.all_eq_true, Option.some.injEq]
  constructor
  · rintro ⟨⟨hne, hdigits, hlt⟩, rfl⟩
    exact ⟨hne, hdigits, (UInt32.toNat_ofNat_of_lt' hlt).symm⟩
  · rintro ⟨hne, hdigits, hvalue⟩
    rw [hvalue]
    exact ⟨⟨hne, hdigits, n.toNat_lt⟩, UInt32.ofNat_toNat⟩

/-- **The parser of numbers accepts its grammar.** -/
lemma parseU32_eq_some_iff {s : String} {n : UInt32} : parseU32 s = some n ↔ IsU32 s n := by
  have hplus : ('+').isDigit = false := rfl
  rw [parseU32, IsU32]
  generalize s.toList = cs
  split
  · next digits =>
    refine parseDigits_eq_some_iff.trans ⟨?_, ?_⟩
    · rintro ⟨hne, hdigits, hvalue⟩
      exact ⟨digits, hne, hdigits, Or.inr rfl, hvalue⟩
    · rintro ⟨digits', hne, hdigits, heq | heq, hvalue⟩
      · -- the sign is not a digit
        have hdigit := hdigits '+' (heq ▸ List.mem_cons_self)
        cases hplus.symm.trans hdigit
      · obtain rfl := (List.cons.inj heq).2
        exact ⟨hne, hdigits, hvalue⟩
  · next hsign =>
    refine parseDigits_eq_some_iff.trans ⟨?_, ?_⟩
    · rintro ⟨hne, hdigits, hvalue⟩
      exact ⟨cs, hne, hdigits, Or.inl rfl, hvalue⟩
    · rintro ⟨digits', hne, hdigits, heq | heq, hvalue⟩
      · subst heq
        exact ⟨hne, hdigits, hvalue⟩
      · exact absurd heq (hsign digits')

end Text

namespace DigUrnResolver.Node

/-! ### Lists of lengths -/

/-- The decimal texts of the lengths. -/
def decimals (lens : List UInt32) : List (List Char) := lens.map fun n => n.toNat.repr.toList

/-- The header that a node sends. -/
def joinedLens (lens : List UInt32) : String := String.ofList ([','].intercalate (decimals lens))

lemma isDigit_of_mem_decimals {lens : List UInt32} {cs : List Char} {c : Char}
    (hcs : cs ∈ decimals lens) (hc : c ∈ cs) : c.isDigit = true := by
  obtain ⟨n, -, rfl⟩ := List.mem_map.1 hcs
  exact Text.isDigit_of_mem_repr hc

lemma comma_notMem_decimals {lens : List UInt32} {cs : List Char} (hcs : cs ∈ decimals lens) :
    ',' ∉ cs := by
  intro hc
  exact absurd (isDigit_of_mem_decimals hcs hc) (by decide)

/-- The header is made of digits and commas. -/
lemma mem_joinedLens {lens : List UInt32} {c : Char} (h : c ∈ (joinedLens lens).toList) :
    c = ',' ∨ c.isDigit = true := by
  rw [joinedLens, String.toList_ofList] at h
  have hdigits : ∀ cs ∈ decimals lens, ∀ d ∈ cs, d.isDigit = true :=
    fun cs hcs d hd => isDigit_of_mem_decimals hcs hd
  generalize decimals lens = texts at h hdigits
  induction texts with
  | nil => exact absurd h List.not_mem_nil
  | cons cs rest ih =>
    cases rest with
    | nil => exact Or.inr (hdigits cs List.mem_cons_self c (by simpa using h))
    | cons cs' rest =>
      rw [List.intercalate_cons_cons, List.append_assoc, List.mem_append, List.mem_append] at h
      rcases h with h | h | h
      · exact Or.inr (hdigits cs List.mem_cons_self c h)
      · exact Or.inl (List.mem_singleton.1 h)
      · exact ih h fun ds hds => hdigits ds (List.mem_cons_of_mem _ hds)

lemma trim_joinedLens (lens : List UInt32) : Text.trim (joinedLens lens) = joinedLens lens := by
  refine Text.trim_of_forall ?_
  intro c hc
  rcases mem_joinedLens hc with rfl | hdigit
  · decide
  · exact Text.isWhitespace_of_isDigit hdigit

/-- **The lengths are read back.** -/
lemma parseChunkLens_joinedLens (lens : List UInt32) :
    parseChunkLens (some (joinedLens lens)) = .ok lens := by
  rw [parseChunkLens, Option.map_some, trim_joinedLens]
  cases lens with
  | nil => rfl
  | cons n rest =>
    have hsplit : Text.split ',' (joinedLens (n :: rest)) =
        (n :: rest).map fun m => m.toNat.repr := by
      rw [Text.split, joinedLens, String.toList_ofList, List.splitOn_intercalate ',']
      · rw [decimals, List.map_map]
        refine List.map_congr_left ?_
        intro m _
        exact String.ofList_toList
      · intro cs hcs
        exact comma_notMem_decimals hcs
      · exact List.cons_ne_nil _ _
    have hne : joinedLens (n :: rest) ≠ "" := by
      intro hempty
      rw [hempty] at hsplit
      have hfirst : "" = n.toNat.repr := (List.cons.inj hsplit).1
      have hparse := Text.parseU32_repr n
      rw [← hfirst] at hparse
      cases hparse
    have hread : ((n :: rest).map fun m => m.toNat.repr).mapM
        (fun s => Text.parseU32 (Text.trim s)) = some (n :: rest) := by
      generalize n :: rest = lens
      induction lens with
      | nil => rfl
      | cons m lens ih =>
        have htrim : Text.trim m.toNat.repr = m.toNat.repr := Text.trim_of_forall fun c hc =>
          Text.isWhitespace_of_isDigit (Text.isDigit_of_mem_repr hc)
        rw [List.map_cons, List.mapM_cons, htrim, Text.parseU32_repr, ih]
        rfl
    rw [Option.filter_some, if_pos (decide_eq_true hne)]
    simp only [hsplit, hread]

/-! ### The grammar of the header -/

/-- The texts of the header: whitespace for no lengths, else one number in each piece between the
commas, up to whitespace around it. -/
def IsChunkLens (s : String) (lens : List UInt32) : Prop :=
  (∀ c ∈ s.toList, Text.isWhitespace c = true) ∧ lens = [] ∨
    List.Forall₂ (fun piece n => Text.IsU32 (Text.trim piece) n) (Text.split ',' s) lens

/-- A list of optional values that are all there. -/
lemma mapM_eq_some_iff {α β : Type} {f : α → Option β} {l : List α} {r : List β} :
    l.mapM f = some r ↔ List.Forall₂ (fun a b => f a = some b) l r := by
  induction l generalizing r with
  | nil =>
    rw [List.mapM_nil, List.forall₂_nil_left_iff]
    exact ⟨fun h => (Option.some.inj h).symm, fun h => congrArg some h.symm⟩
  | cons a l ih =>
    rw [List.mapM_cons]
    constructor
    · intro h
      obtain ⟨b, hb, h⟩ := Option.bind_eq_some_iff.1 h
      obtain ⟨bs, hbs, h⟩ := Option.bind_eq_some_iff.1 h
      obtain rfl := Option.some.inj h
      exact .cons hb (ih.1 hbs)
    · intro h
      cases h with
      | cons hb hrest =>
        rw [hb, ih.2 hrest]
        rfl

/-- A blank text has one piece, which is not a number. -/
lemma not_forall₂_of_blank {s : String} {lens : List UInt32}
    (hblank : ∀ c ∈ s.toList, Text.isWhitespace c = true) :
    ¬ List.Forall₂ (fun piece n => Text.IsU32 (Text.trim piece) n) (Text.split ',' s) lens := by
  have hcomma : ',' ∉ s.toList := by
    intro hmem
    exact absurd (hblank _ hmem) (by decide)
  rw [Text.split, List.splitOn_eq_singleton hcomma, List.map_singleton, String.ofList_toList]
  intro h
  cases h with
  | cons hpiece _ =>
    rw [Text.trim_eq_empty_iff.2 hblank] at hpiece
    obtain ⟨digits, hne, -, heq | heq, -⟩ := hpiece
    · exact hne heq.symm
    · cases heq

/-- What the parser makes of a text, in terms of the pieces of the text itself. -/
lemma parseChunkLens_eq (s : String) : parseChunkLens (some s) =
    if ∀ c ∈ s.toList, Text.isWhitespace c = true then .ok []
    else match ((Text.split ',' s).map Text.trim).mapM Text.parseU32 with
      | some lens => .ok lens
      | none => .error (.verifyFailed "invalid X-Dig-Chunk-Lens header") := by
  have hpieces : (Text.split ',' (Text.trim s)).mapM (fun n => Text.parseU32 (Text.trim n)) =
      ((Text.split ',' s).map Text.trim).mapM Text.parseU32 := by
    rw [← Text.map_trim_split_trim (by decide), List.mapM_map]
    rfl
  rw [parseChunkLens, Option.map_some, Option.filter_some]
  by_cases hblank : ∀ c ∈ s.toList, Text.isWhitespace c = true
  · rw [if_pos hblank, Text.trim_eq_empty_iff.2 hblank, if_neg (by decide)]
  · rw [if_neg hblank, if_pos (decide_eq_true (mt Text.trim_eq_empty_iff.1 hblank))]
    cases hlens : ((Text.split ',' s).map Text.trim).mapM Text.parseU32 with
    | none => simp only [hpieces, hlens]
    | some lens => simp only [hpieces, hlens]

/-- **The parser of the header accepts exactly its grammar**: it gives the lengths of the text, and
refuses every other text.  In particular it reads back what a node sends. -/
theorem parseChunkLens_grammar (s : String) :
    (∀ lens, parseChunkLens (some s) = .ok lens ↔ IsChunkLens s lens) ∧
    ((¬ ∃ lens, IsChunkLens s lens) →
      ∃ message, parseChunkLens (some s) = .error (.verifyFailed message)) ∧
    ∀ lens, parseChunkLens (some (joinedLens lens)) = .ok lens := by
  have haccept : ∀ lens, parseChunkLens (some s) = .ok lens ↔ IsChunkLens s lens := by
    intro lens
    rw [parseChunkLens_eq, IsChunkLens]
    by_cases hblank : ∀ c ∈ s.toList, Text.isWhitespace c = true
    · rw [if_pos hblank, Except.ok.injEq]
      constructor
      · intro h
        exact Or.inl ⟨hblank, h.symm⟩
      · rintro (⟨-, rfl⟩ | h)
        · rfl
        · exact absurd h (not_forall₂_of_blank hblank)
    · have hpieces : ((Text.split ',' s).map Text.trim).mapM Text.parseU32 = some lens ↔
          List.Forall₂ (fun piece n => Text.IsU32 (Text.trim piece) n) (Text.split ',' s) lens := by
        rw [mapM_eq_some_iff, List.forall₂_map_left_iff]
        simp only [Text.parseU32_eq_some_iff]
      rw [if_neg hblank, ← hpieces]
      cases ((Text.split ',' s).map Text.trim).mapM Text.parseU32 with
      | none => simp [hblank]
      | some lens' => simp [hblank]
  refine ⟨haccept, ?_, parseChunkLens_joinedLens⟩
  intro hnone
  cases hparse : parseChunkLens (some s) with
  | ok lens => exact absurd ⟨lens, (haccept lens).1 hparse⟩ hnone
  | error e =>
    rw [parseChunkLens_eq] at hparse
    split_ifs at hparse
    split at hparse
    · cases hparse
    · exact ⟨_, congrArg _ (Except.error.inj hparse).symm⟩

example : parseChunkLens (some " +12, 003 ") = .ok [12, 3] := by decide +kernel

example : parseChunkLens (some "12,3,") =
    .error (.verifyFailed "invalid X-Dig-Chunk-Lens header") := by decide +kernel

end DigUrnResolver.Node
