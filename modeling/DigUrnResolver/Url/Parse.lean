/-
# Parsing special URLs

The part of the URL standard that decides what is requested for a text that begins with the
scheme and the authority of an `http` or `https` URL: the cleaning of the input, the end of the
authority, the segments of the path with their dots, and the query.  The host is left as it is
written, and the fragment is dropped, since it is not sent.
-/
import DigUrnResolver.Url.Percent

namespace Url

/-! ### Paths -/

/-- The separators of the segments of a special URL. -/
def isSlash (c : Char) : Bool := c == '/' || c == '\\'

/-- A segment for this directory. -/
def isSingleDot (seg : List Char) : Bool := seg.map Char.toLower ∈ [".".toList, "%2e".toList]

/-- A segment for the directory above. -/
def isDoubleDot (seg : List Char) : Bool :=
  seg.map Char.toLower ∈ ["..".toList, ".%2e".toList, "%2e.".toList, "%2e%2e".toList]

/-- A segment that is not resolved, but kept. -/
def IsPlain (seg : List Char) : Prop := isSingleDot seg = false ∧ isDoubleDot seg = false

instance : DecidablePred IsPlain := fun _ => inferInstanceAs (Decidable (_ ∧ _))

/-- The path state: segments are encoded and added to the path so far, dots are resolved.  A dot
segment at the end leaves an empty segment. -/
def resolveDots : List (List Char) → List (List Char) → List (List Char)
  | path, [] => path
  | path, seg :: rest =>
    let final : List (List Char) := if rest = [] then [[]] else []
    if isDoubleDot seg then resolveDots (path.dropLast ++ final) rest
    else if isSingleDot seg then resolveDots (path ++ final) rest
    else resolveDots (path ++ [encode seg]) rest

/-- The text of a path. -/
def render (path : List (List Char)) : List Char := path.flatMap ('/' :: ·)

@[simp] lemma render_nil : render [] = [] := rfl

@[simp] lemma render_cons (seg : List Char) (path : List (List Char)) :
    render (seg :: path) = '/' :: (seg ++ render path) := List.flatMap_cons

lemma render_map_encode (segs : List (List Char)) :
    render (segs.map encode) = encode (render segs) := by
  induction segs with
  | nil => rfl
  | cons seg segs ih =>
    rw [List.map_cons, render_cons, render_cons, ih, encode_cons, encode_append]
    rfl

/-- A separator as it is written in a path. -/
def slashed (c : Char) : Char := if isSlash c then '/' else c

/-- The segments of a text are its parts between separators. -/
lemma render_splitOnP (cs : List Char) : render (cs.splitOnP isSlash) = '/' :: cs.map slashed := by
  induction cs with
  | nil => rfl
  | cons c cs ih =>
    rw [List.splitOnP_cons_eq_if_modifyHead, List.map_cons, slashed]
    cases hc : isSlash c with
    | true =>
      rw [if_pos rfl, if_pos rfl, render_cons, ih, List.nil_append]
    | false =>
      rw [if_neg (by decide), if_neg (by decide)]
      cases hsplit : cs.splitOnP isSlash with
      | nil => exact absurd hsplit (List.splitOnP_ne_nil _ _)
      | cons seg segs =>
        rw [hsplit, render_cons] at ih
        rw [List.modifyHead_cons, render_cons, List.cons_append, (List.cons.inj ih).2]

/-! ### Resolving dots makes paths shorter -/

/-- The length of a decoded path, with a separator for each segment. -/
def weight (path : List (List Char)) : ℕ :=
  (path.map fun seg => 1 + (percentDecode seg).length).sum

lemma weight_append (p q : List (List Char)) : weight (p ++ q) = weight p + weight q := by
  rw [weight, List.map_append, List.sum_append]
  rfl

@[simp] lemma weight_cons (seg : List Char) (path : List (List Char)) :
    weight (seg :: path) = 1 + (percentDecode seg).length + weight path := List.sum_cons

@[simp] lemma weight_nil : weight [] = 0 := rfl

lemma weight_dropLast_le (path : List (List Char)) : weight path.dropLast ≤ weight path := by
  cases hpath : path.getLast? with
  | none =>
    rw [List.getLast?_eq_none_iff] at hpath
    rw [hpath]
    exact Nat.le_refl _
  | some seg =>
    have hsplit := List.dropLast_append_getLast? seg hpath
    have hweight : weight path = weight path.dropLast + weight [seg] := by
      rw [← weight_append, hsplit]
    omega

lemma percentDecode_append_render (cs : List Char) (path : List (List Char)) :
    percentDecode (cs ++ render path) = percentDecode cs ++ percentDecode (render path) := by
  cases path with
  | nil => rw [render_nil, List.append_nil, percentDecode, List.append_nil]
  | cons seg path =>
    rw [render_cons, percentDecode_append_slash]
    exact congrArg (percentDecode cs ++ ·) (percentDecode_append_slash [] _).symm

lemma length_percentDecode_render (path : List (List Char)) :
    (percentDecode (render path)).length = weight path := by
  induction path with
  | nil => rfl
  | cons seg path ih =>
    rw [render_cons, weight_cons]
    have hslash := percentDecode_append_slash [] (seg ++ render path)
    rw [List.nil_append] at hslash
    rw [hslash, percentDecode_append_render, ← ih]
    simp only [percentDecode, List.nil_append, List.length_cons, List.length_append]
    omega

/-- A dot segment is not empty. -/
lemma weight_of_dots {seg : List Char} (h : isSingleDot seg = true ∨ isDoubleDot seg = true) :
    2 ≤ 1 + (percentDecode seg).length := by
  have hne : seg ≠ [] := by
    rintro rfl
    revert h
    decide
  have hpos := length_percentDecode_pos hne
  omega

lemma weight_map_encode (segs : List (List Char)) : weight (segs.map encode) = weight segs := by
  rw [weight, weight, List.map_map]
  refine congrArg List.sum (List.map_congr_left ?_)
  intro seg _
  rw [Function.comp_apply, percentDecode_encode]

/-- Either all segments are kept as they are, or the path gets shorter. -/
lemma resolveDots_cases (path segs : List (List Char)) :
    (∀ seg ∈ segs, IsPlain seg) ∧ resolveDots path segs = path ++ segs.map encode ∨
      weight (resolveDots path segs) < weight path + weight segs := by
  induction segs generalizing path with
  | nil => exact Or.inl ⟨by simp, by simp [resolveDots]⟩
  | cons seg rest ih =>
    have hfinal : weight (if rest = [] then [[]] else []) ≤ 1 := by
      split_ifs
      · exact Nat.le_refl _
      · exact Nat.zero_le _
    have hrest : ∀ path', weight (resolveDots path' rest) ≤ weight path' + weight rest := by
      intro path'
      rcases ih path' with ⟨-, heq⟩ | hlt
      · rw [heq, weight_append, weight_map_encode]
      · exact Nat.le_of_lt hlt
    rw [resolveDots, weight_cons]
    generalize (if rest = [] then [[]] else [] : List (List Char)) = final at hfinal
    split_ifs with hdouble hsingle
    · -- at most an empty segment takes the place of the two
      have hle := hrest (path.dropLast ++ final)
      have hdrop := weight_dropLast_le path
      have hdots := weight_of_dots (Or.inr hdouble)
      rw [weight_append] at hle
      exact Or.inr (by omega)
    · have hle := hrest (path ++ final)
      have hdots := weight_of_dots (Or.inl hsingle)
      rw [weight_append] at hle
      exact Or.inr (by omega)
    · rcases ih (path ++ [encode seg]) with ⟨hplain, heq⟩ | hlt
      · refine Or.inl ⟨?_, ?_⟩
        · intro seg' hmem
          rcases List.mem_cons.1 hmem with rfl | hmem
          · exact ⟨by simpa using hsingle, by simpa using hdouble⟩
          · exact hplain seg' hmem
        · rw [heq, List.map_cons, List.append_assoc, List.singleton_append]
      · rw [weight_append, weight_cons, percentDecode_encode, weight_nil] at hlt
        exact Or.inr (by omega)

/-- A path without dot segments is encoded as it is. -/
lemma resolveDots_of_plain {segs : List (List Char)} (h : ∀ seg ∈ segs, IsPlain seg)
    (path : List (List Char)) : resolveDots path segs = path ++ segs.map encode := by
  induction segs generalizing path with
  | nil => simp [resolveDots]
  | cons seg rest ih =>
    obtain ⟨hsingle, hdouble⟩ := h seg List.mem_cons_self
    rw [resolveDots]
    simp only [hsingle, hdouble]
    rw [if_neg (by decide), if_neg (by decide),
      ih fun seg' hmem => h seg' (List.mem_cons_of_mem _ hmem), List.map_cons, List.append_assoc,
      List.singleton_append]

/-! ### Requests -/

/-- What is requested: the origin, the path and the query. -/
structure Request where
  scheme : List Char
  authority : List Char
  path : List (List Char)
  query : Option (List Char)

/-- A C0 control or a space, which is stripped at both ends of the input. -/
def isC0OrSpace (c : Char) : Bool := c.toNat ≤ 0x20

/-- A tab or a newline, which is dropped everywhere. -/
def isTabOrNewline (c : Char) : Bool := c == '\t' || c == '\n' || c == '\r'

def clean (input : List Char) : List Char :=
  ((input.dropWhile isC0OrSpace).rdropWhile isC0OrSpace).filter fun c => !isTabOrNewline c

/-- The end of the authority. -/
def isDelimiter (c : Char) : Bool := isSlash c || c == '?' || c == '#'

/-- The end of the path. -/
def isPathEnd (c : Char) : Bool := c == '?' || c == '#'

/-- The query behind the path, up to the fragment. -/
def queryOf : List Char → Option (List Char)
  | '?' :: rest => some (rest.takeWhile (· ≠ '#'))
  | _ => none

/-- The schemes of special URLs with their slashes. -/
def schemes : List (List Char) := ["http://".toList, "https://".toList]

/-- The parser, on inputs that begin with one of these schemes. -/
def parse (input : List Char) : Option Request :=
  (schemes.find? fun scheme => scheme.isPrefixOf (clean input)).map fun scheme =>
    let rest := (clean input).drop scheme.length
    let tail := rest.dropWhile fun c => !isDelimiter c
    { scheme
      authority := rest.takeWhile fun c => !isDelimiter c
      -- the path begins behind the slash
      path := resolveDots [] ((tail.takeWhile fun c => !isPathEnd c).tail.splitOnP isSlash)
      query := queryOf (tail.dropWhile fun c => !isPathEnd c) }

/-! ### Texts that begin with an origin -/

/-- What is stripped at the end of a text is stripped at the end of its last part. -/
lemma clean_append {pre key : List Char} (hne : pre ≠ [])
    (hpre : ∀ c ∈ pre, isC0OrSpace c = false) :
    clean (pre ++ key) =
      pre ++ (key.rdropWhile isC0OrSpace).filter fun c => !isTabOrNewline c := by
  have hstart : (pre ++ key).dropWhile isC0OrSpace = pre ++ key := by
    cases pre with
    | nil => exact absurd rfl hne
    | cons c pre =>
      rw [List.cons_append, List.dropWhile_cons_of_neg]
      rw [hpre c List.mem_cons_self]
      decide
  have hreverse : pre.reverse.dropWhile isC0OrSpace = pre.reverse := by
    rw [List.dropWhile_eq_self_iff]
    intro hlength hhead
    have hmem : pre.reverse[0] ∈ pre := List.mem_reverse.1 (List.getElem_mem _)
    rw [hpre _ hmem] at hhead
    cases hhead
  have hend : (pre ++ key).rdropWhile isC0OrSpace = pre ++ key.rdropWhile isC0OrSpace := by
    rw [List.rdropWhile, List.rdropWhile, List.reverse_append, List.dropWhile_append, hreverse]
    split_ifs with hempty
    · rw [List.isEmpty_iff.1 hempty, List.reverse_reverse, List.reverse_nil, List.append_nil]
    · rw [List.reverse_append, List.reverse_reverse]
  have hfilter : pre.filter (fun c => !isTabOrNewline c) = pre := by
    rw [List.filter_eq_self]
    intro c hc
    have hc0 := hpre c hc
    rw [Bool.not_eq_true']
    by_contra htab
    rw [Bool.not_eq_false, isTabOrNewline, Bool.or_eq_true, Bool.or_eq_true, beq_iff_eq,
      beq_iff_eq, beq_iff_eq] at htab
    rcases htab with (rfl | rfl) | rfl
    · exact absurd hc0 (by decide)
    · exact absurd hc0 (by decide)
    · exact absurd hc0 (by decide)
  rw [clean, hstart, hend, List.filter_append, hfilter]

lemma find?_scheme {scheme : List Char} (h : scheme ∈ schemes) (rest : List Char) :
    (schemes.find? fun s => s.isPrefixOf (scheme ++ rest)) = some scheme := by
  rcases List.mem_pair.1 h with rfl | rfl
  · rfl
  · rfl

/-- The request of a text whose authority ends at a slash. -/
lemma parse_eq {input scheme authority rest : List Char} (hscheme : scheme ∈ schemes)
    (hauthority : ∀ c ∈ authority, isDelimiter c = false)
    (hclean : clean input = scheme ++ (authority ++ '/' :: rest)) :
    parse input = some
      { scheme
        authority
        path := resolveDots [] ((rest.takeWhile fun c => !isPathEnd c).splitOnP isSlash)
        query := queryOf (rest.dropWhile fun c => !isPathEnd c) } := by
  have htake : (authority ++ '/' :: rest).takeWhile (fun c => !isDelimiter c) = authority := by
    rw [List.takeWhile_append_of_pos, List.takeWhile_cons_of_neg (by decide), List.append_nil]
    intro c hc
    rw [hauthority c hc]
    rfl
  have hdrop : (authority ++ '/' :: rest).dropWhile (fun c => !isDelimiter c) = '/' :: rest := by
    rw [List.dropWhile_append_of_pos, List.dropWhile_cons_of_neg (by decide)]
    intro c hc
    rw [hauthority c hc]
    rfl
  rw [parse, hclean, find?_scheme hscheme, Option.map_some, List.drop_left]
  dsimp only
  rw [htake, hdrop, List.takeWhile_cons_of_pos (by decide), List.dropWhile_cons_of_pos (by decide),
    List.tail_cons]

end Url
