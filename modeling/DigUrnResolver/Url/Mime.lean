/-
# MIME types

What a text denotes as a MIME type: two tokens with a slash in between, in lower case, and the
parameters behind them, each with a token for a name.  Parameters that are not well formed are
skipped; a text without two tokens denotes nothing.
-/
import DigUrnResolver.Text

namespace Mime

/-- A MIME type with its parameters, in the order in which they were given. -/
structure MimeType where
  type : List Char
  subtype : List Char
  parameters : List (List Char × List Char)
deriving DecidableEq, Repr

/-! ### Characters -/

/-- The characters of tokens. -/
def isToken (c : Char) : Bool :=
  c.isAlphanum || c ∈ "!#$%&\x27*+-.^_\x60|~".toList

/-- The characters that may stand in a quoted value. -/
def isQuotable (c : Char) : Bool :=
  c == '\t' || (0x20 ≤ c.toNat && c.toNat ≤ 0x7E) || (0x80 ≤ c.toNat && c.toNat ≤ 0xFF)

/-- Blanks and ends of lines. -/
def isBlank (c : Char) : Bool := c ∈ ['\t', '\n', '\r', ' ']

/-- A token: at least one character, and all of them such that may stand in one. -/
def IsToken (cs : List Char) : Prop := cs ≠ [] ∧ ∀ c ∈ cs, isToken c = true

instance (cs : List Char) : Decidable (IsToken cs) := inferInstanceAs (Decidable (_ ∧ _))

/-! ### Parameters -/

/-- The value up to the closing quote, and what is behind it. -/
def quoted : List Char → List Char × List Char
  | [] => ([], [])
  | '"' :: rest => ([], rest)
  | ['\\'] => (['\\'], [])
  | '\\' :: c :: rest => (c :: (quoted rest).1, (quoted rest).2)
  | c :: rest => (c :: (quoted rest).1, (quoted rest).2)

lemma length_quoted_le (cs : List Char) : (quoted cs).2.length ≤ cs.length := by
  fun_induction quoted cs with
  | case1 | case2 | case3 => simp
  | case4 c rest ih =>
    simp only [List.length_cons]
    omega
  | case5 c rest _ _ _ ih =>
    simp only [List.length_cons]
    omega

/-- One parameter, behind its semicolon, and what comes next. -/
def parameter (input : List Char) : Option (List Char × List Char) × List Char :=
  let text := input.dropWhile isBlank
  let name := (text.takeWhile fun c => c != ';' && c != '=').map Char.toLower
  match text.dropWhile fun c => c != ';' && c != '=' with
  | [] | ['='] => (none, [])
  | '=' :: '"' :: rest =>
    (some (name, (quoted rest).1), (quoted rest).2.dropWhile (· != ';'))
  | '=' :: rest =>
    let value := (rest.takeWhile (· != ';')).rdropWhile isBlank
    (if value = [] then none else some (name, value), rest.dropWhile (· != ';'))
  | next => (none, next)

lemma length_parameter_le (input : List Char) : (parameter input).2.length ≤ input.length := by
  have hblank := (List.dropWhile_suffix isBlank (l := input)).length_le
  have hname := (List.dropWhile_suffix (fun c => c != ';' && c != '=')
    (l := input.dropWhile isBlank)).length_le
  rw [parameter]
  generalize (input.dropWhile isBlank).dropWhile (fun c => c != ';' && c != '=') = next at hname
  have hrest : ∀ rest : List Char, (rest.dropWhile (· != ';')).length ≤ rest.length :=
    fun rest => (List.dropWhile_suffix _).length_le
  split
  · exact Nat.zero_le _
  · exact Nat.zero_le _
  · next rest =>
    have hquoted := length_quoted_le rest
    have hback := hrest (quoted rest).2
    simp only [List.length_cons] at hname
    show ((quoted rest).2.dropWhile (· != ';')).length ≤ _
    omega
  · next rest _ _ =>
    have hback := hrest rest
    simp only [List.length_cons] at hname
    show (rest.dropWhile (· != ';')).length ≤ _
    omega
  · exact hname.trans hblank

/-- A parameter counts if its name and value are well formed and the name is new. -/
def add (known : List (List Char × List Char)) :
    Option (List Char × List Char) → List (List Char × List Char)
  | none => known
  | some found =>
    if IsToken found.1 ∧ (∀ c ∈ found.2, isQuotable c = true) ∧ ∀ p ∈ known, p.1 ≠ found.1 then
      known ++ [found]
    else known

/-- The parameters of a text that is empty or begins with a semicolon. -/
def parameters (known : List (List Char × List Char)) : List Char → List (List Char × List Char)
  | [] => known
  | _ :: rest => parameters (add known (parameter rest).1) (parameter rest).2
termination_by input => input.length
decreasing_by exact Nat.lt_succ_of_le (length_parameter_le rest)

/-! ### Parsing -/

/-- The MIME type that a text denotes. -/
def parse (input : List Char) : Option MimeType :=
  let text := (input.dropWhile isBlank).rdropWhile isBlank
  let type := text.takeWhile (· != '/')
  let behind := (text.dropWhile (· != '/')).tail
  let subtype := (behind.takeWhile (· != ';')).rdropWhile isBlank
  if IsToken type ∧ IsToken subtype then
    some ⟨type.map Char.toLower, subtype.map Char.toLower,
      parameters [] (behind.dropWhile (· != ';'))⟩
  else none

/-- What denotes a MIME type does not begin with a semicolon. -/
lemma head?_ne_of_parse {cs : List Char} (h : parse cs ≠ none) : cs.head? ≠ some ';' := by
  intro hhead
  obtain ⟨rest, rfl⟩ : ∃ rest, cs = ';' :: rest := by
    cases cs with
    | nil => cases hhead
    | cons c rest => exact ⟨rest, by rw [Option.some.inj hhead]⟩
  refine h ?_
  rw [parse, if_neg]
  rintro ⟨htype, -⟩
  rw [List.dropWhile_cons_of_neg (by decide)] at htype
  -- what is trimmed from the end is not the semicolon, which would be in the first token
  have hne : (';' :: rest).rdropWhile isBlank ≠ [] := by
    rw [Ne, List.rdropWhile_eq_nil_iff]
    intro hblank
    exact absurd (hblank ';' List.mem_cons_self) (by decide)
  obtain ⟨c, front, hfront⟩ := List.exists_cons_of_ne_nil hne
  have hprefix := List.rdropWhile_prefix isBlank (l := ';' :: rest)
  rw [hfront] at hprefix htype
  obtain ⟨rfl, -⟩ := List.cons_prefix_cons.1 hprefix
  have htoken := htype.2 ';' (by simp)
  revert htoken
  decide

example : parse "Text/HTML; Charset=\"utf-8\";x=".toList =
    some ⟨"text".toList, "html".toList, [("charset".toList, "utf-8".toList)]⟩ := by
  decide +kernel

example : parse "text".toList = none ∧ parse "image/".toList = none := by decide +kernel

end Mime
