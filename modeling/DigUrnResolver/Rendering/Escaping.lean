/-
# Escaping

The page for an unreachable network contains a text of the app, the link target, inside an HTML
attribute.  Escaping it replaces five characters by entities, one after the other.  The ampersand is
replaced first, so no later replacement meets the entities of the earlier ones, and the five are the
same as a single pass over the text.  A single pass can be undone, and leaves no character with
which the attribute could be left.
-/
import DigUrnResolver.Source.Pages

namespace Text

/-! ### Replacements one after the other -/

variable {α : Type} [DecidableEq α]

/-- Replace letters by words, one rule after the other. -/
def replaceEach (rules : List (α × List α)) (l : List α) : List α :=
  rules.foldl (fun l e => l.flatMap fun a => if a = e.1 then e.2 else [a]) l

/-- The word that the rules have for a letter, or the letter itself. -/
def replacement (rules : List (α × List α)) (a : α) : List α := (rules.lookup a).getD [a]

lemma replacement_append_singleton (rules : List (α × List α)) (e : α × List α)
    (hnew : ∀ r ∈ rules, e.1 ≠ r.1) (a : α) :
    replacement (rules ++ [e]) a = if a = e.1 then e.2 else replacement rules a := by
  rw [replacement, replacement, List.lookup_append]
  by_cases ha : a = e.1
  · have hnone : rules.lookup a = none := by
      rw [List.lookup_eq_none_iff]
      intro r hr
      exact bne_iff_ne.2 (ha ▸ hnew r hr)
    rw [hnone, Option.none_or, if_pos ha, List.lookup_cons, beq_iff_eq.2 ha]
    rfl
  · rw [if_neg ha, List.lookup_cons, beq_false_of_ne ha, List.lookup_nil, Option.or_none]

/-- **Rules that leave the words of the earlier ones alone are a single pass.** -/
lemma replaceEach_eq_flatMap {rules : List (α × List α)}
    (h : rules.Pairwise fun r e => e.1 ≠ r.1 ∧ e.1 ∉ r.2) (l : List α) :
    replaceEach rules l = l.flatMap (replacement rules) := by
  induction rules using List.reverseRecOn with
  | nil => exact (List.flatMap_singleton' l).symm
  | append_singleton rules e ih =>
    obtain ⟨hrules, -, hlast⟩ := List.pairwise_append.1 h
    have hnew : ∀ r ∈ rules, e.1 ≠ r.1 ∧ e.1 ∉ r.2 :=
      fun r hr => hlast r hr e (List.mem_singleton_self e)
    have hstep : replaceEach (rules ++ [e]) l =
        (replaceEach rules l).flatMap fun a => if a = e.1 then e.2 else [a] := List.foldl_concat ..
    rw [hstep, ih hrules, List.flatMap_assoc]
    refine List.flatMap_congr fun a _ => ?_
    rw [replacement_append_singleton rules e fun r hr => (hnew r hr).1]
    -- the words of the earlier rules do not contain the letter of the new one
    have hkeep : ∀ word : List α, e.1 ∉ word →
        word.flatMap (fun b => if b = e.1 then e.2 else [b]) = word := by
      intro word hword
      conv_rhs => rw [← List.flatMap_singleton' word]
      refine List.flatMap_congr fun b hb => if_neg ?_
      rintro rfl
      exact hword hb
    by_cases ha : a = e.1
    · have hself : replacement rules a = [a] := by
        rw [replacement, List.lookup_eq_none_iff.2, Option.getD_none]
        intro r hr
        exact bne_iff_ne.2 (ha ▸ (hnew r hr).1)
      rw [hself, List.flatMap_singleton]
    · rw [if_neg ha]
      refine hkeep _ ?_
      rw [replacement]
      cases hlookup : rules.lookup a with
      | none => simpa using Ne.symm ha
      | some word =>
        obtain ⟨front, back, hsplit, -⟩ := List.lookup_eq_some_iff.1 hlookup
        exact (hnew (a, word) (by simp [hsplit])).2

end Text

namespace DigUrnResolver.Pages

/-- The characters that are escaped, with their entities. -/
def entities : List (Char × List Char) :=
  [('&', "&amp;".toList), ('<', "&lt;".toList), ('>', "&gt;".toList), ('"', "&quot;".toList),
    ('\'', "&#39;".toList)]

/-- **The five replacements are a single pass.** -/
lemma toList_escape (s : String) :
    (escape s).toList = s.toList.flatMap (Text.replacement entities) := by
  have hrules : entities.Pairwise fun r e => e.1 ≠ r.1 ∧ e.1 ∉ r.2 := by decide +kernel
  rw [← Text.replaceEach_eq_flatMap hrules, Text.replaceEach, entities, List.foldl_cons,
    List.foldl_cons, List.foldl_cons, List.foldl_cons, List.foldl_cons, List.foldl_nil, escape]
  iterate 5 rw [Text.toList_replace]

/-- Decode the entities once, from left to right. -/
def decode : List Char → List Char
  | '&' :: 'a' :: 'm' :: 'p' :: ';' :: rest => '&' :: decode rest
  | '&' :: 'l' :: 't' :: ';' :: rest => '<' :: decode rest
  | '&' :: 'g' :: 't' :: ';' :: rest => '>' :: decode rest
  | '&' :: 'q' :: 'u' :: 'o' :: 't' :: ';' :: rest => '"' :: decode rest
  | '&' :: '#' :: '3' :: '9' :: ';' :: rest => '\'' :: decode rest
  | c :: rest => c :: decode rest
  | [] => []

/-! ### The words of the pass -/

/-- A character is replaced by its entity, or it is none of the five. -/
lemma replacement_cases (c : Char) : (c, Text.replacement entities c) ∈ entities ∨
    c ∉ entities.map Prod.fst ∧ Text.replacement entities c = [c] := by
  rw [Text.replacement]
  cases hlookup : entities.lookup c with
  | none =>
    refine Or.inr ⟨?_, rfl⟩
    intro hmem
    obtain ⟨e, he, rfl⟩ := List.mem_map.1 hmem
    exact bne_iff_ne.1 (List.lookup_eq_none_iff.1 hlookup e he) rfl
  | some word =>
    obtain ⟨front, back, hsplit, -⟩ := List.lookup_eq_some_iff.1 hlookup
    exact Or.inl (by simp [hsplit])

/-- An ampersand begins an entity and does not occur in it again, and the other four characters
occur in no entity. -/
lemma entity_shape : ∀ e ∈ entities, e.2.head? = some '&' ∧ '&' ∉ e.2.tail ∧
    ∀ c ∈ ['<', '>', '"', '\''], c ∉ e.2 := by
  decide +kernel

lemma decode_entity_append {e : Char × List Char} (he : e ∈ entities) (rest : List Char) :
    decode (e.2 ++ rest) = e.1 :: decode rest := by
  simp only [entities, List.mem_cons, List.not_mem_nil, or_false] at he
  rcases he with rfl | rfl | rfl | rfl | rfl <;> rfl

lemma decode_cons_of_ne {c : Char} (hc : c ≠ '&') (rest : List Char) :
    decode (c :: rest) = c :: decode rest := by
  conv_lhs => unfold decode
  split <;> simp_all

/-! ### What escaping guarantees -/

lemma decode_flatMap (l : List Char) : decode (l.flatMap (Text.replacement entities)) = l := by
  induction l with
  | nil => rfl
  | cons c l ih =>
    rw [List.flatMap_cons]
    rcases replacement_cases c with hentity | ⟨hplain, hself⟩
    · exact (decode_entity_append hentity _).trans (congrArg (c :: ·) ih)
    · have hc : c ≠ '&' := by
        rintro rfl
        exact hplain (by decide)
      rw [hself, List.singleton_append, decode_cons_of_ne hc, ih]

/-- Decoding gives back what was escaped, also where it contains entities. -/
lemma decode_escape (s : String) : decode (escape s).toList = s.toList := by
  rw [toList_escape, decode_flatMap]

lemma notMem_escape (s : String) : ∀ c ∈ ['<', '>', '"', '\''], c ∉ (escape s).toList := by
  intro c hc hmem
  rw [toList_escape] at hmem
  obtain ⟨a, -, ha⟩ := List.mem_flatMap.1 hmem
  rcases replacement_cases a with hentity | ⟨hplain, hself⟩
  · exact (entity_shape _ hentity).2.2 c hc ha
  · rw [hself, List.mem_singleton] at ha
    subst ha
    have hspecial : ∀ c ∈ ['<', '>', '"', '\''], c ∈ entities.map Prod.fst := by decide
    exact hplain (hspecial c hc)

/-- Wherever an ampersand is, an entity begins. -/
lemma exists_entity_of_ampersand {l u x : List Char}
    (h : l.flatMap (Text.replacement entities) = u ++ '&' :: x) :
    ∃ e ∈ entities, e.2 <+: '&' :: x := by
  induction l generalizing u with
  | nil => simp at h
  | cons c l ih =>
    rw [List.flatMap_cons] at h
    rcases replacement_cases c with hentity | ⟨hplain, hself⟩
    · obtain ⟨hhead, htail, -⟩ := entity_shape _ hentity
      cases u with
      | nil => exact ⟨_, hentity, _, h⟩
      | cons a u =>
        -- the ampersand is behind the entity, which has only one
        rcases List.append_eq_append_iff.1 h with ⟨b, hu, hrest⟩ | ⟨b, hword, hrest⟩
        · exact ih hrest
        · cases b with
          | nil => exact ih (u := []) hrest.symm
          | cons d b =>
            obtain rfl : '&' = d := (List.cons.inj hrest).1
            rw [hword] at htail
            exact absurd (by simp) htail
    · rw [hself] at h
      cases u with
      | nil =>
        obtain rfl : c = '&' := (List.cons.inj h).1
        exact absurd (by decide) hplain
      | cons a u => exact ih (List.cons.inj h).2

/-! ### The page -/

/-- The page is a fixed text around its body. -/
lemma exists_page_eq (accent glow brandTag heading : String) :
    ∃ front back, ∀ bodyHtml, page accent glow brandTag heading bodyHtml =
      front ++ bodyHtml ++ back := ⟨_, _, fun _ => rfl⟩

/-- The body of the page for an unreachable network, in front of the attribute. -/
def beforeHref : String := "<p>We couldn't reach a DIG node or the public gateway to load this content. Connect a local DIG node to view it — it's faster and fully decentralized.</p>
  <a class=\"cta\" "

/-- The rest of the body, behind the attribute. -/
def afterHref : String := " rel=\"noopener noreferrer\">Connect to Node</a>"

lemma unreachableHtml_eq_page (connectUrl : String) : unreachableHtml connectUrl =
    page "#3b6cf6" "#14213a" "<b>DIG</b> Network" "DIG Network unreachable"
      (beforeHref ++ "href=\"" ++ escape connectUrl ++ ("\"" ++ afterHref)) := by
  have hbefore : beforeHref ++ "href=\"" = "<p>We couldn't reach a DIG node or the public gateway to load this content. Connect a local DIG node to view it — it's faster and fully decentralized.</p>
  <a class=\"cta\" href=\"" := by decide +kernel
  have hafter : "\"" ++ afterHref = "\" rel=\"noopener noreferrer\">Connect to Node</a>" := by
    decide +kernel
  rw [unreachableHtml, hbefore, hafter]

/-- **The attribute cannot be left.**  The page for an unreachable network is a fixed text in which
the escaped link target stands between quotes.  Escaping leaves no character that ends the
attribute or opens a tag, writes ampersands only where an entity begins, and can be undone. -/
theorem unreachableHtml_eq : ∃ front back : String,
    (∀ connectUrl, unreachableHtml connectUrl =
      front ++ "href=\"" ++ escape connectUrl ++ "\"" ++ back) ∧
    (∀ connectUrl, ∀ c ∈ ['<', '>', '"', '\''], c ∉ (escape connectUrl).toList) ∧
    (∀ connectUrl u x, (escape connectUrl).toList = u ++ '&' :: x →
      ∃ e ∈ entities, e.2 <+: '&' :: x) ∧
    (∀ connectUrl, decode (escape connectUrl).toList = connectUrl.toList) ∧
    Function.Injective escape := by
  obtain ⟨front, back, hpage⟩ := exists_page_eq "#3b6cf6" "#14213a" "<b>DIG</b> Network"
    "DIG Network unreachable"
  refine ⟨front ++ beforeHref, afterHref ++ back, ?_, notMem_escape, ?_, decode_escape, ?_⟩
  · intro connectUrl
    rw [unreachableHtml_eq_page, hpage]
    simp only [String.append_assoc]
  · intro connectUrl u x h
    rw [toList_escape] at h
    exact exists_entity_of_ampersand h
  · intro url url' h
    rw [← String.toList_inj, ← decode_escape url, h, decode_escape]

end DigUrnResolver.Pages
