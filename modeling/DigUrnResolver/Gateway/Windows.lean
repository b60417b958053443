/-
# Windows taken and rejected

An iteration of `rpc::fetch` takes a window, whose bytes it appends to the buffer, or rejects it
for one of five reasons.  Only one of them is an absence: a first window of length zero.
-/
import DigUrnResolver.Gateway.Bounds

namespace DigUrnResolver.Rpc

open Interaction

/-! ### What a window says -/

/-- The ciphertext of the window, if there is one, is base64. -/
def GetContent.Decodes (D : Deps) (r : GetContent) : Prop :=
  ∀ ct, r.ciphertext = some ct → D.base64Decode (Text.trim ct) ≠ none

/-- The bytes that the window delivers. -/
def GetContent.chunk (D : Deps) (r : GetContent) : Bytes :=
  (r.ciphertext.bind fun ct => D.base64Decode (Text.trim ct)).getD []

/-- The window says that nothing follows it. -/
def GetContent.Ends (r : GetContent) : Prop := r.complete = some true ∨ r.nextOffset = none

/-- Why an iteration rejects a window. -/
inductive Rejected (D : Deps) (st : Assembly) (r : GetContent) : ResolveError → Prop
  | absent (hfirst : st.total = none) (hzero : r.totalLength = 0) : Rejected D st r .notFound
  | oversized (hfirst : st.total = none) (hmax : r.totalLength > maxResourceBytes) :
      Rejected D st r (.rpc "resource exceeds maximum size")
  | undecodable (h : ¬ r.Decodes D) : Rejected D st r (.rpc "ciphertext is not valid base64")
  | overlong (h : UInt64.ofNat st.buf.length + UInt64.ofNat (r.chunk D).length >
      st.declaredWith r) : Rejected D st r (.rpc "gateway returned more bytes than declared")
  | stuck (h : ¬ r.Ends) : Rejected D st r (.rpc "content offset did not advance")

/-- What becomes of the assembly when the window is taken. -/
structure Taken (D : Deps) (st : Assembly) (r : GetContent) (st' : Assembly) (complete : Bool) :
    Prop where
  decodes : r.Decodes D
  total : st'.total = some (st.declaredWith r)
  buf : st'.buf = st.buf ++ r.chunk D
  ends : complete = true ↔ r.Ends

variable {D : Deps} {st st' : Assembly} {r : GetContent} {e : Rejection} {complete : Bool}

lemma Rejected.cases {e : ResolveError} (h : Rejected D st r e) :
    (e = .notFound ∧ st.total = none ∧ r.totalLength = 0) ∨ ∃ message, e = .rpc message := by
  cases h with
  | absent hfirst hzero => exact .inl ⟨rfl, hfirst, hzero⟩
  | _ => exact .inr ⟨_, rfl⟩

/-! ### The parts of an iteration -/

lemma Assembly.of_declare (h : st.declare D r = .ok st') :
    st'.total = some (st.declaredWith r) ∧ st'.buf = st.buf := by
  rw [Assembly.declare] at h
  rw [Assembly.declaredWith]
  cases htotal : st.total with
  | some total =>
    simp only [htotal] at h
    obtain rfl := Except.ok.inj h
    exact ⟨htotal, rfl⟩
  | none =>
    simp only [htotal] at h
    split_ifs at h
    obtain rfl := Except.ok.inj h
    exact ⟨rfl, rfl⟩

lemma Assembly.rejected_of_declare (h : st.declare D r = .error e) : Rejected D st r e.error := by
  rw [Assembly.declare] at h
  cases htotal : st.total with
  | some total =>
    simp only [htotal] at h
    cases h
  | none =>
    simp only [htotal] at h
    split_ifs at h with hzero hmax
    · rw [← Except.error.inj h]
      exact .absent htotal hzero
    · rw [← Except.error.inj h]
      exact .oversized htotal hmax

lemma Assembly.of_takeCiphertext (h : st.takeCiphertext D r = .ok st') :
    r.Decodes D ∧ st'.total = st.total ∧ st'.buf = st.buf ++ r.chunk D := by
  rw [Assembly.takeCiphertext] at h
  rw [GetContent.Decodes, GetContent.chunk]
  cases hct : r.ciphertext with
  | none =>
    simp only [hct] at h
    obtain rfl := Except.ok.inj h
    exact ⟨fun ct hsome => absurd hsome.symm (Option.some_ne_none ct), rfl,
      (List.append_nil _).symm⟩
  | some ct =>
    simp only [hct] at h
    cases hdecode : D.base64Decode (Text.trim ct) with
    | none =>
      simp only [hdecode] at h
      cases h
    | some chunk =>
      simp only [hdecode] at h
      split_ifs at h
      obtain rfl := Except.ok.inj h
      refine ⟨?_, rfl, ?_⟩
      · rintro ct' hsome hnone
        obtain rfl := Option.some.inj hsome
        cases hdecode.symm.trans hnone
      · rw [Option.bind_some, hdecode]
        rfl

/-- A ciphertext that is not appended is not base64, or exceeds what is declared. -/
lemma Assembly.rejected_of_takeCiphertext {declared : Assembly}
    (htotal : declared.total = some (st.declaredWith r)) (hbuf : declared.buf = st.buf)
    (h : declared.takeCiphertext D r = .error e) : Rejected D st r e.error := by
  rw [Assembly.takeCiphertext] at h
  cases hct : r.ciphertext with
  | none =>
    simp only [hct] at h
    cases h
  | some ct =>
    simp only [hct] at h
    cases hdecode : D.base64Decode (Text.trim ct) with
    | none =>
      simp only [hdecode] at h
      obtain rfl := Except.error.inj h
      exact .undecodable fun hdecodes => hdecodes ct hct hdecode
    | some chunk =>
      simp only [hdecode, htotal, hbuf, Option.getD_some] at h
      split_ifs at h with hgt
      obtain rfl := Except.error.inj h
      refine .overlong ?_
      rw [GetContent.chunk, hct, Option.bind_some, hdecode]
      exact hgt

lemma Assembly.of_advance (h : st.advance r = .ok (st', complete)) :
    st'.total = st.total ∧ st'.buf = st.buf ∧ (complete = true ↔ r.Ends) := by
  rw [Assembly.advance] at h
  rw [GetContent.Ends]
  split at h
  · next hcomplete =>
    simp only [Except.ok.injEq, Prod.mk.injEq] at h
    obtain ⟨rfl, rfl⟩ := h
    exact ⟨rfl, rfl, iff_of_true rfl (.inl hcomplete)⟩
  · next hnone _ =>
    simp only [Except.ok.injEq, Prod.mk.injEq] at h
    obtain ⟨rfl, rfl⟩ := h
    exact ⟨rfl, rfl, iff_of_true rfl (.inr hnone)⟩
  · next next hnext hcomplete =>
    split_ifs at h
    simp only [Except.ok.injEq, Prod.mk.injEq] at h
    obtain ⟨rfl, rfl⟩ := h
    refine ⟨rfl, rfl, iff_of_false Bool.false_ne_true ?_⟩
    rintro (htrue | hnone)
    · exact hcomplete htrue
    · cases hnext.symm.trans hnone

/-- A cursor that does not advance is one of a window that does not end. -/
lemma Assembly.rejected_of_advance {extended : Assembly} (h : extended.advance r = .error e) :
    Rejected D st r e.error := by
  rw [Assembly.advance] at h
  split at h
  · cases h
  · cases h
  · next next hnext hcomplete =>
    split_ifs at h
    rw [← Except.error.inj h]
    refine .stuck ?_
    rintro (htrue | hnone)
    · exact hcomplete htrue
    · cases hnext.symm.trans hnone

/-! ### The whole iteration -/

/-- **A window that is not rejected is taken.** -/
lemma taken_of_absorb (h : absorb D st r = .ok (st', complete)) : Taken D st r st' complete := by
  obtain ⟨declared, extended, hdeclare, hct, hadvance⟩ := absorb_parts h
  obtain ⟨htotal, hbuf⟩ := Assembly.of_declare hdeclare
  obtain ⟨hdecodes, htotal', hbuf'⟩ := Assembly.of_takeCiphertext hct
  obtain ⟨htotal'', hbuf'', hends⟩ := Assembly.of_advance hadvance
  rw [Assembly.total_takeLens] at htotal'
  rw [Assembly.buf_takeLens] at hbuf'
  rw [Assembly.total_takeProof] at htotal''
  rw [Assembly.buf_takeProof] at hbuf''
  refine ⟨hdecodes, ?_, ?_, hends⟩
  · rw [htotal'', htotal', htotal]
  · rw [hbuf'', hbuf', hbuf]

/-- **Every window that is not taken is rejected for one of the reasons.** -/
lemma rejected_of_absorb (h : absorb D st r = .error e) : Rejected D st r e.error := by
  rw [absorb] at h
  rcases Except.bind_eq_error_iff.1 h with hdeclare | ⟨declared, hdeclare, h⟩
  · exact Assembly.rejected_of_declare hdeclare
  obtain ⟨htotal, hbuf⟩ := Assembly.of_declare hdeclare
  rcases Except.bind_eq_error_iff.1 h with hct | ⟨extended, -, hadvance⟩
  · exact Assembly.rejected_of_takeCiphertext (Assembly.total_takeLens.trans htotal)
      (Assembly.buf_takeLens.trans hbuf) hct
  · exact Assembly.rejected_of_advance hadvance

/-! ### The end of a fetch -/

/-- The buffers that a conversation hands to the read-crypto. -/
def handed (t : List (Event Op Ans)) : List Bytes :=
  t.filterMap fun
    | ⟨.verifyAndDecrypt _ ciphertext _ _ _, _⟩ => some ciphertext
    | _ => none

/-- The result of a fetch after its loop: the error of the loop, or what the read-crypto makes of
the assembled buffer. -/
inductive Ending (parsed : ParsedUrn) (root : String) (t : List (Event Op Ans)) :
    Except ResolveError Assembly → Except ResolveError Fetched → Prop
  | failed {e : ResolveError} (hhanded : handed t = []) : Ending parsed root t (.error e) (.error e)
  | judged {st : Assembly} {verdict : Except ResolveError Bytes} (hhanded : handed t = [st.buf])
      (hverdict : ⟨verification parsed root st, verdict⟩ ∈ t) :
      Ending parsed root t (.ok st) (verdict.map (fetched parsed root st))

variable {base root : String} {parsed : ParsedUrn} {t : List (Event Op Ans)}
  {res : Except ResolveError Fetched}

@[simp] lemma handed_append (t t' : List (Event Op Ans)) :
    handed (t ++ t') = handed t ++ handed t' := List.filterMap_append

@[simp] lemma handed_map_event (rounds : List Round) :
    handed (rounds.map (Round.event D base parsed root)) = [] := by
  rw [handed, List.filterMap_eq_nil_iff]
  intro e he
  obtain ⟨x, -, rfl⟩ := List.mem_map.1 he
  rfl

/-- **A fetch is a loop with its end.** -/
lemma Fetches.ending (h : Fetches D base parsed t res) (hroot : parsed.rootHex = some root) :
    ∃ rounds out, Rounds D 0 {} rounds out ∧ replies t = rounds.map Round.answer ∧
      Ending parsed root t out res := by
  cases h with
  | rootless hnone => cases hroot.symm.trans hnone
  | @failed root' rounds e hroot' hrounds =>
    exact ⟨rounds, _, hrounds, replies_map_event rounds, .failed (handed_map_event rounds)⟩
  | @assembled root' rounds st hroot' hrounds verdict =>
    obtain rfl := Option.some.inj (hroot'.symm.trans hroot)
    refine ⟨rounds, _, hrounds, ?_, .judged ?_ ?_⟩
    · rw [replies_append, replies_map_event, replies_verification, List.append_nil]
    · rw [handed_append, handed_map_event]
      rfl
    · exact List.mem_append_right _ (List.mem_singleton_self _)

end DigUrnResolver.Rpc
