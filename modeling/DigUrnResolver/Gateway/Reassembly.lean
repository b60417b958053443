/-
# Reassembly is exact

Against an honest gateway, what is assembled after some windows is the ciphertext up to the
next offset, whatever the cuts.  The proof and the chunk lengths are those of the resource as
soon as one window has given them.  At the end the whole ciphertext is verified, once, and the
result does not depend on the split.
-/
import DigUrnResolver.Gateway.Honest
import DigUrnResolver.Source.Sample

namespace DigUrnResolver.Rpc

open Interaction

variable {D : Deps} {R : Resource}

/-- A resource that a gateway may serve: 1 byte to 64 MiB, with a proof. -/
structure Resource.Legal (R : Resource) : Prop where
  pos : 1 ≤ R.ciphertext.length
  le : R.ciphertext.length ≤ maxResourceBytes.toNat
  proof : R.proof ≠ ""

/-! ### One window -/

/-- The assembly holds the ciphertext up to `o`, and of proof and chunk lengths nothing but
those of the resource. -/
structure Assembly.Progress (R : Resource) (o : ℕ) (st : Assembly) : Prop where
  total : st.total = none ∨ st.total = some (UInt64.ofNat R.ciphertext.length)
  buf : st.buf = R.ciphertext.take o
  proof : st.proof = "" ∨ st.proof = R.proof
  chunkLens : st.chunkLens = [] ∨ st.chunkLens = R.chunkLens

section Window

variable {o e : ℕ} {st st' : Assembly} {r : GetContent}

lemma maxResourceBytes_lt_size : maxResourceBytes.toNat < UInt64.size := by decide

lemma Resource.Legal.lt_size (hR : R.Legal) : R.ciphertext.length < UInt64.size :=
  Nat.lt_of_le_of_lt hR.le maxResourceBytes_lt_size

lemma Assembly.Progress.declare (hR : R.Legal) (hst : st.Progress R o) (hr : Serves D R o e r) :
    ∃ st', st.declare D r = .ok st' ∧ st'.Progress R o ∧
      st'.total = some (UInt64.ofNat R.ciphertext.length) ∧ st'.offset = st.offset ∧
      st'.proof = st.proof ∧ st'.chunkLens = st.chunkLens := by
  rcases hst.total with hnone | hsome
  · have hlt := hR.lt_size
    have hpos := hR.pos
    have hzero : ¬ UInt64.ofNat R.ciphertext.length = 0 := by
      intro h0
      have hnat := congrArg UInt64.toNat h0
      rw [UInt64.toNat_ofNat_of_lt' hlt] at hnat
      rw [hnat] at hpos
      exact absurd hpos (by decide)
    have hmax : ¬ UInt64.ofNat R.ciphertext.length > maxResourceBytes := by
      rw [gt_iff_lt, UInt64.not_lt, UInt64.ofNat_le_iff hlt]
      exact hR.le
    refine ⟨{ st with
      total := some r.totalLength
      reserved := some (r.totalLength.toNat % 2 ^ D.usizeBits) }, ?_, ?_, ?_, rfl, rfl, rfl⟩
    · rw [Assembly.declare]
      simp only [hnone]
      rw [if_neg (hr.total ▸ hzero), if_neg (hr.total ▸ hmax)]
    · exact ⟨Or.inr (congrArg some hr.total), hst.buf, hst.proof, hst.chunkLens⟩
    · exact congrArg some hr.total
  · refine ⟨st, ?_, hst, hsome, rfl, rfl, rfl⟩
    rw [Assembly.declare]
    simp only [hsome]

lemma Assembly.Progress.takeLens (hst : st.Progress R o) (hr : Serves D R o e r) :
    (st.takeLens r).Progress R o ∧
      (st.chunkLens = R.chunkLens ∨ r.chunkLens = some R.chunkLens →
        (st.takeLens r).chunkLens = R.chunkLens) := by
  rw [Assembly.takeLens]
  by_cases hnil : st.chunkLens = []
  · rw [if_pos hnil]
    rcases hr.chunkLens with hnone | hempty | hlens
    · simp only [hnone]
      refine ⟨hst, ?_⟩
      rintro (hlens | hlens)
      · exact hlens
      · cases hlens
    · simp only [hempty]
      refine ⟨⟨hst.total, hst.buf, hst.proof, Or.inl rfl⟩, ?_⟩
      rintro (hlens | hlens)
      · exact hnil.symm.trans hlens
      · exact Option.some.inj hlens
    · simp only [hlens]
      exact ⟨⟨hst.total, hst.buf, hst.proof, Or.inr rfl⟩, fun _ => trivial⟩
  · rw [if_neg hnil]
    exact ⟨hst, fun _ => hst.chunkLens.resolve_left hnil⟩

lemma Assembly.Progress.takeProof {k : ℕ} (hR : R.Legal) (hst : st.Progress R k)
    (hr : Serves D R o e r) : (st.takeProof r).Progress R k ∧
      (st.proof = R.proof ∨ r.inclusionProof = some R.proof →
        (st.takeProof r).proof = R.proof) := by
  rw [Assembly.takeProof]
  rcases hr.proof with hnone | hempty | hproof
  · simp only [hnone]
    refine ⟨hst, ?_⟩
    rintro (hproof | hproof)
    · exact hproof
    · cases hproof
  · simp only [hempty]
    refine ⟨hst, ?_⟩
    rintro (hproof | hproof)
    · exact hproof
    · exact absurd (Option.some.inj hproof).symm hR.proof
  · simp only [hproof]
    rw [if_neg hR.proof]
    exact ⟨⟨hst.total, hst.buf, Or.inr rfl, hst.chunkLens⟩, fun _ => rfl⟩

/-- The bytes of a window continue those before it. -/
lemma Resource.take_append_slice (hlt : o < e) :
    R.ciphertext.take o ++ R.slice o e = R.ciphertext.take e := by
  rw [Resource.slice]
  conv_rhs => rw [show e = o + (e - o) by omega]
  exact (List.take_add ..).symm

lemma Assembly.Progress.takeCiphertext (hR : R.Legal) (hst : st.Progress R o)
    (hr : Serves D R o e r) (hlt : o < e) (hle : e ≤ R.ciphertext.length)
    (htotal : st.total = some (UInt64.ofNat R.ciphertext.length)) :
    ∃ st', st.takeCiphertext D r = .ok st' ∧ st'.Progress R e ∧ st'.offset = st.offset ∧
      st'.proof = st.proof ∧ st'.chunkLens = st.chunkLens := by
  obtain ⟨text, htext, hdecode⟩ := hr.bytes
  have hbuf : st.buf ++ R.slice o e = R.ciphertext.take e := by
    rw [hst.buf]
    exact Resource.take_append_slice hlt
  have hlength : st.buf.length + (R.slice o e).length = e := by
    rw [← List.length_append, hbuf, List.length_take]
    exact Nat.min_eq_left hle
  -- the guard does not fire: the bytes so far are those up to `e`
  have hguard : ¬ UInt64.ofNat st.buf.length + UInt64.ofNat (R.slice o e).length >
      UInt64.ofNat R.ciphertext.length := by
    have hsize := hR.lt_size
    rw [← UInt64.ofNat_add, hlength, gt_iff_lt, UInt64.not_lt]
    exact (UInt64.ofNat_le_iff_le (Nat.lt_of_le_of_lt hle hsize) hsize).2 hle
  refine ⟨{ st with buf := st.buf ++ R.slice o e }, ?_, ?_, rfl, rfl, rfl⟩
  · rw [Assembly.takeCiphertext]
    simp only [htext, hdecode, htotal, Option.getD_some]
    rw [if_neg hguard]
  · exact ⟨hst.total, hbuf, hst.proof, hst.chunkLens⟩

lemma Assembly.advance_of_serves (hR : R.Legal) (hr : Serves D R o e r) (hlt : o < e)
    (hle : e ≤ R.ciphertext.length) (hoffset : st.offset = UInt64.ofNat o) :
    e < R.ciphertext.length ∧ st.advance r = .ok ({ st with offset := UInt64.ofNat e }, false) ∨
      e = R.ciphertext.length ∧ st.advance r = .ok (st, true) := by
  rcases Nat.lt_or_eq_of_le hle with hmore | hlast
  · refine Or.inl ⟨hmore, ?_⟩
    obtain ⟨hnext, hcomplete⟩ := hr.more hmore
    have hsize := hR.lt_size
    have hadvance : ¬ UInt64.ofNat e ≤ st.offset := by
      rw [hoffset, UInt64.not_le]
      exact (UInt64.ofNat_lt_iff_lt (by omega) (by omega)).2 hlt
    rw [Assembly.advance]
    simp only [hnext, hcomplete]
    rw [if_neg hadvance]
  · refine Or.inr ⟨hlast, ?_⟩
    rw [Assembly.advance]
    simp only [hr.last hlast]

/-- What an iteration does with a window of an honest gateway. -/
lemma Assembly.Progress.absorb (hR : R.Legal) (hst : st.Progress R o) (hr : Serves D R o e r)
    (hlt : o < e) (hle : e ≤ R.ciphertext.length) (hoffset : st.offset = UInt64.ofNat o) :
    ∃ st' complete, absorb D st r = .ok (st', complete) ∧ st'.Progress R e ∧
      (st.proof = R.proof ∨ r.inclusionProof = some R.proof → st'.proof = R.proof) ∧
      (st.chunkLens = R.chunkLens ∨ r.chunkLens = some R.chunkLens →
        st'.chunkLens = R.chunkLens) ∧
      (complete = true ∧ e = R.ciphertext.length ∨
        complete = false ∧ e < R.ciphertext.length ∧ st'.offset = UInt64.ofNat e) := by
  obtain ⟨st₁, hdeclare, hst₁, htotal, hoffset₁, hproof₁, hlens₁⟩ := hst.declare hR hr
  obtain ⟨hst₂, hlens₂⟩ := hst₁.takeLens hr
  obtain ⟨st₃, hct, hst₃, hoffset₃, hproof₃, hlens₃⟩ := hst₂.takeCiphertext hR hr hlt hle
    (Assembly.total_takeLens.trans htotal)
  obtain ⟨hst₄, hproof₄⟩ := hst₃.takeProof hR hr
  have hoffset₄ : (st₃.takeProof r).offset = UInt64.ofNat o := by
    rw [Assembly.offset_takeProof, hoffset₃, Assembly.offset_takeLens, hoffset₁, hoffset]
  have hproof : st.proof = R.proof ∨ r.inclusionProof = some R.proof →
      (st₃.takeProof r).proof = R.proof := by
    rw [hproof₃, Assembly.proof_takeLens, hproof₁] at hproof₄
    exact hproof₄
  have hlens : st.chunkLens = R.chunkLens ∨ r.chunkLens = some R.chunkLens →
      (st₃.takeProof r).chunkLens = R.chunkLens := by
    rw [hlens₁] at hlens₂
    rw [Assembly.chunkLens_takeProof, hlens₃]
    exact hlens₂
  have habsorb : Rpc.absorb D st r = (st₃.takeProof r).advance r := by
    simp only [Rpc.absorb, hdeclare, hct, bind, Except.bind]
  rcases Assembly.advance_of_serves hR hr hlt hle hoffset₄ with ⟨hmore, hadvance⟩ | ⟨hlast, hadvance⟩
  · refine ⟨_, false, habsorb.trans hadvance, ?_, hproof, hlens, Or.inr ⟨rfl, hmore, rfl⟩⟩
    exact ⟨hst₄.total, hst₄.buf, hst₄.proof, hst₄.chunkLens⟩
  · exact ⟨_, true, habsorb.trans hadvance, hst₄, hproof, hlens, Or.inl ⟨rfl, hlast⟩⟩

end Window

/-! ### Gateways -/

/-- An honest gateway of a resource: where it cuts, and what it answers. -/
structure Gateway (D : Deps) (R : Resource) where
  cut : ℕ → ℕ
  answer : UInt64 → Answer
  honest : ∀ o < R.ciphertext.length, Honest D R o (cut o) (answer (UInt64.ofNat o))

namespace Gateway

variable (g : Gateway D R)

/-- The offset of a window. -/
def start (i : ℕ) : ℕ := g.cut^[i] 0

lemma start_succ (i : ℕ) : g.start (i + 1) = g.cut (g.start i) := by
  rw [start, start, Function.iterate_succ_apply']

/-- One of the first windows gives the proof. -/
def GivesProof (n : ℕ) : Prop :=
  ∃ i < n, ∃ r, windowOf D (g.answer (UInt64.ofNat (g.start i))) = .ok r ∧
    r.inclusionProof = some R.proof

/-- One of the first windows gives the chunk lengths, which need not be given if there are
none. -/
def GivesLens (n : ℕ) : Prop :=
  R.chunkLens = [] ∨ ∃ i < n, ∃ r, windowOf D (g.answer (UInt64.ofNat (g.start i))) = .ok r ∧
    r.chunkLens = some R.chunkLens

/-- The gateway needs `n` windows, in which it gives the proof and the chunk lengths. -/
structure Completes (n : ℕ) : Prop where
  before : ∀ i < n, g.start i < R.ciphertext.length
  done : g.start n = R.ciphertext.length
  proof : g.GivesProof n
  chunkLens : g.GivesLens n

/-- The gateway answers the requests of a conversation. -/
def Answers (base : String) (parsed : ParsedUrn) (root : String) (t : List (Event Op Ans)) : Prop :=
  ∀ offset answer, (⟨request D base parsed root offset, answer⟩ : Event Op Ans) ∈ t →
    answer = g.answer offset

/-- The request and the answer for each of the first windows. -/
def talk (base : String) (parsed : ParsedUrn) (root : String) (n : ℕ) : List (Event Op Ans) :=
  (List.range n).map fun i =>
    ⟨request D base parsed root (UInt64.ofNat (g.start i)), g.answer (UInt64.ofNat (g.start i))⟩

variable {g}

lemma GivesProof.succ {n : ℕ} {r : GetContent} (h : g.GivesProof (n + 1))
    (hr : windowOf D (g.answer (UInt64.ofNat (g.start n))) = .ok r) :
    g.GivesProof n ∨ r.inclusionProof = some R.proof := by
  obtain ⟨i, hi, r', hr', hproof⟩ := h
  rcases Nat.lt_succ_iff_lt_or_eq.1 hi with hlt | rfl
  · exact Or.inl ⟨i, hlt, r', hr', hproof⟩
  · obtain rfl := Except.ok.inj (hr'.symm.trans hr)
    exact Or.inr hproof

lemma GivesLens.succ {n : ℕ} {r : GetContent} (h : g.GivesLens (n + 1))
    (hr : windowOf D (g.answer (UInt64.ofNat (g.start n))) = .ok r) :
    g.GivesLens n ∨ r.chunkLens = some R.chunkLens := by
  rcases h with hnil | ⟨i, hi, r', hr', hlens⟩
  · exact Or.inl (Or.inl hnil)
  · rcases Nat.lt_succ_iff_lt_or_eq.1 hi with hlt | rfl
    · exact Or.inl (Or.inr ⟨i, hlt, r', hr', hlens⟩)
    · obtain rfl := Except.ok.inj (hr'.symm.trans hr)
      exact Or.inr hlens

end Gateway

/-- What was assembled after `w` windows of a gateway. -/
structure Assembly.After (g : Gateway D R) (w : ℕ) (st : Assembly) : Prop where
  progress : st.Progress R (g.start w)
  offset : st.offset = UInt64.ofNat (g.start w)
  proof : g.GivesProof w → st.proof = R.proof
  chunkLens : g.GivesLens w → st.chunkLens = R.chunkLens

lemma Assembly.After.zero (g : Gateway D R) : Assembly.After g 0 {} := by
  refine ⟨⟨Or.inl rfl, rfl, Or.inl rfl, Or.inl rfl⟩, rfl, ?_, ?_⟩
  · rintro ⟨i, hi, -⟩
    exact absurd hi (Nat.not_lt_zero i)
  · rintro (hnil | ⟨i, hi, -⟩)
    · exact hnil.symm
    · exact absurd hi (Nat.not_lt_zero i)

section Run

variable {g : Gateway D R} {n w : ℕ} {st : Assembly}

/-- One more window. -/
lemma Assembly.After.absorb (hR : R.Legal) (hg : g.Completes n) (hw : w < n) (hst : st.After g w) :
    ∃ r st' complete, windowOf D (g.answer st.offset) = .ok r ∧
      absorb D st r = .ok (st', complete) ∧
      (complete = true ∧ w + 1 = n ∧ st'.buf = R.ciphertext ∧ st'.proof = R.proof ∧
          st'.chunkLens = R.chunkLens ∨
        complete = false ∧ w + 1 < n ∧ st'.After g (w + 1)) := by
  have hle : w + 1 ≤ n := hw
  have hhonest := g.honest _ (hg.before w hw)
  rw [← g.start_succ] at hhonest
  obtain ⟨r, hwindow, hserves⟩ := hhonest.window
  obtain ⟨st', complete, habsorb, hprogress, hproof, hlens, hcases⟩ :=
    hst.progress.absorb hR hserves hhonest.lt hhonest.le_length hst.offset
  have hproof' : g.GivesProof (w + 1) → st'.proof = R.proof :=
    fun hgives => hproof ((hgives.succ hwindow).imp_left hst.proof)
  have hlens' : g.GivesLens (w + 1) → st'.chunkLens = R.chunkLens :=
    fun hgives => hlens ((hgives.succ hwindow).imp_left hst.chunkLens)
  refine ⟨r, st', complete, by rw [hst.offset]; exact hwindow, habsorb, ?_⟩
  rcases hcases with ⟨hcomplete, hlast⟩ | ⟨hcomplete, hmore, hoffset⟩
  · -- the window reaches the end, hence it is the last one that the gateway needs
    have hend : w + 1 = n := by
      rcases Nat.lt_or_eq_of_le hle with hlt | heq
      · have hbefore := hg.before (w + 1) hlt
        omega
      · exact heq
    subst hend
    refine Or.inl ⟨hcomplete, rfl, ?_, hproof' hg.proof, hlens' hg.chunkLens⟩
    rw [hprogress.buf, hlast, List.take_length]
  · have hnext : w + 1 < n := by
      rcases Nat.lt_or_eq_of_le hle with hlt | heq
      · exact hlt
      · have hdone := hg.done
        rw [← heq] at hdone
        omega
    exact Or.inr ⟨hcomplete, hnext, hprogress, hoffset, hproof', hlens'⟩

/-- The rounds against an honest gateway: each asks for the next window, and the loop is left
with the whole resource. -/
lemma Rounds.honest {rounds : List Round} {res : Except ResolveError Assembly} (hR : R.Legal)
    (hg : g.Completes n) (hn : n ≤ maxWindows) (h : Rounds D w st rounds res) (hw : w < n)
    (hst : st.After g w) (hanswers : ∀ x ∈ rounds, x.answer = g.answer x.st.offset) :
    (∃ st', res = .ok st' ∧ st'.buf = R.ciphertext ∧ st'.proof = R.proof ∧
      st'.chunkLens = R.chunkLens) ∧
      rounds.map (fun x => x.st.offset) =
        (List.range' w (n - w)).map fun i => UInt64.ofNat (g.start i) := by
  induction h with
  | exhausted hw' => omega
  | @unanswered w st answer e _ hr =>
    obtain ⟨r, st', complete, hwindow, -⟩ := hst.absorb hR hg hw
    have hanswer : answer = g.answer st.offset := hanswers _ List.mem_cons_self
    rw [hanswer, hwindow] at hr
    cases hr
  | @rejected w st answer r e _ hr habsorb =>
    obtain ⟨r', st', complete, hwindow, habsorb', -⟩ := hst.absorb hR hg hw
    have hanswer : answer = g.answer st.offset := hanswers _ List.mem_cons_self
    rw [hanswer] at hr
    obtain rfl := Except.ok.inj (hwindow.symm.trans hr)
    cases habsorb.symm.trans habsorb'
  | @complete w st st₁ answer r _ hr habsorb =>
    obtain ⟨r', st', complete, hwindow, habsorb', hcases⟩ := hst.absorb hR hg hw
    have hanswer : answer = g.answer st.offset := hanswers _ List.mem_cons_self
    rw [hanswer] at hr
    obtain rfl := Except.ok.inj (hwindow.symm.trans hr)
    cases habsorb.symm.trans habsorb'
    rcases hcases with ⟨-, rfl, hbuf, hproof, hlens⟩ | ⟨hfalse, -⟩
    · refine ⟨⟨_, rfl, hbuf, hproof, hlens⟩, ?_⟩
      rw [Nat.add_sub_cancel_left, List.range'_one, List.map_singleton, List.map_singleton,
        hst.offset]
    · cases hfalse
  | @next w st st₁ answer r rounds res _ hr habsorb _ ih =>
    obtain ⟨r', st', complete, hwindow, habsorb', hcases⟩ := hst.absorb hR hg hw
    have hanswer : answer = g.answer st.offset := hanswers _ List.mem_cons_self
    rw [hanswer] at hr
    obtain rfl := Except.ok.inj (hwindow.symm.trans hr)
    cases habsorb.symm.trans habsorb'
    rcases hcases with ⟨htrue, -⟩ | ⟨-, hnext, hafter⟩
    · cases htrue
    · obtain ⟨hres, hoffsets⟩ := ih hnext hafter fun x hx => hanswers x (List.mem_cons_of_mem _ hx)
      refine ⟨hres, ?_⟩
      have hrange : n - w = (n - (w + 1)) + 1 := by omega
      rw [List.map_cons, hoffsets, hrange, List.range'_succ, List.map_cons, hst.offset]

end Run

/-! ### The fetch -/

section Fetch

variable {base root : String} {parsed : ParsedUrn}

/-- The result for a resource whose plaintext is `bytes`. -/
def Resource.delivered (R : Resource) (parsed : ParsedUrn) (root : String) (bytes : Bytes) :
    Fetched where
  data := ⟨bytes, deriveContentType parsed.resourceKey bytes⟩
  root := some root
  artifacts := some ⟨R.ciphertext, R.proof, R.chunkLens⟩

/-- The whole resource is verified. -/
def Resource.verification (R : Resource) (parsed : ParsedUrn) (root : String) : Op :=
  .verifyAndDecrypt parsed R.ciphertext R.proof root R.chunkLens

/-- The requests of a fetch from an honest gateway, and what is verified in the end. -/
lemma Fetches.honest {g : Gateway D R} {n : ℕ} {t : List (Event Op Ans)}
    {res : Except ResolveError Fetched} (hroot : parsed.rootHex = some root) (hR : R.Legal)
    (hg : g.Completes n) (hn : n ≤ maxWindows) (h : Fetches D base parsed t res)
    (hanswers : g.Answers (Text.trimEndMatches '/' base) parsed root t) :
    ∃ verdict, t = g.talk (Text.trimEndMatches '/' base) parsed root n ++
        [⟨R.verification parsed root, verdict⟩] ∧
      res = verdict.map (R.delivered parsed root) := by
  have hpos : 0 < n := by
    obtain ⟨i, hi, -⟩ := hg.proof
    omega
  cases h with
  | rootless hnone => cases hroot.symm.trans hnone
  | @failed root' rounds e hroot' hrounds =>
    obtain rfl := Option.some.inj (hroot'.symm.trans hroot)
    have hanswered : ∀ x ∈ rounds, x.answer = g.answer x.st.offset :=
      fun x hx => hanswers _ _ (List.mem_map_of_mem hx)
    obtain ⟨⟨st', hres, -⟩, -⟩ := hrounds.honest hR hg hn hpos (.zero g) hanswered
    cases hres
  | @assembled root' rounds st hroot' hrounds verdict =>
    obtain rfl := Option.some.inj (hroot'.symm.trans hroot)
    have hanswered : ∀ x ∈ rounds, x.answer = g.answer x.st.offset :=
      fun x hx => hanswers _ _ (List.mem_append_left _ (List.mem_map_of_mem hx))
    obtain ⟨⟨st', hres, hbuf, hproof, hlens⟩, hoffsets⟩ :=
      hrounds.honest hR hg hn hpos (.zero g) hanswered
    obtain rfl := Except.ok.inj hres
    have hevents : rounds.map (Round.event D (Text.trimEndMatches '/' base) parsed root') =
        (rounds.map fun x => x.st.offset).map fun offset =>
          ⟨request D (Text.trimEndMatches '/' base) parsed root' offset, g.answer offset⟩ := by
      rw [List.map_map]
      refine List.map_congr_left ?_
      intro x hx
      rw [Round.event, hanswered x hx]
      rfl
    obtain ⟨buf, total, proof, lens, offset, reserved⟩ := st
    obtain rfl : buf = R.ciphertext := hbuf
    obtain rfl : proof = R.proof := hproof
    obtain rfl : lens = R.chunkLens := hlens
    refine ⟨verdict, ?_, rfl⟩
    rw [hevents, hoffsets, List.map_map, Nat.sub_zero, ← List.range_eq_range']
    rfl

/-- The offset that a request asks for. -/
def requestedOffset : Json → Option UInt64
  | body => ((body.get "params").bind (Json.get "offset")).bind Json.asU64

/-- Surroundings in which the gateway answers, and the read-crypto gives a verdict. -/
def Gateway.surroundings (g : Gateway D R) (verdict : Except ResolveError Bytes) :
    (op : Op) → Ans op
  | .get _ => .error ⟨"connection refused"⟩
  | .postJson _ body => g.answer ((requestedOffset body).getD 0)
  | .resolvesToLoopback _ => false
  | .verifyAndDecrypt _ _ _ _ _ => verdict
  | .memoryGet _ => none
  | .memoryPut _ _ => ()
  | .diskGet _ => none
  | .diskPut _ _ => ()
  | .diskRemove _ => ()
  | .planGet => none
  | .planSet _ => ()

/-- The gateway can be asked, and the verification be answered in any way. -/
lemma exists_talk (g : Gateway D R) (base root : String) (parsed : ParsedUrn)
    (verdict : Except ResolveError Bytes) : ∃ t res, (fetch D base parsed).Trace t res ∧
      g.Answers (Text.trimEndMatches '/' base) parsed root t ∧
      ∀ u c p r l ans, (⟨.verifyAndDecrypt u c p r l, ans⟩ : Event Op Ans) ∈ t → ans = verdict := by
  obtain ⟨t, res, htrace, hans⟩ :=
    Program.exists_trace (g.surroundings verdict) (fetch D base parsed)
  refine ⟨t, res, htrace, ?_, ?_⟩
  · intro offset answer he
    exact hans _ he
  · intro u c p r l ans he
    exact hans _ he

/-- The starts of full windows. -/
lemma Gateway.start_of_full (g : Gateway D R)
    (hfull : ∀ o < R.ciphertext.length,
      g.cut o = min (o + rpcWindowBytes.toNat) R.ciphertext.length) {i : ℕ}
    (hi : ∀ j < i, j * rpcWindowBytes.toNat < R.ciphertext.length) :
    g.start i = min (i * rpcWindowBytes.toNat) R.ciphertext.length := by
  induction i with
  | zero =>
    rw [Nat.zero_mul, Nat.zero_min]
    rfl
  | succ i ih =>
    have hlt := hi i (Nat.lt_succ_self i)
    have hstart := ih fun j hj => hi j (Nat.lt_succ_of_lt hj)
    rw [Nat.min_eq_left (Nat.le_of_lt hlt)] at hstart
    rw [g.start_succ, hstart, hfull _ hlt, Nat.succ_mul]

/-- Full windows reach the end of 64 MiB within the allowed number of windows. -/
lemma Gateway.windows_of_full (g : Gateway D R) (hR : R.Legal)
    (hfull : ∀ o < R.ciphertext.length,
      g.cut o = min (o + rpcWindowBytes.toNat) R.ciphertext.length) :
    ∃ n ≤ maxWindows, (∀ i < n, g.start i < R.ciphertext.length) ∧
      g.start n = R.ciphertext.length := by
  have hwindow : rpcWindowBytes.toNat = 3145728 := by decide
  have hmax : maxWindows = 37 := by decide
  have hbytes : maxResourceBytes.toNat = 67108864 := by decide
  have hle := hR.le
  have hstart : ∀ i, (∀ j < i, j * rpcWindowBytes.toNat < R.ciphertext.length) →
      g.start i = min (i * rpcWindowBytes.toNat) R.ciphertext.length :=
    fun i hi => g.start_of_full hfull hi
  rw [hwindow] at hstart
  -- the number of windows is the length over the window size, rounded up
  refine ⟨(R.ciphertext.length + 3145727) / 3145728, by omega, ?_, ?_⟩
  · intro i hi
    rw [hstart i (by omega)]
    omega
  · rw [hstart _ (by omega)]
    omega

/-- The verification of a fetch is the only one. -/
lemma Gateway.verdict_of_mem (g : Gateway D R) {n : ℕ} {v verdict : Except ResolveError Bytes}
    (h : (⟨R.verification parsed root, verdict⟩ : Event Op Ans) ∈
      g.talk base parsed root n ++ [⟨R.verification parsed root, v⟩]) : v = verdict := by
  rcases List.mem_append.1 h with htalk | hlast
  · obtain ⟨i, -, heq⟩ := List.mem_map.1 htalk
    cases heq
  · cases List.mem_singleton.1 hlast
    rfl

/-- **Reassembly is exact and independent of the split.**  Against an honest gateway that needs
at most `maxWindows` windows, the fetch consists of one request for each of them and of one
verification, of the whole ciphertext; its result is that of the verification.  Two such
gateways lead to the same result.  Full windows never are too many. -/
theorem reassembly_exact (hroot : parsed.rootHex = some root) (hR : R.Legal) :
    (∀ (g : Gateway D R) (n : ℕ), g.Completes n → n ≤ maxWindows → ∀ t res,
      (fetch D base parsed).Trace t res ∧
          g.Answers (Text.trimEndMatches '/' base) parsed root t ↔
        ∃ verdict, t = g.talk (Text.trimEndMatches '/' base) parsed root n ++
            [⟨R.verification parsed root, verdict⟩] ∧
          res = verdict.map (R.delivered parsed root)) ∧
    (∀ (g g' : Gateway D R) (n n' : ℕ), g.Completes n → n ≤ maxWindows → g'.Completes n' →
      n' ≤ maxWindows → ∀ t res t' res' verdict, (fetch D base parsed).Trace t res →
        g.Answers (Text.trimEndMatches '/' base) parsed root t →
        (fetch D base parsed).Trace t' res' →
        g'.Answers (Text.trimEndMatches '/' base) parsed root t' →
        ⟨R.verification parsed root, verdict⟩ ∈ t → ⟨R.verification parsed root, verdict⟩ ∈ t' →
        res = res') ∧
    ∀ g : Gateway D R, (∀ o < R.ciphertext.length,
      g.cut o = min (o + rpcWindowBytes.toNat) R.ciphertext.length) →
      ∃ n ≤ maxWindows, (∀ i < n, g.start i < R.ciphertext.length) ∧
        g.start n = R.ciphertext.length := by
  refine ⟨?_, ?_, ?_⟩
  · intro g n hg hn t res
    constructor
    · rintro ⟨htrace, hanswers⟩
      exact (trace_fetch htrace).honest hroot hR hg hn hanswers
    · rintro ⟨verdict, rfl, rfl⟩
      obtain ⟨t, res, htrace, hanswers, hverdict⟩ := exists_talk g base root parsed verdict
      obtain ⟨verdict', rfl, rfl⟩ := (trace_fetch htrace).honest hroot hR hg hn hanswers
      obtain rfl : verdict' = verdict :=
        hverdict _ _ _ _ _ _ (List.mem_append_right _ (List.mem_singleton_self _))
      exact ⟨htrace, hanswers⟩
  · intro g g' n n' hg hn hg' hn' t res t' res' verdict ht hanswers ht' hanswers' hmem hmem'
    obtain ⟨v, rfl, rfl⟩ := (trace_fetch ht).honest hroot hR hg hn hanswers
    obtain ⟨v', rfl, rfl⟩ := (trace_fetch ht').honest hroot hR hg' hn' hanswers'
    rw [g.verdict_of_mem hmem, g'.verdict_of_mem hmem']
  · intro g hfull
    exact g.windows_of_full hR hfull

end Fetch

/-! ### Three bytes in two windows -/

namespace Gateway

/-- Three bytes, with the chunk lengths in the first window and the proof in the second. -/
def three : Resource := ⟨[1, 2, 3], "proof", [3]⟩

/-- The fields of the answer at an offset. -/
def threeFields : ℕ → List (String × Json)
  | 0 => [("total_length", count 3), ("offset", count 0), ("next_offset", count 2),
      ("complete", .bool false), ("ciphertext", .string "AQI="), ("inclusion_proof", .string ""),
      ("chunk_lens", .array [count 3])]
  | 1 => [("total_length", count 3), ("next_offset", count 2), ("complete", .bool false),
      ("ciphertext", .string "Ag==")]
  | _ => [("total_length", count 3), ("complete", .bool true), ("ciphertext", .string "Aw=="),
      ("inclusion_proof", .string "proof"), ("chunk_lens", .null)]

/-- The executable instance, whose JSON texts are the answers at the offsets. -/
def threeDeps : Deps :=
  sample ([0, 1, 2].map fun o : ℕ =>
    ([UInt8.ofNat o], .object [("result", .object (threeFields o))])) []

def threeAnswer (offset : UInt64) : Answer := .ok ⟨200, [], [offset.toUInt8]⟩

lemma threeFields_zero : HonestFields threeDeps three 0 2 (threeFields 0) where
  total := rfl
  offset := Or.inr rfl
  bytes := ⟨_, rfl, by decide +kernel⟩
  more _ := ⟨rfl, rfl⟩
  last h := absurd h (by decide)
  proof := Or.inr (Or.inr (Or.inl rfl))
  chunkLens := Or.inr (Or.inr (Or.inr rfl))

lemma threeFields_one : HonestFields threeDeps three 1 2 (threeFields 1) where
  total := rfl
  offset := Or.inl rfl
  bytes := ⟨_, rfl, by decide +kernel⟩
  more _ := ⟨rfl, rfl⟩
  last h := absurd h (by decide)
  proof := Or.inl rfl
  chunkLens := Or.inl rfl

lemma threeFields_two : HonestFields threeDeps three 2 3 (threeFields 2) where
  total := rfl
  offset := Or.inl rfl
  bytes := ⟨_, rfl, by decide +kernel⟩
  more h := absurd h (by decide)
  last _ := ⟨rfl, Or.inl rfl⟩
  proof := Or.inr (Or.inr (Or.inr rfl))
  chunkLens := Or.inr (Or.inl rfl)

/-- The gateway that cuts after two bytes. -/
def twoWindows : Gateway threeDeps three where
  cut o := if o < 2 then 2 else 3
  answer := threeAnswer
  honest := by
    intro o ho
    have ho' : o < 3 := ho
    have hcases : o = 0 ∨ o = 1 ∨ o = 2 := by omega
    rcases hcases with rfl | rfl | rfl
    · exact ⟨by decide, by decide, by decide,
        _, _, _, rfl, rfl, rfl, Or.inl rfl, rfl, threeFields_zero⟩
    · exact ⟨by decide, by decide, by decide,
        _, _, _, rfl, rfl, rfl, Or.inl rfl, rfl, threeFields_one⟩
    · exact ⟨by decide, by decide, by decide,
        _, _, _, rfl, rfl, rfl, Or.inl rfl, rfl, threeFields_two⟩

lemma completes_twoWindows : twoWindows.Completes 2 where
  before := by decide
  done := rfl
  proof := ⟨1, by decide, _, rfl, rfl⟩
  chunkLens := Or.inr ⟨0, by decide, _, rfl, rfl⟩

/-- The three bytes are verified as a whole, after two requests. -/
theorem reassembly_exact_three :
    (fetch threeDeps "https://rpc.example" (Sample.parsed "chia")).Trace
      (twoWindows.talk (Text.trimEndMatches '/' "https://rpc.example") (Sample.parsed "chia")
          Sample.hex.text 2 ++
        [⟨three.verification (Sample.parsed "chia") Sample.hex.text, .ok [9]⟩])
      (.ok (three.delivered (Sample.parsed "chia") Sample.hex.text [9])) :=
  (((reassembly_exact rfl ⟨by decide, by decide, by decide⟩).1 twoWindows 2 completes_twoWindows
    (by decide) _ _).2 ⟨.ok [9], rfl, rfl⟩).1

end Gateway

end DigUrnResolver.Rpc
