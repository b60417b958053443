/-
# Bounded work against a hostile gateway

Nothing that the gateway answers is trusted, not even its lengths and offsets.  What an
iteration does is bounded by what is declared in the first window: the declared length lies
between one byte and 64 MiB when the buffer is reserved, the buffer stays within it, and no
sum or cast on the way wraps.  The window counter and the growing cursor bound the number of
iterations.
-/
import DigUrnResolver.Gateway.Rounds
import DigUrnResolver.Source.Sample

namespace DigUrnResolver.Rpc

open Interaction

/-! ### One iteration -/

/-- The buffer is reserved for `total` bytes and within them. -/
structure Assembly.Within (total : UInt64) (st : Assembly) : Prop where
  declared : st.total = some total
  pos : 1 ≤ total.toNat
  le : total ≤ maxResourceBytes
  -- in particular the cast of the length to `usize` is exact
  reserved : st.reserved = some total.toNat
  buf : st.buf.length ≤ total.toNat

/-- Either nothing is declared, reserved or received, or the buffer is within what is declared. -/
def Assembly.Sound (st : Assembly) : Prop :=
  match st.total with
  | none => st.buf = [] ∧ st.reserved = none
  | some total => st.Within total

/-- The length that is declared once the window has been looked at. -/
def Assembly.declaredWith (st : Assembly) (r : GetContent) : UInt64 := st.total.getD r.totalLength

/-- The assemblies that an iteration goes through after the declared length is fixed. -/
def Assembly.moments (D : Deps) (st : Assembly) (r : GetContent) : List Assembly :=
  match st.declare D r with
  | .error _ => []
  | .ok declared =>
    declared :: match (declared.takeLens r).takeCiphertext D r with
      | .error _ => []
      | .ok extended => [extended, extended.takeProof r]

/-- The ciphertext of a window fits into the machine words it is measured with: the lengths
are cast exactly, and their sum does not wrap. -/
def Assembly.Exact (D : Deps) (st : Assembly) (r : GetContent) : Prop :=
  ∀ ct chunk, r.ciphertext = some ct → D.base64Decode (Text.trim ct) = some chunk →
    (UInt64.ofNat st.buf.length).toNat = st.buf.length ∧
    (UInt64.ofNat chunk.length).toNat = chunk.length ∧
    (UInt64.ofNat st.buf.length + UInt64.ofNat chunk.length).toNat =
      st.buf.length + chunk.length

/-- `usize` has 32 or 64 bits, and no vector is longer than `isize::MAX`. -/
structure MachineWords (D : Deps) : Prop where
  bits : D.usizeBits = 32 ∨ D.usizeBits = 64
  decoded : ∀ s bytes, D.base64Decode s = some bytes → bytes.length < 2 ^ (D.usizeBits - 1)

variable {D : Deps} {st st' : Assembly} {r : GetContent} {total : UInt64}

lemma toNat_maxResourceBytes : maxResourceBytes.toNat = 64 * 1024 * 1024 := by decide

/-- A length of at most 64 MiB is a `usize`. -/
lemma MachineWords.cast_eq (hD : MachineWords D) (h : total ≤ maxResourceBytes) :
    total.toNat % 2 ^ D.usizeBits = total.toNat := by
  have hle : total.toNat ≤ 64 * 1024 * 1024 := by
    rw [← toNat_maxResourceBytes]
    exact UInt64.le_iff_toNat_le.1 h
  refine Nat.mod_eq_of_lt ?_
  rcases hD.bits with hbits | hbits
  · rw [hbits]
    omega
  · rw [hbits]
    omega

lemma MachineWords.length_lt (hD : MachineWords D) {s : String} {bytes : Bytes}
    (h : D.base64Decode s = some bytes) : bytes.length < 2 ^ 63 := by
  have hlt := hD.decoded s bytes h
  rcases hD.bits with hbits | hbits
  · rw [hbits] at hlt
    omega
  · rw [hbits] at hlt
    omega

/-- A decoder that refuses what is too long for a machine with 64 bits. -/
lemma MachineWords.of_filter {decode : String → Option Bytes} (hbits : D.usizeBits = 64)
    (hdecode : ∀ s, D.base64Decode s = (decode s).filter fun bytes => bytes.length < 2 ^ 63) :
    MachineWords D where
  bits := Or.inr hbits
  decoded := by
    intro s bytes h
    rw [hdecode] at h
    rw [hbits]
    simpa using (Option.filter_eq_some_iff.1 h).2

lemma Assembly.exact_of_length_le (hD : MachineWords D) (h : st.buf.length ≤ 64 * 1024 * 1024) :
    st.Exact D r := by
  intro ct chunk _ hchunk
  have hlt := hD.length_lt hchunk
  have hsize : UInt64.size = 2 ^ 64 := rfl
  have hbufcast : (UInt64.ofNat st.buf.length).toNat = st.buf.length :=
    UInt64.toNat_ofNat_of_lt' (by omega)
  have hchunkcast : (UInt64.ofNat chunk.length).toNat = chunk.length :=
    UInt64.toNat_ofNat_of_lt' (by omega)
  refine ⟨hbufcast, hchunkcast, ?_⟩
  rw [UInt64.toNat_add, hbufcast, hchunkcast]
  exact Nat.mod_eq_of_lt (by omega)

lemma Assembly.Within.length_le (h : st.Within total) : st.buf.length ≤ 64 * 1024 * 1024 := by
  have hbuf := h.buf
  have hle := UInt64.le_iff_toNat_le.1 h.le
  rw [toNat_maxResourceBytes] at hle
  omega

lemma Assembly.Sound.length_le (h : st.Sound) : st.buf.length ≤ 64 * 1024 * 1024 := by
  rw [Assembly.Sound] at h
  cases htotal : st.total with
  | none =>
    simp only [htotal] at h
    rw [h.1]
    exact Nat.zero_le _
  | some total =>
    simp only [htotal] at h
    exact h.length_le

lemma Assembly.Sound.declare (hD : MachineWords D) (hst : st.Sound)
    (h : st.declare D r = .ok st') : st'.Within (st.declaredWith r) := by
  rw [Assembly.declare] at h
  rw [Assembly.Sound] at hst
  rw [Assembly.declaredWith]
  cases htotal : st.total with
  | some total =>
    simp only [htotal] at h hst
    obtain rfl := Except.ok.inj h
    exact hst
  | none =>
    simp only [htotal] at h hst
    split_ifs at h with hzero hmax
    obtain rfl := Except.ok.inj h
    have hle : r.totalLength ≤ maxResourceBytes := UInt64.not_lt.1 hmax
    refine ⟨rfl, ?_, hle, congrArg some (hD.cast_eq hle), ?_⟩
    · rw [Nat.one_le_iff_ne_zero]
      intro h0
      exact hzero (UInt64.toNat_inj.1 h0)
    · rw [hst.1]
      exact Nat.zero_le _

lemma Assembly.Within.takeLens (h : st.Within total) : (st.takeLens r).Within total := by
  rw [Assembly.takeLens]
  split_ifs
  · cases r.chunkLens with
    | none => exact h
    | some lens => exact ⟨h.declared, h.pos, h.le, h.reserved, h.buf⟩
  · exact h

lemma Assembly.Within.takeProof (h : st.Within total) : (st.takeProof r).Within total := by
  rw [Assembly.takeProof]
  cases r.inclusionProof with
  | none => exact h
  | some p =>
    dsimp only
    split_ifs
    · exact h
    · exact ⟨h.declared, h.pos, h.le, h.reserved, h.buf⟩

lemma Assembly.Within.takeCiphertext (hD : MachineWords D) (h : st.Within total)
    (hct : st.takeCiphertext D r = .ok st') : st'.Within total := by
  have hexact : st.Exact D r := Assembly.exact_of_length_le hD h.length_le
  rw [Assembly.takeCiphertext] at hct
  cases hr : r.ciphertext with
  | none =>
    simp only [hr] at hct
    obtain rfl := Except.ok.inj hct
    exact h
  | some ct =>
    simp only [hr] at hct
    cases hdecode : D.base64Decode (Text.trim ct) with
    | none => simp [hdecode] at hct
    | some chunk =>
      simp only [hdecode, h.declared, Option.getD_some] at hct
      split_ifs at hct with hgt
      obtain rfl := Except.ok.inj hct
      refine ⟨rfl, h.pos, h.le, h.reserved, ?_⟩
      -- the guard compares the exact sum with the declared length
      have hsum := UInt64.le_iff_toNat_le.1 (UInt64.not_lt.1 hgt)
      rw [(hexact ct chunk hr hdecode).2.2] at hsum
      rw [List.length_append]
      exact hsum

/-- Whatever the window, the buffer stays within the declared length all through the iteration. -/
lemma Assembly.Sound.moments (hD : MachineWords D) (hst : st.Sound) :
    ∀ s ∈ st.moments D r, s.Within (st.declaredWith r) := by
  intro s hs
  rw [Assembly.moments] at hs
  cases hdeclare : st.declare D r with
  | error e => simp [hdeclare] at hs
  | ok declared =>
    have hdeclared := hst.declare hD hdeclare
    simp only [hdeclare] at hs
    rcases List.mem_cons.1 hs with rfl | hs
    · exact hdeclared
    · cases hct : (declared.takeLens r).takeCiphertext D r with
      | error e => simp [hct] at hs
      | ok extended =>
        have hextended := hdeclared.takeLens.takeCiphertext hD hct
        simp only [hct, List.mem_cons, List.not_mem_nil, or_false] at hs
        rcases hs with rfl | rfl
        · exact hextended
        · exact hextended.takeProof

/-! ### A rejected window

Each part of an iteration looks before it acts: nothing is reserved or appended for a window
that is then rejected.
-/

lemma Assembly.st_of_declare {e : Rejection} (h : st.declare D r = .error e) : e.st = st := by
  rw [Assembly.declare] at h
  cases htotal : st.total with
  | some total =>
    simp only [htotal] at h
    cases h
  | none =>
    simp only [htotal] at h
    split_ifs at h
    · rw [← Except.error.inj h]
    · rw [← Except.error.inj h]

lemma Assembly.st_of_takeCiphertext {e : Rejection} (h : st.takeCiphertext D r = .error e) :
    e.st = st := by
  rw [Assembly.takeCiphertext] at h
  cases hct : r.ciphertext with
  | none =>
    simp only [hct] at h
    cases h
  | some ct =>
    simp only [hct] at h
    cases hdecode : D.base64Decode (Text.trim ct) with
    | none =>
      simp only [hdecode] at h
      rw [← Except.error.inj h]
    | some chunk =>
      simp only [hdecode] at h
      split_ifs at h
      rw [← Except.error.inj h]

lemma Assembly.st_of_advance {e : Rejection} (h : st.advance r = .error e) : e.st = st := by
  rw [Assembly.advance] at h
  split at h
  · cases h
  · cases h
  · split_ifs at h
    rw [← Except.error.inj h]

/-- Where the window is rejected, the variables are as they were, or the buffer is within the
declared length. -/
lemma Assembly.Sound.rejected {e : Rejection} (hD : MachineWords D) (hst : st.Sound)
    (h : absorb D st r = .error e) : e.st = st ∨ e.st.Within (st.declaredWith r) := by
  rw [Rpc.absorb] at h
  rcases Except.bind_eq_error_iff.1 h with hdeclare | ⟨declared, hdeclare, h⟩
  · exact Or.inl (Assembly.st_of_declare hdeclare)
  have hdeclared := hst.declare hD hdeclare
  right
  rcases Except.bind_eq_error_iff.1 h with hct | ⟨extended, hct, hadvance⟩
  · rw [Assembly.st_of_takeCiphertext hct]
    exact hdeclared.takeLens
  · rw [Assembly.st_of_advance hadvance]
    exact (hdeclared.takeLens.takeCiphertext hD hct).takeProof

/-! ### The cursor -/

lemma Assembly.offset_declare (h : st.declare D r = .ok st') : st'.offset = st.offset := by
  rw [Assembly.declare] at h
  cases htotal : st.total with
  | some total =>
    simp only [htotal] at h
    obtain rfl := Except.ok.inj h
    rfl
  | none =>
    simp only [htotal] at h
    split_ifs at h
    obtain rfl := Except.ok.inj h
    rfl

lemma Assembly.offset_takeCiphertext (h : st.takeCiphertext D r = .ok st') :
    st'.offset = st.offset := by
  rw [Assembly.takeCiphertext] at h
  cases hct : r.ciphertext with
  | none =>
    simp only [hct] at h
    obtain rfl := Except.ok.inj h
    rfl
  | some ct =>
    simp only [hct] at h
    cases hdecode : D.base64Decode (Text.trim ct) with
    | none => simp [hdecode] at h
    | some chunk =>
      simp only [hdecode] at h
      split_ifs at h
      obtain rfl := Except.ok.inj h
      rfl

/-- The cursor moves forward, and only when the loop goes on. -/
lemma Assembly.advance_eq {complete : Bool} (h : st.advance r = .ok (st', complete)) :
    (complete = true ∧ st' = st) ∨
      ∃ next, complete = false ∧ r.nextOffset = some next ∧ st.offset < next ∧
        st' = { st with offset := next } := by
  rw [Assembly.advance] at h
  split at h
  · simp only [Except.ok.injEq, Prod.mk.injEq] at h
    exact Or.inl ⟨h.2.symm, h.1.symm⟩
  · simp only [Except.ok.injEq, Prod.mk.injEq] at h
    exact Or.inl ⟨h.2.symm, h.1.symm⟩
  · next next hnext hcomplete =>
    split_ifs at h with hle
    simp only [Except.ok.injEq, Prod.mk.injEq] at h
    exact Or.inr ⟨next, h.2.symm, hnext, UInt64.not_le.1 hle, h.1.symm⟩

/-- The parts of an iteration that does not fail. -/
lemma absorb_parts {complete : Bool} (h : absorb D st r = .ok (st', complete)) :
    ∃ declared extended, st.declare D r = .ok declared ∧
      (declared.takeLens r).takeCiphertext D r = .ok extended ∧
      (extended.takeProof r).advance r = .ok (st', complete) := by
  rw [absorb] at h
  obtain ⟨declared, hdeclare, h⟩ := Except.bind_eq_ok_iff.1 h
  obtain ⟨extended, hct, hadvance⟩ := Except.bind_eq_ok_iff.1 h
  exact ⟨declared, extended, hdeclare, hct, hadvance⟩

/-- An iteration that does not fail stays within the declared length. -/
lemma Assembly.Sound.within_of_absorb {complete : Bool} (hD : MachineWords D) (hst : st.Sound)
    (h : absorb D st r = .ok (st', complete)) : st'.Within (st.declaredWith r) := by
  obtain ⟨declared, extended, hdeclare, hct, hadvance⟩ := absorb_parts h
  have hwithin : (extended.takeProof r).Within (st.declaredWith r) :=
    ((hst.declare hD hdeclare).takeLens.takeCiphertext hD hct).takeProof
  rcases Assembly.advance_eq hadvance with ⟨-, rfl⟩ | ⟨next, -, -, -, rfl⟩
  · exact hwithin
  · exact ⟨hwithin.declared, hwithin.pos, hwithin.le, hwithin.reserved, hwithin.buf⟩

/-- An iteration that goes on moves the cursor forward and keeps the declared length. -/
lemma Assembly.Sound.absorb (hD : MachineWords D) (hst : st.Sound)
    (h : absorb D st r = .ok (st', false)) :
    st'.Within (st.declaredWith r) ∧ st.offset < st'.offset := by
  refine ⟨hst.within_of_absorb hD h, ?_⟩
  obtain ⟨declared, extended, hdeclare, hct, hadvance⟩ := absorb_parts h
  rcases Assembly.advance_eq hadvance with ⟨htrue, -⟩ | ⟨next, -, -, hlt, rfl⟩
  · cases htrue
  · rwa [Assembly.offset_takeProof, Assembly.offset_takeCiphertext hct, Assembly.offset_takeLens,
      Assembly.offset_declare hdeclare] at hlt

lemma Assembly.Within.sound (h : st.Within total) : st.Sound := by
  rw [Assembly.Sound, h.declared]
  exact h

/-! ### All iterations -/

variable {w : ℕ} {rounds : List Round} {res : Except ResolveError Assembly}

/-- The window counter bounds the number of rounds. -/
lemma Rounds.length_le (h : Rounds D w st rounds res) (hw : w ≤ maxWindows) :
    rounds.length + w ≤ maxWindows := by
  induction h with
  | exhausted => simpa using hw
  | unanswered hw' => simpa [Nat.add_comm] using hw'
  | rejected hw' => simpa [Nat.add_comm] using hw'
  | complete hw' => simpa [Nat.add_comm] using hw'
  | next hw' _ _ _ ih =>
    have hrest := ih hw'
    rw [List.length_cons]
    omega

lemma Rounds.st_of_head (h : Rounds D w st rounds res) {x : Round} (hx : x ∈ rounds.head?) :
    x.st = st := by
  cases h with
  | exhausted => cases hx
  | _ =>
    obtain rfl := Option.some.inj hx
    rfl

/-- Once a length is declared, every round begins within it, and behind the cursor. -/
lemma Rounds.within (hD : MachineWords D) (h : Rounds D w st rounds res)
    (hst : st.Within total) : ∀ x ∈ rounds, x.st.Within total ∧ st.offset ≤ x.st.offset := by
  induction h with
  | exhausted =>
    intro x hx
    cases hx
  | @next w st st' answer r rounds res _ _ habsorb _ ih =>
    obtain ⟨hwithin, hlt⟩ := hst.sound.absorb hD habsorb
    have hdeclared : st.declaredWith r = total := by
      rw [Assembly.declaredWith, hst.declared, Option.getD_some]
    rw [hdeclared] at hwithin
    intro x hx
    rcases List.mem_cons.1 hx with rfl | hx
    · exact ⟨hst, UInt64.le_refl _⟩
    · obtain ⟨hx', hle⟩ := ih hwithin x hx
      exact ⟨hx', UInt64.le_trans (UInt64.le_of_lt hlt) hle⟩
  | _ =>
    intro x hx
    obtain rfl := List.mem_singleton.1 hx
    exact ⟨hst, UInt64.le_refl _⟩

lemma Rounds.sound (hD : MachineWords D) (h : Rounds D w st rounds res) (hst : st.Sound) :
    ∀ x ∈ rounds, x.st.Sound := by
  cases h with
  | exhausted =>
    intro x hx
    cases hx
  | next _ _ habsorb hrest =>
    obtain ⟨hwithin, -⟩ := hst.absorb hD habsorb
    intro x hx
    rcases List.mem_cons.1 hx with rfl | hx
    · exact hst
    · exact (hrest.within hD hwithin x hx).1.sound
  | _ =>
    intro x hx
    obtain rfl := List.mem_singleton.1 hx
    exact hst

/-- The cursor moves forward from round to round. -/
lemma Rounds.increasing (hD : MachineWords D) (h : Rounds D w st rounds res) (hst : st.Sound) :
    rounds.Pairwise fun x y => x.st.offset < y.st.offset := by
  induction h with
  | exhausted => exact List.Pairwise.nil
  | @next w st st' answer r rounds res _ _ habsorb hrest ih =>
    obtain ⟨hwithin, hlt⟩ := hst.absorb hD habsorb
    refine List.Pairwise.cons ?_ (ih hwithin.sound)
    intro y hy
    exact UInt64.lt_of_lt_of_le hlt (hrest.within hD hwithin y hy).2
  | _ => exact List.pairwise_singleton _ _

/-- What bounds the rounds of a fetch. -/
structure Bounded (D : Deps) (rounds : List Round) : Prop where
  count : rounds.length ≤ maxWindows
  start : ∀ x ∈ rounds.head?, x.st.offset = 0
  increasing : rounds.Pairwise fun x y => x.st.offset < y.st.offset
  -- the first window declares the length, and from then on the buffer is within it
  within : ∀ x₀ ∈ rounds.head?, ∀ r₀, windowOf D x₀.answer = .ok r₀ →
    ∀ x ∈ rounds, ∀ r, windowOf D x.answer = .ok r →
      ∀ s ∈ x.st.moments D r, s.Within r₀.totalLength
  -- so it is where a window is rejected, unless nothing was reserved or received at all
  rejected : ∀ x₀ ∈ rounds.head?, ∀ r₀, windowOf D x₀.answer = .ok r₀ →
    ∀ x ∈ rounds, ∀ r, windowOf D x.answer = .ok r → ∀ e, absorb D x.st r = .error e →
      e.st = {} ∨ e.st.Within r₀.totalLength
  exact : ∀ x ∈ rounds, ∀ r, windowOf D x.answer = .ok r → x.st.Exact D r

lemma Assembly.sound_empty : Assembly.Sound {} := ⟨rfl, rfl⟩

/-- Behind the first window, the length is the one it declared. -/
lemma Rounds.fixed (hD : MachineWords D) (h : Rounds D 0 {} rounds res) {x₀ : Round}
    (hx₀ : x₀ ∈ rounds.head?) {r₀ : GetContent} (hr₀ : windowOf D x₀.answer = .ok r₀) :
    ∀ x ∈ rounds, x = x₀ ∧ x.st = {} ∨ x.st.Within r₀.totalLength := by
  cases h with
  | exhausted => cases hx₀
  | next _ hr habsorb hrest =>
    obtain rfl := Option.some.inj hx₀
    obtain rfl := Except.ok.inj (hr.symm.trans hr₀)
    obtain ⟨hwithin, -⟩ := Assembly.sound_empty.absorb hD habsorb
    intro x hx
    rcases List.mem_cons.1 hx with rfl | hx
    · exact Or.inl ⟨rfl, rfl⟩
    · exact Or.inr (hrest.within hD hwithin x hx).1
  | _ =>
    obtain rfl := Option.some.inj hx₀
    intro x hx
    obtain rfl := List.mem_singleton.1 hx
    exact Or.inl ⟨rfl, rfl⟩

lemma Rounds.bounded (hD : MachineWords D) (h : Rounds D 0 {} rounds res) : Bounded D rounds where
  count := h.length_le (Nat.zero_le _)
  start := by
    intro x hx
    rw [h.st_of_head hx]
  increasing := h.increasing hD Assembly.sound_empty
  within := by
    intro x₀ hx₀ r₀ hr₀ x hx r hr s hs
    rcases h.fixed hD hx₀ hr₀ x hx with ⟨rfl, hst⟩ | hwithin
    · obtain rfl := Except.ok.inj (hr₀.symm.trans hr)
      rw [hst] at hs
      exact Assembly.sound_empty.moments hD s hs
    · have hs' := hwithin.sound.moments hD s hs
      rwa [Assembly.declaredWith, hwithin.declared, Option.getD_some] at hs'
  rejected := by
    intro x₀ hx₀ r₀ hr₀ x hx r hr e habsorb
    rcases h.fixed hD hx₀ hr₀ x hx with ⟨rfl, hst⟩ | hwithin
    · obtain rfl := Except.ok.inj (hr₀.symm.trans hr)
      rw [hst] at habsorb
      exact Assembly.sound_empty.rejected hD habsorb
    · rcases hwithin.sound.rejected hD habsorb with hsame | hwithin'
      · rw [hsame]
        exact Or.inr hwithin
      · rw [Assembly.declaredWith, hwithin.declared, Option.getD_some] at hwithin'
        exact Or.inr hwithin'
  exact := by
    intro x hx r hr
    exact Assembly.exact_of_length_le hD (h.sound hD Assembly.sound_empty x hx).length_le

/-! ### The theorem -/

/-- The answers to the requests of a conversation. -/
def replies (t : List (Event Op Ans)) : List Answer :=
  t.filterMap fun
    | ⟨.postJson _ _, answer⟩ => some answer
    | _ => none

/-- The requests of a conversation, with their answers. -/
def posts (t : List (Event Op Ans)) : List (Event Op Ans) :=
  t.filter fun
    | ⟨.postJson _ _, _⟩ => true
    | _ => false

variable {base root : String} {parsed : ParsedUrn}

@[simp] lemma posts_append (t t' : List (Event Op Ans)) : posts (t ++ t') = posts t ++ posts t' :=
  List.filter_append ..

@[simp] lemma replies_append (t t' : List (Event Op Ans)) :
    replies (t ++ t') = replies t ++ replies t' := List.filterMap_append

@[simp] lemma posts_verification (st : Assembly) (verdict : Except ResolveError Bytes) :
    posts [⟨verification parsed root st, verdict⟩] = [] := rfl

@[simp] lemma replies_verification (st : Assembly) (verdict : Except ResolveError Bytes) :
    replies [⟨verification parsed root st, verdict⟩] = [] := rfl

@[simp] lemma posts_map_event (rounds : List Round) :
    posts (rounds.map (Round.event D base parsed root)) =
      rounds.map (Round.event D base parsed root) := by
  rw [posts, List.filter_eq_self]
  intro e he
  obtain ⟨x, -, rfl⟩ := List.mem_map.1 he
  rfl

@[simp] lemma replies_map_event (rounds : List Round) :
    replies (rounds.map (Round.event D base parsed root)) = rounds.map Round.answer := by
  induction rounds with
  | nil => rfl
  | cons x rounds ih => exact congrArg (x.answer :: ·) ih

/-- **Bounded work.**  Whatever the gateway answers, the fetch comes to an end, and its requests
are those of bounded rounds, which differ in nothing but the offset. -/
theorem fetch_bounded (hD : MachineWords D) (hroot : parsed.rootHex = some root) :
    (∀ answers : ℕ → Answer, ∃ t res, (fetch D base parsed).Trace t res ∧
      replies t = (List.range (replies t).length).map answers) ∧
    maxWindows + 1 < 2 ^ D.usizeBits ∧
    ∀ t res, (fetch D base parsed).Trace t res → ∃ rounds out, Rounds D 0 {} rounds out ∧
      posts t = rounds.map (Round.event D (Text.trimEndMatches '/' base) parsed root) ∧
      Bounded D rounds := by
  refine ⟨?_, ?_, ?_⟩
  · intro answers
    obtain ⟨rounds, out, hrounds, hanswers⟩ :=
      (exists_rounds answers 0 {} : ∃ rounds res, Rounds D 0 {} rounds res ∧ _)
    cases out with
    | error e =>
      refine ⟨_, _, (Fetches.failed hroot hrounds).trace, ?_⟩
      rw [replies_map_event, List.length_map]
      exact hanswers
    | ok st =>
      refine ⟨_, _, (Fetches.assembled hroot hrounds (.error .decryptFailed)).trace, ?_⟩
      rw [replies_append, replies_map_event, replies_verification, List.append_nil,
        List.length_map]
      exact hanswers
  · have hmax : maxWindows = 37 := by decide
    rw [hmax]
    rcases hD.bits with hbits | hbits
    · rw [hbits]
      omega
    · rw [hbits]
      omega
  · intro t res h
    have hfetches := trace_fetch h
    cases hfetches with
    | rootless hnone => exact absurd (hroot.symm.trans hnone) (by simp)
    | @failed root' rounds e hroot' hrounds =>
      obtain rfl := Option.some.inj (hroot'.symm.trans hroot)
      exact ⟨rounds, _, hrounds, posts_map_event rounds, hrounds.bounded hD⟩
    | @assembled root' rounds st hroot' hrounds verdict =>
      obtain rfl := Option.some.inj (hroot'.symm.trans hroot)
      refine ⟨rounds, _, hrounds, ?_, hrounds.bounded hD⟩
      rw [posts_append, posts_map_event, posts_verification, List.append_nil]

/-! ### A gateway that does not advance -/

namespace Bounded

/-- A reply to every request: five bytes are declared, none are given, and more follows at
offset two. -/
def stalling : Json :=
  .object [("result", .object [("total_length", .number (.posInt 5)),
    ("next_offset", .number (.posInt 2))])]

/-- The executable instance on a machine with 64 bits. -/
def machine : Deps where
  __ := sample [([1], stalling)] []
  base64Decode s := (Sample.base64Bytes s.toList).filter fun bytes => bytes.length < 2 ^ 63

lemma machineWords : MachineWords machine := .of_filter rfl fun _ => rfl

def stallingAnswer : Answer := .ok ⟨200, [], [1]⟩

def stallingRounds : List Round :=
  [⟨{}, stallingAnswer⟩, ⟨{ total := some 5, reserved := some 5, offset := 2 }, stallingAnswer⟩]

/-- The conversation, which ends because the second window does not move the offset. -/
def talk : List (Event Op Ans) :=
  stallingRounds.map (Round.event machine (Text.trimEndMatches '/' "https://rpc.example")
    (Sample.parsed "chia") Sample.hex.text)

lemma trace_talk : (fetch machine "https://rpc.example" (Sample.parsed "chia")).Trace talk
    (.error (.rpc "content offset did not advance")) := by
  have hroot : (Sample.parsed "chia").rootHex = some Sample.hex.text := rfl
  have hwindow : windowOf machine stallingAnswer =
      .ok { totalLength := 5, nextOffset := some 2 } := rfl
  have hrounds : Rounds machine 0 {} stallingRounds
      (.error (.rpc "content offset did not advance")) :=
    .next (by decide) hwindow rfl
      (.rejected (e := ⟨.rpc "content offset did not advance", _⟩) (by decide) hwindow rfl)
  exact (Fetches.failed hroot hrounds).trace

theorem fetch_bounded_stalling : ∃ rounds out, Rounds machine 0 {} rounds out ∧
    posts talk = rounds.map (Round.event machine
      (Text.trimEndMatches '/' "https://rpc.example") (Sample.parsed "chia") Sample.hex.text) ∧
    Bounded machine rounds :=
  (fetch_bounded machineWords rfl).2.2 _ _ trace_talk

end Bounded

end DigUrnResolver.Rpc
