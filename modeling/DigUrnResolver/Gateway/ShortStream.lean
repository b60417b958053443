/-
# Streams that end short

The loop of `rpc::fetch` keeps the buffer within the length that the first window declares, and
rejects a window that would exceed it.  It does not ask whether the buffer has reached this length
when a window says that nothing follows: whatever was assembled is handed to the read-crypto.  So
the length is checked exactly in the conversations that do not end short, unless another guard
refuses them.
-/
import DigUrnResolver.Gateway.Windows

namespace DigUrnResolver.Rpc

open Interaction

/-! ### Streams -/

/-- The windows that the answers are read as. -/
def windows (D : Deps) (answers : List Answer) : List GetContent :=
  answers.filterMap fun answer => (windowOf D answer).toOption

/-- The number of bytes that the answers deliver. -/
def delivered (D : Deps) (answers : List Answer) : ℕ :=
  ((windows D answers).map fun r => (r.chunk D).length).sum

/-- The first answer is a window that declares a length.  A length of zero is the mark of absent
content. -/
def Declares (D : Deps) (answers : List Answer) (n : UInt64) : Prop :=
  n ≠ 0 ∧ ∃ answer ∈ answers.head?, ∃ r, windowOf D answer = .ok r ∧ r.totalLength = n

/-- The last answer is a window after which nothing follows. -/
def Ended (D : Deps) (answers : List Answer) : Prop :=
  ∃ answer ∈ answers.getLast?, ∃ r, windowOf D answer = .ok r ∧ r.Ends

/-- The stream ends with fewer bytes than it declared. -/
structure Short (D : Deps) (answers : List Answer) (n : UInt64) : Prop where
  declares : Declares D answers n
  ended : Ended D answers
  lt : delivered D answers < n.toNat

/-- A fetch goes by the declared length: it hands over a buffer of this length only, and a stream
with fewer or more bytes is a protocol error. -/
structure LengthChecked (D : Deps) (t : List (Event Op Ans)) (res : Except ResolveError Fetched) :
    Prop where
  exact : ∀ buf ∈ handed t, ∃ n, Declares D (replies t) n ∧ buf.length = n.toNat
  short : ∀ n, Short D (replies t) n → ∃ message, res = .error (.rpc message)
  long : ∀ n, Declares D (replies t) n → n.toNat < delivered D (replies t) →
    ∃ message, res = .error (.rpc message)

variable {D : Deps} {answer : Answer} {answers : List Answer} {r : GetContent} {n n' : UInt64}
  {st st' : Assembly} {total : UInt64}

lemma Declares.unique (h : Declares D answers n) (h' : Declares D answers n') : n = n' := by
  obtain ⟨-, answer, hanswer, r, hr, rfl⟩ := h
  obtain ⟨-, answer', hanswer', r', hr', rfl⟩ := h'
  obtain rfl := Option.some.inj (hanswer.symm.trans hanswer')
  rw [Except.ok.inj (hr.symm.trans hr')]

lemma windows_cons_of_ok (hr : windowOf D answer = .ok r) :
    windows D (answer :: answers) = r :: windows D answers := by
  rw [windows, List.filterMap_cons_some (b := r)]
  · rfl
  · rw [hr]
    rfl

lemma windows_cons_of_error {e : ResolveError} (he : windowOf D answer = .error e) :
    windows D (answer :: answers) = windows D answers := by
  rw [windows, List.filterMap_cons_none]
  · rfl
  · rw [he]
    rfl

lemma delivered_cons_of_ok (hr : windowOf D answer = .ok r) :
    delivered D (answer :: answers) = (r.chunk D).length + delivered D answers := by
  rw [delivered, windows_cons_of_ok hr, List.map_cons, List.sum_cons]
  rfl

lemma delivered_cons_of_error {e : ResolveError} (he : windowOf D answer = .error e) :
    delivered D (answer :: answers) = delivered D answers := by
  rw [delivered, windows_cons_of_error he]
  rfl

lemma ended_cons (hne : answers ≠ []) : Ended D (answer :: answers) ↔ Ended D answers := by
  obtain ⟨answer', rest, rfl⟩ := List.exists_cons_of_ne_nil hne
  rw [Ended, Ended, List.getLast?_cons_cons]

lemma ended_singleton : Ended D [answer] ↔ ∃ r, windowOf D answer = .ok r ∧ r.Ends := by
  constructor
  · rintro ⟨answer', hanswer', hends⟩
    obtain rfl := Option.some.inj hanswer'
    exact hends
  · intro hends
    exact ⟨answer, rfl, hends⟩

/-! ### The length that the loop goes by -/

/-- The loop goes by the declared length, or the next answer declares it. -/
def GoesBy (D : Deps) (st : Assembly) (answers : List Answer) (total : UInt64) : Prop :=
  st.Within total ∨ st = {} ∧ Declares D answers total

namespace GoesBy

lemma sound (h : GoesBy D st answers total) : st.Sound := by
  rcases h with hwithin | ⟨rfl, -⟩
  · exact hwithin.sound
  · exact Assembly.sound_empty

lemma buf_le (h : GoesBy D st answers total) : st.buf.length ≤ total.toNat := by
  rcases h with hwithin | ⟨rfl, -⟩
  · exact hwithin.buf
  · exact Nat.zero_le _

lemma declaredWith_eq (h : GoesBy D st (answer :: answers) total) (hr : windowOf D answer = .ok r) :
    st.declaredWith r = total := by
  rcases h with hwithin | ⟨rfl, -, answer', hanswer', r', hr', rfl⟩
  · rw [Assembly.declaredWith, hwithin.declared, Option.getD_some]
  · obtain rfl := Option.some.inj hanswer'
    rw [Except.ok.inj (hr'.symm.trans hr)]
    rfl

/-- The next window is not one of absent content. -/
lemma not_absent (h : GoesBy D st (answer :: answers) total) (hr : windowOf D answer = .ok r)
    (hnone : st.total = none) : r.totalLength ≠ 0 := by
  rcases h with hwithin | ⟨rfl, hne, answer', hanswer', r', hr', rfl⟩
  · cases hwithin.declared.symm.trans hnone
  · obtain rfl := Option.some.inj hanswer'
    rwa [← Except.ok.inj (hr'.symm.trans hr)]

/-- The buffer and the bytes of a window are counted exactly. -/
lemma sum_eq (hD : MachineWords D) (h : GoesBy D st answers total) :
    (UInt64.ofNat st.buf.length + UInt64.ofNat (r.chunk D).length).toNat =
      st.buf.length + (r.chunk D).length := by
  have hbuf := h.sound.length_le
  have hchunk : (r.chunk D).length < 2 ^ 63 := by
    rw [GetContent.chunk]
    cases hdecode : r.ciphertext.bind fun ct => D.base64Decode (Text.trim ct) with
    | none => decide
    | some chunk =>
      obtain ⟨ct, -, hct⟩ := Option.bind_eq_some_iff.1 hdecode
      exact hD.length_lt hct
  have hsize : UInt64.size = 2 ^ 64 := rfl
  rw [UInt64.toNat_add, UInt64.toNat_ofNat_of_lt' (by omega), UInt64.toNat_ofNat_of_lt' (by omega)]
  exact Nat.mod_eq_of_lt (by omega)

/-- After a window was taken, the buffer holds its bytes, within the same length. -/
lemma taken {complete : Bool} (hD : MachineWords D) (h : GoesBy D st (answer :: answers) total)
    (hr : windowOf D answer = .ok r) (habsorb : absorb D st r = .ok (st', complete)) :
    st'.Within total ∧ st'.buf.length = st.buf.length + (r.chunk D).length ∧ r.Decodes D ∧
      (complete = true ↔ r.Ends) := by
  obtain ⟨hdecodes, -, hbuf, hends⟩ := taken_of_absorb habsorb
  have hwithin := h.sound.within_of_absorb hD habsorb
  rw [h.declaredWith_eq hr] at hwithin
  exact ⟨hwithin, by rw [hbuf, List.length_append], hdecodes, hends⟩

end GoesBy

/-! ### The loop -/

variable {w : ℕ} {rounds : List Round} {out : Except ResolveError Assembly}

/-- Behind a window with which the loop goes on, the stream ends as the rest of it does. -/
lemma ended_map_cons {x : Round} (hr : windowOf D x.answer = .ok r)
    (habsorb : absorb D st r = .ok (st', false)) :
    Ended D ((x :: rounds).map Round.answer) ↔ Ended D (rounds.map Round.answer) := by
  cases rounds with
  | nil =>
    have hends : ¬ r.Ends := fun hends => by
      cases (taken_of_absorb habsorb).ends.2 hends
    refine iff_of_false ?_ ?_
    · intro hended
      obtain ⟨r', hr', hends'⟩ := ended_singleton.1 hended
      obtain rfl := Except.ok.inj (hr.symm.trans hr')
      exact hends hends'
    · rintro ⟨answer, hanswer, -⟩
      cases hanswer
  | cons y rest => exact ended_cons (List.cons_ne_nil _ _)

/-- **More bytes than declared are a protocol error**, and a stream that ends is assembled or is
one. -/
lemma Rounds.delivered_le (hD : MachineWords D) (h : Rounds D w st rounds out)
    (hst : GoesBy D st (rounds.map Round.answer) total) :
    (∃ message, out = .error (.rpc message)) ∨
      st.buf.length + delivered D (rounds.map Round.answer) ≤ total.toNat ∧
        (Ended D (rounds.map Round.answer) → ∃ st', out = .ok st') := by
  induction h with
  | exhausted => exact .inl ⟨_, rfl⟩
  | unanswered hw hr =>
    refine .inr ⟨?_, ?_⟩
    · rw [List.map_singleton, delivered_cons_of_error hr]
      exact hst.buf_le
    · intro hended
      obtain ⟨r, hr', -⟩ := ended_singleton.1 hended
      cases hr.symm.trans hr'
  | rejected hw hr habsorb =>
    rcases (rejected_of_absorb habsorb).cases with ⟨-, hnone, hzero⟩ | hrpc
    · exact absurd hzero (hst.not_absent hr hnone)
    · obtain ⟨message, heq⟩ := hrpc
      exact .inl ⟨message, congrArg Except.error heq⟩
  | complete hw hr habsorb =>
    obtain ⟨hwithin, hlength, -, -⟩ := hst.taken hD hr habsorb
    refine .inr ⟨?_, fun _ => ⟨_, rfl⟩⟩
    rw [List.map_singleton, delivered_cons_of_ok hr]
    have hbuf := hwithin.buf
    rw [hlength] at hbuf
    exact hbuf
  | @next w st st' answer r rounds out hw hr habsorb hrest ih =>
    obtain ⟨hwithin, hlength, -, -⟩ := hst.taken hD hr habsorb
    rcases ih (.inl hwithin) with hrpc | ⟨hle, hok⟩
    · exact .inl hrpc
    · refine .inr ⟨?_, ?_⟩
      · rw [List.map_cons, delivered_cons_of_ok hr]
        omega
      · intro hended
        exact hok ((ended_map_cons hr habsorb).1 hended)

/-- What the loop hands over is all that was delivered, and the stream has ended. -/
lemma Rounds.assembled (hD : MachineWords D) (h : Rounds D w st rounds (.ok st'))
    (hst : GoesBy D st (rounds.map Round.answer) total) :
    st'.buf.length = st.buf.length + delivered D (rounds.map Round.answer) ∧
      Ended D (rounds.map Round.answer) ∧
      (∀ r ∈ windows D (rounds.map Round.answer), r.Decodes D) ∧ st'.Within total := by
  generalize hout : Except.ok st' = out at h
  induction h with
  | complete hw hr habsorb =>
    obtain rfl := Except.ok.inj hout
    obtain ⟨hwithin, hlength, hdecodes, hends⟩ := hst.taken hD hr habsorb
    refine ⟨?_, ?_, ?_, hwithin⟩
    · rw [List.map_singleton, delivered_cons_of_ok hr]
      exact hlength
    · exact ended_singleton.2 ⟨_, hr, hends.1 rfl⟩
    · intro r' hr'
      rw [List.map_singleton, windows_cons_of_ok hr] at hr'
      obtain rfl := List.mem_singleton.1 hr'
      exact hdecodes
  | next hw hr habsorb hrest ih =>
    obtain ⟨hwithin, hlength, hdecodes, -⟩ := hst.taken hD hr habsorb
    obtain ⟨hlength', hended, hall, hwithin'⟩ := ih (.inl hwithin) hout
    refine ⟨?_, (ended_map_cons hr habsorb).2 hended, ?_, hwithin'⟩
    · rw [List.map_cons, delivered_cons_of_ok hr, hlength', hlength, Nat.add_assoc]
    · intro r' hr'
      rw [List.map_cons, windows_cons_of_ok hr] at hr'
      rcases List.mem_cons.1 hr' with rfl | hr'
      · exact hdecodes
      · exact hall r' hr'
  | _ => cases hout

/-- **A stream that ends within the declared length is assembled**, if nothing else is wrong with
it. -/
lemma Rounds.ok_of_ended (hD : MachineWords D) (h : Rounds D w st rounds out)
    (hst : GoesBy D st (rounds.map Round.answer) total) (hmax : total ≤ maxResourceBytes)
    (hended : Ended D (rounds.map Round.answer))
    (hdecodes : ∀ r ∈ windows D (rounds.map Round.answer), r.Decodes D)
    (hle : st.buf.length + delivered D (rounds.map Round.answer) ≤ total.toNat) :
    ∃ st', out = .ok st' := by
  induction h with
  | exhausted =>
    obtain ⟨answer, hanswer, -⟩ := hended
    cases hanswer
  | unanswered hw hr =>
    obtain ⟨r, hr', -⟩ := ended_singleton.1 hended
    cases hr.symm.trans hr'
  | @rejected w st answer r e hw hr habsorb =>
    rw [List.map_singleton, delivered_cons_of_ok hr] at hle
    rw [List.map_singleton, windows_cons_of_ok hr] at hdecodes
    obtain ⟨r', hr', hends⟩ := ended_singleton.1 hended
    obtain rfl := Except.ok.inj (hr.symm.trans hr')
    obtain ⟨error, rejected⟩ := e
    have hrejected : Rejected D st r error := rejected_of_absorb habsorb
    cases hrejected with
    | absent hfirst hzero => exact absurd hzero (hst.not_absent hr hfirst)
    | oversized hfirst hgt =>
      have htotal := hst.declaredWith_eq hr
      rw [Assembly.declaredWith, hfirst] at htotal
      rw [← htotal] at hmax
      exact absurd hmax (UInt64.not_le.2 hgt)
    | undecodable hnot => exact absurd (hdecodes r List.mem_cons_self) hnot
    | overlong hgt =>
      rw [hst.declaredWith_eq hr] at hgt
      have hlt := UInt64.lt_iff_toNat_lt.1 hgt
      rw [hst.sum_eq hD] at hlt
      omega
    | stuck hnot => exact absurd hends hnot
  | complete => exact ⟨_, rfl⟩
  | next hw hr habsorb hrest ih =>
    obtain ⟨hwithin, hlength, -, -⟩ := hst.taken hD hr habsorb
    rw [List.map_cons, delivered_cons_of_ok hr] at hle
    refine ih (.inl hwithin) ((ended_map_cons hr habsorb).1 hended) ?_ (by omega)
    intro r' hr'
    refine hdecodes r' ?_
    rw [List.map_cons, windows_cons_of_ok hr]
    exact List.mem_cons_of_mem _ hr'

/-- A loop that does not fail goes by a declared length. -/
lemma Rounds.exists_declares (hD : MachineWords D) (h : Rounds D 0 {} rounds (.ok st)) :
    ∃ n, Declares D (rounds.map Round.answer) n := by
  have hfirst : ∀ {r : GetContent} {st' : Assembly} {complete : Bool},
      absorb D {} r = .ok (st', complete) → r.totalLength ≠ 0 := by
    intro r st' complete habsorb hzero
    have hpos := (Assembly.sound_empty.within_of_absorb hD habsorb).pos
    rw [show Assembly.declaredWith {} r = r.totalLength from rfl, hzero] at hpos
    exact absurd hpos (by decide)
  cases h with
  | complete hw hr habsorb => exact ⟨_, hfirst habsorb, _, rfl, _, hr, rfl⟩
  | next hw hr habsorb => exact ⟨_, hfirst habsorb, _, rfl, _, hr, rfl⟩

/-- What the loop hands over in the end is a stream within the length it declares. -/
lemma Rounds.stream (hD : MachineWords D) (h : Rounds D 0 {} rounds (.ok st)) :
    ∃ n, Declares D (rounds.map Round.answer) n ∧ Ended D (rounds.map Round.answer) ∧
      st.buf.length = delivered D (rounds.map Round.answer) ∧ st.buf.length ≤ n.toNat := by
  obtain ⟨n, hdeclares⟩ := h.exists_declares hD
  obtain ⟨hlength, hended, -, hwithin⟩ := h.assembled hD (.inr ⟨rfl, hdeclares⟩)
  rw [List.length_nil, Nat.zero_add] at hlength
  exact ⟨n, hdeclares, hended, hlength, hwithin.buf⟩

/-- **A stream that ends short is handed over exactly when no other guard refuses it.** -/
lemma Rounds.ok_iff_of_short (hD : MachineWords D) (h : Rounds D 0 {} rounds out)
    (hshort : Short D (rounds.map Round.answer) n) : (∃ st, out = .ok st) ↔
      ¬ (n > maxResourceBytes ∨ ∃ r ∈ windows D (rounds.map Round.answer), ¬ r.Decodes D) := by
  have hst : GoesBy D {} (rounds.map Round.answer) n := .inr ⟨rfl, hshort.declares⟩
  constructor
  · rintro ⟨st, rfl⟩
    obtain ⟨-, -, hdecodes, hwithin⟩ := h.assembled hD hst
    rintro (hmax | ⟨r, hr, hnot⟩)
    · exact UInt64.not_le.2 hmax hwithin.le
    · exact hnot (hdecodes r hr)
  · intro hnone
    obtain ⟨hmax, hall⟩ := not_or.1 hnone
    refine h.ok_of_ended hD hst (UInt64.not_lt.1 hmax) hshort.ended ?_ ?_
    · intro r hr
      by_contra hnot
      exact hall ⟨r, hr, hnot⟩
    · rw [List.length_nil, Nat.zero_add]
      exact Nat.le_of_lt hshort.lt

/-! ### The whole conversation -/

variable {base root : String} {parsed : ParsedUrn} {t : List (Event Op Ans)}
  {res : Except ResolveError Fetched}

lemma Ending.rpc (h : Ending parsed root t out res) (hout : ∃ message, out = .error (.rpc message)) :
    ∃ message, res = .error (.rpc message) := by
  obtain ⟨message, rfl⟩ := hout
  cases h
  exact ⟨message, rfl⟩

/-- What a fetch hands over is what its loop assembled. -/
lemma Ending.mem_handed_iff {buf : Bytes} (h : Ending parsed root t out res) :
    buf ∈ handed t ↔ ∃ st, out = .ok st ∧ st.buf = buf := by
  cases h with
  | failed hhanded =>
    rw [hhanded]
    refine iff_of_false List.not_mem_nil ?_
    rintro ⟨st, hout, -⟩
    cases hout
  | @judged st _ hhanded =>
    rw [hhanded, List.mem_singleton]
    constructor
    · rintro rfl
      exact ⟨st, rfl, rfl⟩
    · rintro ⟨st', hout, rfl⟩
      rw [Except.ok.inj hout]

/-- **When a fetch goes by the declared length**: exactly when its stream does not end short of it,
unless too much is declared or a window is not base64. -/
theorem lengthChecked_iff (hD : MachineWords D) (hroot : parsed.rootHex = some root)
    (htrace : (fetch D base parsed).Trace t res) :
    LengthChecked D t res ↔ ∀ n, Short D (replies t) n →
      n > maxResourceBytes ∨ ∃ r ∈ windows D (replies t), ¬ r.Decodes D := by
  obtain ⟨rounds, out, hrounds, hreplies, hending⟩ := (trace_fetch htrace).ending hroot
  constructor
  · intro h n hshort
    by_contra hnone
    have hlt := hshort.lt
    rw [hreplies] at hshort hnone hlt
    -- without another fault, the short stream is handed over
    obtain ⟨st, rfl⟩ := (hrounds.ok_iff_of_short hD hshort).2 hnone
    obtain ⟨-, -, -, hlength, -⟩ := hrounds.stream hD
    obtain ⟨n', hdeclares, hexact⟩ := h.exact _ (hending.mem_handed_iff.2 ⟨st, rfl, rfl⟩)
    rw [hreplies] at hdeclares
    obtain rfl := hdeclares.unique hshort.declares
    rw [← hlength, hexact] at hlt
    exact Nat.lt_irrefl _ hlt
  · intro h
    rw [hreplies] at h
    constructor
    · intro buf hbuf
      obtain ⟨st, rfl, rfl⟩ := hending.mem_handed_iff.1 hbuf
      obtain ⟨n, hdeclares, hended, hlength, hle⟩ := hrounds.stream hD
      rw [hreplies]
      refine ⟨n, hdeclares, Nat.le_antisymm hle (Nat.not_lt.1 fun hlt => ?_)⟩
      rw [hlength] at hlt
      have hshort : Short D (rounds.map Round.answer) n := ⟨hdeclares, hended, hlt⟩
      exact (hrounds.ok_iff_of_short hD hshort).1 ⟨st, rfl⟩ (h n hshort)
    · intro n hshort
      rw [hreplies] at hshort
      rcases hrounds.delivered_le hD (.inr ⟨rfl, hshort.declares⟩) with hrpc | ⟨-, hok⟩
      · exact hending.rpc hrpc
      · have hfault := (hrounds.ok_iff_of_short hD hshort).1 (hok hshort.ended)
        exact absurd (h n hshort) hfault
    · intro n hdeclares hlt
      rw [hreplies] at hdeclares hlt
      rcases hrounds.delivered_le hD (.inr ⟨rfl, hdeclares⟩) with hrpc | ⟨hle, -⟩
      · exact hending.rpc hrpc
      · rw [List.length_nil, Nat.zero_add] at hle
        exact absurd hlt (Nat.not_lt.2 hle)

/-! ### A stream of one window -/

namespace ShortStream

/-- The instance with 64 bits in which every reply is a single window with these fields. -/
def machine (fields : List (String × Json)) : Deps where
  __ := sample [([1], .object [("result", .object (("complete", .bool true) :: fields))])] []
  base64Decode s := (Sample.base64Bytes s.toList).filter fun bytes => bytes.length < 2 ^ 63

lemma machineWords (fields : List (String × Json)) : MachineWords (machine fields) :=
  .of_filter rfl fun _ => rfl

def reply : Answer := .ok ⟨200, [], [1]⟩

/-- What the read-crypto makes of an assembly. -/
def verdict (D : Deps) (assembly : Assembly) : Except ResolveError Bytes :=
  Crypto.verifyAndDecrypt D (Sample.parsed "chia") assembly.buf assembly.proof Sample.hex.text
    assembly.chunkLens

/-- One request with its answer, and the verification of what it gave. -/
def talk (D : Deps) (assembly : Assembly) : List (Event Op Ans) :=
  [Round.mk {} reply].map (Round.event D (Text.trimEndMatches '/' "https://rpc.example")
    (Sample.parsed "chia") Sample.hex.text) ++
    [⟨verification (Sample.parsed "chia") Sample.hex.text assembly, verdict D assembly⟩]

lemma trace_talk {D : Deps} {window : GetContent} {assembly : Assembly}
    (hwindow : windowOf D reply = .ok window) (habsorb : absorb D {} window = .ok (assembly, true)) :
    (fetch D "https://rpc.example" (Sample.parsed "chia")).Trace (talk D assembly)
      ((verdict D assembly).map (fetched (Sample.parsed "chia") Sample.hex.text assembly)) := by
  have hroot : (Sample.parsed "chia").rootHex = some Sample.hex.text := rfl
  have hrounds : Rounds D 0 {} [⟨{}, reply⟩] (.ok assembly) :=
    .complete (by decide) hwindow habsorb
  exact (Fetches.assembled hroot hrounds (verdict D assembly)).trace

/-- Three bytes are declared and given. -/
def full : Deps :=
  machine [("total_length", .number (.posInt 3)), ("ciphertext", .string "AQID")]

def fullWindow : GetContent where
  totalLength := 3
  complete := some true
  ciphertext := some "AQID"

def fullAssembly : Assembly where
  total := some 3
  reserved := some 3
  buf := [1, 2, 3]

theorem lengthChecked_of_full : LengthChecked full (talk full fullAssembly)
    ((verdict full fullAssembly).map
      (fetched (Sample.parsed "chia") Sample.hex.text fullAssembly)) := by
  have hwindow : windowOf full reply = .ok fullWindow := rfl
  refine (lengthChecked_iff (machineWords _) rfl (trace_talk hwindow rfl)).2 ?_
  intro n hshort
  obtain rfl : n = 3 := hshort.declares.unique ⟨by decide, _, rfl, _, hwindow, rfl⟩
  exact absurd hshort.lt (by decide)

/-- Five bytes are declared, none are given. -/
def lacking : Deps := machine [("total_length", .number (.posInt 5))]

def emptyAssembly : Assembly where
  total := some 5
  reserved := some 5

/-- **A stream without a byte is handed to the read-crypto**, which takes it for tampered. -/
theorem not_lengthChecked_of_lacking :
    (fetch lacking "https://rpc.example" (Sample.parsed "chia")).Trace (talk lacking emptyAssembly)
      (.error (.verifyFailed "malformed proof")) ∧
    ¬ LengthChecked lacking (talk lacking emptyAssembly)
      (.error (.verifyFailed "malformed proof")) := by
  have hwindow : windowOf lacking reply = .ok { totalLength := 5, complete := some true } := rfl
  refine ⟨trace_talk hwindow rfl, ?_⟩
  intro h
  have hshort : Short lacking (replies (talk lacking emptyAssembly)) 5 :=
    ⟨⟨by decide, _, rfl, _, hwindow, rfl⟩, ⟨_, rfl, _, hwindow, .inl rfl⟩, by decide⟩
  obtain ⟨message, hrpc⟩ := h.short 5 hshort
  cases hrpc

end ShortStream

end DigUrnResolver.Rpc
