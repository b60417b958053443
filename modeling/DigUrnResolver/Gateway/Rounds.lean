/-
# The conversation with the gateway

The loop of `rpc::fetch` asks for one window after the other.  A conversation of the loop is a
list of rounds, each of them the assembly with which an iteration begins and the answer to its
request; `Rounds` derives these lists from what an iteration does with a window.  All that is
said about the loop is proved by induction on this derivation.
-/
import DigUrnResolver.Source.Rpc

namespace DigUrnResolver.Rpc

open Interaction

/-! ### What the parts of an iteration leave alone -/

section Frame

variable {st : Assembly} {r : GetContent}

@[simp] lemma Assembly.offset_takeLens : (st.takeLens r).offset = st.offset := by
  rw [Assembly.takeLens]
  split_ifs
  · cases r.chunkLens <;> rfl
  · rfl

@[simp] lemma Assembly.total_takeLens : (st.takeLens r).total = st.total := by
  rw [Assembly.takeLens]
  split_ifs
  · cases r.chunkLens <;> rfl
  · rfl

@[simp] lemma Assembly.proof_takeLens : (st.takeLens r).proof = st.proof := by
  rw [Assembly.takeLens]
  split_ifs
  · cases r.chunkLens <;> rfl
  · rfl

@[simp] lemma Assembly.buf_takeLens : (st.takeLens r).buf = st.buf := by
  rw [Assembly.takeLens]
  split_ifs
  · cases r.chunkLens <;> rfl
  · rfl

@[simp] lemma Assembly.offset_takeProof : (st.takeProof r).offset = st.offset := by
  rw [Assembly.takeProof]
  cases r.inclusionProof with
  | none => rfl
  | some p =>
    dsimp only
    split_ifs <;> rfl

@[simp] lemma Assembly.chunkLens_takeProof : (st.takeProof r).chunkLens = st.chunkLens := by
  rw [Assembly.takeProof]
  cases r.inclusionProof with
  | none => rfl
  | some p =>
    dsimp only
    split_ifs <;> rfl

@[simp] lemma Assembly.total_takeProof : (st.takeProof r).total = st.total := by
  rw [Assembly.takeProof]
  cases r.inclusionProof with
  | none => rfl
  | some p =>
    dsimp only
    split_ifs <;> rfl

@[simp] lemma Assembly.buf_takeProof : (st.takeProof r).buf = st.buf := by
  rw [Assembly.takeProof]
  cases r.inclusionProof with
  | none => rfl
  | some p =>
    dsimp only
    split_ifs <;> rfl

end Frame

/-! ### The conversation of the loop -/

/-- An answer to a request. -/
abbrev Answer : Type := Except TransportError HttpResponse

variable (D : Deps) (base : String) (parsed : ParsedUrn) (root : String)

/-- The window that `rpc_call` reads from an answer. -/
def windowOf : Answer → Except ResolveError GetContent
  | .error e => .error (.transport e.message)
  | .ok resp => decodeReply D GetContent.fromValue "dig.getContent" resp

/-- The request for the window at an offset. -/
def request (offset : UInt64) : Op :=
  .postJson base (callBody "dig.getContent" (getContentParams D parsed root offset))

/-- One iteration: the assembly at its beginning, and the answer to its request. -/
structure Round where
  st : Assembly
  answer : Answer

/-- A round as an event of the conversation. -/
def Round.event (x : Round) : Event Op Ans := ⟨request D base parsed root x.st.offset, x.answer⟩

/-- `Rounds D w st rounds res` : entered with `w` windows behind it and the assembly `st`, the
loop goes through the given rounds and is left with `res`. -/
inductive Rounds : ℕ → Assembly → List Round → Except ResolveError Assembly → Prop
  | exhausted {w : ℕ} {st : Assembly} (hw : maxWindows < w + 1) :
      Rounds w st [] (.error (.rpc "too many content windows"))
  | unanswered {w : ℕ} {st : Assembly} {answer : Answer} {e : ResolveError}
      (hw : w + 1 ≤ maxWindows) (hr : windowOf D answer = .error e) :
      Rounds w st [⟨st, answer⟩] (.error e)
  | rejected {w : ℕ} {st : Assembly} {answer : Answer} {r : GetContent} {e : Rejection}
      (hw : w + 1 ≤ maxWindows) (hr : windowOf D answer = .ok r)
      (habsorb : absorb D st r = .error e) : Rounds w st [⟨st, answer⟩] (.error e.error)
  | complete {w : ℕ} {st st' : Assembly} {answer : Answer} {r : GetContent}
      (hw : w + 1 ≤ maxWindows) (hr : windowOf D answer = .ok r)
      (habsorb : absorb D st r = .ok (st', true)) : Rounds w st [⟨st, answer⟩] (.ok st')
  | next {w : ℕ} {st st' : Assembly} {answer : Answer} {r : GetContent} {rounds : List Round}
      {res : Except ResolveError Assembly} (hw : w + 1 ≤ maxWindows)
      (hr : windowOf D answer = .ok r) (habsorb : absorb D st r = .ok (st', false))
      (hrest : Rounds (w + 1) st' rounds res) : Rounds w st (⟨st, answer⟩ :: rounds) res

variable {D base parsed root}

lemma trace_rpcCall_iff {t : List (Event Op Ans)} {r : Except ResolveError GetContent}
    {offset : UInt64} :
    (rpcCall D GetContent.fromValue base "dig.getContent"
        (getContentParams D parsed root offset)).Trace t r ↔
      ∃ answer, t = [⟨request D base parsed root offset, answer⟩] ∧ r = windowOf D answer := by
  rw [rpcCall, Program.perform_bind, Program.trace_call_iff]
  constructor
  · rintro ⟨answer, t', rfl, h⟩
    cases answer with
    | error e =>
      obtain ⟨rfl, rfl⟩ := Program.trace_ret_iff.1 h
      exact ⟨.error e, rfl, rfl⟩
    | ok resp =>
      obtain ⟨rfl, rfl⟩ := Program.trace_ret_iff.1 h
      exact ⟨.ok resp, rfl, rfl⟩
  · rintro ⟨answer, rfl, rfl⟩
    refine ⟨answer, [], rfl, ?_⟩
    cases answer with
    | error e => exact Program.Trace.ret _
    | ok resp => exact Program.Trace.ret _

/-- The conversations of the loop are those that its rounds derive. -/
lemma trace_collect {w : ℕ} {st : Assembly} {t : List (Event Op Ans)}
    {res : Except ResolveError Assembly}
    (h : (collect D base parsed root w st).Trace t res) :
    ∃ rounds, Rounds D w st rounds res ∧ t = rounds.map (Round.event D base parsed root) := by
  induction hn : maxWindows - w generalizing w st t with
  | zero =>
    have hw : w + 1 > maxWindows := by omega
    rw [collect, dif_pos hw] at h
    obtain ⟨rfl, rfl⟩ := Program.trace_ret_iff.1 h
    exact ⟨[], .exhausted hw, rfl⟩
  | succ n ih =>
    have hw : ¬ w + 1 > maxWindows := by omega
    rw [collect, dif_neg hw] at h
    obtain ⟨r, t₁, t₂, rfl, hcall, hrest⟩ := Program.trace_bind_iff.1 h
    obtain ⟨answer, rfl, rfl⟩ := trace_rpcCall_iff.1 hcall
    have hle : w + 1 ≤ maxWindows := Nat.le_of_not_lt hw
    cases hr : windowOf D answer with
    | error e =>
      rw [hr] at hrest
      obtain ⟨rfl, rfl⟩ := Program.trace_ret_iff.1 hrest
      exact ⟨[⟨st, answer⟩], .unanswered hle hr, rfl⟩
    | ok r =>
      simp only [hr] at hrest
      cases habsorb : absorb D st r with
      | error e =>
        simp only [habsorb] at hrest
        obtain ⟨rfl, rfl⟩ := Program.trace_ret_iff.1 hrest
        exact ⟨[⟨st, answer⟩], .rejected hle hr habsorb, rfl⟩
      | ok x =>
        obtain ⟨st', complete⟩ := x
        cases complete with
        | true =>
          simp only [habsorb] at hrest
          obtain ⟨rfl, rfl⟩ := Program.trace_ret_iff.1 hrest
          exact ⟨[⟨st, answer⟩], .complete hle hr habsorb, rfl⟩
        | false =>
          simp only [habsorb] at hrest
          obtain ⟨rounds, hrounds, rfl⟩ := ih hrest (by omega)
          exact ⟨⟨st, answer⟩ :: rounds, .next hle hr habsorb hrounds, rfl⟩

/-- The loop goes through all the rounds that are derived. -/
lemma Rounds.trace {w : ℕ} {st : Assembly} {rounds : List Round}
    {res : Except ResolveError Assembly} (h : Rounds D w st rounds res) :
    (collect D base parsed root w st).Trace (rounds.map (Round.event D base parsed root)) res := by
  induction h with
  | exhausted hw =>
    rw [collect, dif_pos hw]
    exact Program.Trace.ret _
  | @next w st st' answer r rounds res hw hr habsorb _ ih =>
    rw [collect, dif_neg (Nat.not_lt.2 hw)]
    refine Program.trace_bind_iff.2 ⟨_, [_], _, rfl, trace_rpcCall_iff.2 ⟨answer, rfl, rfl⟩, ?_⟩
    simp only [hr, habsorb]
    exact ih
  | @unanswered w st answer e hw hr =>
    rw [collect, dif_neg (Nat.not_lt.2 hw)]
    refine Program.trace_bind_iff.2 ⟨_, [_], _, rfl, trace_rpcCall_iff.2 ⟨answer, rfl, rfl⟩, ?_⟩
    rw [hr]
    exact Program.Trace.ret _
  | @rejected w st answer r e hw hr habsorb =>
    rw [collect, dif_neg (Nat.not_lt.2 hw)]
    refine Program.trace_bind_iff.2 ⟨_, [_], _, rfl, trace_rpcCall_iff.2 ⟨answer, rfl, rfl⟩, ?_⟩
    simp only [hr, habsorb]
    exact Program.Trace.ret _
  | @complete w st st' answer r hw hr habsorb =>
    rw [collect, dif_neg (Nat.not_lt.2 hw)]
    refine Program.trace_bind_iff.2 ⟨_, [_], _, rfl, trace_rpcCall_iff.2 ⟨answer, rfl, rfl⟩, ?_⟩
    simp only [hr, habsorb]
    exact Program.Trace.ret _

/-- The loop ends for every sequence of answers, of which it uses a first part. -/
lemma exists_rounds (answers : ℕ → Answer) (w : ℕ) (st : Assembly) :
    ∃ rounds res, Rounds D w st rounds res ∧
      rounds.map Round.answer = (List.range rounds.length).map answers := by
  induction hn : maxWindows - w generalizing w st answers with
  | zero => exact ⟨[], _, .exhausted (by omega), rfl⟩
  | succ n ih =>
    have hw : w + 1 ≤ maxWindows := by omega
    cases hr : windowOf D (answers 0) with
    | error e => exact ⟨_, _, .unanswered hw hr, rfl⟩
    | ok r =>
      cases habsorb : absorb D st r with
      | error e => exact ⟨_, _, .rejected hw hr habsorb, rfl⟩
      | ok x =>
        obtain ⟨st', complete⟩ := x
        cases complete with
        | true => exact ⟨_, _, .complete hw hr habsorb, rfl⟩
        | false =>
          obtain ⟨rounds, res, hrounds, hanswers⟩ := ih (fun i => answers (i + 1)) (w + 1) st'
            (by omega)
          refine ⟨_, _, .next hw hr habsorb hrounds, ?_⟩
          rw [List.map_cons, hanswers, List.length_cons, List.range_succ_eq_map, List.map_cons,
            List.map_map]
          rfl

/-! ### The whole fetch -/

/-- The request to verify and decrypt what was assembled. -/
def verification (parsed : ParsedUrn) (root : String) (st : Assembly) : Op :=
  .verifyAndDecrypt parsed st.buf st.proof root st.chunkLens

/-- The result of a fetch with the plaintext `bytes`. -/
def fetched (parsed : ParsedUrn) (root : String) (st : Assembly) (bytes : Bytes) : Fetched where
  data := ⟨bytes, deriveContentType parsed.resourceKey bytes⟩
  root := some root
  artifacts := some ⟨st.buf, st.proof, st.chunkLens⟩

/-- The conversations of `rpc::fetch`. -/
inductive Fetches (D : Deps) (base : String) (parsed : ParsedUrn) :
    List (Event Op Ans) → Except ResolveError Fetched → Prop
  | rootless (hroot : parsed.rootHex = none) : Fetches D base parsed [] (.error .rootRequired)
  | failed {root : String} {rounds : List Round} {e : ResolveError}
      (hroot : parsed.rootHex = some root) (hrounds : Rounds D 0 {} rounds (.error e)) :
      Fetches D base parsed
        (rounds.map (Round.event D (Text.trimEndMatches '/' base) parsed root)) (.error e)
  | assembled {root : String} {rounds : List Round} {st : Assembly}
      (hroot : parsed.rootHex = some root) (hrounds : Rounds D 0 {} rounds (.ok st))
      (verdict : Except ResolveError Bytes) :
      Fetches D base parsed
        (rounds.map (Round.event D (Text.trimEndMatches '/' base) parsed root) ++
          [⟨verification parsed root st, verdict⟩])
        (verdict.map (fetched parsed root st))

lemma trace_fetch {t : List (Event Op Ans)} {res : Except ResolveError Fetched}
    (h : (fetch D base parsed).Trace t res) : Fetches D base parsed t res := by
  rw [fetch, trustedRoot] at h
  cases hroot : parsed.rootHex with
  | none =>
    simp only [hroot] at h
    obtain ⟨rfl, rfl⟩ := Program.trace_ret_iff.1 h
    exact .rootless hroot
  | some root =>
    simp only [hroot] at h
    obtain ⟨out, t₁, t₂, rfl, hcollect, hrest⟩ := Program.trace_bind_iff.1 h
    obtain ⟨rounds, hrounds, rfl⟩ := trace_collect hcollect
    cases out with
    | error e =>
      obtain ⟨rfl, rfl⟩ := Program.trace_ret_iff.1 hrest
      rw [List.append_nil]
      exact .failed hroot hrounds
    | ok st =>
      obtain ⟨verdict, t₃, rfl, hverdict⟩ := Program.trace_call_iff.1 hrest
      cases verdict with
      | error e =>
        obtain ⟨rfl, rfl⟩ := Program.trace_ret_iff.1 hverdict
        exact .assembled hroot hrounds (.error e)
      | ok bytes =>
        obtain ⟨rfl, rfl⟩ := Program.trace_ret_iff.1 hverdict
        exact .assembled hroot hrounds (.ok bytes)

lemma Fetches.trace {t : List (Event Op Ans)} {res : Except ResolveError Fetched}
    (h : Fetches D base parsed t res) : (fetch D base parsed).Trace t res := by
  rw [fetch, trustedRoot]
  cases h with
  | rootless hroot =>
    rw [hroot]
    exact Program.Trace.ret _
  | failed hroot hrounds =>
    simp only [hroot]
    refine Program.trace_bind_iff.2 ⟨_, _, [], (List.append_nil _).symm, hrounds.trace, ?_⟩
    exact Program.Trace.ret _
  | assembled hroot hrounds verdict =>
    simp only [hroot]
    refine Program.trace_bind_iff.2 ⟨_, _, _, rfl, hrounds.trace, ?_⟩
    refine Program.trace_call_iff.2 ⟨verdict, [], rfl, ?_⟩
    cases verdict with
    | error e => exact Program.Trace.ret _
    | ok bytes => exact Program.Trace.ret _

end DigUrnResolver.Rpc
