/-
# What a reply of the gateway counts as

Absence is an explicit zero, a malformed reply is a protocol error, a failed request a transport
failure.  The last of these holds of every conversation.  The first two hold as long as every result
states the length: the deserializer fills a missing `total_length` in with zero, and reads a window
from an array as well, so a reply without a length counts as a window, and as the absence of the
content if it is the first one.
-/
import DigUrnResolver.Gateway.Windows

namespace DigUrnResolver.Rpc

open Interaction

/-! ### Replies -/

/-- The request failed, or the status is not `2xx`. -/
def Failed : Answer → Prop
  | .error _ => True
  | .ok resp => resp.isSuccess = false

/-- The answer is a `2xx` reply with a JSON-RPC success of the given result. -/
def Gives (D : Deps) (result : Json) : Answer → Prop
  | .error _ => False
  | .ok resp => resp.isSuccess = true ∧ ∃ envelope, D.jsonFromSlice resp.body = .ok envelope ∧
      ((envelope.get "error").filter fun e => e.isNull = false) = none ∧
      envelope.get "result" = some result

/-- The result is an object that states the length. -/
def States (result : Json) (n : UInt64) : Prop :=
  (result.get "total_length").bind Json.asU64 = some n

/-- A `2xx` reply without a result that states the length: it is not JSON, it has an error or no
result, or the length is missing. -/
structure Malformed (D : Deps) (answer : Answer) : Prop where
  success : ¬ Failed answer
  unstated : ∀ result n, Gives D result answer → ¬ States result n

/-- A JSON-RPC success whose result is a well-formed object that states the length zero. -/
def StatesZero (D : Deps) (answer : Answer) : Prop :=
  ∃ result, Gives D result answer ∧ GetContent.fromValue result ≠ none ∧ States result 0

/-- A JSON-RPC success whose result does not state the length, but is read as a window. -/
def FilledIn (D : Deps) (answer : Answer) : Prop :=
  ∃ result, Gives D result answer ∧ GetContent.fromValue result ≠ none ∧
    ∀ n, ¬ States result n

/-- The replies of a fetch count as what they are: only an explicit zero in the first one is an
absence, malformed replies are protocol errors, failed requests are transport failures. -/
structure Classified (D : Deps) (t : List (Event Op Ans)) (res : Except ResolveError Fetched) :
    Prop where
  absent : res = .error .notFound ↔ ∃ answer ∈ (replies t).head?, StatesZero D answer
  malformed : ∀ answer ∈ replies t, Malformed D answer →
    ∃ message, windowOf D answer = .error (.rpc message) ∧ res = .error (.rpc message)
  failed : ∀ answer ∈ replies t, Failed answer →
    ∃ message, windowOf D answer = .error (.transport message) ∧ res = .error (.transport message)

/-- The verifications of a conversation are those of the read-crypto. -/
def Judged (D : Deps) (t : List (Event Op Ans)) : Prop :=
  ∀ v ciphertext proofB64 root lens verdict,
    (⟨.verifyAndDecrypt v ciphertext proofB64 root lens, verdict⟩ : Event Op Ans) ∈ t →
      verdict = Crypto.verifyAndDecrypt D v ciphertext proofB64 root lens

variable {D : Deps} {answer : Answer} {result result' : Json} {r : GetContent} {n : UInt64}

/-! ### How a reply is read -/

/-- The readings of an answer. -/
inductive Reads (D : Deps) (answer : Answer) : Except ResolveError GetContent → Prop
  | failed (message : String) (h : Failed answer) : Reads D answer (.error (.transport message))
  | noResult (message : String) (hsuccess : ¬ Failed answer) (h : ∀ result, ¬ Gives D result answer) :
      Reads D answer (.error (.rpc message))
  | misshapen {result : Json} (message : String) (hgives : Gives D result answer)
      (h : GetContent.fromValue result = none) : Reads D answer (.error (.rpc message))
  | window {result : Json} {r : GetContent} (hgives : Gives D result answer)
      (h : GetContent.fromValue result = some r) : Reads D answer (.ok r)

/-- There is one result at most. -/
lemma Gives.unique (h : Gives D result answer) (h' : Gives D result' answer) : result = result' := by
  cases answer with
  | error e => exact absurd h id
  | ok resp =>
    obtain ⟨-, envelope, hjson, -, hresult⟩ := h
    obtain ⟨-, envelope', hjson', -, hresult'⟩ := h'
    obtain rfl := Except.ok.inj (hjson.symm.trans hjson')
    exact Option.some.inj (hresult.symm.trans hresult')

lemma Gives.not_failed (h : Gives D result answer) : ¬ Failed answer := by
  cases answer with
  | error e => exact absurd h id
  | ok resp =>
    intro hfailed
    exact Bool.false_ne_true (hfailed.symm.trans h.1)

/-- **Every answer is read in one of these ways.** -/
lemma reads_windowOf (D : Deps) (answer : Answer) : Reads D answer (windowOf D answer) := by
  cases answer with
  | error e => exact .failed _ trivial
  | ok resp =>
    rw [windowOf, decodeReply]
    by_cases hfailed : resp.isSuccess = false
    · rw [if_pos hfailed]
      exact .failed _ hfailed
    · have hsuccess : resp.isSuccess = true := by simpa using hfailed
      rw [if_neg hfailed]
      cases hjson : D.jsonFromSlice resp.body with
      | error e =>
        refine .noResult _ hfailed ?_
        rintro result ⟨-, envelope, hok, -⟩
        cases hjson.symm.trans hok
      | ok envelope =>
        dsimp only
        cases herror : (envelope.get "error").filter fun e => e.isNull = false with
        | some err =>
          refine .noResult _ hfailed ?_
          rintro result ⟨-, envelope', hok, hnone, -⟩
          obtain rfl := Except.ok.inj (hjson.symm.trans hok)
          cases herror.symm.trans hnone
        | none =>
          dsimp only
          cases hresult : envelope.get "result" with
          | none =>
            refine .noResult _ hfailed ?_
            rintro result ⟨-, envelope', hok, -, hsome⟩
            obtain rfl := Except.ok.inj (hjson.symm.trans hok)
            cases hresult.symm.trans hsome
          | some result =>
            have hgives : Gives D result (.ok resp) := ⟨hsuccess, envelope, hjson, herror, hresult⟩
            dsimp only
            cases hvalue : GetContent.fromValue result with
            | none => exact .misshapen _ hgives hvalue
            | some r => exact .window hgives hvalue

/-- A result that is read as a window is the reading of its reply. -/
lemma Gives.windowOf_eq (h : Gives D result answer) (hvalue : GetContent.fromValue result = some r) :
    windowOf D answer = .ok r := by
  have hreads := reads_windowOf D answer
  generalize windowOf D answer = reading at hreads
  cases hreads with
  | failed message hfailed => exact absurd hfailed h.not_failed
  | noResult message hsuccess hnone => exact absurd h (hnone result)
  | misshapen message hgives hnone =>
    obtain rfl := h.unique hgives
    cases hvalue.symm.trans hnone
  | window hgives hvalue' =>
    obtain rfl := h.unique hgives
    rw [Option.some.inj (hvalue.symm.trans hvalue')]

/-- The declared length of a window is its first field. -/
lemma GetContent.totalLength_of_read {field : ℕ → String → Option Json}
    (h : GetContent.read field = some r) :
    defaulted 0 Json.asU64 (field 0 "total_length") = some r.totalLength := by
  rw [GetContent.read] at h
  obtain ⟨total, htotal, h⟩ := Option.bind_eq_some_iff.1 h
  obtain ⟨offset, -, h⟩ := Option.bind_eq_some_iff.1 h
  obtain ⟨next, -, h⟩ := Option.bind_eq_some_iff.1 h
  obtain ⟨complete, -, h⟩ := Option.bind_eq_some_iff.1 h
  obtain ⟨ciphertext, -, h⟩ := Option.bind_eq_some_iff.1 h
  obtain ⟨proof, -, h⟩ := Option.bind_eq_some_iff.1 h
  obtain ⟨lens, -, h⟩ := Option.bind_eq_some_iff.1 h
  obtain rfl := Option.some.inj h
  exact htotal

/-- The length that a window declares is the one that its result states. -/
lemma totalLength_eq_of_states (hvalue : GetContent.fromValue result = some r)
    (h : States result n) : r.totalLength = n := by
  cases result with
  | object fields =>
    obtain ⟨j, hlookup, hj⟩ := Option.bind_eq_some_iff.1 h
    have hfields : GetContent.read (fun _ name => fields.lookup name) = some r := hvalue
    have hread := GetContent.totalLength_of_read hfields
    change fields.lookup "total_length" = some j at hlookup
    rw [hlookup] at hread
    exact Option.some.inj (hread.symm.trans hj)
  | _ => cases h

lemma windowOf_of_failed (h : Failed answer) :
    ∃ message, windowOf D answer = .error (.transport message) := by
  have hreads := reads_windowOf D answer
  generalize windowOf D answer = reading at hreads
  cases hreads with
  | failed message => exact ⟨message, rfl⟩
  | noResult message hsuccess => exact absurd h hsuccess
  | misshapen message hgives => exact absurd h hgives.not_failed
  | window hgives => exact absurd h hgives.not_failed

/-- A malformed reply that is not filled in is a protocol error. -/
lemma Malformed.windowOf (h : Malformed D answer) (hfilled : ¬ FilledIn D answer) :
    ∃ message, windowOf D answer = .error (.rpc message) := by
  have hreads := reads_windowOf D answer
  generalize Rpc.windowOf D answer = reading at hreads
  cases hreads with
  | failed message hfailed => exact absurd hfailed h.success
  | noResult message => exact ⟨message, rfl⟩
  | misshapen message => exact ⟨message, rfl⟩
  | window hgives hvalue =>
    refine absurd ⟨_, hgives, ?_, fun n => h.unstated _ n hgives⟩ hfilled
    rw [hvalue]
    exact Option.some_ne_none _

/-- A reply that is filled in is malformed, and read as a window. -/
lemma FilledIn.malformed (h : FilledIn D answer) : Malformed D answer := by
  obtain ⟨result, hgives, -, hunstated⟩ := h
  refine ⟨hgives.not_failed, ?_⟩
  intro result' n hgives'
  obtain rfl := hgives.unique hgives'
  exact hunstated n

lemma FilledIn.windowOf (h : FilledIn D answer) : ∃ r, windowOf D answer = .ok r := by
  obtain ⟨result, hgives, hvalue, -⟩ := h
  obtain ⟨r, hr⟩ := Option.ne_none_iff_exists'.1 hvalue
  exact ⟨r, hgives.windowOf_eq hr⟩

/-- The first window declares the length zero if the reply states it, or does not state any. -/
lemma statesZero_iff (hfilled : ¬ FilledIn D answer) :
    StatesZero D answer ↔ ∃ r, windowOf D answer = .ok r ∧ r.totalLength = 0 := by
  constructor
  · rintro ⟨result, hgives, hvalue, hzero⟩
    obtain ⟨r, hr⟩ := Option.ne_none_iff_exists'.1 hvalue
    exact ⟨r, hgives.windowOf_eq hr, totalLength_eq_of_states hr hzero⟩
  · rintro ⟨r, hr, hzero⟩
    have hreads := reads_windowOf D answer
    rw [hr] at hreads
    cases hreads with
    | @window result _ hgives hvalue =>
      have hsome : GetContent.fromValue result ≠ none := by
        rw [hvalue]
        exact Option.some_ne_none _
      have hstates : ∃ n, States result n := by
        by_contra hnone
        exact hfilled ⟨result, hgives, hsome, fun n hn => hnone ⟨n, hn⟩⟩
      obtain ⟨n, hn⟩ := hstates
      obtain rfl := (totalLength_eq_of_states hvalue hn).symm.trans hzero
      exact ⟨result, hgives, hsome, hn⟩

/-! ### The whole conversation -/

variable {w : ℕ} {st : Assembly} {rounds : List Round} {out : Except ResolveError Assembly}

/-- A reply that is not read as a window ends the loop. -/
lemma Rounds.eq_of_windowOf {e : ResolveError} (h : Rounds D w st rounds out) {x : Round}
    (hx : x ∈ rounds) (he : windowOf D x.answer = .error e) : out = .error e := by
  induction h with
  | exhausted => cases hx
  | unanswered hw hr =>
    obtain rfl := List.mem_singleton.1 hx
    rw [Except.error.inj (hr.symm.trans he)]
  | next hw hr habsorb hrest ih =>
    rcases List.mem_cons.1 hx with rfl | hx
    · cases hr.symm.trans he
    · exact ih hx
  | _ =>
    obtain rfl := List.mem_singleton.1 hx
    next hr _ => cases hr.symm.trans he

lemma windowOf_ne_notFound (D : Deps) (answer : Answer) : windowOf D answer ≠ .error .notFound := by
  intro h
  have hreads := reads_windowOf D answer
  rw [h] at hreads
  cases hreads

/-- Once a length is declared, nothing counts as an absence. -/
lemma Rounds.ne_notFound (h : Rounds D w st rounds out) (hst : st.total ≠ none) :
    out ≠ .error .notFound := by
  induction h with
  | exhausted => exact fun heq => by cases heq
  | unanswered hw hr =>
    intro heq
    obtain rfl := Except.error.inj heq
    exact windowOf_ne_notFound _ _ hr
  | rejected hw hr habsorb =>
    intro heq
    rcases (rejected_of_absorb habsorb).cases with ⟨-, hnone, -⟩ | ⟨message, hrpc⟩
    · exact hst hnone
    · cases hrpc.symm.trans (Except.error.inj heq)
  | complete => exact fun heq => by cases heq
  | next hw hr habsorb hrest ih =>
    refine ih ?_
    rw [(taken_of_absorb habsorb).total]
    exact Option.some_ne_none _

/-- The first iteration reports an absence exactly when the length is zero. -/
lemma absorb_eq_notFound_iff :
    (∃ e, absorb D {} r = .error e ∧ e.error = .notFound) ↔ r.totalLength = 0 := by
  constructor
  · rintro ⟨e, habsorb, he⟩
    rcases (rejected_of_absorb habsorb).cases with ⟨-, -, hzero⟩ | ⟨message, hrpc⟩
    · exact hzero
    · cases hrpc.symm.trans he
  · intro hzero
    have hdeclare : Assembly.declare D {} r = .error ⟨.notFound, {}⟩ := if_pos hzero
    refine ⟨⟨.notFound, {}⟩, ?_, rfl⟩
    rw [absorb]
    exact Except.bind_eq_error_iff.2 (.inl hdeclare)

/-- **The loop reports an absence exactly when the first window declares the length zero.** -/
lemma Rounds.notFound_iff (h : Rounds D 0 {} rounds out) :
    out = .error .notFound ↔
      ∃ x ∈ rounds.head?, ∃ r, windowOf D x.answer = .ok r ∧ r.totalLength = 0 := by
  -- only the first window counts
  have hfirst : ∀ {answer r rest} {st : Assembly}, windowOf D answer = .ok r →
      ((∃ x ∈ (Round.mk st answer :: rest).head?,
        ∃ r, windowOf D x.answer = .ok r ∧ r.totalLength = 0) ↔ r.totalLength = 0) := by
    intro answer r rest st hr
    constructor
    · rintro ⟨x, hx, r', hr', hzero⟩
      obtain rfl := Option.some.inj hx
      rwa [Except.ok.inj (hr.symm.trans hr')]
    · intro hzero
      exact ⟨_, rfl, r, hr, hzero⟩
  cases h with
  | exhausted =>
    refine iff_of_false (fun hout => by cases hout) ?_
    rintro ⟨x, hx, -⟩
    cases hx
  | @unanswered _ _ answer e hw hr =>
    refine iff_of_false ?_ ?_
    · intro hout
      obtain rfl := Except.error.inj hout
      exact windowOf_ne_notFound _ _ hr
    · rintro ⟨x, hx, r, hr', -⟩
      obtain rfl := Option.some.inj hx
      cases hr.symm.trans hr'
  | rejected hw hr habsorb =>
    rw [hfirst hr, ← absorb_eq_notFound_iff (D := D), habsorb, Except.error.injEq]
    constructor
    · intro he
      exact ⟨_, rfl, he⟩
    · rintro ⟨e, heq, he⟩
      rwa [Except.error.inj heq]
  | complete hw hr habsorb =>
    rw [hfirst hr, ← absorb_eq_notFound_iff (D := D), habsorb]
    refine iff_of_false (fun hout => by cases hout) ?_
    rintro ⟨e, heq, -⟩
    cases heq
  | next hw hr habsorb hrest =>
    rw [hfirst hr, ← absorb_eq_notFound_iff (D := D), habsorb]
    refine iff_of_false (hrest.ne_notFound ?_) ?_
    swap
    · rintro ⟨e, heq, -⟩
      cases heq
    rw [(taken_of_absorb habsorb).total]
    exact Option.some_ne_none _

variable {base root : String} {parsed : ParsedUrn} {t : List (Event Op Ans)}
  {res : Except ResolveError Fetched}

/-- A fetch reports an absence exactly when its loop does. -/
lemma Ending.notFound_iff (h : Ending parsed root t out res) (hD : D.VerdictSpec)
    (hjudged : Judged D t) : res = .error .notFound ↔ out = .error .notFound := by
  cases h with
  | failed => rw [Except.error.injEq, Except.error.injEq]
  | @judged st verdict _ hmem =>
    have hverdict := hjudged _ _ _ _ _ _ hmem
    refine iff_of_false ?_ ?_
    · intro hnotFound
      cases verdict with
      | ok bytes => cases hnotFound
      | error e =>
        obtain rfl := Except.error.inj hnotFound
        exact Crypto.verifyAndDecrypt_ne_notFound hD _ _ _ _ _ hverdict.symm
    · intro hnotFound
      cases hnotFound

/-- A reply that is not read as a window is the result of the fetch. -/
lemma Ending.eq_of_windowOf {e : ResolveError} {x : Round} (h : Ending parsed root t out res)
    (hrounds : Rounds D 0 {} rounds out) (hx : x ∈ rounds)
    (he : windowOf D x.answer = .error e) : res = .error e := by
  have herror := hrounds.eq_of_windowOf hx he
  cases h with
  | failed => rw [Except.error.inj herror]
  | judged => cases herror

/-- **When the replies count as what they are**: exactly when none of them is read as a window
although its result does not state the length. -/
theorem classified_iff (hD : D.VerdictSpec) (hroot : parsed.rootHex = some root)
    (htrace : (fetch D base parsed).Trace t res) (hjudged : Judged D t) :
    Classified D t res ↔ ∀ answer ∈ replies t, ¬ FilledIn D answer := by
  obtain ⟨rounds, out, hrounds, hreplies, hending⟩ := (trace_fetch htrace).ending hroot
  constructor
  · intro h answer hanswer hfilled
    obtain ⟨message, herror, -⟩ := h.malformed answer hanswer hfilled.malformed
    obtain ⟨r, hr⟩ := hfilled.windowOf
    cases herror.symm.trans hr
  · intro hfilled
    have hmem : ∀ answer ∈ replies t, ∃ x ∈ rounds, x.answer = answer := by
      intro answer hanswer
      rw [hreplies] at hanswer
      exact List.mem_map.1 hanswer
    constructor
    · rw [hending.notFound_iff hD hjudged, hrounds.notFound_iff, hreplies, List.head?_map]
      have hhead : ∀ x ∈ rounds.head?, x.answer ∈ replies t := by
        intro x hx
        rw [hreplies]
        exact List.mem_map_of_mem (List.mem_of_mem_head? hx)
      constructor
      · rintro ⟨x, hx, hzero⟩
        exact ⟨x.answer, Option.mem_map_of_mem _ hx,
          (statesZero_iff (hfilled _ (hhead x hx))).2 hzero⟩
      · rintro ⟨answer, hanswer, hzero⟩
        obtain ⟨x, hx, rfl⟩ := Option.mem_map.1 hanswer
        exact ⟨x, hx, (statesZero_iff (hfilled _ (hhead x hx))).1 hzero⟩
    · intro answer hanswer hmalformed
      obtain ⟨x, hx, rfl⟩ := hmem answer hanswer
      obtain ⟨message, he⟩ := hmalformed.windowOf (hfilled _ hanswer)
      exact ⟨message, he, hending.eq_of_windowOf hrounds hx he⟩
    · intro answer hanswer hfailed
      obtain ⟨x, hx, rfl⟩ := hmem answer hanswer
      obtain ⟨message, he⟩ := windowOf_of_failed (D := D) hfailed
      exact ⟨message, he, hending.eq_of_windowOf hrounds hx he⟩

/-! ### Two first replies -/

namespace Classification

/-- The instance in which the bytes of every reply are the JSON-RPC success of one result. -/
def machine (result : Json) : Deps := sample [([1], .object [("result", result)])] []

def first : Answer := .ok ⟨200, [], [1]⟩

/-- One request and its answer. -/
def talk (result : Json) : List (Event Op Ans) :=
  [Round.mk {} first].map (Round.event (machine result)
    (Text.trimEndMatches '/' "https://rpc.example") (Sample.parsed "chia") Sample.hex.text)

lemma trace_talk {result : Json} (hwindow : windowOf (machine result) first = .ok {}) :
    (fetch (machine result) "https://rpc.example" (Sample.parsed "chia")).Trace (talk result)
      (.error .notFound) := by
  have hroot : (Sample.parsed "chia").rootHex = some Sample.hex.text := rfl
  have hrounds : Rounds (machine result) 0 {} [⟨{}, first⟩] (.error .notFound) :=
    .rejected (e := ⟨.notFound, _⟩) (by decide) hwindow rfl
  exact (Fetches.failed hroot hrounds).trace

lemma judged_talk (result : Json) : Judged (machine result) (talk result) := by
  intro v ciphertext proofB64 root lens verdict hmem
  obtain ⟨x, -, hx⟩ := List.mem_map.1 hmem
  cases hx

lemma gives (result : Json) : Gives (machine result) result first := ⟨rfl, _, rfl, rfl, rfl⟩

/-- A result that states the length zero. -/
def zero : Json := .object [("total_length", .number (.posInt 0))]

theorem classified_of_zero : Classified (machine zero) (talk zero) (.error .notFound) := by
  refine (classified_iff (sample_verdictSpec _ _) rfl (trace_talk rfl) (judged_talk zero)).2 ?_
  rintro reply hreply ⟨result, hgives, -, hunstated⟩
  obtain rfl := List.mem_singleton.1 hreply
  obtain rfl := hgives.unique (gives zero)
  exact hunstated 0 rfl

/-- **An empty result counts as an absence**, although it does not state the length zero. -/
theorem not_classified_of_empty :
    (fetch (machine (.object [])) "https://rpc.example" (Sample.parsed "chia")).Trace
      (talk (.object [])) (.error .notFound) ∧
    Judged (machine (.object [])) (talk (.object [])) ∧
    ¬ Classified (machine (.object [])) (talk (.object [])) (.error .notFound) := by
  refine ⟨trace_talk rfl, judged_talk _, ?_⟩
  intro h
  obtain ⟨reply, hreply, result, hgives, -, hzero⟩ := h.absent.1 rfl
  obtain rfl := Option.some.inj hreply
  obtain rfl := hgives.unique (gives (.object []))
  cases hzero

end Classification

end DigUrnResolver.Rpc
