import EntsoePipeline.Lib.Pacing
import EntsoePipeline.Lib.Retrying
import EntsoePipeline.Py.Str

set_option relaxedAutoImplicit false
set_option autoImplicit false

/-!
# The client of the file server over time

A client keeps an access token and the time at which it takes the token to expire. Before each
request to the file server it checks the token and, when less than 30 seconds are left, asks the
token endpoint for a new one. The request then passes the pacing of the session. A page of a
directory is requested up to five times, with a pause behind each attempt that ends in a request
exception, and the token is checked again in each attempt.

## Main definitions

* `EntsoePipeline.AccessToken` — a token with the time until which the server accepts it.
* `EntsoePipeline.ClientWorld` — the clock, the session, the client and the requests so far.
* `EntsoePipeline.updateToken`, `EntsoePipeline.ensureTokenValid`, `EntsoePipeline.waitIfNeeded` —
  the steps before a request.
* `EntsoePipeline.requestOnce`, `EntsoePipeline.fetchFolderPage`, `EntsoePipeline.downloadRawZip` —
  the calls of the client.
* `EntsoePipeline.Timely` — bounds on what the network takes.

## Main results

* `EntsoePipeline.accepted_iff_margin` — no request arrives with a token that has expired, exactly
  when the margin covers what a request takes.
* `EntsoePipeline.spaced_runCalls` — all requests of a run are paced, and no window holds more of
  them than fit.
* `EntsoePipeline.sent_fetchFolderPage` — the requests for a page are at most five, further apart
  than the pauses.

## Implementation notes

The decorator that tries a call again is the one of the library, as it is documented; the length of
a pause is a parameter. What the network and the servers do is a parameter too, with an answer for
every attempt. The time at which the client takes a token to expire counts from the arrival of the
token, which is behind the time the server counts from.
-/

namespace EntsoePipeline

open Py Pacing

/-! ## The code -/

/-- Why a request fails. -/
inductive HttpFailure
  /-- `requests.exceptions.RequestException`. -/
  | requestException
  /-- Any other exception. -/
  | other
  deriving DecidableEq

/-- `retry_if_exception_type(requests.exceptions.RequestException)`. -/
def isRequestException : HttpFailure → Bool
  | .requestException => true
  | .other => false

/-- An access token, with what the token endpoint knows about it. -/
structure AccessToken (K : Type*) where
  /-- The text of the token. -/
  text : Str
  /-- The time of its issue. -/
  issuedAt : K
  /-- The seconds for which it is accepted. -/
  expiresIn : K

/-- The time from which a token is refused. -/
def AccessToken.validUntil {K : Type*} [Add K] (token : AccessToken K) : K :=
  token.issuedAt + token.expiresIn

/-- What happens outside of the process during an attempt. -/
structure AttemptAnswers (K : Type*) where
  /-- The time that passes before the attempt. -/
  idle : K
  /-- The time until a new token is issued. -/
  tokenOut : K
  /-- The time from the issue of a token until the client has received it. -/
  tokenBack : K
  /-- The answer of the token endpoint: a token and its `expires_in`. -/
  token : Except HttpFailure (Str × K)
  /-- The time between the check of the token and the pacing. -/
  prepare : K
  /-- How much longer a sleep lasts than requested. -/
  oversleep : K
  /-- The time from the dispatch of the request until the server has received it. -/
  transit : K
  /-- The time from there until the answer is back. -/
  reply : K
  /-- What goes wrong with the request, if anything does. -/
  fault : Option HttpFailure

/-- A request that was sent to the file server. -/
structure SentRequest (K : Type*) where
  /-- The token it carries. -/
  token : AccessToken K
  /-- The time of its dispatch. -/
  sentAt : K
  /-- The time of its arrival. -/
  arrivesAt : K

/-- The state of a client and of what it works with. -/
structure ClientWorld (K : Type*) where
  /-- The clock. -/
  clock : K
  /-- `_last_request_time` of the session. -/
  lastRequestTime : K
  /-- `expire`; `none` before the first token. -/
  expire : Option K
  /-- `access_token`. -/
  accessToken : Option (AccessToken K)
  /-- The number of attempts so far. -/
  attempts : ℕ
  /-- The requests that were sent to the file server. -/
  sent : List (SentRequest K)

/-- Time passes. -/
def ClientWorld.elapse {K : Type*} [Add K] (w : ClientWorld K) (time : K) : ClientWorld K :=
  { w with clock := w.clock + time }

/-- What is fixed for a client. -/
structure ClientConfig (K : Type*) where
  /-- The interval of the session. -/
  minInterval : K
  /-- The pause behind an attempt with a number. -/
  wait : ℕ → K
  /-- What happens during the attempts. -/
  answers : ℕ → AttemptAnswers K

section Client

variable {K : Type*} [Field K] [LinearOrder K]

/-- A new token is requested. -/
def updateToken (a : AttemptAnswers K) (w : ClientWorld K) :
    Except HttpFailure Unit × ClientWorld K :=
  let issued := w.elapse a.tokenOut
  let received := issued.elapse a.tokenBack
  match a.token with
  | .error e => (.error e, received)
  | .ok (text, expiresIn) => (.ok (), { received with
      expire := some (received.clock + expiresIn)
      accessToken := some ⟨text, issued.clock, expiresIn⟩ })

/-- The token is missing, or less than 30 seconds are left. -/
def needsToken (w : ClientWorld K) : Bool :=
  match w.expire with
  | none => true
  | some expire => decide (expire - 30 ≤ w.clock)

/-- `ensure_token_valid`. -/
def ensureTokenValid (a : AttemptAnswers K) (w : ClientWorld K) :
    Except HttpFailure Unit × ClientWorld K :=
  if needsToken w then updateToken a w else (.ok (), w)

/-- `_wait_if_needed`, in a session that one thread uses. -/
def waitIfNeeded (minInterval : K) (a : AttemptAnswers K) (w : ClientWorld K) : ClientWorld K :=
  let elapsed := w.clock - w.lastRequestTime
  let awake := if elapsed < minInterval then w.elapse (minInterval - elapsed + a.oversleep) else w
  { awake with lastRequestTime := awake.clock }

/-- A request with a token is paced and dispatched, arrives and is answered. -/
def exchange (minInterval : K) (a : AttemptAnswers K) (token : AccessToken K) (w : ClientWorld K) :
    ClientWorld K :=
  let dispatched := waitIfNeeded minInterval a (w.elapse a.prepare)
  let arrived := dispatched.elapse a.transit
  { arrived.elapse a.reply with
    sent := w.sent ++ [⟨token, dispatched.clock, arrived.clock⟩] }

/-- `session.post` to the file server with the token of the client; without a fault the server
answers with `content`. -/
def post {α : Type*} (minInterval : K) (a : AttemptAnswers K) (content : Except HttpFailure α)
    (w : ClientWorld K) : Except HttpFailure α × ClientWorld K :=
  match w.accessToken with
  | none => (.error .other, w)
  | some token =>
    match a.fault with
    | some e => (.error e, exchange minInterval a token w)
    | none => (content, exchange minInterval a token w)

/-- The world at the beginning of an attempt. -/
def beginAttempt (a : AttemptAnswers K) (w : ClientWorld K) : ClientWorld K :=
  { w.elapse a.idle with attempts := w.attempts + 1 }

/-- An attempt: the check of the token and the request. -/
def requestOnce {α : Type*} (cfg : ClientConfig K) (content : Except HttpFailure α)
    (w : ClientWorld K) : Except HttpFailure α × ClientWorld K :=
  let a := cfg.answers w.attempts
  let checked := ensureTokenValid a (beginAttempt a w)
  match checked.1 with
  | .error e => (.error e, checked.2)
  | .ok () => post cfg.minInterval a content checked.2

/-- `stop_after_attempt(5)`. -/
def maxAttempts : ℕ := 5

/-- `_fetch_folder_page`. -/
def fetchFolderPage {α : Type*} (cfg : ClientConfig K) (page : Except HttpFailure α)
    (w : ClientWorld K) : Except HttpFailure α × ClientWorld K :=
  Retrying.run (requestOnce cfg page) isRequestException
    (fun number w => w.elapse (cfg.wait number)) (maxAttempts - 1) 1 w

/-- `download_raw_zip_from_fms`: a single attempt. -/
def downloadRawZip {α : Type*} (cfg : ClientConfig K) (zip : Except HttpFailure α)
    (w : ClientWorld K) : Except HttpFailure α × ClientWorld K :=
  requestOnce cfg zip w

/-- A new client in the session, which requests its first token. -/
def newClient (cfg : ClientConfig K) (w : ClientWorld K) :
    Except HttpFailure Unit × ClientWorld K :=
  let a := cfg.answers w.attempts
  updateToken a { beginAttempt a w with expire := none, accessToken := none }

/-- What a process does with the session of an environment. -/
inductive ClientCall (α : Type*)
  /-- A client is created. -/
  | create
  /-- A page of a directory is requested. -/
  | page (content : Except HttpFailure α)
  /-- An archive is requested. -/
  | zip (content : Except HttpFailure α)

/-- The effect of a call, whether or not it raises. -/
def ClientCall.run {α : Type*} (cfg : ClientConfig K) : ClientCall α → ClientWorld K → ClientWorld K
  | .create, w => (newClient cfg w).2
  | .page content, w => (fetchFolderPage cfg content w).2
  | .zip content, w => (downloadRawZip cfg content w).2

/-- The calls of a process, one after the other. -/
def runCalls {α : Type*} (cfg : ClientConfig K) (calls : List (ClientCall α)) (w : ClientWorld K) :
    ClientWorld K :=
  calls.foldl (fun w call => call.run cfg w) w

/-- A session that has sent nothing, before its first client. -/
def ClientWorld.idle (clock : K) : ClientWorld K where
  clock := clock
  lastRequestTime := 0
  expire := none
  accessToken := none
  attempts := 0
  sent := []

end Client

/-! ## Runs of calls -/

section Rules

variable {K : Type*} [Field K] [LinearOrder K] {α : Type*} {cfg : ClientConfig K}

/-- A wait does not change when the token expires. -/
@[simp] lemma expire_waitIfNeeded (minInterval : K) (a : AttemptAnswers K) (w : ClientWorld K) :
    (waitIfNeeded minInterval a w).expire = w.expire := by
  unfold waitIfNeeded
  dsimp only
  split_ifs <;> rfl

/-- A wait does not change the token. -/
@[simp] lemma accessToken_waitIfNeeded (minInterval : K) (a : AttemptAnswers K)
    (w : ClientWorld K) : (waitIfNeeded minInterval a w).accessToken = w.accessToken := by
  unfold waitIfNeeded
  dsimp only
  split_ifs <;> rfl

/-- A wait is no attempt. -/
@[simp] lemma attempts_waitIfNeeded (minInterval : K) (a : AttemptAnswers K) (w : ClientWorld K) :
    (waitIfNeeded minInterval a w).attempts = w.attempts := by
  unfold waitIfNeeded
  dsimp only
  split_ifs <;> rfl

/-- The pacing ends the interval behind the last request. -/
lemma clock_waitIfNeeded [IsStrictOrderedRing K] (minInterval : K) {a : AttemptAnswers K}
    (w : ClientWorld K) (hoversleep : 0 ≤ a.oversleep) :
    w.clock ≤ (waitIfNeeded minInterval a w).clock ∧
      w.lastRequestTime + minInterval ≤ (waitIfNeeded minInterval a w).clock := by
  unfold waitIfNeeded
  dsimp only
  split_ifs with helapsed
  · dsimp only [ClientWorld.elapse]
    constructor <;> linarith
  · constructor <;> linarith

/-- Right behind a request, the pacing takes the whole interval. -/
lemma clock_waitIfNeeded_of_eq [IsStrictOrderedRing K] {minInterval : K} {a : AttemptAnswers K}
    {w : ClientWorld K} (hinterval : 0 ≤ minInterval) (hoversleep : a.oversleep = 0)
    (hlast : w.lastRequestTime = w.clock) :
    (waitIfNeeded minInterval a w).clock = w.clock + minInterval := by
  unfold waitIfNeeded
  dsimp only
  rw [hlast, sub_self, hoversleep]
  split_ifs with helapsed
  · simp [ClientWorld.elapse]
  · rw [le_antisymm (not_lt.mp helapsed) hinterval, add_zero]

/-- What every attempt, every new client and every pause keep, a run keeps. -/
lemma runCalls_preserves {I : ClientWorld K → Prop}
    (hcreate : ∀ w, I w → I (newClient cfg w).2)
    (hrequest : ∀ (content : Except HttpFailure α) w, I w → I (requestOnce cfg content w).2)
    (hpause : ∀ number w, I w → I (w.elapse (cfg.wait number))) {calls : List (ClientCall α)}
    {w : ClientWorld K} (hw : I w) : I (runCalls cfg calls w) := by
  unfold runCalls
  induction calls generalizing w with
  | nil => exact hw
  | cons call calls ih =>
    rw [List.foldl_cons]
    apply ih
    cases call with
    | create => exact hcreate w hw
    | page content => exact Retrying.run_preserves (hrequest content) hpause hw
    | zip content => exact hrequest content w hw

/-- What every step of an attempt keeps, the attempt keeps. The request may rely on what the check
of the token leaves. -/
lemma requestOnce_preserves {I Checked : ClientWorld K → Prop} (content : Except HttpFailure α)
    (hbegin : ∀ n w, I w → I (beginAttempt (cfg.answers n) w))
    (hcheck : ∀ n w, I w → I (ensureTokenValid (cfg.answers n) w).2 ∧
      ((ensureTokenValid (cfg.answers n) w).1 = .ok () →
        Checked (ensureTokenValid (cfg.answers n) w).2))
    (hpost : ∀ n w, I w → Checked w → I (post cfg.minInterval (cfg.answers n) content w).2)
    {w : ClientWorld K} (hw : I w) : I (requestOnce cfg content w).2 := by
  obtain ⟨hchecked, hfresh⟩ := hcheck w.attempts _ (hbegin w.attempts w hw)
  unfold requestOnce
  dsimp only
  cases hresult : (ensureTokenValid (cfg.answers w.attempts)
      (beginAttempt (cfg.answers w.attempts) w)).1 with
  | error e => exact hchecked
  | ok _ => exact hpost _ _ hchecked (hfresh hresult)

end Rules

/-! ## Tokens -/

section Tokens

variable {K : Type*} [Field K] [LinearOrder K] {α : Type*}

/-- Nothing takes a negative time. -/
structure Forward (cfg : ClientConfig K) : Prop where
  minInterval : 0 ≤ cfg.minInterval
  wait : ∀ number, 0 ≤ cfg.wait number
  idle : ∀ n, 0 ≤ (cfg.answers n).idle
  tokenOut : ∀ n, 0 ≤ (cfg.answers n).tokenOut
  tokenBack : ∀ n, 0 ≤ (cfg.answers n).tokenBack
  prepare : ∀ n, 0 ≤ (cfg.answers n).prepare
  oversleep : ∀ n, 0 ≤ (cfg.answers n).oversleep
  transit : ∀ n, 0 ≤ (cfg.answers n).transit
  reply : ∀ n, 0 ≤ (cfg.answers n).reply

/-- Moreover a token is received within `back` of its issue and, apart from the pacing, a request
arrives within `send` of the check of the token. -/
structure Timely (cfg : ClientConfig K) (back send : K) : Prop extends Forward cfg where
  /-- A token is received in time. -/
  received : ∀ n, (cfg.answers n).tokenBack ≤ back
  /-- A request arrives in time. -/
  arrived : ∀ n, (cfg.answers n).prepare + (cfg.answers n).oversleep + (cfg.answers n).transit ≤
    send

/-- Every token lives longer than a request takes from the issue of the token to its arrival. -/
def LongLived (cfg : ClientConfig K) (time : K) : Prop :=
  ∀ n text expiresIn, (cfg.answers n).token = .ok (text, expiresIn) → time < expiresIn

/-- What a client knows about its token, and what its requests carried. -/
structure TokenKept (back : K) (w : ClientWorld K) : Prop where
  /-- The last request is past. -/
  last : w.lastRequestTime ≤ w.clock
  /-- The client takes its token to expire at most `back` too late. -/
  expire : ∀ expire ∈ w.expire, ∃ token ∈ w.accessToken, expire ≤ token.validUntil + back
  /-- Every request arrived with a token that was accepted. -/
  accepted : ∀ request ∈ w.sent, request.arrivesAt < request.token.validUntil

/-- The token lives longer than a time from now. -/
def FreshToken (time : K) (w : ClientWorld K) : Prop :=
  ∃ token ∈ w.accessToken, w.clock + time < token.validUntil

variable [IsStrictOrderedRing K] {cfg : ClientConfig K} {back send : K} {w : ClientWorld K}

/-- The state of the token is kept while time passes. -/
lemma TokenKept.elapse (h : TokenKept back w) {time : K} (htime : 0 ≤ time) :
    TokenKept back (w.elapse time) where
  last := le_trans h.last (le_add_of_nonneg_right htime)
  expire := h.expire
  accepted := h.accepted

/-- The state of the token is kept when an attempt begins. -/
lemma TokenKept.beginAttempt (h : TokenKept back w) {a : AttemptAnswers K} (hidle : 0 ≤ a.idle) :
    TokenKept back (beginAttempt a w) where
  last := (h.elapse hidle).last
  expire := h.expire
  accepted := h.accepted

/-- A new token replaces the old one. -/
lemma TokenKept.updateToken (h : TokenKept back w) (ht : Timely cfg back send) (n : ℕ) :
    TokenKept back (updateToken (cfg.answers n) w).2 := by
  have hreceived := (h.elapse (ht.tokenOut n)).elapse (ht.tokenBack n)
  unfold EntsoePipeline.updateToken
  dsimp only
  cases htoken : (cfg.answers n).token with
  | error e => exact hreceived
  | ok token =>
    refine ⟨hreceived.last, ?_, hreceived.accepted⟩
    rintro expire ⟨⟩
    refine ⟨_, rfl, ?_⟩
    have hback := ht.received n
    simp only [AccessToken.validUntil, ClientWorld.elapse]
    linarith

/-- A new client has no token to keep. -/
lemma TokenKept.newClient (h : TokenKept back w) (ht : Timely cfg back send) :
    TokenKept back (newClient cfg w).2 := by
  have hbegin := h.beginAttempt (ht.idle w.attempts)
  have hnone : TokenKept back { EntsoePipeline.beginAttempt (cfg.answers w.attempts) w with
      expire := none, accessToken := none } :=
    ⟨hbegin.last, fun _ hexpire => (Option.not_mem_none _ hexpire).elim, hbegin.accepted⟩
  exact hnone.updateToken ht _

/-- A new token is fresh. -/
lemma freshToken_updateToken {time : K} (ht : Timely cfg back send)
    (hlife : LongLived cfg (back + time)) {n : ℕ}
    (hok : (updateToken (cfg.answers n) w).1 = .ok ()) :
    FreshToken time (updateToken (cfg.answers n) w).2 := by
  unfold updateToken at hok ⊢
  dsimp only at hok ⊢
  cases htoken : (cfg.answers n).token with
  | error e =>
    rw [htoken] at hok
    cases hok
  | ok token =>
    have hback := ht.received n
    have hlong := hlife n token.1 token.2 htoken
    refine ⟨_, rfl, ?_⟩
    simp only [AccessToken.validUntil, ClientWorld.elapse]
    linarith

/-- **The check of the token.** It keeps what the client knows, and when it does not raise, the
token lives longer than a request takes. -/
lemma TokenKept.ensureTokenValid (h : TokenKept back w) (ht : Timely cfg back send) {time : K}
    (hmargin : back + time ≤ 30) (hlife : LongLived cfg (back + time)) (n : ℕ) :
    TokenKept back (ensureTokenValid (cfg.answers n) w).2 ∧
      ((EntsoePipeline.ensureTokenValid (cfg.answers n) w).1 = .ok () →
        FreshToken time (EntsoePipeline.ensureTokenValid (cfg.answers n) w).2) := by
  unfold EntsoePipeline.ensureTokenValid
  split_ifs with hneeds
  · exact ⟨h.updateToken ht n, freshToken_updateToken ht hlife⟩
  · refine ⟨h, fun _ => ?_⟩
    unfold needsToken at hneeds
    cases hexpire : w.expire with
    | none =>
      rw [hexpire] at hneeds
      exact absurd rfl hneeds
    | some expire =>
      rw [hexpire] at hneeds
      have hclock : ¬ expire - 30 ≤ w.clock := fun hle => hneeds (decide_eq_true hle)
      obtain ⟨token, htoken, hvalid⟩ := h.expire expire hexpire
      refine ⟨token, htoken, ?_⟩
      linarith [not_le.mp hclock]

/-- The pacing takes at most the interval, and what a sleep lasts longer. -/
lemma clock_waitIfNeeded_le {minInterval : K} {a : AttemptAnswers K} (hinterval : 0 ≤ minInterval)
    (hoversleep : 0 ≤ a.oversleep) (hlast : w.lastRequestTime ≤ w.clock) :
    (waitIfNeeded minInterval a w).clock ≤ w.clock + minInterval + a.oversleep := by
  unfold waitIfNeeded
  dsimp only
  split_ifs with helapsed
  · dsimp only [ClientWorld.elapse]
    linarith
  · linarith

/-- A request with a fresh token is accepted. -/
lemma TokenKept.exchange (h : TokenKept back w) (ht : Timely cfg back send)
    {token : AccessToken K} (hlives : w.clock + (cfg.minInterval + send) < token.validUntil)
    (n : ℕ) :
    TokenKept back (exchange cfg.minInterval (cfg.answers n) token w) := by
  have hprepared := h.elapse (ht.prepare n)
  have hpaced :=
    clock_waitIfNeeded_le ht.minInterval (ht.oversleep n) hprepared.last
  have htransit := ht.transit n
  have hreply := ht.reply n
  have harrived := ht.arrived n
  constructor
  · show (waitIfNeeded cfg.minInterval (cfg.answers n) (w.elapse (cfg.answers n).prepare)).clock ≤
      (waitIfNeeded cfg.minInterval (cfg.answers n) (w.elapse (cfg.answers n).prepare)).clock +
        (cfg.answers n).transit + (cfg.answers n).reply
    linarith
  · intro expire hexpire
    obtain ⟨kept, hkept, hvalid⟩ := h.expire expire (by simpa [EntsoePipeline.exchange,
      ClientWorld.elapse] using hexpire)
    exact ⟨kept, by simpa [EntsoePipeline.exchange, ClientWorld.elapse] using hkept, hvalid⟩
  · intro request hrequest
    rcases List.mem_append.mp hrequest with hbefore | hnew
    · exact h.accepted request hbefore
    · obtain rfl := List.mem_singleton.mp hnew
      dsimp only [ClientWorld.elapse] at hpaced ⊢
      linarith

/-- The state of the token is kept by a request that a fresh token allows. -/
lemma TokenKept.post (h : TokenKept back w) (ht : Timely cfg back send)
    (hfresh : FreshToken (cfg.minInterval + send) w) (content : Except HttpFailure α) (n : ℕ) :
    TokenKept back (post cfg.minInterval (cfg.answers n) content w).2 := by
  obtain ⟨token, htoken, hlives⟩ := hfresh
  have hexchange := h.exchange ht hlives n
  unfold EntsoePipeline.post
  rw [htoken]
  dsimp only
  cases (cfg.answers n).fault with
  | some e => exact hexchange
  | none => exact hexchange

/-- Within the margin, no request arrives with a token that has expired.

**Proof sketch.** The client takes its token to expire later than the server does, by the time its
receipt took. The margin of the check covers this, and what passes until the request arrives; the
token is checked in every attempt, so that pauses do not count. -/
lemma accepted_of_margin (ht : Timely cfg back send)
    (hmargin : back + (cfg.minInterval + send) ≤ 30)
    (hlife : LongLived cfg (back + (cfg.minInterval + send))) {clock : K} (hclock : 0 ≤ clock)
    (calls : List (ClientCall α)) :
    ∀ request ∈ (runCalls cfg calls (.idle clock)).sent,
      request.arrivesAt < request.token.validUntil := by
  have hkept : TokenKept back (runCalls cfg calls (.idle clock)) := by
    refine runCalls_preserves ?_ ?_ ?_ ?_
    · exact fun w h => h.newClient ht
    · intro content w h
      exact requestOnce_preserves content (fun n w h => h.beginAttempt (ht.idle n))
        (fun n w h => h.ensureTokenValid ht hmargin hlife n)
        (fun n w h hfresh => h.post ht hfresh content n) h
    · exact fun number w h => h.elapse (ht.wait number)
    · exact ⟨hclock, fun _ hexpire => (Option.not_mem_none _ hexpire).elim,
        fun _ hsent => (List.not_mem_nil hsent).elim⟩
  exact hkept.accepted

/-! ### The margin is exact -/

section Late

variable {minInterval life gap : K}

/-- Nothing takes time, but the receipt of the token and the way of the second request; a time
passes between the receipt and the first request. -/
def lateAnswers (back send life gap : K) (n : ℕ) : AttemptAnswers K where
  idle := if n = 1 then gap else 0
  tokenOut := 0
  tokenBack := if n = 0 then back else 0
  token := .ok ([], life)
  prepare := 0
  oversleep := 0
  transit := if n = 2 then send else 0
  reply := 0
  fault := none

/-- A client that sends two requests in a row, just before it would ask for a new token. -/
def lateConfig (minInterval back send life gap : K) : ClientConfig K where
  minInterval := minInterval
  wait := fun _ => 0
  answers := lateAnswers back send life gap

omit [LinearOrder K] [IsStrictOrderedRing K] in
/-- The token of the client. -/
def lateToken (minInterval life : K) : AccessToken K := ⟨[], minInterval, life⟩

/-- The client at a time, with its token, its attempts and its requests. -/
def lateClient (minInterval back life clock last : K) (attempts : ℕ) (sent : List (SentRequest K)) :
    ClientWorld K :=
  ⟨clock, last, some (minInterval + back + life), some (lateToken minInterval life), attempts, sent⟩

omit [IsStrictOrderedRing K] in
/-- The assumed times hold of the late client. -/
lemma timely_lateConfig (hinterval : 0 ≤ minInterval) (hback : 0 ≤ back) (hsend : 0 ≤ send)
    (hgap : 0 ≤ gap) : Timely (lateConfig minInterval back send life gap) back send where
  minInterval := hinterval
  wait _ := le_refl 0
  idle n := by
    dsimp only [lateConfig, lateAnswers]
    split_ifs
    · exact hgap
    · exact le_refl 0
  tokenOut _ := le_refl 0
  tokenBack n := by
    dsimp only [lateConfig, lateAnswers]
    split_ifs
    · exact hback
    · exact le_refl 0
  prepare _ := le_refl 0
  oversleep _ := le_refl 0
  transit n := by
    dsimp only [lateConfig, lateAnswers]
    split_ifs
    · exact hsend
    · exact le_refl 0
  reply _ := le_refl 0
  received n := by
    dsimp only [lateConfig, lateAnswers]
    split_ifs
    · exact le_refl back
    · exact hback
  arrived n := by
    dsimp only [lateConfig, lateAnswers]
    split_ifs
    · rw [zero_add, zero_add]
    · rw [zero_add, zero_add]
      exact hsend

omit [LinearOrder K] [IsStrictOrderedRing K] in
/-- The late client when it has been made. -/
lemma newClient_lateConfig : (newClient (lateConfig minInterval back send life gap)
    (.idle minInterval)).2 = lateClient minInterval back life (minInterval + back) 0 1 [] := by
  simp [newClient, updateToken, beginAttempt, ClientWorld.idle, ClientWorld.elapse, lateConfig,
    lateAnswers, lateClient, lateToken]

omit [IsStrictOrderedRing K] in
/-- With a token that is kept, an attempt is a request with it. -/
lemma requestOnce_of_kept {token : AccessToken K}
    (hneeds : needsToken (beginAttempt (cfg.answers w.attempts) w) = false)
    (htoken : w.accessToken = some token) (content : Except HttpFailure α) :
    (requestOnce cfg content w).2 = exchange cfg.minInterval (cfg.answers w.attempts) token
      (beginAttempt (cfg.answers w.attempts) w) := by
  have hbegin : (beginAttempt (cfg.answers w.attempts) w).accessToken = some token := htoken
  unfold requestOnce ensureTokenValid
  dsimp only
  rw [hneeds, if_neg Bool.false_ne_true]
  dsimp only
  unfold EntsoePipeline.post
  rw [hbegin]
  dsimp only
  cases (cfg.answers w.attempts).fault <;> rfl

/-- An attempt just before the client would ask for a new token. -/
lemma requestOnce_lateConfig {clock last : K} {attempts : ℕ} {sent : List (SentRequest K)}
    (hidle : clock + (lateAnswers back send life gap attempts).idle = minInterval + back + gap)
    (hgap : gap < life - 30) (content : Except HttpFailure α) :
    (requestOnce (lateConfig minInterval back send life gap) content
        (lateClient minInterval back life clock last attempts sent)).2 =
      exchange minInterval (lateAnswers back send life gap attempts) (lateToken minInterval life)
        (lateClient minInterval back life (minInterval + back + gap) last (attempts + 1) sent) := by
  have hbegin : beginAttempt (lateAnswers back send life gap attempts)
      (lateClient minInterval back life clock last attempts sent) =
        lateClient minInterval back life (minInterval + back + gap) last (attempts + 1) sent := by
    unfold EntsoePipeline.beginAttempt lateClient ClientWorld.elapse
    dsimp only
    rw [hidle]
  have hneeds : needsToken (lateClient minInterval back life (minInterval + back + gap) last
      (attempts + 1) sent) = false := by
    refine decide_eq_false (not_le.mpr ?_)
    dsimp only [lateClient]
    linarith
  rw [← hbegin] at hneeds ⊢
  exact requestOnce_of_kept hneeds rfl content

variable (back send minInterval life gap) in
/-- The second request arrives when the interval and its way have passed since the check. -/
lemma exists_late (hgap : gap < life - 30) (hinterval : 0 ≤ minInterval) (hback : 0 ≤ back)
    (hlate : 0 ≤ gap) (content : Except HttpFailure α) :
    ∃ request ∈ (runCalls (lateConfig minInterval back send life gap)
        [.create, .zip content, .zip content] (.idle minInterval)).sent,
      request.token.validUntil = minInterval + life ∧
        request.arrivesAt = minInterval + back + gap + minInterval + send := by
  have hfirst : (requestOnce (lateConfig minInterval back send life gap) content
      (lateClient minInterval back life (minInterval + back) 0 1 [])).2 =
        lateClient minInterval back life (minInterval + back + gap) (minInterval + back + gap) 2
          [⟨lateToken minInterval life, minInterval + back + gap, minInterval + back + gap⟩] := by
    rw [requestOnce_lateConfig (by simp [lateAnswers]) hgap]
    unfold EntsoePipeline.exchange waitIfNeeded
    simp only [lateClient, lateAnswers, ClientWorld.elapse]
    rw [if_neg (by simp; linarith)]
    simp
  have hsecond : (requestOnce (lateConfig minInterval back send life gap) content
      (lateClient minInterval back life (minInterval + back + gap) (minInterval + back + gap) 2
        [⟨lateToken minInterval life, minInterval + back + gap,
          minInterval + back + gap⟩])).2.sent =
      [⟨lateToken minInterval life, minInterval + back + gap, minInterval + back + gap⟩,
        ⟨lateToken minInterval life, minInterval + back + gap + minInterval,
          minInterval + back + gap + minInterval + send⟩] := by
    rw [requestOnce_lateConfig (by simp [lateAnswers]) hgap]
    unfold EntsoePipeline.exchange
    simp [lateClient, lateAnswers, ClientWorld.elapse]
    exact clock_waitIfNeeded_of_eq hinterval rfl rfl
  refine ⟨⟨lateToken minInterval life, minInterval + back + gap + minInterval,
    minInterval + back + gap + minInterval + send⟩, ?_, rfl, rfl⟩
  show _ ∈ (requestOnce _ content (requestOnce _ content (newClient _ _).2).2).2.sent
  rw [newClient_lateConfig, hfirst, hsecond]
  simp

end Late

/-! ### A flaky server -/

/-- The second attempt fails with a request exception. -/
def flakyAnswers (n : ℕ) : AttemptAnswers ℚ where
  idle := 1
  tokenOut := 1
  tokenBack := 1
  token := .ok ("token".toList, 300)
  prepare := 0
  oversleep := 0
  transit := 1
  reply := 1
  fault := if n = 1 then some .requestException else none

/-- A client of a flaky server. -/
def flakyConfig : ClientConfig ℚ where
  minInterval := 637 / 1000
  wait := fun _ => 2
  answers := flakyAnswers

/-- The clock of the flaky server never goes back. -/
lemma forward_flakyConfig : Forward flakyConfig := by
  constructor <;> intros <;> norm_num [flakyConfig, flakyAnswers]

/-- The assumed times hold of the flaky server. -/
lemma timely_flakyConfig : Timely flakyConfig 1 1 where
  toForward := forward_flakyConfig
  received _ := le_refl 1
  arrived _ := by norm_num [flakyConfig, flakyAnswers]

/-- **The margin of 30 seconds is exact.** No request of any run arrives with a token that has
expired, if and only if the receipt of a token, the pacing and the way of a request together take
at most the 30 seconds of the margin. Every token is taken to live longer than that.

**Proof sketch.** Within the margin this is `accepted_of_margin`. Beyond it, a client that sends two
requests in a row, just before it would ask for a new token, sends the second one too late. -/
theorem accepted_iff_margin {minInterval : K} (hinterval : 0 ≤ minInterval) (hback : 0 ≤ back)
    (hsend : 0 ≤ send) :
    (∀ cfg : ClientConfig K, cfg.minInterval = minInterval → Timely cfg back send →
      LongLived cfg (back + (minInterval + send)) → ∀ clock, 0 ≤ clock →
        ∀ calls : List (ClientCall α), ∀ request ∈ (runCalls cfg calls (.idle clock)).sent,
          request.arrivesAt < request.token.validUntil) ↔ back + (minInterval + send) ≤ 30 := by
  constructor
  · intro h
    by_contra hbeyond
    set life := 31 + (back + (minInterval + send)) with hlife
    obtain ⟨request, hrequest, hvalid, harrives⟩ := exists_late back send minInterval life 31
      (by linarith [not_le.mp hbeyond]) hinterval hback (by norm_num)
      (.error .other : Except HttpFailure α)
    have haccepted := h (lateConfig minInterval back send life 31) rfl ?_ ?_ minInterval hinterval _
      request hrequest
    · rw [hvalid, harrives] at haccepted
      linarith
    · exact timely_lateConfig hinterval hback hsend (by norm_num)
    · rintro n text expiresIn ⟨⟩
      linarith
  · rintro hmargin cfg rfl ht hlife clock hclock calls
    exact accepted_of_margin ht hmargin hlife hclock calls

/-- The requests of a client of a flaky server are accepted. -/
theorem accepted_iff_margin_flaky :
    let calls : List (ClientCall Unit) := [.create, .page (.ok ()), .zip (.ok ())]
    (runCalls flakyConfig calls (.idle 0)).sent.length = 3 ∧
      ∀ request ∈ (runCalls flakyConfig calls (.idle 0)).sent,
        request.arrivesAt < request.token.validUntil := by
  refine ⟨by decide +kernel, ?_⟩
  have hinterval : (0 : ℚ) ≤ 637 / 1000 := by norm_num
  refine (accepted_iff_margin hinterval (zero_le_one' ℚ) (zero_le_one' ℚ)).mpr (by norm_num)
    flakyConfig rfl timely_flakyConfig ?_ 0 (le_refl 0) _
  rintro n text expiresIn ⟨⟩
  norm_num [flakyConfig]

end Tokens

/-! ## Pacing -/

section Pacing

variable {K : Type*} [Field K] [LinearOrder K] {α : Type*}

/-- The times at which requests were sent. -/
def sentTimes (sent : List (SentRequest K)) : List K := sent.map SentRequest.sentAt

/-- What an attempt does to the requests: it sends none, or one that is paced. -/
structure SendsOnce (minInterval : K) (w w' : ClientWorld K) : Prop where
  /-- The attempt is counted. -/
  attempts : w'.attempts = w.attempts + 1
  /-- The clock does not go back. -/
  clock : w.clock ≤ w'.clock
  sent : (w'.sent = w.sent ∧ w'.lastRequestTime = w.lastRequestTime) ∨
    ∃ request, w'.sent = w.sent ++ [request] ∧ w'.lastRequestTime = request.sentAt ∧
      w.lastRequestTime + minInterval ≤ request.sentAt ∧ w.clock ≤ request.sentAt ∧
        request.sentAt ≤ w'.clock

variable [IsStrictOrderedRing K] {cfg : ClientConfig K} {w : ClientWorld K}

/-- The check of the token sends nothing to the file server. -/
lemma ensureTokenValid_frame (hforward : Forward cfg) (n : ℕ) (w : ClientWorld K) :
    (ensureTokenValid (cfg.answers n) w).2.sent = w.sent ∧
      (ensureTokenValid (cfg.answers n) w).2.lastRequestTime = w.lastRequestTime ∧
        (ensureTokenValid (cfg.answers n) w).2.attempts = w.attempts ∧
          w.clock ≤ (ensureTokenValid (cfg.answers n) w).2.clock := by
  have hout := hforward.tokenOut n
  have hback := hforward.tokenBack n
  have hclock : w.clock ≤ ((w.elapse (cfg.answers n).tokenOut).elapse
      (cfg.answers n).tokenBack).clock := by
    dsimp only [ClientWorld.elapse]
    linarith
  unfold ensureTokenValid updateToken
  dsimp only
  split_ifs
  · cases (cfg.answers n).token with
    | error e => exact ⟨rfl, rfl, rfl, hclock⟩
    | ok token => exact ⟨rfl, rfl, rfl, hclock⟩
  · exact ⟨rfl, rfl, rfl, le_refl _⟩

/-- A request is paced, and sent once. -/
lemma exchange_sends (hforward : Forward cfg) (n : ℕ) (token : AccessToken K) (w : ClientWorld K) :
    (exchange cfg.minInterval (cfg.answers n) token w).attempts = w.attempts ∧
      ∃ request, (exchange cfg.minInterval (cfg.answers n) token w).sent = w.sent ++ [request] ∧
        (exchange cfg.minInterval (cfg.answers n) token w).lastRequestTime = request.sentAt ∧
          w.lastRequestTime + cfg.minInterval ≤ request.sentAt ∧ w.clock ≤ request.sentAt ∧
            request.sentAt ≤ (exchange cfg.minInterval (cfg.answers n) token w).clock := by
  have hprepare := hforward.prepare n
  have htransit := hforward.transit n
  have hreply := hforward.reply n
  obtain ⟨hclock, hpaced⟩ := clock_waitIfNeeded cfg.minInterval (w.elapse (cfg.answers n).prepare)
    (hforward.oversleep n)
  refine ⟨attempts_waitIfNeeded _ _ _, _, rfl, rfl, hpaced, ?_, ?_⟩
  · dsimp only [ClientWorld.elapse] at hclock ⊢
    linarith
  · show _ ≤ (waitIfNeeded cfg.minInterval (cfg.answers n)
      (w.elapse (cfg.answers n).prepare)).clock + (cfg.answers n).transit + (cfg.answers n).reply
    dsimp only
    linarith

/-- **An attempt.** It sends no request to the file server, or one that is paced. -/
lemma requestOnce_sendsOnce (hforward : Forward cfg) (content : Except HttpFailure α)
    (w : ClientWorld K) : SendsOnce cfg.minInterval w (requestOnce cfg content w).2 := by
  have hidle : w.clock ≤ (beginAttempt (cfg.answers w.attempts) w).clock :=
    le_add_of_nonneg_right (hforward.idle w.attempts)
  obtain ⟨hsent, hlast, hattempts, hclock⟩ := ensureTokenValid_frame hforward w.attempts
    (beginAttempt (cfg.answers w.attempts) w)
  have hunsent : SendsOnce cfg.minInterval w (ensureTokenValid (cfg.answers w.attempts)
      (beginAttempt (cfg.answers w.attempts) w)).2 :=
    ⟨hattempts, le_trans hidle hclock, Or.inl ⟨hsent, hlast⟩⟩
  unfold requestOnce
  dsimp only
  generalize ensureTokenValid (cfg.answers w.attempts)
    (beginAttempt (cfg.answers w.attempts) w) = checked at hunsent hsent hlast hattempts hclock
  cases checked.1 with
  | error e => exact hunsent
  | ok _ =>
    unfold post
    cases checked.2.accessToken with
    | none => exact hunsent
    | some token =>
      obtain ⟨hsame, request, hadded, hstored, hpaced, hbehind, hend⟩ :=
        exchange_sends hforward w.attempts token checked.2
      have hsends : SendsOnce cfg.minInterval w
          (exchange cfg.minInterval (cfg.answers w.attempts) token checked.2) := by
        refine ⟨hsame.trans hattempts, ?_, Or.inr ⟨request, ?_, hstored, ?_, ?_, hend⟩⟩
        · linarith
        · rw [hadded, hsent]
          rfl
        · rw [hlast] at hpaced
          exact hpaced
        · linarith
      dsimp only
      cases (cfg.answers w.attempts).fault with
      | some e => exact hsends
      | none => exact hsends

/-- The requests of a session are spaced, and the session knows the time of the last one. -/
structure SentPaced (minInterval : K) (w : ClientWorld K) : Prop where
  spaced : Spaced minInterval (sentTimes w.sent)
  last : ∀ time ∈ (sentTimes w.sent).getLast?, time = w.lastRequestTime

omit [IsStrictOrderedRing K] in
/-- The pacing is about the requests that were sent and the time of the last one. -/
lemma SentPaced.congr {w' : ClientWorld K} {minInterval : K} (h : SentPaced minInterval w)
    (hframe : w'.sent = w.sent ∧ w'.lastRequestTime = w.lastRequestTime) :
    SentPaced minInterval w' := by
  obtain ⟨hsent, hlast⟩ := hframe
  refine ⟨by rw [hsent]; exact h.spaced, ?_⟩
  rw [hsent, hlast]
  exact h.last

omit [LinearOrder K] [IsStrictOrderedRing K] in
/-- A new client sends nothing to the file server. -/
lemma newClient_frame (cfg : ClientConfig K) (w : ClientWorld K) :
    (newClient cfg w).2.sent = w.sent ∧
      (newClient cfg w).2.lastRequestTime = w.lastRequestTime := by
  unfold newClient updateToken
  dsimp only
  cases (cfg.answers w.attempts).token <;> exact ⟨rfl, rfl⟩

/-- One more request keeps the pacing. -/
lemma SentPaced.sends {w' : ClientWorld K} {minInterval : K} (h : SentPaced minInterval w)
    (hsends : SendsOnce minInterval w w') : SentPaced minInterval w' := by
  obtain hframe | ⟨request, hsent, hlast, hpaced, -, -⟩ := hsends.sent
  · exact h.congr hframe
  · have htimes : sentTimes w'.sent = sentTimes w.sent ++ [request.sentAt] := by
      rw [hsent, sentTimes, List.map_append]
      rfl
    constructor
    · rw [htimes, spaced_concat_iff]
      refine ⟨h.spaced, fun time htime => ?_⟩
      rw [h.last time htime]
      linarith
    · intro time htime
      rw [htimes, List.getLast?_concat, Option.mem_some_iff] at htime
      rw [hlast, htime]

/-- **Pacing.** In every run of a process, the requests to the file server, with those that are
tried again, are at least the minimum interval apart, and no closed window of a length holds more
of them than fit. -/
theorem spaced_runCalls [FloorRing K] (hforward : Forward cfg) (hpos : 0 < cfg.minInterval)
    (clock : K) (calls : List (ClientCall α)) :
    Spaced cfg.minInterval (sentTimes (runCalls cfg calls (.idle clock)).sent) ∧
      ∀ a T, 0 ≤ T → (((sentTimes (runCalls cfg calls (.idle clock)).sent).filter
        fun time => a ≤ time ∧ time ≤ a + T).length : ℤ) ≤ ⌊T / cfg.minInterval⌋ + 1 := by
  have hpaced : SentPaced cfg.minInterval (runCalls cfg calls (.idle clock)) := by
    refine runCalls_preserves ?_ ?_ ?_ ?_
    · exact fun w h => h.congr (newClient_frame cfg w)
    · exact fun content w h => h.sends (requestOnce_sendsOnce hforward content w)
    · exact fun number w h => ⟨h.spaced, h.last⟩
    · exact ⟨spaced_nil _, fun _ htime => (Option.not_mem_none _ htime).elim⟩
  exact ⟨hpaced.spaced, fun a T hT => hpaced.spaced.length_window_le hpos a hT⟩

/-- The requests of a client of a flaky server are paced. -/
theorem spaced_runCalls_flaky :
    Spaced (637 / 1000) (sentTimes (runCalls flakyConfig
      [.create, .page (.ok ()), .zip (.ok ())] (.idle 0)).sent) :=
  (spaced_runCalls forward_flakyConfig (by norm_num [flakyConfig]) 0 _).1

/-! ## The requests for a page -/

/-- The requests for a page before an attempt with a number: fewer than the number, and the last one
is at least the pause behind the clock. -/
structure PageSent (minInterval pause : K) (start : ClientWorld K) (new : List (SentRequest K))
    (number : ℕ) (w : ClientWorld K) : Prop where
  sent : w.sent = start.sent ++ new
  attempts : w.attempts + 1 = start.attempts + number
  length : new.length + 1 ≤ number
  spaced : Spaced (max minInterval pause) (sentTimes new)
  last : ∀ time ∈ (sentTimes new).getLast?, time = w.lastRequestTime ∧ time + pause ≤ w.clock

variable {pause : K} {start w' : ClientWorld K} {new : List (SentRequest K)} {number : ℕ}

/-- An attempt for a page. -/
lemma PageSent.sends (h : PageSent cfg.minInterval pause start new number w)
    (hsends : SendsOnce cfg.minInterval w w') (hpause : 0 ≤ pause) :
    ∃ new', w'.sent = start.sent ++ new' ∧ w'.attempts = start.attempts + number ∧
      new'.length ≤ number ∧ Spaced (max cfg.minInterval pause) (sentTimes new') ∧
        ∀ time ∈ (sentTimes new').getLast?, time = w'.lastRequestTime ∧ time ≤ w'.clock := by
  have hattempts : w'.attempts = start.attempts + number := by
    rw [hsends.attempts, h.attempts]
  have hlength := h.length
  obtain ⟨hsent, hlast⟩ | ⟨request, hsent, hlast, hpaced, hbehind, hend⟩ := hsends.sent
  · refine ⟨new, hsent.trans h.sent, hattempts, by omega, h.spaced, fun time htime => ?_⟩
    obtain ⟨hstored, hbefore⟩ := h.last time htime
    refine ⟨hstored.trans hlast.symm, ?_⟩
    linarith [hsends.clock]
  · have htimes : sentTimes (new ++ [request]) = sentTimes new ++ [request.sentAt] := by
      rw [sentTimes, List.map_append]
      rfl
    refine ⟨new ++ [request], ?_, hattempts, ?_, ?_, ?_⟩
    · rw [hsent, h.sent, List.append_assoc]
    · rw [List.length_append, List.length_singleton]
      exact hlength
    · rw [htimes, spaced_concat_iff]
      refine ⟨h.spaced, fun time htime => ?_⟩
      obtain ⟨rfl, hbefore⟩ := h.last time htime
      apply max_le
      · linarith
      · linarith
    · intro time htime
      rw [htimes, List.getLast?_concat, Option.mem_some_iff] at htime
      subst htime
      exact ⟨hlast.symm, hend⟩

/-- **The requests for a page.** A page is requested at most five times, and any two of the requests
are further apart than the interval and the pause. A request exception is raised only when five
attempts were made.

**Proof sketch.** Before an attempt with a number, fewer requests than the number were sent, and the
last one is the pause behind the clock; an attempt that raises a request exception and its pause
keep this. A request exception of the call is that of the last attempt. -/
theorem sent_fetchFolderPage (hforward : Forward cfg) (hpause : 0 ≤ pause)
    (hwait : ∀ number, pause ≤ cfg.wait number) (page : Except HttpFailure α) (w : ClientWorld K) :
    (∃ new, (fetchFolderPage cfg page w).2.sent = w.sent ++ new ∧ new.length ≤ maxAttempts ∧
      Spaced (max cfg.minInterval pause) (sentTimes new)) ∧
    (fetchFolderPage cfg page w).2.attempts ≤ w.attempts + maxAttempts ∧
    ((fetchFolderPage cfg page w).1 = .error .requestException →
      (fetchFolderPage cfg page w).2.attempts = w.attempts + maxAttempts) := by
  obtain ⟨k, w', hk, hfalters, hrun, hlast⟩ := Retrying.exists_falters (requestOnce cfg page)
    isRequestException (fun number w => w.elapse (cfg.wait number)) (maxAttempts - 1) 1 w
  obtain ⟨before, hbefore⟩ : ∃ new, PageSent cfg.minInterval pause w new (1 + k) w' := by
    refine hfalters.turns
      (I := fun number w' => ∃ new, PageSent cfg.minInterval pause w new number w')
      ?_ ⟨[], by simp, rfl, le_refl 1, spaced_nil _, fun _ h => (Option.not_mem_none _ h).elim⟩
    rintro number s ⟨new, hnew⟩ -
    obtain ⟨new', hsent, hattempts, hlength, hspaced, hstored⟩ :=
      hnew.sends (requestOnce_sendsOnce hforward page s) hpause
    refine ⟨new', hsent, ?_, by omega, hspaced, fun time htime => ?_⟩
    · show (requestOnce cfg page s).2.attempts + 1 = _
      rw [hattempts, Nat.add_assoc]
    · obtain ⟨heq, hle⟩ := hstored time htime
      refine ⟨heq, ?_⟩
      have hlong := hwait number
      dsimp only [ClientWorld.elapse]
      linarith
  obtain ⟨new, hsent, hattempts, hlength, hspaced, -⟩ :=
    hbefore.sends (requestOnce_sendsOnce hforward page w') hpause
  have hmax : maxAttempts = 5 := rfl
  unfold fetchFolderPage
  rw [hrun]
  refine ⟨⟨new, hsent, by omega, hspaced⟩, by omega, fun herror => ?_⟩
  rcases hlast with rfl | hlast
  · omega
  · exact absurd ⟨_, herror, rfl⟩ hlast

/-- A page is requested again after a request exception. -/
theorem sent_fetchFolderPage_flaky : ∃ new,
    (fetchFolderPage flakyConfig (.ok ()) (newClient flakyConfig (.idle 0)).2).2.sent =
      (newClient flakyConfig (.idle 0)).2.sent ++ new ∧ new.length ≤ maxAttempts ∧
        Spaced (max (637 / 1000) 2) (sentTimes new) :=
  (sent_fetchFolderPage forward_flakyConfig (by norm_num : (0 : ℚ) ≤ 2)
    (fun _ => le_refl 2) (.ok ()) _).1

end Pacing

end EntsoePipeline
