import EntsoePipeline.Api.FileClient
import EntsoePipeline.Fms.CountedListing
import EntsoePipeline.Lib.Simulation

set_option relaxedAutoImplicit false
set_option autoImplicit false

/-!
# Listings over an unreliable connection

The recursive lister requests its pages through the client of the file server, which checks its
token and tries a request again. On a connection on which some of any five attempts in a row are
answered, the lister ends as it does on a reliable one: with the same files or the same exception,
and with the same count of its requests.

## Main definitions

* `EntsoePipeline.retriedListFolderRawItemsRecursive` — the lister with its client.
* `EntsoePipeline.reliableServer` — the server behind the connection.
* `EntsoePipeline.Connected` — what is assumed of the connection.

## Main results

* `EntsoePipeline.fetchFolderPage_spec` — a page is fetched as on a reliable connection.
* `EntsoePipeline.retriedListing_eq` — so is a listing.

## Implementation notes

The counter of the caller counts pages. The session counts the requests that it sends, with those
that are tried again.
-/

namespace EntsoePipeline

open Py Simulation

/-! ## The code -/

/-- The pages with which the file server answers a path. -/
abbrev HttpServer := Str → List (Except HttpFailure (List RawItem))

/-- The state of a lister: the counter of its caller and the client. -/
structure ListerState (K : Type) where
  /-- `api_counter_ref[0]`. -/
  apiCounter : ℕ
  /-- The client. -/
  client : ClientWorld K

/-- The programs of a lister. -/
abbrev Lister (K α : Type) := Program (ListerState K) PyError α

section Code

variable {K : Type} [Field K] [LinearOrder K] (cfg : ClientConfig K)

/-- `api_counter_ref[0] += 1`. -/
def countRequest : Lister K Unit :=
  step fun st => (.ok (), { st with apiCounter := st.apiCounter + 1 })

/-- A page, whose exceptions are raised as an `EntsoeApiError`. -/
def fetchPage (page : Except HttpFailure (List RawItem)) : Lister K (List RawItem) :=
  step fun st =>
    ((fetchFolderPage cfg page st.client).1.mapError fun _ => PyError.apiError,
      { st with client := (fetchFolderPage cfg page st.client).2 })

/-- The files of an item: those of a subdirectory, which `recurse` lists, or the file itself. -/
def retriedListItem (recurse : Str → Lister K (List RawItem)) (currentSubpath : Str)
    (item : RawItem) : Lister K (List RawItem) :=
  if isFolder item then recurse (nestedSubpath currentSubpath item)
  else pure [relativeItem currentSubpath item]

/-- The files of the items of a page. -/
def retriedListItems (recurse : Str → Lister K (List RawItem)) (currentSubpath : Str) :
    List RawItem → Lister K (List RawItem)
  | [] => pure []
  | item :: items => do
    let files ← retriedListItem recurse currentSubpath item
    let rest ← retriedListItems recurse currentSubpath items
    return files ++ rest

/-- The files of the pages of a directory. -/
def retriedListPages (recurse : Str → Lister K (List RawItem)) (currentSubpath : Str) :
    List (Except HttpFailure (List RawItem)) → Lister K (List RawItem)
  | [] => do
    countRequest
    throw .apiError
  | page :: pages => do
    countRequest
    let items ← fetchPage cfg page
    let files ← retriedListItems recurse currentSubpath items
    if items.length < pageSize then return files
    else
      let rest ← retriedListPages recurse currentSubpath pages
      return files ++ rest

/-- The recursive lister with its client, under a recursion limit. -/
def retriedListFolderRawItemsRecursive (server : HttpServer) (rootDir folderName : Str) :
    ℕ → Str → Lister K (List RawItem)
  | 0, _ => throw .recursionError
  | limit + 1, currentSubpath => do
    let files ← retriedListPages cfg
      (retriedListFolderRawItemsRecursive server rootDir folderName limit) currentSubpath
      (server (recursivePath rootDir folderName currentSubpath))
    return sortByName files

/-- The server, when every request is answered. -/
def reliableServer (server : HttpServer) : FileServer := fun path =>
  (server path).map fun page => page.mapError fun _ => .apiError

end Code

/-! ## A page -/

/-- Nothing goes wrong with an attempt. -/
def AttemptAnswers.Clear {K : Type*} (a : AttemptAnswers K) : Prop :=
  a.token.toBool = true ∧ a.fault = none

/-- Nothing but request exceptions goes wrong with an attempt. -/
def AttemptAnswers.Passing {K : Type*} (a : AttemptAnswers K) : Prop :=
  a.token ≠ .error .other ∧ a.fault ≠ some .other

/-- Only request exceptions go wrong, and never with five attempts in a row. -/
structure Connected {K : Type*} (cfg : ClientConfig K) : Prop where
  passing : ∀ n, (cfg.answers n).Passing
  clear : ∀ n, ∃ k < maxAttempts, (cfg.answers (n + k)).Clear

/-- The client has a token when it knows when the token expires. -/
def HasToken {K : Type*} (w : ClientWorld K) : Prop := w.expire.isSome → w.accessToken.isSome

section Page

variable {K : Type*} [Field K] [LinearOrder K] {α : Type*} {cfg : ClientConfig K}
  {w : ClientWorld K}

/-- What the check of the token leaves: a client with a token, and as many attempts and requests. -/
lemma ensureTokenValid_spec (a : AttemptAnswers K) (htoken : HasToken w) :
    HasToken (ensureTokenValid a w).2 ∧ (ensureTokenValid a w).2.attempts = w.attempts ∧
      (ensureTokenValid a w).2.sent = w.sent ∧
        ((ensureTokenValid a w).1 = .ok () → (ensureTokenValid a w).2.accessToken.isSome) ∧
          ∀ e, (ensureTokenValid a w).1 = .error e → a.token = .error e := by
  unfold ensureTokenValid updateToken
  dsimp only
  split_ifs with hneeds
  · cases ha : a.token with
    | error e =>
      refine ⟨htoken, rfl, rfl, fun h => ?_, fun e' h => ?_⟩
      · cases h
      · rw [Except.error.inj h]
    | ok token =>
      refine ⟨fun _ => rfl, rfl, rfl, fun _ => rfl, fun e' h => ?_⟩
      cases h
  · refine ⟨htoken, rfl, rfl, fun _ => htoken ?_, fun e h => by cases h⟩
    unfold needsToken at hneeds
    cases hexpire : w.expire with
    | none =>
      rw [hexpire] at hneeds
      exact absurd rfl hneeds
    | some expire => rfl

/-- What a request with a token leaves. -/
lemma post_spec (minInterval : K) (a : AttemptAnswers K) (content : Except HttpFailure α)
    (htoken : w.accessToken.isSome) :
    (post minInterval a content w).1 = a.fault.elim content .error ∧
      HasToken (post minInterval a content w).2 ∧
        (post minInterval a content w).2.attempts = w.attempts ∧
          (post minInterval a content w).2.sent.length = w.sent.length + 1 := by
  obtain ⟨token, hsome⟩ := Option.isSome_iff_exists.mp htoken
  have hexchange : HasToken (exchange minInterval a token w) ∧
      (exchange minInterval a token w).attempts = w.attempts ∧
        (exchange minInterval a token w).sent.length = w.sent.length + 1 := by
    refine ⟨fun _ => ?_, attempts_waitIfNeeded _ _ _, ?_⟩
    · show (waitIfNeeded minInterval a (w.elapse a.prepare)).accessToken.isSome
      rw [accessToken_waitIfNeeded]
      exact htoken
    · show (w.sent ++ [_]).length = _
      rw [List.length_append, List.length_singleton]
  unfold post
  rw [hsome]
  dsimp only
  cases a.fault with
  | some e => exact ⟨rfl, hexchange⟩
  | none => exact ⟨rfl, hexchange⟩

variable (cfg) in
/-- **An attempt.** It ends as the server answers, unless something goes wrong with it. It is
counted, and sends at most one request, and one when it returns. -/
lemma requestOnce_spec (content : Except HttpFailure α) (htoken : HasToken w) :
    HasToken (requestOnce cfg content w).2 ∧
      (requestOnce cfg content w).2.attempts = w.attempts + 1 ∧
        w.sent.length ≤ (requestOnce cfg content w).2.sent.length ∧
          (requestOnce cfg content w).2.sent.length ≤ w.sent.length + 1 ∧
            (∀ x, (requestOnce cfg content w).1 = .ok x →
              (requestOnce cfg content w).2.sent.length = w.sent.length + 1) ∧
              ((requestOnce cfg content w).1 = content ∨
                ∃ e, (requestOnce cfg content w).1 = .error e ∧
                  ((cfg.answers w.attempts).token = .error e ∨
                    (cfg.answers w.attempts).fault = some e)) := by
  obtain ⟨hkept, hattempts, hsent, hchecked, herror⟩ :=
    @ensureTokenValid_spec _ _ _ (beginAttempt (cfg.answers w.attempts) w)
      (cfg.answers w.attempts) htoken
  unfold requestOnce
  dsimp only
  generalize ensureTokenValid (cfg.answers w.attempts)
    (beginAttempt (cfg.answers w.attempts) w) = checked at hkept hattempts hsent hchecked herror
  have hlength : checked.2.sent.length = w.sent.length := congrArg List.length hsent
  cases hresult : checked.1 with
  | error e =>
    dsimp only
    refine ⟨hkept, hattempts, hlength.ge, by omega, fun x h => ?_, Or.inr ⟨e, rfl, Or.inl ?_⟩⟩
    · cases h
    · exact herror e hresult
  | ok _ =>
    obtain ⟨houtcome, hpost, hcount, hadded⟩ :=
      post_spec cfg.minInterval (cfg.answers w.attempts) content (hchecked hresult)
    dsimp only
    refine ⟨hpost, hcount.trans hattempts, by omega, by omega, fun _ _ => by omega, ?_⟩
    rw [houtcome]
    cases hfault : (cfg.answers w.attempts).fault with
    | none => exact Or.inl rfl
    | some e => exact Or.inr ⟨e, rfl, Or.inr rfl⟩

/-- On a connected client, an attempt ends as the server answers, or with a request exception when
something goes wrong with it. -/
lemma requestOnce_of_passing (hpassing : (cfg.answers w.attempts).Passing)
    (content : Except HttpFailure α) (htoken : HasToken w) :
    (requestOnce cfg content w).1 = content ∨
      ((requestOnce cfg content w).1 = .error .requestException ∧
        ¬ (cfg.answers w.attempts).Clear) := by
  obtain ⟨-, -, -, -, -, houtcome | ⟨e, herror, hwrong⟩⟩ := requestOnce_spec cfg content
    htoken
  · exact Or.inl houtcome
  · right
    have hclear : ¬ (cfg.answers w.attempts).Clear := by
      rintro ⟨htokenOk, hfault⟩
      rcases hwrong with hwrong | hwrong
      · rw [hwrong] at htokenOk
        cases htokenOk
      · rw [hwrong] at hfault
        cases hfault
    cases e with
    | requestException => exact ⟨herror, hclear⟩
    | other =>
      rcases hwrong with hwrong | hwrong
      · exact absurd hwrong hpassing.1
      · exact absurd hwrong hpassing.2

/-- What holds before an attempt for a page with a number. -/
structure PageAttempts (cfg : ClientConfig K) (page : Except HttpFailure α) (start : ClientWorld K)
    (number : ℕ) (w : ClientWorld K) : Prop where
  token : HasToken w
  attempts : w.attempts + 1 = start.attempts + number
  /-- When the server has the page, something went wrong with all attempts before. -/
  wrong : page.toBool = true → ∀ n, start.attempts ≤ n → n < w.attempts → ¬ (cfg.answers n).Clear
  least : start.sent.length ≤ w.sent.length
  most : w.sent.length + 1 ≤ start.sent.length + number

omit [Field K] [LinearOrder K] in
/-- Before the first attempt for a page nothing has been sent for it. -/
lemma pageAttempts_start (cfg : ClientConfig K) (page : Except HttpFailure α)
    (htoken : HasToken w) : PageAttempts cfg page w 1 w where
  token := htoken
  attempts := rfl
  wrong _ _ hle hlt := absurd hle (not_le.mpr hlt)
  least := le_refl _
  most := le_refl _

variable {page : Except HttpFailure α}

/-- An attempt that stumbles, and its pause. -/
lemma PageAttempts.turn {start : ClientWorld K} {number : ℕ} (hconn : Connected cfg)
    (h : PageAttempts cfg page start number w)
    (hstumbles : Retrying.Stumbles (requestOnce cfg page) isRequestException w) :
    PageAttempts cfg page start (number + 1)
      ((requestOnce cfg page w).2.elapse (cfg.wait number)) := by
  obtain ⟨hkept, hcount, hleast, hmost, -, -⟩ := requestOnce_spec cfg page h.token
  have hattempts := h.attempts
  have hsent := h.most
  obtain ⟨e, herror, -⟩ := hstumbles
  refine ⟨hkept, ?_, fun hpage n hle hlt => ?_, le_trans h.least hleast, ?_⟩
  · show (requestOnce cfg page w).2.attempts + 1 = _
    omega
  · replace hlt : n < (requestOnce cfg page w).2.attempts := hlt
    rcases Nat.lt_or_ge n w.attempts with hn | hn
    · exact h.wrong hpage n hle hn
    · obtain rfl : n = w.attempts := by omega
      rcases requestOnce_of_passing (hconn.passing _) page h.token with hok | ⟨-, hwrong⟩
      · rw [← hok, herror] at hpage
        cases hpage
      · exact hwrong
  · show (requestOnce cfg page w).2.sent.length + 1 ≤ _
    omega

/-- The requests of a call: at most five, and at least one when the server has the page. -/
structure PageRequests (page : Except HttpFailure α) (start w : ClientWorld K) : Prop where
  token : HasToken w
  least : page.toBool = true → start.sent.length + 1 ≤ w.sent.length
  most : w.sent.length ≤ start.sent.length + maxAttempts

/-- **A page.** On a connection, a page is fetched as on a reliable one.

**Proof sketch.** An attempt ends as the server answers, or with a request exception, and then
something goes wrong with it. The deciding attempt is the last of five, of which one is answered, or
raises no request exception. -/
lemma fetchFolderPage_spec (hconn : Connected cfg) (page : Except HttpFailure α)
    (htoken : HasToken w) :
    ((fetchFolderPage cfg page w).1 = page ∨
        (page.toBool = false ∧ (fetchFolderPage cfg page w).1.toBool = false)) ∧
      PageRequests page w (fetchFolderPage cfg page w).2 := by
  obtain ⟨k, w', hk, hfalters, hrun, hlast⟩ := Retrying.exists_falters (requestOnce cfg page)
    isRequestException (fun number w => w.elapse (cfg.wait number)) (maxAttempts - 1) 1 w
  have hbefore : PageAttempts cfg page w (1 + k) w' :=
    hfalters.turns (fun _ _ h hstumbles => h.turn hconn hstumbles)
      (pageAttempts_start cfg page htoken)
  obtain ⟨hkept, -, hleast, hmost, hone, -⟩ := requestOnce_spec cfg page hbefore.token
  have hattempts := hbefore.attempts
  have hbeforeLeast := hbefore.least
  have hbeforeMost := hbefore.most
  have hmax : maxAttempts = 5 := rfl
  have houtcome : (requestOnce cfg page w').1 = page ∨
      (page.toBool = false ∧ (requestOnce cfg page w').1.toBool = false) := by
    rcases requestOnce_of_passing (hconn.passing _) page hbefore.token with hok | ⟨herror, hwrong⟩
    · exact Or.inl hok
    · refine Or.inr ⟨?_, by rw [herror]; rfl⟩
      by_contra hpage
      rw [Bool.not_eq_false] at hpage
      obtain rfl : k = maxAttempts - 1 := hlast.resolve_right fun h => h ⟨_, herror, rfl⟩
      -- all five attempts went wrong
      obtain ⟨j, hj, hclear⟩ := hconn.clear w.attempts
      rcases Nat.lt_or_ge (w.attempts + j) w'.attempts with hlt | hge
      · exact hbefore.wrong hpage _ (Nat.le_add_right _ _) hlt hclear
      · obtain heq : w.attempts + j = w'.attempts := by omega
        rw [heq] at hclear
        exact hwrong hclear
  unfold fetchFolderPage
  rw [hrun]
  refine ⟨houtcome, hkept, fun hpage => ?_, by omega⟩
  rcases houtcome with hok | ⟨hfalse, -⟩
  · cases hcontent : page with
    | error e =>
      rw [hcontent] at hpage
      cases hpage
    | ok a =>
      have hsent := hone a (hok.trans hcontent)
      subst hcontent
      omega
  · rw [hfalse] at hpage
    cases hpage

end Page

/-! ## Listings -/

section Listings

variable {K : Type} [Field K] [LinearOrder K] {cfg : ClientConfig K}

/-- A lister and the one that counts on a reliable connection: the same count, and a client that has
sent at most five requests for each counted one. -/
structure Abreast (start st : ListerState K) (count : ℕ) : Prop where
  count : st.apiCounter = count
  most : st.client.sent.length + maxAttempts * start.apiCounter ≤
    start.client.sent.length + maxAttempts * st.apiCounter

/-- Moreover the client has a token, and has sent at least one request for each counted one. -/
structure Answered (start st : ListerState K) (count : ℕ) :
    Prop extends Abreast start st count where
  token : HasToken st.client
  least : start.client.sent.length + st.apiCounter ≤ st.client.sent.length + start.apiCounter

omit [Field K] [LinearOrder K] in
/-- At the start both listers stand at the same count. -/
lemma answered_start {st : ListerState K} (htoken : HasToken st.client) :
    Answered st st st.apiCounter := ⟨⟨rfl, le_refl _⟩, htoken, le_refl _⟩

variable {start : ListerState K} {recurse : Str → Lister K (List RawItem)}
  {recurse' : Str → Counting.Counted PyError (List RawItem)}

/-- Two failures with the same exception in their place. -/
lemma mapError_eq_of_failed {α : Type*} {x y : Except HttpFailure α} (hx : x.toBool = false)
    (hy : y.toBool = false) (e : PyError) : x.mapError (fun _ => e) = y.mapError fun _ => e := by
  cases x with
  | ok a => cases hx
  | error e' =>
    cases y with
    | ok a => cases hy
    | error e'' => rfl

variable (start) in
/-- The request of a page. -/
lemma simulates_request (hconn : Connected cfg) (page : Except HttpFailure (List RawItem)) :
    Simulates (Answered start) (Abreast start)
      (countRequest >>= fun _ => fetchPage cfg page : Lister K (List RawItem))
      (Counting.tick >>= fun _ => Counting.call (page.mapError fun _ => PyError.apiError)) := by
  intro st count h
  obtain ⟨houtcome, hrequests⟩ := fetchFolderPage_spec hconn page h.token
  have hcount := h.count
  have hleast := h.least
  have hmost := h.most
  have hadded := hrequests.most
  have hmax : maxAttempts = 5 := rfl
  have hrun : Program.from (countRequest >>= fun _ => fetchPage cfg page) st =
      ((fetchFolderPage cfg page st.client).1.mapError fun _ => PyError.apiError,
        ⟨st.apiCounter + 1, (fetchFolderPage cfg page st.client).2⟩) := by
    rw [from_bind]
    rfl
  have hrun' : Program.from (Counting.tick >>= fun _ =>
      Counting.call (page.mapError fun _ => PyError.apiError)) count =
        (page.mapError fun _ => PyError.apiError, count + 1) := by
    rw [from_bind]
    exact Counting.from_call _ _
  have habreast : Abreast start
      ⟨st.apiCounter + 1, (fetchFolderPage cfg page st.client).2⟩ (count + 1) := by
    refine ⟨by rw [hcount], ?_⟩
    dsimp only
    rw [Nat.mul_add, Nat.mul_one]
    omega
  have hmapped : (fetchFolderPage cfg page st.client).1.mapError (fun _ => PyError.apiError) =
      page.mapError fun _ => PyError.apiError := by
    rcases houtcome with hok | ⟨hpage, hfailed⟩
    · rw [hok]
    · exact mapError_eq_of_failed hfailed hpage _
  rw [hrun, hrun', hmapped]
  refine ⟨rfl, ?_⟩
  cases hpage : page.toBool with
  | false =>
    cases page with
    | error e => exact habreast
    | ok items => cases hpage
  | true =>
    have hsent := hrequests.least hpage
    have hanswered : Answered start
        ⟨st.apiCounter + 1, (fetchFolderPage cfg page st.client).2⟩ (count + 1) := by
      refine ⟨habreast, hrequests.token, ?_⟩
      dsimp only
      omega
    cases page with
    | error e => cases hpage
    | ok items => exact hanswered

omit [Field K] [LinearOrder K] in
/-- The retried lister simulates the counting one on the items of a page. -/
lemma simulates_listItems (h : ∀ subpath, Simulates (Answered start) (Abreast start)
      (recurse subpath) (recurse' subpath)) (currentSubpath : Str) (items : List RawItem) :
    Simulates (Answered start) (Abreast start) (retriedListItems recurse currentSubpath items)
      (countedListItems recurse' currentSubpath items) := by
  induction items with
  | nil => exact simulates_pure _
  | cons item items ih =>
    rw [retriedListItems, countedListItems]
    apply Simulates.bind
    · unfold retriedListItem countedListItem
      split_ifs
      · exact h _
      · exact simulates_pure _
    · exact fun files => ih.bind fun rest => simulates_pure _

/-- The retried lister simulates the counting one on the pages of a folder. -/
lemma simulates_listPages (hconn : Connected cfg)
    (h : ∀ subpath, Simulates (Answered start) (Abreast start) (recurse subpath) (recurse' subpath))
    (currentSubpath : Str) (pages : List (Except HttpFailure (List RawItem))) :
    Simulates (Answered start) (Abreast start) (retriedListPages cfg recurse currentSubpath pages)
      (countedListPages recurse' currentSubpath
        (pages.map fun page => page.mapError fun _ => .apiError)) := by
  induction pages with
  | nil =>
    intro st count hst
    have hcount := hst.count
    have hmost := hst.most
    rw [retriedListPages, List.map_nil, countedListPages, from_bind, from_bind]
    refine ⟨rfl, congrArg (· + 1) hcount, ?_⟩
    show st.client.sent.length + _ ≤ _ + _ * (st.apiCounter + 1)
    rw [Nat.mul_add]
    omega
  | cons page pages ih =>
    rw [retriedListPages, List.map_cons, countedListPages]
    have hrest : ∀ items : List RawItem, Simulates (Answered start) (Abreast start)
        (retriedListItems recurse currentSubpath items >>= fun files =>
          if items.length < pageSize then pure files
          else retriedListPages cfg recurse currentSubpath pages >>= fun rest =>
            pure (files ++ rest))
        (countedListItems recurse' currentSubpath items >>= fun files =>
          if items.length < pageSize then pure files
          else countedListPages recurse' currentSubpath
            (pages.map fun page => page.mapError fun _ => .apiError) >>= fun rest =>
              pure (files ++ rest)) := by
      intro items
      refine (simulates_listItems h currentSubpath items).bind fun files => ?_
      split_ifs
      · exact simulates_pure _
      · exact ih.bind fun rest => simulates_pure _
    have hpage := (simulates_request start hconn page).bind hrest
    rw [bind_assoc, bind_assoc] at hpage
    exact hpage

variable (start) in
/-- The lister simulates the one that counts on a reliable connection. -/
lemma simulates_retriedListing (hconn : Connected cfg) (server : HttpServer)
    (rootDir folderName : Str) (limit : ℕ) (currentSubpath : Str) :
    Simulates (Answered start) (Abreast start)
      (retriedListFolderRawItemsRecursive cfg server rootDir folderName limit currentSubpath)
      (countedListFolderRawItemsRecursive (reliableServer server) rootDir folderName limit
        currentSubpath) := by
  induction limit generalizing currentSubpath with
  | zero => exact simulates_throw (fun _ _ h => h.toAbreast) _
  | succ limit ih =>
    rw [retriedListFolderRawItemsRecursive, countedListFolderRawItemsRecursive]
    exact (simulates_listPages hconn ih _ _).bind fun files => simulates_pure _

/-- **Retries are transparent.** On a connection on which only request exceptions go wrong, and
never with five attempts in a row, the recursive lister ends as on a reliable connection: with the
same files or the same exception, and with the same count. It sends at most five requests for each
counted one and, when it returns, at least one.

**Proof sketch.** The lister simulates the one that counts on a reliable connection, request by
request, and that one counts without steering the lister. -/
theorem retriedListing_eq (hconn : Connected cfg) (server : HttpServer) (rootDir folderName : Str)
    (limit : ℕ) (currentSubpath : Str) {st : ListerState K} (htoken : HasToken st.client) :
    let result := (retriedListFolderRawItemsRecursive cfg server rootDir folderName limit
      currentSubpath).from st
    result.1 = listFolderRawItemsRecursive (reliableServer server) rootDir folderName limit
        currentSubpath ∧
      result.2.apiCounter = ((countedListFolderRawItemsRecursive (reliableServer server) rootDir
        folderName limit currentSubpath).from st.apiCounter).2 ∧
      result.2.client.sent.length + maxAttempts * st.apiCounter ≤
        st.client.sent.length + maxAttempts * result.2.apiCounter ∧
      (result.1.toBool = true → st.client.sent.length + result.2.apiCounter ≤
        result.2.client.sent.length + st.apiCounter) := by
  intro result
  obtain ⟨hsame, hends⟩ := simulates_retriedListing st hconn server rootDir folderName limit
    currentSubpath st st.apiCounter (answered_start htoken)
  have hplain := erases_countedListFolderRawItemsRecursive (reliableServer server)
      rootDir folderName
    limit currentSubpath st.apiCounter
  have habreast := hends.weaken fun _ _ h => h.toAbreast
  exact ⟨hsame.trans hplain, habreast.count, habreast.most, fun hok => (hends.of_toBool hok).least⟩

end Listings

/-! ### A flaky server -/

/-- The flaky server always answers before the fifth attempt in a row. -/
lemma connected_flakyConfig : Connected flakyConfig where
  passing n := by
    constructor
    · intro h
      cases h
    · intro h
      dsimp only [flakyConfig, flakyAnswers] at h
      split_ifs at h
      cases Option.some.inj h
  clear n := by
    by_cases hn : n = 1
    · refine ⟨1, by decide, rfl, ?_⟩
      subst hn
      rfl
    · refine ⟨0, by decide, rfl, ?_⟩
      exact if_neg hn

/-- A file of a directory. -/
def monthFile : RawItem := ⟨some "File".toList, some "2026_01.csv".toList, none, none, none,
  some "1".toList⟩

/-- A client of the flaky server with its first token. -/
def flakyLister : ListerState ℚ := ⟨0, (newClient flakyConfig (.idle 0)).2⟩

/-- The page that is asked for twice is listed and counted once. -/
theorem retriedListing_eq_flaky :
    let result := (retriedListFolderRawItemsRecursive flakyConfig (fun _ => [.ok [monthFile]])
      "TP_export".toList "Load".toList 1 []).from flakyLister
    result.1 = .ok [monthFile] ∧ result.2.apiCounter = 1 := by
  obtain ⟨houtcome, hcount, -, -⟩ := retriedListing_eq connected_flakyConfig
    (fun _ => [.ok [monthFile]]) "TP_export".toList "Load".toList 1 []
    (show HasToken flakyLister.client from fun _ => rfl)
  exact ⟨houtcome, hcount⟩

end EntsoePipeline
