import EntsoePipeline.Catalog.Tables
import EntsoePipeline.Delta.Scope
import EntsoePipeline.Landing.SyncCoverage
import EntsoePipeline.Lib.Outcome

set_option relaxedAutoImplicit false
set_option autoImplicit false

/-!
# The inputs of a delta refresh

A delta refresh creates a client, lists the root directory, checks the sizes of the two logs and
downloads them. When this fails it falls back to a full scan, except for the exceptions of the
pipeline, which it raises: that of the size check, and also that of a page of the listing that
cannot be requested. The size check reads the sizes of a mapped record, which the raw items of the
listing do not have.

## Main definitions

* `EntsoePipeline.listRootItems` — the listing of the root directory, with the exceptions it raises.
* `EntsoePipeline.checkLogSizes` — the size check.
* `EntsoePipeline.obtainInputs` — the inputs, and the logs that were asked for.
* `EntsoePipeline.runDeltaMetadataRefresh` — the refresh, up to the steps behind its inputs.
* `EntsoePipeline.RefreshWorld.Fails` — what fails while the inputs are obtained.

## Main results

* `EntsoePipeline.listRootItems_ofPage` — on raw items the listing is that of the sync.
* `EntsoePipeline.exists_fails_iff` — the failures are those of `obtainInputs`.
* `EntsoePipeline.fallsBack_iff` — which failures end in a full scan.
* `EntsoePipeline.guardsLogs_iff` — when the size check does its work.

## Implementation notes

The exceptions are classes without texts. A number of a reply is an integer, and an item of a
listing is an object whose name, when it has one, is a text. The steps behind the inputs are a
parameter.
-/

namespace EntsoePipeline

open Py

/-! ## Exceptions and replies -/

/-- An exception, up to its text. -/
inductive RefreshError
  /-- `EntsoePipelineError`. -/
  | pipelineError
  /-- `EntsoeConfigurationError`. -/
  | configurationError
  /-- `EntsoeConnectionError`. -/
  | connectionError
  /-- `EntsoeApiError`. -/
  | apiError
  /-- `EntsoeDataValidationError`. -/
  | dataValidationError
  /-- An exception of another class. -/
  | other (className : Str)
  deriving DecidableEq

/-- The class of the exception is `EntsoePipelineError` or one below it. -/
def RefreshError.isPipelineError : RefreshError → Bool
  | .other _ => false
  | _ => true

/-- A value of a reply. -/
inductive Json
  | null
  | bool (b : Bool)
  | number (n : ℤ)
  | text (s : Str)
  | array (values : List Json)
  | object (fields : List (Str × Json))

namespace Json

/-- `value.get(key, default)`. -/
def get (key : Str) (default : Json) : Json → Except RefreshError Json
  | object fields => .ok ((fields.lookup key).getD default)
  | _ => .error (.other "AttributeError".toList)

/-- `value > limit`. -/
def exceeds (limit : ℤ) : Json → Except RefreshError Bool
  | number n => .ok (limit < n)
  | bool b => .ok (limit < if b then 1 else 0)
  | _ => .error (.other "TypeError".toList)

end Json

/-- An item of a listing. -/
structure ListedItem where
  /-- The name, when it has one. -/
  name : Option Str
  /-- The other fields. -/
  fields : List (Str × Json)

/-- An item with the fields of the raw format. -/
def RawItem.listed (item : RawItem) : ListedItem where
  name := item.name
  fields := (item.type.map fun t => ("type".toList, Json.text t)).toList ++
    (item.originalSize.map fun n => ("originalSize".toList, Json.number n)).toList ++
      (item.size.map fun n => ("size".toList, Json.number n)).toList ++
        (item.lastUpdatedTimestamp.map fun t =>
          ("lastUpdatedTimestamp".toList, Json.text t)).toList ++
          (item.fileId.map fun t => ("fileId".toList, Json.text t)).toList

/-- The reply to the request for a page. -/
inductive PageReply
  /-- The request fails, also when it is repeated. -/
  | fails (e : RefreshError)
  /-- The items of the page cannot be read. -/
  | unreadable (e : RefreshError)
  /-- The items of the page. -/
  | items (items : List ListedItem)

/-! ## The code -/

/-- The pages of a listing, up to the first one that is not full. A request that fails is an
`EntsoeApiError`, whatever it failed with. -/
def fetchRootPages : List PageReply → Except RefreshError (List ListedItem)
  | [] => .error .apiError
  | .fails _ :: _ => .error .apiError
  | .unreadable e :: _ => .error e
  | .items items :: pages =>
    if items.length < pageSize then .ok items
    else (fetchRootPages pages).map (items ++ ·)

/-- The listing of the root directory, sorted by name. -/
def listRootItems (pages : List PageReply) : Except RefreshError (List ListedItem) :=
  (fetchRootPages pages).map fun allItems =>
    allItems.insertionSort fun a b => a.name.getD [] ≤ b.name.getD []

/-- The items of the root directory that have a name, by name. -/
def rootFiles (rootItems : List ListedItem) : Dict Str ListedItem :=
  Dict.ofList (rootItems.filterMap fun item =>
    (item.name.filter fun name => name ≠ []).map fun name => (name, item))

/-- The log of the publications. -/
def exportLogName : Str := "Export_log_r3.csv".toList

/-- The log of the offered capacities. -/
def oceLogName : Str := "Export_oce_log_r3.csv".toList

/-- 100 MB. -/
def maxLogSizeBytes : ℤ := 100 * 1024 * 1024

/-- The size of an item, where a mapped record has it. -/
def guardedSize (item : ListedItem) : Except RefreshError Json := do
  let original ← Json.get "original".toList (.object [])
    ((item.fields.lookup "sizes".toList).getD (.object []))
  Json.get "bytes".toList (.number 0) original

/-- The size check of a log. -/
def checkLogSize (rootFiles : Dict Str ListedItem) (logFile : Str) : Except RefreshError Unit :=
  match rootFiles.get? logFile with
  | none => .ok ()
  | some item => do
    let fileSize ← guardedSize item
    if ← fileSize.exceeds maxLogSizeBytes then .error .pipelineError else .ok ()

/-- The size check of both logs. -/
def checkLogSizes (rootFiles : Dict Str ListedItem) : Except RefreshError Unit := do
  checkLogSize rootFiles exportLogName
  checkLogSize rootFiles oceLogName

/-- What the environment contributes to the inputs of a refresh. -/
structure RefreshWorld (α : Type) where
  /-- The creation of the client. -/
  createFmsClient : Except RefreshError Unit
  /-- The replies to the requests for the pages of the root directory. -/
  pages : List PageReply
  /-- The download of a log, and its parsing. -/
  downloadSingleFile : Str → Except RefreshError α

/-- The inputs of a refresh, and the logs that were asked for. -/
def obtainInputs {α : Type} (io : RefreshWorld α) : Except RefreshError (α × α) × List Str :=
  let checked := do
    io.createFmsClient
    let rootItems ← listRootItems io.pages
    checkLogSizes (rootFiles rootItems)
  match checked with
  | .error e => (.error e, [])
  | .ok _ =>
    match io.downloadSingleFile exportLogName with
    | .error e => (.error e, [exportLogName])
    | .ok dfStd =>
      ((io.downloadSingleFile oceLogName).map fun dfOce => (dfStd, dfOce),
        [exportLogName, oceLogName])

/-- The arguments of a full scan. -/
structure FullScanArgs where
  /-- The environment. -/
  env : Str
  /-- The test mode. -/
  isTest : Bool
  /-- The force flag. -/
  isForce : Bool
  /-- The domain. -/
  domainName : Option Str
  deriving DecidableEq

/-- An action on the catalog, with the exception it raises. -/
abbrev CatalogAction := Catalog → Except RefreshError Unit × Catalog

/-- What a refresh leaves. -/
structure RefreshResult where
  /-- The logs that were asked for. -/
  downloads : List Str
  /-- The full scans that were called. -/
  fullScans : List FullScanArgs
  /-- The exception that leaves the refresh. -/
  outcome : Except RefreshError Unit
  /-- The catalog. -/
  catalog : Catalog

/-- The call of the full scan, when there is one. -/
def callFullScan (fullScanCallback : Option (FullScanArgs → CatalogAction)) (args : FullScanArgs)
    (downloads : List Str) (cat : Catalog) : RefreshResult :=
  match fullScanCallback with
  | none => ⟨downloads, [], .ok (), cat⟩
  | some fullScan => ⟨downloads, [args], (fullScan args cat).1, (fullScan args cat).2⟩

section Run

variable {α : Type} (cm : CaseMap) (config : ClassifierConfig) (overview : Overview)
  (fullScanCallback : Option (FullScanArgs → CatalogAction)) (io : RefreshWorld α)
  (refresh : α → α → CatalogAction)

/-- The delta refresh. -/
def runDeltaMetadataRefresh (env : Str) (isTest isForce : Bool) (domainName : Option Str)
    (cat : Catalog) : RefreshResult :=
  if isForce then callFullScan fullScanCallback ⟨env, isTest, true, domainName⟩ [] cat
  else
    match domainFoldersOf cm config overview env isTest domainName with
    | (_, some _) => ⟨[], [], .error (.other "ValueError".toList), cat⟩
    | ([], none) => ⟨[], [], .ok (), cat⟩
    | (_ :: _, none) =>
      match obtainInputs io with
      | (.ok (dfStd, dfOce), downloads) =>
        ⟨downloads, [], (refresh dfStd dfOce cat).1, (refresh dfStd dfOce cat).2⟩
      | (.error e, downloads) =>
        if e.isPipelineError then ⟨downloads, [], .error e, cat⟩
        else callFullScan fullScanCallback ⟨env, isTest, false, domainName⟩ downloads cat

end Run

/-! ### The listing of raw items -/

/-- The reply that shows a page of raw items. -/
def PageReply.ofPage : Except PyError (List RawItem) → PageReply
  | .ok rawItems => .items (rawItems.map RawItem.listed)
  | .error _ => .fails (.other "RequestException".toList)

/-- The root pages of a server that answers with items. -/
lemma fetchRootPages_ofPage (pages : List (Except PyError (List RawItem))) :
    fetchRootPages (pages.map PageReply.ofPage) =
      ((collectPages pages).mapError fun _ => .apiError).map (List.map RawItem.listed) := by
  induction pages with
  | nil => rfl
  | cons page pages ih =>
    cases page with
    | error e => rfl
    | ok rawItems =>
      rw [List.map_cons, PageReply.ofPage, fetchRootPages, List.length_map, collectPages, ih]
      simp only [bind, Except.bind]
      split_ifs with hlast
      · rfl
      · cases collectPages pages with
        | error e => rfl
        | ok rest => exact congrArg Except.ok List.map_append.symm

/-- On pages of raw items the listing is that of the sync, and a request that fails is an
`EntsoeApiError`. -/
theorem listRootItems_ofPage (server : FileServer) (path : Str) :
    listRootItems ((server path).map PageReply.ofPage) =
      ((listPath server path).mapError fun _ => .apiError).map (List.map RawItem.listed) := by
  rw [listRootItems, fetchRootPages_ofPage, listPath]
  cases collectPages (server path) with
  | error e => rfl
  | ok rawItems =>
    have hsort : (sortByName rawItems).map RawItem.listed =
        (rawItems.map RawItem.listed).insertionSort fun a b => a.name.getD [] ≤ b.name.getD [] :=
      List.map_insertionSort _ _ _ _ fun _ _ _ _ => Iff.rfl
    exact congrArg Except.ok hsort.symm

/-! ## Failures -/

/-- A request for a page fails, or is not answered. -/
def RequestFails : List PageReply → Prop
  | [] => True
  | .fails _ :: _ => True
  | .unreadable _ :: _ => False
  | .items items :: pages => pageSize ≤ items.length ∧ RequestFails pages

/-- The items of a page cannot be read. -/
def ReadingFails (e : RefreshError) : List PageReply → Prop
  | [] => False
  | .fails _ :: _ => False
  | .unreadable e' :: _ => e' = e
  | .items items :: pages => pageSize ≤ items.length ∧ ReadingFails e pages

/-- What fails while the inputs are obtained. -/
inductive InputFailure
  /-- The creation of the client. -/
  | client (e : RefreshError)
  /-- The request for a page of the root directory. -/
  | request
  /-- The reading of the items of a page. -/
  | reading (e : RefreshError)
  /-- The reading of a size. -/
  | size (e : RefreshError)
  /-- A log is too large. -/
  | guard
  /-- The download of a log, or its parsing. -/
  | download (logFile : Str) (e : RefreshError)
  deriving DecidableEq

namespace InputFailure

/-- The exception of a failure. -/
def exception : InputFailure → RefreshError
  | client e => e
  | request => .apiError
  | reading e => e
  | size e => e
  | guard => .pipelineError
  | download _ e => e

/-- The failure is neither that of a request for a page nor that of the size check, and its
exception is not one of the pipeline. -/
def Foreign : InputFailure → Prop
  | client e => e.isPipelineError = false
  | request => False
  | reading e => e.isPipelineError = false
  | size e => e.isPipelineError = false
  | guard => False
  | download _ e => e.isPipelineError = false

/-- The handler catches the exceptions of the foreign failures. -/
lemma foreign_iff {failure : InputFailure} :
    failure.Foreign ↔ failure.exception.isPipelineError = false := by
  cases failure with
  | request => exact iff_of_false id (by decide)
  | guard => exact iff_of_false id (by decide)
  | client e => exact Iff.rfl
  | reading e => exact Iff.rfl
  | size e => exact Iff.rfl
  | download logFile e => exact Iff.rfl

end InputFailure

/-- The inputs fail to be obtained. -/
inductive RefreshWorld.Fails {α : Type} (io : RefreshWorld α) : InputFailure → Prop
  | client {e : RefreshError} (hclient : io.createFmsClient = .error e) : io.Fails (.client e)
  | request (hclient : io.createFmsClient = .ok ()) (hpages : RequestFails io.pages) :
      io.Fails .request
  | reading {e : RefreshError} (hclient : io.createFmsClient = .ok ())
      (hpages : ReadingFails e io.pages) : io.Fails (.reading e)
  | size {e : RefreshError} {rootItems : List ListedItem} (hclient : io.createFmsClient = .ok ())
      (hpages : listRootItems io.pages = .ok rootItems)
      (hsizes : checkLogSizes (rootFiles rootItems) = .error e) (he : e ≠ .pipelineError) :
      io.Fails (.size e)
  | guard {rootItems : List ListedItem} (hclient : io.createFmsClient = .ok ())
      (hpages : listRootItems io.pages = .ok rootItems)
      (hsizes : checkLogSizes (rootFiles rootItems) = .error .pipelineError) : io.Fails .guard
  | downloadStd {e : RefreshError} {rootItems : List ListedItem}
      (hclient : io.createFmsClient = .ok ())
      (hpages : listRootItems io.pages = .ok rootItems)
      (hsizes : checkLogSizes (rootFiles rootItems) = .ok ())
      (hstd : io.downloadSingleFile exportLogName = .error e) :
      io.Fails (.download exportLogName e)
  | downloadOce {e : RefreshError} {rootItems : List ListedItem} {dfStd : α}
      (hclient : io.createFmsClient = .ok ())
      (hpages : listRootItems io.pages = .ok rootItems)
      (hsizes : checkLogSizes (rootFiles rootItems) = .ok ())
      (hstd : io.downloadSingleFile exportLogName = .ok dfStd)
      (hoce : io.downloadSingleFile oceLogName = .error e) :
      io.Fails (.download oceLogName e)

section Failures

/-- A request that fails makes the listing fail. -/
lemma fetchRootPages_of_requestFails {pages : List PageReply} (h : RequestFails pages) :
    fetchRootPages pages = .error .apiError := by
  induction pages with
  | nil => rfl
  | cons page pages ih =>
    cases page with
    | fails e => rfl
    | unreadable e => exact absurd h id
    | items items =>
      obtain ⟨hfull, hmore⟩ := h
      rw [fetchRootPages, if_neg (not_lt.mpr hfull), ih hmore]
      rfl

/-- An answer that cannot be read makes the listing fail. -/
lemma fetchRootPages_of_readingFails {e : RefreshError} {pages : List PageReply}
    (h : ReadingFails e pages) : fetchRootPages pages = .error e := by
  induction pages with
  | nil => exact absurd h id
  | cons page pages ih =>
    cases page with
    | fails e' => exact absurd h id
    | unreadable e' => exact congrArg Except.error h
    | items items =>
      obtain ⟨hfull, hmore⟩ := h
      rw [fetchRootPages, if_neg (not_lt.mpr hfull), ih hmore]
      rfl

/-- A listing fails with a request or with the reading of a page. -/
lemma fails_of_fetchRootPages {e : RefreshError} {pages : List PageReply}
    (h : fetchRootPages pages = .error e) : RequestFails pages ∨ ReadingFails e pages := by
  induction pages with
  | nil => exact Or.inl trivial
  | cons page pages ih =>
    cases page with
    | fails e' => exact Or.inl trivial
    | unreadable e' => exact Or.inr (Except.error.inj h)
    | items items =>
      rw [fetchRootPages] at h
      split_ifs at h with hlast
      cases hmore : fetchRootPages pages with
      | ok more =>
        rw [hmore] at h
        cases h
      | error e' =>
        rw [hmore] at h
        cases h
        exact (ih hmore).imp (And.intro (not_lt.mp hlast)) (And.intro (not_lt.mp hlast))

variable {α : Type} {io : RefreshWorld α}

/-- A failure ends the inputs with its exception. -/
lemma RefreshWorld.Fails.obtainInputs_eq {failure : InputFailure} (h : io.Fails failure) :
    (obtainInputs io).1 = .error failure.exception := by
  unfold obtainInputs
  cases h with
  | client hclient => rw [hclient]; rfl
  | request hclient hpages =>
    rw [hclient, listRootItems, fetchRootPages_of_requestFails hpages]
    rfl
  | reading hclient hpages =>
    rw [hclient, listRootItems, fetchRootPages_of_readingFails hpages]
    rfl
  | size hclient hpages hsizes he =>
    simp only [hclient, hpages, bind, Except.bind, hsizes]
    rfl
  | guard hclient hpages hsizes =>
    simp only [hclient, hpages, bind, Except.bind, hsizes]
    rfl
  | downloadStd hclient hpages hsizes hstd =>
    simp only [hclient, hpages, bind, Except.bind, hsizes, hstd]
    rfl
  | downloadOce hclient hpages hsizes hstd hoce =>
    simp only [hclient, hpages, bind, Except.bind, hsizes, hstd, hoce]
    rfl

/-- The inputs are obtained unless one of the steps fails. -/
theorem exists_fails_iff : (∃ failure, io.Fails failure) ↔ ∃ e, (obtainInputs io).1 = .error e := by
  refine ⟨fun ⟨failure, h⟩ => ⟨_, h.obtainInputs_eq⟩, ?_⟩
  rintro ⟨e, h⟩
  unfold obtainInputs at h
  cases hclient : io.createFmsClient with
  | error e' => exact ⟨_, .client hclient⟩
  | ok _ =>
    cases hpages : listRootItems io.pages with
    | error e' =>
      unfold listRootItems at hpages
      cases hfetch : fetchRootPages io.pages with
      | ok items =>
        rw [hfetch] at hpages
        cases hpages
      | error e'' =>
        rcases fails_of_fetchRootPages hfetch with hrequest | hreading
        · exact ⟨_, .request hclient hrequest⟩
        · exact ⟨_, .reading hclient hreading⟩
    | ok rootItems =>
      cases hsizes : checkLogSizes (rootFiles rootItems) with
      | error e' =>
        by_cases he : e' = .pipelineError
        · exact ⟨_, .guard hclient hpages (he ▸ hsizes)⟩
        · exact ⟨_, .size hclient hpages hsizes he⟩
      | ok _ =>
        cases hstd : io.downloadSingleFile exportLogName with
        | error e' => exact ⟨_, .downloadStd hclient hpages hsizes hstd⟩
        | ok dfStd =>
          cases hoce : io.downloadSingleFile oceLogName with
          | error e' => exact ⟨_, .downloadOce hclient hpages hsizes hstd hoce⟩
          | ok dfOce =>
            simp only [hclient, hpages, bind, Except.bind, hsizes, hstd, hoce] at h
            cases h

end Failures

/-! ## Fallbacks -/

/-- The refresh called the full scan once, and did nothing else. -/
structure RefreshResult.FallsBack (result : RefreshResult) (fullScan : FullScanArgs → CatalogAction)
    (args : FullScanArgs) (cat : Catalog) : Prop where
  /-- One call. -/
  fullScans : result.fullScans = [args]
  /-- No exception but one of the full scan. -/
  outcome : result.outcome = (fullScan args cat).1
  /-- The tables are those of the full scan. -/
  catalog : result.catalog = (fullScan args cat).2

section Fallbacks

variable {α : Type} (cm : CaseMap) (config : ClassifierConfig) (overview : Overview)
  (fullScan : FullScanArgs → CatalogAction) {io : RefreshWorld α} (refresh : α → α → CatalogAction)

/-- **Fallback on failures.** A refresh whose inputs fail falls back to a full scan with the same
arguments exactly when the failure is neither that of a request for a page nor that of the size
check, and its exception is not one of the pipeline.

**Proof sketch.** The handler raises the exceptions of the pipeline again and calls the full scan on
all others; a request for a page that fails is turned into an exception of the pipeline. -/
theorem fallsBack_iff {env : Str} {isTest : Bool} {domainName : Option Str} {folders : List Str}
    (hactive : domainFoldersOf cm config overview env isTest domainName = (folders, none))
    (hne : folders ≠ []) {failure : InputFailure} (hfails : io.Fails failure) (cat : Catalog) :
    (runDeltaMetadataRefresh cm config overview (some fullScan) io refresh env isTest false
        domainName cat).FallsBack fullScan ⟨env, isTest, false, domainName⟩ cat ↔
      failure.Foreign := by
  obtain ⟨folder, rest, rfl⟩ := List.exists_cons_of_ne_nil hne
  have hinputs := hfails.obtainInputs_eq
  rcases hobtain : obtainInputs io with ⟨inputs, downloads⟩
  rw [hobtain] at hinputs
  cases hinputs
  unfold runDeltaMetadataRefresh
  rw [if_neg Bool.false_ne_true, hactive]
  dsimp only
  rw [hobtain, InputFailure.foreign_iff]
  dsimp only
  split_ifs with hpipeline
  · exact iff_of_false (fun h => List.cons_ne_nil _ _ h.fullScans.symm) (by simp [hpipeline])
  · exact iff_of_true ⟨rfl, rfl, rfl⟩ (Bool.eq_false_iff.mpr hpipeline)

end Fallbacks

/-! ## The size check -/

/-- One of the logs has an uncompressed size above the limit. -/
def HasLargeLog (rootItems : List RawItem) : Prop :=
  ∃ item ∈ rootItems, (item.name = some exportLogName ∨ item.name = some oceLogName) ∧
    maxLogSizeBytes < item.originalSize.getD 0

/-- A log above the limit ends the refresh before a download, and otherwise the size check
passes. -/
structure GuardsLogs (rootItems : List RawItem) (result : RefreshResult) : Prop where
  /-- A log is too large. -/
  large : HasLargeLog rootItems → result.outcome = .error .pipelineError ∧ result.downloads = []
  /-- No log is too large. -/
  small : ¬ HasLargeLog rootItems →
    checkLogSizes (rootFiles (rootItems.map RawItem.listed)) = .ok ()

/-- A raw item has no sizes where the size check looks for them. -/
lemma guardedSize_listed (item : RawItem) : guardedSize item.listed = .ok (.number 0) := by
  have hsizes : item.listed.fields.lookup "sizes".toList = none := by
    rw [List.lookup_eq_none_iff]
    intro field hfield
    simp only [RawItem.listed, List.mem_append, Option.mem_toList, Option.map_eq_some_iff] at hfield
    rcases hfield with (((⟨_, -, rfl⟩ | ⟨_, -, rfl⟩) | ⟨_, -, rfl⟩) | ⟨_, -, rfl⟩) | ⟨_, -, rfl⟩
    all_goals rfl
  rw [guardedSize, hsizes]
  rfl

/-- The size check passes on every raw item. -/
lemma checkLogSize_listed (rootItems : List RawItem) (logFile : Str) :
    checkLogSize (rootFiles (rootItems.map RawItem.listed)) logFile = .ok () := by
  unfold checkLogSize
  cases hget : (rootFiles (rootItems.map RawItem.listed)).get? logFile with
  | none => rfl
  | some item =>
    obtain ⟨listed, hlisted, hitem⟩ := List.mem_filterMap.mp (Dict.mem_of_get?_ofList hget)
    obtain ⟨name, -, heq⟩ := Option.map_eq_some_iff.mp hitem
    obtain ⟨raw, -, rfl⟩ := List.mem_map.mp hlisted
    cases heq
    dsimp only
    rw [guardedSize_listed]
    rfl

section Guard

variable {α : Type} (cm : CaseMap) (config : ClassifierConfig) (overview : Overview)
  (fullScanCallback : Option (FullScanArgs → CatalogAction)) {io : RefreshWorld α}
  (refresh : α → α → CatalogAction)

/-- A full scan downloads no log. -/
@[simp] lemma downloads_callFullScan (args : FullScanArgs) (downloads : List Str) (cat : Catalog) :
    (callFullScan fullScanCallback args downloads cat).downloads = downloads := by
  cases fullScanCallback with
  | none => rfl
  | some fullScan => rfl

/-- A refresh that monitors a folder asks for the logs of its inputs. -/
lemma downloads_runDeltaMetadataRefresh {env : Str} {isTest : Bool} {domainName : Option Str}
    {folders : List Str}
    (hactive : domainFoldersOf cm config overview env isTest domainName = (folders, none))
    (hne : folders ≠ []) (cat : Catalog) :
    (runDeltaMetadataRefresh cm config overview fullScanCallback io refresh env isTest false
      domainName cat).downloads = (obtainInputs io).2 := by
  obtain ⟨folder, rest, rfl⟩ := List.exists_cons_of_ne_nil hne
  unfold runDeltaMetadataRefresh
  rw [if_neg Bool.false_ne_true, hactive]
  dsimp only
  rcases obtainInputs io with ⟨e | ⟨dfStd, dfOce⟩, downloads⟩
  · dsimp only
    split_ifs
    · rfl
    · exact downloads_callFullScan _ _ _ _
  · rfl

/-- When the size check passes, the first log is asked for. -/
lemma exportLogName_mem_obtainInputs {rootItems : List ListedItem}
    (hclient : io.createFmsClient = .ok ()) (hlist : listRootItems io.pages = .ok rootItems)
    (hsizes : checkLogSizes (rootFiles rootItems) = .ok ()) :
    exportLogName ∈ (obtainInputs io).2 := by
  unfold obtainInputs
  simp only [hclient, hlist, bind, Except.bind, hsizes]
  cases io.downloadSingleFile exportLogName with
  | error e => exact List.mem_cons_self
  | ok dfStd => exact List.mem_cons_self

/-- **The size check.** On a listing in the raw format the size check does its work exactly when no
log has an uncompressed size above the limit.

**Proof sketch.** It reads a size of `0` from every raw item, so that the first log is always asked
for. -/
theorem guardsLogs_iff {env : Str} {isTest : Bool} {domainName : Option Str} {folders : List Str}
    (hactive : domainFoldersOf cm config overview env isTest domainName = (folders, none))
    (hne : folders ≠ []) {rootItems : List RawItem} (hclient : io.createFmsClient = .ok ())
    (hlist : listRootItems io.pages = .ok (rootItems.map RawItem.listed)) (cat : Catalog) :
    GuardsLogs rootItems (runDeltaMetadataRefresh cm config overview fullScanCallback io refresh env
      isTest false domainName cat) ↔ ¬ HasLargeLog rootItems := by
  have hcheck : checkLogSizes (rootFiles (rootItems.map RawItem.listed)) = .ok () := by
    rw [checkLogSizes, checkLogSize_listed, checkLogSize_listed]
    rfl
  refine ⟨fun h hlarge => ?_, fun h => ⟨fun hlarge => absurd hlarge h, fun _ => hcheck⟩⟩
  have hnone := (h.large hlarge).2
  rw [downloads_runDeltaMetadataRefresh cm config overview fullScanCallback refresh hactive hne]
    at hnone
  have hmem := exportLogName_mem_obtainInputs hclient hlist hcheck
  rw [hnone] at hmem
  exact absurd hmem List.not_mem_nil

end Guard

/-! ## A listing that fails and a large log -/

/-- The refresh of the domain `Load`, with a full scan that changes nothing. -/
def loadRefresh (io : RefreshWorld Unit) (cat : Catalog) : RefreshResult :=
  runDeltaMetadataRefresh .ascii loadClassifier loadOverview (some fun _ cat => (.ok (), cat)) io
    (fun _ _ cat => (.ok (), cat)) "IOP".toList false false none cat

/-- The file server with a root directory, or without a connection. -/
def rootWorld (createFmsClient : Except RefreshError Unit) (page : PageReply) : RefreshWorld Unit :=
  ⟨createFmsClient, [page], fun _ => .ok ()⟩

/-- The class of a lost connection. -/
def connectionLost : RefreshError := .other "ConnectionError".toList

/-- The folders that the refresh monitors. -/
lemma domainFoldersOf_load :
    domainFoldersOf .ascii loadClassifier loadOverview "IOP".toList false none =
      (["ActualTotalLoad_6.1.A_r3".toList], none) := by
  decide +kernel

/-- A client that cannot be created ends in a full scan. -/
theorem fallsBack_client :
    (loadRefresh (rootWorld (.error connectionLost) (.items [])) .empty).FallsBack
      (fun _ cat => (.ok (), cat)) ⟨"IOP".toList, false, false, none⟩ .empty :=
  (fallsBack_iff .ascii loadClassifier loadOverview _ _ domainFoldersOf_load (List.cons_ne_nil _ _)
    (.client rfl : (rootWorld (.error connectionLost) (.items [])).Fails (.client connectionLost))
    .empty).mpr rfl

/-- The same failure of a request for a page is raised, and no full scan is called. -/
theorem not_fallsBack_request :
    (rootWorld (.ok ()) (.fails connectionLost)).Fails .request ∧
      (loadRefresh (rootWorld (.ok ()) (.fails connectionLost)) .empty).fullScans = [] ∧
      (loadRefresh (rootWorld (.ok ()) (.fails connectionLost)) .empty).outcome =
        .error .apiError ∧
      ¬ (loadRefresh (rootWorld (.ok ()) (.fails connectionLost)) .empty).FallsBack
        (fun _ cat => (.ok (), cat)) ⟨"IOP".toList, false, false, none⟩ .empty := by
  have hscans : (loadRefresh (rootWorld (.ok ()) (.fails connectionLost)) .empty).fullScans =
      [] := by
    decide +kernel
  refine ⟨.request rfl trivial, hscans, by decide +kernel, fun h => ?_⟩
  exact absurd (hscans.symm.trans h.fullScans) (List.cons_ne_nil _ _).symm

/-- The log of the publications with a size. -/
def logItem (size : ℤ) : RawItem :=
  ⟨some "File".toList, some exportLogName, some size, some 1, none, none⟩

/-- A log of 100 MB is downloaded. -/
theorem guardsLogs_small :
    GuardsLogs [logItem maxLogSizeBytes]
      (loadRefresh (rootWorld (.ok ()) (.items [(logItem maxLogSizeBytes).listed])) .empty) :=
  (guardsLogs_iff .ascii loadClassifier loadOverview _ _ domainFoldersOf_load
    (List.cons_ne_nil _ _)
    (rfl : (rootWorld (.ok ()) (.items [(logItem maxLogSizeBytes).listed])).createFmsClient = _) rfl
    .empty).mpr (by
      rintro ⟨item, hitem, -, hlarge⟩
      rw [List.mem_singleton.mp hitem] at hlarge
      exact lt_irrefl _ hlarge)

/-- A log of one byte more is downloaded too. -/
theorem not_guardsLogs_large :
    HasLargeLog [logItem (maxLogSizeBytes + 1)] ∧
      (loadRefresh (rootWorld (.ok ()) (.items [(logItem (maxLogSizeBytes + 1)).listed]))
        .empty).downloads = [exportLogName, oceLogName] ∧
      ¬ GuardsLogs [logItem (maxLogSizeBytes + 1)] (loadRefresh
        (rootWorld (.ok ()) (.items [(logItem (maxLogSizeBytes + 1)).listed])) .empty) := by
  have hlarge : HasLargeLog [logItem (maxLogSizeBytes + 1)] :=
    ⟨_, List.mem_singleton_self _, Or.inl rfl, lt_add_one _⟩
  have hdownloads : (loadRefresh (rootWorld (.ok ())
      (.items [(logItem (maxLogSizeBytes + 1)).listed])) .empty).downloads =
        [exportLogName, oceLogName] := by
    decide +kernel
  refine ⟨hlarge, hdownloads, fun h => ?_⟩
  exact absurd (hdownloads.symm.trans (h.large hlarge).2) (List.cons_ne_nil _ _)

end EntsoePipeline
