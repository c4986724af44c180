import EntsoePipeline.Landing.Sync
import EntsoePipeline.Lib.Failstop

set_option relaxedAutoImplicit false
set_option autoImplicit false

/-!
# A run of the synchronisation as a function

The function that synchronises an environment, as nested loops over the mapped folders and their
selected files. What the file server, the disk, the object store and the database answer is a
parameter, with an answer for every call. An exception at a file ends the loop over the files of its
folder, is counted, and the next folder follows; what was uploaded or registered before stays.

## Main definitions

* `EntsoePipeline.FileAnswers`, `EntsoePipeline.RunAnswers` — what is answered at a file and in a
  run.
* `EntsoePipeline.syncFile`, `EntsoePipeline.syncFolder`, `EntsoePipeline.syncActiveDomains` — the
  body of the inner loop, the body of the outer loop and the function.
* `EntsoePipeline.Synced` — the version of a file is registered and its object is stored.

## Main results

* `EntsoePipeline.syncFile_cases` — what the body of the inner loop does.
* `EntsoePipeline.synced_syncFile` — a file is synced when its pass does not fail.

## Implementation notes

`Landing.Sync` has the same code as the moves of a state machine, where other processes act between
two moves. Here a run has the landing zone for itself; `Landing.SyncMoves` shows that it is a run of
the state machine.
-/

namespace EntsoePipeline

open Py

/-! ## Answers -/

/-- How a write to a store ends. -/
inductive StoreOutcome
  /-- It has its effect. -/
  | done
  /-- It raises without an effect. -/
  | failed
  /-- It has its effect and raises. -/
  | unconfirmed
  deriving DecidableEq

/-- What is answered while the run is at a file. -/
structure FileAnswers (β : Type*) where
  /-- The free disk space. -/
  free : ℤ
  /-- The query of the registry does not raise. -/
  registryAnswers : Bool
  /-- The request for the head of the object is answered. -/
  headAnswers : Bool
  /-- The bytes of the download, `none` when it raises. -/
  csvData : Option β
  /-- The temporary file is written. -/
  tmpWritten : Bool
  /-- The upload. -/
  upload : StoreOutcome
  /-- The temporary file is removed. -/
  tmpRemoved : Bool
  /-- The transaction on the registry. -/
  transaction : StoreOutcome
  deriving DecidableEq

/-- What is answered in a run, by the positions of the folder and of the file. -/
structure RunAnswers (β : Type*) where
  /-- The listings of the file server. -/
  listing : ℕ → Str → Except PyError (List RawItem)
  /-- The answers at the files. -/
  files : ℕ → ℕ → FileAnswers β

/-- The library readers of the times of the file server. -/
structure IsoReader where
  /-- `datetime.fromisoformat`. -/
  isoFormat : Str → Option Datetime
  /-- `datetime.strptime` with the format `"%Y-%m-%d %H:%M:%S"`. -/
  secondsFormat : Str → Option Datetime

/-- The time of a listing; `none` when both readers raise. -/
def parseIsoDatetime (reader : IsoReader) (dtStr : Str) : Option Datetime :=
  let cleaned := dtStr.flatMap fun c => if c = 'Z' then "+00:00".toList else [c]
  (reader.isoFormat cleaned).or (reader.secondsFormat cleaned)

/-! ## The loops -/

/-- The calls that can raise while the run is at a file. -/
inductive FileStep
  /-- The check of the disk space. -/
  | verifyDisk
  /-- The query of the registry. -/
  | checkRegistry
  /-- The download. -/
  | download
  /-- The write of the temporary file. -/
  | writeTmp
  /-- The upload. -/
  | upload
  /-- The removal of the temporary file. -/
  | removeTmp
  /-- The reading of the time. -/
  | parseTime
  /-- The write to the registry. -/
  | register
  deriving DecidableEq

/-- How the run leaves a file. -/
inductive FileEnd
  /-- The file has no id and was skipped. -/
  | noFileId
  /-- The file was found synced and skipped. -/
  | alreadySynced
  /-- The file was uploaded and registered. -/
  | downloaded
  /-- A call raised. -/
  | failed (step : FileStep)
  deriving DecidableEq

/-- A call raised at the file. -/
def FileEnd.isFailed : FileEnd → Bool
  | .failed _ => true
  | _ => false

/-- The file was skipped. -/
def FileEnd.isSkipped : FileEnd → Bool
  | .noFileId | .alreadySynced => true
  | _ => false

/-- The counters of a run. -/
structure SyncMetrics where
  /-- The files that were processed. -/
  processed : ℕ
  /-- The files that were downloaded. -/
  downloaded : ℕ
  /-- The files that were skipped. -/
  skipped : ℕ
  /-- The folders that failed. -/
  errors : ℕ
  deriving DecidableEq

/-- Count a file. -/
def SyncMetrics.countFile (metrics : SyncMetrics) : FileEnd → SyncMetrics
  | .noFileId | .alreadySynced => { metrics with skipped := metrics.skipped + 1 }
  | .downloaded => { metrics with
      downloaded := metrics.downloaded + 1
      processed := metrics.processed + 1 }
  | .failed _ => { metrics with errors := metrics.errors + 1 }

/-- How the run leaves a folder: its files as far as they were visited, or the failed listing. -/
abbrev FolderEnd := Except PyError (List FileEnd)

/-- Count a folder. -/
def SyncMetrics.countFolder (metrics : SyncMetrics) : FolderEnd → SyncMetrics
  | .error _ => { metrics with errors := metrics.errors + 1 }
  | .ok ends => ends.foldl SyncMetrics.countFile metrics

/-- A file of a mapping, with what is answered at it. -/
structure Visit (β : Type*) where
  /-- The mapping of the folder. -/
  mapping : Mapping
  /-- The selected file. -/
  file : RawItem
  /-- What is answered at the file. -/
  answers : FileAnswers β
  deriving DecidableEq

/-- The key of a file of a mapping: `f"{schema_path.strip('/')}/{filename}"`. -/
def s3KeyOf (mapping : Mapping) (file : RawItem) : Str :=
  strip '/' mapping.schemaPath ++ '/' :: file.itemName

section Loops

variable {β : Type*}

/-- `s3_object_exists`: a request that is not answered counts as a missing object. -/
def s3ObjectExists (zone : LandingZone β) (s3Key : Str) (answers : FileAnswers β) : Bool :=
  answers.headAnswers && (zone.objects.get? s3Key).isSome

variable (xxh : Str → Str) (reader : IsoReader)

/-- The row that is registered for a file. -/
def registryRowOf (file : RawItem) : RegistryRow :=
  ⟨file.itemName, file.itemId, (itemVersion file).sizeBytes, (itemVersion file).hash xxh⟩

/-- The upload and the registration of downloaded bytes. -/
def storeFile (visit : Visit β) (csvData : β) (zone : LandingZone β) : FileEnd × LandingZone β :=
  let s3Key := s3KeyOf visit.mapping visit.file
  let uploaded := uploadFileToS3 zone s3Key ⟨csvData, zone.now⟩
  let registered := registerDownloadedFile uploaded s3Key (registryRowOf xxh visit.file)
  match visit.answers.upload with
  | .failed => (.failed .upload, zone)
  | .unconfirmed => (.failed .upload, uploaded)
  | .done =>
    if visit.answers.tmpRemoved = false then (.failed .removeTmp, uploaded)
    else match parseIsoDatetime reader (itemVersion visit.file).lastUpdated with
      | none => (.failed .parseTime, uploaded)
      | some _ =>
        match visit.answers.transaction with
        | .failed => (.failed .register, uploaded)
        | .unconfirmed => (.failed .register, registered)
        | .done => (.downloaded, registered)

/-- The transfer of a file from the file server to the object store. -/
def transferFile (visit : Visit β) (zone : LandingZone β) : FileEnd × LandingZone β :=
  match visit.answers.csvData with
  | none => (.failed .download, zone)
  | some csvData =>
    if visit.answers.tmpWritten = false then (.failed .writeTmp, zone)
    else storeFile xxh reader visit csvData zone

/-- The body of the loop over the files of a folder. -/
def syncFile (visit : Visit β) (zone : LandingZone β) : FileEnd × LandingZone β :=
  let version := itemVersion visit.file
  let s3Key := s3KeyOf visit.mapping visit.file
  if visit.file.itemId = [] then (.noFileId, zone)
  else if verifyFreeDiskSpace visit.answers.free version.sizeBytes = false then
    (.failed .verifyDisk, zone)
  else if visit.answers.registryAnswers = false then (.failed .checkRegistry, zone)
  else if checkIdempotency zone.registry s3Key (version.hash xxh)
      (s3ObjectExists zone s3Key visit.answers) then (.alreadySynced, zone)
  else transferFile xxh reader visit zone

/-- The loop over the files of a folder. -/
def syncFiles (visits : List (Visit β)) (zone : LandingZone β) : List FileEnd × LandingZone β :=
  Failstop.run (syncFile xxh reader) FileEnd.isFailed visits zone

/-- The files of a folder in their order, each with what is answered at it. -/
def visitsOf (mapping : Mapping) (answers : ℕ → FileAnswers β) (files : List RawItem) :
    List (Visit β) :=
  files.zipIdx.map fun file => ⟨mapping, file.1, answers file.2⟩

/-- The body of the loop over the folders. -/
def syncFolder (mapping : Mapping) (server : Str → Except PyError (List RawItem))
    (answers : ℕ → FileAnswers β) (zone : LandingZone β) : FolderEnd × LandingZone β :=
  match selectFilesToSync RawItem.itemName server mapping with
  | .error e => (.error e, zone)
  | .ok files =>
    let result := syncFiles xxh reader (visitsOf mapping answers files) zone
    (.ok result.1, result.2)

end Loops

/-- What a run leaves. -/
structure SyncResult (β : Type*) where
  /-- How the run left the folders. -/
  folders : List FolderEnd
  /-- The landing zone. -/
  zone : LandingZone β

/-- The counters that the run returns. -/
def SyncResult.metrics {β : Type*} (result : SyncResult β) : SyncMetrics :=
  result.folders.foldl SyncMetrics.countFolder ⟨0, 0, 0, 0⟩

section Run

variable {β : Type*} (cfg : SyncConfig β) (reader : IsoReader) (answers : RunAnswers β)

/-- The loop over the folders, of which `index` is the position of the first. -/
def syncMappings : ℕ → List Mapping → LandingZone β → SyncResult β
  | _, [], zone => ⟨[], zone⟩
  | index, mapping :: mappings, zone =>
    let folder := syncFolder cfg.xxh reader mapping (answers.listing index)
      (answers.files index) zone
    let rest := syncMappings (index + 1) mappings folder.2
    ⟨folder.1 :: rest.folders, rest.zone⟩

/-- The synchronisation of an environment. -/
def syncActiveDomains (env : Environment) (zone : LandingZone β) :
    Except PyError (SyncResult β) :=
  match cfg.targetMappings env with
  | .error e => .error e
  | .ok targetMappings => .ok (syncMappings cfg reader answers 0 targetMappings zone)

variable {cfg reader answers}

/-- A synchronisation that does not raise goes through the mappings of the environment. -/
lemma syncActiveDomains_eq_ok_iff {env : Environment} {zone : LandingZone β}
    {result : SyncResult β} :
    syncActiveDomains cfg reader answers env zone = .ok result ↔
      ∃ targetMappings, cfg.targetMappings env = .ok targetMappings ∧
        syncMappings cfg reader answers 0 targetMappings zone = result := by
  unfold syncActiveDomains
  cases cfg.targetMappings env with
  | error e => simp
  | ok targetMappings => simp

end Run

/-! ## A pass over a file -/

section Pass

variable {β : Type*} {xxh : Str → Str} {reader : IsoReader}

variable (xxh) in
/-- The version of a file is registered under its key, and an object is stored there. -/
def Synced (mapping : Mapping) (file : RawItem) (zone : LandingZone β) : Prop :=
  (∃ row, zone.registry.get? (s3KeyOf mapping file) = some row ∧
    row.xxhash = (itemVersion file).hash xxh) ∧
  ∃ object, zone.objects.get? (s3KeyOf mapping file) = some object

variable (reader) in
/-- Every call of the transfer of a file succeeds. -/
structure Transfers (visit : Visit β) : Prop where
  /-- The download. -/
  csvData : visit.answers.csvData.isSome
  /-- The write of the temporary file. -/
  tmpWritten : visit.answers.tmpWritten = true
  /-- The upload. -/
  upload : visit.answers.upload = .done
  /-- The removal of the temporary file. -/
  tmpRemoved : visit.answers.tmpRemoved = true
  /-- The reading of the time. -/
  time : (parseIsoDatetime reader (itemVersion visit.file).lastUpdated).isSome
  /-- The write to the registry. -/
  transaction : visit.answers.transaction = .done

variable (reader) in
/-- Every call at a file succeeds. -/
structure Healthy (visit : Visit β) : Prop where
  /-- The file has an id. -/
  fileId : visit.file.itemId ≠ []
  /-- The check of the disk space. -/
  disk : verifyFreeDiskSpace visit.answers.free (itemVersion visit.file).sizeBytes = true
  /-- The query of the registry. -/
  registryAnswers : visit.answers.registryAnswers = true
  /-- The transfer. -/
  transfers : Transfers reader visit

variable (xxh reader) in
/-- A call at a file raises: one of the checks, or one of the transfer when the file is not found
synced. -/
def Raises (visit : Visit β) (zone : LandingZone β) : Prop :=
  visit.file.itemId ≠ [] ∧
    (verifyFreeDiskSpace visit.answers.free (itemVersion visit.file).sizeBytes = false ∨
      visit.answers.registryAnswers = false ∨
        ¬ (visit.answers.headAnswers = true ∧ Synced xxh visit.mapping visit.file zone) ∧
          ¬ Transfers reader visit)

/-- A file is found synced when it is synced and the request for its object is answered. -/
lemma checkIdempotency_iff_synced {mapping : Mapping} {file : RawItem} {answers : FileAnswers β}
    {zone : LandingZone β} :
    checkIdempotency zone.registry (s3KeyOf mapping file) ((itemVersion file).hash xxh)
        (s3ObjectExists zone (s3KeyOf mapping file) answers) = true ↔
      answers.headAnswers = true ∧ Synced xxh mapping file zone := by
  unfold s3ObjectExists Synced
  rw [checkIdempotency_eq_true_iff, Bool.and_eq_true, Option.isSome_iff_exists]
  tauto

/-- Two zones differ under one key at most. -/
structure OnlyAt (s3Key : Str) (zone zone' : LandingZone β) : Prop where
  /-- The clock. -/
  now : zone'.now = zone.now
  /-- The registry. -/
  registry : ∀ key, key ≠ s3Key → zone'.registry.get? key = zone.registry.get? key
  /-- The bucket. -/
  objects : ∀ key, key ≠ s3Key → zone'.objects.get? key = zone.objects.get? key

/-- A landing zone that does not change changes at one key at most. -/
lemma OnlyAt.refl (s3Key : Str) (zone : LandingZone β) : OnlyAt s3Key zone zone :=
  ⟨rfl, fun _ _ => rfl, fun _ _ => rfl⟩

/-- An upload changes one key. -/
lemma onlyAt_upload (s3Key : Str) (zone : LandingZone β) (object : Download β) :
    OnlyAt s3Key zone (uploadFileToS3 zone s3Key object) :=
  ⟨rfl, fun _ _ => rfl, fun _ hne => Dict.get?_set_of_ne _ _ hne⟩

/-- An upload with its registration changes one key. -/
lemma onlyAt_register (s3Key : Str) (zone : LandingZone β) (object : Download β)
    (row : RegistryRow) : OnlyAt s3Key zone
      (registerDownloadedFile (uploadFileToS3 zone s3Key object) s3Key row) :=
  ⟨rfl, fun _ hne => Dict.get?_set_of_ne _ _ hne, fun _ hne => Dict.get?_set_of_ne _ _ hne⟩

/-- What stores a file changes its key only. -/
lemma onlyAt_storeFile (visit : Visit β) (csvData : β) (zone : LandingZone β) :
    OnlyAt (s3KeyOf visit.mapping visit.file) zone
      (storeFile xxh reader visit csvData zone).2 := by
  unfold storeFile
  dsimp only
  split
  · exact .refl _ _
  · exact onlyAt_upload _ _ _
  · split_ifs
    · exact onlyAt_upload _ _ _
    · split
      · exact onlyAt_upload _ _ _
      · split
        · exact onlyAt_upload _ _ _
        · exact onlyAt_register _ _ _ _
        · exact onlyAt_register _ _ _ _

/-- What transfers a file changes its key only. -/
lemma onlyAt_transferFile (visit : Visit β) (zone : LandingZone β) :
    OnlyAt (s3KeyOf visit.mapping visit.file) zone (transferFile xxh reader visit zone).2 := by
  unfold transferFile
  split
  · exact .refl _ _
  · split_ifs
    · exact .refl _ _
    · exact onlyAt_storeFile _ _ _

/-- A pass changes nothing but the object and the row of its file. -/
lemma onlyAt_syncFile (visit : Visit β) (zone : LandingZone β) :
    OnlyAt (s3KeyOf visit.mapping visit.file) zone (syncFile xxh reader visit zone).2 := by
  unfold syncFile
  dsimp only
  split_ifs
  · exact .refl _ _
  · exact .refl _ _
  · exact .refl _ _
  · exact .refl _ _
  · exact onlyAt_transferFile _ _

/-- A file with another key stays synced. -/
lemma OnlyAt.synced {s3Key : Str} {zone zone' : LandingZone β} (h : OnlyAt s3Key zone zone')
    {mapping : Mapping} {file : RawItem} (hne : s3KeyOf mapping file ≠ s3Key)
    (hsynced : Synced xxh mapping file zone) : Synced xxh mapping file zone' := by
  unfold Synced
  rw [h.registry _ hne, h.objects _ hne]
  exact hsynced

/-- A file that was uploaded and registered is synced. -/
lemma synced_register (mapping : Mapping) (file : RawItem) (zone : LandingZone β)
    (object : Download β) :
    Synced xxh mapping file (registerDownloadedFile
      (uploadFileToS3 zone (s3KeyOf mapping file) object) (s3KeyOf mapping file)
      (registryRowOf xxh file)) :=
  ⟨⟨registryRowOf xxh file, Dict.get?_set_self _ _ _, rfl⟩, object, Dict.get?_set_self _ _ _⟩

/-- An upload and a registration that do not fail have both had their effect. -/
lemma storeFile_cases (visit : Visit β) (csvData : β) (zone : LandingZone β) :
    (storeFile xxh reader visit csvData zone).1.isFailed = true ∨
      storeFile xxh reader visit csvData zone =
        (.downloaded, registerDownloadedFile
          (uploadFileToS3 zone (s3KeyOf visit.mapping visit.file) ⟨csvData, zone.now⟩)
          (s3KeyOf visit.mapping visit.file) (registryRowOf xxh visit.file)) := by
  unfold storeFile
  cases visit.answers.upload with
  | failed => exact Or.inl rfl
  | unconfirmed => exact Or.inl rfl
  | done =>
    cases visit.answers.tmpRemoved with
    | false => exact Or.inl rfl
    | true =>
      cases parseIsoDatetime reader (itemVersion visit.file).lastUpdated with
      | none => exact Or.inl rfl
      | some time =>
        cases visit.answers.transaction with
        | failed => exact Or.inl rfl
        | unconfirmed => exact Or.inl rfl
        | done => exact Or.inr rfl

/-- A transfer that does not fail leaves its file synced. -/
lemma transferFile_cases (visit : Visit β) (zone : LandingZone β) :
    (transferFile xxh reader visit zone).1.isFailed = true ∨
      (transferFile xxh reader visit zone).1 = .downloaded ∧
        Synced xxh visit.mapping visit.file (transferFile xxh reader visit zone).2 := by
  unfold transferFile
  cases visit.answers.csvData with
  | none => exact Or.inl rfl
  | some csvData =>
    cases visit.answers.tmpWritten with
    | false => exact Or.inl rfl
    | true =>
      simp only [Bool.true_eq_false, if_false]
      rcases @storeFile_cases _ xxh reader visit csvData zone with hfailed | hdone
      · exact Or.inl hfailed
      · rw [hdone]
        exact Or.inr ⟨rfl, synced_register _ _ zone _⟩

/-- An upload and a registration succeed when every call of them does. -/
lemma storeFile_eq_downloaded_iff {visit : Visit β} {csvData : β} {zone : LandingZone β} :
    (storeFile xxh reader visit csvData zone).1 = .downloaded ↔
      visit.answers.upload = .done ∧ visit.answers.tmpRemoved = true ∧
        (parseIsoDatetime reader (itemVersion visit.file).lastUpdated).isSome ∧
          visit.answers.transaction = .done := by
  unfold storeFile
  cases visit.answers.upload with
  | failed => simp
  | unconfirmed => simp
  | done =>
    cases visit.answers.tmpRemoved with
    | false => simp
    | true =>
      cases parseIsoDatetime reader (itemVersion visit.file).lastUpdated with
      | none => simp
      | some time =>
        cases visit.answers.transaction with
        | failed => simp
        | unconfirmed => simp
        | done => simp

/-- A transfer succeeds when every call of it does. -/
lemma transferFile_eq_downloaded_iff {visit : Visit β} {zone : LandingZone β} :
    (transferFile xxh reader visit zone).1 = .downloaded ↔ Transfers reader visit := by
  have hiff : Transfers reader visit ↔ visit.answers.csvData.isSome ∧
      visit.answers.tmpWritten = true ∧ visit.answers.upload = .done ∧
      visit.answers.tmpRemoved = true ∧
      (parseIsoDatetime reader (itemVersion visit.file).lastUpdated).isSome ∧
      visit.answers.transaction = .done :=
    ⟨fun ⟨a, b, c, d, e, f⟩ => ⟨a, b, c, d, e, f⟩, fun ⟨a, b, c, d, e, f⟩ => ⟨a, b, c, d, e, f⟩⟩
  rw [hiff]
  unfold transferFile
  cases visit.answers.csvData with
  | none => simp
  | some csvData =>
    cases visit.answers.tmpWritten with
    | false => simp
    | true => simp [storeFile_eq_downloaded_iff]

/-- A transfer fails when it does not succeed. -/
lemma isFailed_transferFile_iff {visit : Visit β} {zone : LandingZone β} :
    (transferFile xxh reader visit zone).1.isFailed = true ↔ ¬ Transfers reader visit := by
  rw [← @transferFile_eq_downloaded_iff _ xxh reader visit zone]
  rcases @transferFile_cases _ xxh reader visit zone with hfailed | ⟨hdone, -⟩
  · refine iff_of_true hfailed fun h => ?_
    rw [h] at hfailed
    cases hfailed
  · rw [hdone]
    simp [FileEnd.isFailed]

/-- **A pass over a file.** It fails, or skips a file without an id, or leaves its file synced: a
synced file is left as it was found, and another one is uploaded and registered. -/
lemma syncFile_cases (visit : Visit β) (zone : LandingZone β) :
    (syncFile xxh reader visit zone).1.isFailed = true ∨
      (visit.file.itemId = [] ∧ syncFile xxh reader visit zone = (.noFileId, zone)) ∨
      (Synced xxh visit.mapping visit.file zone ∧
        syncFile xxh reader visit zone = (.alreadySynced, zone)) ∨
      ((syncFile xxh reader visit zone).1 = .downloaded ∧
        Synced xxh visit.mapping visit.file (syncFile xxh reader visit zone).2) := by
  unfold syncFile
  dsimp only
  split_ifs with hid hdisk hregistry hsynced
  · exact Or.inr (Or.inl ⟨hid, rfl⟩)
  · exact Or.inl rfl
  · exact Or.inl rfl
  · exact Or.inr (Or.inr (Or.inl ⟨(checkIdempotency_iff_synced.mp hsynced).2, rfl⟩))
  · rcases @transferFile_cases _ xxh reader visit zone with hfailed | hdone
    · exact Or.inl hfailed
    · exact Or.inr (Or.inr (Or.inr hdone))

/-- A pass over a file with an id that does not fail leaves the file synced. -/
lemma synced_syncFile {visit : Visit β} {zone : LandingZone β} (hid : visit.file.itemId ≠ [])
    (h : (syncFile xxh reader visit zone).1.isFailed = false) :
    Synced xxh visit.mapping visit.file (syncFile xxh reader visit zone).2 := by
  rcases @syncFile_cases _ xxh reader visit zone with
    hfailed | ⟨hnone, -⟩ | ⟨hsynced, heq⟩ | ⟨-, hsynced⟩
  · rw [h] at hfailed
    cases hfailed
  · exact absurd hnone hid
  · rw [heq]
    exact hsynced
  · exact hsynced

/-- A pass over a file without an id leaves everything as it is. -/
lemma syncFile_of_no_id {visit : Visit β} (hid : visit.file.itemId = []) (zone : LandingZone β) :
    syncFile xxh reader visit zone = (.noFileId, zone) := if_pos hid

/-- A pass over a synced file leaves everything as it is, when the checks are answered. -/
lemma syncFile_of_synced {visit : Visit β} {zone : LandingZone β}
    (hdisk : verifyFreeDiskSpace visit.answers.free (itemVersion visit.file).sizeBytes = true)
    (hregistry : visit.answers.registryAnswers = true) (hhead : visit.answers.headAnswers = true)
    (hid : visit.file.itemId ≠ []) (h : Synced xxh visit.mapping visit.file zone) :
    syncFile xxh reader visit zone = (.alreadySynced, zone) := by
  unfold syncFile
  dsimp only
  rw [if_neg hid, if_neg (by simp [hdisk]), if_neg (by simp [hregistry]),
    if_pos (checkIdempotency_iff_synced.mpr ⟨hhead, h⟩)]

/-- A pass over a file at which every call succeeds finds it synced or transfers it. -/
lemma syncFile_of_healthy {visit : Visit β} (h : Healthy reader visit) (zone : LandingZone β) :
    (syncFile xxh reader visit zone).1 = .alreadySynced ∨
      (syncFile xxh reader visit zone).1 = .downloaded := by
  unfold syncFile
  dsimp only
  rw [if_neg h.fileId, if_neg (by simp [h.disk]), if_neg (by simp [h.registryAnswers])]
  split_ifs with hsynced
  · exact Or.inl rfl
  · exact Or.inr (transferFile_eq_downloaded_iff.mpr h.transfers)

/-- A pass fails when a call raises in it. -/
lemma isFailed_syncFile_iff {visit : Visit β} {zone : LandingZone β} :
    (syncFile xxh reader visit zone).1.isFailed = true ↔ Raises xxh reader visit zone := by
  unfold syncFile Raises
  dsimp only
  rw [← @checkIdempotency_iff_synced _ xxh]
  split_ifs with hid hdisk hregistry hsynced
  · exact iff_of_false (by simp [FileEnd.isFailed]) fun h => h.1 hid
  · exact iff_of_true rfl ⟨hid, Or.inl hdisk⟩
  · exact iff_of_true rfl ⟨hid, Or.inr (Or.inl hregistry)⟩
  · simp [FileEnd.isFailed, hdisk, hregistry, hsynced]
  · rw [isFailed_transferFile_iff]
    simp [hid, hdisk, hregistry, hsynced]

end Pass

/-! ## The files of a run -/

section Visits

variable {β : Type*}

/-- The files that are selected in a folder, none when it cannot be listed. -/
def selectedFiles (server : Str → Except PyError (List RawItem)) (mapping : Mapping) :
    List RawItem :=
  match selectFilesToSync RawItem.itemName server mapping with
  | .error _ => []
  | .ok files => files

/-- The files of a run in the order of the loops, when no call raises. -/
def syncVisits (answers : RunAnswers β) : ℕ → List Mapping → List (Visit β)
  | _, [] => []
  | index, mapping :: mappings =>
    visitsOf mapping (answers.files index) (selectedFiles (answers.listing index) mapping) ++
      syncVisits answers (index + 1) mappings

/-- The mapping and the file of a visit. -/
def Visit.source (visit : Visit β) : Mapping × RawItem := (visit.mapping, visit.file)

/-- The visits of a folder are those of its files under the mapping. -/
lemma map_source_visitsOf (mapping : Mapping) (answers : ℕ → FileAnswers β)
    (files : List RawItem) :
    (visitsOf mapping answers files).map Visit.source = files.map fun file => (mapping, file) := by
  have hfst : files.map (fun file => (mapping, file)) =
      (files.zipIdx.map Prod.fst).map fun file => (mapping, file) := by
    rw [List.zipIdx_map_fst]
  rw [visitsOf, hfst, List.map_map, List.map_map]
  rfl

/-- Runs with the same listings visit the same files. -/
lemma map_source_syncVisits {answers : RunAnswers β} {server : Str → Except PyError (List RawItem)}
    (hlisting : ∀ index, answers.listing index = server) (index : ℕ) (mappings : List Mapping) :
    (syncVisits answers index mappings).map Visit.source =
      mappings.flatMap fun mapping => (selectedFiles server mapping).map fun file =>
        (mapping, file) := by
  induction mappings generalizing index with
  | nil => rfl
  | cons mapping mappings ih =>
    rw [syncVisits, List.map_append, map_source_visitsOf, ih, hlisting, List.flatMap_cons]

end Visits

/-! ## The counters -/

section Metrics

/-- The folder was listed and no call raised at its files. -/
def FolderEnd.Clean (folder : FolderEnd) : Prop :=
  ∃ ends, folder = .ok ends ∧ ∀ e ∈ ends, e.isFailed = false

/-- The folder was listed and all of its files were skipped. -/
def FolderEnd.Skipped (folder : FolderEnd) : Prop :=
  ∃ ends, folder = .ok ends ∧ ∀ e ∈ ends, e.isSkipped = true

/-- What was counted before stays counted. -/
lemma errors_foldl_countFile_eq_zero {ends : List FileEnd} {metrics : SyncMetrics}
    (h : (ends.foldl SyncMetrics.countFile metrics).errors = 0) :
    metrics.errors = 0 ∧ ∀ e ∈ ends, e.isFailed = false := by
  induction ends generalizing metrics with
  | nil => exact ⟨h, by simp⟩
  | cons e ends ih =>
    obtain ⟨hcount, hends⟩ := ih h
    rw [List.forall_mem_cons]
    cases e with
    | failed step => cases hcount
    | noFileId => exact ⟨hcount, rfl, hends⟩
    | alreadySynced => exact ⟨hcount, rfl, hends⟩
    | downloaded => exact ⟨hcount, rfl, hends⟩

/-- A run without errors lists every folder, and no call raises at a file. -/
lemma clean_of_errors_eq_zero {folders : List FolderEnd} {metrics : SyncMetrics}
    (h : (folders.foldl SyncMetrics.countFolder metrics).errors = 0) :
    metrics.errors = 0 ∧ ∀ folder ∈ folders, FolderEnd.Clean folder := by
  induction folders generalizing metrics with
  | nil => exact ⟨h, by simp⟩
  | cons folder folders ih =>
    obtain ⟨hcount, hfolders⟩ := ih h
    rw [List.forall_mem_cons]
    cases folder with
    | error e => cases hcount
    | ok ends =>
      obtain ⟨hmetrics, hends⟩ := errors_foldl_countFile_eq_zero hcount
      exact ⟨hmetrics, ⟨ends, rfl, hends⟩, hfolders⟩

/-- Skipped files are counted as skipped only. -/
lemma foldl_countFile_of_skipped {ends : List FileEnd} (h : ∀ e ∈ ends, e.isSkipped = true)
    (metrics : SyncMetrics) :
    ends.foldl SyncMetrics.countFile metrics =
      { metrics with skipped := metrics.skipped + ends.length } := by
  induction ends generalizing metrics with
  | nil => rfl
  | cons e ends ih =>
    obtain ⟨he, hends⟩ := List.forall_mem_cons.mp h
    rw [List.foldl_cons, ih hends, List.length_cons, Nat.add_comm ends.length, ← Nat.add_assoc]
    cases e with
    | noFileId => rfl
    | alreadySynced => rfl
    | downloaded => cases he
    | failed step => cases he

/-- A run that skips every file downloads nothing and has no errors. -/
lemma foldl_countFolder_of_skipped {folders : List FolderEnd}
    (h : ∀ folder ∈ folders, FolderEnd.Skipped folder) (metrics : SyncMetrics) :
    (folders.foldl SyncMetrics.countFolder metrics).downloaded = metrics.downloaded ∧
      (folders.foldl SyncMetrics.countFolder metrics).errors = metrics.errors := by
  induction folders generalizing metrics with
  | nil => exact ⟨rfl, rfl⟩
  | cons folder folders ih =>
    obtain ⟨⟨ends, rfl, hends⟩, hfolders⟩ := List.forall_mem_cons.mp h
    obtain ⟨hdownloaded, herrors⟩ := ih hfolders (SyncMetrics.countFolder metrics (.ok ends))
    rw [List.foldl_cons, hdownloaded, herrors]
    simp only [SyncMetrics.countFolder, foldl_countFile_of_skipped hends, and_self]

end Metrics

end EntsoePipeline
