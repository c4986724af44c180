import EntsoePipeline.Fms.Items
import EntsoePipeline.Landing.Checklist
import EntsoePipeline.Lib.Transition

set_option relaxedAutoImplicit false
set_option autoImplicit false

/-!
# The synchronisation of the landing zone

A run of the synchronisation goes through the mapped folders of an environment, lists each folder,
and for each selected file compares its version with the landing registry. A file that is not
synced is downloaded, written to a temporary file, uploaded to the object store and registered.
The run is a state machine whose moves are the steps of the code that touch something outside of
the process; between two of them the server, the stores and the clock may have moved on, and each
of them may fail.

## Main definitions

* `EntsoePipeline.LandingZone` — the clock, the landing bucket and the landing registry.
* `EntsoePipeline.checkIdempotency`, `EntsoePipeline.registerDownloadedFile`,
  `EntsoePipeline.uploadFileToS3` — the operations on the landing zone.
* `EntsoePipeline.SyncConfig` — the configuration and the evolution of the server.
* `EntsoePipeline.SyncStep` — the moves of a run.
* `EntsoePipeline.syncComponent` — the synchronisation as a component on the landing zone.

## Implementation notes

The server is a function of the time, so that every evolution of its files is covered. The time at
which an object's bytes were downloaded is kept with the bytes; the code does not store it. Every
failure that is caught per folder continues with the next folder, and a crash ends the run.
-/

namespace EntsoePipeline

open Py

/-! ## The landing zone -/

/-- The contents of a downloaded file. -/
structure Download (β : Type*) where
  /-- The bytes. -/
  bytes : β
  /-- The time of the download. -/
  downloadedAt : ℕ
  deriving DecidableEq

/-- The columns of the landing registry that are read again. -/
structure RegistryRow where
  /-- The file name. -/
  fileName : Str
  /-- The id of the file. -/
  fileId : Str
  /-- The uncompressed size. -/
  fileSizeBytes : ℤ
  /-- The digest of the version. -/
  xxhash : Str
  deriving DecidableEq

/-- The landing zone: the clock, the objects of the landing bucket and the landing registry. -/
structure LandingZone (β : Type*) where
  /-- The time. -/
  now : ℕ
  /-- The objects of the landing bucket. -/
  objects : Dict Str (Download β)
  /-- `landing_files_registry`. -/
  registry : Dict Str RegistryRow

/-- A version of a file, as a listing shows it. -/
structure FileVersion where
  /-- The file name. -/
  name : Str
  /-- The uncompressed size. -/
  sizeBytes : ℤ
  /-- The time of the last modification. -/
  lastUpdated : Str
  deriving DecidableEq

/-- The digest of a version. -/
def FileVersion.hash (xxh : Str → Str) (version : FileVersion) : Str :=
  calculateIdempotencyHash xxh version.name version.sizeBytes version.lastUpdated

/-- Two versions are equal when their fields are. -/
lemma FileVersion.eq_iff {a b : FileVersion} :
    a = b ↔ a.name = b.name ∧ a.sizeBytes = b.sizeBytes ∧ a.lastUpdated = b.lastUpdated := by
  cases a
  cases b
  exact iff_of_eq (FileVersion.mk.injEq ..)

/-- What happens in the landing zone and in the lakehouse. -/
inductive Event (β : Type*)
  /-- A file was found synced and skipped. -/
  | skipped (s3Key : Str) (version : FileVersion)
  /-- The bytes downloaded for a version were uploaded. -/
  | uploaded (s3Key : Str) (version : FileVersion) (object : Download β)
  /-- A version was registered. -/
  | registered (s3Key : Str) (version : FileVersion)
  /-- An object was read for ingestion. -/
  | read (s3Key : Str) (object : Download β)
  /-- Objects were written to the table of a contract. -/
  | wrote (fmsName : Str) (objects : List (Str × Download β))

/-- The file is synced: the registry has the expected digest and the object exists. -/
def checkIdempotency (registry : Dict Str RegistryRow) (s3Key expectedHash : Str)
    (s3ObjectExists : Bool) : Bool :=
  match registry.get? s3Key with
  | none => false
  | some row => decide (row.xxhash = expectedHash) && s3ObjectExists

/-- Insert or update the registry row of a key. -/
def registerDownloadedFile {β : Type*} (zone : LandingZone β) (s3Key : Str) (row : RegistryRow) :
    LandingZone β :=
  { zone with registry := zone.registry.set s3Key row }

/-- Store an object under a key. -/
def uploadFileToS3 {β : Type*} (zone : LandingZone β) (s3Key : Str) (object : Download β) :
    LandingZone β :=
  { zone with objects := zone.objects.set s3Key object }

section Zone

variable {β : Type*} (zone : LandingZone β) (s3Key : Str) (row : RegistryRow) (object : Download β)

/-- A registration takes no time. -/
@[simp] lemma now_registerDownloadedFile :
    (registerDownloadedFile zone s3Key row).now = zone.now := rfl

/-- A registration changes no object. -/
@[simp] lemma objects_registerDownloadedFile :
    (registerDownloadedFile zone s3Key row).objects = zone.objects := rfl

/-- A registration sets the row of the key. -/
@[simp] lemma registry_registerDownloadedFile :
    (registerDownloadedFile zone s3Key row).registry = zone.registry.set s3Key row := rfl

/-- An upload takes no time. -/
@[simp] lemma now_uploadFileToS3 : (uploadFileToS3 zone s3Key object).now = zone.now := rfl

/-- An upload changes no row. -/
@[simp] lemma registry_uploadFileToS3 :
    (uploadFileToS3 zone s3Key object).registry = zone.registry := rfl

/-- An upload sets the object of the key. -/
@[simp] lemma objects_uploadFileToS3 :
    (uploadFileToS3 zone s3Key object).objects = zone.objects.set s3Key object := rfl

end Zone

/-- A file is found synced when its object exists and its row has the digest. -/
lemma checkIdempotency_eq_true_iff {registry : Dict Str RegistryRow} {s3Key expectedHash : Str}
    {s3ObjectExists : Bool} :
    checkIdempotency registry s3Key expectedHash s3ObjectExists = true ↔
      s3ObjectExists = true ∧ ∃ row, registry.get? s3Key = some row ∧
        row.xxhash = expectedHash := by
  unfold checkIdempotency
  cases registry.get? s3Key with
  | none => simp
  | some row => simp [and_comm]

/-! ## The server and the configuration -/

/-- The environments. -/
inductive Environment
  /-- The test environment. -/
  | iop
  /-- The production environment. -/
  | prod
  deriving DecidableEq

/-- The name of an environment. -/
def Environment.name : Environment → Str
  | .iop => "IOP".toList
  | .prod => "PROD".toList

/-- A file on the server. -/
structure RemoteFile (β : Type*) where
  /-- The uncompressed size. -/
  size : ℤ
  /-- The time of the last modification. -/
  lastUpdated : Str
  /-- The contents. -/
  bytes : β

/-- The configuration of the synchronisation, and the server. -/
structure SyncConfig (β : Type*) where
  /-- The letter case conversions. -/
  cm : CaseMap
  /-- The digest. -/
  xxh : Str → Str
  /-- The checklist. -/
  checklist : Checklist
  /-- The paths of the landing schema. -/
  schemaFolders : List Str
  /-- The files of an environment at a time, by directory and name. -/
  remote : ℕ → Environment → Str → Str → Option (RemoteFile β)

namespace SyncConfig

variable {β : Type*} (cfg : SyncConfig β)

/-- The enabled folders of an environment. -/
def activeFolders (env : Environment) : Dict Str EntryValue :=
  extractActiveFolders cfg.cm env.name cfg.checklist

/-- The folders that a run synchronises; none when no folder is enabled. -/
def targetMappings (env : Environment) : Except PyError (List Mapping) :=
  if (cfg.activeFolders env).items = [] then .ok []
  else resolveTargetMappings cfg.cm env.name (cfg.activeFolders env) cfg.schemaFolders

variable {cfg} in
/-- The folders that a run synchronises are mappings of landing paths. -/
lemma exists_landingPath_of_mem {paths : List LandingPath}
    (hpaths : cfg.schemaFolders = paths.map LandingPath.text) {env : Environment}
    {mappings : List Mapping} (h : cfg.targetMappings env = .ok mappings) {mapping : Mapping}
    (hmem : mapping ∈ mappings) :
    ∃ path : LandingPath, path.mapping cfg.cm env.name (cfg.activeFolders env) = some mapping := by
  unfold targetMappings at h
  split_ifs at h with hactive
  · cases h
    cases hmem
  · rw [hpaths, resolveTargetMappings_landing] at h
    cases h
    obtain ⟨path, -, hpath⟩ := List.mem_filterMap.mp hmem
    exact ⟨path, hpath⟩

/-- A file of the server has a version at a time. -/
def HasVersion (t : ℕ) (env : Environment) (path : Str) (version : FileVersion) : Prop :=
  ∃ file, cfg.remote t env path version.name = some file ∧ file.size = version.sizeBytes ∧
    file.lastUpdated = version.lastUpdated

/-- Some file of the server has the version at some time. -/
def Occurs (version : FileVersion) : Prop := ∃ t env path, cfg.HasVersion t env path version

end SyncConfig

/-- The version that a listing shows for an item. -/
def itemVersion (item : RawItem) : FileVersion :=
  ⟨item.itemName, item.originalSize.getD 0, item.lastUpdatedTimestamp.getD []⟩

/-- What a listing of a directory shows: each item with an id is a file in a version it had at some
time so far. The pages of a listing are fetched one after the other, so the times may differ. -/
def SyncConfig.Shows {β : Type*} (cfg : SyncConfig β) (now : ℕ) (env : Environment) (path : Str)
    (items : List RawItem) : Prop :=
  ∀ item ∈ items, item.itemId ≠ [] → ∃ t ≤ now, cfg.HasVersion t env path (itemVersion item)

/-- The directory that `download_raw_zip_from_fms` asks for. -/
def downloadFolder (topLevelFolder folderPath : Str) : Str :=
  let folderStr := squeeze '/' ('/' :: (topLevelFolder ++ '/' :: folderPath))
  if endsWith folderStr ['/'] then folderStr else folderStr ++ ['/']

/-- The margin of free disk space: a hundred megabytes. -/
def safetyMarginBytes : ℤ := 100 * 1024 * 1024

/-- There is enough disk space for a file. -/
def verifyFreeDiskSpace (free sizeBytes : ℤ) : Bool :=
  decide (max safetyMarginBytes (sizeBytes * 2) ≤ free)

/-! ## The state of a run -/

/-- A file in the hands of a run. -/
structure Job where
  /-- The environment of the run. -/
  env : Environment
  /-- The mapping of the folder. -/
  mapping : Mapping
  /-- The selected file. -/
  file : RawItem
  /-- The files of the folder that come after it. -/
  files : List RawItem
  /-- The folders that come after this one. -/
  mappings : List Mapping

namespace Job

/-- `f"{schema_path.strip('/')}/{filename}"`. -/
def s3Key (job : Job) : Str := strip '/' job.mapping.schemaPath ++ '/' :: job.file.itemName

/-- `f"tmp_{filename}"`. -/
def tmpName (job : Job) : Str := "tmp_".toList ++ job.file.itemName

/-- The version that was listed. -/
def version (job : Job) : FileVersion := itemVersion job.file

/-- The row that is registered. -/
def registryRow (job : Job) (xxh : Str → Str) : RegistryRow :=
  ⟨job.file.itemName, job.file.itemId, job.version.sizeBytes, job.version.hash xxh⟩

end Job

/-- What is to be done next with a file. -/
inductive Phase (β : Type*)
  /-- Compare it with the registry. -/
  | check
  /-- Download it. -/
  | transfer
  /-- Write the bytes to the temporary file. -/
  | write (csvData : Download β)
  /-- Upload the temporary file. -/
  | upload (csvData : Download β)
  /-- Remove the temporary file. -/
  | clean
  /-- Register the version. -/
  | register

/-- Where a run is. -/
inductive SyncPc (β : Type*)
  /-- There is no run. -/
  | idle
  /-- Before the next folder. -/
  | folders (env : Environment) (mappings : List Mapping)
  /-- Before the next file of a folder. -/
  | files (env : Environment) (mapping : Mapping) (files : List RawItem) (mappings : List Mapping)
  /-- At a file. -/
  | file (phase : Phase β) (job : Job)

/-- The local state: the temporary files and the place in the run. -/
structure SyncState (β : Type*) where
  /-- The temporary files by name. -/
  tmp : Dict Str (Download β)
  /-- The place in the run. -/
  pc : SyncPc β

/-! ## The moves -/

section Moves

variable {β : Type*} (cfg : SyncConfig β)

/-- A move of the synchronisation, of the clock or of the bucket. -/
inductive SyncStep : LandingZone β → SyncState β → List (Event β) → LandingZone β → SyncState β →
    Prop
  /-- Time passes. -/
  | tick (zone st) : SyncStep zone st [] { zone with now := zone.now + 1 } st
  /-- An object is removed from the bucket. -/
  | evict (zone st) (s3Key : Str) : SyncStep zone st []
      { zone with objects := zone.objects.filter fun key _ => key ≠ s3Key } st
  /-- A run starts. -/
  | start {zone tmp env mappings} (h : cfg.targetMappings env = .ok mappings) :
      SyncStep zone ⟨tmp, .idle⟩ [] zone ⟨tmp, .folders env mappings⟩
  /-- A run ends. -/
  | finish {zone tmp env} : SyncStep zone ⟨tmp, .folders env []⟩ [] zone ⟨tmp, .idle⟩
  /-- The process dies. -/
  | crash (zone st) : SyncStep zone st [] zone ⟨st.tmp, .idle⟩
  /-- A folder is listed and its files are selected. -/
  | list {zone tmp env mapping mappings items files}
      (hshows : cfg.Shows zone.now env (listingOf mapping).path items)
      (hselect : selectFilesToSync RawItem.itemName (fun _ => .ok items) mapping = .ok files) :
      SyncStep zone ⟨tmp, .folders env (mapping :: mappings)⟩ [] zone
        ⟨tmp, .files env mapping files mappings⟩
  /-- A folder cannot be listed. -/
  | listFails {zone tmp env mapping mappings} :
      SyncStep zone ⟨tmp, .folders env (mapping :: mappings)⟩ [] zone ⟨tmp, .folders env mappings⟩
  /-- All files of a folder are done. -/
  | nextFolder {zone tmp env mapping mappings} :
      SyncStep zone ⟨tmp, .files env mapping [] mappings⟩ [] zone ⟨tmp, .folders env mappings⟩
  /-- A file without an id is skipped. -/
  | skipEmpty {zone tmp env mapping file files mappings} (h : file.itemId = []) :
      SyncStep zone ⟨tmp, .files env mapping (file :: files) mappings⟩ [] zone
        ⟨tmp, .files env mapping files mappings⟩
  /-- There is disk space for the next file. -/
  | verifyDisk {zone tmp env mapping file files mappings} {free : ℤ} (h : file.itemId ≠ [])
      (hfree : verifyFreeDiskSpace free (itemVersion file).sizeBytes = true) :
      SyncStep zone ⟨tmp, .files env mapping (file :: files) mappings⟩ [] zone
        ⟨tmp, .file .check ⟨env, mapping, file, files, mappings⟩⟩
  /-- There is no disk space for the next file. -/
  | diskFull {zone tmp env mapping file files mappings} :
      SyncStep zone ⟨tmp, .files env mapping (file :: files) mappings⟩ [] zone
        ⟨tmp, .folders env mappings⟩
  /-- The file is synced. -/
  | skip {zone tmp job} {s3ObjectExists : Bool}
      (hexists : s3ObjectExists = true → ∃ object, zone.objects.get? job.s3Key = some object)
      (h : checkIdempotency zone.registry job.s3Key (job.version.hash cfg.xxh) s3ObjectExists =
        true) :
      SyncStep zone ⟨tmp, .file .check job⟩ [.skipped job.s3Key job.version] zone
        ⟨tmp, .files job.env job.mapping job.files job.mappings⟩
  /-- The file is not synced. A failed request for the object counts as a missing object. -/
  | needed {zone tmp job} {s3ObjectExists : Bool}
      (h : checkIdempotency zone.registry job.s3Key (job.version.hash cfg.xxh) s3ObjectExists =
        false) :
      SyncStep zone ⟨tmp, .file .check job⟩ [] zone ⟨tmp, .file .transfer job⟩
  /-- The file is downloaded as the server has it now. -/
  | download {zone tmp job file}
      (h : cfg.remote zone.now job.env
        (downloadFolder job.mapping.topLevelFolder (listFolder job.mapping)) job.file.itemName =
          some file) :
      SyncStep zone ⟨tmp, .file .transfer job⟩ [] zone
        ⟨tmp, .file (.write ⟨file.bytes, zone.now⟩) job⟩
  /-- The temporary file is written. -/
  | write {zone tmp job csvData} : SyncStep zone ⟨tmp, .file (.write csvData) job⟩ [] zone
      ⟨tmp.set job.tmpName csvData, .file (.upload csvData) job⟩
  /-- The temporary file is written in part. -/
  | writeFails {zone tmp job csvData} (part : Download β) :
      SyncStep zone ⟨tmp, .file (.write csvData) job⟩ [] zone
        ⟨tmp.set job.tmpName part, .folders job.env job.mappings⟩
  /-- The temporary file is uploaded. -/
  | upload {zone tmp job csvData object} (h : tmp.get? job.tmpName = some object) :
      SyncStep zone ⟨tmp, .file (.upload csvData) job⟩ [.uploaded job.s3Key job.version object]
        (uploadFileToS3 zone job.s3Key object) ⟨tmp, .file .clean job⟩
  /-- The temporary file is uploaded, but the upload is reported as failed. -/
  | uploadUnconfirmed {zone tmp job csvData object} (h : tmp.get? job.tmpName = some object) :
      SyncStep zone ⟨tmp, .file (.upload csvData) job⟩ [.uploaded job.s3Key job.version object]
        (uploadFileToS3 zone job.s3Key object) ⟨tmp, .folders job.env job.mappings⟩
  /-- The temporary file is removed. -/
  | clean {zone tmp job} : SyncStep zone ⟨tmp, .file .clean job⟩ [] zone
      ⟨tmp.filter fun name _ => name ≠ job.tmpName, .file .register job⟩
  /-- The version is registered. -/
  | register {zone tmp job} :
      SyncStep zone ⟨tmp, .file .register job⟩ [.registered job.s3Key job.version]
        (registerDownloadedFile zone job.s3Key (job.registryRow cfg.xxh))
        ⟨tmp, .files job.env job.mapping job.files job.mappings⟩
  /-- The version is registered, but the transaction is reported as failed. -/
  | registerUnconfirmed {zone tmp job} :
      SyncStep zone ⟨tmp, .file .register job⟩ [.registered job.s3Key job.version]
        (registerDownloadedFile zone job.s3Key (job.registryRow cfg.xxh))
        ⟨tmp, .folders job.env job.mappings⟩
  /-- The step at a file fails without an effect, and the run goes on with the next folder. -/
  | fail {zone tmp phase job} :
      SyncStep zone ⟨tmp, .file phase job⟩ [] zone ⟨tmp, .folders job.env job.mappings⟩

/-- The synchronisation as a component on the landing zone. -/
def syncComponent : Transition.Component (LandingZone β) (SyncState β) (Event β) where
  init st := st = ⟨∅, .idle⟩
  step := SyncStep cfg

/-- The empty landing zone. -/
def LandingZone.IsEmpty (zone : LandingZone β) : Prop := zone.objects = ∅ ∧ zone.registry = ∅

/-- Runs of the synchronisation, one after the other, on an empty landing zone. -/
def syncSystem : Transition.System (LandingZone β × SyncState β) (Event β) :=
  (syncComponent cfg).alone LandingZone.IsEmpty

end Moves

/-! ## What is known along a run -/

section Along

variable {β : Type*} {cfg : SyncConfig β}

/-- The folders of a run satisfy `target`, its files were listed, and the file in hand has an id. -/
def SyncPc.Along (cfg : SyncConfig β) (target : Environment → Mapping → Prop) (now : ℕ) :
    SyncPc β → Prop
  | .idle => True
  | .folders env mappings => ∀ mapping ∈ mappings, target env mapping
  | .files env mapping items mappings => target env mapping ∧
      cfg.Shows now env (listingOf mapping).path items ∧ ∀ mapping ∈ mappings, target env mapping
  | .file _ job => target job.env job.mapping ∧
      cfg.Shows now job.env (listingOf job.mapping).path (job.file :: job.files) ∧
      (∀ mapping ∈ job.mappings, target job.env mapping) ∧ job.file.itemId ≠ []

/-- What was shown was shown until later. -/
lemma SyncConfig.Shows.mono {now now' : ℕ} {env : Environment} {path : Str}
    {items : List RawItem} (h : cfg.Shows now env path items) (hle : now ≤ now') :
    cfg.Shows now' env path items := by
  intro item hitem hid
  obtain ⟨t, ht, hversion⟩ := h item hitem hid
  exact ⟨t, ht.trans hle, hversion⟩

/-- A part of what was shown was shown. -/
lemma SyncConfig.Shows.subset {now : ℕ} {env : Environment} {path : Str}
    {items files : List RawItem} (h : cfg.Shows now env path items) (hsub : files ⊆ items) :
    cfg.Shows now env path files := fun item hitem => h item (hsub hitem)

/-- The selected files are listed ones. -/
lemma mem_of_mem_selectFilesToSync {items files : List RawItem} {mapping : Mapping}
    (h : selectFilesToSync RawItem.itemName (fun _ => .ok items) mapping = .ok files)
    {file : RawItem} (hfile : file ∈ files) : file ∈ items := by
  obtain ⟨items', hitems, hsub⟩ := exists_sublist_of_selectFilesToSync h
  cases hitems
  exact hsub.subset hfile

/-- The file in hand had its version at some time so far. -/
lemma SyncPc.Along.listed {target : Environment → Mapping → Prop} {now : ℕ} {phase : Phase β}
    {job : Job} (h : SyncPc.Along cfg target now (.file phase job)) :
    ∃ t ≤ now, cfg.HasVersion t job.env (listingOf job.mapping).path job.version :=
  h.2.1 job.file List.mem_cons_self h.2.2.2

/-- Every move keeps what is known along a run, when the folders that a run starts with satisfy
`target`. -/
lemma SyncStep.along {target : Environment → Mapping → Prop}
    (hstart : ∀ env mappings, cfg.targetMappings env = .ok mappings →
      ∀ mapping ∈ mappings, target env mapping)
    {zone zone' : LandingZone β} {st st' : SyncState β} {events : List (Event β)}
    (hstep : SyncStep cfg zone st events zone' st') (h : st.pc.Along cfg target zone.now) :
    st'.pc.Along cfg target zone'.now := by
  cases hstep with
  | tick =>
    cases hpc : st.pc with
    | idle => trivial
    | folders env mappings =>
      rw [hpc] at h
      exact h
    | files env mapping files mappings =>
      rw [hpc] at h
      exact ⟨h.1, h.2.1.mono (Nat.le_succ _), h.2.2⟩
    | file phase job =>
      rw [hpc] at h
      exact ⟨h.1, h.2.1.mono (Nat.le_succ _), h.2.2⟩
  | evict => exact h
  | start hmappings => exact hstart _ _ hmappings
  | finish => trivial
  | crash => trivial
  | list hshows hselect =>
    obtain ⟨htarget, hrest⟩ := List.forall_mem_cons.mp h
    exact ⟨htarget, hshows.subset fun file hfile => mem_of_mem_selectFilesToSync hselect hfile,
      hrest⟩
  | listFails => exact fun mapping hmem => h mapping (List.mem_cons_of_mem _ hmem)
  | nextFolder => exact h.2.2
  | skipEmpty => exact ⟨h.1, h.2.1.subset (List.subset_cons_self _ _), h.2.2⟩
  | verifyDisk hid => exact ⟨h.1, h.2.1, h.2.2, hid⟩
  | diskFull => exact h.2.2
  | skip => exact ⟨h.1, h.2.1.subset (List.subset_cons_self _ _), h.2.2.1⟩
  | needed => exact h
  | download => exact h
  | write => exact h
  | writeFails => exact h.2.2.1
  | upload => exact h
  | uploadUnconfirmed => exact h.2.2.1
  | clean => exact h
  | register => exact ⟨h.1, h.2.1.subset (List.subset_cons_self _ _), h.2.2.1⟩
  | registerUnconfirmed => exact h.2.2.1
  | fail => exact h.2.2.1

end Along

/-! ## Runs without failures -/

section Runs

variable {β : Type*} {cfg : SyncConfig β} {trace : List (Event β)} {zone : LandingZone β}
  {tmp : Dict Str (Download β)} {job : Job}

/-- A run comes to the first selected file of its first folder. -/
lemma reach_check (hidle : (syncSystem cfg).Reach trace (zone, ⟨tmp, .idle⟩)) {items : List RawItem}
    (htargets : cfg.targetMappings job.env = .ok (job.mapping :: job.mappings))
    (hshows : cfg.Shows zone.now job.env (listingOf job.mapping).path items)
    (hselect : selectFilesToSync RawItem.itemName (fun _ => .ok items) job.mapping =
      .ok (job.file :: job.files))
    (hid : job.file.itemId ≠ []) :
    ∃ trace', (syncSystem cfg).Reach trace' (zone, ⟨tmp, .file .check job⟩) := by
  have hdisk : verifyFreeDiskSpace (max safetyMarginBytes ((itemVersion job.file).sizeBytes * 2))
      (itemVersion job.file).sizeBytes = true := decide_eq_true le_rfl
  have hstarted := Transition.Component.reach_alone_next hidle (SyncStep.start htargets)
  have hlisted := Transition.Component.reach_alone_next hstarted (SyncStep.list hshows hselect)
  exact ⟨_, Transition.Component.reach_alone_next hlisted (SyncStep.verifyDisk hid hdisk)⟩

/-- A run that has the last file of its last folder in hand, which is not synced, stores it and
ends. -/
lemma reach_stored (hcheck : (syncSystem cfg).Reach trace (zone, ⟨tmp, .file .check job⟩))
    (hlast : job.files = [] ∧ job.mappings = []) {s3ObjectExists : Bool}
    (hneeded : checkIdempotency zone.registry job.s3Key (job.version.hash cfg.xxh) s3ObjectExists =
      false)
    {file : RemoteFile β} (hfile : cfg.remote zone.now job.env
      (downloadFolder job.mapping.topLevelFolder (listFolder job.mapping)) job.file.itemName =
        some file) :
    ∃ trace' tmp', (syncSystem cfg).Reach trace'
      (registerDownloadedFile (uploadFileToS3 zone job.s3Key ⟨file.bytes, zone.now⟩) job.s3Key
        (job.registryRow cfg.xxh), ⟨tmp', .idle⟩) := by
  have htransfer := Transition.Component.reach_alone_next hcheck (SyncStep.needed hneeded)
  have hwrite := Transition.Component.reach_alone_next htransfer (SyncStep.download hfile)
  have hupload := Transition.Component.reach_alone_next hwrite SyncStep.write
  have hclean := Transition.Component.reach_alone_next hupload
    (SyncStep.upload (Dict.get?_set_self _ _ _))
  have hregister := Transition.Component.reach_alone_next hclean SyncStep.clean
  have hdone := Transition.Component.reach_alone_next hregister SyncStep.register
  rw [hlast.1, hlast.2] at hdone
  have hfolder := Transition.Component.reach_alone_next hdone SyncStep.nextFolder
  exact ⟨_, _, Transition.Component.reach_alone_next hfolder SyncStep.finish⟩

end Runs

end EntsoePipeline
