import EntsoePipeline.Catalog.Crawler
import EntsoePipeline.Lib.KeyedTable
import EntsoePipeline.Lib.TableFrame

set_option relaxedAutoImplicit false
set_option autoImplicit false

/-!
# The transaction that saves a folder

The tables of the metadata database have generated folder ids, and every file row points to the row
of its folder. Saving a crawled folder is one transaction of four statements: the row of the folder
is looked up, updated or inserted, its old file rows are deleted and the new ones inserted. The
catalog of `EntsoePipeline.Catalog` is what is left of the tables when the ids are forgotten.

## Main definitions

* `EntsoePipeline.MetadataDb` — the two tables with their keys.
* `EntsoePipeline.MetadataDb.saveCrawledFolderMetadata` — the transaction.
* `EntsoePipeline.MetadataDb.OwnedElsewhere` — a file id that belongs to another folder.
* `EntsoePipeline.MetadataDb.SavesExactly` — what a save leaves in the tables.
* `EntsoePipeline.MetadataDb.catalog` — the tables without the generated ids.

## Main results

* `EntsoePipeline.MetadataDb.exists_saveStatements_iff` — when the statements succeed, and the rows
  they leave.
* `EntsoePipeline.MetadataDb.saveCrawledFolderMetadata_exact` — the save is atomic and exact.
* `EntsoePipeline.MetadataDb.catalog_saveStatements` — on the catalog it is the save of the crawls.

## Implementation notes

The sizes and the texts of the records fit the declared columns, so that of the data only the keys
can make a statement fail.
-/

namespace EntsoePipeline

open Py KeyedTable

/-! ## The tables -/

/-- A row of `fms_folders`. -/
structure FolderRecord where
  /-- The generated id. -/
  id : ℕ
  /-- The environment, in lower case. -/
  environment : Str
  /-- The data domain or the legacy archive. -/
  domain : Str
  /-- The path `/<root>/<folder>/`. -/
  folderPath : Str
  /-- The number of files of the folder. -/
  itemCount : ℕ
  /-- The uncompressed size of its files. -/
  originalBytes : ℤ
  /-- The compressed size of its files. -/
  compressedBytes : ℤ
  /-- The time of the last successful scan. -/
  crawledAt : Option Datetime
  deriving DecidableEq

/-- The columns of the unique key `uq_env_folder_path`. -/
def FolderRecord.key (row : FolderRecord) : FolderKey := ⟨row.environment, row.folderPath⟩

/-- A row of `fms_files`. -/
structure FileRecord where
  /-- The id of the file. -/
  fileId : Str
  /-- The id of the row of its folder. -/
  folderId : ℕ
  /-- The stored file name. -/
  name : Str
  /-- The uncompressed size. -/
  originalBytes : ℤ
  /-- The compressed size. -/
  compressedBytes : ℤ
  /-- The time of the last modification, as the server writes it. -/
  lastUpdated : Str
  /-- The digest of name, size and time. -/
  xxhash : Str
  deriving DecidableEq

/-- The metadata tables. The unique keys, the foreign key and the sequence of the folder ids are
those that the database enforces. -/
structure MetadataDb where
  /-- `fms_folders`, by id. -/
  fmsFolders : Table FolderRecord.id
  /-- `fms_files`, by file id. -/
  fmsFiles : Table FileRecord.fileId
  /-- The next folder id. -/
  nextFolderId : ℕ
  uqEnvFolderPath : (fmsFolders.rows.map FolderRecord.key).Nodup
  folderExists : ∀ file ∈ fmsFiles.rows, file.folderId ∈ fmsFolders.keys
  idsBelow : ∀ id ∈ fmsFolders.keys, id < nextFolderId

/-- The aggregates of a crawled folder. -/
structure FolderMeta where
  /-- The path `/<root>/<folder>/`. -/
  folderPath : Str
  /-- The number of files. -/
  itemCount : ℕ
  /-- The sum of the uncompressed sizes. -/
  originalBytes : ℤ
  /-- The sum of the compressed sizes. -/
  compressedBytes : ℤ

/-- The aggregates of the records of a folder. -/
def compileFolderMetadata (folderName : Str) (files : List FileMeta) (rootDir : Str) : FolderMeta :=
  ⟨folderPath rootDir folderName, files.length, totalOriginalBytes files,
    totalCompressedBytes files⟩

/-- The file row of a record under the id of its folder. -/
def fileRecord (folderId : ℕ) (file : FileMeta) : FileRecord :=
  ⟨file.fileId, folderId, file.name, file.originalBytes, file.compressedBytes, file.lastUpdated,
    file.xxhash⟩

/-- The new values of the row of a folder that is in the table. -/
def FolderMeta.updateRow (folderMeta : FolderMeta) (now : Datetime) (row : FolderRecord) :
    FolderRecord :=
  { row with
    itemCount := folderMeta.itemCount
    originalBytes := folderMeta.originalBytes
    compressedBytes := folderMeta.compressedBytes
    crawledAt := some now }

/-- The row of a folder that is not in the table. -/
def FolderMeta.newRow (folderMeta : FolderMeta) (now : Datetime) (key : FolderKey) (domain : Str)
    (id : ℕ) : FolderRecord :=
  ⟨id, key.environment, domain, key.folderPath, folderMeta.itemCount, folderMeta.originalBytes,
    folderMeta.compressedBytes, some now⟩

namespace MetadataDb

/-! ## The statements -/

/-- The row of a folder. -/
def folder? (db : MetadataDb) (key : FolderKey) : Option FolderRecord :=
  db.fmsFolders.rows.find? fun row => row.key = key

/-- The file rows of a folder id. -/
def filesOf (db : MetadataDb) (folderId : ℕ) : List FileRecord :=
  db.fmsFiles.rows.filter fun file => file.folderId = folderId

/-- `fms_folders.update().where(fms_folders.c.id == folder_id)`. The domain is not written. -/
def updateFolder (db : MetadataDb) (folderId : ℕ) (folderMeta : FolderMeta) (now : Datetime) :
    MetadataDb :=
  let folders := db.fmsFolders.updateWhere (fun row => row.id = folderId)
    (folderMeta.updateRow now) fun _ => rfl
  have hids : folders.keys = db.fmsFolders.keys :=
    db.fmsFolders.map_rows_updateWhere _ _ _ fun _ => rfl
  { fmsFolders := folders
    fmsFiles := db.fmsFiles
    nextFolderId := db.nextFolderId
    uqEnvFolderPath := by
      have hkeys : folders.rows.map FolderRecord.key = db.fmsFolders.rows.map FolderRecord.key :=
        db.fmsFolders.map_rows_updateWhere _ _ _ fun _ => rfl
      rw [hkeys]
      exact db.uqEnvFolderPath
    folderExists := fun file hfile => hids ▸ db.folderExists file hfile
    idsBelow := fun id hid => db.idsBelow id (hids ▸ hid) }

/-- The table without the file rows of a folder id. -/
def deleteFiles (db : MetadataDb) (folderId : ℕ) : MetadataDb :=
  { db with
    fmsFiles := db.fmsFiles.deleteWhere fun file => file.folderId = folderId
    folderExists := fun file hfile => db.folderExists file (List.mem_filter.mp hfile).1 }

/-- `fms_folders.insert()`, which takes the next id. -/
def insertFolder (db : MetadataDb) (key : FolderKey) (domain : Str) (folderMeta : FolderMeta)
    (now : Datetime) : Except PyError MetadataDb :=
  match h : db.fmsFolders.insert?
      (fun row => row.key ∉ db.fmsFolders.rows.map FolderRecord.key)
      (folderMeta.newRow now key domain db.nextFolderId) with
  | none => .error .dbError
  | some folders =>
    have hinsert := Table.insert?_eq_some_iff.mp h
    have hids : folders.keys = db.fmsFolders.keys ++ [db.nextFolderId] := by
      rw [Table.keys, hinsert.2, List.map_append]
      rfl
    .ok {
      fmsFolders := folders
      fmsFiles := db.fmsFiles
      nextFolderId := db.nextFolderId + 1
      uqEnvFolderPath := by
        rw [hinsert.2, List.map_append]
        refine db.uqEnvFolderPath.append (List.nodup_singleton _) ?_
        simpa using hinsert.1.1
      folderExists := fun file hfile => by
        rw [hids]
        exact List.mem_append_left _ (db.folderExists file hfile)
      idsBelow := fun id hid => by
        rw [hids, List.mem_append, List.mem_singleton] at hid
        rcases hid with hid | rfl
        · exact Nat.lt_succ_of_lt (db.idsBelow id hid)
        · exact Nat.lt_succ_self _ }

/-- `fms_files.insert()` of a list of rows. -/
def insertFiles (db : MetadataDb) (fileVals : List FileRecord) : Except PyError MetadataDb :=
  match h : db.fmsFiles.insertAll? (fun file => file.folderId ∈ db.fmsFolders.keys) fileVals with
  | none => .error .dbError
  | some files => .ok { db with
      fmsFiles := files
      folderExists := fun file hfile => by
        obtain ⟨⟨hvalid, -⟩, hrows⟩ := Table.insertAll?_eq_some_iff.mp h
        rw [hrows, List.mem_append] at hfile
        rcases hfile with hfile | hfile
        · exact db.folderExists file hfile
        · simpa using hvalid file hfile }

/-- The id of the row of a folder, which is updated or inserted. -/
def upsertFolder (db : MetadataDb) (key : FolderKey) (domain : Str) (folderMeta : FolderMeta)
    (now : Datetime) : Except PyError (ℕ × MetadataDb) :=
  match db.folder? key with
  | some row => .ok (row.id, db.updateFolder row.id folderMeta now)
  | none => (db.insertFolder key domain folderMeta now).map fun db' => (db.nextFolderId, db')

/-- The statements of the transaction. -/
def saveStatements (key : FolderKey) (domain : Str) (folderMeta : FolderMeta)
    (files : List FileMeta) (now : Datetime) (db : MetadataDb) : Except PyError MetadataDb := do
  let (folderId, db) ← db.upsertFolder key domain folderMeta now
  let db := db.deleteFiles folderId
  if files = [] then return db
  else db.insertFiles (files.map (fileRecord folderId))

/-- The save of a crawled folder in one transaction. -/
def saveCrawledFolderMetadata (cm : CaseMap) (env domain path : Str) (folderMeta : FolderMeta)
    (files : List FileMeta) (now : Datetime) (db : MetadataDb) : Except PyError Unit × MetadataDb :=
  atomically (saveStatements ⟨cm.lower env, path⟩ domain folderMeta files now) db

/-! ## What the statements leave -/

/-- The id of the row of a folder after its save. -/
def savedId (db : MetadataDb) (key : FolderKey) : ℕ :=
  ((db.folder? key).map FolderRecord.id).getD db.nextFolderId

/-- The row of a folder after its save. -/
def savedRow (db : MetadataDb) (key : FolderKey) (domain : Str) (folderMeta : FolderMeta)
    (now : Datetime) : FolderRecord :=
  match db.folder? key with
  | some row => folderMeta.updateRow now row
  | none => folderMeta.newRow now key domain db.nextFolderId

/-- A file of the id is in the table, under the row of another folder. -/
def OwnedElsewhere (db : MetadataDb) (key : FolderKey) (fileId : Str) : Prop :=
  ∃ file ∈ db.fmsFiles.rows, file.fileId = fileId ∧
    ∃ folder ∈ db.fmsFolders.rows, folder.id = file.folderId ∧ folder.key ≠ key

/-- What a save leaves in the tables. -/
structure SavesExactly (db db' : MetadataDb) (key : FolderKey) (folderMeta : FolderMeta)
    (files : List FileMeta) (now : Datetime) : Prop where
  /-- The folder has one row, with the given aggregates, and the given files are its files. -/
  folder : ∃ row, db'.fmsFolders.rows.filter (fun other => other.key = key) = [row] ∧
    row.itemCount = folderMeta.itemCount ∧ row.originalBytes = folderMeta.originalBytes ∧
      row.compressedBytes = folderMeta.compressedBytes ∧ row.crawledAt = some now ∧
        db'.filesOf row.id = files.map (fileRecord row.id)
  /-- The rows of the other folders stay. -/
  otherFolders : db'.fmsFolders.rows.filter (fun other => other.key ≠ key) =
    db.fmsFolders.rows.filter fun other => other.key ≠ key
  /-- The files of the other folders stay. -/
  otherFiles : ∀ row ∈ db.fmsFolders.rows, row.key ≠ key → db'.filesOf row.id = db.filesOf row.id

section Statements

variable {db db' : MetadataDb} {key : FolderKey} {domain : Str} {folderMeta : FolderMeta}
  {files : List FileMeta} {now : Datetime}

/-- The row that is found is the row with the key. -/
lemma folder?_eq_some_iff {row : FolderRecord} :
    db.folder? key = some row ↔ row ∈ db.fmsFolders.rows ∧ row.key = key :=
  find?_key_eq_some_iff db.uqEnvFolderPath

/-- No row is found when none has the key. -/
lemma folder?_eq_none_iff : db.folder? key = none ↔ ∀ row ∈ db.fmsFolders.rows, row.key ≠ key := by
  rw [folder?, List.find?_eq_none]
  simp

/-- The saved row has the key. -/
lemma savedRow_key : (db.savedRow key domain folderMeta now).key = key := by
  unfold savedRow
  cases hfolder : db.folder? key with
  | none => rfl
  | some row => exact (folder?_eq_some_iff.mp hfolder).2

/-- The saved row has the id of the key. -/
lemma savedRow_id : (db.savedRow key domain folderMeta now).id = db.savedId key := by
  unfold savedRow savedId
  cases db.folder? key with
  | none => rfl
  | some row => rfl

/-- A row has the id of the saved folder when it is the row of that folder. -/
lemma id_eq_savedId_iff {row : FolderRecord} (hrow : row ∈ db.fmsFolders.rows) :
    row.id = db.savedId key ↔ row.key = key := by
  unfold savedId
  cases hfolder : db.folder? key with
  | none =>
    have hid : row.id < db.nextFolderId := db.idsBelow _ (List.mem_map_of_mem hrow)
    exact iff_of_false hid.ne (folder?_eq_none_iff.mp hfolder row hrow)
  | some row' =>
    obtain ⟨hrow', hkey'⟩ := folder?_eq_some_iff.mp hfolder
    constructor
    · intro hid
      rw [db.fmsFolders.eq_of_key_eq hrow hrow' hid, hkey']
    · intro hkey
      rw [List.inj_on_of_nodup_map db.uqEnvFolderPath hrow hrow' (hkey.trans hkey'.symm)]
      rfl

/-- The folder rows after the row of a folder is updated or inserted. -/
def savedFolders (db : MetadataDb) (key : FolderKey) (domain : Str) (folderMeta : FolderMeta)
    (now : Datetime) : List FolderRecord :=
  match db.folder? key with
  | some row => db.fmsFolders.rows.map fun other =>
      if other.id = row.id then folderMeta.updateRow now other else other
  | none => db.fmsFolders.rows ++ [folderMeta.newRow now key domain db.nextFolderId]

/-- The row of a folder can be updated or inserted in every state. -/
lemma upsertFolder_eq_ok (db : MetadataDb) (key : FolderKey) (domain : Str)
    (folderMeta : FolderMeta) (now : Datetime) :
    ∃ db', db.upsertFolder key domain folderMeta now = .ok (db.savedId key, db') ∧
      db'.fmsFolders.rows = db.savedFolders key domain folderMeta now ∧
      db'.fmsFiles = db.fmsFiles := by
  unfold upsertFolder savedId savedFolders
  cases hfolder : db.folder? key with
  | some row =>
    refine ⟨_, rfl, ?_, rfl⟩
    change (db.fmsFolders.rows.map fun other =>
      if decide (other.id = row.id) = true then folderMeta.updateRow now other else other) = _
    simp only [decide_eq_true_eq]
  | none =>
    -- the id is new because the sequence has not given it out
    have hid : db.nextFolderId ∉ db.fmsFolders.keys := fun h => (db.idsBelow _ h).false
    have hkey : key ∉ db.fmsFolders.rows.map FolderRecord.key := by
      rw [List.mem_map]
      rintro ⟨row, hrow, hkey⟩
      exact folder?_eq_none_iff.mp hfolder row hrow hkey
    obtain ⟨folders, hinsert⟩ : ∃ folders, db.fmsFolders.insert?
        (fun row => row.key ∉ db.fmsFolders.rows.map FolderRecord.key)
        (folderMeta.newRow now key domain db.nextFolderId) = some folders :=
      ⟨_, dif_pos ⟨decide_eq_true hkey, hid⟩⟩
    have hrows := (Table.insert?_eq_some_iff.mp hinsert).2
    dsimp only
    unfold insertFolder
    split
    · rename_i hnone
      rw [hinsert] at hnone
      cases hnone
    · rename_i folders' hsome
      rw [hinsert, Option.some.injEq] at hsome
      exact ⟨_, rfl, hsome ▸ hrows, rfl⟩

/-- Behind the upsert the saved row is the only one with its key, and the others are what they
were. -/
lemma filter_savedFolders : (db.savedFolders key domain folderMeta now).filter
      (fun row => row.key = key) = [db.savedRow key domain folderMeta now] ∧
    (db.savedFolders key domain folderMeta now).filter (fun row => row.key ≠ key) =
      db.fmsFolders.rows.filter fun row => row.key ≠ key := by
  unfold savedFolders savedRow
  cases hfolder : db.folder? key with
  | some row =>
    obtain ⟨hrow, hkey⟩ := folder?_eq_some_iff.mp hfolder
    have hchanged : ∀ other ∈ db.fmsFolders.rows, (other.id = row.id ↔ other.key = key) := by
      intro other hother
      have hsaved : other.id = db.savedId key ↔ other.key = key := id_eq_savedId_iff hother
      rwa [savedId, hfolder] at hsaved
    dsimp only
    set f : FolderRecord → FolderRecord := fun other =>
      if other.id = row.id then folderMeta.updateRow now other else other with hf
    have hfkey : ∀ other, (f other).key = other.key := by
      intro other
      rw [hf]
      dsimp only
      split_ifs <;> rfl
    rw [List.filter_map, List.filter_map]
    simp only [Function.comp_def, hfkey]
    constructor
    · rw [← hkey, filter_eq_singleton db.uqEnvFolderPath hrow, List.map_singleton, hf]
      simp
    · refine (List.map_congr_left fun other hother => ?_).trans (List.map_id _)
      obtain ⟨hmem, hne⟩ := List.mem_filter.mp hother
      rw [hf]
      dsimp only
      rw [if_neg fun hid => absurd ((hchanged other hmem).mp hid) (by simpa using hne)]
      rfl
  | none =>
    have hnone := folder?_eq_none_iff.mp hfolder
    have hnew : (folderMeta.newRow now key domain db.nextFolderId).key = key := rfl
    dsimp only
    rw [List.filter_append, List.filter_append, List.filter_cons_of_pos (by simp [hnew]),
      List.filter_cons_of_neg (by simp [hnew])]
    constructor
    · rw [List.filter_eq_nil_iff.mpr (by simpa using hnone)]
      rfl
    · rw [List.filter_nil, List.append_nil]

/-- The files of other folders are those under another id. -/
lemma ownedElsewhere_iff {fileId : Str} : db.OwnedElsewhere key fileId ↔
    ∃ file ∈ db.fmsFiles.rows, file.fileId = fileId ∧ file.folderId ≠ db.savedId key := by
  constructor
  · rintro ⟨file, hfile, hid, folder, hfolder, howner, hkey⟩
    refine ⟨file, hfile, hid, ?_⟩
    rw [← howner, Ne, id_eq_savedId_iff hfolder]
    exact hkey
  · rintro ⟨file, hfile, hid, hne⟩
    obtain ⟨folder, hfolder, howner⟩ := List.mem_map.mp (db.folderExists file hfile)
    refine ⟨file, hfile, hid, folder, hfolder, howner, ?_⟩
    rwa [← howner, Ne, id_eq_savedId_iff hfolder] at hne

/-- File rows that can be inserted are added behind the others. -/
lemma insertFiles_eq_ok {fileVals : List FileRecord} (h : db.insertFiles fileVals = .ok db') :
    db'.fmsFolders = db.fmsFolders ∧ db'.fmsFiles.rows = db.fmsFiles.rows ++ fileVals := by
  unfold insertFiles at h
  split at h
  · cases h
  · rename_i filesTable hinsert
    cases h
    exact ⟨rfl, (Table.insertAll?_eq_some_iff.mp hinsert).2⟩

/-- A list of file rows is inserted when their folders exist, and their ids are distinct and not
taken. -/
lemma exists_insertFiles_iff {fileVals : List FileRecord} :
    (∃ db', db.insertFiles fileVals = .ok db') ↔
      (∀ file ∈ fileVals, file.folderId ∈ db.fmsFolders.keys) ∧
        (fileVals.map FileRecord.fileId).Nodup ∧
          ∀ file ∈ fileVals, file.fileId ∉ db.fmsFiles.keys := by
  unfold insertFiles
  split
  · rename_i hnone
    have hnot := Table.insertAll?_eq_none_iff.mp hnone
    simp only [decide_eq_true_eq] at hnot
    exact iff_of_false (by simp) hnot
  · rename_i filesTable hinsert
    have hok := (Table.insertAll?_eq_some_iff.mp hinsert).1
    simp only [decide_eq_true_eq] at hok
    exact iff_of_true ⟨_, rfl⟩ hok

/-- The rows that the transaction leaves. -/
lemma rows_of_saveStatements (h : saveStatements key domain folderMeta files now db = .ok db') :
    db'.fmsFolders.rows = db.savedFolders key domain folderMeta now ∧
      db'.fmsFiles.rows = (db.fmsFiles.rows.filter fun file => file.folderId ≠ db.savedId key) ++
        files.map (fileRecord (db.savedId key)) := by
  obtain ⟨db₁, hupsert, hfolders, hfiles⟩ := db.upsertFolder_eq_ok key domain folderMeta now
  have hkept : (db₁.deleteFiles (db.savedId key)).fmsFiles.rows =
      db.fmsFiles.rows.filter fun file => file.folderId ≠ db.savedId key := by
    rw [deleteFiles, Table.rows_deleteWhere, hfiles]
    simp
  unfold saveStatements at h
  rw [hupsert] at h
  change (if files = [] then Except.ok _ else _) = _ at h
  split_ifs at h with hempty
  · cases h
    rw [hempty, List.map_nil, List.append_nil]
    exact ⟨hfolders, hkept⟩
  · obtain ⟨hsame, hrows⟩ := insertFiles_eq_ok h
    rw [hrows, hkept, hsame]
    exact ⟨hfolders, rfl⟩

/-- The transaction is committed when the ids of the files are distinct and belong to no other
folder. -/
lemma exists_saveStatements_iff (db : MetadataDb) (key : FolderKey) (domain : Str)
    (folderMeta : FolderMeta) (files : List FileMeta) (now : Datetime) :
    (∃ db', saveStatements key domain folderMeta files now db = .ok db') ↔
      (files.map FileMeta.fileId).Nodup ∧ ∀ file ∈ files, ¬ db.OwnedElsewhere key file.fileId := by
  obtain ⟨db₁, hupsert, hfolders, hfiles⟩ := db.upsertFolder_eq_ok key domain folderMeta now
  unfold saveStatements
  rw [hupsert]
  change (∃ db', (if files = [] then Except.ok _ else _) = Except.ok db') ↔ _
  split_ifs with hempty
  · rw [hempty]
    exact iff_of_true ⟨_, rfl⟩ ⟨List.nodup_nil, by simp⟩
  · have hid : db.savedId key ∈ (db₁.deleteFiles (db.savedId key)).fmsFolders.keys := by
      have hrow : db.savedRow key domain folderMeta now ∈ db₁.fmsFolders.rows := by
        rw [hfolders]
        exact (List.mem_filter.mp (filter_savedFolders.1 ▸ List.mem_singleton_self _)).1
      exact List.mem_map.mpr ⟨_, hrow, savedRow_id⟩
    have hids : (files.map (fileRecord (db.savedId key))).map FileRecord.fileId =
        files.map FileMeta.fileId := by
      rw [List.map_map]
      rfl
    have hkept : ∀ fileId, fileId ∉ (db₁.deleteFiles (db.savedId key)).fmsFiles.keys ↔
        ¬ db.OwnedElsewhere key fileId := by
      intro fileId
      rw [ownedElsewhere_iff, deleteFiles, Table.keys, Table.rows_deleteWhere, hfiles,
        List.mem_map]
      simp only [List.mem_filter, Bool.not_eq_true', decide_eq_false_iff_not, and_assoc, ne_eq,
        and_comm (a := _ ≠ _)]
    rw [exists_insertFiles_iff, hids, List.forall_mem_map, List.forall_mem_map]
    simp only [fileRecord, hkept]
    exact and_iff_right fun _ _ => hid

/-- The committed statements save the folder exactly. -/
lemma savesExactly_of_saveStatements
    (h : saveStatements key domain folderMeta files now db = .ok db') :
    SavesExactly db db' key folderMeta files now := by
  obtain ⟨hfolders, hfiles⟩ := rows_of_saveStatements h
  have hnew : (files.map (fileRecord (db.savedId key))).filter
      (fun file => file.folderId = db.savedId key) = files.map (fileRecord (db.savedId key)) := by
    rw [List.filter_eq_self]
    intro file hfile
    obtain ⟨given, -, rfl⟩ := List.mem_map.mp hfile
    exact decide_eq_true rfl
  constructor
  · refine ⟨db.savedRow key domain folderMeta now, hfolders ▸ filter_savedFolders.1, ?_⟩
    rw [savedRow_id]
    have hrows : db'.filesOf (db.savedId key) = files.map (fileRecord (db.savedId key)) := by
      rw [filesOf, hfiles, List.filter_append, hnew, List.filter_filter,
        List.filter_eq_nil_iff.mpr (by simp), List.nil_append]
    unfold savedRow
    cases db.folder? key with
    | none => exact ⟨rfl, rfl, rfl, rfl, hrows⟩
    | some row => exact ⟨rfl, rfl, rfl, rfl, hrows⟩
  · rw [hfolders]
    exact filter_savedFolders.2
  · intro row hrow hkey
    have hid : row.id ≠ db.savedId key := fun hid => hkey ((id_eq_savedId_iff hrow).mp hid)
    have hnone : (files.map (fileRecord (db.savedId key))).filter
        (fun file => file.folderId = row.id) = [] := by
      rw [List.filter_eq_nil_iff]
      intro file hfile
      obtain ⟨given, -, rfl⟩ := List.mem_map.mp hfile
      exact fun htrue => hid (of_decide_eq_true htrue).symm
    rw [filesOf, hfiles, List.filter_append, hnone, List.append_nil, List.filter_filter, filesOf]
    refine List.filter_congr fun file _ => ?_
    by_cases hfile : file.folderId = row.id
    · simp [hfile, hid]
    · simp [hfile]

/-- **A save is atomic and exact.** The save of a crawled folder raises when an id occurs twice
among its files, or belongs to a file of another folder, and only then. When it raises, the tables
stay as they are. When it returns, the folder has one row, with the given aggregates and files, and
the rows and files of the other folders stay.

**Proof sketch.** The row of the folder can be updated or inserted in every state. Its old files are
deleted before the new ones are inserted, so the ids that are taken are those of other folders. -/
theorem saveCrawledFolderMetadata_exact (cm : CaseMap) (env domain path : Str)
    (folderMeta : FolderMeta) (files : List FileMeta) (now : Datetime) (db : MetadataDb) :
    let result := saveCrawledFolderMetadata cm env domain path folderMeta files now db
    ((∃ e, result.1 = .error e) ↔ ¬ (files.map FileMeta.fileId).Nodup ∨
      ∃ file ∈ files, db.OwnedElsewhere ⟨cm.lower env, path⟩ file.fileId) ∧
    ((∃ e, result.1 = .error e) → result.2 = db) ∧
    (result.1 = .ok () → SavesExactly db result.2 ⟨cm.lower env, path⟩ folderMeta files now) := by
  dsimp only
  unfold saveCrawledFolderMetadata
  have hiff := exists_saveStatements_iff db ⟨cm.lower env, path⟩ domain folderMeta files now
  cases hrun : saveStatements ⟨cm.lower env, path⟩ domain folderMeta files now db with
  | error e =>
    rw [atomically_of_error hrun]
    refine ⟨iff_of_true ⟨e, rfl⟩ ?_, fun _ => rfl, fun h => by cases h⟩
    by_contra hnot
    push Not at hnot
    obtain ⟨db', hok⟩ := hiff.mpr hnot
    rw [hrun] at hok
    cases hok
  | ok db' =>
    rw [atomically_of_ok hrun]
    obtain ⟨hnodup, howned⟩ := hiff.mp ⟨db', hrun⟩
    refine ⟨iff_of_false (by simp) ?_, fun h => ?_, fun _ => savesExactly_of_saveStatements hrun⟩
    · rintro (hnot | ⟨file, hfile, hother⟩)
      · exact hnot hnodup
      · exact howned file hfile hother
    · obtain ⟨e, he⟩ := h
      cases he

end Statements

/-! ## The tables without the generated ids -/

/-- The key of the folder with an id. -/
def keyOf (db : MetadataDb) (folderId : ℕ) : Option FolderKey :=
  (db.fmsFolders.rows.find? fun row => row.id = folderId).map FolderRecord.key

/-- The catalog row of a folder. -/
def folderEntry (row : FolderRecord) : FolderKey × FolderRow :=
  (row.key, ⟨row.domain, row.itemCount, row.originalBytes, row.compressedBytes, row.crawledAt⟩)

/-- The catalog row of a file under the key of its folder. -/
def fileEntry (key : FolderKey) (file : FileRecord) : Str × FileRow :=
  (file.fileId, ⟨key, file.name, file.originalBytes, file.compressedBytes, file.lastUpdated,
    file.xxhash⟩)

/-- The tables without the generated ids. -/
def catalog (db : MetadataDb) : Catalog where
  folders := ⟨db.fmsFolders.rows.map folderEntry, by
    rw [List.map_map]
    exact db.uqEnvFolderPath⟩
  files := ⟨db.fmsFiles.rows.map fun file =>
    fileEntry ((db.keyOf file.folderId).getD ⟨[], []⟩) file, by
    rw [List.map_map]
    exact db.fmsFiles.nodup⟩

section Catalog

variable {db db' : MetadataDb} {key : FolderKey} {domain : Str} {folderMeta : FolderMeta}
  {files : List FileMeta} {now : Datetime}

/-- The id of a row leads to its key. -/
lemma keyOf_id {row : FolderRecord} (hrow : row ∈ db.fmsFolders.rows) :
    db.keyOf row.id = some row.key := by
  rw [keyOf, (find?_key_eq_some_iff db.fmsFolders.nodup).mpr ⟨hrow, rfl⟩]
  rfl

/-- A transaction that is taken back was refused by the database. -/
lemma eq_dbError_of_saveStatements {e : PyError}
    (h : saveStatements key domain folderMeta files now db = .error e) : e = .dbError := by
  obtain ⟨db₁, hupsert, -, -⟩ := db.upsertFolder_eq_ok key domain folderMeta now
  unfold saveStatements at h
  rw [hupsert] at h
  change (if files = [] then Except.ok _ else _) = _ at h
  split_ifs at h
  unfold insertFiles at h
  split at h
  · cases h
    rfl
  · cases h

/-- The catalog row of a file. -/
def catalogFile (db : MetadataDb) (file : FileRecord) : Str × FileRow :=
  fileEntry ((db.keyOf file.folderId).getD ⟨[], []⟩) file

/-- The files of the saved folder are those under its id. -/
lemma catalogFile_folder_iff {file : FileRecord} (hfile : file ∈ db.fmsFiles.rows) :
    (db.catalogFile file).2.folder = key ↔ file.folderId = db.savedId key := by
  obtain ⟨folder, hfolder, howner⟩ := List.mem_map.mp (db.folderExists file hfile)
  have hkey : (db.catalogFile file).2.folder = folder.key := by
    rw [catalogFile, ← howner, keyOf_id hfolder]
    rfl
  rw [hkey, ← howner, id_eq_savedId_iff hfolder]

/-- The ids that a save finds taken. -/
lemma mem_keys_kept_iff {fileId : Str} :
    fileId ∈ (db.catalog.files.filter fun _ row => row.folder ≠ key).keys ↔
      db.OwnedElsewhere key fileId := by
  rw [ownedElsewhere_iff, Dict.keys, Dict.items_filter, List.mem_map]
  constructor
  · rintro ⟨entry, hentry, rfl⟩
    obtain ⟨hmem, hne⟩ := List.mem_filter.mp hentry
    obtain ⟨file, hfile, rfl⟩ := List.mem_map.mp hmem
    refine ⟨file, hfile, rfl, fun hid => ?_⟩
    exact of_decide_eq_true hne ((catalogFile_folder_iff hfile).mpr hid)
  · rintro ⟨file, hfile, rfl, hne⟩
    refine ⟨db.catalogFile file, List.mem_filter.mpr ⟨List.mem_map_of_mem hfile, ?_⟩, rfl⟩
    exact decide_eq_true fun hkey => hne ((catalogFile_folder_iff hfile).mp hkey)

/-- The folder row that the save of the crawls writes. -/
def savedEntry (folderMeta : FolderMeta) (domain : Str) (now : Datetime) (row : Option FolderRow) :
    FolderRow :=
  ⟨(row.map FolderRow.domain).getD domain, folderMeta.itemCount, folderMeta.originalBytes,
    folderMeta.compressedBytes, some now⟩

/-- An update of the row of a key, among rows with distinct keys. -/
lemma alterItems_map_folderEntry {rows : List FolderRecord} {row : FolderRecord}
    (hnodup : (rows.map FolderRecord.key).Nodup) (hrow : row ∈ rows) :
    Dict.alterItems (savedEntry folderMeta domain now) row.key (rows.map folderEntry) =
      (rows.map fun other => if other.key = row.key then folderMeta.updateRow now other else
        other).map
        folderEntry := by
  induction rows with
  | nil => cases hrow
  | cons other rows ih =>
    rw [List.map_cons, List.nodup_cons] at hnodup
    rw [List.map_cons, List.map_cons, List.map_cons]
    by_cases hkey : other.key = row.key
    · -- the row is here, and no later row has its key
      have hrest : ∀ later ∈ rows, later.key ≠ row.key := fun later hlater hlaterkey =>
        hnodup.1 (hkey.trans hlaterkey.symm ▸ List.mem_map_of_mem hlater)
      have hsame : (rows.map fun other =>
          if other.key = row.key then folderMeta.updateRow now other else other) = rows := by
        refine (List.map_congr_left fun later hlater => ?_).trans (List.map_id _)
        rw [if_neg (hrest later hlater)]
        rfl
      rw [if_pos hkey, hsame]
      exact (if_pos hkey).trans (by rw [← hkey]; rfl)
    · have hmem : row ∈ rows := by
        rcases List.mem_cons.mp hrow with rfl | hmem
        · exact absurd rfl hkey
        · exact hmem
      rw [if_neg hkey, ← ih hnodup.2 hmem]
      exact if_neg hkey

/-- The folder rows of the catalog after the row of a folder is updated or inserted. -/
lemma map_savedFolders : (db.savedFolders key domain folderMeta now).map folderEntry =
    Dict.alterItems (savedEntry folderMeta domain now) key
      (db.fmsFolders.rows.map folderEntry) := by
  unfold savedFolders
  cases hfolder : db.folder? key with
  | some row =>
    obtain ⟨hrow, rfl⟩ := folder?_eq_some_iff.mp hfolder
    rw [alterItems_map_folderEntry db.uqEnvFolderPath hrow]
    refine congrArg (List.map folderEntry) (List.map_congr_left fun other hother => ?_)
    have hsaved : other.id = db.savedId row.key ↔ other.key = row.key := id_eq_savedId_iff hother
    rw [savedId, hfolder] at hsaved
    exact if_congr hsaved rfl rfl
  | none =>
    have hnew : key ∉ (db.fmsFolders.rows.map folderEntry).map Prod.fst := by
      rw [List.map_map, List.mem_map]
      rintro ⟨row, hrow, hkey⟩
      exact folder?_eq_none_iff.mp hfolder row hrow hkey
    rw [Dict.alterItems_of_not_mem _ hnew, List.map_append]
    rfl

/-- A folder keeps its id. -/
lemma keyOf_of_saveStatements (h : saveStatements key domain folderMeta files now db = .ok db')
    {file : FileRecord} (hfile : file ∈ db.fmsFiles.rows)
    (hother : file.folderId ≠ db.savedId key) :
    db'.keyOf file.folderId = db.keyOf file.folderId := by
  obtain ⟨folder, hfolder, howner⟩ := List.mem_map.mp (db.folderExists file hfile)
  have hne : folder.key ≠ key := by
    rwa [← howner, Ne, id_eq_savedId_iff hfolder] at hother
  have hfolder' : folder ∈ db'.fmsFolders.rows := by
    have hmem : folder ∈ db.fmsFolders.rows.filter fun row => row.key ≠ key :=
      List.mem_filter.mpr ⟨hfolder, decide_eq_true hne⟩
    rw [← (savesExactly_of_saveStatements h).otherFolders] at hmem
    exact (List.mem_filter.mp hmem).1
  rw [← howner, keyOf_id hfolder, keyOf_id hfolder']

/-- Behind a save the id of the saved row leads to its key. -/
lemma keyOf_savedId (h : saveStatements key domain folderMeta files now db = .ok db') :
    db'.keyOf (db.savedId key) = some key := by
  have hrow : db.savedRow key domain folderMeta now ∈ db'.fmsFolders.rows := by
    rw [(rows_of_saveStatements h).1]
    exact (List.mem_filter.mp (filter_savedFolders.1 ▸ List.mem_singleton_self _)).1
  rw [← savedRow_id, keyOf_id hrow, savedRow_key]

/-- The file rows of the catalog after a save. -/
lemma catalogFiles_of_saveStatements
    (h : saveStatements key domain folderMeta files now db = .ok db') :
    db'.catalog.files.items =
      (db.catalog.files.filter fun _ row => row.folder ≠ key).items ++ files.map (fileRow key) := by
  have hkept : (db.fmsFiles.rows.filter fun file => file.folderId ≠ db.savedId key).map
      db'.catalogFile = (db.fmsFiles.rows.map db.catalogFile).filter
        fun entry => entry.2.folder ≠ key := by
    rw [List.filter_map]
    have hsame : db.fmsFiles.rows.filter ((fun entry => decide (entry.2.folder ≠ key)) ∘
        db.catalogFile) = db.fmsFiles.rows.filter fun file => file.folderId ≠ db.savedId key := by
      refine List.filter_congr fun file hfile => ?_
      simp only [Function.comp_apply, ne_eq, catalogFile_folder_iff hfile]
    rw [hsame]
    refine List.map_congr_left fun file hfile => ?_
    obtain ⟨hmem, hne⟩ := List.mem_filter.mp hfile
    rw [catalogFile, catalogFile, keyOf_of_saveStatements h hmem (of_decide_eq_true hne)]
  have hnew : (files.map (fileRecord (db.savedId key))).map db'.catalogFile =
      files.map (fileRow key) := by
    rw [List.map_map]
    refine List.map_congr_left fun file _ => ?_
    rw [Function.comp_apply, catalogFile, fileRecord, keyOf_savedId h]
    rfl
  change db'.fmsFiles.rows.map db'.catalogFile = _
  rw [(rows_of_saveStatements h).2, List.map_append, hkept, hnew]
  rfl

/-- **The save on the catalog.** Without the generated ids, the transaction is the save of the full
crawls.

**Proof sketch.** Both are refused for the same lists of files. Otherwise the row of the folder is
changed in its place or appended, the files of the other folders keep their places, and the new
files follow. -/
theorem catalog_saveStatements (db : MetadataDb) (key : FolderKey) (domain folder rootDir : Str)
    (files : List FileMeta) (now : Datetime) :
    (saveStatements key domain (compileFolderMetadata folder files rootDir) files now db).map
      catalog = EntsoePipeline.saveCrawledFolderMetadata now key domain files db.catalog := by
  have hids : (files.map (fileRow key)).map Prod.fst = files.map FileMeta.fileId := by
    rw [List.map_map]
    rfl
  have hcondition : (files.map FileMeta.fileId).Nodup ∧
      (∀ fileId ∈ files.map FileMeta.fileId,
        fileId ∉ (db.catalog.files.filter fun _ row => row.folder ≠ key).keys) ↔
      (files.map FileMeta.fileId).Nodup ∧ ∀ file ∈ files, ¬ db.OwnedElsewhere key file.fileId := by
    simp only [mem_keys_kept_iff, List.forall_mem_map]
  have hiff := exists_saveStatements_iff db key domain (compileFolderMetadata folder files rootDir)
    files now
  unfold EntsoePipeline.saveCrawledFolderMetadata
  dsimp only
  rw [hids]
  cases hrun : saveStatements key domain (compileFolderMetadata folder files rootDir) files now db
    with
  | error e =>
    rw [hrun] at hiff
    rw [if_neg fun hok => by simpa using hiff.mpr (hcondition.mp hok),
      eq_dbError_of_saveStatements hrun]
    rfl
  | ok db' =>
    have hok := hcondition.mpr (hiff.mp ⟨db', hrun⟩)
    obtain ⟨hfolders, hfiles⟩ := rows_of_saveStatements hrun
    rw [if_pos hok]
    have hfoldersCat : db'.catalog.folders = db.catalog.folders.alter key
        (savedEntry (compileFolderMetadata folder files rootDir) domain now) := by
      apply Dict.ext
      change db'.fmsFolders.rows.map folderEntry = _
      rw [hfolders, map_savedFolders]
      rfl
    have hfilesCat : db'.catalog.files =
        (db.catalog.files.filter fun _ row => row.folder ≠ key).setAll
          (files.map (fileRow key)) := by
      apply Dict.ext
      rw [TableFrame.items_setAll (hids ▸ hok.1) (hids ▸ hok.2)]
      exact catalogFiles_of_saveStatements hrun
    exact congrArg Except.ok (congrArg₂ Catalog.mk hfoldersCat hfilesCat)

end Catalog

end MetadataDb

end EntsoePipeline
