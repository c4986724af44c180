import EntsoePipeline.Catalog.FolderSave
import EntsoePipeline.Fms.Tree

set_option relaxedAutoImplicit false
set_option autoImplicit false

/-!
# Folders that get another domain

A folder that is classified anew is crawled under its new domain. The save of a folder that is not
in the catalog writes the domain into its row; the save of a folder that is there does not, so the
folder keeps its old domain, and with it its old path in the landing bucket.

## Main definitions

* `EntsoePipeline.MetadataDb.content` — what the tables say of a folder, but for the generated id
  and the scan time.
* `EntsoePipeline.MetadataDb.keptDomain` — the domain of a folder after its save.
* `EntsoePipeline.MetadataDb.landingOf` — the path of a folder in the landing bucket.

## Main results

* `EntsoePipeline.MetadataDb.mem_keys_build_iff` — the landing schema has the paths of the folders.
* `EntsoePipeline.MetadataDb.historyIndependent_iff` — when a save does not depend on the history.
* `EntsoePipeline.MetadataDb.not_historyIndependent_moved` — a folder that keeps its old domain.
-/

namespace EntsoePipeline

open Py KeyedTable

/-- What the tables say of a folder, but for the generated id and the scan time. -/
structure FolderContent where
  /-- The data domain or the legacy archive. -/
  domain : Str
  /-- The number of files of the folder. -/
  itemCount : ℕ
  /-- The uncompressed size of its files. -/
  originalBytes : ℤ
  /-- The compressed size of its files. -/
  compressedBytes : ℤ
  /-- The files. -/
  files : List FileMeta
  deriving DecidableEq

/-- The record of a file row, which does not have the id of its folder. -/
def FileRecord.toMeta (file : FileRecord) : FileMeta :=
  ⟨file.name, file.fileId, file.originalBytes, file.compressedBytes, file.lastUpdated, file.xxhash⟩

/-- The landing path of a folder under a domain. -/
def landingPath (cm : CaseMap) (env : Str) (root : Segment '/') (domain : Str)
    (folder : Segment '/') : Str :=
  join ['/'] [cm.lower env, root.text, domain, folder.text]

namespace MetadataDb

/-- What the tables say of a folder. -/
def content (db : MetadataDb) (key : FolderKey) : Option FolderContent :=
  (db.folder? key).map fun row => ⟨row.domain, row.itemCount, row.originalBytes,
    row.compressedBytes, (db.filesOf row.id).map FileRecord.toMeta⟩

/-- The domain of the row of a folder after its save under a domain. -/
def keptDomain (db : MetadataDb) (key : FolderKey) (domain : Str) : Str :=
  ((db.folder? key).map FolderRecord.domain).getD domain

/-- The path of a folder in the landing bucket. -/
def landingOf (cm : CaseMap) (db : MetadataDb) (key : FolderKey) : Option Str :=
  (db.folder? key).bind fun row =>
    (layoutFolder cm key.environment row.domain key.folderPath).map Prod.fst

/-! ## What a save leaves of a folder -/

section Content

variable {cm : CaseMap} {db db' : MetadataDb} {key : FolderKey} {domain : Str}
  {folderMeta : FolderMeta} {files : List FileMeta} {now : Datetime}

/-- Behind a save the row of the folder is the saved one. -/
lemma folder?_of_saveStatements (h : saveStatements key domain folderMeta files now db = .ok db') :
    db'.folder? key = some (db.savedRow key domain folderMeta now) := by
  rw [folder?, ← List.head?_filter, (rows_of_saveStatements h).1, filter_savedFolders.1,
    List.head?_cons]

/-- Behind a save the rows of other folders are what they were. -/
lemma folder?_of_saveStatements_of_ne
    (h : saveStatements key domain folderMeta files now db = .ok db') {other : FolderKey}
    (hother : other ≠ key) : db'.folder? other = db.folder? other := by
  have hrow : ∀ row : FolderRecord, row.key = other →
      (row ∈ db'.fmsFolders.rows ↔ row ∈ db.fmsFolders.rows) := by
    intro row hrow
    have hne : decide (row.key ≠ key) = true := decide_eq_true (hrow ▸ hother)
    have hmem : row ∈ db'.fmsFolders.rows.filter (fun row => row.key ≠ key) ↔
        row ∈ db.fmsFolders.rows.filter (fun row => row.key ≠ key) := by
      rw [(savesExactly_of_saveStatements h).otherFolders]
    rwa [List.mem_filter, List.mem_filter, and_iff_left hne, and_iff_left hne] at hmem
  rw [Option.ext_iff]
  intro row
  rw [folder?_eq_some_iff, folder?_eq_some_iff]
  exact and_congr_left fun hkey => hrow row hkey

/-- The saved row has the domain that an existing row keeps. -/
lemma domain_savedRow : (db.savedRow key domain folderMeta now).domain =
    db.keptDomain key domain := by
  unfold savedRow keptDomain
  cases db.folder? key with
  | none => rfl
  | some row => rfl

/-- A save leaves the given aggregates and files, and the domain of the row that was there. -/
lemma content_of_saveStatements (h : saveStatements key domain folderMeta files now db = .ok db') :
    db'.content key = some ⟨db.keptDomain key domain, folderMeta.itemCount,
      folderMeta.originalBytes, folderMeta.compressedBytes, files⟩ := by
  obtain ⟨row, hrows, hcount, horiginal, hcompressed, -, hfiles⟩ :=
    (savesExactly_of_saveStatements h).folder
  have hrow : db.savedRow key domain folderMeta now = row := by
    rw [(rows_of_saveStatements h).1, filter_savedFolders.1] at hrows
    exact (List.cons.inj hrows).1
  have hmeta : (files.map (fileRecord row.id)).map FileRecord.toMeta = files := by
    rw [List.map_map]
    exact List.map_id files
  rw [content, folder?_of_saveStatements h, Option.map_some, hrow, hcount, horiginal, hcompressed,
    hfiles, hmeta, ← hrow, domain_savedRow]

/-- After a save the folder lands under the domain of its row. -/
lemma landingOf_of_saveStatements {env : Str} {root folder : Segment '/'}
    (h : saveStatements ⟨cm.lower env, folderPath root.text folder.text⟩ domain folderMeta files now
      db = .ok db') :
    db'.landingOf cm ⟨cm.lower env, folderPath root.text folder.text⟩ =
      some (landingPath cm env root
        (db.keptDomain ⟨cm.lower env, folderPath root.text folder.text⟩ domain) folder) := by
  rw [landingOf, folder?_of_saveStatements h, Option.bind_some, layoutFolder_folderPath,
    domain_savedRow, cm.lower_lower]
  rfl

/-- The other folders land where they did. -/
lemma landingOf_of_saveStatements_of_ne
    (h : saveStatements key domain folderMeta files now db = .ok db') {other : FolderKey}
    (hother : other ≠ key) : db'.landingOf cm other = db.landingOf cm other := by
  rw [landingOf, landingOf, folder?_of_saveStatements_of_ne h hother]

/-- The landing path of a folder determines its domain. -/
lemma landingPath_injective {env : Str} {root folder : Segment '/'} {d d' : Str}
    (h : landingPath cm env root d folder = landingPath cm env root d' folder) : d = d' := by
  have hpath : ∀ d, landingPath cm env root d folder =
      cm.lower env ++ '/' :: (root.text ++ '/' :: (d ++ '/' :: folder.text)) := by
    intro d
    simp [landingPath, join_cons]
  rw [hpath, hpath] at h
  have hroot := (List.cons.inj (List.append_cancel_left h)).2
  exact List.append_cancel_right (List.cons.inj (List.append_cancel_left hroot)).2

end Content

/-! ## The landing schema -/

section Schema

variable {cm : CaseMap} {db : MetadataDb} {key : FolderKey}

/-- The folder rows of the catalog are those of the tables. -/
lemma get?_catalog_folders :
    db.catalog.folders.get? key = (db.folder? key).map fun row => (folderEntry row).2 := by
  rw [Option.ext_iff]
  intro row
  rw [← Dict.mem_items_iff, Option.map_eq_some_iff]
  change (key, row) ∈ db.fmsFolders.rows.map folderEntry ↔ _
  simp only [List.mem_map, folder?_eq_some_iff]
  constructor
  · rintro ⟨record, hrecord, heq⟩
    exact ⟨record, ⟨hrecord, congrArg Prod.fst heq⟩, congrArg Prod.snd heq⟩
  · rintro ⟨record, ⟨hrecord, hkey⟩, heq⟩
    exact ⟨record, hrecord, Prod.ext hkey heq⟩

/-- The paths of the folders, from the rows of the catalog. -/
lemma landingOf_eq_some_iff {path : Str} : db.landingOf cm key = some path ↔
    ∃ row landing, db.catalog.folders.get? key = some row ∧
      layoutFolder cm key.environment row.domain key.folderPath = some (path, landing) := by
  rw [get?_catalog_folders, landingOf]
  cases db.folder? key with
  | none => simp
  | some row => simp [folderEntry]

/-- **The landing schema.** When some folder has a path in the landing bucket, the paths of the
schema are those of the folders. -/
lemma mem_keys_build_iff {old : Dict Str LandingFolder}
    (husable : ∃ key path, db.landingOf cm key = some path) {path : Str} :
    path ∈ (buildLandingBucketSchema cm db.catalog old).keys ↔
      ∃ key, db.landingOf cm key = some path := by
  have hlist : ∀ path landing, (path, landing) ∈ db.catalog.folders.items.filterMap (fun row =>
      layoutFolder cm row.1.environment row.2.domain row.1.folderPath) ↔
        ∃ key row, db.catalog.folders.get? key = some row ∧
          layoutFolder cm key.environment row.domain key.folderPath = some (path, landing) := by
    intro path landing
    simp only [List.mem_filterMap, Prod.exists, Dict.mem_items_iff]
  simp only [landingOf_eq_some_iff] at husable ⊢
  obtain ⟨key, path', row, landing, hrow, hlayout⟩ := husable
  have hne := List.ne_nil_of_mem ((hlist path' landing).mpr ⟨key, row, hrow, hlayout⟩)
  unfold buildLandingBucketSchema
  dsimp only
  rw [if_neg hne, Dict.mem_keys_ofList, List.mem_map]
  constructor
  · rintro ⟨⟨_, landing⟩, hmem, rfl⟩
    obtain ⟨key, row, hrow, hlayout⟩ := (hlist _ landing).mp hmem
    exact ⟨key, row, landing, hrow, hlayout⟩
  · rintro ⟨key, row, landing, hrow, hlayout⟩
    exact ⟨(path, landing), (hlist path landing).mpr ⟨key, row, hrow, hlayout⟩, rfl⟩

end Schema

/-! ## Two histories -/

section Histories

variable {cm : CaseMap} {env domain path : Str} {folderMeta : FolderMeta} {files : List FileMeta}

/-- A save that succeeds has carried out its statements. -/
lemma saveStatements_of_fst_eq_ok {db : MetadataDb} {now : Datetime}
    (h : (saveCrawledFolderMetadata cm env domain path folderMeta files now db).1 = .ok ()) :
    saveStatements ⟨cm.lower env, path⟩ domain folderMeta files now db =
      .ok (saveCrawledFolderMetadata cm env domain path folderMeta files now db).2 := by
  unfold saveCrawledFolderMetadata at h ⊢
  cases hrun : saveStatements ⟨cm.lower env, path⟩ domain folderMeta files now db with
  | error e =>
    rw [atomically_of_error hrun] at h
    cases h
  | ok db' => rw [atomically_of_ok hrun]

/-- After the save of a folder the paths of the schema are its own and those that other folders had
before. -/
lemma mem_keys_build_of_saveStatements {db db' : MetadataDb} {now : Datetime}
    {root folder : Segment '/'}
    (h : saveStatements ⟨cm.lower env, folderPath root.text folder.text⟩ domain folderMeta files now
      db = .ok db') (old : Dict Str LandingFolder) (s3Path : Str) :
    s3Path ∈ (buildLandingBucketSchema cm db'.catalog old).keys ↔
      db'.landingOf cm ⟨cm.lower env, folderPath root.text folder.text⟩ = some s3Path ∨
        ∃ other, other ≠ ⟨cm.lower env, folderPath root.text folder.text⟩ ∧
          db.landingOf cm other = some s3Path := by
  have husable : ∃ key path, db'.landingOf cm key = some path :=
    ⟨_, _, landingOf_of_saveStatements h⟩
  rw [mem_keys_build_iff husable]
  constructor
  · rintro ⟨other, hlands⟩
    by_cases hne : other = ⟨cm.lower env, folderPath root.text folder.text⟩
    · exact Or.inl (hne ▸ hlands)
    · exact Or.inr ⟨other, hne, (landingOf_of_saveStatements_of_ne h hne).symm.trans hlands⟩
  · rintro (hlands | ⟨other, hne, hlands⟩)
    · exact ⟨_, hlands⟩
    · exact ⟨other, (landingOf_of_saveStatements_of_ne h hne).trans hlands⟩

/-- **Saves and histories.** Two saves with the same arguments, in two states and at two times,
leave the same folder exactly when the row that the folder has in each state keeps the same domain;
and a folder lands under the new domain exactly when that is the domain its row keeps.

**Proof sketch.** A save writes everything but the domain of a row that is there. The landing path
determines the domain. -/
theorem historyIndependent_iff {db₁ db₂ : MetadataDb} {now₁ now₂ : Datetime}
    (h₁ : (saveCrawledFolderMetadata cm env domain path folderMeta files now₁ db₁).1 = .ok ())
    (h₂ : (saveCrawledFolderMetadata cm env domain path folderMeta files now₂ db₂).1 = .ok ()) :
    let db₁' := (saveCrawledFolderMetadata cm env domain path folderMeta files now₁ db₁).2
    let db₂' := (saveCrawledFolderMetadata cm env domain path folderMeta files now₂ db₂).2
    let key : FolderKey := ⟨cm.lower env, path⟩
    (db₁'.content key = db₂'.content key ↔
      db₁.keptDomain key domain = db₂.keptDomain key domain) ∧
    ∀ root folder : Segment '/', path = folderPath root.text folder.text →
      (db₁'.landingOf cm key = some (landingPath cm env root domain folder) ↔
        db₁.keptDomain key domain = domain) ∧
      ∀ old s3Path, s3Path ∈ (buildLandingBucketSchema cm db₁'.catalog old).keys ↔
        db₁'.landingOf cm key = some s3Path ∨
          ∃ other, other ≠ key ∧ db₁.landingOf cm other = some s3Path := by
  intro db₁' db₂' key
  have hsave₁ := saveStatements_of_fst_eq_ok h₁
  have hsave₂ := saveStatements_of_fst_eq_ok h₂
  refine ⟨?_, fun root folder hpath => ⟨?_, fun old s3Path => ?_⟩⟩
  · rw [content_of_saveStatements hsave₁, content_of_saveStatements hsave₂, Option.some.injEq,
      FolderContent.mk.injEq]
    exact and_iff_left ⟨rfl, rfl, rfl, rfl⟩
  · subst hpath
    rw [landingOf_of_saveStatements hsave₁, Option.some.injEq]
    exact ⟨landingPath_injective, fun hkept => by rw [hkept]⟩
  · subst hpath
    exact mem_keys_build_of_saveStatements hsave₁ old s3Path

end Histories

/-! ## A folder that is classified anew -/

/-- The tables of a fresh database. -/
def empty : MetadataDb :=
  ⟨.empty, .empty, 0, List.nodup_nil, fun _ h => absurd h List.not_mem_nil,
    fun _ h => absurd h List.not_mem_nil⟩

/-- The directory of a publication. -/
def pricesFolder : Segment '/' := ⟨"EnergyPrices_12.1.D_r3".toList, by decide, by decide⟩

/-- The tables with the folder of a publication under a domain, with a file that is no longer there,
and with another folder. -/
def catalogued (domain : Str) : MetadataDb where
  fmsFolders := ⟨[
    ⟨0, "iop".toList, domain, folderPath tpExport.text pricesFolder.text, 1, 3, 2, none⟩,
    ⟨1, "iop".toList, "Load".toList, folderPath tpExport.text "Load_r3".toList, 1, 5, 4, none⟩],
    by simp⟩
  fmsFiles := ⟨[⟨"old".toList, 0, "2026_01.csv".toList, 3, 2, "jan".toList, "o".toList⟩,
    ⟨"load".toList, 1, "2026_04.csv".toList, 5, 4, "apr".toList, "l".toList⟩], by decide⟩
  nextFolderId := 2
  uqEnvFolderPath := by
    have hne : folderPath tpExport.text pricesFolder.text ≠
        folderPath tpExport.text "Load_r3".toList := by decide
    simpa [FolderRecord.key] using hne
  folderExists := by simp [Table.keys]
  idsBelow := by simp [Table.keys]

/-- The files of the folder. -/
def pricesFiles : List FileMeta :=
  [⟨"2026_03.csv".toList, "march".toList, 7, 6, "mar".toList, "m".toList⟩,
    ⟨"2026_04.csv".toList, "april".toList, 9, 8, "apr".toList, "a".toList⟩]

/-- The folder is crawled for the domain `Market`, and two files are found. -/
def crawlForMarket (db : MetadataDb) : Except PyError Unit × MetadataDb :=
  saveCrawledFolderMetadata .ascii "iop".toList "Market".toList
    (folderPath tpExport.text pricesFolder.text)
    (compileFolderMetadata pricesFolder.text pricesFiles tpExport.text) pricesFiles (.utc 0) db

/-- The key of the folder. -/
def pricesKey : FolderKey := ⟨"iop".toList, folderPath tpExport.text pricesFolder.text⟩

/-- A folder that was catalogued under the same domain is left as a new one. -/
theorem historyIndependent_sameDomain :
    (crawlForMarket (catalogued "Market".toList)).2.content pricesKey =
      (crawlForMarket empty).2.content pricesKey :=
  (historyIndependent_iff (by decide : (crawlForMarket (catalogued "Market".toList)).1 = .ok ())
    (by decide : (crawlForMarket empty).1 = .ok ())).1.mpr (by decide)

/-- A folder that was catalogued under the domain `Load` keeps it, and its path in the landing
bucket. -/
theorem not_historyIndependent_moved :
    (crawlForMarket (catalogued "Load".toList)).1 = .ok () ∧ (crawlForMarket empty).1 = .ok () ∧
      (crawlForMarket (catalogued "Load".toList)).2.content pricesKey ≠
        (crawlForMarket empty).2.content pricesKey ∧
      landingPath .ascii "iop".toList tpExport "Market".toList pricesFolder ∉
        (buildLandingBucketSchema .ascii (crawlForMarket (catalogued "Load".toList)).2.catalog
          ∅).keys ∧
      landingPath .ascii "iop".toList tpExport "Load".toList pricesFolder ∈
        (buildLandingBucketSchema .ascii (crawlForMarket (catalogued "Load".toList)).2.catalog
          ∅).keys := by
  decide +kernel

end MetadataDb

end EntsoePipeline
