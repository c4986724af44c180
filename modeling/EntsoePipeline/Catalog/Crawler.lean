import EntsoePipeline.Config.Classifier
import EntsoePipeline.Fms.Items
import EntsoePipeline.Landing.Layout

set_option relaxedAutoImplicit false
set_option autoImplicit false

/-!
# Full crawls

The full crawls of a domain and of a legacy archive. Each folder is listed, its files are mapped
to records, and the folder row with all its files is saved in one transaction. A folder whose
name has a known extension is a file of the root directory and is looked up in the root listing
instead.

## Main definitions

* `EntsoePipeline.crawlMetadataFolder` — the records of one folder.
* `EntsoePipeline.fetchRootFilesMapping` — the root listing by name, empty on failure.
* `EntsoePipeline.saveCrawledFolderMetadata` — the transaction that saves a folder.
* `EntsoePipeline.ingestDomainMetadata`, `EntsoePipeline.ingestLegacyMetadata` — the two crawls.

## Main results

* `EntsoePipeline.saveCrawledFolderMetadata_ok` — what the transaction writes.
* `EntsoePipeline.ingestFolder_cases` — what a folder step does.
* `EntsoePipeline.get?_folders_ingestFolder` — a folder step writes no other folder row.

## Implementation notes

What the environment contributes to a folder step (the outcome of the listing requests, a failure
of the transaction, the clock) is a `FolderCrawl`. Only the byte counts of the formatted sizes are
kept, since the other two are never read.
-/

namespace EntsoePipeline

open Py

/-! ## One folder -/

/-- The records of a folder: the entry of the root listing for a name with a known extension, and
the recursive listing of the directory otherwise. -/
def crawlMetadataFolder (xxh : Str → Str) (allowedExts : List Str) (folder : Str)
    (rootFilesByName : Dict Str RawItem) (listing : Except PyError (List RawItem)) :
    Except PyError (List FileMeta) :=
  if endsWithAny folder allowedExts then
    match rootFilesByName.get? folder with
    | some rawItem => .ok [mapRawFmsItem xxh rawItem]
    | none => .ok []
  else listing.map fun rawItems => rawItems.map (mapRawFmsItem xxh)

/-- The root listing by name. A failed request and an item without a name both give the empty
mapping. -/
def fetchRootFilesMapping (rootListing : Except PyError (List RawItem)) : Dict Str RawItem :=
  match rootListing with
  | .ok rootRawItems =>
    match rootRawItems.mapM fun item => item.name.map fun name => (name, item) with
    | some pairs => Dict.ofList pairs
    | none => ∅
  | .error _ => ∅

/-- The sum of the uncompressed sizes. -/
def totalOriginalBytes (files : List FileMeta) : ℤ := (files.map FileMeta.originalBytes).sum

/-- The sum of the compressed sizes. -/
def totalCompressedBytes (files : List FileMeta) : ℤ := (files.map FileMeta.compressedBytes).sum

/-- The file row of a record under its folder. -/
def fileRow (key : FolderKey) (file : FileMeta) : Str × FileRow :=
  (file.fileId, ⟨key, file.name, file.originalBytes, file.compressedBytes, file.lastUpdated,
    file.xxhash⟩)

/-- The key of a folder row. -/
def folderKey (cm : CaseMap) (env rootDir folder : Str) : FolderKey :=
  ⟨cm.lower env, folderPath rootDir folder⟩

/-- The transaction that saves a crawled folder: its row gets the new statistics and the current
time, its old files are deleted and the crawled ones inserted. It fails, and writes nothing, when
a file id occurs twice or belongs to a file of another folder. -/
def saveCrawledFolderMetadata (now : Datetime) (key : FolderKey) (domain : Str)
    (files : List FileMeta) (cat : Catalog) : Except PyError Catalog :=
  let folders := cat.folders.alter key fun row =>
    ⟨(row.map FolderRow.domain).getD domain, files.length, totalOriginalBytes files,
      totalCompressedBytes files, some now⟩
  let kept := cat.files.filter fun _ row => row.folder ≠ key
  let fileVals := files.map (fileRow key)
  if (fileVals.map Prod.fst).Nodup ∧ ∀ fileId ∈ fileVals.map Prod.fst, fileId ∉ kept.keys then
    .ok ⟨folders, kept.setAll fileVals⟩
  else .error .dbError

/-- What the environment contributes to a folder step. -/
structure FolderCrawl where
  /-- The outcome of the recursive listing. -/
  listing : Except PyError (List RawItem)
  /-- The transaction fails on the side of the database. -/
  saveFails : Bool
  /-- The clock at the transaction. -/
  now : Datetime

/-- One folder of a full crawl. A failed listing skips the folder; a failed transaction is not
caught and ends the crawl. -/
def ingestFolder (cm : CaseMap) (xxh : Str → Str) (allowedExts : List Str)
    (env rootDir domain : Str)
    (rootFilesByName : Dict Str RawItem) (folder : Str) (io : FolderCrawl) (cat : Catalog) :
    Except PyError Catalog :=
  match crawlMetadataFolder xxh allowedExts folder rootFilesByName io.listing with
  | .error _ => .ok cat
  | .ok files =>
    if io.saveFails then .error .dbError
    else saveCrawledFolderMetadata io.now (folderKey cm env rootDir folder) domain files cat

/-! ## The two crawls -/

/-- The folder steps of a crawl, one after the other, up to the first uncaught failure. -/
def ingestFolders (cm : CaseMap) (xxh : Str → Str) (allowedExts : List Str)
    (env rootDir domain : Str) (rootFilesByName : Dict Str RawItem) :
    List (Str × FolderCrawl) → Catalog → Catalog
  | [], cat => cat
  | (folder, io) :: rest, cat =>
    match ingestFolder cm xxh allowedExts env rootDir domain rootFilesByName folder io cat with
    | .ok cat' => ingestFolders cm xxh allowedExts env rootDir domain rootFilesByName rest cat'
    | .error _ => cat

/-- The full crawl of a domain. -/
def ingestDomainMetadata (cm : CaseMap) (xxh : Str → Str) (allowedExts : List Str)
    (domainName env : Str) (rootListing : Except PyError (List RawItem))
    (folders : List (Str × FolderCrawl)) (cat : Catalog) : Catalog :=
  ingestFolders cm xxh allowedExts env "TP_export".toList domainName
    (fetchRootFilesMapping rootListing) folders cat

/-- The full crawl of a legacy archive. Nothing is crawled for an archive without a rule, and of
the requested folders only those of the archive are. -/
def ingestLegacyMetadata (cm : CaseMap) (xxh : Str → Str) (allowedExts : List Str)
    (config : ClassifierConfig) (archiveName env : Str) (archiveFolders : List Str)
    (rootListing : Except PyError (List RawItem)) (folders : List (Str × FolderCrawl))
    (cat : Catalog) : Catalog :=
  match config.legacyRules.find? fun rule => cm.lower rule.archive = cm.lower archiveName with
  | some _ =>
    ingestFolders cm xxh allowedExts env "TP_Legacy_Publications".toList archiveName
      (fetchRootFilesMapping rootListing)
      (folders.filter fun folder => folder.1 ∈ archiveFolders) cat
  | none => cat

/-! ## The records of a folder -/

section Records

variable {xxh : Str → Str} {allowedExts : List Str} {folder : Str}

/-- The records of a directory are those of its listing. -/
lemma crawlMetadataFolder_of_directory (hdirectory : endsWithAny folder allowedExts = false)
    (rootFilesByName : Dict Str RawItem) (listing : Except PyError (List RawItem)) :
    crawlMetadataFolder xxh allowedExts folder rootFilesByName listing =
      listing.map fun items => items.map (mapRawFmsItem xxh) := by
  unfold crawlMetadataFolder
  rw [if_neg (by simp [hdirectory])]

/-- The records of a name with a known extension are those of its entry. -/
lemma crawlMetadataFolder_of_extension (hext : endsWithAny folder allowedExts = true)
    (rootFilesByName : Dict Str RawItem) (listing : Except PyError (List RawItem)) :
    crawlMetadataFolder xxh allowedExts folder rootFilesByName listing =
      .ok ((rootFilesByName.get? folder).toList.map (mapRawFmsItem xxh)) := by
  unfold crawlMetadataFolder
  rw [if_pos hext]
  cases rootFilesByName.get? folder with
  | none => rfl
  | some item => rfl

/-- A crawled directory has the records of its listing. -/
lemma listing_of_crawlMetadataFolder (hdirectory : endsWithAny folder allowedExts = false)
    {rootFilesByName : Dict Str RawItem} {listing : Except PyError (List RawItem)}
    {files : List FileMeta}
    (h : crawlMetadataFolder xxh allowedExts folder rootFilesByName listing = .ok files) :
    ∃ items, listing = .ok items ∧ files = items.map (mapRawFmsItem xxh) := by
  rw [crawlMetadataFolder_of_directory hdirectory] at h
  cases listing with
  | error e => cases h
  | ok items =>
    cases h
    exact ⟨items, rfl, rfl⟩

end Records

/-! ## The root listing by name -/

/-- Items that all have names are paired with them. -/
lemma mapM_name_of_named {items : List RawItem} (h : ∀ item ∈ items, item.name ≠ none) :
    (items.mapM fun item => item.name.map fun name => (name, item)) =
      some (items.map fun item => (item.itemName, item)) := by
  induction items with
  | nil => rfl
  | cons item items ih =>
    obtain ⟨name, hname⟩ := Option.ne_none_iff_exists'.mp (h item List.mem_cons_self)
    rw [List.mapM_cons, ih fun other hother => h other (List.mem_cons_of_mem _ hother), hname,
      List.map_cons, RawItem.itemName, hname]
    rfl

/-- One item without a name makes the pairing fail. -/
lemma mapM_name_of_unnamed {items : List RawItem} {item : RawItem} (hitem : item ∈ items)
    (h : item.name = none) :
    (items.mapM fun item => item.name.map fun name => (name, item)) = none := by
  induction items with
  | nil => cases hitem
  | cons other items ih =>
    rw [List.mapM_cons]
    rcases List.mem_cons.mp hitem with rfl | hitem
    · rw [h]
      rfl
    · rw [ih hitem]
      cases other.name with
      | none => rfl
      | some name => rfl

/-- When all entries have names, the mapping holds the last entry of each name. -/
lemma fetchRootFilesMapping_of_named {items : List RawItem} (h : ∀ item ∈ items, item.name ≠ none) :
    fetchRootFilesMapping (.ok items) =
      Dict.ofList (items.map fun item => (item.itemName, item)) := by
  rw [fetchRootFilesMapping, mapM_name_of_named h]

/-- An entry without a name empties the mapping. -/
lemma fetchRootFilesMapping_of_unnamed {items : List RawItem} {item : RawItem}
    (hitem : item ∈ items) (h : item.name = none) : fetchRootFilesMapping (.ok items) = ∅ := by
  rw [fetchRootFilesMapping, mapM_name_of_unnamed hitem h]

/-- The mapping is not empty exactly when the root listing succeeded, is not empty and names its
entries. -/
lemma fetchRootFilesMapping_ne_empty_iff {rootListing : Except PyError (List RawItem)} :
    fetchRootFilesMapping rootListing ≠ ∅ ↔
      ∃ items, rootListing = .ok items ∧ items ≠ [] ∧ ∀ item ∈ items, item.name ≠ none := by
  cases rootListing with
  | error e => simp [fetchRootFilesMapping]
  | ok items =>
    simp only [Except.ok.injEq, exists_eq_left']
    by_cases hnamed : ∀ item ∈ items, item.name ≠ none
    · rw [fetchRootFilesMapping_of_named hnamed]
      cases items with
      | nil => exact ⟨fun hne => absurd rfl hne, fun h => absurd rfl h.1⟩
      | cons item items =>
        have hmem : item.itemName ∈ (Dict.ofList ((item :: items).map fun item =>
            (item.itemName, item))).keys :=
          Dict.mem_keys_ofList.mpr (List.mem_cons_self)
        refine ⟨fun _ => ⟨by simp, hnamed⟩, fun _ hempty => ?_⟩
        rw [hempty, Dict.keys_empty] at hmem
        cases hmem
    · refine ⟨fun hne => ?_, fun ⟨_, h⟩ => absurd h hnamed⟩
      push Not at hnamed
      obtain ⟨item, hitem, hnone⟩ := hnamed
      exact absurd (fetchRootFilesMapping_of_unnamed hitem hnone) hne

/-- The entry of a name in the mapping of a root listing. -/
lemma exists_get?_fetchRootFilesMapping_iff {items : List RawItem} {name : Str} :
    (∃ item, (fetchRootFilesMapping (.ok items)).get? name = some item) ↔
      name ∈ items.map RawItem.itemName ∧ ∀ item ∈ items, item.name ≠ none := by
  by_cases hnamed : ∀ item ∈ items, item.name ≠ none
  · rw [fetchRootFilesMapping_of_named hnamed, ← Dict.mem_keys_iff, Dict.mem_keys_ofList,
      List.map_map]
    exact (and_iff_left hnamed).symm
  · refine ⟨fun ⟨item, hget⟩ => ?_, fun h => absurd h.2 hnamed⟩
    push Not at hnamed
    obtain ⟨other, hother, hnone⟩ := hnamed
    rw [fetchRootFilesMapping_of_unnamed hother hnone, Dict.get?_empty] at hget
    cases hget

/-- An entry is found under its own name. -/
lemma itemName_of_get?_fetchRootFilesMapping {items : List RawItem} {name : Str} {item : RawItem}
    (h : (fetchRootFilesMapping (.ok items)).get? name = some item) : item.itemName = name := by
  have hnamed := (exists_get?_fetchRootFilesMapping_iff.mp ⟨item, h⟩).2
  rw [fetchRootFilesMapping_of_named hnamed] at h
  obtain ⟨other, -, heq⟩ := List.mem_map.mp (Dict.mem_of_get?_ofList h)
  cases heq
  rfl

/-! ## What a folder step writes -/

/-- What a successful save writes: the row of the folder, scanned now, and its files. -/
lemma saveCrawledFolderMetadata_ok {now : Datetime} {key : FolderKey} {domain : Str}
    {files : List FileMeta} {cat cat' : Catalog}
    (h : saveCrawledFolderMetadata now key domain files cat = .ok cat') :
    (∃ row, cat'.folders.get? key = some row ∧ row.crawledAt = some now ∧
      row.itemCount = files.length) ∧
    (∀ key', key' ≠ key → cat'.folders.get? key' = cat.folders.get? key') ∧
    (files.map FileMeta.fileId).Nodup ∧
    (∀ file ∈ files, cat'.files.get? file.fileId = some (fileRow key file).2) ∧
    (∀ fileId row, cat'.files.get? fileId = some row → row.folder = key →
      ∃ file ∈ files, (fileId, row) = fileRow key file) := by
  unfold saveCrawledFolderMetadata at h
  dsimp only at h
  split_ifs at h with hok
  cases h
  have hkeys : (files.map (fileRow key)).map Prod.fst = files.map FileMeta.fileId := by
    rw [List.map_map]
    rfl
  have hnodup : (files.map FileMeta.fileId).Nodup := hkeys ▸ hok.1
  refine ⟨⟨_, Dict.get?_alter_self _ _ _, rfl, rfl⟩,
    fun key' hne => Dict.get?_alter_of_ne _ _ hne, hnodup, fun file hfile => ?_,
    fun fileId row hrow hfolder => ?_⟩
  · exact (Dict.get?_setAll_eq_some_iff hok.1).mpr (Or.inl (List.mem_map_of_mem hfile))
  · rcases (Dict.get?_setAll_eq_some_iff hok.1).mp hrow with hmem | ⟨-, hkept⟩
    · obtain ⟨file, hfile, heq⟩ := List.mem_map.mp hmem
      exact ⟨file, hfile, heq.symm⟩
    · rw [Dict.get?_filter, Option.filter_eq_some_iff] at hkept
      exact absurd hfolder (by simpa using hkept.2)

section Step

variable {cm : CaseMap} {xxh : Str → Str} {allowedExts : List Str} {env rootDir domain : Str}
  {rootFilesByName : Dict Str RawItem} {folder : Str} {io : FolderCrawl} {cat cat' : Catalog}

/-- A folder step after which the crawl goes on: the listing failed and nothing was written, or the
files of the folder were saved. -/
lemma ingestFolder_cases
    (h : ingestFolder cm xxh allowedExts env rootDir domain rootFilesByName folder io cat =
      .ok cat') :
    ((∃ e, crawlMetadataFolder xxh allowedExts folder rootFilesByName io.listing = .error e) ∧
      cat' = cat) ∨
    ∃ files, crawlMetadataFolder xxh allowedExts folder rootFilesByName io.listing = .ok files ∧
      io.saveFails = false ∧
        saveCrawledFolderMetadata io.now (folderKey cm env rootDir folder) domain files cat =
          .ok cat' := by
  unfold ingestFolder at h
  cases hcrawl : crawlMetadataFolder xxh allowedExts folder rootFilesByName io.listing with
  | error e =>
    rw [hcrawl] at h
    cases h
    exact Or.inl ⟨⟨e, rfl⟩, rfl⟩
  | ok files =>
    rw [hcrawl] at h
    dsimp only at h
    split_ifs at h with hsave
    exact Or.inr ⟨files, rfl, by simpa using hsave, h⟩

/-- A folder step changes the row of its own folder only. -/
lemma get?_folders_ingestFolder
    (h : ingestFolder cm xxh allowedExts env rootDir domain rootFilesByName folder io cat =
      .ok cat') {key : FolderKey} (hkey : key ≠ folderKey cm env rootDir folder) :
    cat'.folders.get? key = cat.folders.get? key := by
  rcases ingestFolder_cases h with ⟨-, rfl⟩ | ⟨files, -, -, hsave⟩
  · rfl
  · exact (saveCrawledFolderMetadata_ok hsave).2.1 key hkey

end Step

end EntsoePipeline
