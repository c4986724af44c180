import EntsoePipeline.Catalog.Crawler
import EntsoePipeline.Catalog.Freshness
import EntsoePipeline.Landing.Paths

set_option relaxedAutoImplicit false
set_option autoImplicit false

/-!
# The sizes report and the files of a root directory

The sizes report adds up the folder rows of a root directory and lists them as files and as folders.
An entry of a root directory is a file by its extension. The crawl and the sync look for the
configured extensions as they are written; the report looks for a list of its own in lower case.

## Main definitions

* `EntsoePipeline.compileSizesReport` — the sizes report.
* `EntsoePipeline.CrawledAsFile`, `EntsoePipeline.SyncedAsFile`, `EntsoePipeline.SizedAsFile` — how
  the three see an entry.
* `EntsoePipeline.OneNotion` — they see it in the same way.

## Main results

* `EntsoePipeline.compileSizesReport_totals` — the totals are those of the rows under the root.
* `EntsoePipeline.oneNotion_iff` — when the three agree.
* `EntsoePipeline.not_oneNotion_upperCase` — they do not on an extension in capital letters.
-/

namespace EntsoePipeline

open Py

/-! ## The sizes report -/

/-- A folder in the report. -/
structure SizedFolder where
  /-- The path. -/
  name : Str
  /-- The number of files. -/
  filesCount : ℕ
  /-- The size. -/
  rawBytes : ℤ
  deriving DecidableEq

/-- A file in the report. -/
structure SizedFile where
  /-- The path. -/
  name : Str
  /-- The size. -/
  rawBytes : ℤ
  deriving DecidableEq

/-- The sizes report, in exact bytes. -/
structure SizesReport where
  /-- The total size. -/
  totalBytes : ℤ
  /-- The total number of files. -/
  totalFiles : ℕ
  /-- The folders. -/
  folders : List SizedFolder
  /-- The files of the root directory. -/
  files : List SizedFile
  deriving DecidableEq

/-- The extensions that the report knows. -/
def sizesExtensions : List Str :=
  [".csv".toList, ".zip".toList, ".xml".toList, ".xlsx".toList]

/-- `folder_path LIKE '/' || root_dir || '/%'`. -/
def underRoot (rootDir path : Str) : Bool :=
  Like.like (Like.parse sqlSpecials (('/' :: (rootDir ++ ['/'])) ++ ['%'])) path

section Sizes

variable (cm : CaseMap)

/-- The last segment of the path has an extension of a file. -/
def isSizesFile (path : Str) : Bool :=
  match (split '/' (strip '/' path)).getLast? with
  | some leaf => endsWithAny (cm.lower leaf) sizesExtensions
  | none => false

/-- Add a row to the report. -/
def addSizesRow (report : SizesReport) (row : FolderKey × FolderRow) : SizesReport where
  totalBytes := report.totalBytes + row.2.originalBytes
  totalFiles := report.totalFiles + row.2.itemCount
  folders := if isSizesFile cm row.1.folderPath then report.folders
    else report.folders ++ [⟨row.1.folderPath, row.2.itemCount, row.2.originalBytes⟩]
  files := if isSizesFile cm row.1.folderPath
    then report.files ++ [⟨row.1.folderPath.rdropWhile (· == '/'), row.2.originalBytes⟩]
    else report.files

/-- The rows of an environment under a root directory, the largest ones first. -/
def sizesRows (rows : List (FolderKey × FolderRow)) (envName rootDir : Str) :
    List (FolderKey × FolderRow) :=
  (rows.filter fun row => row.1.environment = cm.lower envName ∧
    underRoot rootDir row.1.folderPath).insertionSort fun a b =>
      b.2.originalBytes ≤ a.2.originalBytes

/-- The sizes report of a root directory. -/
def compileSizesReport (rows : List (FolderKey × FolderRow)) (envName rootDir : Str) :
    SizesReport :=
  (sizesRows cm rows envName rootDir).foldl (addSizesRow cm) ⟨0, 0, [], []⟩

end Sizes

section Report

variable {cm : CaseMap}

/-- The totals of a report are the sums over its rows. -/
lemma foldl_addSizesRow (rows : List (FolderKey × FolderRow)) (report : SizesReport) :
    rows.foldl (addSizesRow cm) report =
      { totalBytes := report.totalBytes + (rows.map fun row => row.2.originalBytes).sum
        totalFiles := report.totalFiles + (rows.map fun row => row.2.itemCount).sum
        folders := report.folders ++
          (rows.filter fun row => !isSizesFile cm row.1.folderPath).map fun row =>
            ⟨row.1.folderPath, row.2.itemCount, row.2.originalBytes⟩
        files := report.files ++ (rows.filter fun row => isSizesFile cm row.1.folderPath).map
          fun row => ⟨row.1.folderPath.rdropWhile (· == '/'), row.2.originalBytes⟩ } := by
  induction rows generalizing report with
  | nil => simp
  | cons row rows ih =>
    rw [List.foldl_cons, ih]
    cases hfile : isSizesFile cm row.1.folderPath <;>
      simp [addSizesRow, hfile, add_assoc]

/-- The rows of the report, in the order of the table. -/
lemma perm_sizesRows (rows : List (FolderKey × FolderRow)) (envName rootDir : Str) :
    (sizesRows cm rows envName rootDir).Perm (rows.filter fun row =>
      row.1.environment = cm.lower envName ∧ underRoot rootDir row.1.folderPath) :=
  List.perm_insertionSort _ _

/-- The totals are those of the rows of the root directory. -/
lemma compileSizesReport_totals (rows : List (FolderKey × FolderRow)) (envName rootDir : Str) :
    (compileSizesReport cm rows envName rootDir).totalBytes =
        ((sizesRows cm rows envName rootDir).map fun row => row.2.originalBytes).sum ∧
      (compileSizesReport cm rows envName rootDir).totalFiles =
        ((sizesRows cm rows envName rootDir).map fun row => row.2.itemCount).sum := by
  rw [compileSizesReport, foldl_addSizesRow]
  exact ⟨zero_add _, zero_add _⟩

/-- The files of the report are the rows whose path has an extension of a file, and its folders are
the others. -/
lemma compileSizesReport_entries (rows : List (FolderKey × FolderRow)) (envName rootDir : Str) :
    (compileSizesReport cm rows envName rootDir).files =
        ((sizesRows cm rows envName rootDir).filter fun row =>
          isSizesFile cm row.1.folderPath).map (fun row =>
            ⟨row.1.folderPath.rdropWhile (· == '/'), row.2.originalBytes⟩) ∧
      (compileSizesReport cm rows envName rootDir).folders =
        ((sizesRows cm rows envName rootDir).filter fun row =>
          !isSizesFile cm row.1.folderPath).map (fun row =>
            ⟨row.1.folderPath, row.2.itemCount, row.2.originalBytes⟩) := by
  rw [compileSizesReport, foldl_addSizesRow]
  exact ⟨rfl, rfl⟩

end Report

/-! ## The files of a root directory -/

/-- The crawl takes the entry from the root listing: the listing of a directory of that name does
not matter. -/
def CrawledAsFile (name : Str) : Prop :=
  ∀ xxh rootFilesByName listing listing',
    crawlMetadataFolder xxh fmsExtensions name rootFilesByName listing =
      crawlMetadataFolder xxh fmsExtensions name rootFilesByName listing'

/-- The sync takes the entry from the root listing. -/
def SyncedAsFile (mapping : Mapping) : Prop := (listingOf mapping).only ≠ none

/-- Every row of the entry is listed with the files of the sizes report. -/
def SizedAsFile (cm : CaseMap) (root : RemoteRoot) (name : Str) : Prop :=
  ∀ rows envName row, (⟨cm.lower envName, folderPath root.name name⟩, row) ∈ rows →
    ⟨'/' :: (root.name ++ '/' :: name), row.originalBytes⟩ ∈
      (compileSizesReport cm rows envName root.name).files

/-- Every row of the entry is listed with the folders of the sizes report. -/
def SizedAsFolder (cm : CaseMap) (root : RemoteRoot) (name : Str) : Prop :=
  ∀ rows envName row, (⟨cm.lower envName, folderPath root.name name⟩, row) ∈ rows →
    ⟨folderPath root.name name, row.itemCount, row.originalBytes⟩ ∈
      (compileSizesReport cm rows envName root.name).folders

/-- A mapping of the landing path of an entry: the entry itself under the root of the current
publications, and its path below the archive under the other root. -/
inductive PointsTo (mapping : Mapping) (name : Str) : RemoteRoot → Prop
  | active (htop : mapping.topLevelFolder = RemoteRoot.active.name)
      (hfolder : mapping.activeFolder = name) : PointsTo mapping name .active
  | legacy (htop : mapping.topLevelFolder = RemoteRoot.legacy.name)
      (hpath : (split '/' mapping.remoteFolderPath).getLast? = some name) :
      PointsTo mapping name .legacy

/-- The crawl, the sync and the sizes report take the entry for a file, or all of them for a
folder. -/
def OneNotion (cm : CaseMap) (root : RemoteRoot) (name : Str) : Prop :=
  ∀ mapping, PointsTo mapping name root →
    (CrawledAsFile name ∧ SyncedAsFile mapping ∧ SizedAsFile cm root name) ∨
      (¬ CrawledAsFile name ∧ ¬ SyncedAsFile mapping ∧ SizedAsFolder cm root name)

/-! ### Each of the three -/

section Decisions

variable {cm : CaseMap} {root : RemoteRoot}

/-- The crawl takes a name for a file by its extension. -/
lemma crawledAsFile_iff {name : Str} :
    CrawledAsFile name ↔ endsWithAny name fmsExtensions = true := by
  constructor
  · intro h
    by_contra hext
    rw [Bool.not_eq_true] at hext
    have hlisting := h id ∅ (.ok []) (.error .apiError)
    rw [crawlMetadataFolder_of_directory hext, crawlMetadataFolder_of_directory hext] at hlisting
    cases hlisting
  · intro hext xxh rootFilesByName listing listing'
    rw [crawlMetadataFolder_of_extension hext, crawlMetadataFolder_of_extension hext]

/-- An extension without a character is a suffix behind the last occurrence of it. -/
lemma suffix_of_suffix_append_cons {c : Char} {ext s t : Str} (hc : c ∉ ext)
    (h : ext <:+ s ++ c :: t) : ext <:+ t := by
  rcases List.suffix_or_suffix_of_suffix h (List.suffix_append s (c :: t)) with hsuffix | hsuffix
  · rcases List.suffix_cons_iff.mp hsuffix with rfl | hsuffix
    · exact absurd List.mem_cons_self hc
    · exact hsuffix
  · exact absurd (hsuffix.subset List.mem_cons_self) hc

/-- A path ends with an extension when its last segment does. -/
lemma endsWithAny_getLast? {path leaf : Str} {exts : List Str} (hexts : ∀ ext ∈ exts, '/' ∉ ext)
    (h : (split '/' path).getLast? = some leaf) : endsWithAny path exts =
      endsWithAny leaf exts := by
  obtain ⟨front, hfront⟩ := List.getLast?_eq_some_iff.mp h
  rw [Bool.eq_iff_iff, endsWithAny_iff, endsWithAny_iff]
  refine exists_congr fun ext => and_congr_right fun hext => ?_
  have hpath := join_split '/' path
  rw [hfront] at hpath
  cases front with
  | nil =>
    rw [List.nil_append, join_singleton] at hpath
    rw [hpath]
  | cons first front =>
    rw [join_concat (List.cons_ne_nil _ _)] at hpath
    rw [← hpath]
    exact ⟨suffix_of_suffix_append_cons (hexts ext hext), fun hleaf => hleaf.trans
      ((List.suffix_cons '/' leaf).trans (List.suffix_append _ _))⟩

/-- The sync takes a name for a file by its extension. -/
lemma syncedAsFile_iff {mapping : Mapping} {name : Str} (h : PointsTo mapping name root) :
    SyncedAsFile mapping ↔ endsWithAny name fmsExtensions = true := by
  have hfolder : endsWithAny (remoteFolder mapping) fmsExtensions =
      endsWithAny name fmsExtensions := by
    cases h with
    | active htop hfolder =>
      have hroot : mapping.topLevelFolder = "TP_export".toList := htop
      rw [remoteFolder, if_pos hroot, hfolder]
    | legacy htop hpath =>
      have hroot : mapping.topLevelFolder ≠ "TP_export".toList := by
        rw [htop]
        decide
      rw [remoteFolder, if_neg hroot]
      exact endsWithAny_getLast? (by decide) hpath
  rw [SyncedAsFile, listingOf, hfolder]
  cases endsWithAny name fmsExtensions <;> simp

/-- The report takes a path for a file by the extension of the name in lower case. -/
lemma isSizesFile_folderPath (name : Segment '/') :
    isSizesFile cm (folderPath root.name name.text) =
      endsWithAny (cm.lower name.text) sizesExtensions := by
  rw [isSizesFile, ← root.text_segment, split_strip_folderPath]
  rfl

/-- A path that begins with a root directory is under it. -/
lemma underRoot_of_begins {path : Str} (h : '/' :: (root.name ++ ['/']) <+: path) :
    underRoot root.name path = true := by
  have hescape : '\\' ∉ '/' :: (root.name ++ ['/']) := by
    cases root <;> decide
  rw [underRoot, Like.like_iff]
  exact Like.matches_prefix (by decide) hescape h

/-- The path of a folder is under its root directory. -/
lemma underRoot_folderPath (name : Str) : underRoot root.name (folderPath root.name name) = true :=
  underRoot_of_begins ⟨name ++ ['/'], by simp [folderPath]⟩

/-- A row of an entry is a row of the report. -/
lemma mem_sizesRows {rows : List (FolderKey × FolderRow)} {envName name : Str} {row : FolderRow}
    (h : (⟨cm.lower envName, folderPath root.name name⟩, row) ∈ rows) :
    (⟨cm.lower envName, folderPath root.name name⟩, row) ∈
      sizesRows cm rows envName root.name := by
  rw [(perm_sizesRows rows envName root.name).mem_iff, List.mem_filter]
  exact ⟨h, decide_eq_true ⟨rfl, underRoot_folderPath name⟩⟩

/-- The path of a folder without the slash at its end. -/
lemma rdropWhile_folderPath (name : Segment '/') : (folderPath root.name name.text).rdropWhile
    (· == '/') = '/' :: (root.name ++ '/' :: name.text) := by
  have hlast : name.text.getLast? ≠ some '/' := name.getLast?_ne
  have hpath : folderPath root.name name.text =
      ('/' :: (root.name ++ '/' :: name.text)) ++ ['/'] := by
    simp [folderPath]
  rw [hpath, List.rdropWhile_concat_pos _ _ _ (by simp), List.rdropWhile_eq_self_iff]
  intro hne heq
  refine hlast ?_
  have hlastPath : ('/' :: (root.name ++ '/' :: name.text)).getLast? = some '/' := by
    rw [List.getLast?_eq_some_getLast hne, eq_of_beq heq]
  rw [← List.cons_append, List.getLast?_append_of_ne_nil _ (List.cons_ne_nil _ _),
    List.getLast?_cons_of_ne_nil name.ne_nil] at hlastPath
  exact hlastPath

/-- A table with one row of the entry. -/
def entryRow (cm : CaseMap) (root : RemoteRoot) (name : Str) : FolderKey × FolderRow :=
  (⟨cm.lower [], folderPath root.name name⟩, ⟨[], 0, 0, 0, none⟩)

/-- The report of one row has no other row. -/
lemma eq_of_mem_sizesRows {row row' : FolderKey × FolderRow} {envName rootDir : Str}
    (h : row ∈ sizesRows cm [row'] envName rootDir) : row = row' := by
  rw [(perm_sizesRows _ _ _).mem_iff] at h
  exact List.mem_singleton.mp (List.mem_of_mem_filter h)

/-- The report counts a name as a file by its extension in lower case. -/
lemma sizedAsFile_iff (name : Segment '/') : SizedAsFile cm root name.text ↔
    endsWithAny (cm.lower name.text) sizesExtensions = true := by
  rw [← @isSizesFile_folderPath cm root name]
  constructor
  · intro h
    by_contra hfile
    have hmem := h [entryRow cm root name.text] [] _ (List.mem_singleton_self _)
    rw [(compileSizesReport_entries _ _ _).1] at hmem
    obtain ⟨row, hrow, -⟩ := List.mem_map.mp hmem
    obtain ⟨hrow, hrowFile⟩ := List.mem_filter.mp hrow
    rw [eq_of_mem_sizesRows hrow] at hrowFile
    exact hfile hrowFile
  · intro hfile rows envName row hrow
    rw [(compileSizesReport_entries _ _ _).1]
    refine List.mem_map.mpr ⟨_, List.mem_filter.mpr ⟨mem_sizesRows hrow, hfile⟩, ?_⟩
    rw [rdropWhile_folderPath]

/-- The report counts a name as a folder when the extension is no one of a file. -/
lemma sizedAsFolder_iff (name : Segment '/') : SizedAsFolder cm root name.text ↔
    endsWithAny (cm.lower name.text) sizesExtensions = false := by
  rw [← @isSizesFile_folderPath cm root name]
  constructor
  · intro h
    by_contra hfile
    have hmem := h [entryRow cm root name.text] [] _ (List.mem_singleton_self _)
    rw [(compileSizesReport_entries _ _ _).2] at hmem
    obtain ⟨row, hrow, -⟩ := List.mem_map.mp hmem
    obtain ⟨hrow, hrowFile⟩ := List.mem_filter.mp hrow
    rw [eq_of_mem_sizesRows hrow] at hrowFile
    exact hfile (by simpa [entryRow] using hrowFile)
  · intro hfile rows envName row hrow
    rw [(compileSizesReport_entries _ _ _).2]
    exact List.mem_map.mpr
      ⟨_, List.mem_filter.mpr ⟨mem_sizesRows hrow, by simpa using hfile⟩, rfl⟩

end Decisions

/-! ### The letter case of the extension -/

/-- The conversion to lower case keeps a configured extension at the end of a name. -/
def KeepsExtensions (cm : CaseMap) : Prop :=
  ∀ name, ∀ ext ∈ fmsExtensions, ext <:+ name → ext <:+ cm.lower name

/-- The conversion of ASCII letters keeps the extensions. -/
lemma keepsExtensions_ascii : KeepsExtensions .ascii := by
  intro name ext hext hsuffix
  have hlower : ∀ ext ∈ fmsExtensions, ext.map Char.toLower = ext := by decide
  have hmap := hsuffix.map Char.toLower
  rwa [hlower ext hext] at hmap

/-- The extensions of the crawl are those of the report and one more. -/
lemma mem_fmsExtensions {ext : Str} :
    ext ∈ fmsExtensions ↔ ext ∈ sizesExtensions ∨ ext = ".xls".toList := by
  simp [fmsExtensions, sizesExtensions, or_assoc]

/-- A name has one extension. -/
lemma extension_unique {name ext ext' : Str} (hext : ext ∈ fmsExtensions)
    (hext' : ext' ∈ fmsExtensions) (h : ext <:+ name) (h' : ext' <:+ name) : ext = ext' := by
  have hpair : ∀ ext ∈ fmsExtensions, ∀ ext' ∈ fmsExtensions, ext <:+ ext' → ext = ext' := by
    decide
  rcases List.suffix_or_suffix_of_suffix h h' with hsuffix | hsuffix
  · exact hpair ext hext ext' hext' hsuffix
  · exact (hpair ext' hext' ext hext hsuffix).symm

section Notion

variable {cm : CaseMap} {root : RemoteRoot}

/-- Every name has a mapping that points to it. -/
lemma exists_pointsTo (name : Segment '/') : ∃ mapping, PointsTo mapping name.text root := by
  have hsplit : split '/' name.text = [name.text] := split_of_not_mem name.sep_not_mem
  cases root with
  | active =>
    exact ⟨⟨[], name.text, RemoteRoot.active.name, name.text, .null⟩, .active rfl rfl⟩
  | legacy =>
    exact ⟨⟨[], name.text, RemoteRoot.legacy.name, name.text, .null⟩,
      .legacy rfl (by rw [hsplit]; rfl)⟩

/-- The notions agree exactly when the two decisions by extensions do. -/
lemma oneNotion_iff_decisions (name : Segment '/') : OneNotion cm root name.text ↔
    endsWithAny name.text fmsExtensions = endsWithAny (cm.lower name.text) sizesExtensions := by
  constructor
  · intro h
    obtain ⟨mapping, hmapping⟩ := @exists_pointsTo root name
    rcases h mapping hmapping with ⟨hcrawl, -, hsizes⟩ | ⟨hcrawl, -, hsizes⟩
    · rw [crawledAsFile_iff.mp hcrawl, (sizedAsFile_iff name).mp hsizes]
    · rw [crawledAsFile_iff, Bool.not_eq_true] at hcrawl
      rw [hcrawl, (sizedAsFolder_iff name).mp hsizes]
  · intro h mapping hmapping
    rw [crawledAsFile_iff, syncedAsFile_iff hmapping, sizedAsFile_iff, sizedAsFolder_iff, ← h]
    cases endsWithAny name.text fmsExtensions <;> simp

/-- The crawl, the sync and the sizes report see an entry of a root directory in the same way
exactly when its name does not end with `.xls`, and an extension that the report knows is written
in small letters. -/
theorem oneNotion_iff (hlower : KeepsExtensions cm) (name : Segment '/') :
    OneNotion cm root name.text ↔ ¬ ".xls".toList <:+ name.text ∧
      ∀ ext ∈ sizesExtensions, ext <:+ cm.lower name.text → ext <:+ name.text := by
  have hsub : ∀ ext ∈ sizesExtensions, ext ∈ fmsExtensions := fun ext hext =>
    mem_fmsExtensions.mpr (.inl hext)
  rw [oneNotion_iff_decisions, Bool.eq_iff_iff, endsWithAny_iff, endsWithAny_iff]
  constructor
  · intro h
    refine ⟨fun hxls => ?_, fun ext hext hsuffix => ?_⟩
    · obtain ⟨ext, hext, hsuffix⟩ := h.mp ⟨_, mem_fmsExtensions.mpr (.inr rfl), hxls⟩
      have hxls' := hlower _ _ (mem_fmsExtensions.mpr (.inr rfl)) hxls
      have heq := extension_unique (hsub ext hext) (mem_fmsExtensions.mpr (.inr rfl)) hsuffix hxls'
      rw [heq] at hext
      exact absurd hext (by decide)
    · obtain ⟨written, hwritten, hname⟩ := h.mpr ⟨ext, hext, hsuffix⟩
      have hwritten' := hlower _ _ hwritten hname
      rwa [extension_unique (hsub ext hext) hwritten hsuffix hwritten']
  · rintro ⟨hxls, hsmall⟩
    constructor
    · rintro ⟨ext, hext, hsuffix⟩
      rcases mem_fmsExtensions.mp hext with hsizes | rfl
      · exact ⟨ext, hsizes, hlower _ _ hext hsuffix⟩
      · exact absurd hsuffix hxls
    · rintro ⟨ext, hext, hsuffix⟩
      exact ⟨ext, hsub ext hext, hsmall ext hext hsuffix⟩

end Notion

/-- A file with its extension in small letters. -/
def logFile : Segment '/' := ⟨"Export_log.csv".toList, by decide, by decide⟩

/-- A file with its extension in capital letters. -/
def upperCaseFile : Segment '/' := ⟨"Export_log.CSV".toList, by decide, by decide⟩

/-- A spreadsheet of the older format. -/
def spreadsheetFile : Segment '/' := ⟨"Export_log.xls".toList, by decide, by decide⟩

/-- A file with its extension in small letters is a file for all three. -/
theorem oneNotion_logFile : OneNotion .ascii .active logFile.text :=
  (oneNotion_iff keepsExtensions_ascii logFile).mpr (by decide +kernel)

/-- The report lists a name in capital letters with its files, where the crawl and the sync look for
a folder; and it lists an older spreadsheet with its folders, where they look for a file. -/
theorem not_oneNotion_upperCase : ¬ OneNotion .ascii .active upperCaseFile.text ∧
    ¬ OneNotion .ascii .active spreadsheetFile.text := by
  rw [oneNotion_iff_decisions, oneNotion_iff_decisions]
  decide +kernel

end EntsoePipeline
