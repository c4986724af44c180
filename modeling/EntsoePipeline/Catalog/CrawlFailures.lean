import EntsoePipeline.Catalog.Crawler
import EntsoePipeline.Lib.Failstop

set_option relaxedAutoImplicit false
set_option autoImplicit false

/-!
# Failures in a full crawl

A full crawl skips a folder whose listing fails. A transaction that raises is not caught: it ends
the crawl, and the folders behind it are not crawled. A failed listing of the root directory is
turned into an empty mapping, so the files of the root directory are saved as folders without files.

## Main definitions

* `EntsoePipeline.CrawlContext` — what the folder steps of a crawl share.
* `EntsoePipeline.CrawlContext.run` — the loop over the folders, with the exception that ends it.
* `EntsoePipeline.CrawlContext.SaveRaises` — the transaction of a folder raises.
* `EntsoePipeline.CrawlContext.Isolated` — the crawl returns and persists every folder that does not
  fail.
* `EntsoePipeline.CrawlContext.KeepsRootFiles` — the files of the root directory are left alone.

## Main results

* `EntsoePipeline.CrawlContext.snd_run` — the loop leaves the catalog of `ingestFolders`.
* `EntsoePipeline.crawls_isolated_iff` — when the two crawls isolate failures.
* `EntsoePipeline.crawls_keepRootFiles_iff` — when a failed root listing changes nothing.
-/

namespace EntsoePipeline

open Py

/-! ## The loop -/

/-- What the folder steps of a crawl share. -/
structure CrawlContext where
  /-- The letter case conversions. -/
  cm : CaseMap
  /-- The digest. -/
  xxh : Str → Str
  /-- The known extensions. -/
  allowedExts : List Str
  /-- The environment. -/
  env : Str
  /-- The root directory. -/
  rootDir : Str
  /-- The data domain or the legacy archive. -/
  domain : Str
  /-- The root listing by name. -/
  rootFilesByName : Dict Str RawItem

/-- A pass raised. -/
def raised : Except PyError Unit → Bool
  | .ok _ => false
  | .error _ => true

namespace CrawlContext

section Loop

variable (ctx : CrawlContext)

/-- The key of a folder. -/
def key (folder : Str) : FolderKey := folderKey ctx.cm ctx.env ctx.rootDir folder

/-- The records of a folder. -/
def crawl (item : Str × FolderCrawl) : Except PyError (List FileMeta) :=
  crawlMetadataFolder ctx.xxh ctx.allowedExts item.1 ctx.rootFilesByName item.2.listing

/-- A pass of the loop. -/
def pass (item : Str × FolderCrawl) (cat : Catalog) : Except PyError Unit × Catalog :=
  match ingestFolder ctx.cm ctx.xxh ctx.allowedExts ctx.env ctx.rootDir ctx.domain
      ctx.rootFilesByName item.1 item.2 cat with
  | .ok cat' => (.ok (), cat')
  | .error e => (.error e, cat)

/-- The loop over the folders, up to the first exception. -/
def run : List (Str × FolderCrawl) → Catalog → Except PyError Unit × Catalog
  | [], cat => (.ok (), cat)
  | item :: items, cat =>
    match ctx.pass item cat with
    | (.ok _, cat') => run items cat'
    | (.error e, cat') => (.error e, cat')

/-- The loop leaves the catalog of the crawl. -/
lemma snd_run (items : List (Str × FolderCrawl)) (cat : Catalog) :
    (ctx.run items cat).2 = ingestFolders ctx.cm ctx.xxh ctx.allowedExts ctx.env ctx.rootDir
      ctx.domain ctx.rootFilesByName items cat := by
  induction items generalizing cat with
  | nil => rfl
  | cons item items ih =>
    obtain ⟨folder, io⟩ := item
    rw [run, ingestFolders, pass]
    cases ingestFolder ctx.cm ctx.xxh ctx.allowedExts ctx.env ctx.rootDir ctx.domain
        ctx.rootFilesByName folder io cat with
    | ok cat' => exact ih cat'
    | error e => rfl

/-- The loop ends at the first pass that raises. -/
lemma run_eq_failstop (items : List (Str × FolderCrawl)) (cat : Catalog) :
    (ctx.run items cat).2 = (Failstop.run ctx.pass raised items cat).2 ∧
      ((ctx.run items cat).1 = .ok () ↔ Failstop.Clean ctx.pass raised items cat) := by
  induction items generalizing cat with
  | nil => exact ⟨rfl, iff_of_true rfl (Failstop.clean_nil cat)⟩
  | cons item items ih =>
    rw [run, Failstop.run, Failstop.clean_cons_iff]
    rcases hpass : ctx.pass item cat with ⟨e | ⟨⟩, cat'⟩
    · exact ⟨rfl, iff_of_false (by simp) (by simp [raised])⟩
    · obtain ⟨hcat, hclean⟩ := ih cat'
      exact ⟨hcat, hclean.trans (and_iff_right rfl).symm⟩

/-- The transaction of a folder raises: the database fails, or the records repeat the id of a file
or have that of a file of another folder. -/
def SaveRaises (item : Str × FolderCrawl) (cat : Catalog) : Prop :=
  ∃ files, ctx.crawl item = .ok files ∧
    (item.2.saveFails = true ∨ ¬ (files.map FileMeta.fileId).Nodup ∨
      ∃ file ∈ files, ∃ row, cat.files.get? file.fileId = some row ∧ row.folder ≠ ctx.key item.1)

end Loop

end CrawlContext

/-! ## What a transaction leaves -/

section Save

variable {now : Datetime} {key : FolderKey} {domain : Str} {files : List FileMeta}
  {cat cat' : Catalog}

/-- When the transaction of a folder is refused. -/
lemma exists_saveCrawledFolderMetadata_iff :
    (∃ cat', saveCrawledFolderMetadata now key domain files cat = .ok cat') ↔
      (files.map FileMeta.fileId).Nodup ∧
        ∀ file ∈ files, ∀ row, cat.files.get? file.fileId = some row → row.folder = key := by
  have hids : (files.map (fileRow key)).map Prod.fst = files.map FileMeta.fileId := by
    rw [List.map_map]
    rfl
  have hkept : ∀ fileId, fileId ∉ (cat.files.filter fun _ row => row.folder ≠ key).keys ↔
      ∀ row, cat.files.get? fileId = some row → row.folder = key := by
    intro fileId
    rw [Dict.mem_keys_iff]
    simp only [Dict.get?_filter, Option.filter_eq_some_iff, decide_eq_true_eq, not_exists, not_and,
      not_not]
  unfold saveCrawledFolderMetadata
  dsimp only
  rw [hids]
  simp only [hkept, List.forall_mem_map]
  split_ifs with hok
  · exact iff_of_true ⟨_, rfl⟩ hok
  · exact iff_of_false (by simp) hok

/-- The file rows of other folders stay. -/
lemma get?_files_save_of_ne (h : saveCrawledFolderMetadata now key domain files cat = .ok cat')
    {fileId : Str} {row : FileRow} (hne : row.folder ≠ key) :
    cat'.files.get? fileId = some row ↔ cat.files.get? fileId = some row := by
  obtain ⟨-, howned⟩ := exists_saveCrawledFolderMetadata_iff.mp ⟨cat', h⟩
  unfold saveCrawledFolderMetadata at h
  dsimp only at h
  split_ifs at h with hok
  cases h
  rw [Dict.get?_setAll_eq_some_iff hok.1, Dict.get?_filter, Option.filter_eq_some_iff]
  constructor
  · rintro (hnew | ⟨-, hold, -⟩)
    · obtain ⟨file, -, heq⟩ := List.mem_map.mp hnew
      cases heq
      exact absurd rfl hne
    · exact hold
  · intro hold
    refine Or.inr ⟨fun hnew => ?_, hold, decide_eq_true hne⟩
    obtain ⟨entry, hentry, rfl⟩ := List.mem_map.mp hnew
    obtain ⟨file, hfile, rfl⟩ := List.mem_map.mp hentry
    exact hne (howned file hfile row hold)

/-- A folder is stored with its aggregates, files and scan time. -/
structure Persisted (key : FolderKey) (now : Datetime) (files : List FileMeta) (cat : Catalog) :
    Prop where
  /-- The row. -/
  row : ∃ row, cat.folders.get? key = some row ∧ row.itemCount = files.length ∧
    row.originalBytes = totalOriginalBytes files ∧
      row.compressedBytes = totalCompressedBytes files ∧ row.crawledAt = some now
  /-- The file rows. -/
  files : ∀ fileId row, (cat.files.get? fileId = some row ∧ row.folder = key) ↔
    ∃ file ∈ files, (fileId, row) = fileRow key file

/-- A save that succeeds persists the files. -/
lemma persisted_of_save (h : saveCrawledFolderMetadata now key domain files cat = .ok cat') :
    Persisted key now files cat' := by
  obtain ⟨-, -, -, hnew, hown⟩ := saveCrawledFolderMetadata_ok h
  constructor
  · unfold saveCrawledFolderMetadata at h
    dsimp only at h
    split_ifs at h
    cases h
    exact ⟨_, Dict.get?_alter_self _ _ _, rfl, rfl, rfl, rfl⟩
  · intro fileId row
    constructor
    · rintro ⟨hrow, hfolder⟩
      exact hown fileId row hrow hfolder
    · rintro ⟨file, hfile, heq⟩
      cases heq
      exact ⟨hnew file hfile, rfl⟩

end Save

/-! ## Passes -/

/-- The path of a folder determines its name. -/
lemma folderPath_injective {rootDir folder folder' : Str}
    (h : folderPath rootDir folder = folderPath rootDir folder') : folder = folder' := by
  have hfolder := List.append_cancel_left (List.cons.inj h).2
  exact List.append_cancel_right (List.cons.inj hfolder).2

namespace CrawlContext

section Passes

variable {ctx : CrawlContext} {item : Str × FolderCrawl} {cat cat' : Catalog}
  {files : List FileMeta}

/-- The key of a folder of a crawl determines its name. -/
lemma key_injective {folder folder' : Str} (h : ctx.key folder = ctx.key folder') :
    folder = folder' :=
  folderPath_injective (congrArg FolderKey.folderPath h)

/-- A folder whose listing fails is skipped. -/
lemma pass_of_error {e : PyError} (h : ctx.crawl item = .error e) :
    ctx.pass item cat = (.ok (), cat) := by
  unfold crawl at h
  rw [pass, ingestFolder, h]

/-- The pass over a folder whose listing succeeds is its save. -/
lemma pass_of_ok (h : ctx.crawl item = .ok files) : ctx.pass item cat =
    match (if item.2.saveFails then .error .dbError
      else saveCrawledFolderMetadata item.2.now (ctx.key item.1) ctx.domain files cat) with
    | .ok cat' => (.ok (), cat')
    | .error e => (.error e, cat) := by
  unfold crawl at h
  rw [pass, ingestFolder, h]
  rfl

/-- A pass raises when the transaction of its folder does. -/
lemma raised_pass_iff : raised (ctx.pass item cat).1 = true ↔ ctx.SaveRaises item cat := by
  unfold SaveRaises
  cases hcrawl : ctx.crawl item with
  | error e =>
    rw [pass_of_error hcrawl]
    simp [raised]
  | ok files =>
    have hiff : (∃ cat', saveCrawledFolderMetadata item.2.now (ctx.key item.1)
        ctx.domain files cat = .ok cat') ↔ _ := exists_saveCrawledFolderMetadata_iff
    rw [pass_of_ok hcrawl]
    simp only [Except.ok.injEq, exists_eq_left']
    split_ifs with hfails
    · exact iff_of_true rfl (Or.inl hfails)
    · cases hsave : saveCrawledFolderMetadata item.2.now (ctx.key item.1) ctx.domain files cat with
      | ok cat' =>
        obtain ⟨hnodup, howned⟩ := hiff.mp ⟨cat', hsave⟩
        refine iff_of_false (by simp [raised]) ?_
        rintro (hnot | hnot | ⟨file, hfile, row, hrow, hne⟩)
        · exact hfails hnot
        · exact hnot hnodup
        · exact hne (howned file hfile row hrow)
      | error e =>
        refine iff_of_true rfl (Or.inr ?_)
        by_contra hnot
        push Not at hnot
        obtain ⟨cat', hok⟩ := hiff.mpr hnot
        rw [hsave] at hok
        cases hok

/-- A pass that changes the catalog is a transaction of its folder. -/
lemma snd_pass_cases : (ctx.pass item cat).2 = cat ∨ ∃ files, ctx.crawl item = .ok files ∧
    saveCrawledFolderMetadata item.2.now (ctx.key item.1) ctx.domain files cat =
      .ok (ctx.pass item cat).2 := by
  cases hcrawl : ctx.crawl item with
  | error e =>
    rw [pass_of_error hcrawl]
    exact Or.inl rfl
  | ok files =>
    rw [pass_of_ok hcrawl]
    split_ifs
    · exact Or.inl rfl
    · cases hsave : saveCrawledFolderMetadata item.2.now (ctx.key item.1) ctx.domain files cat with
      | ok cat' => exact Or.inr ⟨files, rfl, hsave⟩
      | error e => exact Or.inl rfl

/-- A pass that does not raise persists the folder that was listed. -/
lemma persisted_pass (hcrawl : ctx.crawl item = .ok files) (h : ¬ ctx.SaveRaises item cat) :
    Persisted (ctx.key item.1) item.2.now files (ctx.pass item cat).2 := by
  have hraised : raised (ctx.pass item cat).1 ≠ true := fun hraised =>
      h (raised_pass_iff.mp hraised)
  rw [pass_of_ok hcrawl] at hraised ⊢
  split_ifs at hraised ⊢
  · exact absurd rfl hraised
  · cases hsave : saveCrawledFolderMetadata item.2.now (ctx.key item.1) ctx.domain files cat with
    | ok cat' => exact persisted_of_save hsave
    | error e =>
      rw [hsave] at hraised
      exact absurd rfl hraised

/-- A pass over another folder leaves a row alone. -/
lemma get?_folders_pass {folder : Str} (hne : item.1 ≠ folder) :
    (ctx.pass item cat).2.folders.get? (ctx.key folder) = cat.folders.get? (ctx.key folder) := by
  rcases @snd_pass_cases ctx item cat with hsame | ⟨files, -, hsave⟩
  · rw [hsame]
  · exact (saveCrawledFolderMetadata_ok hsave).2.1 _ fun hkey => hne (key_injective hkey).symm

/-- A pass over another folder leaves the files of a folder alone. -/
lemma get?_files_pass {folder : Str} (hne : item.1 ≠ folder) {fileId : Str} {row : FileRow}
    (hrow : row.folder = ctx.key folder) :
    (ctx.pass item cat).2.files.get? fileId = some row ↔ cat.files.get? fileId = some row := by
  rcases @snd_pass_cases ctx item cat with hsame | ⟨files, -, hsave⟩
  · rw [hsame]
  · exact get?_files_save_of_ne hsave fun hkey => hne (key_injective (hkey.symm.trans hrow))

/-- A pass over another folder keeps a folder persisted. -/
lemma persisted_pass_of_ne {folder : Str} {now : Datetime} (hne : item.1 ≠ folder)
    (h : Persisted (ctx.key folder) now files cat) :
    Persisted (ctx.key folder) now files (ctx.pass item cat).2 := by
  constructor
  · rw [get?_folders_pass hne]
    exact h.row
  · intro fileId row
    rw [← h.files fileId row]
    exact and_congr_left fun hrow => get?_files_pass hne hrow

end Passes

/-! ## Isolation -/

section Isolation

variable (ctx : CrawlContext)

/-- A folder is stored as it was listed. -/
def Stored (files : List FileMeta) (item : Str × FolderCrawl) (cat : Catalog) : Prop :=
  Persisted (ctx.key item.1) item.2.now files cat

/-- The crawl returns, and every folder that is listed and whose transaction does not raise in the
catalog that the folders before it leave is persisted, unless it is crawled again. -/
structure Isolated (items : List (Str × FolderCrawl)) (cat : Catalog) : Prop where
  /-- No exception leaves the crawl. -/
  returns : (ctx.run items cat).1 = .ok ()
  /-- The folders that do not fail are persisted. -/
  persists : ∀ before item after files, items = before ++ item :: after →
    (∀ later ∈ after, later.1 ≠ item.1) → ctx.crawl item = .ok files →
      ¬ ctx.SaveRaises item (Failstop.turn ctx.pass before cat) →
        ctx.Stored files item (ctx.run items cat).2

/-- No transaction raises in the catalog that the folders before it leave. -/
def NoneRaises (items : List (Str × FolderCrawl)) (cat : Catalog) : Prop :=
  ∀ before item after, items = before ++ item :: after →
    ¬ ctx.SaveRaises item (Failstop.turn ctx.pass before cat)

variable {ctx}

/-- No folder raises exactly when the loop is clean. -/
lemma noneRaises_iff_clean {items : List (Str × FolderCrawl)} {cat : Catalog} :
    ctx.NoneRaises items cat ↔ Failstop.Clean ctx.pass raised items cat := by
  unfold NoneRaises Failstop.Clean
  simp only [← raised_pass_iff, Bool.not_eq_true]

/-- **Isolation of failures.** The crawl isolates failures exactly when no transaction raises.

**Proof sketch.** A transaction that raises ends the crawl with its exception. Otherwise the crawl
comes to its end, a pass persists its folder, and the later passes are over other folders. -/
theorem isolated_iff_noneRaises {items : List (Str × FolderCrawl)} {cat : Catalog} :
    ctx.Isolated items cat ↔ ctx.NoneRaises items cat := by
  obtain ⟨hcat, hreturns⟩ := ctx.run_eq_failstop items cat
  rw [noneRaises_iff_clean, ← hreturns]
  refine ⟨Isolated.returns, fun h => ⟨h, ?_⟩⟩
  rintro before item after files rfl hlater hcrawl hraises
  rw [hcat, Failstop.run_of_clean (hreturns.mp h), Failstop.turn_append, Failstop.turn_cons]
  have hkeep : ∀ later ∈ after, ∀ cat, ctx.Stored files item cat →
      ctx.Stored files item (ctx.pass later cat).2 := fun later hmem cat =>
    persisted_pass_of_ne (hlater later hmem)
  exact Failstop.settled_turn_of_settled hkeep (persisted_pass hcrawl hraises)

end Isolation

/-! ## A failed root listing -/

/-- What the row of a folder says of its last scan. -/
def scanOf (cat : Catalog) (key : FolderKey) : Option (ℕ × ℤ × ℤ × Option Datetime) :=
  (cat.folders.get? key).map fun row =>
    (row.itemCount, row.originalBytes, row.compressedBytes, row.crawledAt)

/-- The aggregates, the scan time and the file rows of a folder are the same. -/
structure SameScan (key : FolderKey) (cat cat' : Catalog) : Prop where
  /-- The aggregates and the scan time. -/
  scan : scanOf cat' key = scanOf cat key
  /-- The file rows. -/
  files : ∀ fileId row, row.folder = key →
    (cat'.files.get? fileId = some row ↔ cat.files.get? fileId = some row)

/-- A catalog has the scans that it has. -/
lemma SameScan.refl (key : FolderKey) (cat : Catalog) : SameScan key cat cat :=
  ⟨rfl, fun _ _ _ => Iff.rfl⟩

/-- Steps that keep a scan keep it one after the other. -/
lemma SameScan.trans {key : FolderKey} {cat cat' cat'' : Catalog} (h : SameScan key cat cat')
    (h' : SameScan key cat' cat'') : SameScan key cat cat'' :=
  ⟨h'.scan.trans h.scan, fun fileId row hrow => (h'.files fileId row hrow).trans
    (h.files fileId row hrow)⟩

section Persisted

variable {key : FolderKey} {now : Datetime} {files : List FileMeta} {cat cat' : Catalog}

/-- The files are persisted exactly when the scan of the folder is theirs and its rows are their
rows. -/
lemma scanOf_iff_persisted : Persisted key now files cat ↔
    scanOf cat key = some (files.length, totalOriginalBytes files, totalCompressedBytes files,
      some now) ∧
    ∀ fileId row, (cat.files.get? fileId = some row ∧ row.folder = key) ↔
      ∃ file ∈ files, (fileId, row) = fileRow key file := by
  unfold scanOf
  rw [Option.map_eq_some_iff]
  simp only [Prod.mk.injEq]
  exact ⟨fun h => ⟨h.row, h.files⟩, fun h => ⟨h.1, h.2⟩⟩

/-- A folder whose rows are the same is stored in the same way. -/
lemma SameScan.persisted_iff (h : SameScan key cat cat') :
    Persisted key now files cat' ↔ Persisted key now files cat := by
  rw [scanOf_iff_persisted, scanOf_iff_persisted, h.scan]
  refine and_congr_right fun _ => forall₂_congr fun fileId row => ?_
  rw [and_congr_left (h.files fileId row)]

/-- Two catalogs that store a folder in the same way have the same rows of it. -/
lemma sameScan_of_persisted (h : Persisted key now files cat) (h' : Persisted key now files cat') :
    SameScan key cat cat' := by
  refine ⟨(scanOf_iff_persisted.mp h').1.trans (scanOf_iff_persisted.mp h).1.symm, ?_⟩
  intro fileId row hrow
  have hiff := (h'.files fileId row).trans (h.files fileId row).symm
  rwa [and_iff_left hrow, and_iff_left hrow] at hiff

end Persisted

section RootFiles

variable (ctx : CrawlContext)

/-- The aggregates, scan times and file rows of the files of the root directory are the same after a
crawl. -/
def KeepsRootFiles (items : List (Str × FolderCrawl)) (cat : Catalog) : Prop :=
  ∀ folder, endsWithAny folder ctx.allowedExts = true →
    SameScan (ctx.key folder) cat (ctx.run items cat).2

/-- The clock of the last pass over a folder, unless the crawl ends before its first pass. -/
def lastPass (folder : Str) : List (Str × FolderCrawl) → Catalog → Option Datetime
  | [], _ => none
  | item :: items, cat =>
    if raised (ctx.pass item cat).1 then none
    else (lastPass folder items (ctx.pass item cat).2).or
      (if item.1 = folder then some item.2.now else none)

variable {ctx}

/-- A pass that raises leaves the catalog alone. -/
lemma snd_pass_of_raised {item : Str × FolderCrawl} {cat : Catalog}
    (h : raised (ctx.pass item cat).1 = true) : (ctx.pass item cat).2 = cat := by
  unfold pass at h ⊢
  split at h
  · cases h
  · rfl

/-- With an empty root listing a file of the root directory is a folder without files. -/
lemma crawl_of_rootFile (hempty : ctx.rootFilesByName = ∅) {item : Str × FolderCrawl}
    (hext : endsWithAny item.1 ctx.allowedExts = true) : ctx.crawl item = .ok [] := by
  rw [crawl, crawlMetadataFolder_of_extension hext, hempty]
  rfl

/-- A file of the root directory is stored as empty by its last pass. -/
lemma of_lastPass (hempty : ctx.rootFilesByName = ∅) {folder : Str}
    (hext : endsWithAny folder ctx.allowedExts = true) (items : List (Str × FolderCrawl))
    (cat : Catalog) :
    (∀ now, ctx.lastPass folder items cat = some now →
      Persisted (ctx.key folder) now [] (ctx.run items cat).2) ∧
    (ctx.lastPass folder items cat = none → SameScan (ctx.key folder) cat
      (ctx.run items cat).2) := by
  induction items generalizing cat with
  | nil => exact ⟨fun now h => (by cases h), fun _ => SameScan.refl _ _⟩
  | cons item items ih =>
    have hraises := @raised_pass_iff ctx item cat
    have hstays := @snd_pass_of_raised ctx item cat
    have hstored := @persisted_pass ctx item cat []
    have hother : item.1 ≠ folder → SameScan (ctx.key folder) cat (ctx.pass item cat).2 :=
      fun hne => ⟨congrArg _ (get?_folders_pass hne), fun fileId row => get?_files_pass hne⟩
    rw [run, lastPass]
    rcases hpass : ctx.pass item cat with ⟨e | ⟨⟩, cat'⟩
    · -- the crawl ends here
      rw [hpass] at hstays
      cases hstays rfl
      exact ⟨fun now h => (by cases h), fun _ => SameScan.refl _ _⟩
    · rw [hpass] at hraises hstored hother
      have hcommits : ¬ ctx.SaveRaises item cat := fun h => by cases hraises.mpr h
      obtain ⟨hsome, hnone⟩ := ih cat'
      simp only [raised, Bool.false_eq_true, if_false]
      cases hlast : ctx.lastPass folder items cat' with
      | some t =>
        rw [Option.some_or]
        refine ⟨fun now h => ?_, fun h => (by cases h)⟩
        cases h
        exact hsome t hlast
      | none =>
        rw [Option.none_or]
        have hsame := hnone hlast
        split_ifs with hitem
        · subst hitem
          refine ⟨fun now h => ?_, fun h => (by cases h)⟩
          cases h
          exact hsame.persisted_iff.mpr (hstored (crawl_of_rootFile hempty hext) hcommits)
        · exact ⟨fun now h => (by cases h), fun _ => (hother hitem).trans hsame⟩

/-- **Failed root listings.** When the root listing fails, the files of the root directory are left
alone exactly when each of them that the crawl comes to is already stored without files, with the
clock of its last pass as its scan time.

**Proof sketch.** The last pass over the file stores it so, and no other pass touches its rows. -/
theorem keepsRootFiles_iff (hempty : ctx.rootFilesByName = ∅) {items : List (Str × FolderCrawl)}
    {cat : Catalog} :
    ctx.KeepsRootFiles items cat ↔ ∀ folder, endsWithAny folder ctx.allowedExts = true →
      ∀ now, ctx.lastPass folder items cat = some now → Persisted (ctx.key folder) now [] cat := by
  refine forall₂_congr fun folder hext => ?_
  obtain ⟨hsome, hnone⟩ := of_lastPass hempty hext items cat
  constructor
  · intro hsame now hlast
    exact hsame.persisted_iff.mp (hsome now hlast)
  · intro hstored
    cases hlast : ctx.lastPass folder items cat with
    | none => exact hnone hlast
    | some now => exact sameScan_of_persisted (hstored now hlast) (hsome now hlast)

end RootFiles

end CrawlContext

/-! ## The two crawls -/

section Crawls

variable (cm : CaseMap) (xxh : Str → Str) (allowedExts : List Str) (config : ClassifierConfig)
  (domainName archiveName env : Str) (archiveFolders : List Str)
  (rootListing : Except PyError (List RawItem)) (folders : List (Str × FolderCrawl))

/-- The full crawl of a domain. -/
def domainContext : CrawlContext :=
  ⟨cm, xxh, allowedExts, env, "TP_export".toList, domainName, fetchRootFilesMapping rootListing⟩

/-- The full crawl of a legacy archive. -/
def legacyContext : CrawlContext :=
  ⟨cm, xxh, allowedExts, env, "TP_Legacy_Publications".toList, archiveName,
    fetchRootFilesMapping rootListing⟩

/-- The folders of the full crawl of a legacy archive. -/
def legacyCrawlFolders : List (Str × FolderCrawl) :=
  match config.legacyRules.find? fun rule => cm.lower rule.archive = cm.lower archiveName with
  | some _ => folders.filter fun folder => folder.1 ∈ archiveFolders
  | none => []

/-- The loops of the contexts are those of the two crawls. -/
theorem snd_run_contexts (cat : Catalog) :
    ((domainContext cm xxh allowedExts domainName env rootListing).run folders cat).2 =
        ingestDomainMetadata cm xxh allowedExts domainName env rootListing folders cat ∧
      ((legacyContext cm xxh allowedExts archiveName env rootListing).run
        (legacyCrawlFolders cm config archiveName archiveFolders folders) cat).2 =
          ingestLegacyMetadata cm xxh allowedExts config archiveName env archiveFolders rootListing
            folders cat := by
  refine ⟨CrawlContext.snd_run _ _ _, ?_⟩
  rw [CrawlContext.snd_run]
  unfold legacyCrawlFolders ingestLegacyMetadata
  cases config.legacyRules.find? fun rule => cm.lower rule.archive = cm.lower archiveName with
  | some rule => rfl
  | none => rfl

/-- **Isolation in the two crawls.** The full crawls of a domain and of a legacy archive return and
persist every folder that does not fail exactly when no transaction raises. -/
theorem crawls_isolated_iff (cat : Catalog) :
    ((domainContext cm xxh allowedExts domainName env rootListing).Isolated folders cat ↔
      (domainContext cm xxh allowedExts domainName env rootListing).NoneRaises folders cat) ∧
    ((legacyContext cm xxh allowedExts archiveName env rootListing).Isolated
        (legacyCrawlFolders cm config archiveName archiveFolders folders) cat ↔
      (legacyContext cm xxh allowedExts archiveName env rootListing).NoneRaises
        (legacyCrawlFolders cm config archiveName archiveFolders folders) cat) :=
  ⟨CrawlContext.isolated_iff_noneRaises, CrawlContext.isolated_iff_noneRaises⟩

/-- **Failed root listings in the two crawls.** When the root listing fails, the files of the root
directory are left alone exactly when each of them that the crawl comes to is already stored without
files, with the clock of its last pass as its scan time. -/
theorem crawls_keepRootFiles_iff (e : PyError) (cat : Catalog) :
    ((domainContext cm xxh allowedExts domainName env (.error e)).KeepsRootFiles folders cat ↔
      ∀ folder, endsWithAny folder allowedExts = true → ∀ now,
        (domainContext cm xxh allowedExts domainName env (.error e)).lastPass folder folders cat =
            some now →
          Persisted (folderKey cm env "TP_export".toList folder) now [] cat) ∧
    ((legacyContext cm xxh allowedExts archiveName env (.error e)).KeepsRootFiles
        (legacyCrawlFolders cm config archiveName archiveFolders folders) cat ↔
      ∀ folder, endsWithAny folder allowedExts = true → ∀ now,
        (legacyContext cm xxh allowedExts archiveName env (.error e)).lastPass folder
            (legacyCrawlFolders cm config archiveName archiveFolders folders) cat = some now →
          Persisted (folderKey cm env "TP_Legacy_Publications".toList folder) now [] cat) :=
  ⟨CrawlContext.keepsRootFiles_iff rfl, CrawlContext.keepsRootFiles_iff rfl⟩

end Crawls

/-! ## Two failures -/

/-- The full crawl of the domain `Market` with a root listing. -/
def marketCrawl (rootListing : Except PyError (List RawItem)) : CrawlContext :=
  domainContext .ascii id [".csv".toList] "Market".toList "iop".toList rootListing

/-- A file that the server sends without an id. -/
def itemWithoutId (name : Str) : RawItem :=
  ⟨some "File".toList, some name, some 1, some 1, none, none⟩

/-- A directory with two files without ids. -/
def folderWithoutIds : Str × FolderCrawl :=
  ("Load_6.1.A_r3".toList,
    ⟨.ok [itemWithoutId "2026_06.csv".toList, itemWithoutId "2026_07.csv".toList], false, .utc 0⟩)

/-- An empty directory. -/
def emptyFolder : Str × FolderCrawl := ("Prices_12.1.D_r3".toList, ⟨.ok [], false, .utc 0⟩)

/-- The ids of two files that are both empty end the crawl, and the directory behind them is not
stored, though nothing of it fails. -/
theorem not_isolated_folderWithoutIds :
    let ctx := marketCrawl (.ok [])
    (ctx.pass emptyFolder .empty).1 = .ok () ∧
      (ctx.run [folderWithoutIds, emptyFolder] .empty).1 = .error .dbError ∧
      (ctx.run [folderWithoutIds, emptyFolder] .empty).2.folders.get? (ctx.key emptyFolder.1) =
        none ∧
      ¬ ctx.Isolated [folderWithoutIds, emptyFolder] .empty := by
  refine ⟨by decide +kernel, by decide +kernel, by decide +kernel, fun h => ?_⟩
  exact absurd h.returns (by decide +kernel)

/-- The log of the exports, a file of the root directory. -/
def logFolder : Str × FolderCrawl := ("Export_log_r3.csv".toList, ⟨.ok [], false, .utc 1⟩)

/-- The catalog with the log as it was listed at the time `0`. -/
def logCatalog : Catalog where
  folders := Dict.ofList [(folderKey .ascii "iop".toList "TP_export".toList logFolder.1,
    ⟨"Market".toList, 1, 7, 5, some (.utc 0)⟩)]
  files := Dict.ofList
    [("log".toList, ⟨folderKey .ascii "iop".toList "TP_export".toList logFolder.1,
    logFolder.1, 7, 5, [], []⟩)]

/-- When the root listing fails, the log loses its file row and is stored as scanned without
files. -/
theorem not_keepsRootFiles_log :
    let ctx := marketCrawl (.error .apiError)
    (ctx.run [logFolder] logCatalog).2.files.get? "log".toList = none ∧
      CrawlContext.scanOf (ctx.run [logFolder] logCatalog).2 (ctx.key logFolder.1) =
        some (0, 0, 0, some (.utc 1)) ∧
      ¬ ctx.KeepsRootFiles [logFolder] logCatalog := by
  refine ⟨by decide +kernel, by decide +kernel, fun h => ?_⟩
  exact absurd (h logFolder.1 (by decide)).scan (by decide +kernel)

end EntsoePipeline
