import EntsoePipeline.Delta.Agreement
import EntsoePipeline.Delta.Commits
import EntsoePipeline.Delta.Coverage

set_option relaxedAutoImplicit false
set_option autoImplicit false

/-!
# A second refresh

A refresh that completes is followed by another one with the same logs and the same file server.
On flat folders the second one finds nothing to do: the folders that the first one marked have been
crawled, so the rows of their files are as new as the log, and the rows of the other folders are
those that the first one found up to date.

## Main definitions

* `EntsoePipeline.FlatFolder` — a folder whose files lie directly in it.
* `EntsoePipeline.CompletedRefresh` — a refresh without a failure, against a fixed server.
* `EntsoePipeline.Steady` — the conditions on the logs, the catalog and the server.
* `EntsoePipeline.KeepsFolders` — no file id of a known file has moved to another folder.

## Main results

* `EntsoePipeline.dirtyMap_second` — the second refresh marks nothing.
* `EntsoePipeline.not_dirtyMap_second_moved` — it does when a file id has moved to another folder.

## Implementation notes

The row of a file id belongs to one folder, so crawling a folder takes over the rows of the ids it
lists. The catalog may have such a row under another folder, where the same file was listed when
that folder was crawled last; this is why `Steady` alone does not suffice.
-/

namespace EntsoePipeline

open Py

/-! ## The two refreshes -/

/-- A flat folder: a directory below the root directory that is no publication with a directory for
each day. -/
structure FlatFolder (allowedExts : List Str) (folder : Str) : Prop where
  nonempty : folder ≠ []
  noSeparator : '/' ∉ folder
  notEvolution : contains folder "OfferedTransferCapacitiesContinuousEvolution".toList = false
  /-- The name has no known extension. -/
  directory : endsWithAny folder allowedExts = false

/-- No two file rows of an environment have the same base name. -/
def UniqueBaseNames (cm : CaseMap) (env : Str) (cat : Catalog) : Prop :=
  ((cat.fileRows (cm.lower env)).map fun row => stripExtension cm row.name).Nodup

/-- No two folder rows of an environment have the same last path segment. -/
def UniqueSegments (cm : CaseMap) (env : Str) (cat : Catalog) : Prop :=
  ((cat.folderRows (cm.lower env)).map fun row => lastSegment row.1.folderPath).Nodup

section Definitions

variable (cm : CaseMap) (tl : TimeLib) (xxh : Str → Str) (allowedExts : List Str) (env : Str)
  (server : FileServer) (limit : ℕ)

/-- A refresh that visits every dirty folder, without a failure of a leaf or of the database. -/
structure CompletedRefresh (domains : List (Str × List Str)) (input : DeltaInput) (cat : Catalog)
    (visits : List (Str × FolderVisit)) : Prop where
  active : input.activeFolders = activeFoldersOf domains
  reads : input.Reads cm env cat
  visited : ∃ dirty, dirtyMap cm tl input = .ok dirty ∧ visits.map Prod.fst = dirty.keys ∧
    ∀ visit ∈ visits, visit.2.Visits dirty visit.1 ∧ visit.2.OnServer server limit ∧
      visit.2.completes xxh allowedExts = true

/-- A folder lists a file with the base name of a record and an aware time that is not before the
time of the record. -/
def ListsRecord (record : LogRecord) (item : RawItem) : Prop :=
  (∃ items, serverListing server limit record.folderName = .ok items ∧ item ∈ items) ∧
    stripExtension cm item.itemName = stripExtension cm record.fileName ∧
    ∃ t, parseDbTimestamp tl (item.lastUpdatedTimestamp.getD []) = some t ∧ t.isNaive = false ∧
      record.maxUpdateTime.instant ≤ t.instant

/-- The conditions on the logs, on the server, and on the catalog before and after the first
refresh. -/
structure Steady (input : DeltaInput) (before after : Catalog) : Prop where
  flat : ∀ folder ∈ input.activeFolders, FlatFolder allowedExts folder
  /-- Every record names a file of its folder. -/
  listed : ∀ record ∈ input.std tl ++ input.oce tl,
    ∃ item, ListsRecord cm tl server limit record item
  names : ∀ cat ∈ [before, after], UniqueBaseNames cm env cat
  segments : ∀ cat ∈ [before, after], UniqueSegments cm env cat
  /-- The file ids of the active folders are pairwise distinct. -/
  ids : ∀ folder ∈ input.activeFolders, ∀ folder' ∈ input.activeFolders, ∀ items items',
    serverListing server limit folder = .ok items →
      serverListing server limit folder' = .ok items' →
        ∀ item ∈ items, ∀ item' ∈ items', item.itemId = item'.itemId →
          folder = folder' ∧ item = item'

/-- A file id whose row has the base name of a record is not listed by another active folder than
that of the record. -/
def KeepsFolders (input : DeltaInput) (cat : Catalog) : Prop :=
  ∀ record ∈ input.std tl ++ input.oce tl, ∀ fileId row, cat.files.get? fileId = some row →
    row.folder.environment = cm.lower env →
      stripExtension cm row.name = stripExtension cm record.fileName →
        ∀ folder ∈ input.activeFolders, ∀ items, serverListing server limit folder = .ok items →
          ∀ item ∈ items, item.itemId = fileId → folder = record.folderName

/-- An input of a second refresh with the same folders and the same logs. -/
structure DeltaInput.SameLogs (input second : DeltaInput) : Prop where
  active : second.activeFolders = input.activeFolders
  stdLog : second.stdLog = input.stdLog
  oceLog : second.oceLog = input.oceLog

end Definitions

/-! ## What the first refresh leaves behind -/

section Folders

variable {cm : CaseMap} {tl : TimeLib} {xxh : Str → Str} {allowedExts : List Str} {env : Str}

/-- The leaf of a record of a flat folder is the folder. -/
lemma FlatFolder.leaf_eq {record : LogRecord} (h : FlatFolder allowedExts record.folderName) :
    record.leaf = record.folderName := by
  unfold LogRecord.leaf resolveExactFmsFolder
  rw [h.notEvolution, if_neg Bool.false_ne_true]

/-- The last segment of the path of a folder is its name. -/
lemma lastSegment_folderPath (root folder : Segment '/') :
    lastSegment (folderPath root.text folder.text) = folder.text := by
  unfold lastSegment
  simp only [split_strip_folderPath, List.getLast_cons_cons, List.getLast_singleton]

/-- The path of a flat folder ends in its name. -/
lemma FlatFolder.lastSegment_eq {folder : Str} (h : FlatFolder allowedExts folder) :
    lastSegment (folderKey cm env "TP_export".toList folder).folderPath = folder :=
  lastSegment_folderPath tpExport ⟨folder, h.nonempty, h.noSeparator⟩

/-- On flat folders, only active folders are marked, and with themselves. -/
lemma marked_flat {input : DeltaInput} {dirty : DirtyMap}
    (hdirty : dirtyMap cm tl input = .ok dirty)
    (hflat : ∀ folder ∈ input.activeFolders, FlatFolder allowedExts folder) {folder leaf : Str}
    (h : Marked dirty folder leaf) : folder ∈ input.activeFolders ∧ leaf = folder := by
  rcases ((marked_of_dirtyMap hdirty).2.2 folder leaf).mp h with hinitial | ⟨r, hr, -, rfl, rfl⟩
  · obtain ⟨hactive, -, rfl⟩ := marked_markNeverCrawled.mp hinitial
    exact ⟨hactive, rfl⟩
  · have hactive := (DeltaInput.mem_activeFolders_of_mem (mem_records_iff.mpr (Or.inl hr))).1
    exact ⟨hactive, (hflat _ hactive).leaf_eq⟩

/-- The scan times that a run sets are kept. -/
lemma isSome_crawledAt_runVisits {domains : List (Str × List Str)}
    {visits : List (Str × FolderVisit)} {cat : Catalog} {key : FolderKey}
    (h : ((cat.folders.get? key).bind FolderRow.crawledAt).isSome ∨
      ∃ visit ∈ visits, key = folderKey cm env "TP_export".toList visit.1 ∧
        visit.2.completes xxh allowedExts = true) :
    (((runVisits cm xxh allowedExts env domains visits cat).folders.get? key).bind
      FolderRow.crawledAt).isSome := by
  induction visits generalizing cat with
  | nil =>
    rcases h with h | ⟨visit, hmem, -⟩
    · exact h
    · cases hmem
  | cons visit visits ih =>
    rw [runVisits, List.foldl_cons]
    apply ih
    rw [refreshFolder]
    by_cases hkey : key = folderKey cm env "TP_export".toList visit.1
    · rw [hkey, crawledAt_visitFolder, ← hkey]
      split_ifs with hdone
      · exact Or.inl rfl
      · rcases h with h | ⟨other, hmem, hother, hcompletes⟩
        · exact Or.inl h
        · rcases List.mem_cons.mp hmem with rfl | hmem
          · exact absurd hcompletes hdone
          · exact Or.inr ⟨other, hmem, hother, hcompletes⟩
    · rw [get?_folders_visitFolder_of_ne hkey]
      rcases h with h | ⟨other, hmem, hother, hcompletes⟩
      · exact Or.inl h
      · rcases List.mem_cons.mp hmem with rfl | hmem
        · exact absurd hother hkey
        · exact Or.inr ⟨other, hmem, hother, hcompletes⟩

/-- With distinct last segments, a row with a scan time marks its folder as crawled. -/
lemma not_neverCrawled_of_row {rows : List (FolderKey × FolderRow)}
    (hunique : (rows.map fun row => lastSegment row.1.folderPath).Nodup)
    {key : FolderKey} {row : FolderRow} (hrow : (key, row) ∈ rows)
    (hcrawled : row.crawledAt.isSome) :
    neverCrawled (folderCrawledAtOf rows) (lastSegment key.folderPath) = false := by
  have hkeys : ((rows.map fun row =>
      (lastSegment row.1.folderPath, row.2.crawledAt)).map Prod.fst).Nodup := by
    rw [List.map_map]
    exact hunique
  have hget : (folderCrawledAtOf rows).get? (lastSegment key.folderPath) = some row.crawledAt :=
    (Dict.get?_setAll_eq_some_iff hkeys).mpr
      (Or.inl (List.mem_map_of_mem (f := fun row : FolderKey × FolderRow =>
        (lastSegment row.1.folderPath, row.2.crawledAt)) hrow))
  unfold neverCrawled
  rw [hget]
  simpa using hcrawled

/-- With distinct base names, a row of the file of a record decides the verdict on it. -/
lemma verdict_of_row {input : DeltaInput}
    (hunique : (input.fileRows.map fun row => stripExtension cm row.name).Nodup) {row : FileRow}
    (hrow : row ∈ input.fileRows) {record : LogRecord}
    (hname : stripExtension cm row.name = stripExtension cm record.fileName) {t : Datetime}
    (htime : parseDbTimestamp tl row.lastUpdated = some t)
    (hfresh : record.maxUpdateTime.gt? t = .ok false) :
    input.verdict cm tl record = .ok true := by
  have hkeys : ((input.fileRows.map fun row => (stripExtension cm row.name,
      (⟨parseDbTimestamp tl row.lastUpdated, row.xxhash⟩ : DbFile))).map Prod.fst).Nodup := by
    rw [List.map_map]
    exact hunique
  have hmem : (stripExtension cm record.fileName, (⟨some t, row.xxhash⟩ : DbFile)) ∈
      input.fileRows.map fun row => (stripExtension cm row.name,
        (⟨parseDbTimestamp tl row.lastUpdated, row.xxhash⟩ : DbFile)) :=
    List.mem_map.mpr ⟨row, hrow, by rw [hname, htime]⟩
  have hget : (dbFilesOf cm tl input.fileRows).get? (stripExtension cm record.fileName) =
      some ⟨some t, row.xxhash⟩ := (Dict.get?_setAll_eq_some_iff hkeys).mpr (Or.inl hmem)
  unfold DeltaInput.verdict upToDate
  rw [hget]
  dsimp only
  rw [hfresh]
  rfl

/-- A record is up to date only because of a row of its file that is not older. -/
lemma exists_row_of_verdict {input : DeltaInput} {record : LogRecord}
    (h : input.verdict cm tl record = .ok true) :
    ∃ row ∈ input.fileRows, stripExtension cm row.name = stripExtension cm record.fileName ∧
      ∃ t, parseDbTimestamp tl row.lastUpdated = some t ∧
        record.maxUpdateTime.gt? t = .ok false := by
  unfold DeltaInput.verdict upToDate at h
  cases hget : (dbFilesOf cm tl input.fileRows).get? (stripExtension cm record.fileName) with
  | none =>
    rw [hget] at h
    cases h
  | some dbRecord =>
    obtain ⟨row, hrow, heq⟩ := List.mem_map.mp (Dict.mem_of_get?_ofList hget)
    obtain ⟨hname, rfl⟩ := Prod.mk.inj heq
    rw [hget] at h
    dsimp only at h
    cases htime : parseDbTimestamp tl row.lastUpdated with
    | none =>
      rw [htime] at h
      cases h
    | some t =>
      rw [htime] at h
      dsimp only at h
      refine ⟨row, hrow, hname, t, htime, ?_⟩
      cases hgt : record.maxUpdateTime.gt? t with
      | error e =>
        rw [hgt] at h
        cases h
      | ok b =>
        rw [hgt] at h
        cases b with
        | false => rfl
        | true => cases h

end Folders

/-! ## The second refresh -/

section Second

variable {cm : CaseMap} {tl : TimeLib} {xxh : Str → Str} {allowedExts : List Str} {env : Str}
  {server : FileServer} {limit : ℕ} {domains : List (Str × List Str)} {input : DeltaInput}
  {cat : Catalog} {visits : List (Str × FolderVisit)}

/-- The commits of a completed refresh on flat folders: each is the listing of an active folder that
was visited. -/
lemma listing_of_mem_runCommits
    (hrun : CompletedRefresh cm tl xxh allowedExts env server limit domains input cat visits)
    (hflat : ∀ folder ∈ input.activeFolders, FlatFolder allowedExts folder) {c : Commit}
    (hc : c ∈ runCommits cm xxh allowedExts env visits) :
    ∃ folder ∈ visits.map Prod.fst, folder ∈ input.activeFolders ∧
      c.key = folderKey cm env "TP_export".toList folder ∧
        ∃ items, serverListing server limit folder = .ok items ∧
          c.files = items.map (mapRawFmsItem xxh) := by
  obtain ⟨dirty, hdirty, -, hvisits⟩ := hrun.visited
  obtain ⟨⟨folder, visit⟩, hmem, hc⟩ := List.mem_flatMap.mp hc
  obtain ⟨hvisit, hserver, -⟩ := hvisits _ hmem
  unfold visitCommits at hc
  rw [hserver.ensured, if_neg Bool.false_ne_true] at hc
  obtain ⟨leaf, hleaf, hcommit⟩ := List.mem_filterMap.mp hc
  obtain ⟨hkey, -, hcrawl⟩ := commitOf_eq_some_iff.mp hcommit
  have hmarked : Marked dirty folder leaf.1 := (hvisit.2 leaf.1).mp (List.mem_map_of_mem hleaf)
  obtain ⟨hactive, hsame⟩ := marked_flat hdirty hflat hmarked
  refine ⟨folder, List.mem_map_of_mem hmem, hactive, hkey, ?_⟩
  rw [hserver.leaves leaf hleaf, hsame] at hcrawl
  exact listing_of_crawlMetadataFolder (hflat folder hactive).directory
    (crawlLeaf_eq_ok_iff.mp hcrawl).1

/-- Every visited folder has a commit with its listing. -/
lemma exists_commit_of_visited
    (hrun : CompletedRefresh cm tl xxh allowedExts env server limit domains input cat visits)
    (hflat : ∀ folder ∈ input.activeFolders, FlatFolder allowedExts folder) {folder : Str}
    (hvisited : folder ∈ visits.map Prod.fst) :
    ∃ c ∈ runCommits cm xxh allowedExts env visits, ∃ items,
      serverListing server limit folder = .ok items ∧ c.files = items.map (mapRawFmsItem xxh) := by
  obtain ⟨dirty, hdirty, hkeys, hvisits⟩ := hrun.visited
  obtain ⟨⟨folder', visit⟩, hmem, hfolder⟩ := List.mem_map.mp hvisited
  dsimp only at hfolder
  subst hfolder
  obtain ⟨hvisit, hserver, hdone⟩ := hvisits _ hmem
  obtain ⟨leaves, hleaves⟩ := Dict.mem_keys_iff.mp (hkeys ▸ hvisited)
  obtain ⟨leaf, hleaf⟩ := (marked_of_dirtyMap hdirty).2.1 _ _ hleaves
  have hmarked : Marked dirty folder' leaf := ⟨leaves, hleaves, hleaf⟩
  obtain ⟨hactive, hsame⟩ := marked_flat hdirty hflat hmarked
  obtain ⟨⟨leaf', io⟩, hcrawled, hname⟩ := List.mem_map.mp ((hvisit.2 leaf).mpr hmarked)
  dsimp only at hname
  subst hname
  simp only [FolderVisit.completes, Bool.and_eq_true, List.all_eq_true] at hdone
  have hsucceeds := hdone.1.2 _ hcrawled
  unfold leafSucceeds at hsucceeds
  cases hcrawl : crawlLeaf xxh allowedExts leaf' io with
  | error e => simp [hcrawl] at hsucceeds
  | ok files =>
    refine ⟨⟨folderKey cm env "TP_export".toList folder', leaf', files, nodup_of_crawlLeaf hcrawl⟩,
      List.mem_flatMap.mpr ⟨(folder', visit), hmem, ?_⟩, ?_⟩
    · unfold visitCommits
      rw [hserver.ensured, if_neg Bool.false_ne_true]
      exact List.mem_filterMap.mpr ⟨_, hcrawled, commitOf_eq_some_iff.mpr ⟨rfl, rfl, hcrawl⟩⟩
    · have hio : io = ⟨serverListing server limit leaf', false⟩ := hserver.leaves _ hcrawled
      rw [hio, hsame] at hcrawl
      exact listing_of_crawlMetadataFolder (hflat _ hactive).directory
        (crawlLeaf_eq_ok_iff.mp hcrawl).1

/-- After a completed refresh, the files of a visited folder have their rows, unless an id is listed
by another active folder too. -/
lemma get?_files_of_visited
    (hrun : CompletedRefresh cm tl xxh allowedExts env server limit domains input cat visits)
    {after : Catalog} (hsteady : Steady cm tl allowedExts env server limit input cat after)
    {folder : Str} (hactive : folder ∈ input.activeFolders)
    (hvisited : folder ∈ visits.map Prod.fst) {items : List RawItem}
    (hitems : serverListing server limit folder = .ok items) {item : RawItem}
    (hitem : item ∈ items) :
    (runVisits cm xxh allowedExts env domains visits cat).files.get? item.itemId =
      some (fileRow (folderKey cm env "TP_export".toList folder) (mapRawFmsItem xxh item)).2 := by
  obtain ⟨c, hc, items', hitems', hfiles⟩ := exists_commit_of_visited hrun hsteady.flat hvisited
  rw [hitems, Except.ok.injEq] at hitems'
  subst hitems'
  have hlisted : item.itemId ∈ c.fileIds := by
    unfold Commit.fileIds
    rw [hfiles, List.map_map]
    exact List.mem_map.mpr ⟨item, hitem, rfl⟩
  cases hlast : lastListing (runCommits cm xxh allowedExts env visits) item.itemId with
  | none => exact absurd hlisted (lastListing_eq_none_iff.mp hlast c hc)
  | some l =>
    obtain ⟨d, file⟩ := l
    obtain ⟨hd, hfile, hid⟩ := mem_of_lastListing hlast
    obtain ⟨folder', -, hactive', hkey, items', hitems', hfiles'⟩ :=
      listing_of_mem_runCommits hrun hsteady.flat hd
    rw [hfiles'] at hfile
    obtain ⟨item', hitem', rfl⟩ := List.mem_map.mp hfile
    obtain ⟨rfl, rfl⟩ := hsteady.ids folder hactive folder' hactive' items items' hitems hitems'
      item hitem item' hitem' hid.symm
    rw [get?_files_runVisits, hlast, ← hkey]
    rfl

/-- After a completed refresh every active folder counts as crawled. -/
lemma neverCrawled_of_completed
    (hrun : CompletedRefresh cm tl xxh allowedExts env server limit domains input cat visits)
    {after : Catalog} (hafter : after = runVisits cm xxh allowedExts env domains visits cat)
    (hsteady : Steady cm tl allowedExts env server limit input cat after)
    {rows : List (FolderKey × FolderRow)} (hrows : rows.Perm (after.folderRows (cm.lower env)))
    {folder : Str} (hactive : folder ∈ input.activeFolders) :
    neverCrawled (folderCrawledAtOf rows) folder = false := by
  obtain ⟨dirty, hdirty, hkeys, hvisits⟩ := hrun.visited
  obtain ⟨key, hsegment, henv, hscanned⟩ : ∃ key : FolderKey,
      lastSegment key.folderPath = folder ∧ key.environment = cm.lower env ∧
        ((after.folders.get? key).bind FolderRow.crawledAt).isSome := by
    subst hafter
    by_cases hvisited : folder ∈ visits.map Prod.fst
    · -- the visit of this refresh sets the scan time
      obtain ⟨visit, hmem, rfl⟩ := List.mem_map.mp hvisited
      exact ⟨_, (hsteady.flat _ hactive).lastSegment_eq, rfl, isSome_crawledAt_runVisits
        (Or.inr ⟨visit, hmem, rfl, (hvisits visit hmem).2.2⟩)⟩
    · -- the folder was not marked, so it had a scan time before
      have hcrawled : ¬ neverCrawled (folderCrawledAtOf input.folderRows) folder = true := by
        intro hnever
        obtain ⟨leaves, hleaves, -⟩ := ((marked_of_dirtyMap hdirty).2.2 folder folder).mpr
          (Or.inl (marked_markNeverCrawled.mpr ⟨hactive, hnever, rfl⟩))
        exact hvisited (hkeys ▸ Dict.mem_keys_iff.mpr ⟨leaves, hleaves⟩)
      obtain ⟨⟨key, row⟩, hrow, hsegment, t, ht⟩ := exists_of_not_neverCrawled hcrawled
      obtain ⟨hget, henv⟩ := Catalog.mem_folderRows.mp (hrun.reads.folderRows.mem_iff.mp hrow)
      refine ⟨key, hsegment, henv, isSome_crawledAt_runVisits (Or.inl ?_)⟩
      rw [hget, Option.bind_some, ht]
      rfl
  cases hget : after.folders.get? key with
  | none => simp [hget] at hscanned
  | some row =>
    rw [hget, Option.bind_some] at hscanned
    have hunique : UniqueSegments cm env after := hsteady.segments after (by simp)
    have hrow : (key, row) ∈ rows := hrows.mem_iff.mpr (Catalog.mem_folderRows.mpr ⟨hget, henv⟩)
    rw [← hsegment]
    exact not_neverCrawled_of_row ((hrows.map _).nodup_iff.mpr hunique) hrow hscanned

/-- After a completed refresh, the records at the head of both logs are up to date.

**Proof sketch.** If the folder of the record was crawled, the file that it lists has its row now.
If it was not, the record was up to date before because of some row; no crawled folder lists the id
of that row, so it is unchanged. -/
lemma verdict_second
    (hrun : CompletedRefresh cm tl xxh allowedExts env server limit domains input cat visits)
    {after : Catalog} (hafter : after = runVisits cm xxh allowedExts env domains visits cat)
    (hsteady : Steady cm tl allowedExts env server limit input cat after)
    (hkeeps : KeepsFolders cm tl env server limit input cat) {second : DeltaInput}
    (hreads : second.Reads cm env after) {record : LogRecord}
    (hrecord : record ∈ input.stdProcessed cm tl ++ input.oceProcessed cm tl) :
    second.verdict cm tl record = .ok true := by
  have hlogged : record ∈ input.std tl ++ input.oce tl := mem_records_iff.mpr (Or.inl hrecord)
  obtain ⟨hactive, haware⟩ := DeltaInput.mem_activeFolders_of_mem hlogged
  have hunique : UniqueBaseNames cm env after := hsteady.names after (by simp)
  have hnames : (second.fileRows.map fun row => stripExtension cm row.name).Nodup :=
    (hreads.fileRows.map _).nodup_iff.mpr hunique
  obtain ⟨dirty, hdirty, hkeys, hvisits⟩ := hrun.visited
  obtain ⟨hdefined, -, hmarked⟩ := marked_of_dirtyMap hdirty
  by_cases hvisited : record.folderName ∈ visits.map Prod.fst
  · obtain ⟨item, ⟨items, hitems, hitem⟩, hname, t, htime, hnaive, hnew⟩ :=
      hsteady.listed record hlogged
    have hget := get?_files_of_visited hrun hsteady hactive hvisited hitems hitem
    rw [← hafter] at hget
    have hrow := hreads.fileRows.mem_iff.mpr (Catalog.mem_fileRows.mpr ⟨⟨_, hget⟩, rfl⟩)
    refine verdict_of_row hnames hrow hname htime (Datetime.gt?_eq_ok_iff.mpr ⟨?_, ?_⟩)
    · rw [haware, hnaive]
    · simpa using hnew
  · have hfresh : input.verdict cm tl record = .ok true := by
      obtain ⟨fresh, hverdict⟩ := hdefined record hrecord
      cases fresh with
      | true => exact hverdict
      | false =>
        obtain ⟨leaves, hleaves, -⟩ := (hmarked record.folderName record.leaf).mpr
          (Or.inr ⟨record, hrecord, hverdict, rfl, rfl⟩)
        exact absurd (hkeys ▸ Dict.mem_keys_iff.mpr ⟨leaves, hleaves⟩) hvisited
    obtain ⟨row, hrow, hname, t, htime, hnew⟩ := exists_row_of_verdict hfresh
    obtain ⟨⟨fileId, hget⟩, henv⟩ := Catalog.mem_fileRows.mp (hrun.reads.fileRows.mem_iff.mp hrow)
    have hkept : after.files.get? fileId = some row := by
      rw [hafter, get?_files_runVisits]
      cases hlast : lastListing (runCommits cm xxh allowedExts env visits) fileId with
      | none => exact hget
      | some l =>
        obtain ⟨c, file⟩ := l
        obtain ⟨hc, hfile, hid⟩ := mem_of_lastListing hlast
        obtain ⟨folder, hfolder, hactive', -, items, hitems, hfiles⟩ :=
          listing_of_mem_runCommits hrun hsteady.flat hc
        rw [hfiles] at hfile
        obtain ⟨item, hitem, rfl⟩ := List.mem_map.mp hfile
        have hsame := hkeeps record hlogged fileId row hget henv hname folder hactive' items hitems
          item hitem hid
        exact absurd (hsame ▸ hfolder) hvisited
    have hrow' := hreads.fileRows.mem_iff.mpr (Catalog.mem_fileRows.mpr ⟨⟨_, hkept⟩, henv⟩)
    exact verdict_of_row hnames hrow' hname htime hnew

/-- **Convergence on flat folders.** After a completed refresh of flat folders whose log records
name listed files, a second refresh with the same logs and the same server marks no folder and
crawls nothing, as long as no known file has moved to another folder.

**Proof sketch.** Every active folder has a scan time now. The second refresh meets three fresh
records at the head of each log, since the first one looked at these at least. -/
theorem dirtyMap_second
    (hrun : CompletedRefresh cm tl xxh allowedExts env server limit domains input cat visits)
    (hsteady : Steady cm tl allowedExts env server limit input cat
      (runVisits cm xxh allowedExts env domains visits cat))
    (hkeeps : KeepsFolders cm tl env server limit input cat) {second : DeltaInput}
    (hsame : input.SameLogs second)
    (hreads : second.Reads cm env (runVisits cm xxh allowedExts env domains visits cat)) :
    dirtyMap cm tl second = .ok ∅ ∧
      ∀ visits', VisitsOf ∅ (∅ : DirtyMap).keys visits' → visits' = [] := by
  have hstd : second.std tl = input.std tl := by
    unfold DeltaInput.std
    rw [hsame.active, hsame.stdLog]
  have hoce : second.oce tl = input.oce tl := by
    unfold DeltaInput.oce
    rw [hsame.active, hsame.oceLog]
  constructor
  · apply dirtyMap_eq_empty
    · intro folder hfolder
      exact neverCrawled_of_completed hrun rfl hsteady hreads.folderRows (hsame.active ▸ hfolder)
    · rw [hstd, hoce]
      intro record hrecord
      refine verdict_second hrun rfl hsteady hkeeps hreads ?_
      rcases List.mem_append.mp hrecord with h | h
      · exact List.mem_append_left _ (EarlyStop.mem_processed_of_mem_take h)
      · exact List.mem_append_right _ (EarlyStop.mem_processed_of_mem_take h)
  · intro visits' hvisits'
    cases hvisits'
    rfl

end Second

/-! ## A file id that moves -/

/-- A file of the sample folders. -/
def listedItem (name fileId : Str) : RawItem :=
  ⟨some "File".toList, some name, some 9, some 4, some "2026-07-08T00:00:00Z".toList, some fileId⟩

/-- A server with two folders. The load file has a new id, and the price file has a given one. -/
def twoFolderServer (priceId : Str) : FileServer := fun path =>
  if path = "/TP_export/Load_r3/".toList then [.ok [listedItem "07_Load_r3.csv".toList "y".toList]]
  else if path = "/TP_export/Price_r3/".toList then
    [.ok [listedItem "07_Price_r3.csv".toList priceId]]
  else []

/-- The domains of the two folders. -/
def twoDomains : List (Str × List Str) :=
  [("Load".toList, ["Load_r3".toList]), ("Market".toList, ["Price_r3".toList])]

/-- A visit to one of the folders. -/
def visitOf (folder : Str) (listing : Except PyError (List RawItem)) : FolderVisit :=
  ⟨false, [(folder, ⟨listing, false⟩)], false, Datetime.utc 1783468900000000⟩

/-- The catalog after both folders were crawled, when the load file had another id and the price
folder was empty. -/
def twoFolderCatalog : Catalog :=
  runVisits CaseMap.ascii id [".csv".toList] "IOP".toList twoDomains
    [("Load_r3".toList, visitOf "Load_r3".toList
      (.ok [listedItem "07_Load_r3.csv".toList "x".toList])),
    ("Price_r3".toList, visitOf "Price_r3".toList (.ok []))] Catalog.empty

/-- The input of a refresh on a catalog of the two folders. The log names both files. -/
def twoFolderInput (cat : Catalog) : DeltaInput where
  activeFolders := ["Load_r3".toList, "Price_r3".toList]
  stdLog :=
    [⟨some "07_Load_r3.csv".toList, none, some "08-07-2026 00:00:00".toList⟩,
      ⟨some "07_Price_r3.csv".toList, none, some "08-07-2026 00:00:00".toList⟩]
  oceLog := []
  fileRows := cat.fileRows "iop".toList
  folderRows := cat.folderRows "iop".toList

/-- The visit of the first refresh, to the price folder. -/
def priceVisits (priceId : Str) : List (Str × FolderVisit) :=
  [("Price_r3".toList, visitOf "Price_r3".toList
    (serverListing (twoFolderServer priceId) 2 "Price_r3".toList))]

/-- The catalog after the first refresh. -/
def refreshedCatalog (priceId : Str) : Catalog :=
  runVisits CaseMap.ascii id [".csv".toList] "IOP".toList twoDomains (priceVisits priceId)
    twoFolderCatalog

/-- The listing of the load folder. -/
lemma serverListing_load (priceId : Str) :
    serverListing (twoFolderServer priceId) 2 "Load_r3".toList =
      .ok [listedItem "07_Load_r3.csv".toList "y".toList] := rfl

/-- The listing of the price folder. -/
lemma serverListing_price (priceId : Str) :
    serverListing (twoFolderServer priceId) 2 "Price_r3".toList =
      .ok [listedItem "07_Price_r3.csv".toList priceId] := rfl

/-- The input of the refresh is read from the catalog. -/
lemma reads_twoFolderInput (cat : Catalog) :
    (twoFolderInput cat).Reads CaseMap.ascii "IOP".toList cat := by
  have henv : CaseMap.ascii.lower "IOP".toList = "iop".toList := by decide
  constructor
  · rw [henv]
    exact List.Perm.refl _
  · rw [henv]
    exact List.Perm.refl _

/-- Both inputs have the same logs. -/
lemma sameLogs_twoFolderInput (cat cat' : Catalog) :
    (twoFolderInput cat).SameLogs (twoFolderInput cat') := ⟨rfl, rfl, rfl⟩

/-- The refresh visits the price folder and completes. -/
lemma completedRefresh_price (priceId : Str) :
    CompletedRefresh CaseMap.ascii sampleTimes id [".csv".toList] "IOP".toList
      (twoFolderServer priceId) 2 twoDomains (twoFolderInput twoFolderCatalog) twoFolderCatalog
      (priceVisits priceId) where
  active := rfl
  reads := reads_twoFolderInput _
  visited := by
    refine ⟨Dict.ofList [("Price_r3".toList, {"Price_r3".toList})], by decide +kernel, rfl, ?_⟩
    intro visit hvisit
    obtain rfl := List.mem_singleton.mp hvisit
    refine ⟨FolderVisit.visits_singleton rfl, ⟨rfl, fun leaf hleaf => ?_⟩, rfl⟩
    obtain rfl := List.mem_singleton.mp hleaf
    rfl

/-- The records of the log of the two folders. -/
lemma records_twoFolderInput (cat : Catalog) :
    (twoFolderInput cat).std sampleTimes ++ (twoFolderInput cat).oce sampleTimes =
      [⟨"07_Load_r3.csv".toList, "Load_r3".toList, Datetime.utc 1783468800000000⟩,
        ⟨"07_Price_r3.csv".toList, "Price_r3".toList, Datetime.utc 1783468800000000⟩] := rfl

/-- Each of the two folders lists one file. -/
lemma listed_twoFolders {priceId : Str} {folder : Str} {items : List RawItem} {item : RawItem}
    (hfolder : folder ∈ (twoFolderInput twoFolderCatalog).activeFolders)
    (hitems : serverListing (twoFolderServer priceId) 2 folder = .ok items) (hitem : item ∈ items) :
    (folder = "Load_r3".toList ∧ item = listedItem "07_Load_r3.csv".toList "y".toList) ∨
      (folder = "Price_r3".toList ∧ item = listedItem "07_Price_r3.csv".toList priceId) := by
  rcases List.mem_cons.mp hfolder with rfl | hfolder
  · rw [serverListing_load, Except.ok.injEq] at hitems
    subst hitems
    exact Or.inl ⟨rfl, List.mem_singleton.mp hitem⟩
  · obtain rfl := List.mem_singleton.mp hfolder
    rw [serverListing_price, Except.ok.injEq] at hitems
    subst hitems
    exact Or.inr ⟨rfl, List.mem_singleton.mp hitem⟩

/-- Nothing changes on the server behind the refresh. -/
lemma steady_price {priceId : Str} (h : priceId = "x".toList ∨ priceId = "z".toList) :
    Steady CaseMap.ascii sampleTimes [".csv".toList] "IOP".toList (twoFolderServer priceId) 2
      (twoFolderInput twoFolderCatalog) twoFolderCatalog (refreshedCatalog priceId) where
  flat := by
    intro folder hfolder
    rcases List.mem_cons.mp hfolder with rfl | hfolder
    · exact ⟨by decide, by decide, by decide, by decide⟩
    · obtain rfl := List.mem_singleton.mp hfolder
      exact ⟨by decide, by decide, by decide, by decide⟩
  listed := by
    intro record hrecord
    rw [records_twoFolderInput] at hrecord
    have htime : parseDbTimestamp sampleTimes "2026-07-08T00:00:00Z".toList =
        some (Datetime.utc 1783468800000000) := rfl
    rcases List.mem_cons.mp hrecord with rfl | hrecord
    · exact ⟨_, ⟨_, serverListing_load priceId, List.mem_singleton.mpr rfl⟩, by decide, _,
        htime, rfl, le_refl _⟩
    · obtain rfl := List.mem_singleton.mp hrecord
      exact ⟨_, ⟨_, serverListing_price priceId, List.mem_singleton.mpr rfl⟩, rfl, _, htime, rfl,
        le_refl _⟩
  names := by
    unfold UniqueBaseNames
    rcases h with rfl | rfl
    · decide +kernel
    · decide +kernel
  segments := by
    unfold UniqueSegments
    rcases h with rfl | rfl
    · decide +kernel
    · decide +kernel
  ids := by
    intro folder hfolder folder' hfolder' items items' hitems hitems' item hitem item' hitem' hid
    have hother : "y".toList ≠ priceId := by
      rcases h with rfl | rfl
      · decide
      · decide
    rcases listed_twoFolders hfolder hitems hitem with ⟨rfl, rfl⟩ | ⟨rfl, rfl⟩
    · rcases listed_twoFolders hfolder' hitems' hitem' with ⟨rfl, rfl⟩ | ⟨rfl, rfl⟩
      · exact ⟨rfl, rfl⟩
      · exact absurd hid hother
    · rcases listed_twoFolders hfolder' hitems' hitem' with ⟨rfl, rfl⟩ | ⟨rfl, rfl⟩
      · exact absurd hid.symm hother
      · exact ⟨rfl, rfl⟩

/-- The convergence theorem on the two folders, when the price file has an id of its own. -/
theorem dirtyMap_second_twoFolders :
    dirtyMap CaseMap.ascii sampleTimes (twoFolderInput (refreshedCatalog "z".toList)) = .ok ∅ := by
  have hkeeps : KeepsFolders CaseMap.ascii sampleTimes "IOP".toList (twoFolderServer "z".toList) 2
      (twoFolderInput twoFolderCatalog) twoFolderCatalog := by
    intro record _ fileId row hget _ _ folder hfolder items hitems item hitem hid
    have hknown : fileId ∈ twoFolderCatalog.files.keys := Dict.mem_keys_iff.mpr ⟨row, hget⟩
    have hx : fileId = "x".toList := by
      have hkeys : twoFolderCatalog.files.keys = ["x".toList] := by decide +kernel
      rw [hkeys] at hknown
      exact List.mem_singleton.mp hknown
    rcases listed_twoFolders hfolder hitems hitem with ⟨rfl, rfl⟩ | ⟨rfl, rfl⟩
    · exact absurd (hid.trans hx) (by decide)
    · exact absurd (hid.trans hx) (by decide)
  exact (dirtyMap_second (completedRefresh_price _) (steady_price (Or.inr rfl)) hkeeps
    (sameLogs_twoFolderInput _ _) (reads_twoFolderInput (refreshedCatalog "z".toList))).1

/-- When the price file is published under the former id of the load file, the first refresh takes
over the row of the load file, and the second one marks the load folder. -/
theorem not_dirtyMap_second_moved :
    ∃ (server : FileServer) (domains : List (Str × List Str)) (input second : DeltaInput)
      (cat : Catalog) (visits : List (Str × FolderVisit)),
      CompletedRefresh CaseMap.ascii sampleTimes id [".csv".toList] "IOP".toList server 2 domains
        input cat visits ∧
      Steady CaseMap.ascii sampleTimes [".csv".toList] "IOP".toList server 2 input cat
        (runVisits CaseMap.ascii id [".csv".toList] "IOP".toList domains visits cat) ∧
      input.SameLogs second ∧
      second.Reads CaseMap.ascii "IOP".toList
        (runVisits CaseMap.ascii id [".csv".toList] "IOP".toList domains visits cat) ∧
      ∃ dirty, dirtyMap CaseMap.ascii sampleTimes second = .ok dirty ∧
        Marked dirty "Load_r3".toList "Load_r3".toList := by
  have hsecond : dirtyMap CaseMap.ascii sampleTimes (twoFolderInput (refreshedCatalog "x".toList)) =
      .ok (Dict.ofList [("Load_r3".toList, {"Load_r3".toList})]) := by decide +kernel
  refine ⟨twoFolderServer "x".toList, twoDomains, twoFolderInput twoFolderCatalog,
    twoFolderInput (refreshedCatalog "x".toList), twoFolderCatalog, priceVisits "x".toList,
    completedRefresh_price _, steady_price (Or.inl rfl), sameLogs_twoFolderInput _ _,
    reads_twoFolderInput (refreshedCatalog "x".toList), _, hsecond, {"Load_r3".toList}, rfl, ?_⟩
  exact Finset.mem_singleton_self _

end EntsoePipeline
