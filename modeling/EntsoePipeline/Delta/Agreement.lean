import EntsoePipeline.Delta.Refresh
import EntsoePipeline.Fms.Listing
import EntsoePipeline.Lib.LastWrite

set_option relaxedAutoImplicit false
set_option autoImplicit false

/-!
# The two crawls of a folder

The full crawl lists an active folder from its top, the delta refresh lists its dirty leaves. Both
write a row for each file they list, under the same folder key and file id. The name in the row is
relative to the directory where the listing started, and it is digested too; so both crawls write
the same row exactly for the files whose only dirty leaf is the active folder itself.

## Main definitions

* `EntsoePipeline.crawledRow` — the row that a crawl writes for a file below its directory.
* `EntsoePipeline.RowsAgree` — the delta refresh leaves the row of the full crawl behind, in
  whichever order it visits the dirty leaves.
* `EntsoePipeline.CrawledLeaf` — a dirty leaf that lists a given directory.

## Main results

* `EntsoePipeline.exists_namesDirectory_leaf` — the leaf of a log record names a directory.
* `EntsoePipeline.rowsAgree_iff` — when both crawls write the same row.
* `EntsoePipeline.not_rowsAgree_area` — they do not for a file of the capacity evolution.

## Implementation notes

Both crawls see the same tree, and no request or statement fails. The recursion limit exceeds the
depth of the tree, so no listing exhausts it.
-/

namespace EntsoePipeline

open Py LastWrite

/-! ## Rows -/

/-- The row that a crawl writes for a file; the path leads from the crawled directory to the
directory of the file. -/
def crawledRow (xxh : Str → Str) (key : FolderKey) (rel : List (Segment '/')) (item : RawItem) :
    FileRow :=
  (fileRow key (mapRawFmsItem xxh (relativeItem (renderPath rel) item))).2

section Rows

variable {xxh : Str → Str} {key : FolderKey}

/-- The id of a record is that of the item. -/
lemma fileId_mapRawFmsItem (path : Str) (item : RawItem) :
    (mapRawFmsItem xxh (relativeItem path item)).fileId = item.itemId := by
  unfold relativeItem
  split_ifs with hpath
  · rfl
  · rfl

/-- A path becomes longer when a directory is put before it. -/
lemma length_itemName_relativeItem_lt {base : List (Segment '/')} (h : base ≠ [])
    (rel : List (Segment '/')) (item : RawItem) :
    (relativeItem (renderPath rel) item).itemName.length <
      (relativeItem (renderPath (base ++ rel)) item).itemName.length := by
  have hname : ∀ segs : List (Segment '/'), segs ≠ [] →
      (relativeItem (renderPath segs) item).itemName =
        renderPath segs ++ '/' :: item.itemName := by
    intro segs hsegs
    unfold relativeItem
    rw [if_neg (renderPath_ne_nil hsegs)]
    rfl
  rw [hname (base ++ rel) (by simp [h])]
  cases rel with
  | nil =>
    show item.itemName.length < _
    rw [List.length_append, List.length_cons]
    omega
  | cons seg rel =>
    rw [hname _ (by simp), renderPath_append h (by simp)]
    simp only [List.length_append, List.length_cons]
    omega

/-- The row determines the directory where the crawl started. -/
lemma crawledRow_append_eq_iff {base rel : List (Segment '/')} {item : RawItem} :
    crawledRow xxh key rel item = crawledRow xxh key (base ++ rel) item ↔ base = [] := by
  constructor
  · intro h
    by_contra hne
    have hlength := length_itemName_relativeItem_lt hne rel item
    have hname := congrArg (List.length ∘ FileRow.name) h
    change (relativeItem (renderPath rel) item).itemName.length =
      (relativeItem (renderPath (base ++ rel)) item).itemName.length at hname
    omega
  · rintro rfl
    rfl

/-- The rows of a listing are those of the files of its directory. -/
lemma perm_rows {sub : FmsTree} {items : List RawItem}
    (hitems : items.Perm (relativeFiles [] sub)) :
    ((items.map (mapRawFmsItem xxh)).map (fileRow key)).Perm
      (sub.files.map fun f => (f.2.itemId, crawledRow xxh key f.1 f.2)) := by
  have hlisted : ((relativeFiles [] sub).map (mapRawFmsItem xxh)).map (fileRow key) =
      sub.files.map fun f => (f.2.itemId, crawledRow xxh key f.1 f.2) := by
    rw [relativeFiles, List.map_map, List.map_map]
    exact List.map_congr_left fun f _ => Prod.ext (@fileId_mapRawFmsItem xxh _ f.2) rfl
  rw [← hlisted]
  exact (hitems.map (mapRawFmsItem xxh)).map (fileRow key)

/-- The ids of a listing are those of the files of its directory. -/
lemma perm_fileIds {sub : FmsTree} {items : List RawItem}
    (hitems : items.Perm (relativeFiles [] sub)) :
    ((items.map (mapRawFmsItem xxh)).map FileMeta.fileId).Perm
      (sub.files.map fun f => f.2.itemId) := by
  have hlisted : ((relativeFiles [] sub).map (mapRawFmsItem xxh)).map FileMeta.fileId =
      sub.files.map fun f => f.2.itemId := by
    rw [relativeFiles, List.map_map, List.map_map]
    exact List.map_congr_left fun f _ => @fileId_mapRawFmsItem xxh _ f.2
  rw [← hlisted]
  exact (hitems.map (mapRawFmsItem xxh)).map FileMeta.fileId

/-- The rows that the listing of a directory writes: one for each file, under its id. -/
lemma get?_setAll_listing {sub : FmsTree} (hids : (sub.files.map fun f => f.2.itemId).Nodup)
    {items : List RawItem} (hitems : items.Perm (relativeFiles [] sub)) (d : Dict Str FileRow) :
    let rows := (items.map (mapRawFmsItem xxh)).map (fileRow key)
    (rows.map Prod.fst).Nodup ∧
      (∀ f ∈ sub.files, (d.setAll rows).get? f.2.itemId = some (crawledRow xxh key f.1 f.2)) ∧
      ∀ fileId, fileId ∉ sub.files.map (fun f => f.2.itemId) →
        (d.setAll rows).get? fileId = d.get? fileId := by
  intro rows
  have hrows : rows.Perm (sub.files.map fun f => (f.2.itemId, crawledRow xxh key f.1 f.2)) :=
    perm_rows hitems
  have hkeys : (rows.map Prod.fst).Perm (sub.files.map fun f => f.2.itemId) := by
    rw [List.map_map]
    exact @perm_fileIds xxh sub items hitems
  have hnodup : (rows.map Prod.fst).Nodup := hkeys.nodup_iff.mpr hids
  refine ⟨hnodup, ?_, ?_⟩
  · intro f hf
    apply (Dict.get?_setAll_eq_some_iff hnodup).mpr
    exact Or.inl (hrows.mem_iff.mpr (List.mem_map_of_mem hf))
  · intro fileId hfileId
    have hnot : fileId ∉ rows.map Prod.fst := fun hmem => hfileId (hkeys.mem_iff.mp hmem)
    ext row
    rw [Dict.get?_setAll_eq_some_iff hnodup]
    constructor
    · rintro (hmem | ⟨-, hget⟩)
      · exact absurd (List.mem_map_of_mem hmem) hnot
      · exact hget
    · exact fun hget => Or.inr ⟨hnot, hget⟩

end Rows

/-! ## Leaves -/

/-- **Leaves name directories.** The leaf that is marked for a log record names a directory below
the folder of the record.

**Proof sketch.** The parts of a file name have no separator, and the month and the day are not
empty. An empty area leaves a separator behind the path of the day, which the lister drops. -/
theorem exists_namesDirectory_leaf {top : Segment '/'} {record : LogRecord}
    (hfolder : record.folderName = top.text) (hname : '/' ∉ record.fileName) :
    ∃ base, NamesDirectory tpExport top record.leaf base := by
  have htop : renderPath [top] = top.text := join_singleton _ _
  have hself : NamesDirectory tpExport top top.text [] := htop ▸ namesDirectory_renderPath _ _ []
  have hpart : ∀ part ∈ split '_' record.fileName, '/' ∉ part := by
    intro part hpart hslash
    have hmem : '/' ∈ join ['_'] (split '_' record.fileName) := mem_join hpart hslash
    rw [join_split] at hmem
    exact hname hmem
  unfold LogRecord.leaf resolveExactFmsFolder
  rw [hfolder]
  split_ifs with hevolution
  · split
    · rename_i year month day outArea rest hsplit
      simp only [hsplit, List.forall_mem_cons] at hpart
      obtain ⟨hyear, hmonth, hday, harea, -⟩ := hpart
      have hsep : '/' ≠ '_' := by decide
      let monthDir : Segment '/' := ⟨year ++ '_' :: month, by simp, by simp [hyear, hmonth]⟩
      let dayDir : Segment '/' :=
        ⟨year ++ '_' :: (month ++ '_' :: day), by simp, by simp [hyear, hmonth, hday]⟩
      by_cases hempty : outArea = []
      · refine ⟨[monthDir, dayDir], ?_⟩
        have hpath := namesDirectory_renderPath_concat tpExport top [monthDir, dayDir]
        subst hempty
        simpa [renderPath, join_cons, monthDir, dayDir] using hpath
      · refine ⟨[monthDir, dayDir, ⟨outArea, hempty, harea⟩], ?_⟩
        have hpath :=
          namesDirectory_renderPath tpExport top [monthDir, dayDir, ⟨outArea, hempty, harea⟩]
        exact hpath
    · exact ⟨[], hself⟩
  · exact ⟨[], hself⟩

/-! ## The two crawls -/

section Crawls

variable (cm : CaseMap) (xxh : Str → Str) (allowedExts : List Str) (env : Str)
  (server : FileServer) (limit : ℕ)

/-- The listing of a folder or leaf by the server. -/
def serverListing (folder : Str) : Except PyError (List RawItem) :=
  listFolderRawItemsRecursive server "TP_export".toList folder limit []

/-- The crawls of some leaves by the server. -/
def serverLeaves (order : List Str) : List (Str × LeafCrawl) :=
  order.map fun leaf => (leaf, ⟨serverListing server limit leaf, false⟩)

/-- A visit runs against the server, and no statement of its leaves fails. -/
structure FolderVisit.OnServer (visit : FolderVisit) : Prop where
  ensured : visit.ensureFails = false
  /-- The leaves are listed by the server and committed. -/
  leaves : ∀ leaf ∈ visit.leaves, leaf.2 = ⟨serverListing server limit leaf.1, false⟩

/-- The delta refresh leaves the same row behind as a catalog has, whichever catalog it starts from
and in whichever order it visits the dirty leaves of the folder. -/
def RowsAgree (dirty : DirtyMap) (folder : Str) (full : Catalog) (fileId : Str) : Prop :=
  ∀ (visit : FolderVisit) (domain : Str) (cat : Catalog), visit.Visits dirty folder →
    visit.OnServer server limit →
      (refreshFolder cm xxh allowedExts env folder domain visit cat).files.get? fileId =
        full.files.get? fileId

/-- A dirty leaf that is crawled as a directory and contains a directory `dir` of the folder;
`baseOf` gives the directory of each leaf. -/
structure CrawledLeaf (dirty : DirtyMap) (folder : Str) (baseOf : Str → List (Segment '/'))
    (dir : List (Segment '/')) (leaf : Str) : Prop where
  marked : Marked dirty folder leaf
  /-- The name of the leaf has no known extension. -/
  crawled : endsWithAny leaf allowedExts = false
  above : baseOf leaf <+: dir

/-- The row of a file that the crawl of a leaf writes, if any. -/
def leafRow (key : FolderKey) (baseOf : Str → List (Segment '/')) (dir : List (Segment '/'))
    (item : RawItem) (leaf : Str) : Option FileRow :=
  if endsWithAny leaf allowedExts = false ∧ baseOf leaf <+: dir then
    some (crawledRow xxh key (dir.drop (baseOf leaf).length) item)
  else none

variable {cm xxh allowedExts env server limit}

/-- The crawl of a leaf whose listing has distinct ids. -/
lemma crawlLeaf_of_listing {leaf : Str} (hext : endsWithAny leaf allowedExts = false)
    {items : List RawItem} (hids : ((items.map (mapRawFmsItem xxh)).map FileMeta.fileId).Nodup) :
    crawlLeaf xxh allowedExts leaf ⟨.ok items, false⟩ = .ok (items.map (mapRawFmsItem xxh)) := by
  rw [crawlLeaf_eq_ok_iff, crawlMetadataFolder_of_directory hext]
  exact ⟨rfl, Or.inr ⟨rfl, hids⟩⟩

/-- A leaf whose name has a known extension has no files, whatever the server shows. -/
lemma crawlLeaf_of_extension {leaf : Str} (hext : endsWithAny leaf allowedExts = true)
    (io : LeafCrawl) : crawlLeaf xxh allowedExts leaf io = .ok [] := by
  rw [crawlLeaf_eq_ok_iff, crawlMetadataFolder_of_extension hext]
  exact ⟨rfl, Or.inl rfl⟩

/-- A leaf whose listing fails is not crawled. -/
lemma crawlLeaf_of_error {leaf : Str} (hext : endsWithAny leaf allowedExts = false) (e : PyError)
    (commitFails : Bool) :
    crawlLeaf xxh allowedExts leaf ⟨.error e, commitFails⟩ = .error e := by
  rw [crawlLeaf, crawlMetadataFolder_of_directory hext]
  rfl

section Leaf

variable {top : Segment '/'} {tree : FmsTree} {key : FolderKey} {leaf : Str}

/-- A leaf that is no directory of the tree writes nothing. -/
lemma files_refreshLeaf_of_missing (hserves : Serves server tpExport top tree)
    (hext : endsWithAny leaf allowedExts = false) {base : List (Segment '/')}
    (hbase : NamesDirectory tpExport top leaf base) (hsub : tree.sub? base = none)
    (state : Catalog × Bool) :
    (refreshLeaf xxh allowedExts key state
      (leaf, ⟨serverListing server limit leaf, false⟩)).1.files = state.1.files := by
  rw [refreshLeaf_eq]
  cases hlisting : serverListing server limit leaf with
  | error e =>
    rw [crawlLeaf_of_error hext]
  | ok items =>
    obtain rfl := eq_nil_of_listFolderRawItemsRecursive hserves hbase hsub hlisting
    rw [crawlLeaf_of_listing hext (by simp)]
    rfl

/-- A leaf that is a directory of the tree writes the rows of its files. -/
lemma get?_refreshLeaf_of_directory (hserves : Serves server tpExport top tree)
    (hdepth : tree.depth < limit) (hids : (tree.files.map fun f => f.2.itemId).Nodup)
    (hext : endsWithAny leaf allowedExts = false) {base : List (Segment '/')}
    (hbase : NamesDirectory tpExport top leaf base) {sub : FmsTree}
    (hsub : tree.sub? base = some sub) (state : Catalog × Bool) :
    let files := (refreshLeaf xxh allowedExts key state
      (leaf, ⟨serverListing server limit leaf, false⟩)).1.files
    (∀ f ∈ sub.files, files.get? f.2.itemId = some (crawledRow xxh key f.1 f.2)) ∧
      ∀ fileId, fileId ∉ sub.files.map (fun f => f.2.itemId) →
        files.get? fileId = state.1.files.get? fileId := by
  have hlimit : sub.depth < limit := lt_of_le_of_lt (FmsTree.depth_sub?_le hsub) hdepth
  obtain ⟨items, hitems, hperm⟩ := @listFolderRawItemsRecursive_ok _ _ _ _ _ _ hserves hbase []
    sub (by rw [List.append_nil]; exact hsub) _ hlimit
  have hlisting : serverListing server limit leaf = .ok items := hitems
  have hsubids : (sub.files.map fun f => f.2.itemId).Nodup := by
    have hsublist := (FmsTree.files_sub?_sublist hsub).map RawItem.itemId
    rw [List.map_map, List.map_map] at hsublist
    exact hids.sublist hsublist
  obtain ⟨hnodup, hwritten, hkept⟩ :=
    @get?_setAll_listing xxh key sub hsubids items hperm state.1.files
  rw [List.map_map] at hnodup
  rw [refreshLeaf_eq, hlisting, crawlLeaf_of_listing hext hnodup]
  exact ⟨hwritten, hkept⟩

/-- **One leaf.** The crawl of a leaf by the server writes the row of a file when the leaf contains
it, and leaves the row alone otherwise.

**Proof sketch.** A leaf that is no directory has no files. The ids of the files of a directory are
distinct, so a directory that does not contain the file has no other file of its id. -/
lemma get?_refreshLeaf (hserves : Serves server tpExport top tree) (hdepth : tree.depth < limit)
    (hids : (tree.files.map fun f => f.2.itemId).Nodup) {baseOf : Str → List (Segment '/')}
    (hbase : NamesDirectory tpExport top leaf (baseOf leaf)) {dir : List (Segment '/')}
    {item : RawItem} (hfile : (dir, item) ∈ tree.files) (state : Catalog × Bool) :
    (refreshLeaf xxh allowedExts key state
        (leaf, ⟨serverListing server limit leaf, false⟩)).1.files.get? item.itemId =
      (leafRow xxh allowedExts key baseOf dir item leaf).or
        (state.1.files.get? item.itemId) := by
  unfold leafRow
  cases hext : endsWithAny leaf allowedExts with
  | true =>
    rw [if_neg (by simp), refreshLeaf_eq, crawlLeaf_of_extension hext]
    rfl
  | false =>
    cases hsub : tree.sub? (baseOf leaf) with
    | none =>
      have hnot : ¬ baseOf leaf <+: dir := by
        rintro ⟨segs, rfl⟩
        obtain ⟨sub, hsome⟩ := FmsTree.exists_sub?_of_mem_files hserves.distinctNames hfile
        rw [hsub] at hsome
        cases hsome
      rw [if_neg fun h => hnot h.2, files_refreshLeaf_of_missing hserves hext hbase hsub,
        Option.none_or]
    | some sub =>
      obtain ⟨hwritten, hkept⟩ := @get?_refreshLeaf_of_directory xxh allowedExts server limit top
        tree key leaf hserves hdepth hids hext _ hbase sub hsub state
      by_cases habove : baseOf leaf <+: dir
      · obtain ⟨segs, rfl⟩ := habove
        have hmem := (FmsTree.mem_files_sub? hserves.distinctNames hsub).mpr hfile
        rw [if_pos ⟨rfl, List.prefix_append _ _⟩, List.drop_left, Option.some_or]
        exact hwritten _ hmem
      · rw [if_neg fun h => habove h.2, Option.none_or]
        apply hkept
        intro hmem
        obtain ⟨⟨segs, item'⟩, hfile', hid⟩ := List.mem_map.mp hmem
        have hmem' := (FmsTree.mem_files_sub? hserves.distinctNames hsub).mp hfile'
        have heq := List.inj_on_of_nodup_map hids hmem' hfile hid
        exact habove ⟨segs, (Prod.mk.inj heq).1⟩

end Leaf

/-- The listing of the folder itself. -/
lemma exists_serverListing {top : Segment '/'} {tree : FmsTree}
    (hserves : Serves server tpExport top tree) (hdepth : tree.depth < limit) :
    ∃ items, serverListing server limit top.text = .ok items ∧
      items.Perm (relativeFiles [] tree) := by
  have hnames : NamesDirectory tpExport top top.text [] := by
    have hpath := namesDirectory_renderPath tpExport top []
    rwa [show renderPath [top] = top.text from join_singleton _ _] at hpath
  exact @listFolderRawItemsRecursive_ok _ _ _ _ _ _ hserves hnames [] tree rfl _ hdepth

/-- **The full crawl.** A full crawl of the folder writes the row of every file of the tree. -/
lemma get?_ingestFolder {top : Segment '/'} {tree : FmsTree}
    (hserves : Serves server tpExport top tree) (hdepth : tree.depth < limit)
    (hdirectory : endsWithAny top.text allowedExts = false) {domain : Str}
    {rootFilesByName : Dict Str RawItem} {saveFails : Bool} {now : Datetime} {cat full : Catalog}
    (hfull : ingestFolder cm xxh allowedExts env "TP_export".toList domain rootFilesByName top.text
      ⟨serverListing server limit top.text, saveFails, now⟩ cat = .ok full) :
    (tree.files.map fun f => f.2.itemId).Nodup ∧
      ∀ f ∈ tree.files, full.files.get? f.2.itemId =
        some (crawledRow xxh (folderKey cm env "TP_export".toList top.text) f.1 f.2) := by
  obtain ⟨items, hitems, hperm⟩ := exists_serverListing hserves hdepth
  obtain ⟨hids, hget⟩ : ((items.map (mapRawFmsItem xxh)).map FileMeta.fileId).Nodup ∧
      ∀ file ∈ items.map (mapRawFmsItem xxh), full.files.get? file.fileId =
        some (fileRow (folderKey cm env "TP_export".toList top.text) file).2 := by
    rcases ingestFolder_cases hfull with ⟨⟨e, herror⟩, -⟩ | ⟨files, hfiles, -, hsave⟩
    · rw [hitems, crawlMetadataFolder_of_directory hdirectory] at herror
      cases herror
    · rw [hitems, crawlMetadataFolder_of_directory hdirectory] at hfiles
      cases hfiles
      exact ⟨(saveCrawledFolderMetadata_ok hsave).2.2.1,
        (saveCrawledFolderMetadata_ok hsave).2.2.2.1⟩
  have hrows := @perm_rows xxh (folderKey cm env "TP_export".toList top.text) tree items hperm
  constructor
  · exact (perm_fileIds hperm).nodup_iff.mp hids
  · intro f hf
    obtain ⟨file, hfile, hrow⟩ := List.mem_map.mp (hrows.mem_iff.mpr (List.mem_map_of_mem hf))
    obtain ⟨hid, hvalue⟩ := Prod.mk.inj hrow
    rw [← hvalue, ← hid]
    exact hget file hfile

/-- On an empty catalog, the full crawl of a folder whose files have distinct ids succeeds. -/
lemma exists_ingestFolder {top : Segment '/'} {tree : FmsTree}
    (hserves : Serves server tpExport top tree) (hdepth : tree.depth < limit)
    (hdirectory : endsWithAny top.text allowedExts = false)
    (hids : (tree.files.map fun f => f.2.itemId).Nodup) (domain : Str)
    (rootFilesByName : Dict Str RawItem) (now : Datetime) :
    ∃ full, ingestFolder cm xxh allowedExts env "TP_export".toList domain rootFilesByName top.text
      ⟨serverListing server limit top.text, false, now⟩ Catalog.empty = .ok full := by
  obtain ⟨items, hitems, hperm⟩ := exists_serverListing hserves hdepth
  have hnodup := (@perm_fileIds xxh tree items hperm).nodup_iff.mpr hids
  unfold ingestFolder
  rw [hitems, crawlMetadataFolder_of_directory hdirectory, Except.map]
  dsimp only
  unfold saveCrawledFolderMetadata
  rw [if_neg (by simp), if_pos]
  · exact ⟨_, rfl⟩
  · constructor
    · rw [List.map_map]
      exact hnodup
    · intro fileId _ hmem
      cases hmem

/-- The files after a visit are those after its leaves. -/
lemma files_refreshFolder {folder domain : Str} {visit : FolderVisit}
    (hensured : visit.ensureFails = false) (cat : Catalog) :
    (refreshFolder cm xxh allowedExts env folder domain visit cat).files =
      (visit.leaves.foldl
        (refreshLeaf xxh allowedExts (folderKey cm env "TP_export".toList folder))
        (ensureFolder (folderKey cm env "TP_export".toList folder) domain cat, true)).1.files := by
  unfold refreshFolder visitFolder
  rw [if_neg (by simp [hensured])]
  dsimp only
  split_ifs with hcheck
  · rfl
  · unfold checkpointFolder
    split
    · rfl
    · rfl

/-- The dirty leaves of a folder, in some order. -/
lemma exists_leaves (dirty : DirtyMap) (folder : Str) :
    ∃ leaves : List Str, leaves.Nodup ∧ ∀ leaf, leaf ∈ leaves ↔ Marked dirty folder leaf := by
  unfold Marked
  cases dirty.get? folder with
  | none => exact ⟨[], List.nodup_nil, by simp⟩
  | some leaves => exact ⟨leaves.toList, leaves.nodup_toList, by simp⟩

/-- The leaves are visited in the given order. -/
lemma map_fst_serverLeaves (order : List Str) :
    (serverLeaves server limit order).map Prod.fst = order := by
  unfold serverLeaves
  rw [List.map_map]
  exact List.map_id _

/-- The leaves of a visit against the server, by the order in which they are visited. -/
lemma FolderVisit.OnServer.leaves_eq {visit : FolderVisit} (h : visit.OnServer server limit) :
    visit.leaves = serverLeaves server limit (visit.leaves.map Prod.fst) := by
  unfold serverLeaves
  rw [List.map_map]
  refine (List.map_id _).symm.trans (List.map_congr_left fun leaf hleaf => ?_)
  exact Prod.ext rfl (h.leaves leaf hleaf)

/-- Every order of the dirty leaves is the order of a visit against the server. -/
lemma exists_visit {dirty : DirtyMap} {folder : Str} {order : List Str} (hnodup : order.Nodup)
    (hmem : ∀ leaf, leaf ∈ order ↔ Marked dirty folder leaf) :
    ∃ visit : FolderVisit, visit.Visits dirty folder ∧ visit.OnServer server limit ∧
      visit.leaves = serverLeaves server limit order := by
  refine ⟨⟨false, serverLeaves server limit order, false, .utc 0⟩, ?_, ⟨rfl, ?_⟩, rfl⟩
  · unfold FolderVisit.Visits
    rw [map_fst_serverLeaves]
    exact ⟨hnodup, hmem⟩
  · intro leaf hleaf
    obtain ⟨text, -, rfl⟩ := List.mem_map.mp hleaf
    rfl

/-- **A visit.** The row of a file after a visit is the last one that its leaves write, in the order
they are visited, or the old row. -/
lemma get?_serverLeaves {top : Segment '/'} {tree : FmsTree}
    (hserves : Serves server tpExport top tree) (hdepth : tree.depth < limit)
    (hids : (tree.files.map fun f => f.2.itemId).Nodup) {key : FolderKey}
    {baseOf : Str → List (Segment '/')} {dir : List (Segment '/')} {item : RawItem}
    (hfile : (dir, item) ∈ tree.files) {order : List Str}
    (hbase : ∀ leaf ∈ order, NamesDirectory tpExport top leaf (baseOf leaf))
    (state : Catalog × Bool) :
    ((serverLeaves server limit order).foldl (refreshLeaf xxh allowedExts key)
        state).1.files.get? item.itemId =
      (lastWrite (leafRow xxh allowedExts key baseOf dir item) order).or
        (state.1.files.get? item.itemId) := by
  unfold serverLeaves
  rw [List.foldl_map]
  refine @read_foldl _ _ _ _ _ (fun state : Catalog × Bool => state.1.files.get? item.itemId) _
    (fun leaf hleaf s => ?_) state
  exact get?_refreshLeaf hserves hdepth hids (hbase leaf hleaf) hfile s

/-- The rows agree when every order of the dirty leaves ends with the row of the full crawl. -/
lemma rowsAgree_iff_lastWrite {top : Segment '/'} {tree : FmsTree}
    (hserves : Serves server tpExport top tree) (hdepth : tree.depth < limit)
    (hids : (tree.files.map fun f => f.2.itemId).Nodup) {dirty : DirtyMap}
    {baseOf : Str → List (Segment '/')}
    (hbase : ∀ leaf, Marked dirty top.text leaf → NamesDirectory tpExport top leaf (baseOf leaf))
    {dir : List (Segment '/')} {item : RawItem} (hfile : (dir, item) ∈ tree.files)
    {leaves : List Str} (hnodup : leaves.Nodup)
    (hmem : ∀ leaf, leaf ∈ leaves ↔ Marked dirty top.text leaf) {full : Catalog} {row : FileRow}
    (hrow : full.files.get? item.itemId = some row) :
    RowsAgree cm xxh allowedExts env server limit dirty top.text full item.itemId ↔
      ∀ order : List Str, order.Perm leaves →
        lastWrite (leafRow xxh allowedExts (folderKey cm env "TP_export".toList top.text) baseOf dir
          item) order = some row := by
  have hnames : ∀ order : List Str, order.Perm leaves → ∀ leaf ∈ order,
      NamesDirectory tpExport top leaf (baseOf leaf) :=
    fun order horder leaf hleaf => hbase leaf ((hmem leaf).mp (horder.mem_iff.mp hleaf))
  unfold RowsAgree
  rw [hrow]
  constructor
  · intro hagree order horder
    obtain ⟨visit, hvisits, hserver, hleaves⟩ := @exists_visit server limit dirty top.text order
      (horder.nodup_iff.mpr hnodup) fun leaf => horder.mem_iff.trans (hmem leaf)
    have hlast := hagree visit [] Catalog.empty hvisits hserver
    have hold : (ensureFolder (folderKey cm env "TP_export".toList top.text) []
        Catalog.empty).files.get? item.itemId = none := rfl
    rwa [files_refreshFolder hserver.ensured, hleaves,
      get?_serverLeaves hserves hdepth hids hfile (hnames order horder), hold,
      Option.or_none] at hlast
  · intro hall visit domain cat hvisits hserver
    have horder : (visit.leaves.map Prod.fst).Perm leaves :=
      (List.perm_ext_iff_of_nodup hvisits.1 hnodup).mpr fun leaf =>
        (hvisits.2 leaf).trans (hmem leaf).symm
    rw [files_refreshFolder hserver.ensured, hserver.leaves_eq,
      get?_serverLeaves hserves hdepth hids hfile (hnames _ horder), hall _ horder, Option.some_or]

/-- **The two crawls of a folder.** Take a folder whose full crawl succeeds, and a file of it that a
dirty leaf lists. The delta refresh leaves the row of the full crawl behind exactly when every
dirty leaf that lists the file is the folder itself.

**Proof sketch.** A leaf writes the row of the file relative to itself, and the last leaf that
lists the file wins. Every leaf that lists it is the last one in some order, so all of them write
the row of the full crawl; but a row relative to a subdirectory has a shorter name. -/
theorem rowsAgree_iff {top : Segment '/'} {tree : FmsTree}
    (hserves : Serves server tpExport top tree) (hdepth : tree.depth < limit)
    (hdirectory : endsWithAny top.text allowedExts = false) {domain : Str}
    {rootFilesByName : Dict Str RawItem} {saveFails : Bool} {now : Datetime} {cat full : Catalog}
    (hfull : ingestFolder cm xxh allowedExts env "TP_export".toList domain rootFilesByName top.text
      ⟨serverListing server limit top.text, saveFails, now⟩ cat = .ok full)
    {dirty : DirtyMap} {baseOf : Str → List (Segment '/')}
    (hbase : ∀ leaf, Marked dirty top.text leaf → NamesDirectory tpExport top leaf (baseOf leaf))
    {dir : List (Segment '/')} {item : RawItem} (hfile : (dir, item) ∈ tree.files)
    (hleaf : ∃ leaf, CrawledLeaf allowedExts dirty top.text baseOf dir leaf) :
    RowsAgree cm xxh allowedExts env server limit dirty top.text full item.itemId ↔
      ∀ leaf, CrawledLeaf allowedExts dirty top.text baseOf dir leaf → baseOf leaf = [] := by
  obtain ⟨hids, hrows⟩ := get?_ingestFolder hserves hdepth hdirectory hfull
  obtain ⟨leaves, hnodup, hmem⟩ := exists_leaves dirty top.text
  have hwrite : ∀ leaf, CrawledLeaf allowedExts dirty top.text baseOf dir leaf →
      leafRow xxh allowedExts (folderKey cm env "TP_export".toList top.text) baseOf dir item leaf =
        some (crawledRow xxh (folderKey cm env "TP_export".toList top.text)
          (dir.drop (baseOf leaf).length) item) :=
    fun leaf h => if_pos ⟨h.crawled, h.above⟩
  rw [rowsAgree_iff_lastWrite hserves hdepth hids hbase hfile hnodup hmem (hrows _ hfile),
    forall_perm_lastWrite_iff]
  constructor
  · rintro ⟨-, hall⟩ leaf hcrawled
    have hrow := hall leaf ((hmem leaf).mpr hcrawled.marked) _ (hwrite leaf hcrawled)
    obtain ⟨segs, rfl⟩ := hcrawled.above
    rw [List.drop_left] at hrow
    exact crawledRow_append_eq_iff.mp hrow
  · intro hcond
    constructor
    · obtain ⟨leaf, hcrawled⟩ := hleaf
      refine ⟨leaf, (hmem leaf).mpr hcrawled.marked, ?_⟩
      rw [hwrite leaf hcrawled]
      exact Option.some_ne_none _
    · intro leaf hl row hrow
      unfold leafRow at hrow
      split_ifs at hrow with h
      have hnil : baseOf leaf = [] := hcond leaf ⟨(hmem leaf).mp hl, h.1, h.2⟩
      rw [hnil] at hrow
      exact (Option.some.inj hrow).symm

end Crawls

/-! ## A file of the capacity evolution -/

/-- The folder of the capacity evolution. -/
def evolutionFolder : Segment '/' :=
  ⟨"OfferedTransferCapacitiesContinuousEvolution_r3".toList, by decide, by decide⟩

/-- The directory of a file of the capacity evolution: its month, its day and its area. -/
def evolutionDir : List (Segment '/') :=
  [⟨"2026_07".toList, by decide, by decide⟩, ⟨"2026_07_08".toList, by decide, by decide⟩,
    ⟨"DE".toList, by decide, by decide⟩]

/-- A file of the capacity evolution. -/
def evolutionItem : RawItem :=
  ⟨some "File".toList, some "2026_07_08_DE_FR.csv".toList, some 9, some 4,
    some "2026-07-08T00:00:00Z".toList, some "f1".toList⟩

/-- A tree with one file, in a directory for each segment of a path. -/
def pathTree (item : RawItem) (hfile : isFolder item = false) : List (Segment '/') → FmsTree
  | [] => .file item hfile .nil
  | seg :: segs => .folder seg (pathTree item hfile segs) .nil

/-- The tree of the folder. -/
def evolutionTree : FmsTree := pathTree evolutionItem (by decide) evolutionDir

/-- A reader that knows the time of the record below. -/
def evolutionTimes : TimeLib :=
  ⟨fun text => if text = "08-07-2026 00:00:00".toList then some 1783468800000000 else none,
    fun _ => none, fun _ => none⟩

/-- The input of a refresh after the folder was crawled: the log has a record of the file. -/
def evolutionInput : DeltaInput where
  activeFolders := [evolutionFolder.text]
  stdLog := []
  oceLog := [⟨some "2026_07_08_DE_FR.csv".toList, some evolutionFolder.text,
    some "08-07-2026 00:00:00".toList⟩]
  fileRows := []
  folderRows := [(folderKey CaseMap.ascii "IOP".toList "TP_export".toList evolutionFolder.text,
    ⟨"Market".toList, 0, 0, 0, some (.utc 1783400000000000)⟩)]

/-- The server shows the tree of the folder. -/
lemma serves_evolutionTree :
    Serves (treeServer tpExport evolutionFolder evolutionTree) tpExport evolutionFolder
      evolutionTree := by
  apply serves_treeServer
  simp [evolutionTree, evolutionDir, pathTree, FmsTree.DistinctNames, FmsTree.folders]

/-- The server of the folder. -/
def evolutionServer : FileServer := treeServer tpExport evolutionFolder evolutionTree

/-- The dirty map with one leaf of the folder. -/
def evolutionDirty (leaf : Str) : DirtyMap := Dict.ofList [(evolutionFolder.text, {leaf})]

/-- One leaf of the folder is marked. -/
lemma marked_evolutionDirty {leaf leaf' : Str} :
    Marked (evolutionDirty leaf) evolutionFolder.text leaf' ↔ leaf' = leaf :=
  marked_singleton

/-- The full crawl of the folder succeeds. -/
lemma exists_evolutionCatalog : ∃ full, ingestFolder CaseMap.ascii id [".csv".toList] "IOP".toList
    "TP_export".toList "Market".toList ∅ evolutionFolder.text
      ⟨serverListing evolutionServer 1000 evolutionFolder.text, false, .utc 7⟩ Catalog.empty =
        .ok full :=
  exists_ingestFolder serves_evolutionTree (by decide) (by decide) (by decide) _ _ _

/-- The row of the file when the folder itself is dirty. -/
theorem rowsAgree_folder : ∃ full, ingestFolder CaseMap.ascii id [".csv".toList] "IOP".toList
    "TP_export".toList "Market".toList ∅ evolutionFolder.text
      ⟨serverListing evolutionServer 1000 evolutionFolder.text, false, .utc 7⟩ Catalog.empty =
        .ok full ∧
    RowsAgree CaseMap.ascii id [".csv".toList] "IOP".toList evolutionServer 1000
      (evolutionDirty evolutionFolder.text) evolutionFolder.text full evolutionItem.itemId := by
  obtain ⟨full, hfull⟩ := exists_evolutionCatalog
  have hbase : ∀ leaf, Marked (evolutionDirty evolutionFolder.text) evolutionFolder.text leaf →
      NamesDirectory tpExport evolutionFolder leaf [] := by
    intro leaf hmarked
    rw [marked_evolutionDirty.mp hmarked]
    exact namesDirectory_renderPath tpExport evolutionFolder []
  have hleaf : CrawledLeaf [".csv".toList] (evolutionDirty evolutionFolder.text)
      evolutionFolder.text (fun _ => []) evolutionDir evolutionFolder.text :=
    ⟨marked_evolutionDirty.mpr rfl, by decide, List.nil_prefix⟩
  refine ⟨full, hfull, (rowsAgree_iff serves_evolutionTree (by decide) (by decide) hfull hbase
    ?_ ⟨_, hleaf⟩).mpr fun _ _ => rfl⟩
  exact List.mem_singleton.mpr rfl

/-- The refresh marks the directory of the area and writes another row than the full crawl. -/
theorem not_rowsAgree_area : ∃ full, ingestFolder CaseMap.ascii id [".csv".toList] "IOP".toList
    "TP_export".toList "Market".toList ∅ evolutionFolder.text
      ⟨serverListing evolutionServer 1000 evolutionFolder.text, false, .utc 7⟩ Catalog.empty =
        .ok full ∧
    dirtyMap CaseMap.ascii evolutionTimes evolutionInput =
      .ok (evolutionDirty (renderPath (evolutionFolder :: evolutionDir))) ∧
    ¬ RowsAgree CaseMap.ascii id [".csv".toList] "IOP".toList evolutionServer 1000
      (evolutionDirty (renderPath (evolutionFolder :: evolutionDir))) evolutionFolder.text full
        evolutionItem.itemId := by
  obtain ⟨full, hfull⟩ := exists_evolutionCatalog
  refine ⟨full, hfull, by decide, fun hagree => ?_⟩
  have hfile : (evolutionDir, evolutionItem) ∈ evolutionTree.files := List.mem_singleton.mpr rfl
  obtain ⟨hids, hrows⟩ := get?_ingestFolder serves_evolutionTree (by decide) (by decide) hfull
  have hbase : ∀ leaf, Marked (evolutionDirty (renderPath (evolutionFolder :: evolutionDir)))
      evolutionFolder.text leaf → NamesDirectory tpExport evolutionFolder leaf evolutionDir := by
    intro leaf hmarked
    rw [marked_evolutionDirty.mp hmarked]
    exact namesDirectory_renderPath tpExport evolutionFolder evolutionDir
  have hmem : ∀ leaf, leaf ∈ [renderPath (evolutionFolder :: evolutionDir)] ↔
      Marked (evolutionDirty (renderPath (evolutionFolder :: evolutionDir)))
        evolutionFolder.text leaf := by
    intro leaf
    rw [marked_evolutionDirty, List.mem_singleton]
  have hlast := (rowsAgree_iff_lastWrite serves_evolutionTree (by decide) hids hbase hfile
    (List.nodup_singleton _) hmem (hrows _ hfile)).mp hagree _ (List.Perm.refl _)
  revert hlast
  decide

end EntsoePipeline
