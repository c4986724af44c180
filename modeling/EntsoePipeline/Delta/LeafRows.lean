import EntsoePipeline.Delta.Commits
import EntsoePipeline.Delta.Coverage
import Mathlib.Data.Set.Basic

set_option relaxedAutoImplicit false
set_option autoImplicit false

/-!
# Rows left behind under a leaf

The full crawl of a folder deletes its file rows before it inserts the listed ones. The delta
refresh only upserts the files that a leaf lists, by their ids; the row of a file that has vanished
from the leaf, or that was published again under a new id, stays behind.

## Main definitions

* `EntsoePipeline.SitedFiles` — the file rows, with the place where each file was listed.
* `EntsoePipeline.SitedFiles.rowsUnder` — the rows of a folder whose files lay under a leaf.

## Main results

* `EntsoePipeline.rows_saveCrawledFolderMetadata` — a full crawl leaves no other row behind.
* `EntsoePipeline.rowsUnder_commit_iff` — when a leaf crawl leaves no other row behind.
* `EntsoePipeline.rowsUnder_commits_of_apart` — what a run leaves behind under a leaf stays as it is
  while leaves with other files are crawled.
* `EntsoePipeline.not_rowsUnder_deleted` — a reachable catalog where a deleted file keeps its row.

## Implementation notes

The tables do not record where a file lies: a row has its folder and a name relative to the crawled
directory. So the place of each row is kept beside the rows. It is arbitrary for the rows that are
there before a run, and a commit sets it for the files it lists.
-/

namespace EntsoePipeline

open Py

/-! ## Places -/

/-- The file rows, with the path below the root directory where each file was listed when its row
was written. -/
structure SitedFiles where
  rows : Dict Str FileRow
  site : Str → Str

/-- The path of a file that a leaf lists. -/
def Commit.pathOf (c : Commit) (file : FileMeta) : Str := c.leaf ++ '/' :: file.name

/-- A path leads into a leaf. -/
def LiesUnder (leaf path : Str) : Prop := leaf ++ ['/'] <+: path

namespace SitedFiles

/-- The file rows after a commit. -/
def commit (t : SitedFiles) (c : Commit) : SitedFiles where
  rows := t.rows.setAll c.rows
  site fileId := ((c.file? fileId).map c.pathOf).getD (t.site fileId)

/-- The file rows after a list of commits. -/
def commits (t : SitedFiles) (l : List Commit) : SitedFiles := l.foldl commit t

/-- The rows of a folder whose files lay under a leaf. -/
def rowsUnder (t : SitedFiles) (key : FolderKey) (leaf : Str) : Set (Str × FileRow) :=
  {r | t.rows.get? r.1 = some r.2 ∧ r.2.folder = key ∧ LiesUnder leaf (t.site r.1)}

variable {t : SitedFiles} {c : Commit}

/-- The rows behind commits in a row. -/
lemma rows_commits (l : List Commit) : (t.commits l).rows = commitAll t.rows l := by
  induction l generalizing t with
  | nil => rfl
  | cons c l ih => exact ih

/-- The path of a file of a leaf lies under the leaf. -/
lemma liesUnder_pathOf (file : FileMeta) : LiesUnder c.leaf (c.pathOf file) :=
  ⟨file.name, by simp [Commit.pathOf]⟩

/-- The row of a listed file lies under the leaf after its commit. -/
lemma mem_rowsUnder_commit_of_mem {r : Str × FileRow} (hr : r ∈ c.rows) :
    r ∈ (t.commit c).rowsUnder c.key c.leaf := by
  obtain ⟨file, hfile, rfl⟩ := List.mem_map.mp hr
  have hlisted : c.file? file.fileId = some file := Commit.file?_eq_some_iff.mpr ⟨hfile, rfl⟩
  refine ⟨?_, rfl, ?_⟩
  · show (t.rows.setAll c.rows).get? file.fileId = _
    rw [Commit.get?_setAll_rows, hlisted]
    rfl
  · show LiesUnder c.leaf (((c.file? file.fileId).map c.pathOf).getD (t.site file.fileId))
    rw [hlisted]
    exact liesUnder_pathOf file

/-- A row whose id is not listed is under a leaf after a commit exactly when it was before. -/
lemma mem_rowsUnder_commit_of_not_mem {r : Str × FileRow} (hr : r.1 ∉ c.fileIds) {key : FolderKey}
    {leaf : Str} : r ∈ (t.commit c).rowsUnder key leaf ↔ r ∈ t.rowsUnder key leaf := by
  have hlisted : c.file? r.1 = none := Commit.file?_eq_none_iff.mpr hr
  have hrow : (t.commit c).rows.get? r.1 = t.rows.get? r.1 := by
    show (t.rows.setAll c.rows).get? r.1 = _
    rw [Commit.get?_setAll_rows, hlisted]
    rfl
  have hsite : (t.commit c).site r.1 = t.site r.1 := by
    show ((c.file? r.1).map c.pathOf).getD (t.site r.1) = _
    rw [hlisted]
    rfl
  unfold rowsUnder
  rw [Set.mem_ofPred_eq, Set.mem_ofPred_eq, hrow, hsite]

/-- The row under a listed id is the listed one after the commit. -/
lemma mem_rows_of_mem_rowsUnder_commit {r : Str × FileRow} {key : FolderKey} {leaf : Str}
    (hr : r ∈ (t.commit c).rowsUnder key leaf) (hid : r.1 ∈ c.fileIds) : r ∈ c.rows := by
  obtain ⟨file, hfile, hname⟩ := List.mem_map.mp hid
  obtain ⟨fileId, row⟩ := r
  dsimp only at hname
  subst hname
  have hget : (t.rows.setAll c.rows).get? file.fileId = some row := hr.1
  rw [Commit.get?_setAll_rows, Commit.file?_eq_some_iff.mpr ⟨hfile, rfl⟩] at hget
  exact List.mem_map.mpr ⟨file, hfile, Prod.ext rfl (Option.some.inj hget)⟩

/-- A commit leaves exactly its own rows under its leaf when it lists every row that was there. -/
lemma rowsUnder_commit_eq_iff :
    (t.commit c).rowsUnder c.key c.leaf = {r | r ∈ c.rows} ↔
      ∀ r ∈ t.rowsUnder c.key c.leaf, r.1 ∈ c.fileIds := by
  constructor
  · intro heq r hr
    by_contra hid
    have hmem := (mem_rowsUnder_commit_of_not_mem hid).mpr hr
    rw [heq] at hmem
    exact hid (Commit.map_fst_rows ▸ List.mem_map_of_mem hmem)
  · intro hall
    refine Set.Subset.antisymm (fun r hr => ?_) fun r hr => mem_rowsUnder_commit_of_mem hr
    by_cases hid : r.1 ∈ c.fileIds
    · exact mem_rows_of_mem_rowsUnder_commit hr hid
    · exact absurd (hall r ((mem_rowsUnder_commit_of_not_mem hid).mp hr)) hid

end SitedFiles

/-! ## Full crawls and leaf crawls -/

/-- **No row is left behind by a full crawl.** After the files of a folder are saved, the rows of
the folder are exactly those of the saved files. -/
theorem rows_saveCrawledFolderMetadata {now : Datetime} {key : FolderKey} {domain : Str}
    {files : List FileMeta} {cat cat' : Catalog}
    (h : saveCrawledFolderMetadata now key domain files cat = .ok cat') :
    {r : Str × FileRow | cat'.files.get? r.1 = some r.2 ∧ r.2.folder = key} =
      {r | r ∈ files.map (fileRow key)} := by
  obtain ⟨-, -, -, hwritten, honly⟩ := saveCrawledFolderMetadata_ok h
  ext ⟨fileId, row⟩
  constructor
  · rintro ⟨hget, hfolder⟩
    obtain ⟨file, hfile, heq⟩ := honly fileId row hget hfolder
    exact List.mem_map.mpr ⟨file, hfile, heq.symm⟩
  · intro hmem
    obtain ⟨file, hfile, heq⟩ := List.mem_map.mp hmem
    obtain ⟨rfl, rfl⟩ := Prod.mk.inj heq
    exact ⟨hwritten file hfile, rfl⟩

section Runs

variable {cm : CaseMap} {tl : TimeLib} {xxh : Str → Str} {allowedExts : List Str} {env : Str}

/-- **Rows under a crawled leaf.** Take any run on any catalog, and any leaf of it that is crawled
without an error. Right after its commit the rows under the leaf are exactly those of its listing
if and only if the listing has the id of every row that was under the leaf before.

**Proof sketch.** The upsert replaces the rows of the listed ids and keeps the others. -/
theorem rowsUnder_commit_iff {cat cat' : Catalog} {visits : List (Str × FolderVisit)}
    (hrun : RefreshRun cm tl xxh allowedExts env cat visits cat') {before after : List Commit}
    {c : Commit} (hcommits : runCommits cm xxh allowedExts env visits = before ++ c :: after)
    (site : Str → Str) :
    let start : SitedFiles := ⟨cat.files, site⟩
    (start.commits (before ++ c :: after)).rows = cat'.files ∧
      ((start.commits (before ++ [c])).rowsUnder c.key c.leaf = {r | r ∈ c.rows} ↔
        ∀ r ∈ (start.commits before).rowsUnder c.key c.leaf, r.1 ∈ c.fileIds) := by
  intro start
  constructor
  · rw [SitedFiles.rows_commits, ← hcommits]
    cases hrun with
    | failed hreads hdirty => rfl
    | crawled hactive hreads hdirty hvisits => exact (files_runVisits _ _ _).symm
  · have hlast : start.commits (before ++ [c]) = (start.commits before).commit c :=
      List.foldl_append
    rw [hlast]
    exact SitedFiles.rowsUnder_commit_eq_iff

/-- A commit concerns other files than another one: it lists none of its ids, and no file of the
same folder under its leaf. -/
def Commit.Apart (c d : Commit) : Prop :=
  (∀ fileId ∈ d.fileIds, fileId ∉ c.fileIds) ∧
    (d.key = c.key → ∀ file ∈ d.files, ¬ LiesUnder c.leaf (d.pathOf file))

/-- **The end of a run.** When the rows under a leaf are those of its listing, they still are after
commits that concern other files. -/
theorem rowsUnder_commits_of_apart {t : SitedFiles} {c : Commit} {l : List Commit}
    (hexact : t.rowsUnder c.key c.leaf = {r | r ∈ c.rows}) (happart : ∀ d ∈ l, c.Apart d) :
    (t.commits l).rowsUnder c.key c.leaf = {r | r ∈ c.rows} := by
  induction l generalizing t with
  | nil => exact hexact
  | cons d l ih =>
    obtain ⟨hd, hl⟩ := List.forall_mem_cons.mp happart
    refine ih ?_ hl
    rw [← hexact]
    ext r
    by_cases hid : r.1 ∈ d.fileIds
    · constructor
      · -- a row that `d` lists lies elsewhere
        intro hr
        obtain ⟨file, hfile, rfl⟩ :=
          List.mem_map.mp (SitedFiles.mem_rows_of_mem_rowsUnder_commit hr hid)
        have hsite : (t.commit d).site file.fileId = d.pathOf file := by
          show ((d.file? file.fileId).map d.pathOf).getD _ = _
          rw [Commit.file?_eq_some_iff.mpr ⟨hfile, rfl⟩]
          rfl
        have hunder : LiesUnder c.leaf ((t.commit d).site file.fileId) := hr.2.2
        rw [hsite] at hunder
        exact absurd hunder (hd.2 hr.2.1 file hfile)
      · -- the listed rows of `c` have other ids
        intro hr
        rw [hexact] at hr
        exact absurd (Commit.map_fst_rows ▸ List.mem_map_of_mem hr) (hd.1 r.1 hid)
    · exact SitedFiles.mem_rowsUnder_commit_of_not_mem hid

end Runs

/-! ## A deleted file -/

/-- The input of a run after the sample run: the log has a record of a fourth file. -/
def deletedInput : DeltaInput where
  activeFolders := ["Load_r3".toList]
  stdLog := [⟨some "d_Load_r3".toList, none, some "08-07-2026 00:00:00".toList⟩]
  oceLog := []
  fileRows := sampleCatalog.fileRows "iop".toList
  folderRows := sampleCatalog.folderRows "iop".toList

/-- The visit of that run. The folder lists the fourth file, and the third one is gone. -/
def deletedVisit : FolderVisit where
  ensureFails := false
  leaves := [("Load_r3".toList, ⟨.ok [sampleItem "a_Load_r3.csv".toList,
    sampleItem "b_Load_r3.csv".toList, sampleItem "d_Load_r3.csv".toList], false⟩)]
  checkpointFails := false
  now := Datetime.utc 1783469000000000

/-- The place of a file of the sample folder, whose id is its name. -/
def sampleSite (fileId : Str) : Str := "Load_r3".toList ++ '/' :: fileId

/-- The commit of a visit to the sample folder. -/
lemma exists_commit_sample {visit : FolderVisit} {io : LeafCrawl} {files : List FileMeta}
    (hensure : visit.ensureFails = false) (hleaves : visit.leaves = [("Load_r3".toList, io)])
    (hcrawl : crawlLeaf id [".csv".toList] "Load_r3".toList io = .ok files) :
    ∃ c : Commit, runCommits CaseMap.ascii id [".csv".toList] "IOP".toList
        [("Load_r3".toList, visit)] = [c] ∧ c.leaf = "Load_r3".toList ∧ c.files = files ∧
      c.key = folderKey CaseMap.ascii "IOP".toList "TP_export".toList "Load_r3".toList := by
  refine ⟨⟨_, "Load_r3".toList, files, nodup_of_crawlLeaf hcrawl⟩, ?_, rfl, rfl, rfl⟩
  have hcommit : commitOf id [".csv".toList]
      (folderKey CaseMap.ascii "IOP".toList "TP_export".toList "Load_r3".toList)
      ("Load_r3".toList, io) = some ⟨_, _, files, nodup_of_crawlLeaf hcrawl⟩ :=
    commitOf_eq_some_iff.mpr ⟨rfl, rfl, hcrawl⟩
  unfold runCommits visitCommits
  rw [List.flatMap_cons, List.flatMap_nil, List.append_nil, hensure, if_neg Bool.false_ne_true,
    hleaves, List.filterMap_cons, hcommit]
  rfl

/-- The condition at the first run of the sample: no row was there before. -/
theorem rowsUnder_commit_sample :
    ∃ c : Commit, c.leaf = "Load_r3".toList ∧ c.rows.length = 3 ∧
      ((⟨Catalog.empty.files, sampleSite⟩ : SitedFiles).commits ([] ++ [c])).rowsUnder c.key
        c.leaf = {r | r ∈ c.rows} := by
  have hcrawl : crawlLeaf id [".csv".toList] "Load_r3".toList
      ⟨.ok [sampleItem "a_Load_r3.csv".toList, sampleItem "b_Load_r3.csv".toList,
        sampleItem "c_Load_r3.csv".toList], false⟩ = .ok _ := rfl
  obtain ⟨c, hcommits, hleaf, hfiles, -⟩ :=
    @exists_commit_sample firstVisit _ _ rfl rfl hcrawl
  refine ⟨c, hleaf, ?_, (rowsUnder_commit_iff refreshRun_sample hcommits sampleSite).2.mpr ?_⟩
  · unfold Commit.rows
    rw [hfiles]
    rfl
  · rintro r ⟨hget, -⟩
    cases hget

/-- On a reachable catalog, a run crawls a folder without an error, and the row of a file that was
deleted from the folder stays behind. -/
theorem not_rowsUnder_deleted :
    ∃ visits cat cat' c,
      History CaseMap.ascii sampleTimes id [".csv".toList] "IOP".toList visits cat ∧
      RefreshRun CaseMap.ascii sampleTimes id [".csv".toList] "IOP".toList cat
        [("Load_r3".toList, deletedVisit)] cat' ∧
      runCommits CaseMap.ascii id [".csv".toList] "IOP".toList
        [("Load_r3".toList, deletedVisit)] = [c] ∧
      ((⟨cat.files, sampleSite⟩ : SitedFiles).commits [c]).rowsUnder c.key c.leaf ≠
        {r | r ∈ c.rows} := by
  have hcrawl : crawlLeaf id [".csv".toList] "Load_r3".toList
      ⟨.ok [sampleItem "a_Load_r3.csv".toList, sampleItem "b_Load_r3.csv".toList,
        sampleItem "d_Load_r3.csv".toList], false⟩ = .ok _ := rfl
  obtain ⟨c, hcommits, hleaf, hfiles, hkey⟩ :=
    @exists_commit_sample deletedVisit _ _ rfl rfl hcrawl
  have hvisit : deletedVisit.Visits sampleDirty "Load_r3".toList := FolderVisit.visits_singleton rfl
  have hdirty : dirtyMap CaseMap.ascii sampleTimes deletedInput = .ok sampleDirty := by decide
  have hreads : deletedInput.Reads CaseMap.ascii "IOP".toList sampleCatalog :=
    ⟨List.Perm.refl _, List.Perm.refl _⟩
  have hactive : deletedInput.activeFolders =
      activeFoldersOf [("Load".toList, ["Load_r3".toList])] := rfl
  have hrun : RefreshRun CaseMap.ascii sampleTimes id [".csv".toList] "IOP".toList sampleCatalog
      [("Load_r3".toList, deletedVisit)] _ :=
    .crawled hactive hreads hdirty (.next hvisit (.stop []))
  refine ⟨_, _, _, c, history_sample, hrun, hcommits, fun hexact => ?_⟩
  let start : SitedFiles := ⟨sampleCatalog.files, sampleSite⟩
  have hlisted : ∀ r ∈ start.rowsUnder c.key c.leaf, r.1 ∈ c.fileIds :=
    SitedFiles.rowsUnder_commit_eq_iff.mp hexact
  have hids : "c_Load_r3.csv".toList ∉ c.fileIds := by
    unfold Commit.fileIds
    rw [hfiles]
    decide
  have hold : (sampleCatalog.files.get? "c_Load_r3.csv".toList).map FileRow.folder =
      some (folderKey CaseMap.ascii "IOP".toList "TP_export".toList "Load_r3".toList) := by decide
  obtain ⟨row, hrow, hfolder⟩ := Option.map_eq_some_iff.mp hold
  refine hids (hlisted ("c_Load_r3.csv".toList, row) ⟨hrow, hfolder.trans hkey.symm, ?_⟩)
  rw [hleaf]
  exact ⟨"c_Load_r3.csv".toList, List.append_assoc _ _ _⟩

end EntsoePipeline
