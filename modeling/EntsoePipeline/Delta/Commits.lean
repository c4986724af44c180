import EntsoePipeline.Delta.Refresh
import EntsoePipeline.Lib.LastWrite

set_option relaxedAutoImplicit false
set_option autoImplicit false

/-!
# The commits of a refresh run

A refresh run changes the file rows by its commits only: one for each leaf that is crawled without
an error. The file id decides which row a commit writes, so after a run each id has the row that
the last commit listing it wrote, or the row it had before.

## Main definitions

* `EntsoePipeline.Commit` — a leaf that was crawled without an error, with its files.
* `EntsoePipeline.runCommits` — the commits of a run, in order.
* `EntsoePipeline.lastListing` — the last commit that lists a file id.

## Main results

* `EntsoePipeline.files_runVisits` — the file rows after a run.
* `EntsoePipeline.get?_files_runVisits` — the row of a file id after a run.
-/

namespace EntsoePipeline

open Py LastWrite

/-! ## Commits -/

/-- A leaf that was crawled for a folder without an error. The database accepted the upsert, so no
file id is listed twice. -/
structure Commit where
  /-- The folder that owns the rows. -/
  key : FolderKey
  leaf : Str
  /-- The files of the leaf. -/
  files : List FileMeta
  nodup : (files.map FileMeta.fileId).Nodup

namespace Commit

/-- The file ids of the listing. -/
def fileIds (c : Commit) : List Str := c.files.map FileMeta.fileId

/-- The rows of the upsert. -/
def rows (c : Commit) : List (Str × FileRow) := c.files.map (fileRow c.key)

/-- The file that is listed under an id. -/
def file? (fileId : Str) (c : Commit) : Option FileMeta :=
  c.files.find? fun file => file.fileId = fileId

variable {c : Commit} {fileId : Str} {file : FileMeta}

/-- The rows of a commit are stored under the ids of its files. -/
lemma map_fst_rows : c.rows.map Prod.fst = c.fileIds := by
  unfold rows fileIds
  rw [List.map_map]
  rfl

/-- The file that a commit has for an id is the listed one. -/
lemma file?_eq_some_iff : c.file? fileId = some file ↔ file ∈ c.files ∧ file.fileId = fileId := by
  unfold file?
  constructor
  · intro h
    exact ⟨List.mem_of_find?_eq_some h, by simpa using List.find?_some h⟩
  · rintro ⟨hmem, hid⟩
    cases hfind : c.files.find? fun file => decide (file.fileId = fileId) with
    | none => exact absurd hid (by simpa using List.find?_eq_none.mp hfind file hmem)
    | some other =>
      have hother : other.fileId = fileId := by simpa using List.find?_some hfind
      have hsame := List.inj_on_of_nodup_map c.nodup (List.mem_of_find?_eq_some hfind) hmem
        (hother.trans hid.symm)
      rw [hsame]

/-- A commit has no file for an id that it does not list. -/
lemma file?_eq_none_iff : c.file? fileId = none ↔ fileId ∉ c.fileIds := by
  simp [file?, fileIds]

/-- The upsert gives each listed id its new row and keeps the other rows. -/
lemma get?_setAll_rows (rows : Dict Str FileRow) :
    (rows.setAll c.rows).get? fileId =
      ((c.file? fileId).map fun file => (fileRow c.key file).2).or (rows.get? fileId) := by
  have hnodup : (c.rows.map Prod.fst).Nodup := map_fst_rows ▸ c.nodup
  ext row
  rw [Dict.get?_setAll_eq_some_iff hnodup, map_fst_rows]
  cases hfile : c.file? fileId with
  | none =>
    have hnot := file?_eq_none_iff.mp hfile
    have hrow : (fileId, row) ∉ c.rows := fun h => hnot (map_fst_rows ▸ List.mem_map_of_mem h)
    simp [hnot, hrow]
  | some file =>
    obtain ⟨hmem, rfl⟩ := file?_eq_some_iff.mp hfile
    have hid : file.fileId ∈ c.fileIds := List.mem_map_of_mem hmem
    simp only [hid, not_true_eq_false, false_and, or_false, Option.map_some, Option.some_or,
      Option.some.injEq]
    constructor
    · intro hrow
      obtain ⟨other, hother, heq⟩ := List.mem_map.mp hrow
      obtain ⟨hid', hvalue⟩ := Prod.mk.inj heq
      rw [← List.inj_on_of_nodup_map c.nodup hother hmem hid']
      exact hvalue
    · rintro rfl
      exact List.mem_map_of_mem hmem

end Commit

/-- The last commit that lists a file id, with the file. -/
def lastListing (commits : List Commit) (fileId : Str) : Option (Commit × FileMeta) :=
  lastWrite (fun c => (c.file? fileId).map fun file => (c, file)) commits

/-- The file rows after a list of commits. -/
def commitAll (rows : Dict Str FileRow) (commits : List Commit) : Dict Str FileRow :=
  commits.foldl (fun rows c => rows.setAll c.rows) rows

/-- The last listing of an id is that of a commit. -/
lemma mem_of_lastListing {commits : List Commit} {fileId : Str} {c : Commit} {file : FileMeta}
    (h : lastListing commits fileId = some (c, file)) :
    c ∈ commits ∧ file ∈ c.files ∧ file.fileId = fileId := by
  obtain ⟨c', hmem, hlists⟩ := exists_of_lastWrite_eq_some h
  obtain ⟨file', hfile, heq⟩ := Option.map_eq_some_iff.mp hlists
  obtain ⟨rfl, rfl⟩ := Prod.mk.inj heq
  exact ⟨hmem, Commit.file?_eq_some_iff.mp hfile⟩

/-- An id that no commit lists has no last listing. -/
lemma lastListing_eq_none_iff {commits : List Commit} {fileId : Str} :
    lastListing commits fileId = none ↔ ∀ c ∈ commits, fileId ∉ c.fileIds := by
  unfold lastListing
  simp only [lastWrite_eq_none_iff, Option.map_eq_none_iff, Commit.file?_eq_none_iff]

/-- The row of a file id after a list of commits. -/
lemma get?_commitAll (rows : Dict Str FileRow) (commits : List Commit) (fileId : Str) :
    (commitAll rows commits).get? fileId =
      ((lastListing commits fileId).map fun l => (fileRow l.1.key l.2).2).or
        (rows.get? fileId) := by
  have hread := @read_foldl _ _ _ (fun c : Commit =>
      (c.file? fileId).map fun file => (fileRow c.key file).2) (fun rows c => rows.setAll c.rows)
    (fun rows => rows.get? fileId) commits (fun c _ rows => Commit.get?_setAll_rows rows) rows
  have hmap : lastWrite (fun c : Commit =>
      (c.file? fileId).map fun file => (fileRow c.key file).2) commits =
        (lastListing commits fileId).map fun l => (fileRow l.1.key l.2).2 := by
    unfold lastListing lastWrite
    rw [List.map_findSome?]
    congr 1
    ext c : 1
    rw [Function.comp_apply, Option.map_map]
    rfl
  rw [← hmap]
  exact hread

/-! ## The commits of a run -/

section Runs

variable (cm : CaseMap) (xxh : Str → Str) (allowedExts : List Str) (env : Str)

/-- The commit of a leaf, if its crawl succeeds. -/
def commitOf (key : FolderKey) (leaf : Str × LeafCrawl) : Option Commit :=
  match h : crawlLeaf xxh allowedExts leaf.1 leaf.2 with
  | .ok files => some ⟨key, leaf.1, files, nodup_of_crawlLeaf h⟩
  | .error _ => none

/-- The commits of a visit. -/
def visitCommits (key : FolderKey) (visit : FolderVisit) : List Commit :=
  if visit.ensureFails then [] else visit.leaves.filterMap (commitOf xxh allowedExts key)

/-- The commits of the visits of a run. -/
def runCommits (visits : List (Str × FolderVisit)) : List Commit :=
  visits.flatMap fun visit =>
    visitCommits xxh allowedExts (folderKey cm env "TP_export".toList visit.1) visit.2

variable {cm xxh allowedExts env}

/-- A leaf whose crawl succeeds is committed with its files. -/
lemma commitOf_eq_some_iff {key : FolderKey} {leaf : Str × LeafCrawl} {c : Commit} :
    commitOf xxh allowedExts key leaf = some c ↔
      c.key = key ∧ c.leaf = leaf.1 ∧ crawlLeaf xxh allowedExts leaf.1 leaf.2 = .ok c.files := by
  obtain ⟨key', leaf', files', hnodup⟩ := c
  unfold commitOf
  split
  · rename_i files hfiles
    simp [hfiles, eq_comm]
  · rename_i e herror
    simp [herror]

/-- A leaf whose crawl fails is not committed. -/
lemma commitOf_eq_none_iff {key : FolderKey} {leaf : Str × LeafCrawl} :
    commitOf xxh allowedExts key leaf = none ↔
      ∃ e, crawlLeaf xxh allowedExts leaf.1 leaf.2 = .error e := by
  unfold commitOf
  split
  · rename_i files hfiles
    simp [hfiles]
  · rename_i e herror
    simp [herror]

/-- A leaf changes the file rows by its commit. -/
lemma files_refreshLeaf (key : FolderKey) (state : Catalog × Bool) (leaf : Str × LeafCrawl) :
    (refreshLeaf xxh allowedExts key state leaf).1.files =
      commitAll state.1.files (commitOf xxh allowedExts key leaf).toList := by
  rw [refreshLeaf_eq]
  cases hcommit : commitOf xxh allowedExts key leaf with
  | none =>
    obtain ⟨e, hcrawl⟩ := commitOf_eq_none_iff.mp hcommit
    rw [hcrawl]
    rfl
  | some c =>
    obtain ⟨hkey, -, hcrawl⟩ := commitOf_eq_some_iff.mp hcommit
    rw [hcrawl, ← hkey]
    rfl

/-- A visit changes the file rows by its commits. -/
lemma files_visitFolder (key : FolderKey) (domain : Str) (visit : FolderVisit) (cat : Catalog) :
    (visitFolder xxh allowedExts key domain visit cat).files =
      commitAll cat.files (visitCommits xxh allowedExts key visit) := by
  have hleaves : ∀ (leaves : List (Str × LeafCrawl)) (state : Catalog × Bool),
      (leaves.foldl (refreshLeaf xxh allowedExts key) state).1.files =
        commitAll state.1.files (leaves.filterMap (commitOf xxh allowedExts key)) := by
    intro leaves
    induction leaves with
    | nil => exact fun _ => rfl
    | cons leaf leaves ih =>
      intro state
      rw [List.foldl_cons, ih, files_refreshLeaf, List.filterMap_cons]
      cases commitOf xxh allowedExts key leaf with
      | none => rfl
      | some c => rfl
  unfold visitFolder visitCommits
  dsimp only
  split_ifs with hensure hcheck
  · rfl
  · exact hleaves _ _
  · unfold checkpointFolder
    split
    · exact hleaves _ _
    · exact hleaves _ _

/-- **The file rows after a run** are those that its commits leave behind.

**Proof sketch.** Induction over the visits; a visit changes the file rows by its commits. -/
theorem files_runVisits (domains : List (Str × List Str)) (visits : List (Str × FolderVisit))
    (cat : Catalog) :
    (runVisits cm xxh allowedExts env domains visits cat).files =
      commitAll cat.files (runCommits cm xxh allowedExts env visits) := by
  induction visits generalizing cat with
  | nil => rfl
  | cons visit visits ih =>
    rw [runVisits, List.foldl_cons]
    refine (ih _).trans ?_
    rw [refreshFolder, files_visitFolder]
    unfold runCommits commitAll
    rw [List.flatMap_cons, List.foldl_append]

/-- The row of a file id after a run: the one that the last commit listing it wrote, or the old
one. -/
lemma get?_files_runVisits (domains : List (Str × List Str)) (visits : List (Str × FolderVisit))
    (cat : Catalog) (fileId : Str) :
    (runVisits cm xxh allowedExts env domains visits cat).files.get? fileId =
      ((lastListing (runCommits cm xxh allowedExts env visits) fileId).map fun l =>
        (fileRow l.1.key l.2).2).or (cat.files.get? fileId) := by
  rw [files_runVisits, get?_commitAll]

end Runs

end EntsoePipeline
