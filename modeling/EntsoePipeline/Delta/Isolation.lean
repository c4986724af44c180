import EntsoePipeline.Delta.Transactions
import EntsoePipeline.Lib.TableFrame

set_option relaxedAutoImplicit false
set_option autoImplicit false

/-!
# The environments in one catalog

The rows of both environments are in the same tables. The key of a folder row contains the
environment, so no transaction of one environment touches a folder row of another. The key of a file
row is the file id alone. A full crawl inserts its files, and the database refuses an id that is
there already. The upsert of a delta refresh takes the row over, from whatever folder it belongs to.

## Main definitions

* `EntsoePipeline.SameOutside` — two catalogs have the same rows of all environments but one.
* `EntsoePipeline.Isolated` — every commit of a run leaves the rows of other environments alone.
* `EntsoePipeline.Transaction.TakesForeign` — an upsert lists the file id of another environment.

## Main results

* `EntsoePipeline.Transaction.sameOutside_iff` — what a transaction does to other environments.
* `EntsoePipeline.isolated_iff` — the runs in which the environments are isolated.
* `EntsoePipeline.not_isolated_sharedId` — a refresh of PROD takes over a file row of IOP.
-/

namespace EntsoePipeline

open Py Transition Replay TableFrame

/-! ## Rows of other environments -/

/-- A folder key of an environment other than the given one. -/
def otherFolder (environment : Str) (key : FolderKey) : Bool := key.environment ≠ environment

/-- A file row of an environment other than the given one. -/
def otherFile (environment : Str) (row : FileRow) : Bool := row.folder.environment ≠ environment

/-- Two catalogs have the same rows of all environments but one. -/
structure SameOutside (environment : Str) (cat cat' : Catalog) : Prop where
  /-- The folder rows. -/
  folders : select (fun key _ => otherFolder environment key) cat'.folders =
    select (fun key _ => otherFolder environment key) cat.folders
  /-- The file rows. -/
  files : select (fun _ row => otherFile environment row) cat'.files =
    select (fun _ row => otherFile environment row) cat.files

/-- The transaction is an upsert that lists the id of a file of another environment. -/
def Transaction.TakesForeign (t : Transaction) (cat : Catalog) : Prop :=
  ∃ files, t.write = .upsert files ∧ ∃ file ∈ files, ∃ row,
    cat.files.get? file.fileId = some row ∧ row.folder.environment ≠ t.key.environment

section Frame

variable {key : FolderKey} {cat cat' : Catalog} {files : List FileMeta}

/-- The file rows of a folder are of its environment. -/
lemma otherFile_fileRow {entry : Str × FileRow} (h : entry ∈ files.map (fileRow key)) :
    otherFile key.environment entry.2 = false := by
  obtain ⟨file, -, rfl⟩ := List.mem_map.mp h
  simp [otherFile, fileRow]

/-- The statements on the folder table concern the own folder. -/
lemma select_alter_folders (folders : Dict FolderKey FolderRow) (f : Option FolderRow → FolderRow) :
    select (fun other _ => otherFolder key.environment other) (folders.alter key f) =
      select (fun other _ => otherFolder key.environment other) folders :=
  select_alter_of_key folders (by simp [otherFolder]) f

/-- **Saving a folder** leaves the rows of other environments alone: it deletes the rows of the
folder and inserts rows with new ids. -/
lemma sameOutside_save {now : Datetime} {domain : Str}
    (h : saveCrawledFolderMetadata now key domain files cat = .ok cat') :
    SameOutside key.environment cat cat' := by
  unfold saveCrawledFolderMetadata at h
  dsimp only at h
  split_ifs at h with hok
  cases h
  refine ⟨select_alter_folders _ _, ?_⟩
  have hnew : Spares (fun _ row => otherFile key.environment row)
      (cat.files.filter fun _ row => row.folder ≠ key)
        ((files.map (fileRow key)).map Prod.fst) := by
    intro fileId hfileId row hrow
    exact absurd (Dict.mem_keys_iff.mpr ⟨row, hrow⟩) (hok.2 fileId hfileId)
  have hkept : ∀ (fileId : Str) (row : FileRow), otherFile key.environment row = true →
      decide (row.folder ≠ key) = true := by
    intro fileId row hother
    rw [decide_eq_true_eq]
    intro hfolder
    simp [otherFile, hfolder] at hother
  calc select (fun _ row => otherFile key.environment row)
        ((cat.files.filter fun _ row => row.folder ≠ key).setAll (files.map (fileRow key)))
      = select (fun _ row => otherFile key.environment row)
          (cat.files.filter fun _ row => row.folder ≠ key) :=
        (select_setAll_eq_iff fun _ hentry => otherFile_fileRow hentry).mpr hnew
    _ = select (fun _ row => otherFile key.environment row) cat.files :=
        select_filter_of_imp hkept cat.files

/-- **The upsert of a leaf** leaves the rows of other environments alone exactly when it lists no
file of them. -/
lemma sameOutside_upsert_iff (h : upsertFiles key files cat = .ok cat') :
    SameOutside key.environment cat cat' ↔
      ∀ file ∈ files, ∀ row, cat.files.get? file.fileId = some row →
        row.folder.environment = key.environment := by
  unfold upsertFiles at h
  split_ifs at h with hids
  cases h
  have hspares := @select_setAll_eq_iff _ _ _ (fun _ row => otherFile key.environment row) cat.files
    (files.map (fileRow key)) fun _ hentry => otherFile_fileRow hentry
  constructor
  · intro hsame file hfile row hrow
    have hother := hspares.mp hsame.files file.fileId
      (List.mem_map_of_mem (List.mem_map_of_mem hfile)) row hrow
    simpa [otherFile] using hother
  · intro hown
    refine ⟨rfl, hspares.mpr fun fileId hfileId row hrow => ?_⟩
    obtain ⟨entry, hentry, rfl⟩ := List.mem_map.mp hfileId
    obtain ⟨file, hfile, rfl⟩ := List.mem_map.mp hentry
    simp [otherFile, hown file hfile row hrow]

/-- **Transactions and environments.** An accepted transaction leaves the rows of other environments
alone exactly when it is not an upsert that lists a file of one of them. -/
lemma Transaction.sameOutside_iff {t : Transaction} (h : t.apply cat = .ok cat') :
    SameOutside t.key.environment cat cat' ↔ ¬ t.TakesForeign cat := by
  obtain ⟨key, write⟩ := t
  cases write with
  | save now domain files =>
    refine iff_of_true (sameOutside_save h) ?_
    rintro ⟨files, ⟨⟩, -⟩
  | ensure domain =>
    cases h
    refine iff_of_true ⟨select_alter_folders _ _, rfl⟩ ?_
    rintro ⟨files, ⟨⟩, -⟩
  | upsert files =>
    refine (sameOutside_upsert_iff h).trans ⟨?_, ?_⟩
    · rintro hown ⟨files, ⟨⟩, file, hfile, row, hrow, hne⟩
      exact hne (hown file hfile row hrow)
    · intro hnot file hfile row hrow
      by_contra hne
      exact hnot ⟨files, rfl, file, hfile, row, hrow, hne⟩
  | checkpoint allLeavesSucceeded now =>
    cases h
    have hsame : SameOutside key.environment cat
        (checkpointFolder key allLeavesSucceeded now cat) := by
      unfold checkpointFolder
      split
      · exact ⟨select_alter_folders _ _, rfl⟩
      · exact ⟨rfl, rfl⟩
    refine iff_of_true hsame ?_
    rintro ⟨files, ⟨⟩, -⟩

end Frame

/-! ## Runs -/

/-- Every commit of a run leaves the rows of the environments other than its own alone. -/
def Isolated (cm : CaseMap) (start : Catalog) (trace : List TaskCommit) : Prop :=
  Along TaskCommit.replay (fun cat c => SameOutside (cm.lower c.env) cat (c.replay cat)) start trace

section Runs

variable {cm : CaseMap} {tl : TimeLib} {xxh : Str → Str} {allowedExts : List Str}
  {config : ClassifierConfig}

/-- **Isolation.** Let the tasks of two environments run full crawls and delta refreshes at the same
time, on any catalog, with any file ids. The run leaves the rows of other environments alone at each
of its commits exactly when no upsert lists the id of a file that belongs to another environment in
the catalog at that time.

**Proof sketch.** The catalog is the replay of the commits, and each commit is a transaction under a
key of its environment. -/
theorem isolated_iff {env env' : Str} {start : Catalog} {trace : List TaskCommit}
    {s : Catalog × TaskState × TaskState}
    (hrun : (refreshTasks cm tl xxh allowedExts config env env' start).Reach trace s) :
    Isolated cm start trace ↔
      Along TaskCommit.replay (fun cat c => ¬ c.transaction.TakesForeign cat) start trace := by
  obtain ⟨-, haccepted⟩ := refreshTrace_of_reach hrun
  refine along_congr haccepted fun cat c hc => ?_
  obtain ⟨henvironment, happly⟩ := hc
  rw [← henvironment]
  exact Transaction.sameOutside_iff happly

end Runs

/-! ## Sample runs -/

/-- A catalog with one folder of IOP and one file. -/
def iopCatalog : Catalog where
  folders := Dict.ofList
    [(⟨"iop".toList, "/TP_export/Load_r3/".toList⟩, ⟨"Load".toList, 1, 10, 5, none⟩)]
  files := Dict.ofList [("a".toList, ⟨⟨"iop".toList, "/TP_export/Load_r3/".toList⟩,
    "2026_07_Load_r3.csv".toList, 10, 5, [], []⟩)]

/-- A file as a server reports it. -/
def reportedItem (fileId : Str) : RawItem :=
  ⟨some "File".toList, some "2026_07_Load_r3.csv".toList, some 10, some 5, none, some fileId⟩

/-- The first commits of a delta refresh of PROD, whose folder has never been crawled. -/
def prodTrace (fileId : Str) : List TaskCommit :=
  [⟨"PROD".toList, ⟨⟨"prod".toList, "/TP_export/Load_r3/".toList⟩, .ensure "Load".toList⟩⟩,
    ⟨"PROD".toList, ⟨⟨"prod".toList, "/TP_export/Load_r3/".toList⟩,
      .upsert [mapRawFmsItem id (reportedItem fileId)]⟩⟩]

/-- What the delta refresh of PROD reads. -/
def prodInput : DeltaInput := ⟨["Load_r3".toList], [], [], [], []⟩

/-- The task of the other environment can run to its end. -/
lemma reach_prodTrace (fileId : Str) :
    ∃ s, (refreshTasks CaseMap.ascii blindTimes id [".csv".toList] (.ofYaml ∅ []) "IOP".toList
      "PROD".toList iopCatalog).Reach (prodTrace fileId) s := by
  have hstart : (refreshTasks CaseMap.ascii blindTimes id [".csv".toList] (.ofYaml ∅ [])
      "IOP".toList "PROD".toList iopCatalog).Reach [] (iopCatalog, .idle, .idle) :=
    .start ⟨rfl, rfl, rfl⟩
  have hread := Component.reach_interleave_right hstart
    (TaskStep.readFiles (List.perm_nil.mpr (by decide)).symm)
  have hdirty : dirtyMap CaseMap.ascii blindTimes prodInput =
    .ok (Dict.ofList [("Load_r3".toList, {"Load_r3".toList})]) := rfl
  have hbegin := Component.reach_interleave_right hread
    (@TaskStep.refresh CaseMap.ascii blindTimes id [".csv".toList] (.ofYaml ∅ []) "PROD".toList
      iopCatalog [("Load".toList, ["Load_r3".toList])] prodInput _
      [("Load_r3".toList, ⟨false, [("Load_r3".toList, ⟨.ok [reportedItem fileId], false⟩)], false,
        Datetime.utc 7⟩)]
      rfl (List.perm_nil.mpr (by decide)).symm hdirty
      (.next (FolderVisit.visits_singleton rfl) (.stop _)))
  have hensure := Component.reach_interleave_right hbegin (TaskStep.commit rfl)
  have hupsert := Component.reach_interleave_right hensure (TaskStep.commit rfl)
  exact ⟨_, hupsert⟩

/-- A refresh of PROD with a file id of its own leaves the rows of IOP alone. -/
theorem isolated_ownId : Isolated CaseMap.ascii iopCatalog (prodTrace "b".toList) := by
  obtain ⟨s, hrun⟩ := reach_prodTrace "b".toList
  refine (isolated_iff hrun).mpr ⟨?_, ?_, trivial⟩
  · rintro ⟨files, ⟨⟩, -⟩
  · rintro ⟨files, ⟨⟩, file, hfile, row, hrow, -⟩
    obtain rfl := List.mem_singleton.mp hfile
    cases hrow

/-- A refresh of PROD that reports the id of a file of IOP takes its row over. -/
theorem not_isolated_sharedId : ¬ ∀ start trace s,
    (refreshTasks CaseMap.ascii blindTimes id [".csv".toList] (.ofYaml ∅ []) "IOP".toList
      "PROD".toList start).Reach trace s → Isolated CaseMap.ascii start trace := by
  intro hall
  obtain ⟨s, hrun⟩ := reach_prodTrace "a".toList
  obtain ⟨-, hsame, -⟩ := hall _ _ _ hrun
  obtain ⟨-, -, ⟨henvironment, happly⟩, -⟩ := refreshTrace_of_reach hrun
  rw [← henvironment] at hsame
  refine (Transaction.sameOutside_iff happly).mp hsame ?_
  exact ⟨_, rfl, _, List.mem_singleton_self _, _, rfl, by decide⟩

end EntsoePipeline
