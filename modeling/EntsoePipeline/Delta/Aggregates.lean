import EntsoePipeline.Delta.Commits
import EntsoePipeline.Delta.Scans
import EntsoePipeline.Lib.Replay
import EntsoePipeline.Lib.TableFrame

set_option relaxedAutoImplicit false
set_option autoImplicit false

/-!
# The statistics of the folder rows

A folder row counts its files and adds up their sizes. A step of a crawl writes the statistics of
its own folder from the files it has then, but an upsert of the step may take the row of a file away
from another folder, whose statistics stay as they were.

## Main definitions

* `EntsoePipeline.ExactAggregates` — the statistics of every folder row are those of its files.
* `EntsoePipeline.ForeignKeys` — every file row belongs to a folder row.
* `EntsoePipeline.FolderStep` — what a completed step of a crawl does to the tables.
* `EntsoePipeline.CrawlAction.KeepsFiles` — the upserts of a step list no file of another folder.

## Main results

* `EntsoePipeline.folderStep_apply` — completed steps of both kinds of crawls.
* `EntsoePipeline.FolderStep.exactAggregates_iff` — the steps after which the statistics are exact.
* `EntsoePipeline.exactAggregates_replay_iff` — the runs in which they always are.
* `EntsoePipeline.not_exactAggregates_moved` — a file that has moved to another folder.
-/

namespace EntsoePipeline

open Py Replay TableFrame

/-! ## Exact statistics -/

/-- The entries of the files of a folder. -/
def filesOfFolder (key : FolderKey) (files : Dict Str FileRow) : List (Str × FileRow) :=
  select (fun _ row => row.folder = key) files

/-- The statistics of a folder row are those of a list of its files. -/
structure FolderRow.Counts (row : FolderRow) (files : List FileRow) : Prop where
  itemCount : row.itemCount = files.length
  originalBytes : row.originalBytes = (files.map FileRow.originalBytes).sum
  compressedBytes : row.compressedBytes = (files.map FileRow.compressedBytes).sum

/-- The statistics of every folder row are those of its files. -/
def ExactAggregates (cat : Catalog) : Prop :=
  ∀ key row, cat.folders.get? key = some row →
    row.Counts ((filesOfFolder key cat.files).map Prod.snd)

/-- Every file row belongs to a folder row. -/
def ForeignKeys (cat : Catalog) : Prop :=
  ∀ fileId file, cat.files.get? fileId = some file → ∃ row, cat.folders.get? file.folder = some row

/-- The rows of the files of a folder are the rows that point to it. -/
lemma map_snd_filesOfFolder (key : FolderKey) (cat : Catalog) :
    (filesOfFolder key cat.files).map Prod.snd =
      cat.files.values.filter fun file => file.folder = key := by
  unfold filesOfFolder select Dict.values
  rw [List.filter_map]
  rfl

/-! ## Steps -/

/-- A step of a crawl: the row of its folder counts the files it has afterwards, the other folder
rows are kept, and of the file rows of another folder those with the taken ids are lost. -/
structure FolderStep (key : FolderKey) (taken : List Str) (cat cat' : Catalog) : Prop where
  /-- The row of the folder. -/
  own : ∃ row, cat'.folders.get? key = some row ∧
    row.Counts ((filesOfFolder key cat'.files).map Prod.snd)
  /-- The other folder rows. -/
  others : ∀ key', key' ≠ key → cat'.folders.get? key' = cat.folders.get? key'
  /-- The file rows of the other folders. -/
  files : ∀ key', key' ≠ key →
    filesOfFolder key' cat'.files = without taken (filesOfFolder key' cat.files)

section Step

variable {key : FolderKey} {taken : List Str} {cat cat' : Catalog}

/-- A step keeps the foreign keys. -/
lemma FolderStep.foreignKeys (h : FolderStep key taken cat cat') (hcat : ForeignKeys cat) :
    ForeignKeys cat' := by
  intro fileId file hfile
  by_cases hkey : file.folder = key
  · obtain ⟨row, hrow, -⟩ := h.own
    exact ⟨row, hkey ▸ hrow⟩
  · have hmem : (fileId, file) ∈ filesOfFolder file.folder cat'.files :=
      mem_select_iff.mpr ⟨hfile, by simp⟩
    rw [h.files _ hkey] at hmem
    rw [h.others _ hkey]
    exact hcat fileId file (mem_select_iff.mp (mem_without_iff.mp hmem).1).1

/-- **Steps and statistics.** After a step the statistics are exact exactly when no taken id belongs
to another folder.

**Proof sketch.** A folder whose files are spared keeps its row and its files. A folder that loses a
file has a row, and this row still counts the file. -/
theorem FolderStep.exactAggregates_iff (h : FolderStep key taken cat cat') (hkeys : ForeignKeys cat)
    (hexact : ExactAggregates cat) :
    ExactAggregates cat' ↔
      ∀ fileId ∈ taken, ∀ file, cat.files.get? fileId = some file → file.folder = key := by
  constructor
  · intro hexact' fileId htaken file hfile
    by_contra hne
    obtain ⟨row, hrow⟩ := hkeys fileId file hfile
    have hbefore := (hexact _ _ hrow).itemCount
    have hafter := (hexact' _ row (by rw [h.others _ hne, hrow])).itemCount
    rw [hbefore, List.length_map, List.length_map, h.files _ hne] at hafter
    have hspared := spares_of_length_eq hafter.symm fileId htaken file hfile
    exact absurd rfl (decide_eq_false_iff_not.mp hspared)
  · intro hspared key' row hrow
    by_cases hkey : key' = key
    · subst hkey
      obtain ⟨row', hrow', hcounts⟩ := h.own
      rw [hrow', Option.some.injEq] at hrow
      exact hrow ▸ hcounts
    · have hfiles : filesOfFolder key' cat'.files = filesOfFolder key' cat.files := by
        rw [h.files _ hkey]
        refine without_eq_self_iff.mpr fun fileId htaken file hfile => ?_
        rw [decide_eq_false_iff_not, hspared fileId htaken file hfile]
        exact fun heq => hkey heq.symm
      rw [hfiles]
      exact hexact key' row (by rw [← h.others _ hkey, hrow])

end Step

/-! ## The steps of the crawls -/

section Actions

variable (cm : CaseMap) (xxh : Str → Str) (allowedExts : List Str)

/-- The step is completed: a visit of a delta refresh that has made sure of its folder row reaches
its checkpoint. -/
def CrawlAction.Completed (action : CrawlAction) : Prop :=
  match action.kind with
  | .full .. => True
  | .delta visit => visit.ensureFails = true ∨ visit.checkpointFails = false

/-- The file ids that the upserts of a step list. -/
def CrawlAction.upsertedIds (action : CrawlAction) : List Str :=
  match action.kind with
  | .full .. => []
  | .delta visit => (visitCommits xxh allowedExts (action.key cm) visit).flatMap Commit.fileIds

/-- The upserts of a step list no file that belongs to another folder. -/
def CrawlAction.KeepsFiles (cat : Catalog) (action : CrawlAction) : Prop :=
  ∀ fileId ∈ action.upsertedIds cm xxh allowedExts, ∀ file, cat.files.get? fileId = some file →
    file.folder = action.key cm

variable {cm xxh allowedExts}

/-- Commits in a row set the rows of all of them. -/
lemma commitAll_eq_setAll (rows : Dict Str FileRow) (commits : List Commit) :
    commitAll rows commits = rows.setAll (commits.flatMap Commit.rows) := by
  induction commits generalizing rows with
  | nil => rfl
  | cons c commits ih =>
    rw [List.flatMap_cons, Dict.setAll_append, ← ih]
    rfl

/-- The saved transaction of a full crawl is a step that takes no ids. -/
lemma folderStep_save {now : Datetime} {key : FolderKey} {domain : Str} {files : List FileMeta}
    {cat cat' : Catalog} (h : saveCrawledFolderMetadata now key domain files cat = .ok cat') :
    FolderStep key [] cat cat' := by
  unfold saveCrawledFolderMetadata at h
  dsimp only at h
  split_ifs at h with hok
  cases h
  have hselect : ∀ key', filesOfFolder key'
      ((cat.files.filter fun _ row => row.folder ≠ key).setAll (files.map (fileRow key))) =
        filesOfFolder key' (cat.files.filter fun _ row => row.folder ≠ key) ++
          (files.map (fileRow key)).filter fun entry => entry.2.folder = key' :=
    fun key' => select_setAll_of_new hok.1 hok.2
  have hrows : ∀ entry ∈ files.map (fileRow key), entry.2.folder = key := by
    intro entry hentry
    obtain ⟨file, -, rfl⟩ := List.mem_map.mp hentry
    rfl
  refine ⟨⟨_, Dict.get?_alter_self _ _ _, ?_⟩, fun key' hne => Dict.get?_alter_of_ne _ _ hne,
    fun key' hne => ?_⟩
  · have hkept : filesOfFolder key (cat.files.filter fun _ row => row.folder ≠ key) = [] := by
      rw [filesOfFolder, select_filter, List.filter_eq_nil_iff]
      intro entry hentry
      simpa using (List.mem_filter.mp hentry).2
    have hnew : ((files.map (fileRow key)).filter fun entry => entry.2.folder = key) =
        files.map (fileRow key) :=
      List.filter_eq_self.mpr fun entry hentry => by simpa using hrows entry hentry
    rw [hselect, hkept, hnew, List.nil_append, List.map_map]
    refine ⟨(List.length_map _).symm, ?_, ?_⟩
    · rw [List.map_map]
      rfl
    · rw [List.map_map]
      rfl
  · have hnew : ((files.map (fileRow key)).filter fun entry => entry.2.folder = key') = [] := by
      refine List.filter_eq_nil_iff.mpr fun entry hentry => ?_
      rw [decide_eq_true_eq, hrows entry hentry]
      exact Ne.symm hne
    rw [hselect, hnew, List.append_nil, without_nil]
    refine select_filter_of_imp (fun _ row hrow => ?_) cat.files
    rw [decide_eq_true_eq] at hrow ⊢
    rw [hrow]
    exact hne

/-- A visit that reaches its checkpoint is a step that takes the ids of its upserts. -/
lemma folderStep_visit {key : FolderKey} {domain : Str} {visit : FolderVisit} (cat : Catalog)
    (hensure : visit.ensureFails = false) (hcheck : visit.checkpointFails = false) :
    FolderStep key ((visitCommits xxh allowedExts key visit).flatMap Commit.fileIds) cat
      (visitFolder xxh allowedExts key domain visit cat) := by
  refine ⟨?_, fun key' hne => get?_folders_visitFolder_of_ne hne, fun key' hne => ?_⟩
  · have hrow := @get?_folders_ensureFolder key domain cat
    unfold visitFolder
    rw [if_neg (by simp [hensure])]
    dsimp only
    rw [if_neg (by simp [hcheck]), checkpointFolder, (refreshLeaves_folders _ _).1, hrow]
    refine ⟨_, Dict.get?_set_self _ _ _, ?_⟩
    rw [map_snd_filesOfFolder]
    exact ⟨rfl, rfl, rfl⟩
  · have hrows : ∀ entry ∈ (visitCommits xxh allowedExts key visit).flatMap Commit.rows,
        decide (entry.2.folder = key') = false := by
      intro entry hentry
      obtain ⟨c, hc, hrow⟩ := List.mem_flatMap.mp hentry
      obtain ⟨file, -, rfl⟩ := List.mem_map.mp hrow
      have hkey : c.key = key := by
        unfold visitCommits at hc
        rw [if_neg (by simp [hensure])] at hc
        obtain ⟨leaf, -, hleaf⟩ := List.mem_filterMap.mp hc
        exact (commitOf_eq_some_iff.mp hleaf).1
      rw [decide_eq_false_iff_not]
      exact fun heq => hne (heq.symm.trans hkey)
    have hids : ((visitCommits xxh allowedExts key visit).flatMap Commit.rows).map Prod.fst =
        (visitCommits xxh allowedExts key visit).flatMap Commit.fileIds := by
      rw [List.map_flatMap]
      simp only [Commit.map_fst_rows]
    rw [files_visitFolder, commitAll_eq_setAll, filesOfFolder, select_setAll _ hrows, hids]
    rfl

/-- **Completed steps.** A completed step of a crawl changes nothing and upserts nothing, or it is a
step that takes the ids of its upserts. -/
lemma folderStep_apply {action : CrawlAction} (hdone : action.Completed) (cat : Catalog) :
    (action.apply cm xxh allowedExts cat = cat ∧ action.upsertedIds cm xxh allowedExts = []) ∨
      FolderStep (action.key cm) (action.upsertedIds cm xxh allowedExts) cat
        (action.apply cm xxh allowedExts cat) := by
  obtain ⟨env, rootDir, domain, folder, kind⟩ := action
  unfold CrawlAction.apply CrawlAction.upsertedIds
  cases kind with
  | full rootListing io =>
    dsimp only
    cases hstep : ingestFolder cm xxh allowedExts env rootDir domain
        (fetchRootFilesMapping rootListing) folder io cat with
    | error e => exact Or.inl ⟨rfl, rfl⟩
    | ok cat' =>
      rcases ingestFolder_cases hstep with ⟨-, rfl⟩ | ⟨files, -, -, hsave⟩
      · exact Or.inl ⟨rfl, rfl⟩
      · exact Or.inr (folderStep_save hsave)
  | delta visit =>
    dsimp only
    cases hensure : visit.ensureFails with
    | true =>
      refine Or.inl ⟨?_, ?_⟩
      · rw [visitFolder, if_pos hensure]
      · rw [visitCommits, if_pos hensure, List.flatMap_nil]
    | false =>
      have hcheck : visit.checkpointFails = false :=
        hdone.resolve_left (by simp [hensure])
      exact Or.inr (folderStep_visit cat hensure hcheck)

/-- **The statistics in a run.** In a run of completed steps on an empty catalog the statistics are
exact in every state exactly when no step upserts the id of a file that belongs, in the catalog
before the step, to another folder.

**Proof sketch.** A step takes ids only, so the foreign keys are an invariant, and as long as the
statistics are exact the next step decides whether they stay so. -/
theorem exactAggregates_replay_iff {actions : List CrawlAction}
    (hdone : ∀ action ∈ actions, action.Completed) :
    Always (CrawlAction.apply cm xxh allowedExts) ExactAggregates Catalog.empty actions ↔
      Along (CrawlAction.apply cm xxh allowedExts) (CrawlAction.KeepsFiles cm xxh allowedExts)
        Catalog.empty actions := by
  refine @always_iff _ _ _ _ _ _ ForeignKeys CrawlAction.Completed _ ?_ ?_ ?_ ?_ hdone
  · intro cat action hkeys hcompleted
    rcases @folderStep_apply cm xxh allowedExts _ hcompleted cat with ⟨hsame, -⟩ | hstep
    · rw [hsame]
      exact hkeys
    · exact hstep.foreignKeys hkeys
  · intro cat action hkeys hcompleted hexact
    unfold CrawlAction.KeepsFiles
    rcases @folderStep_apply cm xxh allowedExts _ hcompleted cat with ⟨hsame, hnone⟩ | hstep
    · rw [hsame, hnone]
      exact iff_of_true hexact (by simp)
    · exact hstep.exactAggregates_iff hkeys hexact
  · intro fileId file hfile
    cases hfile
  · intro key row hrow
    cases hrow

end Actions

/-! ## Sample runs -/

/-- The file of a folder as the server reports it. -/
def movedItem (fileId : Str) : RawItem :=
  ⟨some "File".toList, some "Export.csv".toList, some 10, some 5, none, some fileId⟩

/-- A full crawl of a folder, and then a delta refresh of another one. -/
def moveActions (fileId : Str) : List CrawlAction :=
  [⟨"IOP".toList, "TP_export".toList, "Load".toList, "Load_r3".toList,
      .full (.ok []) ⟨.ok [movedItem "a".toList], false, Datetime.utc 7⟩⟩,
    ⟨"IOP".toList, "TP_export".toList, "Market".toList, "Price_r3".toList,
      .delta ⟨false, [("Price_r3".toList, ⟨.ok [movedItem fileId], false⟩)], false,
        Datetime.utc 8⟩⟩]

/-- All actions that move a file are completed. -/
lemma completed_moveActions (fileId : Str) :
    ∀ action ∈ moveActions fileId, action.Completed := by
  simp [moveActions, CrawlAction.Completed]

/-- The statistics are exact when the second folder lists a file of its own. -/
theorem exactAggregates_ownFile :
    Always (CrawlAction.apply CaseMap.ascii id [".csv".toList]) ExactAggregates Catalog.empty
      (moveActions "b".toList) := by
  refine (exactAggregates_replay_iff (completed_moveActions _)).mpr ⟨?_, ?_, trivial⟩
  · intro fileId hmem
    cases hmem
  · intro fileId hmem file hfile
    obtain rfl : fileId = "b".toList := List.mem_singleton.mp hmem
    cases hfile

/-- When the second folder lists the file of the first one, the row of the first still counts it. -/
theorem not_exactAggregates_moved : ¬ ∀ actions : List CrawlAction,
    (∀ action ∈ actions, action.Completed) →
      Always (CrawlAction.apply CaseMap.ascii id [".csv".toList]) ExactAggregates Catalog.empty
        actions := by
  intro hall
  have hexact := (hall _ (completed_moveActions "a".toList)).final
  have hcount := (hexact ⟨"iop".toList, "/TP_export/Load_r3/".toList⟩ _ rfl).itemCount
  exact absurd hcount (by decide)

end EntsoePipeline
