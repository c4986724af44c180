import EntsoePipeline.Catalog.Crawler
import EntsoePipeline.Delta.Log
import EntsoePipeline.Lib.Outcome

set_option relaxedAutoImplicit false
set_option autoImplicit false

/-!
# The delta refresh

The crawl phase of a delta refresh and whole refresh runs. For each dirty folder the refresh
makes sure that the folder has a row, crawls and commits its dirty leaves one by one, and then
updates the statistics of the row. The scan time is set only when every leaf succeeded.

## Main definitions

* `EntsoePipeline.refreshLeaf`, `EntsoePipeline.refreshFolder` — one leaf and one folder of the
  crawl phase.
* `EntsoePipeline.RefreshRun` — a run: the scan of the logs and the visits to the dirty folders,
  with a failure possible at every statement and an interruption between any two.
* `EntsoePipeline.History` — the catalogs that runs of one environment reach from an empty
  database, with the visits made so far.

## Main results

* `EntsoePipeline.crawledAt_visitFolder` — the scan time that a visit leaves behind.
* `EntsoePipeline.History.crawledAt` — a scan time stems from a visit whose leaves all succeeded.

## Implementation notes

The leaves of a folder are a set, so a visit lists them in an arbitrary order. An interruption
(`KeyboardInterrupt`) leaves the committed leaves in place and skips the rest; it is a visit of
some leaves without a checkpoint.
-/

namespace EntsoePipeline

open Py Outcome

/-! ## One folder -/

/-- What the environment contributes to the crawl of one leaf. -/
structure LeafCrawl where
  /-- The outcome of the recursive listing of the leaf. -/
  listing : Except PyError (List RawItem)
  /-- The upsert fails on the side of the database. -/
  commitFails : Bool

/-- What the environment contributes to the visit of one folder. -/
structure FolderVisit where
  /-- The statement that ensures the folder row fails. -/
  ensureFails : Bool
  /-- The leaves in the order they are visited. -/
  leaves : List (Str × LeafCrawl)
  /-- The statistics are not saved. -/
  checkpointFails : Bool
  /-- The clock at the checkpoint. -/
  now : Datetime

/-- Make sure that a folder has a row. -/
def ensureFolder (key : FolderKey) (domain : Str) (cat : Catalog) : Catalog :=
  { cat with folders := cat.folders.alter key fun row => row.getD ⟨domain, 0, 0, 0, none⟩ }

/-- The upsert of the files of a leaf in one statement. The database refuses a statement that
would update a row twice. -/
def upsertFiles (key : FolderKey) (files : List FileMeta) (cat : Catalog) :
    Except PyError Catalog :=
  if (files.map FileMeta.fileId).Nodup then
    .ok { cat with files := cat.files.setAll (files.map (fileRow key)) }
  else .error .dbError

/-- The crawl of a leaf: its files, or the failure that is caught. A leaf is looked up in an empty
root listing when its name has a known extension. -/
def crawlLeaf (xxh : Str → Str) (allowedExts : List Str) (leaf : Str) (io : LeafCrawl) :
    Except PyError (List FileMeta) := do
  let files ← crawlMetadataFolder xxh allowedExts leaf ∅ io.listing
  if files = [] then return []
  else if io.commitFails then throw .dbError
  else if (files.map FileMeta.fileId).Nodup then return files
  else throw .dbError

/-- The crawl of a leaf succeeds. -/
def leafSucceeds (xxh : Str → Str) (allowedExts : List Str) (leaf : Str × LeafCrawl) : Bool :=
  match crawlLeaf xxh allowedExts leaf.1 leaf.2 with
  | .ok _ => true
  | .error _ => false

/-- One leaf of the crawl phase; the flag records whether every leaf so far succeeded. -/
def refreshLeaf (xxh : Str → Str) (allowedExts : List Str) (key : FolderKey)
    (state : Catalog × Bool) (leaf : Str × LeafCrawl) : Catalog × Bool :=
  match crawlMetadataFolder xxh allowedExts leaf.1 ∅ leaf.2.listing with
  | .error _ => (state.1, false)
  | .ok files =>
    if files = [] then state
    else if leaf.2.commitFails then (state.1, false)
    else
      match upsertFiles key files state.1 with
      | .ok cat => (cat, state.2)
      | .error _ => (state.1, false)

/-- The statistics of a folder row from the committed files, with the scan time when every leaf
succeeded. -/
def checkpointRow (cat : Catalog) (key : FolderKey) (allLeavesSucceeded : Bool) (now : Datetime)
    (row : FolderRow) : FolderRow :=
  let files := cat.files.values.filter fun file => file.folder = key
  { row with
    itemCount := files.length
    originalBytes := (files.map FileRow.originalBytes).sum
    compressedBytes := (files.map FileRow.compressedBytes).sum
    crawledAt := if allLeavesSucceeded then some now else row.crawledAt }

/-- Update the row of a folder after its leaves. -/
def checkpointFolder (key : FolderKey) (allLeavesSucceeded : Bool) (now : Datetime)
    (cat : Catalog) : Catalog :=
  match cat.folders.get? key with
  | some row =>
    ⟨cat.folders.set key (checkpointRow cat key allLeavesSucceeded now row), cat.files⟩
  | none => cat

/-- The visit of a dirty folder with a given row key. -/
def visitFolder (xxh : Str → Str) (allowedExts : List Str) (key : FolderKey) (domain : Str)
    (visit : FolderVisit) (cat : Catalog) : Catalog :=
  if visit.ensureFails then cat
  else
    let crawled := visit.leaves.foldl (refreshLeaf xxh allowedExts key)
      (ensureFolder key domain cat, true)
    if visit.checkpointFails then crawled.1
    else checkpointFolder key crawled.2 visit.now crawled.1

/-- The visit of one dirty folder. -/
def refreshFolder (cm : CaseMap) (xxh : Str → Str) (allowedExts : List Str)
    (env folder domain : Str) (visit : FolderVisit) (cat : Catalog) : Catalog :=
  visitFolder xxh allowedExts (folderKey cm env "TP_export".toList folder) domain visit cat

/-- The visit reached its checkpoint and every leaf succeeded. -/
def FolderVisit.completes (xxh : Str → Str) (allowedExts : List Str) (visit : FolderVisit) : Bool :=
  !visit.ensureFails && visit.leaves.all (leafSucceeds xxh allowedExts) && !visit.checkpointFails

/-! ### What a visit does -/

section Visit

variable {cm : CaseMap} {xxh : Str → Str} {allowedExts : List Str} {key : FolderKey}

/-- The crawl of a leaf succeeds when its listing does and there is nothing to commit, or the
commit is accepted. -/
lemma crawlLeaf_eq_ok_iff {leaf : Str} {io : LeafCrawl} {files : List FileMeta} :
    crawlLeaf xxh allowedExts leaf io = .ok files ↔
      crawlMetadataFolder xxh allowedExts leaf ∅ io.listing = .ok files ∧
        (files = [] ∨ io.commitFails = false ∧ (files.map FileMeta.fileId).Nodup) := by
  rw [crawlLeaf, bind_eq_ok_iff]
  constructor
  · rintro ⟨files', hcrawl, h⟩
    split_ifs at h with hnil hcommit hids
    · cases h
      exact ⟨hnil ▸ hcrawl, Or.inl rfl⟩
    · cases h
      exact ⟨hcrawl, Or.inr ⟨by simpa using hcommit, hids⟩⟩
  · rintro ⟨hcrawl, hcommit⟩
    refine ⟨files, hcrawl, ?_⟩
    by_cases hnil : files = []
    · rw [if_pos hnil, hnil]
      rfl
    · obtain ⟨hcommit, hids⟩ := hcommit.resolve_left hnil
      rw [if_neg hnil, hcommit, if_neg Bool.false_ne_true, if_pos hids]
      rfl

/-- The ids of committed files are distinct. -/
lemma nodup_of_crawlLeaf {leaf : Str} {io : LeafCrawl} {files : List FileMeta}
    (h : crawlLeaf xxh allowedExts leaf io = .ok files) :
    (files.map FileMeta.fileId).Nodup := by
  rcases (crawlLeaf_eq_ok_iff.mp h).2 with rfl | ⟨-, hids⟩
  · exact List.nodup_nil
  · exact hids

/-- One leaf in terms of its crawl: a success commits its files, a failure clears the flag. -/
lemma refreshLeaf_eq (state : Catalog × Bool) (leaf : Str × LeafCrawl) :
    refreshLeaf xxh allowedExts key state leaf =
      match crawlLeaf xxh allowedExts leaf.1 leaf.2 with
      | .ok files =>
        ({ state.1 with files := state.1.files.setAll (files.map (fileRow key)) }, state.2)
      | .error _ => (state.1, false) := by
  unfold refreshLeaf crawlLeaf
  cases hcrawl : crawlMetadataFolder xxh allowedExts leaf.1 ∅ leaf.2.listing with
  | error e => rfl
  | ok files =>
    by_cases hnil : files = []
    · subst hnil
      rfl
    · cases hcommit : leaf.2.commitFails with
      | true => simp [hnil, bind, Except.bind, throw, throwThe, MonadExceptOf.throw]
      | false =>
        unfold upsertFiles
        by_cases hids : (files.map FileMeta.fileId).Nodup
        · simp [hnil, hids, bind, Except.bind, pure, Except.pure]
        · simp [hnil, hids, bind, Except.bind, throw, throwThe, MonadExceptOf.throw]

/-- A leaf leaves the folder rows alone and clears the flag exactly when it fails. -/
lemma refreshLeaf_folders (state : Catalog × Bool) (leaf : Str × LeafCrawl) :
    (refreshLeaf xxh allowedExts key state leaf).1.folders = state.1.folders ∧
      (refreshLeaf xxh allowedExts key state leaf).2 =
        (state.2 && leafSucceeds xxh allowedExts leaf) := by
  rw [refreshLeaf_eq]
  unfold leafSucceeds
  cases crawlLeaf xxh allowedExts leaf.1 leaf.2 with
  | ok files => simp
  | error e => simp

/-- A list of leaves leaves the folder rows alone and clears the flag when one of them fails. -/
lemma refreshLeaves_folders (leaves : List (Str × LeafCrawl)) (state : Catalog × Bool) :
    (leaves.foldl (refreshLeaf xxh allowedExts key) state).1.folders = state.1.folders ∧
      (leaves.foldl (refreshLeaf xxh allowedExts key) state).2 =
        (state.2 && leaves.all (leafSucceeds xxh allowedExts)) := by
  induction leaves generalizing state with
  | nil => simp
  | cons leaf leaves ih =>
    obtain ⟨hfolders, hflag⟩ := ih (refreshLeaf xxh allowedExts key state leaf)
    obtain ⟨hfolders', hflag'⟩ := @refreshLeaf_folders xxh allowedExts key state leaf
    rw [List.foldl_cons, hfolders, hfolders', hflag, hflag', List.all_cons, Bool.and_assoc]
    exact ⟨rfl, rfl⟩

/-- A folder that is ensured has its old row, or an empty one. -/
lemma get?_folders_ensureFolder (domain : Str) (cat : Catalog) :
    (ensureFolder key domain cat).folders.get? key =
      some ((cat.folders.get? key).getD ⟨domain, 0, 0, 0, none⟩) :=
  Dict.get?_alter_self _ _ _

/-- A visit changes the row of its own folder only. -/
lemma get?_folders_visitFolder_of_ne {domain : Str} {visit : FolderVisit} {cat : Catalog}
    {key' : FolderKey} (hkey : key' ≠ key) :
    (visitFolder xxh allowedExts key domain visit cat).folders.get? key' =
      cat.folders.get? key' := by
  have hensure : (ensureFolder key domain cat).folders.get? key' = cat.folders.get? key' :=
    Dict.get?_alter_of_ne _ _ hkey
  unfold visitFolder
  dsimp only
  split_ifs with hens hcheck
  · rfl
  · rw [(refreshLeaves_folders _ _).1, hensure]
  · unfold checkpointFolder
    split
    · dsimp only
      rw [Dict.get?_set_of_ne _ _ hkey, (refreshLeaves_folders _ _).1, hensure]
    · rw [(refreshLeaves_folders _ _).1, hensure]

/-- The scan time of a folder after a visit to it: the clock of the visit when it completes, and
the old scan time otherwise. -/
lemma crawledAt_visitFolder {domain : Str} {visit : FolderVisit} {cat : Catalog} :
    ((visitFolder xxh allowedExts key domain visit cat).folders.get? key).bind
        FolderRow.crawledAt =
      if visit.completes xxh allowedExts then some visit.now
      else (cat.folders.get? key).bind FolderRow.crawledAt := by
  have hensure : ((cat.folders.get? key).getD ⟨domain, 0, 0, 0, none⟩).crawledAt =
      (cat.folders.get? key).bind FolderRow.crawledAt := by
    cases cat.folders.get? key <;> rfl
  unfold visitFolder FolderVisit.completes
  cases hens : visit.ensureFails with
  | true => simp
  | false =>
    rw [if_neg (by simp)]
    dsimp only
    have hrow : ((visit.leaves.foldl (refreshLeaf xxh allowedExts key)
        (ensureFolder key domain cat, true)).1.folders.get? key) =
          some ((cat.folders.get? key).getD ⟨domain, 0, 0, 0, none⟩) := by
      rw [(refreshLeaves_folders _ _).1, get?_folders_ensureFolder]
    cases hcheck : visit.checkpointFails with
    | true =>
      rw [if_pos rfl, hrow, Option.bind_some, hensure]
      simp
    | false =>
      rw [if_neg (by simp), checkpointFolder, hrow]
      dsimp only
      rw [Dict.get?_set_self, Option.bind_some, checkpointRow, (refreshLeaves_folders _ _).2,
        hensure, Bool.true_and, Bool.not_false, Bool.true_and, Bool.and_true]

end Visit

/-! ## Whole runs -/

/-- The active folders: those of the domains, in domain order. -/
def activeFoldersOf (domains : List (Str × List Str)) : List Str := domains.flatMap Prod.snd

/-- The domain of each active folder; a folder listed in several domains has the last one. -/
def folderToDomain (domains : List (Str × List Str)) : Dict Str Str :=
  Dict.ofList (domains.flatMap fun domain => domain.2.map fun folder => (folder, domain.1))

/-- The rows of an input are those of a catalog, in some order. -/
structure DeltaInput.Reads (cm : CaseMap) (env : Str) (cat : Catalog) (input : DeltaInput) :
    Prop where
  /-- The file rows of the environment. -/
  fileRows : input.fileRows.Perm (cat.fileRows (cm.lower env))
  /-- The folder rows of the environment. -/
  folderRows : input.folderRows.Perm (cat.folderRows (cm.lower env))

/-- A visit crawls each dirty leaf once. -/
def FolderVisit.Visits (visit : FolderVisit) (dirty : DirtyMap) (folder : Str) : Prop :=
  (visit.leaves.map Prod.fst).Nodup ∧
    ∀ leaf, leaf ∈ visit.leaves.map Prod.fst ↔ Marked dirty folder leaf

/-- The visit of a folder with one dirty leaf. -/
lemma FolderVisit.visits_singleton {visit : FolderVisit} {folder leaf : Str}
    (h : visit.leaves.map Prod.fst = [leaf]) :
    visit.Visits (Dict.ofList [(folder, {leaf})]) folder := by
  unfold FolderVisit.Visits
  rw [h]
  refine ⟨List.nodup_singleton leaf, fun leaf' => ?_⟩
  rw [List.mem_singleton, marked_singleton]

/-- An interrupted visit crawls some of the dirty leaves and saves no statistics. -/
def FolderVisit.InterruptedIn (visit : FolderVisit) (dirty : DirtyMap) (folder : Str) : Prop :=
  (visit.leaves.map Prod.fst).Nodup ∧ visit.checkpointFails = true ∧
    ∀ leaf ∈ visit.leaves.map Prod.fst, Marked dirty folder leaf

/-- The visits of a run to a list of dirty folders. -/
inductive VisitsOf (dirty : DirtyMap) : List Str → List (Str × FolderVisit) → Prop
  /-- The run ends, or is interrupted, before the next folder. -/
  | stop (folders : List Str) : VisitsOf dirty folders []
  /-- The run is interrupted in a folder. -/
  | interrupted {folder : Str} {folders : List Str} {visit : FolderVisit}
      (h : visit.InterruptedIn dirty folder) : VisitsOf dirty (folder :: folders) [(folder, visit)]
  /-- A folder is visited and the run goes on. -/
  | next {folder : Str} {folders : List Str} {visit : FolderVisit}
      {visits : List (Str × FolderVisit)} (h : visit.Visits dirty folder)
      (hrest : VisitsOf dirty folders visits) :
      VisitsOf dirty (folder :: folders) ((folder, visit) :: visits)

section Runs

variable (cm : CaseMap) (tl : TimeLib) (xxh : Str → Str) (allowedExts : List Str) (env : Str)

/-- The visits of a run, one after the other. -/
def runVisits (domains : List (Str × List Str)) (visits : List (Str × FolderVisit))
    (cat : Catalog) : Catalog :=
  visits.foldl (fun cat visit => refreshFolder cm xxh allowedExts env visit.1
    (((folderToDomain domains).get? visit.1).getD []) visit.2 cat) cat

/-- A run of the refresh on a catalog, with its visits. -/
inductive RefreshRun (cat : Catalog) : List (Str × FolderVisit) → Catalog → Prop
  /-- A log record cannot be compared with the catalog, and the run ends with an exception. -/
  | failed {input : DeltaInput} {e : PyError} (hreads : input.Reads cm env cat)
      (hdirty : dirtyMap cm tl input = .error e) : RefreshRun cat [] cat
  /-- The dirty folders are visited. -/
  | crawled {domains : List (Str × List Str)} {input : DeltaInput} {dirty : DirtyMap}
      {visits : List (Str × FolderVisit)} (hactive : input.activeFolders = activeFoldersOf domains)
      (hreads : input.Reads cm env cat) (hdirty : dirtyMap cm tl input = .ok dirty)
      (hvisits : VisitsOf dirty dirty.keys visits) :
      RefreshRun cat visits (runVisits cm xxh allowedExts env domains visits cat)

/-- The catalogs that runs of one environment reach from an empty database, with all visits. -/
inductive History : List (Str × FolderVisit) → Catalog → Prop
  | start : History [] Catalog.empty
  | run {visits visits' : List (Str × FolderVisit)} {cat cat' : Catalog}
      (hist : History visits cat) (h : RefreshRun cm tl xxh allowedExts env cat visits' cat') :
      History (visits ++ visits') cat'

variable {cm tl xxh allowedExts env}

/-- A scan time after some visits stems from one of them, completed at that time, or was there
before. -/
lemma crawledAt_runVisits {domains : List (Str × List Str)} {visits : List (Str × FolderVisit)}
    {cat : Catalog} {key : FolderKey} {t : Datetime}
    (h : ((runVisits cm xxh allowedExts env domains visits cat).folders.get? key).bind
      FolderRow.crawledAt = some t) :
    (∃ visit ∈ visits, key = folderKey cm env "TP_export".toList visit.1 ∧
      visit.2.completes xxh allowedExts = true ∧ t = visit.2.now) ∨
        (cat.folders.get? key).bind FolderRow.crawledAt = some t := by
  induction visits generalizing cat with
  | nil => exact Or.inr h
  | cons visit visits ih =>
    rw [runVisits, List.foldl_cons] at h
    rcases ih h with ⟨visit', hmem, hvisit⟩ | hcat
    · exact Or.inl ⟨visit', List.mem_cons_of_mem _ hmem, hvisit⟩
    · rw [refreshFolder] at hcat
      by_cases hkey : key = folderKey cm env "TP_export".toList visit.1
      · subst hkey
        rw [crawledAt_visitFolder] at hcat
        split_ifs at hcat with hdone
        · exact Or.inl ⟨visit, List.mem_cons_self, rfl, hdone, (Option.some.inj hcat).symm⟩
        · exact Or.inr hcat
      · rw [get?_folders_visitFolder_of_ne hkey] at hcat
        exact Or.inr hcat

/-- **Scan times in reachable catalogs.** A scan time in a catalog that refresh runs reach stems
from a visit to its folder that crawled all its leaves without a failure.

**Proof sketch.** Induction over the history; a run changes scan times through its visits only. -/
lemma History.crawledAt {visits : List (Str × FolderVisit)} {cat : Catalog}
    (hist : History cm tl xxh allowedExts env visits cat) {key : FolderKey} {t : Datetime}
    (h : (cat.folders.get? key).bind FolderRow.crawledAt = some t) :
    ∃ visit ∈ visits, key = folderKey cm env "TP_export".toList visit.1 ∧
      visit.2.completes xxh allowedExts = true ∧ t = visit.2.now := by
  induction hist with
  | start => cases h
  | run hist hrun ih =>
    cases hrun with
    | failed hreads hdirty =>
      obtain ⟨visit, hmem, hvisit⟩ := ih h
      exact ⟨visit, List.mem_append_left _ hmem, hvisit⟩
    | crawled hactive hreads hdirty hvisits =>
      rcases crawledAt_runVisits h with ⟨visit, hmem, hvisit⟩ | hcat
      · exact ⟨visit, List.mem_append_right _ hmem, hvisit⟩
      · obtain ⟨visit, hmem, hvisit⟩ := ih hcat
        exact ⟨visit, List.mem_append_left _ hmem, hvisit⟩

end Runs

end EntsoePipeline
