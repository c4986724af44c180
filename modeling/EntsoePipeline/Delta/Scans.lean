import EntsoePipeline.Delta.Refresh
import EntsoePipeline.Lib.Transition

set_option relaxedAutoImplicit false
set_option autoImplicit false

/-!
# What a scan time says

The full crawls and the delta refresh both write the scan time of a folder row. It is meant to say
that the folder was scanned completely at that time. This holds in every run in which no file of a
root directory is looked up in an empty root listing and in which every completed visit of the
delta refresh has crawled the folder itself.

## Main definitions

* `EntsoePipeline.CrawlAction` — one folder of a full crawl or one visit of a delta refresh.
* `EntsoePipeline.crawlSystem` — runs of full crawls and delta refreshes, in any order.
* `EntsoePipeline.CrawlAction.CompleteListing` — the listings that show all files of a folder.
* `EntsoePipeline.ScanBacked` — every scan time stems from a complete listing whose files were
  committed.
* `EntsoePipeline.CrawlAction.Meets` — the condition on one action.

## Main results

* `EntsoePipeline.replay_of_reach` — a catalog is the replay of the actions that led to it.
* `EntsoePipeline.scanBacked_of_meets` — the scan times of runs whose actions meet the condition.
* `EntsoePipeline.not_scanBacked_rootFile` — a failed root listing marks a file as scanned.
-/

namespace EntsoePipeline

open Py Transition

/-! ## Actions -/

/-- What is done to a folder. -/
inductive CrawlKind
  /-- A folder step of a full crawl, with the outcome of the root listing of its run. -/
  | full (rootListing : Except PyError (List RawItem)) (io : FolderCrawl)
  /-- A visit of a delta refresh. -/
  | delta (visit : FolderVisit)

/-- One folder of a full crawl or one visit of a delta refresh. -/
structure CrawlAction where
  /-- The environment of the run. -/
  env : Str
  /-- The root directory. -/
  rootDir : Str
  /-- The domain or archive of the run. -/
  domain : Str
  /-- The folder. -/
  folder : Str
  /-- What is done to it. -/
  kind : CrawlKind

section Actions

variable (cm : CaseMap) (xxh : Str → Str) (allowedExts : List Str)

/-- The key of the folder's row. -/
def CrawlAction.key (action : CrawlAction) : FolderKey :=
  folderKey cm action.env action.rootDir action.folder

/-- What an action does to the catalog. A failed transaction changes nothing. -/
def CrawlAction.apply (cat : Catalog) (action : CrawlAction) : Catalog :=
  match action.kind with
  | .full rootListing io =>
    match ingestFolder cm xxh allowedExts action.env action.rootDir action.domain
        (fetchRootFilesMapping rootListing) action.folder io cat with
    | .ok cat' => cat'
    | .error _ => cat
  | .delta visit => visitFolder xxh allowedExts (action.key cm) action.domain visit cat

/-- The catalog after a list of actions on an empty database. -/
def replay (actions : List CrawlAction) : Catalog :=
  actions.foldl (CrawlAction.apply cm xxh allowedExts) Catalog.empty

/-- The clock of an action. -/
def CrawlAction.now (action : CrawlAction) : Datetime :=
  match action.kind with
  | .full _ io => io.now
  | .delta visit => visit.now

/-- The folder steps of a full crawl that are executed: those up to the first uncaught failure. -/
def executedFolders (env rootDir domain : Str) (rootListing : Except PyError (List RawItem)) :
    List (Str × FolderCrawl) → Catalog → List CrawlAction
  | [], _ => []
  | (folder, io) :: rest, cat =>
    ⟨env, rootDir, domain, folder, .full rootListing io⟩ ::
      match ingestFolder cm xxh allowedExts env rootDir domain (fetchRootFilesMapping rootListing)
          folder io cat with
      | .ok cat' => executedFolders env rootDir domain rootListing rest cat'
      | .error _ => []

/-- The visits of a delta refresh as actions. -/
def visitAction (env : Str) (domains : List (Str × List Str)) (visit : Str × FolderVisit) :
    CrawlAction :=
  ⟨env, "TP_export".toList, ((folderToDomain domains).get? visit.1).getD [], visit.1,
    .delta visit.2⟩

/-! ## Runs -/

variable (tl : TimeLib) (config : ClassifierConfig)

/-- A run of a full crawl or of a delta refresh, with the actions it executes. -/
inductive CrawlStep : Catalog → List CrawlAction → Catalog → Prop
  /-- A full crawl of a domain. -/
  | domain (cat : Catalog) (domainName env : Str) (rootListing : Except PyError (List RawItem))
      (folders : List (Str × FolderCrawl)) :
      CrawlStep cat
        (executedFolders cm xxh allowedExts env "TP_export".toList domainName
          rootListing folders cat)
        (ingestDomainMetadata cm xxh allowedExts domainName env rootListing folders cat)
  /-- A full crawl of a legacy archive. -/
  | legacy (cat : Catalog) (archiveName env : Str) (archiveFolders : List Str)
      (rootListing : Except PyError (List RawItem)) (folders : List (Str × FolderCrawl))
      {rule : LegacyRule}
      (hrule : config.legacyRules.find?
        (fun rule => cm.lower rule.archive = cm.lower archiveName) = some rule) :
      CrawlStep cat
        (executedFolders cm xxh allowedExts env "TP_Legacy_Publications".toList archiveName
          rootListing (folders.filter fun folder => folder.1 ∈ archiveFolders) cat)
        (ingestLegacyMetadata cm xxh allowedExts config archiveName env archiveFolders rootListing
          folders cat)
  /-- A full crawl of an archive without a rule. -/
  | legacyUnknown (cat : Catalog) (archiveName env : Str) (archiveFolders : List Str)
      (rootListing : Except PyError (List RawItem)) (folders : List (Str × FolderCrawl))
      (hrule : config.legacyRules.find?
        (fun rule => cm.lower rule.archive = cm.lower archiveName) = none) :
      CrawlStep cat [] (ingestLegacyMetadata cm xxh allowedExts config archiveName
        env archiveFolders rootListing folders cat)
  /-- A delta refresh that ends with an exception before its first visit. -/
  | deltaFails {cat : Catalog} {env : Str} {input : DeltaInput} {e : PyError}
      (hreads : input.Reads cm env cat) (hdirty : dirtyMap cm tl input = .error e) :
      CrawlStep cat [] cat
  /-- A delta refresh with its visits. -/
  | delta {cat : Catalog} {env : Str} {domains : List (Str × List Str)} {input : DeltaInput}
      {dirty : DirtyMap} {visits : List (Str × FolderVisit)}
      (hactive : input.activeFolders = activeFoldersOf domains) (hreads : input.Reads cm env cat)
      (hdirty : dirtyMap cm tl input = .ok dirty) (hvisits : VisitsOf dirty dirty.keys visits) :
      CrawlStep cat (visits.map (visitAction env domains))
        (runVisits cm xxh allowedExts env domains visits cat)

/-- Runs of full crawls and delta refreshes on an empty database. -/
def crawlSystem : System Catalog CrawlAction where
  init cat := cat = Catalog.empty
  step := CrawlStep cm xxh allowedExts tl config

variable {cm xxh allowedExts tl config}

/-- A full crawl is the sequence of its executed folder steps. -/
lemma ingestFolders_eq_foldl (env rootDir domain : Str)
    (rootListing : Except PyError (List RawItem)) (folders : List (Str × FolderCrawl))
    (cat : Catalog) :
    ingestFolders cm xxh allowedExts env rootDir domain (fetchRootFilesMapping rootListing) folders
        cat =
      (executedFolders cm xxh allowedExts env rootDir domain rootListing folders cat).foldl
        (CrawlAction.apply cm xxh allowedExts) cat := by
  induction folders generalizing cat with
  | nil => rfl
  | cons folder rest ih =>
    obtain ⟨folder, io⟩ := folder
    rw [ingestFolders, executedFolders, List.foldl_cons]
    unfold CrawlAction.apply
    dsimp only
    cases ingestFolder cm xxh allowedExts env rootDir domain (fetchRootFilesMapping rootListing)
        folder io cat with
    | ok cat' => exact ih cat'
    | error e => rfl

/-- **Runs are replays.** Every run of a full crawl or of a delta refresh is the sequence of its
actions. -/
lemma CrawlStep.eq_foldl {cat cat' : Catalog} {actions : List CrawlAction}
    (h : CrawlStep cm xxh allowedExts tl config cat actions cat') :
    cat' = actions.foldl (CrawlAction.apply cm xxh allowedExts) cat := by
  cases h with
  | domain => exact ingestFolders_eq_foldl _ _ _ _ _ _
  | legacy _ _ _ _ _ hrule =>
    unfold ingestLegacyMetadata
    rw [hrule]
    exact ingestFolders_eq_foldl _ _ _ _ _ _
  | legacyUnknown _ _ _ _ _ hrule =>
    unfold ingestLegacyMetadata
    rw [hrule]
    rfl
  | deltaFails => rfl
  | delta =>
    rw [List.foldl_map]
    rfl

/-- A reachable catalog is the replay of the actions that led to it. -/
lemma replay_of_reach {actions : List CrawlAction} {cat : Catalog}
    (hrun : (crawlSystem cm xxh allowedExts tl config).Reach actions cat) :
    cat = replay cm xxh allowedExts actions := by
  refine @System.Reach.invariant _ _ (crawlSystem cm xxh allowedExts tl config)
    (fun actions cat => cat = replay cm xxh allowedExts actions) (fun cat hcat => hcat) ?_ _ _ hrun
  intro actions events cat cat' hcat hstep
  rw [CrawlStep.eq_foldl hstep, hcat, replay, replay, List.foldl_append]

end Actions

/-! ## Scans -/

section Scans

variable (cm : CaseMap) (xxh : Str → Str) (allowedExts : List Str)

/-- An action obtained a complete listing of its folder, without a failure. A file of a root
directory is listed by a listing of that directory that is not empty, and a directory by its
recursive listing. -/
inductive CrawlAction.CompleteListing (action : CrawlAction) : List FileMeta → Prop
  /-- A full crawl lists a directory. -/
  | directory {rootListing : Except PyError (List RawItem)} {io : FolderCrawl}
      {items : List RawItem} (hkind : action.kind = .full rootListing io)
      (hdir : ¬ endsWithAny action.folder allowedExts = true) (hlist : io.listing = .ok items) :
      CompleteListing action (items.map (mapRawFmsItem xxh))
  /-- A full crawl looks a file up in the listing of its root directory. -/
  | rootFile {rootListing : Except PyError (List RawItem)} {io : FolderCrawl}
      {items : List RawItem} (hkind : action.kind = .full rootListing io)
      (hext : endsWithAny action.folder allowedExts = true) (hlist : rootListing = .ok items)
      (hne : items ≠ []) (hnames : ∀ item ∈ items, item.name ≠ none) :
      CompleteListing action
        (((fetchRootFilesMapping rootListing).get? action.folder).toList.map (mapRawFmsItem xxh))
  /-- A delta refresh lists the directory itself as one of its leaves. -/
  | leaf {visit : FolderVisit} {io : LeafCrawl} {items : List RawItem}
      (hkind : action.kind = .delta visit)
      (hdir : ¬ endsWithAny action.folder allowedExts = true)
      (hleaf : (action.folder, io) ∈ visit.leaves) (hlist : io.listing = .ok items) :
      CompleteListing action (items.map (mapRawFmsItem xxh))

/-- The files have rows under the folder. -/
def Committed (key : FolderKey) (files : List FileMeta) (cat : Catalog) : Prop :=
  ∀ file ∈ files, ∃ row, cat.files.get? file.fileId = some row ∧ row.folder = key

/-- Every scan time stems from an action on its folder that obtained a complete listing and, at that
time, committed its files. -/
def ScanBacked (actions : List CrawlAction) (cat : Catalog) : Prop :=
  ∀ key t, (cat.folders.get? key).bind FolderRow.crawledAt = some t →
    ∃ before action after files, actions = before ++ action :: after ∧ action.key cm = key ∧
      action.CompleteListing xxh allowedExts files ∧ action.now = t ∧
        Committed key files (replay cm xxh allowedExts (before ++ [action]))

/-- The condition on an action: a file of a root directory that is saved is looked up in a non-empty
mapping, and a visit that completes has the folder itself, a directory, among its leaves. -/
def CrawlAction.Meets (action : CrawlAction) : Prop :=
  match action.kind with
  | .full rootListing io => endsWithAny action.folder allowedExts = true → io.saveFails = false →
      fetchRootFilesMapping rootListing ≠ ∅
  | .delta visit => visit.completes xxh allowedExts = true →
      ¬ endsWithAny action.folder allowedExts = true ∧ action.folder ∈ visit.leaves.map Prod.fst

variable {cm xxh allowedExts}

/-! ### Commits of a visit -/

/-- After the files of a leaf are committed, they have rows under the folder, and rows that were
there before stay under it. -/
lemma exists_row_setAll {key : FolderKey} {files : List FileMeta} {rows : Dict Str FileRow}
    {fileId : Str} (h : (∃ row, rows.get? fileId = some row ∧ row.folder = key) ∨
      fileId ∈ files.map FileMeta.fileId) :
    ∃ row, (rows.setAll (files.map (fileRow key))).get? fileId = some row ∧ row.folder = key := by
  induction files generalizing rows with
  | nil => exact h.resolve_right (by simp)
  | cons file files ih =>
    rw [List.map_cons, Dict.setAll_cons]
    apply ih
    by_cases hid : fileId = file.fileId
    · subst hid
      exact Or.inl ⟨_, Dict.get?_set_self _ _ _, rfl⟩
    · rcases h with ⟨row, hrow, hfolder⟩ | hmem
      · exact Or.inl ⟨row, (Dict.get?_set_of_ne _ _ hid).trans hrow, hfolder⟩
      · exact Or.inr ((List.mem_cons.mp hmem).resolve_left hid)

section Visit

variable {key : FolderKey}

/-- A further leaf of the folder keeps what is committed. -/
lemma committed_refreshLeaf {files : List FileMeta} (state : Catalog × Bool)
    (leaf : Str × LeafCrawl) (h : Committed key files state.1) :
    Committed key files (refreshLeaf xxh allowedExts key state leaf).1 := by
  rw [refreshLeaf_eq]
  cases crawlLeaf xxh allowedExts leaf.1 leaf.2 with
  | ok files' => exact fun file hfile => exists_row_setAll (Or.inl (h file hfile))
  | error e => exact h

/-- The files of a leaf that is crawled successfully are committed by its visit. -/
lemma committed_refreshLeaves {leaves : List (Str × LeafCrawl)} {leaf : Str × LeafCrawl}
    (hleaf : leaf ∈ leaves) {files : List FileMeta}
    (hcrawl : crawlLeaf xxh allowedExts leaf.1 leaf.2 = .ok files) (state : Catalog × Bool) :
    Committed key files (leaves.foldl (refreshLeaf xxh allowedExts key) state).1 := by
  have hkeep : ∀ (leaves : List (Str × LeafCrawl)) (state : Catalog × Bool),
      Committed key files state.1 →
        Committed key files (leaves.foldl (refreshLeaf xxh allowedExts key) state).1 := by
    intro leaves
    induction leaves with
    | nil => exact fun _ h => h
    | cons other leaves ih => exact fun state h => ih _ (committed_refreshLeaf state other h)
  obtain ⟨before, after, rfl⟩ := List.append_of_mem hleaf
  rw [List.foldl_append, List.foldl_cons]
  apply hkeep
  rw [refreshLeaf_eq, hcrawl]
  exact fun file hfile => exists_row_setAll (Or.inr (List.mem_map_of_mem hfile))

/-- A visit without a failure commits the listing of every leaf that is a directory. -/
lemma committed_visitFolder {domain : Str} {visit : FolderVisit} {cat : Catalog}
    (hdone : visit.completes xxh allowedExts = true) {leaf : Str} {io : LeafCrawl}
    (hleaf : (leaf, io) ∈ visit.leaves) (hdir : ¬ endsWithAny leaf allowedExts = true) :
    ∃ items, io.listing = .ok items ∧ Committed key (items.map (mapRawFmsItem xxh))
      (visitFolder xxh allowedExts key domain visit cat) := by
  simp only [FolderVisit.completes, Bool.and_eq_true, Bool.not_eq_true', List.all_eq_true] at hdone
  obtain ⟨⟨hensure, hleaves⟩, hcheck⟩ := hdone
  have hsucceeds := hleaves _ hleaf
  unfold leafSucceeds at hsucceeds
  cases hcrawl : crawlLeaf xxh allowedExts leaf io with
  | error e => simp [hcrawl] at hsucceeds
  | ok files =>
    have hfiles := @committed_refreshLeaves xxh allowedExts key _ _ hleaf files hcrawl
      (ensureFolder key domain cat, true)
    obtain ⟨items, hlist, rfl⟩ := listing_of_crawlMetadataFolder (Bool.eq_false_iff.mpr hdir)
      (crawlLeaf_eq_ok_iff.mp hcrawl).1
    refine ⟨items, hlist, ?_⟩
    unfold visitFolder
    rw [hensure, hcheck, if_neg (by simp)]
    dsimp only
    rw [if_neg (by simp), checkpointFolder]
    split
    · exact hfiles
    · exact hfiles

end Visit

/-! ### Scan times -/

/-- The saved files of a folder step are a complete listing, when a root file is looked up in a
non-empty mapping. -/
lemma completeListing_of_crawl {env rootDir domain folder : Str}
    {rootListing : Except PyError (List RawItem)} {io : FolderCrawl} {files : List FileMeta}
    (hcrawl : crawlMetadataFolder xxh allowedExts folder (fetchRootFilesMapping rootListing)
      io.listing = .ok files)
    (hroot : endsWithAny folder allowedExts = true → fetchRootFilesMapping rootListing ≠ ∅) :
    CrawlAction.CompleteListing xxh allowedExts
      ⟨env, rootDir, domain, folder, .full rootListing io⟩ files := by
  by_cases hext : endsWithAny folder allowedExts = true
  · obtain ⟨items, hlist, hne, hnames⟩ := fetchRootFilesMapping_ne_empty_iff.mp (hroot hext)
    rw [crawlMetadataFolder_of_extension hext] at hcrawl
    cases hcrawl
    exact .rootFile rfl hext hlist hne hnames
  · obtain ⟨items, hlist, rfl⟩ :=
      listing_of_crawlMetadataFolder (Bool.eq_false_iff.mpr hext) hcrawl
    exact .directory rfl hext hlist

/-- An action changes the row of its own folder only. -/
lemma get?_folders_apply_of_ne {action : CrawlAction} {cat : Catalog} {key : FolderKey}
    (hkey : key ≠ action.key cm) :
    (action.apply cm xxh allowedExts cat).folders.get? key = cat.folders.get? key := by
  obtain ⟨env, rootDir, domain, folder, kind⟩ := action
  unfold CrawlAction.apply
  cases kind with
  | full rootListing io =>
    dsimp only
    split
    · rename_i cat' hstep
      exact get?_folders_ingestFolder hstep hkey
    · rfl
  | delta visit => exact get?_folders_visitFolder_of_ne hkey

/-- A row that an action leaves with a scan time had it before, or the action is one on its folder
that obtained a complete listing and committed it at that time. -/
lemma crawledAt_apply {action : CrawlAction} (hmeets : action.Meets xxh allowedExts) {cat : Catalog}
    {key : FolderKey} {t : Datetime}
    (h : ((action.apply cm xxh allowedExts cat).folders.get? key).bind FolderRow.crawledAt =
      some t) :
    (cat.folders.get? key).bind FolderRow.crawledAt = some t ∨
      action.key cm = key ∧ ∃ files, action.CompleteListing xxh allowedExts files ∧
        action.now = t ∧ Committed key files (action.apply cm xxh allowedExts cat) := by
  by_cases hkey : key = action.key cm
  swap
  · rw [get?_folders_apply_of_ne hkey] at h
    exact Or.inl h
  subst hkey
  obtain ⟨env, rootDir, domain, folder, kind⟩ := action
  cases kind with
  | full rootListing io =>
    unfold CrawlAction.apply at h ⊢
    unfold CrawlAction.key CrawlAction.now at *
    dsimp only at h ⊢
    cases hstep : ingestFolder cm xxh allowedExts env rootDir domain
        (fetchRootFilesMapping rootListing) folder io cat with
    | error e =>
      rw [hstep] at h
      exact Or.inl h
    | ok cat' =>
      rw [hstep] at h
      dsimp only at h ⊢
      rcases ingestFolder_cases hstep with ⟨-, rfl⟩ | ⟨files, hcrawl, hio, hsave⟩
      · exact Or.inl h
      · obtain ⟨⟨row, hrow, hnow, -⟩, -, -, hfiles, -⟩ := saveCrawledFolderMetadata_ok hsave
        rw [hrow, Option.bind_some, hnow] at h
        refine Or.inr ⟨rfl, files, completeListing_of_crawl hcrawl fun hext => hmeets hext hio,
          Option.some.inj h, fun file hfile => ?_⟩
        exact ⟨_, hfiles file hfile, rfl⟩
  | delta visit =>
    unfold CrawlAction.apply at h ⊢
    unfold CrawlAction.key at h ⊢
    dsimp only at h ⊢
    rw [crawledAt_visitFolder] at h
    split_ifs at h with hdone
    · obtain ⟨hdir, hmem⟩ := hmeets hdone
      obtain ⟨⟨leaf, io⟩, hleaf, rfl⟩ := List.mem_map.mp hmem
      obtain ⟨items, hlist, hcommitted⟩ := committed_visitFolder hdone hleaf hdir
      exact Or.inr ⟨rfl, _, .leaf rfl hdir hleaf hlist, Option.some.inj h, hcommitted⟩
    · exact Or.inl h

/-- **Scan times of a replay.** When all actions meet the condition, every scan time is backed.

**Proof sketch.** Induction over the actions, the last one first: a scan time that the last action
did not set was there before it. -/
lemma scanBacked_replay {actions : List CrawlAction}
    (hmeets : ∀ action ∈ actions, action.Meets xxh allowedExts) :
    ScanBacked cm xxh allowedExts actions (replay cm xxh allowedExts actions) := by
  induction actions using List.reverseRecOn with
  | nil =>
    intro key t h
    cases h
  | append_singleton actions action ih =>
    intro key t h
    have hconcat : replay cm xxh allowedExts (actions ++ [action]) =
        action.apply cm xxh allowedExts (replay cm xxh allowedExts actions) := by
      simp [replay]
    rw [hconcat] at h
    rcases crawledAt_apply (hmeets action (by simp)) h with
      hbefore | ⟨hkey, files, hlist, hnow, hdone⟩
    · obtain ⟨before, scan, after, files, rfl, hscan⟩ :=
        ih (fun other hother => hmeets other (List.mem_append_left _ hother)) key t hbefore
      exact ⟨before, scan, after ++ [action], files, by simp, hscan⟩
    · refine ⟨actions, action, [], files, rfl, hkey, hlist, hnow, ?_⟩
      rw [hconcat]
      exact hdone

/-- **Scan times in reachable catalogs.** In every run of full crawls and delta refreshes, with any
failures, in which no file of a root directory is saved after it was looked up in an empty root
listing and every completed visit has the folder itself, a directory, among its leaves, every scan
time of a folder row stems from a complete listing of the folder, obtained without a failure, whose
files were committed at that time.

**Proof sketch.** A run is the replay of its actions, and an action sets the scan time of its own
folder only. -/
theorem scanBacked_of_meets {tl : TimeLib} {config : ClassifierConfig}
    {actions : List CrawlAction} {cat : Catalog}
    (hrun : (crawlSystem cm xxh allowedExts tl config).Reach actions cat)
    (hmeets : ∀ action ∈ actions, action.Meets xxh allowedExts) :
    ScanBacked cm xxh allowedExts actions cat := by
  rw [replay_of_reach hrun]
  exact scanBacked_replay hmeets

/-- **The condition is exact.** An action that does not meet the condition sets the scan time of its
folder without a complete listing.

**Proof sketch.** A root file that is looked up in an empty mapping has no files, and a folder
without files is saved like any other. A visit that completes sets the scan time whatever its
leaves are. -/
theorem crawledAt_of_not_meets {action : CrawlAction} (hnot : ¬ action.Meets xxh allowedExts)
    (cat : Catalog) :
    ((action.apply cm xxh allowedExts cat).folders.get? (action.key cm)).bind FolderRow.crawledAt =
        some action.now ∧
      ∀ files, ¬ action.CompleteListing xxh allowedExts files := by
  obtain ⟨env, rootDir, domain, folder, kind⟩ := action
  cases kind with
  | full rootListing io =>
    simp only [CrawlAction.Meets, Classical.not_imp, not_not] at hnot
    obtain ⟨hext, hsave, hempty⟩ := hnot
    refine ⟨?_, fun files hlisting => ?_⟩
    · have hcrawl : crawlMetadataFolder xxh allowedExts folder (fetchRootFilesMapping rootListing)
          io.listing = .ok [] := by
        rw [crawlMetadataFolder_of_extension hext, hempty, Dict.get?_empty]
        rfl
      cases hstep : ingestFolder cm xxh allowedExts env rootDir domain
          (fetchRootFilesMapping rootListing) folder io cat with
      | error e =>
        unfold ingestFolder at hstep
        rw [hcrawl] at hstep
        simp [hsave, saveCrawledFolderMetadata] at hstep
      | ok cat' =>
        unfold CrawlAction.apply CrawlAction.key CrawlAction.now
        dsimp only
        rw [hstep]
        rcases ingestFolder_cases hstep with ⟨⟨e, herror⟩, -⟩ | ⟨files, -, -, hsaved⟩
        · rw [hcrawl] at herror
          cases herror
        · obtain ⟨⟨row, hrow, hnow, -⟩, -⟩ := saveCrawledFolderMetadata_ok hsaved
          rw [hrow, Option.bind_some, hnow]
    · cases hlisting with
      | directory hkind hdir => exact hdir hext
      | rootFile hkind _ hlist hne hnames =>
        cases hkind
        exact fetchRootFilesMapping_ne_empty_iff.mpr ⟨_, hlist, hne, hnames⟩ hempty
      | leaf hkind => cases hkind
  | delta visit =>
    simp only [CrawlAction.Meets, Classical.not_imp, not_and] at hnot
    obtain ⟨hdone, hleaf⟩ := hnot
    refine ⟨?_, fun files hlisting => ?_⟩
    · unfold CrawlAction.apply CrawlAction.key CrawlAction.now
      dsimp only
      rw [crawledAt_visitFolder, if_pos hdone]
    · cases hlisting with
      | directory hkind => cases hkind
      | rootFile hkind => cases hkind
      | leaf hkind hdir hmem =>
        cases hkind
        exact hleaf hdir (List.mem_map_of_mem hmem)

end Scans

/-! ## Sample runs -/

/-- Readers that know no time. -/
def blindTimes : TimeLib := ⟨fun _ => none, fun _ => none, fun _ => none⟩

/-- The crawl of a domain with one folder. -/
def domainRun (rootListing : Except PyError (List RawItem)) (folder : Str)
    (listing : Except PyError (List RawItem)) : List CrawlAction :=
  executedFolders CaseMap.ascii id [".csv".toList] "IOP".toList "TP_export".toList "Load".toList
    rootListing [(folder, ⟨listing, false, Datetime.utc 7⟩)] Catalog.empty

/-- The crawl of a domain with one folder is a run. -/
lemma reach_domainRun (rootListing : Except PyError (List RawItem)) (folder : Str)
    (listing : Except PyError (List RawItem)) :
    (crawlSystem CaseMap.ascii id [".csv".toList] blindTimes (.ofYaml ∅ [])).Reach
      (domainRun rootListing folder listing)
      (replay CaseMap.ascii id [".csv".toList] (domainRun rootListing folder listing)) := by
  have hstart : (crawlSystem CaseMap.ascii id [".csv".toList] blindTimes (.ofYaml ∅ [])).Reach []
      Catalog.empty := .start rfl
  have hrun := hstart.next (CrawlStep.domain Catalog.empty "Load".toList "IOP".toList rootListing
    [(folder, ⟨listing, false, Datetime.utc 7⟩)])
  have hcat := replay_of_reach hrun
  rw [List.nil_append] at hrun hcat
  rw [domainRun, ← hcat]
  exact hrun

/-- A file that a listing shows. -/
def scannedItem (name fileId : Str) : RawItem :=
  ⟨some "File".toList, some name, some 9, some 4, some "2026-07-08T00:00:00Z".toList, some fileId⟩

/-- The folders of a full crawl: a directory with a file, one whose listing fails, and a file of the
root directory. -/
def crawledSample : List (Str × FolderCrawl) :=
  [("Load_r3".toList, ⟨.ok [scannedItem "a.csv".toList "1".toList], false, Datetime.utc 7⟩),
    ("Price_r3".toList, ⟨.error .apiError, false, Datetime.utc 7⟩),
    ("Export.csv".toList, ⟨.ok [], false, Datetime.utc 7⟩)]

/-- The listing of the root directory in this crawl. -/
def rootSample : Except PyError (List RawItem) :=
  .ok [scannedItem "Export.csv".toList "2".toList]

/-- The catalog behind this crawl. -/
def scannedCatalog : Catalog :=
  ingestDomainMetadata CaseMap.ascii id [".csv".toList] "Load".toList "IOP".toList rootSample
    crawledSample Catalog.empty

/-- The input of a delta refresh on this catalog, of which no log record is read. -/
def unscannedInput : DeltaInput where
  activeFolders := ["Load_r3".toList, "Price_r3".toList]
  stdLog := []
  oceLog := []
  fileRows := scannedCatalog.fileRows "iop".toList
  folderRows := scannedCatalog.folderRows "iop".toList

/-- The domain of the two directories. -/
def scannedDomains : List (Str × List Str) :=
  [("Load".toList, ["Load_r3".toList, "Price_r3".toList])]

/-- The visit of the directory whose listing failed, which is now its own leaf. -/
def unscannedVisit : Str × FolderVisit :=
  ("Price_r3".toList, ⟨false, [("Price_r3".toList,
    ⟨.ok [scannedItem "b.csv".toList "3".toList, scannedItem "c.csv".toList "4".toList], false⟩)],
    false, Datetime.utc 8⟩)

/-- The actions of the full crawl and of the delta refresh. -/
def scannedActions : List CrawlAction :=
  executedFolders CaseMap.ascii id [".csv".toList] "IOP".toList "TP_export".toList "Load".toList
      rootSample crawledSample Catalog.empty ++
    [visitAction "IOP".toList scannedDomains unscannedVisit]

/-- The two runs reach the replay of their actions. -/
lemma reach_scannedActions :
    (crawlSystem CaseMap.ascii id [".csv".toList] blindTimes (.ofYaml ∅ [])).Reach scannedActions
      (replay CaseMap.ascii id [".csv".toList] scannedActions) := by
  have hstart : (crawlSystem CaseMap.ascii id [".csv".toList] blindTimes (.ofYaml ∅ [])).Reach []
      Catalog.empty := .start rfl
  have hfull := hstart.next (CrawlStep.domain Catalog.empty "Load".toList "IOP".toList rootSample
    crawledSample)
  have hreads : unscannedInput.Reads CaseMap.ascii "IOP".toList scannedCatalog :=
    ⟨List.Perm.refl _, List.Perm.refl _⟩
  have hdirty : dirtyMap CaseMap.ascii blindTimes unscannedInput =
      .ok (Dict.ofList [("Price_r3".toList, {"Price_r3".toList})]) := by
    decide +kernel
  have hvisits : VisitsOf (Dict.ofList [("Price_r3".toList, {"Price_r3".toList})])
      (Dict.ofList [("Price_r3".toList, ({"Price_r3".toList} : Finset Str))]).keys
        [unscannedVisit] :=
    .next (FolderVisit.visits_singleton rfl) (.stop [])
  have hstep : CrawlStep CaseMap.ascii id [".csv".toList] blindTimes (.ofYaml ∅ []) scannedCatalog
      [visitAction "IOP".toList scannedDomains unscannedVisit]
      (runVisits CaseMap.ascii id [".csv".toList] "IOP".toList scannedDomains [unscannedVisit]
        scannedCatalog) :=
    .delta rfl hreads hdirty hvisits
  have hrun := hfull.next hstep
  have hcat := replay_of_reach hrun
  rw [List.nil_append] at hrun hcat
  rw [scannedActions, ← hcat]
  exact hrun

/-- Every one of these actions meets the condition. -/
lemma meets_scannedActions : ∀ action ∈ scannedActions, action.Meets id [".csv".toList] := by
  have hactions : scannedActions = crawledSample.map (fun folder =>
      ⟨"IOP".toList, "TP_export".toList, "Load".toList, folder.1, .full rootSample folder.2⟩) ++
        [visitAction "IOP".toList scannedDomains unscannedVisit] := rfl
  intro action haction
  rw [hactions, List.mem_append] at haction
  rcases haction with hfull | hdelta
  · obtain ⟨folder, -, rfl⟩ := List.mem_map.mp hfull
    exact fun _ _ => fetchRootFilesMapping_ne_empty_iff.mpr ⟨_, rfl, by simp, by decide⟩
  · obtain rfl := List.mem_singleton.mp hdelta
    exact fun _ => ⟨by decide, by decide⟩

/-- The full crawl marks the directory and the file of the root directory as scanned, the delta
refresh the other directory, and all three scan times are backed. -/
theorem scanBacked_crawlAndRefresh :
    ScanBacked CaseMap.ascii id [".csv".toList] scannedActions
      (replay CaseMap.ascii id [".csv".toList] scannedActions) ∧
    ["Load_r3".toList, "Export.csv".toList, "Price_r3".toList].map (fun folder =>
        ((replay CaseMap.ascii id [".csv".toList] scannedActions).folders.get?
          (folderKey CaseMap.ascii "IOP".toList "TP_export".toList folder)).bind
            FolderRow.crawledAt) =
      [some (Datetime.utc 7), some (Datetime.utc 7), some (Datetime.utc 8)] :=
  ⟨scanBacked_of_meets reach_scannedActions meets_scannedActions, by decide +kernel⟩

/-- After a failed root listing, a file of the root directory is marked as scanned. -/
theorem not_scanBacked_rootFile : ¬ ∀ actions cat,
    (crawlSystem CaseMap.ascii id [".csv".toList] blindTimes (.ofYaml ∅ [])).Reach actions cat →
      ScanBacked CaseMap.ascii id [".csv".toList] actions cat := by
  intro hall
  have hbacked := hall _ _ (reach_domainRun (.error .apiError) "Export.csv".toList (.ok []))
  have haction : domainRun (.error .apiError) "Export.csv".toList (.ok []) = [⟨"IOP".toList,
      "TP_export".toList, "Load".toList, "Export.csv".toList,
        .full (.error .apiError) ⟨.ok [], false, Datetime.utc 7⟩⟩] := rfl
  rw [haction] at hbacked
  have hnot : ¬ CrawlAction.Meets id [".csv".toList] ⟨"IOP".toList, "TP_export".toList,
      "Load".toList, "Export.csv".toList,
        .full (.error .apiError) ⟨.ok [], false, Datetime.utc 7⟩⟩ := by
    intro hmeets
    exact hmeets (by decide) rfl rfl
  obtain ⟨hcrawled, hlisting⟩ := @crawledAt_of_not_meets CaseMap.ascii _ _ _ hnot Catalog.empty
  obtain ⟨before, action, after, files, hsplit, -, hfiles, -⟩ := hbacked _ _ hcrawled
  obtain ⟨rfl, rfl⟩ : before = [] ∧ after = [] := by
    have hlen := congrArg List.length hsplit
    simp only [List.length_append, List.length_cons, List.length_nil] at hlen
    exact ⟨List.eq_nil_of_length_eq_zero (by omega), List.eq_nil_of_length_eq_zero (by omega)⟩
  obtain ⟨rfl, -⟩ := List.cons.inj hsplit
  exact hlisting files hfiles

end EntsoePipeline
