import EntsoePipeline.Delta.Scans
import EntsoePipeline.Lib.Replay

set_option relaxedAutoImplicit false
set_option autoImplicit false

/-!
# The transactions of the crawls

A full crawl writes the catalog by one transaction for each folder. A visit of a delta refresh
writes it by several: one that makes sure the folder has a row, one upsert for each leaf, and one
for the statistics. Two tasks, one for each environment, run such crawls at the same time, and the
database puts their transactions into some order.

## Main definitions

* `EntsoePipeline.Transaction` — a transaction under a folder key.
* `EntsoePipeline.folderTransactions`, `EntsoePipeline.visitTransactions` — the transactions of a
  full crawl and of a visit.
* `EntsoePipeline.runTransactions` — transactions one after the other.
* `EntsoePipeline.refreshTask` — the task of an environment.
* `EntsoePipeline.refreshTasks` — two tasks at the same time.

## Main results

* `EntsoePipeline.ingestFolders_eq_runTransactions`, `EntsoePipeline.visitFolder_eq_runTransactions`
  — the crawls are the sequences of their transactions.
* `EntsoePipeline.moves_writing` — what a task does that is alone.
* `EntsoePipeline.RefreshTrace` — what the runs of two tasks have in common.

## Implementation notes

A transaction is one step. A task may end at any time, by an exception or from outside, and start
again.
-/

namespace EntsoePipeline

open Py Transition Replay

/-! ## Transactions -/

/-- What a transaction writes. -/
inductive CatalogWrite
  /-- The transaction that saves a crawled folder. -/
  | save (now : Datetime) (domain : Str) (files : List FileMeta)
  /-- The statement that makes sure that the folder has a row. -/
  | ensure (domain : Str)
  /-- The upsert of the files of a leaf. -/
  | upsert (files : List FileMeta)
  /-- The update of the statistics of the folder. -/
  | checkpoint (allLeavesSucceeded : Bool) (now : Datetime)

/-- A transaction of a crawl. -/
structure Transaction where
  /-- The key of the folder row. -/
  key : FolderKey
  /-- What it writes. -/
  write : CatalogWrite

/-- The catalog after a transaction, or the error of the database. -/
def Transaction.apply (t : Transaction) (cat : Catalog) : Except PyError Catalog :=
  match t.write with
  | .save now domain files => saveCrawledFolderMetadata now t.key domain files cat
  | .ensure domain => .ok (ensureFolder t.key domain cat)
  | .upsert files => upsertFiles t.key files cat
  | .checkpoint allLeavesSucceeded now => .ok (checkpointFolder t.key allLeavesSucceeded now cat)

/-- The failure of a transaction ends the run: nothing catches it. -/
def Transaction.Uncaught (t : Transaction) : Prop :=
  match t.write with
  | .save .. => True
  | _ => False

instance : DecidablePred Transaction.Uncaught := fun t => by
  unfold Transaction.Uncaught
  split <;> infer_instance

/-- The transactions of a run, one after the other. A refused one changes nothing. -/
def runTransactions : List Transaction → Catalog → Catalog
  | [], cat => cat
  | t :: rest, cat =>
    match t.apply cat with
    | .ok cat' => runTransactions rest cat'
    | .error _ => if t.Uncaught then cat else runTransactions rest cat

/-- Transactions that are all caught run one after the other. -/
lemma runTransactions_append {ts ts' : List Transaction} (h : ∀ t ∈ ts, ¬ t.Uncaught)
    (cat : Catalog) :
    runTransactions (ts ++ ts') cat = runTransactions ts' (runTransactions ts cat) := by
  induction ts generalizing cat with
  | nil => rfl
  | cons t ts ih =>
    obtain ⟨ht, hts⟩ := List.forall_mem_cons.mp h
    rw [List.cons_append, runTransactions, runTransactions]
    cases t.apply cat with
    | ok cat' => exact ih hts cat'
    | error e =>
      dsimp only
      rw [if_neg ht, if_neg ht]
      exact ih hts cat

/-! ### The transactions of the crawls -/

section Crawls

variable (cm : CaseMap) (xxh : Str → Str) (allowedExts : List Str)

/-- The transactions of a full crawl: those of the folders whose listing succeeds, up to the first
one that fails on the side of the database. -/
def folderTransactions (env rootDir domain : Str) (rootFilesByName : Dict Str RawItem) :
    List (Str × FolderCrawl) → List Transaction
  | [] => []
  | (folder, io) :: rest =>
    match crawlMetadataFolder xxh allowedExts folder rootFilesByName io.listing with
    | .error _ => folderTransactions env rootDir domain rootFilesByName rest
    | .ok files =>
      if io.saveFails then []
      else ⟨folderKey cm env rootDir folder, .save io.now domain files⟩ ::
        folderTransactions env rootDir domain rootFilesByName rest

/-- The upsert of a leaf, if there is something to upsert and the database does not fail. -/
def leafTransaction (key : FolderKey) (leaf : Str × LeafCrawl) : Option Transaction :=
  match crawlMetadataFolder xxh allowedExts leaf.1 ∅ leaf.2.listing with
  | .error _ => none
  | .ok files => if files = [] then none else if leaf.2.commitFails then none
    else some ⟨key, .upsert files⟩

/-- The transactions of a visit. -/
def visitTransactions (key : FolderKey) (domain : Str) (visit : FolderVisit) : List Transaction :=
  if visit.ensureFails then []
  else ⟨key, .ensure domain⟩ :: (visit.leaves.filterMap (leafTransaction xxh allowedExts key) ++
    if visit.checkpointFails then []
    else [⟨key, .checkpoint (visit.leaves.all (leafSucceeds xxh allowedExts)) visit.now⟩])

/-- The transactions of the visits of a delta refresh. -/
def refreshTransactions (env : Str) (domains : List (Str × List Str))
    (visits : List (Str × FolderVisit)) : List Transaction :=
  visits.flatMap fun visit =>
    visitTransactions xxh allowedExts (folderKey cm env "TP_export".toList visit.1)
      (((folderToDomain domains).get? visit.1).getD []) visit.2

variable {cm xxh allowedExts}

/-- **Full crawls.** A full crawl is the sequence of its transactions. -/
theorem ingestFolders_eq_runTransactions (env rootDir domain : Str)
    (rootFilesByName : Dict Str RawItem) (folders : List (Str × FolderCrawl)) (cat : Catalog) :
    ingestFolders cm xxh allowedExts env rootDir domain rootFilesByName folders cat =
      runTransactions (folderTransactions cm xxh allowedExts env rootDir domain rootFilesByName
        folders) cat := by
  induction folders generalizing cat with
  | nil => rfl
  | cons folder rest ih =>
    obtain ⟨folder, io⟩ := folder
    rw [ingestFolders, folderTransactions, ingestFolder]
    cases crawlMetadataFolder xxh allowedExts folder rootFilesByName io.listing with
    | error e => exact ih cat
    | ok files =>
      dsimp only
      split_ifs with hsave
      · rfl
      · rw [runTransactions]
        unfold Transaction.apply
        dsimp only
        cases saveCrawledFolderMetadata io.now (folderKey cm env rootDir folder)
          domain files cat with
        | ok cat' => exact ih cat'
        | error e => exact (if_pos trivial).symm

/-- The upsert of a leaf is one of its folder, and its failure is caught. -/
lemma of_leafTransaction_eq_some {key : FolderKey} {leaf : Str × LeafCrawl} {t : Transaction}
    (h : leafTransaction xxh allowedExts key leaf = some t) : t.key = key ∧ ¬ t.Uncaught := by
  unfold leafTransaction at h
  split at h
  · cases h
  · split_ifs at h
    cases h
    exact ⟨rfl, id⟩

/-- The transactions of a visit are those of its folder, and their failures are caught. -/
lemma of_mem_visitTransactions {key : FolderKey} {domain : Str} {visit : FolderVisit}
    {t : Transaction} (h : t ∈ visitTransactions xxh allowedExts key domain visit) :
    t.key = key ∧ ¬ t.Uncaught := by
  unfold visitTransactions at h
  by_cases hensure : visit.ensureFails = true
  · rw [if_pos hensure] at h
    cases h
  · rw [if_neg hensure, List.mem_cons, List.mem_append, List.mem_filterMap] at h
    rcases h with rfl | ⟨leaf, -, hleaf⟩ | h
    · exact ⟨rfl, id⟩
    · exact of_leafTransaction_eq_some hleaf
    · split_ifs at h with hcheck
      · cases h
      · rw [List.mem_singleton.mp h]
        exact ⟨rfl, id⟩

/-- A leaf writes by its upsert. -/
lemma refreshLeaf_eq_runTransactions (key : FolderKey) (state : Catalog × Bool)
    (leaf : Str × LeafCrawl) :
    (refreshLeaf xxh allowedExts key state leaf).1 =
      runTransactions (leafTransaction xxh allowedExts key leaf).toList state.1 := by
  unfold refreshLeaf leafTransaction
  cases crawlMetadataFolder xxh allowedExts leaf.1 ∅ leaf.2.listing with
  | error e => rfl
  | ok files =>
    dsimp only
    split_ifs with hnil hcommit
    · rfl
    · rfl
    · rw [Option.toList_some, runTransactions]
      unfold Transaction.apply
      dsimp only
      cases upsertFiles key files state.1 with
      | ok cat' => rfl
      | error e => exact (if_neg id).symm

/-- The visit of the leaves is a run of their transactions. -/
lemma refreshLeaves_eq_runTransactions (key : FolderKey) (leaves : List (Str × LeafCrawl))
    (state : Catalog × Bool) :
    (leaves.foldl (refreshLeaf xxh allowedExts key) state).1 =
      runTransactions (leaves.filterMap (leafTransaction xxh allowedExts key)) state.1 := by
  induction leaves generalizing state with
  | nil => rfl
  | cons leaf leaves ih =>
    rw [List.foldl_cons, ih, refreshLeaf_eq_runTransactions, List.filterMap_cons]
    cases hleaf : leafTransaction xxh allowedExts key leaf with
    | none => rfl
    | some t =>
      have hcaught : ∀ t' ∈ [t], ¬ t'.Uncaught := by
        simpa using (of_leafTransaction_eq_some hleaf).2
      exact (@runTransactions_append [t] _ hcaught state.1).symm

/-- **Visits.** A visit is the sequence of its transactions. -/
theorem visitFolder_eq_runTransactions (key : FolderKey) (domain : Str) (visit : FolderVisit)
    (cat : Catalog) :
    visitFolder xxh allowedExts key domain visit cat =
      runTransactions (visitTransactions xxh allowedExts key domain visit) cat := by
  have hcaught := fun t => @of_mem_visitTransactions xxh allowedExts key domain visit t
  unfold visitTransactions at hcaught ⊢
  unfold visitFolder
  dsimp only
  split_ifs at hcaught ⊢ with hensure hcheck
  · rfl
  · rw [List.append_nil]
    exact refreshLeaves_eq_runTransactions key visit.leaves _
  · rw [runTransactions]
    refine Eq.trans ?_ (runTransactions_append (fun t ht => ?_) _).symm
    · rw [refreshLeaves_eq_runTransactions, (refreshLeaves_folders _ _).2, Bool.true_and]
      rfl
    · exact (hcaught t (List.mem_cons_of_mem _ (List.mem_append_left _ ht))).2

/-- The visits of a delta refresh are the sequence of their transactions. -/
lemma runVisits_eq_runTransactions (env : Str) (domains : List (Str × List Str))
    (visits : List (Str × FolderVisit)) (cat : Catalog) :
    runVisits cm xxh allowedExts env domains visits cat =
      runTransactions (refreshTransactions cm xxh allowedExts env domains visits) cat := by
  induction visits generalizing cat with
  | nil => rfl
  | cons visit visits ih =>
    rw [runVisits, List.foldl_cons]
    refine (ih _).trans ?_
    unfold refreshTransactions
    rw [List.flatMap_cons, runTransactions_append (fun t ht => (of_mem_visitTransactions ht).2),
      refreshFolder, visitFolder_eq_runTransactions]

/-- A full crawl writes under the keys of its environment. -/
lemma environment_folderTransactions {env rootDir domain : Str}
    {rootFilesByName : Dict Str RawItem} {folders : List (Str × FolderCrawl)} {t : Transaction}
    (h : t ∈ folderTransactions cm xxh allowedExts env rootDir domain rootFilesByName folders) :
    t.key.environment = cm.lower env := by
  induction folders with
  | nil => cases h
  | cons folder rest ih =>
    obtain ⟨folder, io⟩ := folder
    rw [folderTransactions] at h
    cases hcrawl : crawlMetadataFolder xxh allowedExts folder rootFilesByName io.listing with
    | error e =>
      rw [hcrawl] at h
      exact ih h
    | ok files =>
      rw [hcrawl] at h
      dsimp only at h
      split_ifs at h
      · cases h
      · rcases List.mem_cons.mp h with rfl | h
        · rfl
        · exact ih h

/-- A delta refresh writes under the keys of its environment. -/
lemma environment_refreshTransactions {env : Str} {domains : List (Str × List Str)}
    {visits : List (Str × FolderVisit)} {t : Transaction}
    (h : t ∈ refreshTransactions cm xxh allowedExts env domains visits) :
    t.key.environment = cm.lower env := by
  obtain ⟨visit, -, hvisit⟩ := List.mem_flatMap.mp h
  rw [(of_mem_visitTransactions hvisit).1]
  rfl

end Crawls

/-! ## Tasks -/

/-- The state of the task of an environment. -/
inductive TaskState
  /-- No run is in progress. -/
  | idle
  /-- A delta refresh has read the file rows of the environment. -/
  | reading (fileRows : List FileRow)
  /-- A run has these transactions still to do. -/
  | writing (todo : List Transaction)

/-- A transaction that the task of an environment has committed. -/
structure TaskCommit where
  /-- The environment of the task. -/
  env : Str
  /-- The transaction. -/
  transaction : Transaction

/-- The catalog after a commit. -/
def TaskCommit.replay (cat : Catalog) (c : TaskCommit) : Catalog :=
  match c.transaction.apply cat with
  | .ok cat' => cat'
  | .error _ => cat

section Tasks

variable (cm : CaseMap) (tl : TimeLib) (xxh : Str → Str) (allowedExts : List Str)
  (config : ClassifierConfig)

/-- A step of the task of an environment. -/
inductive TaskStep (env : Str) :
    Catalog → TaskState → List TaskCommit → Catalog → TaskState → Prop
  /-- The full crawl of a domain begins. -/
  | crawlDomain (cat : Catalog) (domainName : Str) (rootListing : Except PyError (List RawItem))
      (folders : List (Str × FolderCrawl)) :
      TaskStep env cat .idle [] cat (.writing (folderTransactions cm xxh allowedExts env
        "TP_export".toList domainName (fetchRootFilesMapping rootListing) folders))
  /-- The full crawl of a legacy archive begins. -/
  | crawlLegacy (cat : Catalog) (archiveName : Str) (archiveFolders : List Str)
      (rootListing : Except PyError (List RawItem)) (folders : List (Str × FolderCrawl))
      {rule : LegacyRule}
      (hrule : config.legacyRules.find?
        (fun rule => cm.lower rule.archive = cm.lower archiveName) = some rule) :
      TaskStep env cat .idle [] cat (.writing (folderTransactions cm xxh allowedExts env
        "TP_Legacy_Publications".toList archiveName (fetchRootFilesMapping rootListing)
        (folders.filter fun folder => folder.1 ∈ archiveFolders)))
  /-- A delta refresh reads the file rows. -/
  | readFiles {cat : Catalog} {fileRows : List FileRow}
      (hfiles : fileRows.Perm (cat.fileRows (cm.lower env))) :
      TaskStep env cat .idle [] cat (.reading fileRows)
  /-- A delta refresh reads the folder rows, compares the logs with what it has read, and begins to
  visit the dirty folders. -/
  | refresh {cat : Catalog} {domains : List (Str × List Str)} {input : DeltaInput}
      {dirty : DirtyMap} {visits : List (Str × FolderVisit)}
      (hactive : input.activeFolders = activeFoldersOf domains)
      (hfolders : input.folderRows.Perm (cat.folderRows (cm.lower env)))
      (hdirty : dirtyMap cm tl input = .ok dirty) (hvisits : VisitsOf dirty dirty.keys visits) :
      TaskStep env cat (.reading input.fileRows) [] cat
        (.writing (refreshTransactions cm xxh allowedExts env domains visits))
  /-- The next transaction is committed. -/
  | commit {cat cat' : Catalog} {t : Transaction} {rest : List Transaction}
      (h : t.apply cat = .ok cat') :
      TaskStep env cat (.writing (t :: rest)) [⟨env, t⟩] cat' (.writing rest)
  /-- The next transaction is refused. -/
  | refused {cat : Catalog} {t : Transaction} {rest : List Transaction} {e : PyError}
      (h : t.apply cat = .error e) :
      TaskStep env cat (.writing (t :: rest)) [] cat
        (if t.Uncaught then .idle else .writing rest)
  /-- The run ends. -/
  | stop (cat : Catalog) (state : TaskState) : TaskStep env cat state [] cat .idle

/-- The task of an environment, on the catalog. -/
def refreshTask (env : Str) : Component Catalog TaskState TaskCommit where
  init state := state = .idle
  step := TaskStep cm tl xxh allowedExts config env

/-- The tasks of two environments at the same time, on any catalog. -/
def refreshTasks (env env' : Str) (cat : Catalog) :
    System (Catalog × TaskState × TaskState) TaskCommit :=
  (refreshTask cm tl xxh allowedExts config env).interleave
    (refreshTask cm tl xxh allowedExts config env') fun start => start = cat

variable {cm tl xxh allowedExts config}

/-- **A task that is alone** does its transactions one after the other. -/
lemma moves_writing (env : Str) {store : Catalog → Prop} (todo : List Transaction) (cat : Catalog) :
    ∃ trace, ((refreshTask cm tl xxh allowedExts config env).alone store).Moves
      (cat, .writing todo) trace (runTransactions todo cat, .idle) := by
  induction todo generalizing cat with
  | nil => exact ⟨_, .single (TaskStep.stop cat (.writing []))⟩
  | cons t rest ih =>
    rw [runTransactions]
    cases happly : t.apply cat with
    | ok cat' =>
      have hstep : TaskStep cm tl xxh allowedExts config env cat (.writing (t :: rest)) [⟨env, t⟩]
        cat' (.writing rest) := .commit happly
      have hmove : ((refreshTask cm tl xxh allowedExts config env).alone store).Moves
        (cat, .writing (t :: rest)) [⟨env, t⟩] (cat', .writing rest) := .single hstep
      obtain ⟨trace, hmoves⟩ := ih cat'
      exact ⟨_, hmove.trans hmoves⟩
    | error e =>
      have hstep : TaskStep cm tl xxh allowedExts config env cat (.writing (t :: rest)) [] cat
        (if t.Uncaught then .idle else .writing rest) := .refused happly
      have hmove : ((refreshTask cm tl xxh allowedExts config env).alone store).Moves
        (cat, .writing (t :: rest)) [] (cat, if t.Uncaught then .idle else .writing rest) :=
        .single hstep
      dsimp only
      split_ifs at hmove ⊢ with huncaught
      · exact ⟨_, hmove⟩
      · obtain ⟨trace, hmoves⟩ := ih cat
        exact ⟨_, hmove.trans hmoves⟩

/-! ### What runs have in common -/

/-- What a task still has to write is under the keys of its environment. -/
def TaskState.WritesUnder (environment : Str) (state : TaskState) : Prop :=
  ∀ todo, state = .writing todo → ∀ t ∈ todo, t.key.environment = environment

/-- A commit of a task is a transaction under a key of its environment that the database accepts. -/
def TaskCommit.Accepted (cm : CaseMap) (cat : Catalog) (c : TaskCommit) : Prop :=
  c.transaction.key.environment = cm.lower c.env ∧
    c.transaction.apply cat = .ok (c.replay cat)

/-- The catalog is the replay of the accepted commits. -/
def RefreshTrace (cm : CaseMap) (start : Catalog) (trace : List TaskCommit) (cat : Catalog) :
    Prop :=
  trace.foldl TaskCommit.replay start = cat ∧
    Along TaskCommit.replay (TaskCommit.Accepted cm) start trace

/-- A step of a task commits what the task has to write. -/
lemma TaskStep.trace {env : Str} {cat cat' start : Catalog} {state state' : TaskState}
    {trace commits : List TaskCommit}
    (h : TaskStep cm tl xxh allowedExts config env cat state commits cat' state')
    (hwrites : state.WritesUnder (cm.lower env)) (htrace : RefreshTrace cm start trace cat) :
    state'.WritesUnder (cm.lower env) ∧ RefreshTrace cm start (trace ++ commits) cat' := by
  obtain ⟨hcat, halong⟩ := htrace
  have hkeep : RefreshTrace cm start (trace ++ []) cat := by
    rw [List.append_nil]
    exact ⟨hcat, halong⟩
  cases h with
  | crawlDomain | crawlLegacy =>
    refine ⟨?_, hkeep⟩
    rintro todo ⟨⟩ t ht
    exact environment_folderTransactions ht
  | readFiles =>
    refine ⟨?_, hkeep⟩
    rintro todo ⟨⟩
  | refresh =>
    refine ⟨?_, hkeep⟩
    rintro todo ⟨⟩ t ht
    exact environment_refreshTransactions ht
  | @commit _ t rest happly =>
    refine ⟨?_, ?_, ?_⟩
    · rintro todo ⟨⟩ t' ht'
      exact hwrites _ rfl t' (List.mem_cons_of_mem _ ht')
    · rw [List.foldl_append, hcat, List.foldl_cons, TaskCommit.replay, happly]
      rfl
    · rw [along_append, hcat]
      refine ⟨halong, ⟨hwrites _ rfl t List.mem_cons_self, ?_⟩, trivial⟩
      rw [TaskCommit.replay, happly]
  | refused happly =>
    refine ⟨?_, hkeep⟩
    split_ifs
    · rintro todo ⟨⟩
    · rintro todo ⟨⟩ t' ht'
      exact hwrites _ rfl t' (List.mem_cons_of_mem _ ht')
  | stop =>
    refine ⟨?_, hkeep⟩
    rintro todo ⟨⟩

/-- **Runs.** In every run of two tasks the catalog is the replay of the commits, each of which the
database accepted.

**Proof sketch.** A task moves its own state and the catalog; the other task keeps what it has to
write. -/
theorem refreshTrace_of_reach {env env' : Str} {start : Catalog} {trace : List TaskCommit}
    {s : Catalog × TaskState × TaskState}
    (hrun : (refreshTasks cm tl xxh allowedExts config env env' start).Reach trace s) :
    RefreshTrace cm start trace s.1 := by
  have hidle : ∀ environment, TaskState.idle.WritesUnder environment := by
    rintro environment todo ⟨⟩
  refine (@System.Reach.invariant _ _ (refreshTasks cm tl xxh allowedExts config env env' start)
    (fun trace s => RefreshTrace cm start trace s.1 ∧ s.2.1.WritesUnder (cm.lower env) ∧
      s.2.2.WritesUnder (cm.lower env')) ?_ ?_ _ _ hrun).1
  · rintro ⟨cat, state, state'⟩ ⟨hcat, hstate, hstate'⟩
    dsimp only at hcat hstate hstate' ⊢
    rw [hcat, hstate, hstate']
    exact ⟨⟨rfl, trivial⟩, hidle _, hidle _⟩
  · rintro trace commits s s' ⟨htrace, hwrites, hwrites'⟩ (⟨hstep, heq⟩ | ⟨hstep, heq⟩)
    · obtain ⟨hnext, htrace'⟩ := TaskStep.trace hstep hwrites htrace
      exact ⟨htrace', hnext, heq ▸ hwrites'⟩
    · obtain ⟨hnext, htrace'⟩ := TaskStep.trace hstep hwrites' htrace
      exact ⟨htrace', heq ▸ hwrites, hnext⟩

end Tasks

end EntsoePipeline
