import EntsoePipeline.Catalog.CrawlFailures
import EntsoePipeline.Catalog.EntryPoints
import EntsoePipeline.Catalog.Freshness
import EntsoePipeline.Catalog.LegacyArchives
import EntsoePipeline.Fms.OverviewIngest
import EntsoePipeline.Landing.Paths
import EntsoePipeline.Lib.Recovery

set_option relaxedAutoImplicit false
set_option autoImplicit false

/-!
# The refresh of an environment

A refresh reads the folders of the overview, filters those that are fresh, and crawls the others,
domain by domain and archive by archive. All that it does to the catalog is to save folders of the
overview with what their listings show.

## Main definitions

* `EntsoePipeline.CrawlAnswers`, `EntsoePipeline.CrawlWorld` — what the calls meet.
* `EntsoePipeline.refreshCallees`, `EntsoePipeline.refresh` — the code.
* `EntsoePipeline.Targets`, `EntsoePipeline.Saves` — the folders of a refresh and its transactions.
* `EntsoePipeline.Mirrors` — a folder is stored as one of its listings shows it.

## Main results

* `EntsoePipeline.entrySaves_refresh` — a refresh only makes such transactions.
* `EntsoePipeline.stable_mirrors`, `EntsoePipeline.stable_sameFolder`,
  `EntsoePipeline.stable_hasDomain` — what they keep.

## Implementation notes

A call is answered by the number of the calls before it, so that the server may answer the same call
in different ways. The report at the end of a crawl is only logged and is left out.
-/

namespace EntsoePipeline

open Py Recovery Simulation

/-! ## The code -/

/-- What the configuration files fix. -/
structure CrawlSettings where
  /-- The letter case conversions. -/
  cm : CaseMap
  /-- The digest. -/
  xxh : Str → Str
  /-- The known extensions. -/
  allowedExts : List Str
  /-- The classifier. -/
  config : ClassifierConfig
  /-- The age from which on a folder is stale. -/
  maxAgeDays : ℤ

/-- What the file server, the database and the clock answer, by the number of the calls before. -/
structure CrawlAnswers where
  /-- The creation of a client. -/
  client : ℕ → Except PyError Unit
  /-- The listing of a root directory. -/
  rootListing : ℕ → RemoteRoot → Except PyError (List RawItem)
  /-- The recursive listing of a folder. -/
  listing : ℕ → RemoteRoot → (folder : Str) → Except PyError (List RawItem)
  /-- The transaction of a folder fails on the side of the database. -/
  saveFails : ℕ → Bool
  /-- The clock. -/
  now : ℕ → Datetime
  /-- The order in which a query returns its rows. -/
  order : ℕ → List (FolderKey × FolderRow) → List (FolderKey × FolderRow)

/-- The catalog and the number of the calls so far. -/
structure CrawlWorld where
  /-- The catalog. -/
  catalog : Catalog
  /-- The calls. -/
  calls : ℕ

/-- What a callee of the refresh raises. -/
inductive CrawlError
  /-- The overview cannot be read. -/
  | overview (e : OverviewError)
  /-- The transaction of a folder raises. -/
  | database (e : PyError)

section Code

variable (settings : CrawlSettings) (overview : Overview) (answers : CrawlAnswers) (env : Str)

/-- A call. -/
def ask {α : Type} (answer : ℕ → α) : Program CrawlWorld CrawlError α :=
  step fun w => (.ok (answer w.calls), { w with calls := w.calls + 1 })

/-- What the folder steps of a crawl share. -/
def crawlContext (root : RemoteRoot) (domain : Str) (rootListing : Except PyError (List RawItem)) :
    CrawlContext :=
  ⟨settings.cm, settings.xxh, settings.allowedExts, env, root.name, domain,
    fetchRootFilesMapping rootListing⟩

/-- A pass of the loop over the folders. -/
def crawlFolder (ctx : CrawlContext) (root : RemoteRoot) (folder : Str) :
    Program CrawlWorld CrawlError Unit :=
  step fun w =>
    let io : FolderCrawl :=
      ⟨answers.listing w.calls root folder, answers.saveFails w.calls, answers.now w.calls⟩
    let result := ctx.pass (folder, io) w.catalog
    (result.1.mapError .database, ⟨result.2, w.calls + 1⟩)

/-- A crawl of folders. Nothing is crawled when the client cannot be created. -/
def crawlFolders (root : RemoteRoot) (domain : Str) (folders : List Str) :
    Program CrawlWorld CrawlError Unit := do
  match ← ask answers.client with
  | .error _ => pure ()
  | .ok _ =>
    let rootListing ← ask fun n => answers.rootListing n root
    folders.forM (crawlFolder answers (crawlContext settings env root domain rootListing) root)

/-- The crawl of a legacy archive: of the requested folders, those of the archive. -/
def crawlArchive (folders : List Str) (archiveName : Str) : Program CrawlWorld CrawlError Unit :=
  match settings.config.legacyRules.find? fun rule =>
      settings.cm.lower rule.archive = settings.cm.lower archiveName with
  | none => pure ()
  | some _ =>
    match getLegacyArchiveFolders settings.cm overview settings.config env archiveName with
    | .error _ => pure ()
    | .ok archiveFolders =>
      let folders := folders.filter fun f => f ∈ archiveFolders
      if folders = [] then pure () else crawlFolders settings answers env .legacy
        archiveName folders

/-- The freshness filter behind the folders of the overview. -/
def getStaleFolders (folders : Except OverviewError (List Str)) (isForce : Bool) :
    Program CrawlWorld CrawlError (List Str) := do
  let folders ← ofExcept (folders.mapError .overview)
  step fun w =>
    (.ok (filterFreshFolders (answers.now w.calls) settings.maxAgeDays isForce
        (fun i => answers.order (w.calls + i) (w.catalog.folderRows (settings.cm.lower env)))
          folders),
      { w with calls := w.calls + folders.length })

/-- What the refresh calls. -/
def refreshCallees : Callees CrawlWorld CrawlError where
  getStaleDomainFolders domainName env isForce := (getStaleFolders settings answers env
    (getDomainFolders settings.cm overview env domainName) isForce).from
  getStaleLegacyFolders archiveName env isForce := (getStaleFolders settings answers env
    (getLegacyArchiveFolders settings.cm overview settings.config env archiveName) isForce).from
  ingestDomainMetadata domainName env folders :=
    (crawlFolders settings answers env .active domainName folders).from
  ingestAllLegacyMetadata env folders :=
    (legacyArchives.forM (crawlArchive settings overview answers env folders)).from

/-- The refresh. -/
def refresh (isTest isForce : Bool) (domainName : Option Str) :
    EntryPoint CrawlWorld CrawlError Unit :=
  refreshEnvironmentMetadata settings.cm settings.config
    (refreshCallees settings overview answers) env isTest isForce domainName

/-- The outcome of a refresh and the catalog behind it. -/
def refreshFrom (isTest isForce : Bool) (domainName : Option Str) (w : CrawlWorld) :
    Except (IngestError CrawlError) Unit × Catalog :=
  let result := (refresh settings overview answers env isTest isForce domainName).start w
  (result.1, result.2.world.catalog)

end Code

/-! ## The transactions of a refresh -/

section Transactions

variable (settings : CrawlSettings) (overview : Overview) (answers : CrawlAnswers) (env : Str)

/-- The folders that are crawled for a domain or for an archive. -/
def Targets : RemoteRoot → (domain folder : Str) → Prop
  | .active, domain, folder => domain ∈ settings.config.domainOrder ∧
    ∃ folders, getDomainFolders settings.cm overview env domain = .ok folders ∧ folder ∈ folders
  | .legacy, archive, folder => archive ∈ legacyArchives ∧
    folder ∈ claimedFolders settings.cm settings.config overview env archive

/-- The records of a folder, when the root directory is listed by the `m`-th call and the folder by
the `n`-th one. -/
def records (root : RemoteRoot) (folder : Str) (m n : ℕ) : Except PyError (List FileMeta) :=
  crawlMetadataFolder settings.xxh settings.allowedExts folder
    (fetchRootFilesMapping (answers.rootListing m root)) (answers.listing n root folder)

/-- The folder can be listed at all times. -/
def ServesFolder (root : RemoteRoot) (folder : Str) : Prop :=
  ∀ m n, ∃ files, records settings answers root folder m n = .ok files

/-- The key of a folder of a root directory. -/
def remoteKey (root : RemoteRoot) (folder : Str) : FolderKey :=
  folderKey settings.cm env root.name folder

/-- The folder is stored with its files as one of its listings shows them, each under its own id. -/
def Mirrors (root : RemoteRoot) (folder : Str) (cat : Catalog) : Prop :=
  ∃ m n now files, records settings answers root folder m n = .ok files ∧
    (files.map FileMeta.fileId).Nodup ∧ Persisted (remoteKey settings env root folder) now files cat

/-- The transactions: a folder is saved with its records. -/
inductive Saves : Catalog → Catalog → Prop
  | save {root : RemoteRoot} {domain folder : Str} {m n : ℕ} {now : Datetime}
    {files : List FileMeta}
      {cat cat' : Catalog} (htarget : Targets settings overview env root domain folder)
      (hfiles : records settings answers root folder m n = .ok files)
      (hsave : saveCrawledFolderMetadata now (remoteKey settings env root folder) domain files cat =
        .ok cat') : Saves cat cat'

variable {settings : CrawlSettings} {overview : Overview} {answers : CrawlAnswers} {env : Str}

/-- A refresh only changes the catalog in such transactions. -/
abbrev SavesOnly {α : Type} (settings : CrawlSettings) (overview : Overview)
    (answers : CrawlAnswers) (env : Str) (p : Program CrawlWorld CrawlError α) : Prop :=
  Moves CrawlWorld.catalog (Saves settings overview answers env) p

/-- A call is answered as it is at some time. -/
lemma savesOnly_ask_bind {α β : Type} {answer : ℕ → α} {f : α → Program CrawlWorld CrawlError β}
    (h : ∀ n, SavesOnly settings overview answers env (f (answer n))) :
    SavesOnly settings overview answers env (ask answer >>= f) := by
  intro w
  rw [from_bind]
  exact h w.calls { w with calls := w.calls + 1 }

/-- The crawl of a folder makes no transaction but saves of this folder. -/
lemma savesOnly_crawlFolder {root : RemoteRoot} {domain folder : Str} {m : ℕ}
    (htarget : Targets settings overview env root domain folder) :
    SavesOnly settings overview answers env (crawlFolder answers
      (crawlContext settings env root domain (answers.rootListing m root)) root folder) := by
  intro w
  set ctx := crawlContext settings env root domain (answers.rootListing m root)
  set item : Str × FolderCrawl :=
    (folder, ⟨answers.listing w.calls root folder, answers.saveFails w.calls, answers.now w.calls⟩)
  show Relation.ReflTransGen _ w.catalog (ctx.pass item w.catalog).2
  rcases @CrawlContext.snd_pass_cases ctx item w.catalog with hsame | ⟨files, hfiles, hsave⟩
  · rw [hsame]
  · exact .single (.save htarget hfiles hsave)

/-- The crawl of some folders makes no transaction but saves of these folders. -/
lemma savesOnly_crawlFolders {root : RemoteRoot} {domain : Str} {folders : List Str}
    (htargets : ∀ folder ∈ folders, Targets settings overview env root domain folder) :
    SavesOnly settings overview answers env
      (crawlFolders settings answers env root domain folders) := by
  refine savesOnly_ask_bind fun n => ?_
  cases answers.client n with
  | error e => exact moves_pure ()
  | ok =>
    refine savesOnly_ask_bind fun m => ?_
    exact moves_forM fun folder hfolder => savesOnly_crawlFolder (htargets folder hfolder)

/-- The listed folders of an archive are claimed by it. -/
lemma targets_of_mem_filter {archive : Str} (harchive : archive ∈ legacyArchives)
    {folders archiveFolders : List Str}
    (hfolders : getLegacyArchiveFolders settings.cm overview settings.config env archive =
      .ok archiveFolders) {folder : Str} (h : folder ∈ folders.filter fun f => f ∈ archiveFolders) :
    Targets settings overview env .legacy archive folder := by
  have hmem := (List.mem_filter.mp h).2
  refine ⟨harchive, ?_⟩
  unfold claimedFolders
  rw [hfolders]
  simpa using hmem

/-- The crawl of an archive makes no transaction but saves of its folders. -/
lemma savesOnly_crawlArchive {archive : Str} (harchive : archive ∈ legacyArchives)
    (folders : List Str) :
    SavesOnly settings overview answers env
      (crawlArchive settings overview answers env folders archive) := by
  unfold crawlArchive
  cases settings.config.legacyRules.find? fun rule =>
      settings.cm.lower rule.archive = settings.cm.lower archive with
  | none => exact moves_pure ()
  | some rule =>
    cases hfolders : getLegacyArchiveFolders settings.cm overview settings.config env archive with
    | error e => exact moves_pure ()
    | ok archiveFolders =>
      dsimp only
      split_ifs
      · exact moves_pure ()
      · exact savesOnly_crawlFolders fun folder hfolder =>
          targets_of_mem_filter harchive hfolders hfolder

/-- The query for stale folders makes no transaction. -/
lemma savesOnly_getStaleFolders (folders : Except OverviewError (List Str)) (isForce : Bool) :
    SavesOnly settings overview answers env
      (getStaleFolders settings answers env folders isForce) :=
  (moves_ofExcept _).bind fun _ _ => .refl

end Transactions

/-! ## The entry point -/

section EntryPoint

variable {W ε α : Type} {p : Program W ε α} {q : Program W ε Unit} {P : W → Prop}

/-- The read of a program moves the world as the program does. -/
lemma moves_read {τ : Type} {view : W → τ} {R : τ → τ → Prop} (h : Moves view R p) :
    Moves (fun run : CrawlRun W => view run.world) R (EntryPoint.read p.from) :=
  fun run => h run.world

/-- A crawl moves the world as its program does. -/
lemma moves_crawl {τ : Type} {view : W → τ} {R : τ → τ → Prop} (h : Moves view R q)
    (call : CrawlCall) :
    Moves (fun run : CrawlRun W => view run.world) R (EntryPoint.crawl call q.from) :=
  fun run => h run.world

/-- A read leaves what its program leaves. -/
lemma leaves_read {Q : α → W → Prop} (h : Leaves P p Q) :
    Leaves (fun run => P run.world) (EntryPoint.read p.from) fun a run => Q a run.world := by
  intro run hrun a run' heq
  obtain ⟨hresult, rfl⟩ := Prod.mk.inj heq
  rcases hp : p.from run.world with ⟨e | a', w⟩
  · rw [hp] at hresult
    cases hresult
  · rw [hp] at hresult
    cases hresult
    exact h run.world hrun a w hp

/-- A crawl leaves what its program leaves. -/
lemma leaves_crawl {Q : Unit → W → Prop} (h : Leaves P q Q) (call : CrawlCall) :
    Leaves (fun run => P run.world) (EntryPoint.crawl call q.from) fun a run => Q a run.world := by
  intro run hrun a run' heq
  obtain ⟨hresult, rfl⟩ := Prod.mk.inj heq
  rcases hq : q.from run.world with ⟨e | a', w⟩
  · rw [hq] at hresult
    cases hresult
  · exact h run.world hrun a w hq

/-- A crawl returns when its program does. -/
lemma returns_crawl (h : Returns P q) (call : CrawlCall) :
    Returns (fun run : CrawlRun W => P run.world) (EntryPoint.crawl call q.from) := by
  intro run hrun
  obtain ⟨a, hok⟩ := h run.world hrun
  exact ⟨a, congrArg (Except.mapError IngestError.callee) hok⟩

end EntryPoint

/-! ## What a refresh changes -/

section Refresh

variable {settings : CrawlSettings} {overview : Overview} {answers : CrawlAnswers} {env : Str}

/-- The filter only drops folders, and drops none when it is forced. -/
lemma mem_of_mem_filterFreshFolders {now : Datetime} {maxAgeDays : ℤ} {isForce : Bool}
    {orders : ℕ → List (FolderKey × FolderRow)} {folders : List Str} {folder : Str}
    (h : folder ∈ filterFreshFolders now maxAgeDays isForce orders folders) : folder ∈ folders := by
  have hstale : ∀ cutoff i, folder ∈ staleFolders cutoff orders i folders → folder ∈ folders := by
    clear h
    intro cutoff i h
    induction folders generalizing i with
    | nil => exact h
    | cons first rest ih =>
      rw [staleFolders] at h
      split_ifs at h
      · exact List.mem_cons_of_mem _ (ih _ h)
      · rcases List.mem_cons.mp h with rfl | h
        · exact List.mem_cons_self
        · exact List.mem_cons_of_mem _ (ih _ h)
  unfold filterFreshFolders at h
  split_ifs at h
  · cases h
  · exact h
  · exact h
  · exact hstale _ _ h

/-- A forced refresh keeps all folders. -/
lemma filterFreshFolders_of_force {now : Datetime} {maxAgeDays : ℤ}
    {orders : ℕ → List (FolderKey × FolderRow)} (folders : List Str) :
    filterFreshFolders now maxAgeDays true orders folders = folders := by
  unfold filterFreshFolders
  by_cases hnil : folders = []
  · rw [if_pos hnil, hnil]
  · rw [if_neg hnil, if_pos rfl]

/-- What is read of the folders of the overview. -/
lemma leaves_getStaleFolders (folders : Except OverviewError (List Str)) (isForce : Bool) :
    Leaves (fun _ => True) (getStaleFolders settings answers env folders isForce) fun stale _ =>
      ∃ all, folders = .ok all ∧ (∀ folder ∈ stale, folder ∈ all) ∧
        (isForce = true → stale = all) := by
  cases folders with
  | error e =>
    intro w _ a w' hrun
    cases hrun
  | ok all =>
    intro w _ a w' hrun
    cases hrun
    refine ⟨all, rfl, fun folder => mem_of_mem_filterFreshFolders, ?_⟩
    rintro rfl
    exact filterFreshFolders_of_force all

/-- The view of a run of an entry point. -/
abbrev runCatalog (run : CrawlRun CrawlWorld) : Catalog := run.world.catalog

/-- What an entry point changes are transactions of the crawls. -/
abbrev EntrySaves {α : Type} (settings : CrawlSettings) (overview : Overview)
    (answers : CrawlAnswers) (env : Str) (p : EntryPoint CrawlWorld CrawlError α) : Prop :=
  Moves runCatalog (Saves settings overview answers env) p

/-- The crawl of a domain only saves folders of this domain. -/
lemma entrySaves_crawlStaleDomain {domain : Str} (hdomain : domain ∈ settings.config.domainOrder)
    (isForce : Bool) : EntrySaves settings overview answers env
      (crawlStaleDomain (refreshCallees settings overview answers) env isForce domain) := by
  refine (moves_read (savesOnly_getStaleFolders _ isForce)).bind_of_leaves
    (leaves_read (leaves_getStaleFolders _ isForce)) fun stale hstale => ?_
  obtain ⟨all, hall, hmem, -⟩ := hstale
  split_ifs
  · exact moves_pure ()
  · apply moves_crawl
    exact savesOnly_crawlFolders fun folder hfolder => ⟨hdomain, all, hall, hmem folder hfolder⟩

/-- The query for stale legacy folders makes no transaction. -/
lemma entrySaves_staleLegacyFolders (isForce : Bool) : EntrySaves settings overview answers env
    (staleLegacyFolders (refreshCallees settings overview answers) env isForce) := by
  unfold staleLegacyFolders
  generalize ([] : List Str) = stale
  induction legacyArchives generalizing stale with
  | nil => exact moves_pure stale
  | cons archive archives ih =>
    rw [List.foldlM_cons]
    refine Moves.bind ?_ ih
    exact (moves_read (savesOnly_getStaleFolders _ isForce)).bind fun folders => moves_pure _

/-- The crawl of the archives only saves folders that they claim. -/
lemma entrySaves_crawlStaleLegacy (isForce : Bool) : EntrySaves settings overview answers env
    (crawlStaleLegacy (refreshCallees settings overview answers) env isForce) := by
  refine (entrySaves_staleLegacyFolders isForce).bind fun stale => ?_
  split_ifs
  · exact moves_pure ()
  · apply moves_crawl
    exact moves_forM fun archive harchive => savesOnly_crawlArchive harchive stale

/-- The domains of a refresh are domains of the classifier. -/
lemma mem_domainOrder_of_mem_scopeDomains {isTest : Bool} {domainName : Option Str} {domain : Str}
    (h : domain ∈ scopeDomains settings.cm settings.config isTest domainName) :
    domain ∈ settings.config.domainOrder := by
  unfold scopeDomains at h
  dsimp only at h
  split_ifs at h
  · exact (List.mem_filter.mp h).1
  · exact h
  · exact (List.mem_filter.mp (List.mem_filter.mp h).1).1
  · exact (List.mem_filter.mp h).1

/-- All that a refresh changes are transactions of folders of the overview. -/
lemma entrySaves_refresh (isTest isForce : Bool) (domainName : Option Str) :
    EntrySaves settings overview answers env
      (refresh settings overview answers env isTest isForce domainName) := by
  have hdomains : EntrySaves settings overview answers env
      ((scopeDomains settings.cm settings.config isTest domainName).forM
        (crawlStaleDomain (refreshCallees settings overview answers) env isForce)) :=
    moves_forM fun domain hdomain =>
      entrySaves_crawlStaleDomain (mem_domainOrder_of_mem_scopeDomains hdomain) isForce
  have hlegacy := @entrySaves_crawlStaleLegacy settings overview answers env isForce
  unfold refresh refreshEnvironmentMetadata
  dsimp only
  split_ifs
  · exact hdomains.bind fun _ => moves_pure ()
  · exact hdomains.bind fun _ => hlegacy
  · exact hdomains.bind fun _ => moves_pure ()
  · exact moves_pure ()
  · exact hlegacy
  · exact moves_pure ()

/-- The catalog behind a refresh comes from the one before it by such transactions. -/
lemma saves_refreshFrom (settings : CrawlSettings) (overview : Overview) (answers : CrawlAnswers)
    (env : Str) (isTest isForce : Bool) (domainName : Option Str) (w : CrawlWorld) :
    Relation.ReflTransGen (Saves settings overview answers env) w.catalog
      (refreshFrom settings overview answers env isTest isForce domainName w).2 :=
  entrySaves_refresh isTest isForce domainName ⟨w, []⟩

end Refresh

/-! ## What the transactions keep -/

/-- The rows of a folder are the same. -/
structure SameFolder (key : FolderKey) (before after : Catalog) : Prop where
  /-- The folder row. -/
  row : after.folders.get? key = before.folders.get? key
  /-- The file rows. -/
  files : ∀ fileId row, row.folder = key →
    (after.files.get? fileId = some row ↔ before.files.get? fileId = some row)

/-- The row of a folder keeps its domain, and a new row has one of the given ones. -/
structure HasDomain (before : Catalog) (key : FolderKey) (D : Str → Prop) (after : Catalog) :
    Prop where
  /-- A row that was there. -/
  kept : ∀ old, before.folders.get? key = some old →
    ∃ row, after.folders.get? key = some row ∧ row.domain = old.domain
  /-- A new row. -/
  new : before.folders.get? key = none → ∀ row, after.folders.get? key = some row → D row.domain

/-- The files of the catalog belong to the folders that an assignment of the ids gives. -/
def Assigned (owner : Str → FolderKey) (cat : Catalog) : Prop :=
  ∀ fileId row, cat.files.get? fileId = some row → row.folder = owner fileId

section Facts

variable {settings : CrawlSettings} {overview : Overview} {answers : CrawlAnswers} {env : Str}
  {key key' : FolderKey} {domain : Str} {now : Datetime} {files : List FileMeta}
  {before cat cat' : Catalog}

/-- A catalog has the folder as it has it. -/
lemma SameFolder.refl (key : FolderKey) (cat : Catalog) : SameFolder key cat cat :=
  ⟨rfl, fun _ _ _ => Iff.rfl⟩

/-- Steps that keep a folder keep it one after the other. -/
lemma SameFolder.trans (h : SameFolder key before cat) (h' : SameFolder key cat cat') :
    SameFolder key before cat' :=
  ⟨h'.row.trans h.row, fun fileId row hrow => (h'.files fileId row hrow).trans
    (h.files fileId row hrow)⟩

/-- A transaction leaves other folders alone. -/
lemma sameFolder_of_save (hsave : saveCrawledFolderMetadata now key' domain files cat = .ok cat')
    (hne : key ≠ key') : SameFolder key cat cat' where
  row := (saveCrawledFolderMetadata_ok hsave).2.1 key hne
  files _ _ hrow := get?_files_save_of_ne hsave fun hkey => hne (hrow.symm.trans hkey)

/-- Files stay persisted while the folder is kept. -/
lemma SameFolder.persisted (h : SameFolder key cat cat')
    (hpersisted : Persisted key now files cat) : Persisted key now files cat' := by
  refine ⟨h.row ▸ hpersisted.row, fun fileId row => ?_⟩
  rw [← hpersisted.files]
  exact and_congr_left (h.files fileId row)

/-- A transaction writes its domain into a new row only. -/
lemma domain_of_save (hsave : saveCrawledFolderMetadata now key domain files cat = .ok cat') :
    ∃ row, cat'.folders.get? key = some row ∧
      row.domain = ((cat.folders.get? key).map FolderRow.domain).getD domain := by
  unfold saveCrawledFolderMetadata at hsave
  dsimp only at hsave
  split_ifs at hsave
  cases hsave
  exact ⟨_, Dict.get?_alter_self _ _ _, rfl⟩

/-- No name of a root directory begins a path below the other one. -/
lemma eq_of_name_append_eq {root root' : RemoteRoot} {l l' : Str}
    (h : root.name ++ l = root'.name ++ l') : root = root' := by
  have hcomparable : root.name <+: root'.name ∨ root'.name <+: root.name :=
    List.prefix_or_prefix_of_prefix ⟨l, h⟩ (List.prefix_append _ _)
  revert hcomparable
  clear h
  cases root <;> cases root' <;> decide

/-- A folder of one root directory has no key of the other. -/
lemma remoteKey_injective {root root' : RemoteRoot} {folder folder' : Str}
    (h : remoteKey settings env root folder = remoteKey settings env root' folder') :
    root = root' ∧ folder = folder' := by
  have hpath : folderPath root.name folder = folderPath root'.name folder' :=
    congrArg FolderKey.folderPath h
  obtain rfl := eq_of_name_append_eq (List.cons.inj hpath).2
  exact ⟨rfl, folderPath_injective hpath⟩

/-- A stored folder stays one, as it is saved with its records only. -/
lemma stable_mirrors (root : RemoteRoot) (folder : Str) :
    Stable (Saves settings overview answers env) (Mirrors settings answers env root folder) := by
  intro cat cat' hstep h
  obtain @⟨root', domain, folder', m, n, now, files, _, _, -, hfiles, hsave⟩ := hstep
  by_cases hkey : remoteKey settings env root folder = remoteKey settings env root' folder'
  · obtain ⟨rfl, rfl⟩ := remoteKey_injective hkey
    exact ⟨m, n, now, files, hfiles, (saveCrawledFolderMetadata_ok hsave).2.2.1,
      persisted_of_save hsave⟩
  · obtain ⟨m', n', now', files', hfiles', hnodup, hpersisted⟩ := h
    exact ⟨m', n', now', files', hfiles', hnodup,
      (sameFolder_of_save hsave hkey).persisted hpersisted⟩

/-- A folder that is not saved is left alone. -/
lemma stable_sameFolder (hother : ∀ root domain folder m n files,
      Targets settings overview env root domain folder →
        records settings answers root folder m n = .ok files →
          key ≠ remoteKey settings env root folder) :
    Stable (Saves settings overview answers env) (SameFolder key before) := by
  intro cat cat' hstep h
  obtain ⟨htarget, hfiles, hsave⟩ := hstep
  exact h.trans (sameFolder_of_save hsave (hother _ _ _ _ _ _ htarget hfiles))

/-- The row of a folder has a domain for which the folder is crawled. -/
lemma stable_hasDomain (root : RemoteRoot) (folder : Str) :
    Stable (Saves settings overview answers env)
      (HasDomain before (remoteKey settings env root folder)
      fun domain => Targets settings overview env root domain folder) := by
  intro cat cat' hstep h
  obtain @⟨root', domain, folder', m, n, now, files', _, _, htarget, -, hsave⟩ := hstep
  by_cases hkey : remoteKey settings env root folder = remoteKey settings env root' folder'
  · obtain ⟨rfl, rfl⟩ := remoteKey_injective hkey
    obtain ⟨row, hrow, hdomain⟩ := domain_of_save hsave
    constructor
    · intro old hold
      obtain ⟨mid, hmid, hmidDomain⟩ := h.kept old hold
      rw [show cat.folders.get? (remoteKey settings env root folder) =
        some mid from hmid] at hdomain
      exact ⟨row, hrow, hdomain.trans hmidDomain⟩
    · intro hnone row' hrow'
      rw [hrow] at hrow'
      cases hrow'
      rw [hdomain]
      cases hmid : cat.folders.get? (remoteKey settings env root folder) with
      | none => exact htarget
      | some mid => exact h.new hnone mid hmid
  · have hsame := (sameFolder_of_save hsave hkey).row
    constructor
    · intro old hold
      rw [hsame]
      exact h.kept old hold
    · intro hnone row hrow
      rw [hsame] at hrow
      exact h.new hnone row hrow

end Facts

end EntsoePipeline
