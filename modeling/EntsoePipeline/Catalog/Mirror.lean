import EntsoePipeline.Catalog.FullRefresh
import EntsoePipeline.Landing.Gateway
import EntsoePipeline.Landing.SyncIdempotence

set_option relaxedAutoImplicit false
set_option autoImplicit false

/-!
# The catalog as a copy of the server

The collector of the overview finds the folders of an environment, and a forced refresh of
everything crawls all of them. A pass stores its folder as it was listed, and the passes behind it
keep that. So a refresh that returns leaves a copy of the server, and leaves everything else as it
was.

## Main definitions

* `EntsoePipeline.Discovered` — the overview is the one that the collector has made.
* `EntsoePipeline.Refreshed` — what a forced refresh does to a catalog.
* `EntsoePipeline.ListsAssigned` — the listings agree with an assignment of files to folders.
* `EntsoePipeline.DistinctIds` — the server shows no file id twice.

## Main results

* `EntsoePipeline.Discovered.targets_iff` — the refresh is about the folders that the server shows.
* `EntsoePipeline.refreshed_of_returns` — a forced refresh copies the server.
* `EntsoePipeline.returns_iff_distinctIds` — a steady server is copied unless it repeats an id.
* `EntsoePipeline.returns_of_assigned` — a refresh returns when no file moves between folders.
-/

namespace EntsoePipeline

open Py Recovery Simulation

/-! ## What a forced refresh leaves -/

section Forced

variable {settings : CrawlSettings} {overview : Overview} {answers : CrawlAnswers} {env : Str}
  {root : RemoteRoot} {folder : Str}

/-- What follows every answer follows the question. -/
lemma leaves_ask_bind {α β : Type} {answer : ℕ → α} {f : α → Program CrawlWorld CrawlError β}
    {Q : β → CrawlWorld → Prop} (h : ∀ n, Leaves (fun _ => True) (f (answer n)) Q) :
    Leaves (fun _ => True) (ask answer >>= f) Q := by
  intro w _ b w' hrun
  rw [from_bind] at hrun
  exact h w.calls { w with calls := w.calls + 1 } trivial b w' hrun

/-- A pass that does not raise makes a copy of its folder. -/
lemma leaves_crawlFolder (hserves : ServesFolder settings answers root folder) (domain : Str)
    (m : ℕ) : Leaves (fun _ => True) (crawlFolder answers
      (crawlContext settings env root domain (answers.rootListing m root)) root folder)
        fun _ w => Mirrors settings answers env root folder w.catalog := by
  intro w _ a w' hrun
  obtain ⟨hresult, rfl⟩ := Prod.mk.inj hrun
  set ctx := crawlContext settings env root domain (answers.rootListing m root)
  set item : Str × FolderCrawl :=
    (folder, ⟨answers.listing w.calls root folder, answers.saveFails w.calls, answers.now w.calls⟩)
  obtain ⟨files, hfiles⟩ := hserves m w.calls
  have hcrawl : ctx.crawl item = .ok files := hfiles
  have hcommits : ¬ ctx.SaveRaises item w.catalog := by
    rw [← CrawlContext.raised_pass_iff]
    cases hpass : (ctx.pass item w.catalog).1 with
    | error e =>
      rw [hpass] at hresult
      cases hresult
    | ok => simp [raised]
  have hnodup : (files.map FileMeta.fileId).Nodup := by
    by_contra hrepeats
    exact hcommits ⟨files, hcrawl, Or.inr (Or.inl hrepeats)⟩
  exact ⟨m, w.calls, _, files, hfiles, hnodup, CrawlContext.persisted_pass hcrawl hcommits⟩

/-- The crawl of some folders leaves a mirror of each of them that is served. -/
lemma leaves_crawlFolders (hclient : ∀ n, ∃ u, answers.client n = .ok u)
    (hserves : ServesFolder settings answers root folder) {domain : Str} {folders : List Str}
    (htargets : ∀ folder ∈ folders, Targets settings overview env root domain folder)
    (hfolder : folder ∈ folders) :
    Leaves (fun _ => True) (crawlFolders settings answers env root domain folders)
      fun _ w => Mirrors settings answers env root folder w.catalog := by
  refine leaves_ask_bind fun n => ?_
  obtain ⟨u, hok⟩ := hclient n
  rw [hok]
  refine leaves_ask_bind fun m => ?_
  exact leaves_forM (fun folder hfolder => savesOnly_crawlFolder (htargets folder hfolder))
    (stable_mirrors _ _) hfolder (leaves_crawlFolder hserves domain m)

/-- The crawl of an archive leaves a mirror of a folder that it claims. -/
lemma leaves_crawlArchive (hclient : ∀ n, ∃ u, answers.client n = .ok u)
    (hserves : ServesFolder settings answers .legacy folder)
    (hrules : HasLegacyArchives settings.cm settings.config) {archive : Str}
    (harchive : archive ∈ legacyArchives)
    (hclaims : folder ∈ claimedFolders settings.cm settings.config overview env archive)
    {folders : List Str} (hfolder : folder ∈ folders) :
    Leaves (fun _ => True) (crawlArchive settings overview answers env folders archive)
      fun _ w => Mirrors settings answers env .legacy folder w.catalog := by
  obtain ⟨rule, hrule, rfl⟩ := hrules.present archive harchive
  unfold crawlArchive
  rw [(hrules.find?_eq hrule).1]
  unfold claimedFolders at hclaims
  cases harchiveFolders : getLegacyArchiveFolders settings.cm overview settings.config env
      rule.archive with
  | error e =>
    rw [harchiveFolders] at hclaims
    cases hclaims
  | ok archiveFolders =>
    rw [harchiveFolders] at hclaims
    have hmem : folder ∈ folders.filter fun f => f ∈ archiveFolders :=
      List.mem_filter.mpr ⟨hfolder, by simpa using hclaims⟩
    dsimp only
    rw [if_neg (List.ne_nil_of_mem hmem)]
    exact leaves_crawlFolders hclient hserves
      (fun f hf => targets_of_mem_filter harchive harchiveFolders hf) hmem

/-- The folders of a domain are all crawled. -/
lemma leaves_crawlStaleDomain (hclient : ∀ n, ∃ u, answers.client n = .ok u)
    (hserves : ServesFolder settings answers .active folder) {domain : Str}
    (htarget : Targets settings overview env .active domain folder) :
    Leaves (fun _ => True)
      (crawlStaleDomain (refreshCallees settings overview answers) env true domain)
      fun _ run => Mirrors settings answers env .active folder (runCatalog run) := by
  obtain ⟨hdomain, folders, hfolders, hfolder⟩ := htarget
  refine (leaves_read (leaves_getStaleFolders _ true)).bind fun stale => ?_
  intro run hstale a run' hrun
  obtain ⟨all, hall, -, hforced⟩ := hstale
  rw [hforced rfl] at hrun
  have hsame : all = folders := Except.ok.inj (hall.symm.trans hfolders)
  subst hsame
  rw [if_neg (List.ne_nil_of_mem hfolder)] at hrun
  have hcrawl := leaves_crawl (leaves_crawlFolders hclient hserves
    (fun f hf => (⟨hdomain, all, hall, hf⟩ : Targets settings overview env .active domain f))
      hfolder) (.domain domain env all)
  exact hcrawl run trivial a run' hrun

/-- The stale folders of the archives are all that the archives claim. -/
lemma leaves_staleLegacyFolders : Leaves (fun _ => True)
    (staleLegacyFolders (refreshCallees settings overview answers) env true) fun stale _ =>
      ∀ archive ∈ legacyArchives,
        ∀ folder ∈ claimedFolders settings.cm settings.config overview env archive,
          folder ∈ stale := by
  have hloop : ∀ archives stale : List Str, Leaves (fun _ => True)
      (archives.foldlM (fun staleFolders archive => do
        let folders ← EntryPoint.read
          ((refreshCallees settings overview answers).getStaleLegacyFolders archive env true)
        return staleFolders ++ folders) stale) fun stale' _ => stale ⊆ stale' ∧
      ∀ archive ∈ archives,
        ∀ folder ∈ claimedFolders settings.cm settings.config overview env archive,
          folder ∈ stale' := by
    intro archives
    induction archives with
    | nil => exact fun stale => leaves_pure fun _ _ => ⟨List.Subset.refl _, by simp⟩
    | cons archive archives ih =>
      intro stale
      rw [List.foldlM_cons]
      have hpass : Leaves (fun _ => True) (do
          let folders ← EntryPoint.read
            ((refreshCallees settings overview answers).getStaleLegacyFolders archive env true)
          return stale ++ folders) fun stale' _ => stale ⊆ stale' ∧
            ∀ folder ∈ claimedFolders settings.cm settings.config overview env archive,
              folder ∈ stale' := by
        refine (leaves_read (leaves_getStaleFolders _ true)).bind fun folders =>
          leaves_pure fun _ hfolders => ?_
        obtain ⟨all, hall, -, hforced⟩ := hfolders
        refine ⟨List.subset_append_left _ _, fun folder hfolder => ?_⟩
        unfold claimedFolders at hfolder
        rw [hall] at hfolder
        exact List.mem_append_right _ (hforced rfl ▸ hfolder)
      refine hpass.bind fun mid run hmid stale' run' hrun => ?_
      obtain ⟨hsub, hrest⟩ := ih mid run trivial stale' run' hrun
      refine ⟨List.Subset.trans hmid.1 hsub, fun other hother => ?_⟩
      rcases List.mem_cons.mp hother with rfl | hother
      · exact fun folder hfolder => hsub (hmid.2 folder hfolder)
      · exact hrest other hother
  exact (hloop legacyArchives []).mono fun _ _ h => h.2

/-- The folders that an archive claims are all crawled. -/
lemma leaves_crawlStaleLegacy (hclient : ∀ n, ∃ u, answers.client n = .ok u)
    (hserves : ServesFolder settings answers .legacy folder)
    (hrules : HasLegacyArchives settings.cm settings.config) {archive : Str}
    (htarget : Targets settings overview env .legacy archive folder) :
    Leaves (fun _ => True) (crawlStaleLegacy (refreshCallees settings overview answers) env true)
      fun _ run => Mirrors settings answers env .legacy folder (runCatalog run) := by
  obtain ⟨harchive, hclaims⟩ := htarget
  refine leaves_staleLegacyFolders.bind fun stale run hstale a run' hrun => ?_
  have hfolder : folder ∈ stale := hstale archive harchive folder hclaims
  rw [if_neg (List.ne_nil_of_mem hfolder)] at hrun
  have hcrawl := leaves_crawl (leaves_forM
    (fun archive harchive => savesOnly_crawlArchive harchive stale) (stable_mirrors _ _) harchive
      (leaves_crawlArchive hclient hserves hrules harchive hclaims hfolder)) (.allLegacy env stale)
  exact hcrawl run trivial a run' hrun

/-- A forced refresh of everything crawls the folders of all domains and of all archives. -/
lemma leaves_refresh (hclient : ∀ n, ∃ u, answers.client n = .ok u)
    (hserves : ServesFolder settings answers root folder)
    (hrules : HasLegacyArchives settings.cm settings.config) {domain : Str}
    (htarget : Targets settings overview env root domain folder) :
    Leaves (fun _ => True) (refresh settings overview answers env false true none)
      fun _ run => Mirrors settings answers env root folder (runCatalog run) := by
  have hall : scopeTarget settings.cm none = "all".toList := by
    unfold scopeTarget targetDomain
    rw [settings.cm.lower_ascii _ (by decide)]
    decide
  have hlegacy := @entrySaves_crawlStaleLegacy settings overview answers env true
  have hdomains : ∀ domain ∈ settings.config.domainOrder, EntrySaves settings overview answers env
      (crawlStaleDomain (refreshCallees settings overview answers) env true domain) :=
    fun domain hdomain => entrySaves_crawlStaleDomain hdomain true
  have hprogram : refresh settings overview answers env false true none = (do
      settings.config.domainOrder.forM
        (crawlStaleDomain (refreshCallees settings overview answers) env true)
      crawlStaleLegacy (refreshCallees settings overview answers) env true) := by
    unfold refresh
    rw [refreshEnvironmentMetadata_of_all hall]
    simp
  rw [hprogram]
  cases root with
  | active =>
    refine Leaves.seq ?_ (stable_mirrors _ _) fun _ => hlegacy
    exact leaves_forM hdomains (stable_mirrors _ _) htarget.1
      (leaves_crawlStaleDomain hclient hserves htarget)
  | legacy => exact Leaves.after fun _ => leaves_crawlStaleLegacy hclient hserves hrules htarget

end Forced

/-! ## That a refresh comes to its end -/

section Returns

variable {settings : CrawlSettings} {overview : Overview} {answers : CrawlAnswers} {env : Str}
  {owner : Str → FolderKey}

/-- Every listing of a folder has distinct ids, which are assigned to the folder. -/
def ListsAssigned (settings : CrawlSettings) (overview : Overview) (answers : CrawlAnswers)
    (env : Str) (owner : Str → FolderKey) : Prop :=
  ∀ root domain folder m n files, Targets settings overview env root domain folder →
    records settings answers root folder m n = .ok files →
      (files.map FileMeta.fileId).Nodup ∧
        ∀ file ∈ files, owner file.fileId = remoteKey settings env root folder

/-- The overview has the root directories of the environment. -/
structure HasRoots (settings : CrawlSettings) (overview : Overview) (env : Str) : Prop where
  /-- The folders of the domains can be read. -/
  active : ∀ domain, ∃ folders, getDomainFolders settings.cm overview env domain = .ok folders
  /-- The folders of the archives can be read. -/
  legacy : ∀ archive, ∃ folders,
    getLegacyArchiveFolders settings.cm overview settings.config env archive = .ok folders

/-- Saves of assigned files keep the assignment. -/
lemma stable_assigned (hlists : ListsAssigned settings overview answers env owner) :
    Stable (Saves settings overview answers env) (Assigned owner) := by
  intro cat cat' hstep h
  obtain @⟨root, domain, folder, m, n, now, files, _, _, htarget, hfiles, hsave⟩ := hstep
  intro fileId row hrow
  by_cases hkey : row.folder = remoteKey settings env root folder
  · obtain ⟨file, hfile, heq⟩ := (saveCrawledFolderMetadata_ok hsave).2.2.2.2 fileId row hrow hkey
    cases heq
    exact ((hlists root domain folder m n files htarget hfiles).2 file hfile).symm
  · exact h fileId row ((get?_files_save_of_ne hsave hkey).mp hrow)

/-- A pass over a folder whose listings are assigned to it does not raise. -/
lemma returns_crawlFolder (hdb : ∀ n, answers.saveFails n = false)
    (hlists : ListsAssigned settings overview answers env owner) {root : RemoteRoot}
    {domain folder : Str} (htarget : Targets settings overview env root domain folder) (m : ℕ) :
    Returns (fun w => Assigned owner w.catalog) (crawlFolder answers
      (crawlContext settings env root domain (answers.rootListing m root)) root folder) := by
  intro w hassigned
  set ctx := crawlContext settings env root domain (answers.rootListing m root)
  set item : Str × FolderCrawl :=
    (folder, ⟨answers.listing w.calls root folder, answers.saveFails w.calls, answers.now w.calls⟩)
  have hcommits : ¬ ctx.SaveRaises item w.catalog := by
    rintro ⟨files, hfiles, hfails | hrepeats | ⟨file, hfile, row, hrow, hother⟩⟩
    · have hfine : item.2.saveFails = false := hdb w.calls
      rw [hfine] at hfails
      cases hfails
    · exact hrepeats (hlists root domain folder m w.calls files htarget hfiles).1
    · apply hother
      rw [hassigned _ _ hrow]
      exact (hlists root domain folder m w.calls files htarget hfiles).2 file hfile
  rw [← CrawlContext.raised_pass_iff] at hcommits
  show ∃ a, (ctx.pass item w.catalog).1.mapError CrawlError.database = .ok a
  cases hpass : (ctx.pass item w.catalog).1 with
  | error e =>
    rw [hpass] at hcommits
    exact absurd rfl hcommits
  | ok u => exact ⟨u, rfl⟩

/-- What returns for every answer returns behind the question. -/
lemma returns_ask_bind {α β : Type} {answer : ℕ → α} {f : α → Program CrawlWorld CrawlError β}
    {I : Catalog → Prop} (h : ∀ n, Returns (fun w => I w.catalog) (f (answer n))) :
    Returns (fun w => I w.catalog) (ask answer >>= f) := by
  intro w hw
  rw [from_bind]
  exact h w.calls { w with calls := w.calls + 1 } hw

/-- The crawl of some folders returns when the files are assigned. -/
lemma returns_crawlFolders (hdb : ∀ n, answers.saveFails n = false)
    (hlists : ListsAssigned settings overview answers env owner) {root : RemoteRoot} {domain : Str}
    {folders : List Str}
    (htargets : ∀ folder ∈ folders, Targets settings overview env root domain folder) :
    Returns (fun w => Assigned owner w.catalog)
      (crawlFolders settings answers env root domain folders) := by
  refine returns_ask_bind fun n => ?_
  cases answers.client n with
  | error e => exact returns_pure ()
  | ok =>
    refine returns_ask_bind fun m => ?_
    exact returns_forM CrawlWorld.catalog
      (fun folder hfolder => savesOnly_crawlFolder (htargets folder hfolder))
        (stable_assigned hlists)
      fun folder hfolder => returns_crawlFolder hdb hlists (htargets folder hfolder) m

/-- The crawl of an archive returns when the files are assigned. -/
lemma returns_crawlArchive (hdb : ∀ n, answers.saveFails n = false)
    (hlists : ListsAssigned settings overview answers env owner) {archive : Str}
    (harchive : archive ∈ legacyArchives) (folders : List Str) :
    Returns (fun w => Assigned owner w.catalog)
      (crawlArchive settings overview answers env folders archive) := by
  unfold crawlArchive
  cases settings.config.legacyRules.find? fun rule =>
      settings.cm.lower rule.archive = settings.cm.lower archive with
  | none => exact returns_pure ()
  | some rule =>
    cases hfolders : getLegacyArchiveFolders settings.cm overview settings.config env archive with
    | error e => exact returns_pure ()
    | ok archiveFolders =>
      dsimp only
      split_ifs
      · exact returns_pure ()
      · exact returns_crawlFolders hdb hlists fun folder hfolder =>
          targets_of_mem_filter harchive hfolders hfolder

/-- The read of the stale folders of an overview that can be read. -/
lemma returns_readStale {P : CrawlRun CrawlWorld → Prop} {folders : Except OverviewError (List Str)}
    {all : List Str} (h : folders = .ok all) (isForce : Bool) :
    Returns P (EntryPoint.read (getStaleFolders settings answers env folders isForce).from) := by
  subst h
  exact fun run _ => ⟨_, rfl⟩

/-- The crawl of a domain returns when the files are assigned. -/
lemma returns_crawlStaleDomain (hdb : ∀ n, answers.saveFails n = false)
    (hlists : ListsAssigned settings overview answers env owner)
    (hroots : HasRoots settings overview env) {domain : Str}
    (hdomain : domain ∈ settings.config.domainOrder) (isForce : Bool) :
    Returns (fun run => Assigned owner (runCatalog run))
      (crawlStaleDomain (refreshCallees settings overview answers) env isForce domain) := by
  obtain ⟨all, hall⟩ := hroots.active domain
  have hmoves : EntrySaves settings overview answers env (EntryPoint.read
      (getStaleFolders settings answers env
        (getDomainFolders settings.cm overview env domain) isForce).from) :=
    moves_read (savesOnly_getStaleFolders _ isForce)
  refine (returns_readStale hall isForce).bind
    ((leaves_read (leaves_getStaleFolders _ isForce)).gain hmoves
    (stable_assigned hlists)) fun stale run hrun => ?_
  obtain ⟨hassigned, all', hall', hmem, -⟩ := hrun
  have htargets : ∀ folder ∈ stale, Targets settings overview env .active domain folder :=
    fun folder hfolder => ⟨hdomain, all', hall', hmem folder hfolder⟩
  split_ifs
  · exact ⟨(), rfl⟩
  · exact returns_crawl (returns_crawlFolders hdb hlists htargets) _ run hassigned

/-- The crawl of the archives returns when the files are assigned. -/
lemma returns_crawlStaleLegacy (hdb : ∀ n, answers.saveFails n = false)
    (hlists : ListsAssigned settings overview answers env owner)
    (hroots : HasRoots settings overview env) (isForce : Bool) :
    Returns (fun run => Assigned owner (runCatalog run))
      (crawlStaleLegacy (refreshCallees settings overview answers) env isForce) := by
  have hstale : Returns (fun run => Assigned owner (runCatalog run))
      (staleLegacyFolders (refreshCallees settings overview answers) env isForce) := by
    unfold staleLegacyFolders
    generalize ([] : List Str) = stale
    induction legacyArchives generalizing stale with
    | nil => exact returns_pure stale
    | cons archive archives ih =>
      obtain ⟨all, hall⟩ := hroots.legacy archive
      rw [List.foldlM_cons]
      refine Returns.seq runCatalog ?_ ?_ (stable_assigned hlists) ih
      · exact (returns_readStale hall isForce).bind (Q := fun _ _ => True)
          (fun _ _ _ _ _ => trivial) fun folders => returns_pure (stale ++ folders)
      · exact (moves_read (savesOnly_getStaleFolders _ isForce)).bind fun folders => moves_pure _
  refine Returns.seq runCatalog hstale (entrySaves_staleLegacyFolders isForce)
    (stable_assigned hlists) fun stale => ?_
  have hcrawl := returns_forM CrawlWorld.catalog
    (fun archive harchive => savesOnly_crawlArchive harchive stale) (stable_assigned hlists)
    fun archive harchive => returns_crawlArchive hdb hlists harchive stale
  split_ifs
  · exact returns_pure ()
  · exact fun run hrun => returns_crawl hcrawl _ run hrun

/-- A refresh returns when its listings are assigned to the folders. -/
lemma returns_entryPoint (hdb : ∀ n, answers.saveFails n = false)
    (hlists : ListsAssigned settings overview answers env owner)
    (hroots : HasRoots settings overview env) (isTest isForce : Bool) (domainName : Option Str) :
    Returns (fun run => Assigned owner (runCatalog run))
      (refresh settings overview answers env isTest isForce domainName) := by
  have hmoves := fun domain (hdomain : domain ∈ scopeDomains settings.cm settings.config isTest
      domainName) => @entrySaves_crawlStaleDomain settings overview answers env domain
        (mem_domainOrder_of_mem_scopeDomains hdomain) isForce
  have hdomains := returns_forM runCatalog hmoves (stable_assigned hlists) fun domain hdomain =>
    returns_crawlStaleDomain hdb hlists hroots (mem_domainOrder_of_mem_scopeDomains hdomain) isForce
  have hlegacy := returns_crawlStaleLegacy hdb hlists hroots isForce
  have hloop : Leaves (fun run => Assigned owner (runCatalog run))
      ((scopeDomains settings.cm settings.config isTest domainName).forM
        (crawlStaleDomain (refreshCallees settings overview answers) env isForce))
      fun _ run => Assigned owner (runCatalog run) :=
    (moves_forM hmoves).leaves (stable_assigned hlists)
  unfold refresh refreshEnvironmentMetadata
  dsimp only
  split_ifs
  · exact hdomains.bind hloop fun _ => returns_pure ()
  · exact hdomains.bind hloop fun _ => hlegacy
  · exact hdomains.bind hloop fun _ => returns_pure ()
  · exact returns_pure ()
  · exact hlegacy
  · exact returns_pure ()

end Returns

/-! ## The folders of the overview -/

/-- The overview is the one that the collector has made, for a platform whose root directories the
server shows with these names. -/
structure Discovered (settings : CrawlSettings) (createFmsClient : Str → Except PyError FileServer)
    (overview : Overview) (env : Str) (names : RemoteRoot → List Str) : Prop where
  /-- The environment is one of the two platforms. -/
  platform : env = "IOP".toList ∨ env = "PROD".toList
  /-- The overview has been collected. -/
  collected : ∃ report, ingestOverviewMetadata settings.cm settings.config createFmsClient =
    .ok (overview, report)
  /-- The server shows the names. -/
  shown : ∃ client, createFmsClient env = .ok client ∧
    ∀ root : RemoteRoot, ShowsNames (names root) (client ('/' :: (root.name ++ ['/'])))
  /-- The names of the active folders are distinct. -/
  nodup : (names .active).Nodup

/-- The classifier has named domains that are distinct up to case, and the three archives. -/
structure HasDomains (cm : CaseMap) (config : ClassifierConfig) : Prop where
  /-- The domains are distinct. -/
  distinct : (config.domainOrder.map cm.lower).Nodup
  /-- The domains have names. -/
  named : [] ∉ config.domainOrder
  /-- The archives. -/
  archives : HasLegacyArchives cm config

section Discovery

variable {settings : CrawlSettings} {createFmsClient : Str → Except PyError FileServer}
  {overview : Overview} {env : Str} {names : RemoteRoot → List Str}

/-- The root directories of a platform in the overview of both. -/
lemma overviewRoot_overviewOf (cm : CaseMap) (iop prod : List OverviewRoot) (rootName : Str) :
    overviewRoot cm (overviewOf iop prod) rootName "IOP".toList =
        (match iop.find? fun d => d.name = rootName with
          | none => .error .rootNotFound
          | some root => .ok root) ∧
      overviewRoot cm (overviewOf iop prod) rootName "PROD".toList =
        (match prod.find? fun d => d.name = rootName with
          | none => .error .rootNotFound
          | some root => .ok root) := by
  have hkeys : (overviewOf iop prod).keys = ["IOP".toList, "Prod".toList] := rfl
  have hupper : cm.upper "IOP".toList = "IOP".toList ∧ cm.upper "Prod".toList = "PROD".toList ∧
      cm.upper "PROD".toList = "PROD".toList := by
    rw [cm.upper_ascii _ (by decide), cm.upper_ascii _ (by decide), cm.upper_ascii _ (by decide)]
    decide
  obtain ⟨hiop, hprodKey, hprod⟩ := hupper
  unfold overviewRoot
  rw [hkeys]
  constructor
  · rw [List.find?_cons_of_pos (by simp)]
    rfl
  · rw [List.find?_cons_of_neg (by rw [hiop, hprod]; decide),
      List.find?_cons_of_pos (by rw [hprodKey, hprod]; decide)]
    rfl

/-- The root directories of a platform, as they are shown. -/
lemma Discovered.roots (h : Discovered settings createFmsClient overview env names) :
    ∃ domains, GroupsFolders settings.cm settings.config (names .active) domains ∧
      overviewRoot settings.cm overview RemoteRoot.active.name env =
        .ok ⟨RemoteRoot.active.name, domains, []⟩ ∧
      overviewRoot settings.cm overview RemoteRoot.legacy.name env =
        .ok ⟨RemoteRoot.legacy.name, ∅, sortNames (names .legacy)⟩ := by
  obtain ⟨report, hcollected⟩ := h.collected
  obtain ⟨client, hclient, hshown⟩ := h.shown
  unfold ingestOverviewMetadata at hcollected
  obtain ⟨iop, hiop, hcollected⟩ := Outcome.bind_eq_ok_iff.mp hcollected
  obtain ⟨prod, hprod, hcollected⟩ := Outcome.bind_eq_ok_iff.mp hcollected
  have hoverview : overviewOf iop.roots prod.roots = overview :=
    congrArg Prod.fst (Except.ok.inj hcollected)
  have hfetched : ∀ metadata, fetchEnvironmentMetadata settings.cm settings.config
      createFmsClient env = .ok metadata → ∃ domains,
        GroupsFolders settings.cm settings.config (names .active) domains ∧
        metadata.roots = [⟨RemoteRoot.active.name, domains, []⟩,
          ⟨RemoteRoot.legacy.name, ∅, sortNames (names .legacy)⟩] := by
    intro metadata hmetadata
    rw [fetchEnvironmentMetadata_of_showsNames hclient (hshown .active)
      (hshown .legacy)] at hmetadata
    by_cases hdomains : ∀ folder ∈ names .active,
        classifyFolder settings.cm settings.config folder ∈ settings.config.domainOrder
    · obtain ⟨grouped, hgrouped, hgroups⟩ := groupsFolders_of_fill h.nodup hdomains
      rw [hgrouped] at hmetadata
      cases hmetadata
      exact ⟨_, hgroups, rfl⟩
    · obtain ⟨folder, -, hgrouped, -⟩ := groupDomains_eq_error hdomains
      rw [hgrouped] at hmetadata
      cases hmetadata
  have hroot := overviewRoot_overviewOf settings.cm iop.roots prod.roots
  rw [hoverview] at hroot
  rcases h.platform with rfl | rfl
  · obtain ⟨domains, hgroups, hroots⟩ := hfetched iop hiop
    refine ⟨domains, hgroups, ?_, ?_⟩ <;> rw [(hroot _).1, hroots]
    · rfl
    · rfl
  · obtain ⟨domains, hgroups, hroots⟩ := hfetched prod hprod
    refine ⟨domains, hgroups, ?_, ?_⟩ <;> rw [(hroot _).2, hroots]
    · rfl
    · rfl

/-- The folders of a domain in the overview. -/
lemma getDomainFolders_of_groups {domains : Dict Str (List Str)} {active : List Str}
    (hdomains : HasDomains settings.cm settings.config)
    (hgroups : GroupsFolders settings.cm settings.config active domains)
    (hroot : overviewRoot settings.cm overview RemoteRoot.active.name env =
      .ok ⟨RemoteRoot.active.name, domains, []⟩) {domain : Str}
    (hdomain : domain ∈ settings.config.domainOrder) :
    ∃ folders, getDomainFolders settings.cm overview env domain = .ok folders ∧
      ∀ folder, folder ∈ folders ↔
        folder ∈ active ∧ classifyFolder settings.cm settings.config folder = domain := by
  have hkey : domain ∈ domains.keys := (hgroups.domains_iff domain).mpr hdomain
  obtain ⟨list, hlist⟩ := Dict.mem_keys_iff.mp hkey
  have hfind : (domains.keys.find? fun k => settings.cm.lower k = settings.cm.lower domain) =
      some domain := by
    cases hfind : domains.keys.find? fun k => settings.cm.lower k = settings.cm.lower domain with
    | none => exact absurd (decide_eq_true rfl) (List.find?_eq_none.mp hfind domain hkey)
    | some k =>
      have hlower : settings.cm.lower k = settings.cm.lower domain := by
        simpa using List.find?_some hfind
      have hmem := (hgroups.domains_iff k).mp (List.mem_of_find?_eq_some hfind)
      rw [List.inj_on_of_nodup_map hdomains.distinct hmem hdomain hlower]
  have hne : domain ≠ [] := by
    rintro rfl
    exact hdomains.named hdomain
  refine ⟨list, ?_, fun folder => ?_⟩
  · unfold getDomainFolders
    rw [show "TP_export".toList = RemoteRoot.active.name from rfl, hroot]
    simp [Except.map, hfind, hne, hlist]
  · rw [← List.count_pos_iff, hgroups.once domain list hlist]
    split_ifs with hown <;> simp [hown]

/-- The folders of a refresh are those that the server shows: an active folder is crawled for its
domain, and a legacy folder for the archives that claim it. -/
lemma Discovered.targets_iff (h : Discovered settings createFmsClient overview env names)
    (hdomains : HasDomains settings.cm settings.config) {root : RemoteRoot} {folder : Str} :
    (∃ domain, Targets settings overview env root domain folder) ↔ folder ∈ names root := by
  obtain ⟨domains, hgroups, hactive, hlegacy⟩ := h.roots
  cases root with
  | active =>
    constructor
    · rintro ⟨domain, hdomain, folders, hfolders, hfolder⟩
      obtain ⟨folders', hfolders', hmem⟩ := getDomainFolders_of_groups hdomains
          hgroups hactive hdomain
      rw [hfolders] at hfolders'
      cases hfolders'
      exact ((hmem folder).mp hfolder).1
    · intro hfolder
      have hown := (hgroups.domains_iff _).mp (hgroups.own folder hfolder)
      obtain ⟨folders, hfolders, hmem⟩ := getDomainFolders_of_groups hdomains hgroups hactive hown
      exact ⟨_, hown, folders, hfolders, (hmem folder).mpr ⟨hfolder, rfl⟩⟩
  | legacy =>
    have hsorted : ∀ folder, folder ∈ sortNames (names .legacy) ↔ folder ∈ names .legacy :=
      fun folder => (perm_sortNames _).mem_iff
    constructor
    · rintro ⟨archive, harchive, hclaims⟩
      exact (hsorted folder).mp
        ((mem_claimedFolders_iff hdomains.archives hlegacy harchive).mp hclaims).1
    · intro hfolder
      obtain ⟨archive, harchive, hclaims⟩ :=
        exists_claims hdomains.archives hlegacy ((hsorted folder).mpr hfolder)
      exact ⟨archive, harchive, hclaims⟩

/-- An active folder is crawled for the domain of the classifier. -/
lemma Discovered.domain_eq (h : Discovered settings createFmsClient overview env names)
    (hdomains : HasDomains settings.cm settings.config) {domain folder : Str}
    (htarget : Targets settings overview env .active domain folder) :
    domain = classifyFolder settings.cm settings.config folder := by
  obtain ⟨domains, hgroups, hactive, -⟩ := h.roots
  obtain ⟨hdomain, folders, hfolders, hfolder⟩ := htarget
  obtain ⟨folders', hfolders', hmem⟩ := getDomainFolders_of_groups hdomains hgroups hactive hdomain
  rw [hfolders] at hfolders'
  cases hfolders'
  exact ((hmem folder).mp hfolder).2.symm

/-- A collected overview has both root directories. -/
lemma Discovered.hasRoots (h : Discovered settings createFmsClient overview env names) :
    HasRoots settings overview env := by
  obtain ⟨domains, -, hactive, hlegacy⟩ := h.roots
  constructor
  · intro domain
    unfold getDomainFolders
    rw [show "TP_export".toList = RemoteRoot.active.name from rfl, hactive]
    exact ⟨_, rfl⟩
  · intro archive
    unfold getLegacyArchiveFolders
    rw [show "TP_Legacy_Publications".toList = RemoteRoot.legacy.name from rfl, hlegacy]
    exact ⟨_, rfl⟩

end Discovery

/-! ## The refresh of a discovered environment -/

section Main

variable {settings : CrawlSettings} {createFmsClient : Str → Except PyError FileServer}
  {overview : Overview} {answers : CrawlAnswers} {env : Str} {names : RemoteRoot → List Str}

/-- What a refresh does to a catalog, where the folders of the two root directories have these
names: the folders that the server shows and lists are copied, those that are not shown, or not
listed, are left alone, and no row changes its domain. -/
structure Refreshed (settings : CrawlSettings) (overview : Overview) (answers : CrawlAnswers)
    (env : Str) (names : RemoteRoot → List Str) (before after : Catalog) : Prop where
  /-- A folder that the server shows. -/
  copied : ∀ root, ∀ folder ∈ names root, ServesFolder settings answers root folder →
    Mirrors settings answers env root folder after
  /-- A folder that is not shown, or not listed at any time. -/
  others : ∀ key, (∀ root, ∀ folder ∈ names root, key = remoteKey settings env root folder →
    ∀ m n, ∃ e, records settings answers root folder m n = .error e) → SameFolder key before after
  /-- The domain of an active folder. -/
  active : ∀ folder ∈ names .active, HasDomain before (remoteKey settings env .active folder)
    (fun domain => domain = classifyFolder settings.cm settings.config folder) after
  /-- The domain of a legacy folder. -/
  legacy : ∀ folder ∈ names .legacy, HasDomain before (remoteKey settings env .legacy folder)
    (fun archive => archive ∈ legacyArchives ∧
      folder ∈ claimedFolders settings.cm settings.config overview env archive) after

/-- The domain of a row is kept when nothing happens. -/
lemma hasDomain_refl (cat : Catalog) (key : FolderKey) (D : Str → Prop) :
    HasDomain cat key D cat where
  kept old hold := ⟨old, hold, rfl⟩
  new hnone row hrow := by
    rw [hnone] at hrow
    cases hrow

/-- A forced refresh that returns makes a copy of a folder that the server shows and lists. -/
lemma mirrors_of_returns (hdomains : HasDomains settings.cm settings.config)
    (hdiscovered : Discovered settings createFmsClient overview env names)
    (hclient : ∀ n, ∃ u, answers.client n = .ok u) {w : CrawlWorld}
    (hreturns : (refreshFrom settings overview answers env false true none w).1 = .ok ())
    {root : RemoteRoot} {folder : Str} (hfolder : folder ∈ names root)
    (hserves : ServesFolder settings answers root folder) :
    Mirrors settings answers env root folder
      (refreshFrom settings overview answers env false true none w).2 := by
  obtain ⟨domain, htarget⟩ := (hdiscovered.targets_iff hdomains).mpr hfolder
  exact leaves_refresh hclient hserves hdomains.archives htarget ⟨w, []⟩ trivial () _
    (Prod.ext hreturns rfl)

/-- A refresh writes new rows of active folders with the domain of the classifier. -/
lemma hasDomain_of_refresh (hdomains : HasDomains settings.cm settings.config)
    (hdiscovered : Discovered settings createFmsClient overview env names) (isTest isForce : Bool)
    (domainName : Option Str) (w : CrawlWorld) (folder : Str) :
    HasDomain w.catalog (remoteKey settings env .active folder)
      (fun domain => domain = classifyFolder settings.cm settings.config folder)
      (refreshFrom settings overview answers env isTest isForce domainName w).2 := by
  have hdomain := (stable_hasDomain .active folder).run
    (saves_refreshFrom settings overview answers env isTest isForce domainName w)
    (hasDomain_refl w.catalog _ _)
  exact ⟨hdomain.kept, fun hnone row hrow =>
    hdiscovered.domain_eq hdomains (hdomain.new hnone row hrow)⟩

/-- **A forced refresh copies the server.** Let the overview have been collected, and let a forced
refresh of everything return. Then every folder that the server shows in one of the root directories
and can always list is stored with exactly the files of a listing, whatever happens to the listings
of other folders. All other rows, of folders that are not shown any more, of folders that could not
be listed and of the other environment, are what they were.

**Proof sketch.** Every shown folder is in the list of a domain or is claimed by an archive. The
pass over it makes the copy, and the other transactions save this folder as it is listed or other
ones. -/
theorem refreshed_of_returns (hdomains : HasDomains settings.cm settings.config)
    (hdiscovered : Discovered settings createFmsClient overview env names)
    (hclient : ∀ n, ∃ u, answers.client n = .ok u) {w : CrawlWorld}
    (hreturns : (refreshFrom settings overview answers env false true none w).1 = .ok ()) :
    Refreshed settings overview answers env names w.catalog
      (refreshFrom settings overview answers env false true none w).2 := by
  set final := (refreshFrom settings overview answers env false true none w).2 with hfinal
  have hmoves := saves_refreshFrom settings overview answers env false true none w
  have htargets : ∀ {root domain folder}, Targets settings overview env root domain folder →
      folder ∈ names root := fun htarget => (hdiscovered.targets_iff hdomains).mp ⟨_, htarget⟩
  constructor
  · exact fun root folder => mirrors_of_returns hdomains hdiscovered hclient hreturns
  · intro key hother
    refine (stable_sameFolder fun root domain folder m n files htarget hfiles hkey => ?_).run hmoves
      (SameFolder.refl key w.catalog)
    obtain ⟨e, herror⟩ := hother root folder (htargets htarget) hkey m n
    rw [hfiles] at herror
    cases herror
  · exact fun folder _ => hasDomain_of_refresh hdomains hdiscovered false true none w folder
  · exact fun folder _ =>
      (stable_hasDomain .legacy folder).run hmoves (hasDomain_refl w.catalog _ _)

/-- The server shows no file id twice: neither in a folder nor in two of them. -/
structure DistinctIds (names : RemoteRoot → List Str) (files : RemoteRoot → Str → List FileMeta) :
    Prop where
  /-- In a folder. -/
  inside : ∀ root, ∀ folder ∈ names root, ((files root folder).map FileMeta.fileId).Nodup
  /-- In two folders. -/
  across : ∀ root, ∀ folder ∈ names root, ∀ root', ∀ folder' ∈ names root',
    ∀ file ∈ files root folder, ∀ file' ∈ files root' folder', file.fileId = file'.fileId →
      root = root' ∧ folder = folder'

/-- Behind a forced refresh of a steady server that returns, the server shows no id twice. -/
lemma distinctIds_of_returns (hdomains : HasDomains settings.cm settings.config)
    (hdiscovered : Discovered settings createFmsClient overview env names)
    (hclient : ∀ n, ∃ u, answers.client n = .ok u) {files : RemoteRoot → Str → List FileMeta}
    (hsteady : ∀ root, ∀ folder ∈ names root, ∀ m n,
      records settings answers root folder m n = .ok (files root folder)) {w : CrawlWorld}
    (hreturns : (refreshFrom settings overview answers env false true none w).1 = .ok ()) :
    DistinctIds names files := by
  have hstored : ∀ root, ∀ folder ∈ names root,
      ((files root folder).map FileMeta.fileId).Nodup ∧
        ∀ file ∈ files root folder, ∃ row,
          (refreshFrom settings overview answers env false true none w).2.files.get? file.fileId =
            some row ∧ row.folder = remoteKey settings env root folder := by
    intro root folder hfolder
    obtain ⟨m, n, now, files', hfiles', hnodup, hpersisted⟩ := mirrors_of_returns hdomains
      hdiscovered hclient hreturns hfolder fun m n => ⟨_, hsteady root folder hfolder m n⟩
    rw [hsteady root folder hfolder m n] at hfiles'
    cases hfiles'
    refine ⟨hnodup, fun file hfile => ?_⟩
    exact ⟨_, (hpersisted.files _ _).mpr ⟨file, hfile, rfl⟩⟩
  constructor
  · exact fun root folder hfolder => (hstored root folder hfolder).1
  · intro root folder hfolder root' folder' hfolder' file hfile file' hfile' hid
    obtain ⟨row, hrow, hkey⟩ := (hstored root folder hfolder).2 file hfile
    obtain ⟨row', hrow', hkey'⟩ := (hstored root' folder' hfolder').2 file' hfile'
    rw [← hid, hrow] at hrow'
    cases hrow'
    exact remoteKey_injective (hkey.symm.trans hkey')

/-- **When a refresh of a steady server returns.** Let the listings of the server stay the same, and
let no file of the catalog be listed in another folder than its own. Then a forced refresh of
everything returns exactly when the server shows no id twice.

**Proof sketch.** Distinct ids assign the files to the folders, and then no transaction raises. In
the other direction the refresh has stored every file in its folder, under its id, in the end. -/
theorem returns_iff_distinctIds (hdomains : HasDomains settings.cm settings.config)
    (hdiscovered : Discovered settings createFmsClient overview env names)
    (hclient : ∀ n, ∃ u, answers.client n = .ok u) (hdb : ∀ n, answers.saveFails n = false)
    {files : RemoteRoot → Str → List FileMeta}
    (hsteady : ∀ root, ∀ folder ∈ names root, ∀ m n,
      records settings answers root folder m n = .ok (files root folder)) {w : CrawlWorld}
    (hstays : ∀ fileId row, w.catalog.files.get? fileId = some row → ∀ root, ∀ folder ∈ names root,
      ∀ file ∈ files root folder, file.fileId = fileId →
        row.folder = remoteKey settings env root folder) :
    (refreshFrom settings overview answers env false true none w).1 = .ok () ↔
      DistinctIds names files := by
  refine ⟨distinctIds_of_returns hdomains hdiscovered hclient hsteady, fun hdistinct => ?_⟩
  classical
  -- a listed id belongs to its folder, another one to where the catalog has it
  let listed (fileId : Str) (key : FolderKey) : Prop := ∃ root, ∃ folder ∈ names root,
    key = remoteKey settings env root folder ∧ ∃ file ∈ files root folder, file.fileId = fileId
  let owner (fileId : Str) : FolderKey :=
    if h : ∃ key, listed fileId key then h.choose
    else ((w.catalog.files.get? fileId).map FileRow.folder).getD ⟨[], []⟩
  have howner : ∀ root, ∀ folder ∈ names root, ∀ file ∈ files root folder,
      owner file.fileId = remoteKey settings env root folder := by
    intro root folder hfolder file hfile
    have hlisted : ∃ key, listed file.fileId key :=
      ⟨_, root, folder, hfolder, rfl, file, hfile, rfl⟩
    obtain ⟨root', folder', hfolder', hkey', file', hfile', hid⟩ := hlisted.choose_spec
    have hchosen : owner file.fileId = hlisted.choose := dif_pos hlisted
    obtain ⟨rfl, rfl⟩ := hdistinct.across root' folder' hfolder' root folder hfolder
        file' hfile' file
      hfile hid
    rw [hchosen, hkey']
  have hlists : ListsAssigned settings overview answers env owner := by
    intro root domain folder m n files' htarget hfiles'
    have hfolder := (hdiscovered.targets_iff hdomains).mp ⟨domain, htarget⟩
    rw [hsteady root folder hfolder m n] at hfiles'
    cases hfiles'
    exact ⟨hdistinct.inside root folder hfolder, howner root folder hfolder⟩
  have hassigned : Assigned owner w.catalog := by
    intro fileId row hrow
    by_cases hlisted : ∃ key, listed fileId key
    · obtain ⟨root, folder, hfolder, hkey, file, hfile, hid⟩ := hlisted.choose_spec
      have hchosen : owner fileId = hlisted.choose := dif_pos hlisted
      rw [hchosen, hkey]
      exact hstays fileId row hrow root folder hfolder file hfile hid
    · have hkept : owner fileId = ((w.catalog.files.get? fileId).map FileRow.folder).getD
          ⟨[], []⟩ :=
        dif_neg hlisted
      rw [hkept, hrow]
      rfl
  obtain ⟨u, hok⟩ := returns_entryPoint hdb hlists hdiscovered.hasRoots false true none
      ⟨w, []⟩ hassigned
  exact hok

/-- **A refresh comes to its end.** Let the database serve all transactions, and let there be an
assignment of file ids to folders that the catalog and all listings agree with: no file has been in
one folder and is listed in another, and no listing repeats an id. Then every refresh of the
environment returns, with any flags and for any domain, whatever the file server answers.

**Proof sketch.** A transaction only raises for a repeated id or for the id of a file of another
folder, and it keeps the assignment. -/
theorem returns_of_assigned (hdiscovered : Discovered settings createFmsClient overview env names)
    (hdb : ∀ n, answers.saveFails n = false) {owner : Str → FolderKey}
    (hlists : ListsAssigned settings overview answers env owner) (isTest isForce : Bool)
    (domainName : Option Str) {w : CrawlWorld} (hassigned : Assigned owner w.catalog) :
    (refreshFrom settings overview answers env isTest isForce domainName w).1 = .ok () ∧
      Assigned owner (refreshFrom settings overview answers env isTest isForce domainName w).2 := by
  constructor
  · obtain ⟨u, hok⟩ := returns_entryPoint hdb hlists hdiscovered.hasRoots isTest isForce domainName
      ⟨w, []⟩ hassigned
    exact hok
  · exact (stable_assigned hlists).run
      (saves_refreshFrom settings overview answers env isTest isForce domainName w) hassigned

end Main

/-! ### The production environment -/

/-- The settings of two domains and three archives. -/
def mirrorSettings : CrawlSettings :=
  ⟨.ascii, id, fmsExtensions, .ofYaml shippedGroups archivesConfig.legacyRules, 3⟩

/-- The settings have two domains and the three archives. -/
lemma hasDomains_mirrorSettings : HasDomains mirrorSettings.cm mirrorSettings.config where
  distinct := by decide
  named := by decide
  archives := ⟨by decide +kernel, by decide +kernel⟩

/-- The folders of a server: a publication, a new folder, and one that two archives claim. -/
def threeNames : RemoteRoot → List Str
  | .active => ["ActualTotalLoad_6.1.A_r3".toList, "SomethingNew_r4".toList]
  | .legacy => ["AcceptedAggregatedOffers_17.1.D_r2".toList]

/-- The server of the overview. -/
def threeServer : FileServer := fun path =>
  let folder (name : Str) : RawItem := ⟨some "Folder".toList, some name, none, none, none, none⟩
  if path = "/TP_export/".toList then [.ok ((threeNames .active).map folder)]
  else [.ok ((threeNames .legacy).map folder)]

/-- The overview of a server that shows both platforms. -/
def collectedOverview (server : FileServer) : Overview :=
  match ingestOverviewMetadata .ascii mirrorSettings.config fun _ => .ok server with
  | .ok result => result.1
  | .error _ => ∅

/-- The overview is the one that the collector makes, when it makes one. -/
lemma exists_report {server : FileServer}
    (h : (ingestOverviewMetadata .ascii mirrorSettings.config fun _ => .ok server).toBool = true) :
    ∃ report, ingestOverviewMetadata .ascii mirrorSettings.config (fun _ => .ok server) =
      .ok (collectedOverview server, report) := by
  unfold collectedOverview
  cases hcollected : ingestOverviewMetadata .ascii mirrorSettings.config fun _ => .ok server with
  | ok result => exact ⟨result.2, rfl⟩
  | error e =>
    rw [hcollected] at h
    cases h

/-- The overview of the server. -/
abbrev threeOverview : Overview := collectedOverview threeServer

/-- The entries of a folder. -/
def threeItems (folder : Str) : List RawItem :=
  if folder = "ActualTotalLoad_6.1.A_r3".toList then
    [loadItem "a.csv" "2026-04-15T12:00:00Z" "7", loadItem "b.csv" "2026-05-15T12:00:00Z" "8"]
  else if folder = "SomethingNew_r4".toList then [loadItem "c.csv" "2026-04-15T12:00:00Z" "9"]
  else [loadItem "d.csv" "2019-04-15T12:00:00Z" "10"]

/-- Calls that never fail. -/
def threeAnswers : CrawlAnswers where
  client _ := .ok ()
  rootListing _ _ := .ok []
  listing _ _ folder := .ok (threeItems folder)
  saveFails _ := false
  now _ := .utc 0
  order _ rows := rows

/-- Calls among which the listings of the new folder fail. -/
def partialAnswers : CrawlAnswers :=
  { threeAnswers with
    listing := fun _ _ folder =>
      if folder = "SomethingNew_r4".toList then .error .apiError else .ok (threeItems folder) }

/-- The key of a folder of the active root directory. -/
def activeKeyOf (env folder : String) : FolderKey :=
  ⟨env.toList, folderPath RemoteRoot.active.name folder.toList⟩

/-- A catalog with the publication, one file of which is no longer there, and with a folder of the
other environment. -/
def threeCatalog : Catalog where
  folders := Dict.ofList [
    (activeKeyOf "prod" "ActualTotalLoad_6.1.A_r3", ⟨"Load".toList, 2, 18, 8, none⟩),
    (activeKeyOf "iop" "ActualTotalLoad_6.1.A_r3", ⟨"Load".toList, 1, 9, 4, none⟩)]
  files := Dict.ofList [
    ("7".toList, ⟨activeKeyOf "prod" "ActualTotalLoad_6.1.A_r3", "a.csv".toList, 9, 4, [], []⟩),
    ("6".toList, ⟨activeKeyOf "prod" "ActualTotalLoad_6.1.A_r3", "old.csv".toList, 9, 4, [], []⟩),
    ("5".toList, ⟨activeKeyOf "iop" "ActualTotalLoad_6.1.A_r3", "a.csv".toList, 9, 4, [], []⟩)]

/-- The overview of the three folders has been collected. -/
lemma discovered_threeOverview : Discovered mirrorSettings (fun _ => .ok threeServer) threeOverview
    "PROD".toList threeNames where
  platform := Or.inr rfl
  collected := exists_report (by decide +kernel)
  shown := by
    refine ⟨threeServer, rfl, fun root => ?_⟩
    cases root with
    | active => exact ⟨_, .last (by decide), by decide⟩
    | legacy => exact ⟨_, .last (by decide), by decide⟩
  nodup := by decide

/-- A call without a result returns when it does not raise. -/
lemma eq_ok_of_toBool {ε : Type} {result : Except ε Unit} (h : result.toBool = true) :
    result = .ok () := by
  cases result with
  | ok => rfl
  | error e => cases h

/-- A refresh of the production environment copies the folders that it can list, and leaves the
folder of the other environment. -/
theorem refreshed_of_returns_production :
    Refreshed mirrorSettings threeOverview partialAnswers "PROD".toList threeNames threeCatalog
        (refreshFrom mirrorSettings threeOverview partialAnswers "PROD".toList false true none
          ⟨threeCatalog, 0⟩).2 ∧
      Mirrors mirrorSettings partialAnswers "PROD".toList .active "ActualTotalLoad_6.1.A_r3".toList
        (refreshFrom mirrorSettings threeOverview partialAnswers "PROD".toList false true none
          ⟨threeCatalog, 0⟩).2 := by
  have hreturns : (refreshFrom mirrorSettings threeOverview partialAnswers "PROD".toList false true
      none ⟨threeCatalog, 0⟩).1 = .ok () := eq_ok_of_toBool (by decide +kernel)
  have hrefreshed := refreshed_of_returns hasDomains_mirrorSettings discovered_threeOverview
    (fun _ => ⟨(), rfl⟩) hreturns
  exact ⟨hrefreshed, hrefreshed.copied .active _ List.mem_cons_self fun _ _ => ⟨_, rfl⟩⟩

/-- The records of a folder. -/
def threeFiles (folder : Str) : List FileMeta := (threeItems folder).map (mapRawFmsItem id)

/-- Every folder is listed with its files. -/
lemma records_threeAnswers {root : RemoteRoot} {folder : Str} (h : folder ∈ threeNames root)
    (m n : ℕ) : records mirrorSettings threeAnswers root folder m n = .ok (threeFiles folder) := by
  cases root with
  | active =>
    simp only [threeNames, List.mem_cons, List.not_mem_nil, or_false] at h
    rcases h with rfl | rfl <;> rfl
  | legacy =>
    obtain rfl := List.mem_singleton.mp h
    rfl

/-- The server shows no id twice, and so the refresh of the production environment returns. -/
theorem returns_iff_distinctIds_production :
    (refreshFrom mirrorSettings threeOverview threeAnswers "PROD".toList false true none
      ⟨threeCatalog, 0⟩).1 = .ok () := by
  have hdistinct : DistinctIds threeNames fun _ => threeFiles := by
    constructor
    · intro root
      cases root <;> decide +kernel
    · intro root folder hfolder root' folder' hfolder'
      revert folder folder'
      cases root <;> cases root' <;> decide +kernel
  have hkeys : ∀ entry ∈ threeCatalog.files.items, ∀ root, ∀ folder ∈ threeNames root,
      ∀ file ∈ threeFiles folder, file.fileId = entry.1 →
        entry.2.folder = remoteKey mirrorSettings "PROD".toList root folder := by
    intro entry hentry root
    revert entry
    cases root <;> decide +kernel
  exact (returns_iff_distinctIds hasDomains_mirrorSettings discovered_threeOverview
    (fun _ => ⟨(), rfl⟩) (fun _ => rfl) (fun _ _ => records_threeAnswers)
    fun fileId row hrow => hkeys _ (Dict.mem_items_iff.mpr hrow)).mpr hdistinct

/-- A folder that is listed is listed with its files. -/
lemma files_of_records_partialAnswers {root : RemoteRoot} {folder : Str}
    (h : folder ∈ threeNames root) {m n : ℕ} {files : List FileMeta}
    (hfiles : records mirrorSettings partialAnswers root folder m n = .ok files) :
    files = threeFiles folder := by
  cases root with
  | active =>
    simp only [threeNames, List.mem_cons, List.not_mem_nil, or_false] at h
    rcases h with rfl | rfl
    · exact (Except.ok.inj hfiles).symm
    · cases hfiles
  | legacy =>
    obtain rfl := List.mem_singleton.mp h
    exact (Except.ok.inj hfiles).symm

/-- The folder of a file id. -/
def threeOwner (fileId : Str) : FolderKey :=
  if fileId = "5".toList then activeKeyOf "iop" "ActualTotalLoad_6.1.A_r3"
  else if fileId = "9".toList then activeKeyOf "prod" "SomethingNew_r4"
  else if fileId = "10".toList then
    remoteKey mirrorSettings "PROD".toList .legacy "AcceptedAggregatedOffers_17.1.D_r2".toList
  else activeKeyOf "prod" "ActualTotalLoad_6.1.A_r3"

/-- A refresh of one domain of the production environment returns, although listings fail. -/
theorem returns_of_assigned_production :
    (refreshFrom mirrorSettings threeOverview partialAnswers "PROD".toList false false
      (some "Load".toList) ⟨threeCatalog, 0⟩).1 = .ok () := by
  have hlists : ListsAssigned mirrorSettings threeOverview partialAnswers "PROD".toList
      threeOwner := by
    intro root domain folder m n files htarget hfiles
    have hfolder := (discovered_threeOverview.targets_iff hasDomains_mirrorSettings).mp ⟨_, htarget⟩
    obtain rfl := files_of_records_partialAnswers hfolder hfiles
    have howner : ∀ folder ∈ threeNames root, ((threeFiles folder).map FileMeta.fileId).Nodup ∧
        ∀ file ∈ threeFiles folder,
          threeOwner file.fileId = remoteKey mirrorSettings "PROD".toList root folder := by
      cases root <;> decide +kernel
    exact howner folder hfolder
  have hassigned : ∀ entry ∈ threeCatalog.files.items, entry.2.folder = threeOwner entry.1 := by
    decide +kernel
  exact (returns_of_assigned discovered_threeOverview (fun _ => rfl) hlists false false
    (some "Load".toList) fun fileId row hrow => hassigned _ (Dict.mem_items_iff.mpr hrow)).1

end EntsoePipeline
