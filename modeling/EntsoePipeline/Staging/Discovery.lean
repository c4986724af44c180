import EntsoePipeline.Catalog.Mirror
import EntsoePipeline.Staging.EndToEnd

set_option relaxedAutoImplicit false
set_option autoImplicit false

/-!
# From the file server to the lakehouse

The collector finds a folder on the file server and the classifier gives it a domain, a forced
refresh stores its row, and the landing schema is built from the rows. So a file of a folder that
nobody has named anywhere but in the checklist is taken by a cycle to the table of its contract.

## Main definitions

* `EntsoePipeline.PlainNames` — the names of the folders and of the domains are path segments.
* `EntsoePipeline.Selected` — a folder that the server shows and that the checklist enables.

## Main results

* `EntsoePipeline.plainCatalog_of_refresh` — a refresh keeps a catalog plain.
* `EntsoePipeline.catalogued_of_mirrors` — a selected folder is in the catalog.
* `EntsoePipeline.integrated_of_discovered` — the files of a selected folder reach the lakehouse.
-/

namespace EntsoePipeline

open Py Recovery Simulation

/-! ## The catalog behind a refresh -/

/-- The names of the folders that the server shows and of the domains are path segments. -/
structure PlainNames (config : ClassifierConfig) (names : RemoteRoot → List Str) : Prop where
  /-- The folders. -/
  folders : ∀ root, ∀ folder ∈ names root, ∃ s : Segment '/', s.text = folder
  /-- The domains. -/
  domains : ∀ domain ∈ config.domainOrder, ∃ s : Segment '/', s.text = domain

section Refresh

variable {settings : CrawlSettings} {createFmsClient : Str → Except PyError FileServer}
  {overview : Overview} {answers : CrawlAnswers} {env : Str} {names : RemoteRoot → List Str}

/-- A domain or an archive that a folder is crawled for is a path segment. -/
lemma exists_segment_of_targets (hplain : PlainNames settings.config names) {root : RemoteRoot}
    {domain folder : Str} (htarget : Targets settings overview env root domain folder) :
    ∃ s : Segment '/', s.text = domain := by
  cases root with
  | active => exact hplain.domains domain htarget.1
  | legacy =>
    have harchives : ∀ archive ∈ legacyArchives, archive ≠ [] ∧ '/' ∉ archive := by decide
    obtain ⟨hne, hslash⟩ := harchives domain htarget.1
    exact ⟨⟨domain, hne, hslash⟩, rfl⟩

/-- The name of a platform in lower case is a path segment. -/
lemma Discovered.exists_segment (h : Discovered settings createFmsClient overview env names) :
    ∃ s : Segment '/', s.text = settings.cm.lower env := by
  rcases h.platform with rfl | rfl
  · have hlower := settings.cm.lower_ascii "IOP".toList (by decide)
    exact ⟨⟨"iop".toList, by decide, by decide⟩, hlower.symm⟩
  · have hlower := settings.cm.lower_ascii "PROD".toList (by decide)
    exact ⟨⟨"prod".toList, by decide, by decide⟩, hlower.symm⟩

/-- The transactions of a refresh keep a catalog plain. -/
lemma stable_plainCatalog (hdomains : HasDomains settings.cm settings.config)
    (hdiscovered : Discovered settings createFmsClient overview env names)
    (hplain : PlainNames settings.config names) :
    Stable (Saves settings overview answers env) (PlainCatalog settings.cm) := by
  intro cat cat' hstep h key row hrow
  obtain @⟨root, domain, folder, m, n, now, files, _, _, htarget, -, hsave⟩ := hstep
  by_cases hkey : key = remoteKey settings env root folder
  · subst hkey
    obtain ⟨row', hrow', hdomain⟩ := domain_of_save hsave
    rw [hrow] at hrow'
    cases hrow'
    obtain ⟨envSegment, henv⟩ := hdiscovered.exists_segment
    obtain ⟨folderSegment, hfolder⟩ :=
      hplain.folders root folder ((hdiscovered.targets_iff hdomains).mp ⟨domain, htarget⟩)
    obtain ⟨domainSegment, hsegment⟩ : ∃ s : Segment '/', s.text = row.domain := by
      cases hold : cat.folders.get? (remoteKey settings env root folder) with
      | none =>
        rw [hold] at hdomain
        rw [hdomain]
        exact exists_segment_of_targets hplain htarget
      | some old =>
        obtain ⟨-, -, domainSegment, -, -, hsegment, -⟩ := h _ old hold
        rw [hold] at hdomain
        exact ⟨domainSegment, hsegment.symm.trans hdomain.symm⟩
    refine ⟨envSegment, root.segment, domainSegment, folderSegment, ?_, hsegment.symm, ?_⟩
    · rw [henv]
      exact settings.cm.lower_lower env
    · rw [RemoteRoot.text_segment, hfolder]
      rfl
  · rw [(sameFolder_of_save hsave hkey).row] at hrow
    exact h key row hrow

/-- A refresh keeps a catalog plain. -/
lemma plainCatalog_of_refresh (hdomains : HasDomains settings.cm settings.config)
    (hdiscovered : Discovered settings createFmsClient overview env names)
    (hplain : PlainNames settings.config names) {w : CrawlWorld}
    (hcat : PlainCatalog settings.cm w.catalog) (isTest isForce : Bool) (domainName : Option Str) :
    PlainCatalog settings.cm
      (refreshFrom settings overview answers env isTest isForce domainName w).2 :=
  (stable_plainCatalog hdomains hdiscovered hplain).run
    (saves_refreshFrom settings overview answers env isTest isForce domainName w) hcat

end Refresh

/-! ## The way of a file -/

/-- A folder that the server shows in the active root and can list, with the domain that the
classifier gives it, and that the checklist enables with a value. A row that the catalog had of it
already has this domain. -/
structure Selected {β : Type*} (cfg : SyncConfig β) (settings : CrawlSettings)
    (answers : CrawlAnswers) (names : RemoteRoot → List Str) (before : Catalog) (envName : Str)
    (path : LandingPath) (val : EntryValue) : Prop where
  /-- The environment. -/
  env : path.env.text = cfg.cm.lower envName
  /-- The root directory. -/
  root : path.root = RemoteRoot.active.segment
  /-- The domain. -/
  domain : path.domain.text = classifyFolder settings.cm settings.config path.folder.text
  /-- The server shows the folder. -/
  shown : path.folder.text ∈ names .active
  /-- The server lists the folder. -/
  served : ServesFolder settings answers .active path.folder.text
  /-- The folder is no file of the root directory. -/
  directory : endsWithAny path.folder.text fmsExtensions = false
  /-- The checklist enables the folder. -/
  active : (foldersOf cfg envName).get? path.folder.text = some val
  /-- No other enabled folder takes its path. -/
  first : FirstEnabled cfg envName path
  /-- A row from before. -/
  known : ∀ row, before.folders.get? (remoteKey settings envName .active path.folder.text) =
    some row → row.domain = path.domain.text

section EndToEnd

variable {β τ ε : Type*} {cfg : SyncConfig β} {reader : IsoReader} {registered : List Str}
  {activeEnv : Str} {ingest : τ → Str → List IngestibleFile → WriteOutcome ε τ}
  {runs : Str → ContractRun} {config : ClassifierConfig}
  {server : ℕ → Str → Except PyError (List RawItem)} {envAnswers : ℕ → EnvAnswers β}
  {zone : LandingZone β} {lakehouse : τ} {ledger : List AttemptRow} {landed : IngestState β}
  {staged : JobState τ} {settings : CrawlSettings}
  {createFmsClient : Str → Except PyError FileServer} {overview : Overview} {answers : CrawlAnswers}
  {env : Str} {names : RemoteRoot → List Str}

/-- A selected folder is in the catalog behind a refresh. -/
lemma catalogued_of_mirrors (hcm : settings.cm = cfg.cm) {before after : Catalog}
    {path : LandingPath}
    {val : EntryValue} (h : Selected cfg settings answers names before env path val)
    (hmirrors : Mirrors settings answers env .active path.folder.text after)
    (hdomain : HasDomain before (remoteKey settings env .active path.folder.text)
      (fun domain => domain = classifyFolder settings.cm settings.config path.folder.text) after) :
    Catalogued cfg after env path val where
  env := h.env
  root := h.root
  row := by
    obtain ⟨m, n, now, files, -, -, ⟨row, hrow, -⟩, -⟩ := hmirrors
    refine ⟨_, row, hrow, ?_, ?_, ?_⟩
    · rw [h.env, ← hcm]
      exact settings.cm.lower_lower env
    · cases hold : before.folders.get? (remoteKey settings env .active path.folder.text) with
      | none => exact (hdomain.new hold row hrow).trans h.domain.symm
      | some old =>
        obtain ⟨row', hrow', hkept⟩ := hdomain.kept old hold
        rw [hrow] at hrow'
        cases hrow'
        exact hkept.trans (h.known old hold)
    · rw [h.root, RemoteRoot.text_segment]
      rfl
  directory := h.directory
  active := h.active
  first := h.first

/-- **From the file server to the lakehouse.** Let the overview have been collected and a forced
refresh of everything return, let the landing schema be built from the catalog behind it, and let a
cycle without failures follow. Consider a folder of the active root which the file server has shown
and always lists and which the checklist enables, such that no folder that is enabled before it is
named like its environment, its root directory or its domain, and a row that the catalog had for it
is of the domain of the classifier. Then every `.csv` file with an id that the file server lists in
it, and that the value of the checklist keeps, is stored and registered in its listed version, under
the domain of the classifier. When the domain has a publication named like the folder, and it is not
the bypassed one, the gateway puts the file under it, and the file is integrated in its listed
version.

**Proof sketch.** The refresh stores a row of the folder with the domain of the classifier and keeps
the catalog plain. The row gives the landing path, and the file is a file of the job. -/
theorem integrated_of_discovered (hcm : settings.cm = cfg.cm)
    (hdomains : HasDomains settings.cm settings.config)
    (hdiscovered : Discovered settings createFmsClient overview env names)
    (hplain : PlainNames settings.config names) (hclient : ∀ n, ∃ u, answers.client n = .ok u)
    {w : CrawlWorld} (hcat : PlainCatalog settings.cm w.catalog)
    (hreturns : (refreshFrom settings overview answers env false true none w).1 = .ok ())
    (hschema : cfg.schemaFolders = (buildLandingBucketSchema cfg.cm
      (refreshFrom settings overview answers env false true none w).2 ∅).keys)
    (hnames : ∀ index path items, server index path = .ok items → UniqueNames items)
    (henvs : ((envsToSync cfg activeEnv).map cfg.cm.lower).Nodup)
    (hserved : ServedBy server envAnswers)
    (h : CleanCycle cfg reader registered activeEnv ingest runs config envAnswers zone
      lakehouse ledger landed staged) (hpast : Chronological ledger)
    (hlater : ∀ a ∈ ledger, ∀ n, a.ingestedAt < (runs n).ingestedAt)
    {position : ℕ} (henv : (envsToSync cfg activeEnv)[position]? = some env) {path : LandingPath}
    {val : EntryValue} (hselected : Selected cfg settings answers names w.catalog env path val)
    {items : List RawItem}
    (hlisted : server position (folderPath path.root.text path.folder.text) = .ok items)
    {item : RawItem} (hitem : item ∈ items) (hid : item.itemId ≠ [])
    (hcsv : endsWith item.itemName ".csv".toList = true) (hkeeps : val.Keeps item.itemName) :
    let s3Key := path.text ++ '/' :: item.itemName
    (∃ object, landed.zone.objects.get? s3Key = some object) ∧
    (∃ row, landed.zone.registry.get? s3Key = some row ∧
      row.xxhash = (itemVersion item).hash cfg.xxh) ∧
    ∀ group, config.domains.get? path.domain.text = some group →
      (∃ publication ∈ group.values, publication.fmsName = path.folder.text) →
      path.folder.text ≠ giantBypassDomainContract →
      contractOf config s3Key = some path.folder.text ∧
        IsIntegrated staged.ledger s3Key ((itemVersion item).hash cfg.xxh) := by
  have hmirrors :=
    mirrors_of_returns hdomains hdiscovered hclient hreturns hselected.shown hselected.served
  have hfinal := @plainCatalog_of_refresh settings createFmsClient overview answers
      env names hdomains
    hdiscovered hplain w hcat false true none
  rw [hcm] at hfinal
  have hfolder := catalogued_of_mirrors hcm hselected hmirrors
    (hasDomain_of_refresh hdomains hdiscovered false true none w _)
  obtain ⟨paths, hpaths, hdistinct⟩ := exists_landingPaths hfinal
  obtain ⟨mapping, hmapping, hentry⟩ :=
    mem_jobSources_of_catalogued hpaths henv hfolder hlisted hitem hcsv hkeeps
  exact integrated_of_source (hschema.trans hpaths) hdistinct hnames henvs hserved h hpast hlater
    hmapping hentry hid (ne_nil_of_csv hcsv) ((hnames _ _ _ hlisted).1 item hitem hid)

end EndToEnd

/-! ### A refresh of the production environment -/

/-- A server whose active folders are one publication. -/
def mirrorServer : FileServer := fun path =>
  if path = "/TP_export/".toList then
    [.ok [⟨some "Folder".toList, some "ActualTotalLoad_6.1.A_r3".toList, none, none, none, none⟩]]
  else [.ok []]

/-- The folders of the server. -/
def mirrorNames : RemoteRoot → List Str
  | .active => ["ActualTotalLoad_6.1.A_r3".toList]
  | .legacy => []

/-- The overview of the server. -/
abbrev mirrorOverview : Overview := collectedOverview mirrorServer

/-- Calls that never fail, with one file in every folder. -/
def mirrorAnswers : CrawlAnswers where
  client _ := .ok ()
  rootListing _ _ := .ok []
  listing _ _ _ := .ok [loadItem "a.csv" "2026-04-15T12:00:00Z" "7"]
  saveFails _ := false
  now _ := .utc 0
  order _ rows := rows

/-- The overview of the one folder has been collected. -/
lemma discovered_mirrorOverview : Discovered mirrorSettings (fun _ => .ok mirrorServer)
    mirrorOverview "PROD".toList mirrorNames where
  platform := Or.inr rfl
  collected := exists_report (by decide +kernel)
  shown := by
    refine ⟨mirrorServer, rfl, fun root => ?_⟩
    cases root with
    | active => exact ⟨_, .last (by decide), by decide⟩
    | legacy => exact ⟨_, .last (by decide), by decide⟩
  nodup := by decide

/-- The server shows one folder. -/
lemma eq_of_mem_mirrorNames {root : RemoteRoot} {folder : Str} (h : folder ∈ mirrorNames root) :
    root = .active ∧ folder = "ActualTotalLoad_6.1.A_r3".toList := by
  cases root with
  | active => exact ⟨rfl, List.mem_singleton.mp h⟩
  | legacy => cases h

/-- The names of the publication and of the two domains are segments. -/
lemma plainNames_mirrorNames : PlainNames mirrorSettings.config mirrorNames where
  folders := by
    intro root folder hfolder
    obtain ⟨rfl, rfl⟩ := eq_of_mem_mirrorNames hfolder
    exact ⟨cycleFolder.folder, by decide⟩
  domains := by
    have hdomains : ∀ domain ∈ mirrorSettings.config.domainOrder, domain ≠ [] ∧ '/' ∉ domain := by
      decide
    intro domain hdomain
    exact ⟨⟨domain, (hdomains domain hdomain).1, (hdomains domain hdomain).2⟩, rfl⟩

/-- The folder is shown and enabled. -/
lemma selected_cycleFolder : Selected cycleSync mirrorSettings mirrorAnswers
    mirrorNames cycleCatalog "PROD".toList cycleFolder (.bool true) where
  env := by decide
  root := rfl
  domain := by decide +kernel
  shown := by decide
  served _ _ := ⟨_, rfl⟩
  directory := by decide
  active := by decide
  first := by unfold FirstEnabled; decide
  known := by
    have hrow : cycleCatalog.folders.get? (remoteKey mirrorSettings "PROD".toList .active
        cycleFolder.folder.text) = some ⟨"Load".toList, 1, 9, 4, none⟩ := by
      decide +kernel
    intro row hget
    rw [hrow] at hget
    cases hget
    decide

/-- Behind a refresh of the production environment the file with an id is integrated. -/
theorem integrated_of_discovered_production :
    IsIntegrated cycleStaged.ledger "prod/TP_export/Load/ActualTotalLoad_6.1.A_r3/a.csv".toList
      ((itemVersion (loadItem "a.csv" "2026-04-15T12:00:00Z" "7")).hash id) := by
  have hreturns : (refreshFrom mirrorSettings mirrorOverview mirrorAnswers "PROD".toList false true
      none ⟨cycleCatalog, 0⟩).1 = .ok () := by
    rfl
  have hschema : cycleSync.schemaFolders = (buildLandingBucketSchema cycleSync.cm
      (refreshFrom mirrorSettings mirrorOverview mirrorAnswers "PROD".toList false true none
        ⟨cycleCatalog, 0⟩).2 ∅).keys := by
    decide +kernel
  have hposition : (envsToSync cycleSync "IOP".toList)[1]? = some "PROD".toList := by
    rw [envsToSync_cycleSync]
    rfl
  have hlisted : cycleServer (folderPath cycleFolder.root.text cycleFolder.folder.text) =
      .ok loadItems := by
    decide +kernel
  have hgroup : ∃ group, shippedClassifier.domains.get? cycleFolder.domain.text = some group ∧
      ∃ publication ∈ group.values, publication.fmsName = cycleFolder.folder.text :=
    ⟨_, rfl, by decide +kernel⟩
  obtain ⟨group, hget, hexact⟩ := hgroup
  have hintegrated := (integrated_of_discovered (w := ⟨cycleCatalog, 0⟩) rfl
      hasDomains_mirrorSettings
    discovered_mirrorOverview plainNames_mirrorNames (fun _ => ⟨(), rfl⟩) plainCatalog_cycleCatalog
    hreturns hschema uniqueNames_cycleServer (by rw [envsToSync_cycleSync]; decide) (fun _ _ => rfl)
    cleanCycle_first .nil (by simp) hposition selected_cycleFolder hlisted List.mem_cons_self
    (by decide) (by decide) trivial).2.2 group hget hexact (by decide)
  exact hintegrated.2

end EntsoePipeline
