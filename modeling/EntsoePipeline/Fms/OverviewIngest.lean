import EntsoePipeline.Config.RuleOrder
import EntsoePipeline.Fms.Listing
import EntsoePipeline.Lib.Fibers
import EntsoePipeline.Lib.Outcome

set_option relaxedAutoImplicit false
set_option autoImplicit false

/-!
# How the overview is collected

For each platform the collector lists the two root directories, page by page, assigns each active
folder to its domain and appends it to the list of the domain, and sorts the lists. The lists are
made from the configured order of the domains before the first folder is assigned.

## Main definitions

* `EntsoePipeline.lsFms` — the names of a directory.
* `EntsoePipeline.fetchEnvironmentMetadata` — the metadata of a platform.
* `EntsoePipeline.ingestOverviewMetadata` — the overview of both platforms with its drift reports.
* `EntsoePipeline.ShowsNames` — a directory has some names, and the server shows it page by page.

## Main results

* `EntsoePipeline.lsFms_of_showsNames` — the lister reads all names.
* `EntsoePipeline.fetchEnvironmentMetadata_partitions` — the metadata hold every folder once, and
  are not made only when a folder has a domain outside of the configured order.
-/

namespace EntsoePipeline

open Py

/-! ## The code -/

/-- Why the metadata of a platform cannot be fetched. -/
inductive FetchError
  /-- The client cannot be created. -/
  | client (e : PyError)
  /-- A request to the file server failed. -/
  | request (e : PyError)
  /-- A `KeyError`. -/
  | keyError (key : Str)

/-- `x["name"]`. -/
def nameOf (x : RawItem) : Except FetchError Str :=
  match x.name with
  | some name => .ok name
  | none => .error (.keyError "name".toList)

/-- The names of a directory, up to the first page that is not full. -/
def lsFms : List (Except PyError (List RawItem)) → Except FetchError (List Str)
  | [] => .error (.request .apiError)
  | page :: pages => do
    let currentItems ← page.mapError .request
    let names ← currentItems.mapM nameOf
    if currentItems.length < pageSize then return names
    else
      let rest ← lsFms pages
      return names ++ rest

/-- `sorted(l)`. -/
def sortNames (l : List Str) : List Str := l.insertionSort (· ≤ ·)

/-- A root directory in the metadata of a platform. -/
structure RootMetadata extends OverviewRoot where
  /-- What the directory is for. -/
  description : Str
  /-- The number of its folders. -/
  itemCount : ℕ

/-- The metadata of a platform. -/
structure EnvironmentMetadata where
  /-- The name of the platform. -/
  description : Str
  /-- The root directories. -/
  rootDirectories : List RootMetadata

section Collector

variable (cm : CaseMap) (config : ClassifierConfig)
  (createFmsClient : Str → Except PyError FileServer)

/-- The folders by domain: `grouped_domains[domain].append(folder)` for each folder. -/
def groupDomains (activeFolders : List Str) : Except Str (Dict Str (List Str)) :=
  Fibers.fill (classifyFolder cm config)
    (Dict.ofList (config.domainOrder.map fun domain => (domain, []))) activeFolders

/-- The metadata of a platform from its folders, whose lists are sorted. -/
def formatMetadata (envName : Str) (activeFolders legacyFolders : List Str)
    (groupedDomains : Dict Str (List Str)) : EnvironmentMetadata where
  description := if envName = "PROD".toList then "ENTSO-E Production Platform".toList
    else "ENTSO-E Integration/Test Platform".toList
  rootDirectories := [
    { name := "TP_export".toList
      description := "Active publications folder".toList
      itemCount := activeFolders.length
      domains := groupedDomains.mapValues sortNames
      folders := [] },
    { name := "TP_Legacy_Publications".toList
      description := "Legacy publications folder".toList
      itemCount := legacyFolders.length
      domains := ∅
      folders := sortNames legacyFolders }]

/-- The metadata of a platform. -/
def fetchEnvironmentMetadata (envName : Str) : Except FetchError EnvironmentMetadata := do
  let client ← (createFmsClient envName).mapError .client
  let activeFolders ← lsFms (client "/TP_export/".toList)
  let legacyFolders ← lsFms (client "/TP_Legacy_Publications/".toList)
  let groupedDomains ← (groupDomains cm config activeFolders).mapError .keyError
  return formatMetadata envName activeFolders legacyFolders groupedDomains

/-- The root directories of a platform, as the overview keeps them. -/
def EnvironmentMetadata.roots (metadata : EnvironmentMetadata) : List OverviewRoot :=
  metadata.rootDirectories.map RootMetadata.toOverviewRoot

/-- The folders of the root directory of the active publications. -/
def exportFoldersOf (rootDirectories : List OverviewRoot) : List Str :=
  rootDirectories.flatMap fun rootDir =>
    if rootDir.name = "TP_export".toList then rootDir.domains.values.flatten else []

/-- The drift detection of the collector, on the metadata of both platforms. -/
def detectOverviewDrift (iop prod : List OverviewRoot) : DriftReport :=
  detectDrift cm config (exportFoldersOf iop ++ exportFoldersOf prod)

/-- The overview of two platforms. -/
def overviewOf (iop prod : List OverviewRoot) : Overview :=
  Dict.ofList [("IOP".toList, iop), ("Prod".toList, prod)]

/-- The overview of both platforms, which is saved, and the drift reports. -/
def ingestOverviewMetadata : Except FetchError (Overview × DriftReport) := do
  let iopMetadata ← fetchEnvironmentMetadata cm config createFmsClient "IOP".toList
  let prodMetadata ← fetchEnvironmentMetadata cm config createFmsClient "PROD".toList
  return (overviewOf iopMetadata.roots prodMetadata.roots,
    detectOverviewDrift cm config iopMetadata.roots prodMetadata.roots)

end Collector

/-! ## Listings -/

/-- A directory has the names, and the server shows it page by page. -/
def ShowsNames (names : List Str) (pages : List (Except PyError (List RawItem))) : Prop :=
  ∃ items, PagesOf items pages ∧ items.map RawItem.name = names.map some

/-- The names of items that all have one are collected. -/
lemma mapM_nameOf {items : List RawItem} {names : List Str}
    (h : items.map RawItem.name = names.map some) : items.mapM nameOf = .ok names := by
  rw [Outcome.mapM_eq_ok_iff]
  have hnames : List.Forall₂ (fun name n => name = some n) (items.map RawItem.name) names := by
    rw [h, List.forall₂_map_left_iff]
    exact List.forall₂_same.mpr fun _ _ => rfl
  rw [List.forall₂_map_left_iff] at hnames
  refine hnames.imp fun item n hname => ?_
  rw [nameOf, hname]

/-- The lister reads all names of a directory. -/
lemma lsFms_of_showsNames {names : List Str} {pages : List (Except PyError (List RawItem))}
    (h : ShowsNames names pages) : lsFms pages = .ok names := by
  obtain ⟨items, hpages, hnames⟩ := h
  induction hpages generalizing names with
  | last hlen =>
    rw [lsFms]
    simp only [Except.mapError, bind, Except.bind, mapM_nameOf hnames, if_pos hlen]
    rfl
  | @next items more pages hlen _ ih =>
    rw [List.map_append] at hnames
    obtain ⟨front, rest, rfl, hfront, hrest⟩ := List.map_eq_append_iff.mp hnames.symm
    have hfull : ¬ items.length < pageSize := by omega
    rw [lsFms]
    simp only [Except.mapError, bind, Except.bind, mapM_nameOf hfront.symm, if_neg hfull,
      ih hrest.symm]
    rfl

/-! ## Grouped folders -/

/-- The lists of the domains hold each folder once, under its own domain, in ascending order. -/
structure GroupsFolders (cm : CaseMap) (config : ClassifierConfig) (folders : List Str)
    (domains : Dict Str (List Str)) : Prop where
  /-- The domains are the configured ones. -/
  domains_iff : ∀ domain, domain ∈ domains.keys ↔ domain ∈ config.domainOrder
  /-- The list of a domain has each of its folders once, and no other folder. -/
  once : ∀ domain list, domains.get? domain = some list → ∀ folder, list.count folder =
    if folder ∈ folders ∧ classifyFolder cm config folder = domain then 1 else 0
  /-- The domain of a folder has a list. -/
  own : ∀ folder ∈ folders, classifyFolder cm config folder ∈ domains.keys
  /-- The lists together are the folders. -/
  all : domains.values.flatten.Perm folders
  /-- Each list is ascending. -/
  ascending : ∀ list ∈ domains.values, list.Pairwise (· ≤ ·)

/-- Sorting keeps the names. -/
lemma perm_sortNames (l : List Str) : (sortNames l).Perm l := List.perm_insertionSort _ _

/-- Sorted names are in order. -/
lemma pairwise_sortNames (l : List Str) : (sortNames l).Pairwise (· ≤ ·) :=
  List.pairwise_insertionSort _ _

section Partition

variable {cm : CaseMap} {config : ClassifierConfig}

/-- The lists before the first folder is assigned. -/
lemma get?_emptyDomains (order : List Str) (domain : Str) :
    (Dict.ofList (order.map fun domain => (domain, ([] : List Str)))).get? domain =
      if domain ∈ order then some [] else none := by
  split_ifs with h
  · have hkey : domain ∈
        (Dict.ofList (order.map fun domain => (domain, ([] : List Str)))).keys := by
      rw [Dict.mem_keys_ofList, List.map_map]
      exact List.mem_map.mpr ⟨domain, h, rfl⟩
    obtain ⟨list, hlist⟩ := Dict.mem_keys_iff.mp hkey
    obtain ⟨_, -, heq⟩ := List.mem_map.mp (Dict.mem_of_get?_ofList hlist)
    rw [hlist, ← (Prod.mk.inj heq).2]
  · rw [Option.eq_none_iff_forall_not_mem]
    intro list hlist
    obtain ⟨_, hmem, heq⟩ := List.mem_map.mp (Dict.mem_of_get?_ofList hlist)
    exact h ((Prod.mk.inj heq).1 ▸ hmem)

/-- The map begins with all domains of the classifier. -/
lemma mem_keys_emptyDomains {order : List Str} {domain : Str} :
    domain ∈ (Dict.ofList (order.map fun domain => (domain, ([] : List Str)))).keys ↔
      domain ∈ order := by
  rw [Dict.mem_keys_iff, get?_emptyDomains]
  split_ifs with h
  · simp [h]
  · simp [h]

/-- The sorted lists of the loop hold each folder once. -/
lemma groupsFolders_of_fill {folders : List Str} (hnodup : folders.Nodup)
    (hdomains : ∀ folder ∈ folders, classifyFolder cm config folder ∈ config.domainOrder) :
    ∃ grouped, groupDomains cm config folders = .ok grouped ∧
      GroupsFolders cm config folders (grouped.mapValues sortNames) := by
  obtain ⟨grouped, hfill, hkeys, hget⟩ := Fibers.fill_eq_ok (classifyFolder cm config)
    fun folder hfolder => mem_keys_emptyDomains.mpr (hdomains folder hfolder)
  have hfiber : ∀ domain list, grouped.get? domain = some list →
      list = Fibers.fiber (classifyFolder cm config) folders domain := by
    intro domain list hlist
    rw [hget, get?_emptyDomains] at hlist
    split_ifs at hlist
    · simpa using hlist.symm
    · cases hlist
  have hitems : grouped.values = grouped.keys.map
      (Fibers.fiber (classifyFolder cm config) folders) := by
    unfold Dict.values Dict.keys
    rw [List.map_map]
    exact List.map_congr_left fun entry hentry => hfiber _ _ (Dict.mem_items_iff.mp hentry)
  have hmem : ∀ domain, domain ∈ grouped.keys ↔ domain ∈ config.domainOrder := by
    intro domain
    rw [hkeys, mem_keys_emptyDomains]
  refine ⟨grouped, hfill, ?_, ?_, ?_, ?_, ?_⟩
  · intro domain
    rw [Dict.keys_mapValues, hmem]
  · intro domain list hlist folder
    rw [Dict.get?_mapValues, Option.map_eq_some_iff] at hlist
    obtain ⟨unsorted, hunsorted, rfl⟩ := hlist
    rw [(perm_sortNames unsorted).count_eq, hfiber domain unsorted hunsorted,
      (Fibers.nodup_fiber hnodup domain).count]
    simp only [Fibers.mem_fiber]
  · intro folder hfolder
    rw [Dict.keys_mapValues, hmem]
    exact hdomains folder hfolder
  · have hcover : ∀ folder ∈ folders, classifyFolder cm config folder ∈ grouped.keys :=
      fun folder hfolder => (hmem _).mpr (hdomains folder hfolder)
    have hsorted : ((grouped.values.map sortNames).flatten).Perm grouped.values.flatten := by
      rw [← List.flatMap_def, ← List.flatMap_id]
      exact List.Perm.flatMap_left _ fun list _ => perm_sortNames list
    rw [Dict.values_mapValues]
    refine hsorted.trans ?_
    rw [hitems, ← List.flatMap_def]
    exact Fibers.perm_flatMap_fiber grouped.nodup hcover
  · rw [Dict.values_mapValues, List.forall_mem_map]
    exact fun list _ => pairwise_sortNames list

/-- A folder whose domain has no list ends the loop. -/
lemma groupDomains_eq_error {folders : List Str}
    (h : ¬ ∀ folder ∈ folders, classifyFolder cm config folder ∈ config.domainOrder) :
    ∃ folder ∈ folders, groupDomains cm config folders = .error (classifyFolder cm config folder) ∧
      classifyFolder cm config folder ∉ config.domainOrder := by
  simp only [← @mem_keys_emptyDomains config.domainOrder] at h
  obtain ⟨folder, hfolder, hfill, hnot⟩ := Fibers.fill_eq_error (classifyFolder cm config) h
  exact ⟨folder, hfolder, hfill, fun hmem => hnot (mem_keys_emptyDomains.mpr hmem)⟩

/-- The metadata of a platform, when the names of its root directories are read. -/
lemma fetchEnvironmentMetadata_of_showsNames {createFmsClient : Str → Except PyError FileServer}
    {envName : Str} {client : FileServer} (hclient : createFmsClient envName = .ok client)
    {active legacy : List Str} (hactive : ShowsNames active (client "/TP_export/".toList))
    (hlegacy : ShowsNames legacy (client "/TP_Legacy_Publications/".toList)) :
    fetchEnvironmentMetadata cm config createFmsClient envName =
      ((groupDomains cm config active).mapError .keyError).map
        (formatMetadata envName active legacy) := by
  unfold fetchEnvironmentMetadata
  rw [hclient]
  simp only [Except.mapError, bind, Except.bind, lsFms_of_showsNames hactive,
    lsFms_of_showsNames hlegacy]
  cases groupDomains cm config active with
  | error e => rfl
  | ok grouped => rfl

/-- **The overview of a platform.** When the server shows the names of both root directories, and
those of the active folders are distinct, the metadata cannot be made exactly when some folder has a
domain outside of the configured order. Otherwise they hold each active folder once, under its own
domain, in ascending lists, with the number of all of them; and the legacy folders in ascending
order.

**Proof sketch.** The lister reads all names. The loop over the active folders appends each of them
to the list of its domain, or ends when there is none. -/
theorem fetchEnvironmentMetadata_partitions {createFmsClient : Str → Except PyError FileServer}
    {envName : Str} {client : FileServer} (hclient : createFmsClient envName = .ok client)
    {active legacy : List Str} (hactive : ShowsNames active (client "/TP_export/".toList))
    (hlegacy : ShowsNames legacy (client "/TP_Legacy_Publications/".toList))
    (hnodup : active.Nodup) :
    ((∃ e, fetchEnvironmentMetadata cm config createFmsClient envName = .error e) ↔
      ∃ folder ∈ active, classifyFolder cm config folder ∉ config.domainOrder) ∧
    ∀ metadata, fetchEnvironmentMetadata cm config createFmsClient envName = .ok metadata →
      ∃ tpExport tpLegacy, metadata.rootDirectories = [tpExport, tpLegacy] ∧
        tpExport.name = "TP_export".toList ∧
        GroupsFolders cm config active tpExport.domains ∧
        tpExport.itemCount = tpExport.domains.values.flatten.length ∧
        tpLegacy.name = "TP_Legacy_Publications".toList ∧
        tpLegacy.folders.Perm legacy ∧ tpLegacy.folders.Pairwise (· ≤ ·) ∧
        tpLegacy.itemCount = tpLegacy.folders.length := by
  rw [fetchEnvironmentMetadata_of_showsNames hclient hactive hlegacy]
  by_cases hdomains : ∀ folder ∈ active, classifyFolder cm config folder ∈ config.domainOrder
  · obtain ⟨grouped, hgrouped, hgroups⟩ := groupsFolders_of_fill hnodup hdomains
    rw [hgrouped]
    constructor
    · apply iff_of_false
      · rintro ⟨e, he⟩
        cases he
      · rintro ⟨folder, hfolder, hnot⟩
        exact hnot (hdomains folder hfolder)
    · intro metadata hmetadata
      cases hmetadata
      exact ⟨_, _, rfl, rfl, hgroups, hgroups.all.length_eq.symm, rfl, perm_sortNames legacy,
        pairwise_sortNames legacy, (perm_sortNames legacy).length_eq.symm⟩
  · obtain ⟨folder, hfolder, hgrouped, hnot⟩ := groupDomains_eq_error hdomains
    rw [hgrouped]
    constructor
    · exact iff_of_true ⟨_, rfl⟩ ⟨folder, hfolder, hnot⟩
    · intro metadata hmetadata
      cases hmetadata

end Partition

/-! ## Two servers -/

/-- The listing of a directory that has only folders. -/
def folderPage (names : List (Segment '/')) : List (Except PyError (List RawItem)) :=
  [.ok (names.map folderItem)]

/-- A short directory of folders is shown on its page. -/
lemma showsNames_folderPage {names : List (Segment '/')} (h : names.length < pageSize) :
    ShowsNames (names.map Segment.text) (folderPage names) := by
  refine ⟨_, .last (by rwa [List.length_map]), ?_⟩
  rw [List.map_map, List.map_map]
  rfl

/-- Three domains, the last of which is the fallback. -/
def threeDomains : ClassifierConfig :=
  .ofYaml (Dict.ofList [
    ("Market".toList, Dict.ofList
      [("EnergyPrices_12.1.D".toList, ⟨"EnergyPrices_12.1.D_r3".toList⟩)]),
    ("Load".toList, Dict.ofList [
      ("ActualTotalLoad_6.1.A".toList, ⟨"ActualTotalLoad_6.1.A_r3".toList⟩),
      ("DayAheadTotalLoadForecast_6.1.B".toList, ⟨"DayAheadTotalLoadForecast_6.1.B_r3".toList⟩)]),
    ("OtherMarketInformation".toList, ∅)]) []

/-- The active folders of a platform: three publications, and one that is new. -/
def activeNames : List (Segment '/') :=
  ["NewPublication_r3", "DayAheadTotalLoadForecast_6.1.B_r3", "EnergyPrices_12.1.D_r3",
    "ActualTotalLoad_6.1.A_r3"].filterMap fun name => Segment.ofText? name.toList

/-- Its legacy folders. -/
def legacyNames : List (Segment '/') :=
  ["Load_r2", "Generation_r2"].filterMap fun name => Segment.ofText? name.toList

/-- The server of the platform. -/
def overviewServer : FileServer := fun path =>
  if path = "/TP_export/".toList then folderPage activeNames else folderPage legacyNames

/-- The folders are collected under their domains. Where the fallback domain is not in the order of
the domains, the new publication ends the collection. -/
theorem fetchEnvironmentMetadata_twoServers :
    (∃ metadata tpExport tpLegacy, fetchEnvironmentMetadata .ascii threeDomains
        (fun _ => .ok overviewServer) "IOP".toList = .ok metadata ∧
      metadata.rootDirectories = [tpExport, tpLegacy] ∧
      GroupsFolders .ascii threeDomains (activeNames.map Segment.text) tpExport.domains ∧
      tpLegacy.folders.Perm (legacyNames.map Segment.text)) ∧
    ∃ e, fetchEnvironmentMetadata .ascii (twoRules "ActualTotalLoad_6.1.A_r3".toList
      "DayAheadTotalLoadForecast_6.1.B_r3".toList) (fun _ => .ok overviewServer) "IOP".toList =
        .error e := by
  have hactive : ShowsNames (activeNames.map Segment.text) (overviewServer "/TP_export/".toList) :=
    showsNames_folderPage (by decide)
  have hlegacy : ShowsNames (legacyNames.map Segment.text)
      (overviewServer "/TP_Legacy_Publications/".toList) := showsNames_folderPage (by decide)
  constructor
  · obtain ⟨hraises, hmade⟩ := @fetchEnvironmentMetadata_partitions .ascii threeDomains
      (fun _ => .ok overviewServer) "IOP".toList _ rfl _ _ hactive hlegacy (by decide)
    cases hresult : fetchEnvironmentMetadata .ascii threeDomains (fun _ => .ok overviewServer)
        "IOP".toList with
    | error e =>
      obtain ⟨folder, hfolder, hnot⟩ := hraises.mp ⟨e, hresult⟩
      have hdomains : ∀ folder ∈ activeNames.map Segment.text,
          classifyFolder .ascii threeDomains folder ∈ threeDomains.domainOrder := by
        decide +kernel
      exact absurd (hdomains folder hfolder) hnot
    | ok metadata =>
      obtain ⟨tpExport, tpLegacy, hroots, -, hgroups, -, -, hperm, -⟩ := hmade metadata hresult
      exact ⟨metadata, tpExport, tpLegacy, rfl, hroots, hgroups, hperm⟩
  · exact (@fetchEnvironmentMetadata_partitions _ _ (fun _ => .ok overviewServer) _
      _ rfl _ _ hactive hlegacy (by decide)).1.mpr ⟨_, List.mem_cons_self, by decide +kernel⟩

end EntsoePipeline
