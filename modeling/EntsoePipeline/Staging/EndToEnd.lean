import EntsoePipeline.Landing.GatewayCoverage
import EntsoePipeline.Landing.Paths
import EntsoePipeline.Landing.SyncCoverage
import EntsoePipeline.Staging.Cycle

set_option relaxedAutoImplicit false
set_option autoImplicit false

/-!
# From the catalog to the lakehouse

A folder row of the catalog becomes a path of the landing schema, the path is mapped to a listing of
the file server when the checklist enables the folder, the listed files are stored below the path,
and the gateway reads the contract off their keys. A cycle without failures takes a listed file
through all of these.

## Main definitions

* `EntsoePipeline.PlainCatalog` — a catalog as the crawlers write it.
* `EntsoePipeline.FirstEnabled` — no other enabled folder takes the path of a folder.

## Main results

* `EntsoePipeline.exists_landingPaths` — the landing schema of a plain catalog.
* `EntsoePipeline.mem_jobSources_of_row` — a listed file of a catalogued folder is a file of the
  job.
* `EntsoePipeline.contractOf_of_exact` — the contract of its key.
* `EntsoePipeline.integrated_of_catalogued` — the file reaches the lakehouse.
-/

namespace EntsoePipeline

open Py

/-! ## The landing schema of a catalog -/

/-- A catalog whose folder rows have an environment, a domain and a path `/<root>/<folder>/` that
are made of names. -/
def PlainCatalog (cm : CaseMap) (cat : Catalog) : Prop :=
  ∀ key row, cat.folders.get? key = some row → ∃ env root domain folder : Segment '/',
    cm.lower key.environment = env.text ∧ row.domain = domain.text ∧
      key.folderPath = folderPath root.text folder.text

/-- The landing path of a folder row. -/
lemma layoutFolder_eq_text {cm : CaseMap} {environment : Str} {env root domain folder : Segment '/'}
    (henv : cm.lower environment = env.text) :
    layoutFolder cm environment domain.text (folderPath root.text folder.text) =
      some (LandingPath.text ⟨env, root, domain, folder⟩,
        ⟨env.text, domain.text, folder.text⟩) := by
  rw [layoutFolder_folderPath, henv]
  rfl

/-- The landing schema of a plain catalog has distinct paths of four segments. -/
lemma exists_landingPaths {cm : CaseMap} {cat : Catalog} (h : PlainCatalog cm cat) :
    ∃ paths : List LandingPath,
      (buildLandingBucketSchema cm cat ∅).keys = paths.map LandingPath.text ∧ paths.Nodup := by
  have hrange : (buildLandingBucketSchema cm cat ∅).keys ∈
      Set.range (List.map LandingPath.text) := by
    rw [Set.range_list_map]
    intro path hpath
    obtain ⟨key, row, landing, hrow, hlayout⟩ := mem_keys_buildLandingBucketSchema hpath (by simp)
    obtain ⟨env, root, domain, folder, henv, hdomain, hfolder⟩ := h key row hrow
    rw [hdomain, hfolder, layoutFolder_eq_text henv] at hlayout
    cases hlayout
    exact ⟨_, rfl⟩
  obtain ⟨paths, hpaths⟩ := hrange
  refine ⟨paths, hpaths.symm, List.Nodup.of_map LandingPath.text ?_⟩
  rw [hpaths]
  exact (buildLandingBucketSchema cm cat ∅).nodup

/-! ## The files of a folder -/

section Folder

variable {β : Type*} {cfg : SyncConfig β} {paths : List LandingPath}
  {server : ℕ → Str → Except PyError (List RawItem)} {envName : Str}

/-- No folder that is enabled before this one is a segment of the path in front of it. -/
def FirstEnabled (cfg : SyncConfig β) (envName : Str) (path : LandingPath) : Prop :=
  ∀ name ∈ (foldersOf cfg envName).keys.takeWhile (· ≠ path.folder.text),
    name ≠ path.env.text ∧ name ≠ path.root.text ∧ name ≠ path.domain.text

/-- The mapping of the path of an enabled folder that comes first carries the folder. -/
lemma exists_mapping_of_firstEnabled {path : LandingPath}
    (henv : path.env.text = cfg.cm.lower envName)
    {val : EntryValue} (hactive : (foldersOf cfg envName).get? path.folder.text = some val)
    (hfirst : FirstEnabled cfg envName path) :
    path.mapping cfg.cm envName (foldersOf cfg envName) = some ⟨path.text, path.folder.text,
      path.root.text, join ['/'] [path.domain.text, path.folder.text], val⟩ := by
  have hkey : path.folder.text ∈ (foldersOf cfg envName).keys :=
    Dict.mem_keys_iff.mpr ⟨val, hactive⟩
  have hsegment : path.folder.text ∈ path.segments := by simp [LandingPath.segments]
  obtain ⟨val', hfind⟩ := (find?_items_segment_iff hkey hsegment).mpr <| by
    intro name hname
    have hne : name ≠ path.folder.text := by simpa using List.mem_takeWhile_imp hname
    obtain ⟨henv, hroot, hdomain⟩ := hfirst name hname
    simp [LandingPath.segments, henv, hroot, hdomain, hne]
  have hval := Dict.mem_items_iff.mp (List.mem_of_find?_eq_some hfind)
  rw [hactive, Option.some.injEq] at hval
  rw [LandingPath.mapping, if_pos henv, hfind, hval]
  rfl

/-- A `.csv` file that is listed for a mapping, and that its value keeps, is selected. -/
lemma mem_selectedFiles {server : Str → Except PyError (List RawItem)} {mapping : Mapping}
    {items : List RawItem} (hlisted : server (listingOf mapping).path = .ok items)
    (honly : (listingOf mapping).only = none) {item : RawItem} (hitem : item ∈ items)
    (hcsv : endsWith item.itemName ".csv".toList = true)
    (hkeeps : mapping.val.Keeps item.itemName) :
    item ∈ selectedFiles server mapping := by
  have hfiltered : item ∈ items.filter fun f => endsWith f.itemName ".csv".toList :=
    List.mem_filter.mpr ⟨hitem, hcsv⟩
  unfold selectedFiles selectFilesToSync
  rw [hlisted, honly]
  simp only [bind, Except.bind, pure, Except.pure]
  cases hval : mapping.val with
  | bool b => exact hfiltered
  | null => exact hfiltered
  | files names =>
    rw [hval] at hkeeps
    dsimp only
    split_ifs with hnames
    · exact hfiltered
    · exact List.mem_filter.mpr ⟨hfiltered, by simpa [hnames] using hkeeps.resolve_left hnames⟩

/-- A selected file of a mapping of an environment is a file of the job. -/
lemma mem_jobSources {envs : List Str} {position : ℕ} (henv : envs[position]? = some envName)
    {mapping : Mapping} (hmapping : mapping ∈ envMappings cfg paths envName) (index : ℕ)
    {file : RawItem} (hfile : file ∈ selectedFiles (server (index + position)) mapping) :
    (mapping, file) ∈ jobSources cfg paths server index envs := by
  induction envs generalizing index position with
  | nil => cases henv
  | cons first envs ih =>
    rw [jobSources, List.mem_append]
    cases position with
    | zero =>
      obtain rfl : first = envName := by simpa using henv
      exact Or.inl (List.mem_flatMap.mpr ⟨mapping, hmapping, List.mem_map_of_mem hfile⟩)
    | succ position =>
      refine Or.inr (ih (by simpa using henv) (index + 1) ?_)
      rw [show index + 1 + position = index + (position + 1) by omega]
      exact hfile

end Folder

/-! ## The contract of a key -/

/-- A file below a landing path has the contract that is named like the folder, when the group of
the domain has one. -/
lemma contractOf_of_exact {config : ClassifierConfig} {path : LandingPath} {name : Str}
    (hname : name ≠ []) (hslash : '/' ∉ name) {group : DomainGroup}
    (hgroup : config.domains.get? path.domain.text = some group)
    (hexact : ∃ item ∈ group.values, item.fmsName = path.folder.text)
    (hbypass : path.folder.text ≠ giantBypassDomainContract) :
    contractOf config (path.text ++ '/' :: name) = some path.folder.text := by
  have hkey : path.text ++ '/' :: name =
      renderPath [path.env, path.root, path.domain, path.folder, ⟨name, hname, hslash⟩] :=
    (@join_concat '/' path.segments (by simp [LandingPath.segments]) name).symm
  have hsplit : split '/' (strip '/' (path.text ++ '/' :: name)) =
      path.env.text :: path.root.text :: path.domain.text :: path.folder.text :: [name] := by
    rw [hkey, strip_renderPath, split_renderPath (by simp)]
    rfl
  have hgate : gateRow config ⟨path.text ++ '/' :: name, [], 0⟩ =
      some ⟨path.text ++ '/' :: name, [], 0, path.domain.text, path.folder.text⟩ :=
    gateRow_eq_some_iff.mpr ⟨_, _, _, _, _, _, hsplit,
      .exact ⟨path.folder.ne_nil, group, hgroup, hexact⟩, ⟨path.folder.ne_nil, hbypass⟩, rfl⟩
  rw [contractOf, hgate]
  rfl

/-- The name of a `.csv` file is not empty. -/
lemma ne_nil_of_csv {name : Str} (h : endsWith name ".csv".toList = true) : name ≠ [] := by
  rintro rfl
  exact absurd h (by decide)

/-! ## The way of a file -/

section EndToEnd

variable {β τ ε : Type*} {cfg : SyncConfig β} {reader : IsoReader} {registered : List Str}
  {activeEnv : Str} {ingest : τ → Str → List IngestibleFile → WriteOutcome ε τ}
  {runs : Str → ContractRun} {config : ClassifierConfig} {cat : Catalog}
  {server : ℕ → Str → Except PyError (List RawItem)} {answers : ℕ → EnvAnswers β}
  {zone : LandingZone β} {lakehouse : τ} {ledger : List AttemptRow} {landed : IngestState β}
  {staged : JobState τ}

/-- A folder of the active root that the catalog has for the environment at a position of the job
and that the checklist enables with a value. -/
structure Catalogued (cfg : SyncConfig β) (cat : Catalog) (envName : Str) (path : LandingPath)
    (val : EntryValue) : Prop where
  /-- The environment. -/
  env : path.env.text = cfg.cm.lower envName
  /-- The root directory. -/
  root : path.root = RemoteRoot.active.segment
  /-- The folder row. -/
  row : ∃ key row, cat.folders.get? key = some row ∧ cfg.cm.lower key.environment = path.env.text ∧
    row.domain = path.domain.text ∧
    key.folderPath = folderPath path.root.text path.folder.text
  /-- The folder is no file of the root directory. -/
  directory : endsWithAny path.folder.text fmsExtensions = false
  /-- The checklist enables the folder. -/
  active : (foldersOf cfg envName).get? path.folder.text = some val
  /-- No other enabled folder takes its path. -/
  first : FirstEnabled cfg envName path

/-- The path of a catalogued folder is mapped to the listing of the folder, and its selected files
are files of the job. -/
lemma mem_jobSources_of_catalogued {paths : List LandingPath}
    (hpaths : (buildLandingBucketSchema cfg.cm cat ∅).keys = paths.map LandingPath.text)
    {envs : List Str} {position : ℕ} {envName : Str} (henv : envs[position]? = some envName)
    {path : LandingPath} {val : EntryValue} (h : Catalogued cfg cat envName path val)
    {items : List RawItem}
    (hlisted : server position (folderPath path.root.text path.folder.text) = .ok items)
    {item : RawItem} (hitem : item ∈ items)
    (hcsv : endsWith item.itemName ".csv".toList = true) (hkeeps : val.Keeps item.itemName) :
    ∃ mapping, mapping.schemaPath = path.text ∧
      (mapping, item) ∈ jobSources cfg paths server 0 envs := by
  obtain ⟨key, row, hrow, hlower, hdomain, hfolder⟩ := h.row
  have hmem : path ∈ paths := by
    have hlayout : layoutFolder cfg.cm key.environment row.domain key.folderPath =
        some (path.text, ⟨path.env.text, path.domain.text, path.folder.text⟩) := by
      rw [hdomain, hfolder, layoutFolder_eq_text hlower]
    have hkeys := @mem_keys_of_layoutFolder cfg.cm cat ∅ _ _ _ _ hrow hlayout
    rw [hpaths] at hkeys
    obtain ⟨path', hpath', htext⟩ := List.mem_map.mp hkeys
    exact LandingPath.text_injective htext ▸ hpath'
  have hmapping := exists_mapping_of_firstEnabled h.env h.active h.first
  set mapping : Mapping := ⟨path.text, path.folder.text, path.root.text,
    join ['/'] [path.domain.text, path.folder.text], val⟩ with hdef
  -- the listing of the mapping is that of the folder itself
  have htop : mapping.topLevelFolder = RemoteRoot.active.name := by
    rw [hdef, h.root, RemoteRoot.text_segment]
  have hlisting : listingOf mapping = ⟨folderPath path.root.text path.folder.text, none⟩ := by
    rw [(listingOf_active htop).mpr (rfl : mapping.activeFolder = path.folder.text), crawledListing,
      if_neg (by simp [h.directory]), h.root, RemoteRoot.text_segment]
  refine ⟨mapping, rfl, mem_jobSources henv (List.mem_filterMap.mpr ⟨path, hmem, hmapping⟩) 0 ?_⟩
  rw [Nat.zero_add]
  have hpath : server position (listingOf mapping).path = .ok items := by
    rw [hlisting]
    exact hlisted
  exact mem_selectedFiles hpath (by rw [hlisting]) hitem hcsv hkeeps

/-- A listed file of a landing path is stored and registered in its listed version, and integrated
under the contract that is named like its folder. -/
lemma integrated_of_source {paths : List LandingPath}
    (hpaths : cfg.schemaFolders = paths.map LandingPath.text) (hdistinct : paths.Nodup)
    (hnames : ∀ index path items, server index path = .ok items → UniqueNames items)
    (henvs : ((envsToSync cfg activeEnv).map cfg.cm.lower).Nodup)
    (hserved : ServedBy server answers)
    (h : CleanCycle cfg reader registered activeEnv ingest runs config answers zone lakehouse ledger
      landed staged) (hpast : Chronological ledger)
    (hlater : ∀ a ∈ ledger, ∀ n, a.ingestedAt < (runs n).ingestedAt) {path : LandingPath}
    {mapping : Mapping} (hmapping : mapping.schemaPath = path.text) {item : RawItem}
    (hentry : (mapping, item) ∈ jobSources cfg paths server 0 (envsToSync cfg activeEnv))
    (hid : item.itemId ≠ []) (hname : item.itemName ≠ []) (hslash : '/' ∉ item.itemName) :
    let s3Key := path.text ++ '/' :: item.itemName
    (∃ object, landed.zone.objects.get? s3Key = some object) ∧
    (∃ row, landed.zone.registry.get? s3Key = some row ∧
      row.xxhash = (itemVersion item).hash cfg.xxh) ∧
    ∀ group, config.domains.get? path.domain.text = some group →
      (∃ publication ∈ group.values, publication.fmsName = path.folder.text) →
      path.folder.text ≠ giantBypassDomainContract →
      contractOf config s3Key = some path.folder.text ∧
        IsIntegrated staged.ledger s3Key ((itemVersion item).hash cfg.xxh) := by
  intro s3Key
  have hkey : s3KeyOf mapping item = s3Key := s3KeyOf_eq_text hmapping item
  obtain ⟨⟨row, hget, hhash⟩, hobject⟩ :=
    h.synced hpaths hdistinct hnames henvs hserved _ hentry hid
  dsimp only at hget hobject
  rw [hkey] at hget hobject
  refine ⟨hobject, ⟨row, hget, hhash⟩, fun group hgroup hexact hbypass => ?_⟩
  have hcontract := contractOf_of_exact hname hslash hgroup hexact hbypass
  refine ⟨hcontract, ?_⟩
  rw [← hhash]
  exact h.integrated hpast hlater hget hcontract

/-- **From the catalog to the lakehouse.** Let the landing schema be the one that is built from a
plain catalog, and let a cycle have no failures. Consider a folder of the active root which the
catalog has for an environment of the job and which the checklist enables, such that no folder that
is enabled before it is named like its environment, its root directory or its domain. Then every
`.csv` file with an id that the file server lists in it, and that the value of the checklist keeps,
is stored and registered in its listed version under the key of environment, root, domain, folder
and name. When the domain has a publication named like the folder, and it is not the bypassed one,
the gateway puts the file under it, and the file is integrated in its listed version.

**Proof sketch.** The folder row gives a landing path, the path is mapped to the listing of the
folder, and the file is selected from it, so it is a file of the job. -/
theorem integrated_of_catalogued (hcat : PlainCatalog cfg.cm cat)
    (hschema : cfg.schemaFolders = (buildLandingBucketSchema cfg.cm cat ∅).keys)
    (hnames : ∀ index path items, server index path = .ok items → UniqueNames items)
    (henvs : ((envsToSync cfg activeEnv).map cfg.cm.lower).Nodup)
    (hserved : ServedBy server answers)
    (h : CleanCycle cfg reader registered activeEnv ingest runs config answers zone lakehouse ledger
      landed staged) (hpast : Chronological ledger)
    (hlater : ∀ a ∈ ledger, ∀ n, a.ingestedAt < (runs n).ingestedAt)
    {position : ℕ} {envName : Str} (henv : (envsToSync cfg activeEnv)[position]? = some envName)
    {path : LandingPath} {val : EntryValue} (hfolder : Catalogued cfg cat envName path val)
    {items : List RawItem}
    (hlisted : server position (folderPath path.root.text path.folder.text) = .ok items)
    {item : RawItem} (hitem : item ∈ items) (hid : item.itemId ≠ [])
    (hcsv : endsWith item.itemName ".csv".toList = true) (hkeeps : val.Keeps item.itemName) :
    let s3Key := path.text ++ '/' :: item.itemName
    (∃ object, landed.zone.objects.get? s3Key = some object) ∧
    (∃ row, landed.zone.registry.get? s3Key = some row ∧
      row.xxhash = (itemVersion item).hash cfg.xxh) ∧
    ∀ group, config.domains.get? path.domain.text = some group →
      (∃ publication ∈ group.values, publication.fmsName = path.folder.text) →
      path.folder.text ≠ giantBypassDomainContract →
      contractOf config s3Key = some path.folder.text ∧
        IsIntegrated staged.ledger s3Key ((itemVersion item).hash cfg.xxh) := by
  obtain ⟨paths, hpaths, hdistinct⟩ := exists_landingPaths hcat
  obtain ⟨mapping, hmapping, hentry⟩ :=
    mem_jobSources_of_catalogued hpaths henv hfolder hlisted hitem hcsv hkeeps
  exact integrated_of_source (hschema.trans hpaths) hdistinct hnames henvs hserved h hpast hlater
    hmapping hentry hid (ne_nil_of_csv hcsv) ((hnames _ _ _ hlisted).1 item hitem hid)

end EndToEnd

/-! ### A file of the production environment -/

/-- A catalog with the folder of a contract in each environment. -/
def cycleCatalog : Catalog :=
  ⟨Dict.ofList (["iop", "prod"].map fun env =>
    (⟨env.toList, "/TP_export/ActualTotalLoad_6.1.A_r3/".toList⟩,
      ⟨"Load".toList, 1, 9, 4, none⟩)), ∅⟩

/-- The path of the folder in the production environment. -/
def cycleFolder : LandingPath :=
  ⟨segmentOf "prod".toList, RemoteRoot.active.segment, segmentOf "Load".toList,
    segmentOf "ActualTotalLoad_6.1.A_r3".toList⟩

/-- The rows of the catalog have plain names. -/
lemma plainCatalog_cycleCatalog : PlainCatalog cycleSync.cm cycleCatalog := by
  intro key row hrow
  have hitems := Dict.mem_items_iff.mpr hrow
  have hrows : ∀ entry ∈ cycleCatalog.folders.items,
      (cycleSync.cm.lower entry.1.environment ≠ [] ∧ '/' ∉ cycleSync.cm.lower entry.1.environment) ∧
        entry.2.domain = "Load".toList ∧ entry.1.folderPath =
          folderPath "TP_export".toList "ActualTotalLoad_6.1.A_r3".toList := by
    decide
  obtain ⟨⟨hne, hslash⟩, hdomain, hfolder⟩ := hrows _ hitems
  exact ⟨⟨_, hne, hslash⟩, RemoteRoot.active.segment, cycleFolder.domain, cycleFolder.folder, rfl,
    hdomain, hfolder⟩

/-- The folder is catalogued and enabled. -/
lemma catalogued_cycleFolder :
    Catalogued cycleSync cycleCatalog "PROD".toList cycleFolder (.bool true) where
  env := by decide
  root := rfl
  row := ⟨⟨"prod".toList, "/TP_export/ActualTotalLoad_6.1.A_r3/".toList⟩,
    ⟨"Load".toList, 1, 9, 4, none⟩, by decide, by decide, by decide, by decide⟩
  directory := by decide
  active := by decide
  first := by unfold FirstEnabled; decide

/-- The file with an id that is listed in the folder is integrated under the contract of the
folder. -/
theorem integrated_of_catalogued_production :
    contractOf shippedClassifier "prod/TP_export/Load/ActualTotalLoad_6.1.A_r3/a.csv".toList =
        some "ActualTotalLoad_6.1.A_r3".toList ∧
      IsIntegrated cycleStaged.ledger
        "prod/TP_export/Load/ActualTotalLoad_6.1.A_r3/a.csv".toList
        ((itemVersion (loadItem "a.csv" "2026-04-15T12:00:00Z" "7")).hash id) := by
  have hposition : (envsToSync cycleSync "IOP".toList)[1]? = some "PROD".toList := by
    rw [envsToSync_cycleSync]
    rfl
  have hlisted : cycleServer (folderPath cycleFolder.root.text cycleFolder.folder.text) =
      .ok loadItems := by
    decide +kernel
  have hgroup : ∃ group, shippedClassifier.domains.get? cycleFolder.domain.text = some group ∧
      ∃ publication ∈ group.values, publication.fmsName = cycleFolder.folder.text :=
    ⟨_, rfl, by decide +kernel⟩
  obtain ⟨group, hget, hexact⟩ := hgroup
  exact (integrated_of_catalogued plainCatalog_cycleCatalog (by decide) uniqueNames_cycleServer
    (by rw [envsToSync_cycleSync]; decide) (fun _ _ => rfl) cleanCycle_first .nil
      (by simp) hposition
    catalogued_cycleFolder hlisted List.mem_cons_self (by decide) (by decide) trivial).2.2
      group hget
    hexact (by decide)

end EntsoePipeline
