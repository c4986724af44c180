import EntsoePipeline.Landing.Checklist
import EntsoePipeline.Landing.ChecklistBuilder
import EntsoePipeline.Lib.LastWrite
import EntsoePipeline.Lib.Outcome

set_option relaxedAutoImplicit false
set_option autoImplicit false

/-!
# Which folders are prepared

The preparation job crawls the folders that the checklist selects, and the sync later takes the
folders that the checklist enables. A folder is selected by `True` or by a list that is not empty,
at two places of the checklist; it is enabled by every value but `False`, at all places.

## Main definitions

* `EntsoePipeline.extractActiveFoldersOf` — the enabled folders of a checklist with any values.
* `EntsoePipeline.selectFolders` — the selected folders of an environment.
* `EntsoePipeline.prepareLandingIngestion` — the crawls of the preparation job.
* `EntsoePipeline.SameSelection` — the crawled folders are the enabled ones.
* `EntsoePipeline.Chosen` — the condition on an enabled folder.

## Main results

* `EntsoePipeline.extractActiveFoldersOf_toYaml` — on plain checklists this is the extraction of the
  sync.
* `EntsoePipeline.extractActiveFoldersOf_ok_iff` — when the extraction raises.
* `EntsoePipeline.crawled_iff` — the crawled folders.
* `EntsoePipeline.sameSelection_iff` — when the two agree.
* `EntsoePipeline.not_sameSelection_null` — an empty value is enabled and not selected.
-/

namespace EntsoePipeline

open Py LastWrite Outcome

/-! ## The sync -/

/-- `value is not False`. -/
def Yaml.isEnabled : Yaml → Bool
  | .bool false => false
  | _ => true

/-- `value is True or (isinstance(value, list) and len(value) > 0)`. -/
def Yaml.isSelected : Yaml → Bool
  | .bool true => true
  | .list (_ :: _) => true
  | _ => false

/-- A selected value enables its folder. -/
lemma Yaml.isEnabled_of_isSelected {value : Yaml} (h : value.isSelected = true) :
    value.isEnabled = true := by
  cases value with
  | bool b =>
    cases b with
    | false => cases h
    | true => rfl
  | null | int | str | list | map => rfl

/-- `value.items()`. -/
def Node.items {ν : Type} : Node ν → Except ChecklistError (List (Str × ν))
  | .map entries => .ok entries.items
  | .other _ => .error .attributeError

/-- The root directories of an environment, whose name is matched up to letter case. -/
def rootsOfEnv (cm : CaseMap) (env : Str) (checklist : YamlChecklist) :
    Option (List ChecklistRoot) :=
  match checklist.keys.find? fun k => cm.upper k = cm.upper env with
  | some envKey => if envKey = [] then none else checklist.get? envKey
  | none => none

/-- Add the enabled entries of one group of folders. -/
def collectEnabled (active : Dict Str Yaml) (folders : List (Str × Yaml)) : Dict Str Yaml :=
  folders.foldl (fun active entry =>
    if entry.2.isEnabled then active.set entry.1 entry.2 else active) active

/-- Add the enabled entries of the domains. -/
def collectDomains : List (Str × Node Yaml) → Dict Str Yaml → Except ChecklistError (Dict Str Yaml)
  | [], active => .ok active
  | domain :: rest, active => do
    let folders ← domain.2.items
    collectDomains rest (collectEnabled active folders)

/-- Add the enabled entries of the root directories. -/
def collectRoots : List ChecklistRoot → Dict Str Yaml → Except ChecklistError (Dict Str Yaml)
  | [], active => .ok active
  | root :: rest, active => do
    let domains ← root.domains.items
    let active ← collectDomains domains active
    let folders ← root.folders.items
    collectRoots rest (collectEnabled active folders)

/-- The enabled folders of an environment by name, `extract_active_folders` on any values. -/
def extractActiveFoldersOf (cm : CaseMap) (env : Str) (checklist : YamlChecklist) :
    Except ChecklistError (Dict Str Yaml) :=
  match rootsOfEnv cm env checklist with
  | some roots => collectRoots roots ∅
  | none => .ok ∅

/-! ## The preparation job -/

/-- The names of the selected entries. -/
def selectedFolders (folders : List (Str × Yaml)) : List Str :=
  (folders.filter fun entry => entry.2.isSelected).map Prod.fst

/-- The folders of a domain. The names of a list are taken as they are. -/
def domainFolders : Node Yaml → List Str
  | .map entries => selectedFolders entries.items
  | .other (.list items) => items.filterMap fun item =>
      match item with
      | .str name => some name
      | _ => none
  | .other _ => []

/-- Keep the folders of a domain, if there are any. -/
def selectDomain (byDomain : Dict Str (List Str)) (domain : Str × Node Yaml) :
    Dict Str (List Str) :=
  if domainFolders domain.2 = [] then byDomain else byDomain.set domain.1 (domainFolders domain.2)

/-- The selected folders of the root directories: those of `TP_export` by domain, and those of
`TP_Legacy_Publications`. -/
def selectRoots : List ChecklistRoot → Dict Str (List Str) → List Str →
    Except ChecklistError (Dict Str (List Str) × List Str)
  | [], byDomain, legacy => .ok (byDomain, legacy)
  | root :: rest, byDomain, legacy =>
    if root.name = "TP_export".toList then do
      let domains ← root.domains.items
      selectRoots rest (domains.foldl selectDomain byDomain) legacy
    else if root.name = "TP_Legacy_Publications".toList then do
      let folders ← root.folders.items
      selectRoots rest byDomain (legacy ++ selectedFolders folders)
    else selectRoots rest byDomain legacy

/-- The selected folders of an environment. -/
def selectFolders (cm : CaseMap) (env : Str) (checklist : YamlChecklist) :
    Except ChecklistError (Dict Str (List Str) × List Str) :=
  match rootsOfEnv cm env checklist with
  | some roots => selectRoots roots ∅ []
  | none => .ok (∅, [])

section Prepare

variable (cm : CaseMap) (config : ClassifierConfig) (overview : Overview)

/-- The folder belongs to an archive: the crawl of the legacy publications leaves out the others. -/
def Archived (env folder : Str) : Prop :=
  ∃ archive ∈ legacyArchives, ∃ folders,
    getLegacyArchiveFolders cm overview config env archive = .ok folders ∧ folder ∈ folders

/-- The folders that the crawl of the legacy publications crawls, archive by archive. -/
def legacyCrawls (env : Str) (folders : List Str) : List Str :=
  legacyArchives.flatMap fun archive =>
    match getLegacyArchiveFolders cm overview config env archive with
    | .ok archiveFolders => folders.filter fun folder => folder ∈ archiveFolders
    | .error _ => []

/-- A crawl: the environment, the root directory and the folder. -/
abbrev Crawl := Str × Str × Str

/-- The crawls of an environment. -/
def crawlsOfEnv (checklist : YamlChecklist) (env : Str) : Except ChecklistError (List Crawl) :=
  (selectFolders cm env checklist).map fun selected =>
    (selected.1.values.flatten.map fun folder => (env, "TP_export".toList, folder)) ++
      (legacyCrawls cm config overview env selected.2).map fun folder =>
        (env, "TP_Legacy_Publications".toList, folder)

/-- The environments with an enabled folder. -/
def envsToPrepare (checklist : YamlChecklist) : List Str → Except ChecklistError (List Str)
  | [] => .ok []
  | env :: rest => do
    let active ← extractActiveFoldersOf cm env checklist
    let envs ← envsToPrepare checklist rest
    return if active.items = [] then envs else env :: envs

/-- The crawls of the preparation job. Without any enabled folder the active environment is
prepared. -/
def prepareLandingIngestion (activeEnv : Str) (checklist : YamlChecklist) :
    Except ChecklistError (List Crawl) := do
  let envs ← envsToPrepare cm checklist checklist.keys
  let crawls ← (if envs = [] then [activeEnv] else envs).mapM
    (crawlsOfEnv cm config overview checklist)
  return crawls.flatten

/-- The job crawls the folder. -/
def IsCrawled (activeEnv : Str) (checklist : YamlChecklist) (crawl : Crawl) : Prop :=
  ∃ crawls, prepareLandingIngestion cm config overview activeEnv checklist = .ok crawls ∧
    crawl ∈ crawls

end Prepare

/-! ## The two selections -/

/-- An entry for the folder stands in the root directory, and its value passes the test. -/
inductive ChecklistRoot.Lists (root : ChecklistRoot) (p : Yaml → Bool) (folder : Str) : Prop
  /-- Under a domain. -/
  | byDomain {domains : Dict Str (Node Yaml)} {domain : Str} {folders : Dict Str Yaml}
    {value : Yaml}
      (hdomains : root.domains = .map domains) (hdomain : domains.get? domain = some (.map folders))
      (hfolder : folders.get? folder = some value) (hvalue : p value = true) : Lists root p folder
  /-- Without a domain. -/
  | direct {folders : Dict Str Yaml} {value : Yaml} (hfolders : root.folders = .map folders)
      (hfolder : folders.get? folder = some value) (hvalue : p value = true) : Lists root p folder

/-- Everything in the root directory that is expected to be a mapping is one. -/
def ChecklistRoot.WellFormed (root : ChecklistRoot) : Prop :=
  (∃ domains, root.domains = .map domains ∧
    ∀ domain ∈ domains.items, ∃ folders, domain.2 = .map folders) ∧
  ∃ folders, root.folders = .map folders

section Selections

variable (cm : CaseMap) (config : ClassifierConfig) (overview : Overview)
    (checklist : YamlChecklist)

/-- The root directories that are read for an environment. -/
def rootsFor (env : Str) : List ChecklistRoot := (rootsOfEnv cm env checklist).getD []

/-- The checklist can be read for an environment. -/
def Readable (env : Str) : Prop := ∀ root ∈ rootsFor cm checklist env, root.WellFormed

/-- The sync treats the folder as active: the extraction does not raise, and the folder has an entry
that is not `False`. -/
def IsActive (crawl : Crawl) : Prop :=
  crawl.1 ∈ checklist.keys ∧ (∃ active, extractActiveFoldersOf cm crawl.1 checklist = .ok active) ∧
    ∃ root ∈ rootsFor cm checklist crawl.1, root.name = crawl.2.1 ∧
      root.Lists Yaml.isEnabled crawl.2.2

/-- The job crawls exactly the folders that the sync treats as active. -/
def SameSelection (activeEnv : Str) : Prop :=
  ∀ crawl, IsCrawled cm config overview activeEnv checklist crawl ↔ IsActive cm checklist crawl

/-- The selected folders of a domain, if there are any. -/
def selectedIn (domain : Node Yaml) : Option (List Str) :=
  if domainFolders domain = [] then none else some (domainFolders domain)

/-- The folders that a root directory selects under a domain of `TP_export`, if there are any. -/
def ChecklistRoot.selectedUnder (domain : Str) (root : ChecklistRoot) : Option (List Str) :=
  if root.name = "TP_export".toList then
    match root.domains with
    | .map domains => (domains.get? domain).bind selectedIn
    | .other _ => none
  else none

/-- The folder is `True` or has a list of files, under a domain of `TP_export` in the last root
directory that selects folders of the domain, or among the folders of `TP_Legacy_Publications`,
where it belongs to an archive. -/
def Chosen (env root folder : Str) : Prop :=
  (root = "TP_export".toList ∧ ∃ domain folders,
    lastWrite (ChecklistRoot.selectedUnder domain) (rootsFor cm checklist env) = some folders ∧
      folder ∈ folders) ∨
  (root = "TP_Legacy_Publications".toList ∧ Archived cm config overview env folder ∧
    ∃ rdir ∈ rootsFor cm checklist env, rdir.name = "TP_Legacy_Publications".toList ∧
      ∃ folders, rdir.folders = .map folders ∧ folder ∈ selectedFolders folders.items)

/-- The checklist can be read for every environment and every entry that is not `False` is chosen,
or the checklist cannot be read for some environment and has no such entry for the others. -/
def SelectionAgrees : Prop :=
  ((∀ env ∈ checklist.keys, Readable cm checklist env) ∧
    ∀ env ∈ checklist.keys, ∀ rdir ∈ rootsFor cm checklist env, ∀ folder,
      rdir.Lists Yaml.isEnabled folder → Chosen cm config overview checklist env rdir.name folder) ∨
  ((∃ env ∈ checklist.keys, ¬ Readable cm checklist env) ∧
    ∀ env ∈ checklist.keys, Readable cm checklist env → ∀ rdir ∈ rootsFor cm checklist env,
      ∀ folder, ¬ rdir.Lists Yaml.isEnabled folder)

end Selections

/-! ## What the sync reads -/

section Extraction

variable {folder : Str} {active active' : Dict Str Yaml}

/-- Only a map has entries. -/
lemma Node.items_eq_ok_iff {ν : Type} {node : Node ν} {entries : List (Str × ν)} :
    node.items = .ok entries ↔ ∃ d, node = .map d ∧ d.items = entries := by
  cases node with
  | map d => simp [Node.items]
  | other value => simp [Node.items]

/-- A group of folders adds the enabled ones. -/
lemma mem_keys_collectEnabled {folders : List (Str × Yaml)} :
    folder ∈ (collectEnabled active folders).keys ↔
      folder ∈ active.keys ∨ ∃ value, (folder, value) ∈ folders ∧ value.isEnabled = true := by
  unfold collectEnabled
  induction folders generalizing active with
  | nil => simp
  | cons entry folders ih =>
    obtain ⟨name, value⟩ := entry
    rw [List.foldl_cons, ih]
    by_cases hvalue : value.isEnabled = true
    · rw [if_pos hvalue, Dict.set, Dict.mem_keys_alter]
      simp only [List.mem_cons, Prod.mk.injEq]
      grind
    · rw [if_neg hvalue]
      simp only [List.mem_cons, Prod.mk.injEq]
      grind

/-- Domains can be collected when all of them are maps. -/
lemma collectDomains_ok_iff {domains : List (Str × Node Yaml)} :
    (∃ active', collectDomains domains active = .ok active') ↔
      ∀ domain ∈ domains, ∃ folders, domain.2 = .map folders := by
  induction domains generalizing active with
  | nil => simp [collectDomains]
  | cons domain domains ih =>
    rw [collectDomains, List.forall_mem_cons]
    simp only [bind_eq_ok_iff, Node.items_eq_ok_iff]
    constructor
    · rintro ⟨active', -, ⟨group, hgroup, rfl⟩, hrest⟩
      exact ⟨⟨group, hgroup⟩, ih.mp ⟨active', hrest⟩⟩
    · rintro ⟨⟨group, hgroup⟩, hrest⟩
      obtain ⟨active', hactive⟩ := ih.mpr hrest
      exact ⟨active', _, ⟨group, hgroup, rfl⟩, hactive⟩

/-- The domains add the enabled folders of their groups. -/
lemma mem_keys_collectDomains {domains : List (Str × Node Yaml)}
    (h : collectDomains domains active = .ok active') :
    folder ∈ active'.keys ↔ folder ∈ active.keys ∨ ∃ domain ∈ domains, ∃ group value,
      domain.2 = .map group ∧ group.get? folder = some value ∧ value.isEnabled = true := by
  induction domains generalizing active with
  | nil =>
    cases h
    simp
  | cons domain domains ih =>
    rw [collectDomains] at h
    obtain ⟨entries, hitems, hrest⟩ := bind_eq_ok_iff.mp h
    obtain ⟨group, hgroup, rfl⟩ := Node.items_eq_ok_iff.mp hitems
    rw [ih hrest, mem_keys_collectEnabled, or_assoc, List.exists_mem_cons_iff]
    simp only [hgroup, Node.map.injEq, Dict.mem_items_iff, exists_and_left, exists_eq_left']

/-- Root directories can be collected when all of them are well formed. -/
lemma collectRoots_ok_iff {roots : List ChecklistRoot} :
    (∃ active', collectRoots roots active = .ok active') ↔ ∀ root ∈ roots, root.WellFormed := by
  induction roots generalizing active with
  | nil => simp [collectRoots]
  | cons root roots ih =>
    rw [collectRoots, List.forall_mem_cons]
    simp only [bind_eq_ok_iff, Node.items_eq_ok_iff]
    constructor
    · rintro ⟨active', -, ⟨domains, hdomains, rfl⟩, collected, hcollected, -,
        ⟨folders, hfolders, rfl⟩, hrest⟩
      exact ⟨⟨⟨domains, hdomains, collectDomains_ok_iff.mp ⟨collected, hcollected⟩⟩,
        folders, hfolders⟩, ih.mp ⟨active', hrest⟩⟩
    · rintro ⟨⟨⟨domains, hdomains, hgroups⟩, folders, hfolders⟩, hrest⟩
      obtain ⟨collected, hcollected⟩ := (@collectDomains_ok_iff active _).mpr hgroups
      obtain ⟨active', hactive⟩ := ih.mpr hrest
      exact ⟨active', _, ⟨domains, hdomains, rfl⟩, collected, hcollected, _,
        ⟨folders, hfolders, rfl⟩, hactive⟩

/-- The root directories add the folders they list with an enabled value. -/
lemma mem_keys_collectRoots {roots : List ChecklistRoot}
    (h : collectRoots roots active = .ok active') :
    folder ∈ active'.keys ↔
      folder ∈ active.keys ∨ ∃ root ∈ roots, root.Lists Yaml.isEnabled folder := by
  induction roots generalizing active with
  | nil =>
    cases h
    simp
  | cons root roots ih =>
    rw [collectRoots] at h
    obtain ⟨entries, hitems, h⟩ := bind_eq_ok_iff.mp h
    obtain ⟨domains, hdomains, rfl⟩ := Node.items_eq_ok_iff.mp hitems
    obtain ⟨collected, hcollected, h⟩ := bind_eq_ok_iff.mp h
    obtain ⟨entries', hitems', hrest⟩ := bind_eq_ok_iff.mp h
    obtain ⟨folders, hfolders, rfl⟩ := Node.items_eq_ok_iff.mp hitems'
    have hroot : root.Lists Yaml.isEnabled folder ↔
        (∃ domain ∈ domains.items, ∃ group value, domain.2 = .map group ∧
          group.get? folder = some value ∧ value.isEnabled = true) ∨
        ∃ value, (folder, value) ∈ folders.items ∧ value.isEnabled = true := by
      constructor
      · rintro (⟨hdomains', hdomain, hfolder, hvalue⟩ | ⟨hfolders', hfolder, hvalue⟩)
        · rw [hdomains, Node.map.injEq] at hdomains'
          subst hdomains'
          exact Or.inl ⟨_, Dict.mem_items_iff.mpr hdomain, _, _, rfl, hfolder, hvalue⟩
        · rw [hfolders, Node.map.injEq] at hfolders'
          subst hfolders'
          exact Or.inr ⟨_, Dict.mem_items_iff.mpr hfolder, hvalue⟩
      · rintro (⟨⟨domain, node⟩, hdomain, group, value, rfl, hfolder, hvalue⟩ |
          ⟨value, hfolder, hvalue⟩)
        · exact .byDomain hdomains (Dict.mem_items_iff.mp hdomain) hfolder hvalue
        · exact .direct hfolders (Dict.mem_items_iff.mp hfolder) hvalue
    rw [ih hrest, mem_keys_collectEnabled, mem_keys_collectDomains hcollected,
      List.exists_mem_cons_iff, hroot, or_assoc, or_assoc, or_assoc]

variable {cm : CaseMap} {checklist : YamlChecklist} {env : Str}

/-- **When the extraction raises.** The enabled folders of an environment can be extracted exactly
when everything that should be a mapping is one. -/
theorem extractActiveFoldersOf_ok_iff :
    (∃ active, extractActiveFoldersOf cm env checklist = .ok active) ↔
      Readable cm checklist env := by
  unfold extractActiveFoldersOf Readable rootsFor
  cases rootsOfEnv cm env checklist with
  | none => simp
  | some roots => exact collectRoots_ok_iff

/-- The extracted folders are those that a root directory lists with an enabled value. -/
lemma mem_keys_extractActiveFoldersOf {active : Dict Str Yaml}
    (h : extractActiveFoldersOf cm env checklist = .ok active) :
    folder ∈ active.keys ↔
      ∃ root ∈ rootsFor cm checklist env, root.Lists Yaml.isEnabled folder := by
  unfold extractActiveFoldersOf at h
  unfold rootsFor
  cases hroots : rootsOfEnv cm env checklist with
  | none =>
    rw [hroots] at h
    cases h
    simp
  | some roots =>
    rw [hroots] at h
    simpa using mem_keys_collectRoots h

/-- The extraction finds a folder when there is an enabled one. -/
lemma items_extractActiveFoldersOf_ne_nil_iff {cm : CaseMap} {env : Str}
    {checklist : YamlChecklist} (h : extractActiveFoldersOf cm env checklist = .ok active) :
    active.items ≠ [] ↔ ∃ rdir ∈ rootsFor cm checklist env, ∃ folder,
      rdir.Lists Yaml.isEnabled folder := by
  constructor
  · intro hne
    obtain ⟨entry, hentry⟩ := List.exists_mem_of_ne_nil _ hne
    obtain ⟨rdir, hrdir, hlists⟩ := (mem_keys_extractActiveFoldersOf h).mp
      (List.mem_map_of_mem hentry)
    exact ⟨rdir, hrdir, _, hlists⟩
  · rintro ⟨rdir, hrdir, folder, hlists⟩
    obtain ⟨entry, hentry, -⟩ := List.mem_map.mp
      ((mem_keys_extractActiveFoldersOf h).mpr ⟨rdir, hrdir, hlists⟩)
    exact List.ne_nil_of_mem hentry

end Extraction

/-! ## What the job crawls -/

section Crawls

variable {cm : CaseMap} {config : ClassifierConfig} {overview : Overview}
    {checklist : YamlChecklist}
  {env folder : Str}

/-- The selection of a domain comes before those of others. -/
lemma get?_selectDomain (byDomain : Dict Str (List Str)) (entry : Str × Node Yaml) (domain : Str) :
    (selectDomain byDomain entry).get? domain =
      (if entry.1 = domain then selectedIn entry.2 else none).or (byDomain.get? domain) := by
  unfold selectDomain selectedIn
  by_cases hnil : domainFolders entry.2 = []
  · rw [if_pos hnil, if_pos hnil, ite_self, Option.none_or]
  · rw [if_neg hnil, if_neg hnil]
    split_ifs with hdomain
    · rw [hdomain, Dict.get?_set_self, Option.some_or]
    · rw [Dict.get?_set_of_ne _ _ (Ne.symm hdomain), Option.none_or]

/-- The domains of a root directory are read one after the other, each key once. -/
lemma get?_foldl_selectDomain (domains : Dict Str (Node Yaml)) (byDomain : Dict Str (List Str))
    (domain : Str) :
    (domains.items.foldl selectDomain byDomain).get? domain =
      ((domains.get? domain).bind selectedIn).or (byDomain.get? domain) := by
  have hread := @read_foldl _ _ _ (fun entry : Str × Node Yaml =>
      if entry.1 = domain then selectedIn entry.2 else none) selectDomain
    (fun byDomain => byDomain.get? domain) domains.items
    (fun entry _ byDomain => get?_selectDomain byDomain entry domain) byDomain
  refine hread.trans ?_
  congr 1
  -- an entry that writes is the one of the domain
  have hwrites : ∀ entry ∈ domains.items, ∀ folders,
      (if entry.1 = domain then selectedIn entry.2 else none) = some folders →
        (domains.get? domain).bind selectedIn = some folders := by
    rintro ⟨name, node⟩ hentry folders hwrite
    split_ifs at hwrite with hdomain
    dsimp only at hdomain
    subst hdomain
    rw [Dict.mem_items_iff.mp hentry]
    exact hwrite
  cases hbind : (domains.get? domain).bind selectedIn with
  | none =>
    refine lastWrite_eq_none_iff.mpr fun entry hentry => ?_
    by_contra hne
    obtain ⟨folders, hwrite⟩ := Option.ne_none_iff_exists'.mp hne
    rw [hwrites entry hentry folders hwrite] at hbind
    cases hbind
  | some folders =>
    obtain ⟨node, hget, hnode⟩ := Option.bind_eq_some_iff.mp hbind
    refine lastWrite_eq_some_of_forall ⟨_, Dict.mem_items_iff.mpr hget, by simp [hnode]⟩ ?_
    intro entry hentry folders' hwrite
    rw [hwrites entry hentry folders' hwrite, Option.some.injEq] at hbind
    exact hbind

/-- The selected folders of readable root directories: by domain those of the last root directory
that selects any, and the legacy ones of all. -/
lemma selectRoots_spec {roots : List ChecklistRoot} (h : ∀ root ∈ roots, root.WellFormed)
    (byDomain : Dict Str (List Str)) (legacy : List Str) :
    ∃ selected, selectRoots roots byDomain legacy = .ok selected ∧
      (∀ domain, selected.1.get? domain =
        (lastWrite (ChecklistRoot.selectedUnder domain) roots).or (byDomain.get? domain)) ∧
      ∀ folder, folder ∈ selected.2 ↔ folder ∈ legacy ∨
        ∃ root ∈ roots, root.name = "TP_Legacy_Publications".toList ∧
          ∃ folders, root.folders = .map folders ∧ folder ∈ selectedFolders folders.items := by
  induction roots generalizing byDomain legacy with
  | nil => exact ⟨_, rfl, by simp⟩
  | cons root roots ih =>
    obtain ⟨⟨⟨domains, hdomains, -⟩, folders, hfolders⟩, hroots⟩ := List.forall_mem_cons.mp h
    rw [selectRoots]
    by_cases hactive : root.name = "TP_export".toList
    · have hother : root.name ≠ "TP_Legacy_Publications".toList := by
        rw [hactive]
        decide
      obtain ⟨selected, hselected, hget, hmem⟩ :=
        ih hroots (domains.items.foldl selectDomain byDomain) legacy
      refine ⟨selected, ?_, fun domain => ?_, fun folder => ?_⟩
      · rw [if_pos hactive, hdomains]
        exact hselected
      · have hunder : root.selectedUnder domain =
            (domains.get? domain).bind selectedIn := by
          rw [ChecklistRoot.selectedUnder, if_pos hactive, hdomains]
        rw [hget, get?_foldl_selectDomain, lastWrite_cons, hunder, Option.or_assoc]
      · rw [hmem, List.exists_mem_cons_iff]
        simp only [hother, false_and, false_or]
    · have hunder : ∀ domain, root.selectedUnder domain = none := fun domain => if_neg hactive
      by_cases hlegacy : root.name = "TP_Legacy_Publications".toList
      · obtain ⟨selected, hselected, hget, hmem⟩ :=
          ih hroots byDomain (legacy ++ selectedFolders folders.items)
        refine ⟨selected, ?_, fun domain => ?_, fun folder => ?_⟩
        · rw [if_neg hactive, if_pos hlegacy, hfolders]
          exact hselected
        · rw [hget, lastWrite_cons, hunder, Option.or_none]
        · rw [hmem, List.exists_mem_cons_iff, List.mem_append, or_assoc]
          simp only [hlegacy, hfolders, Node.map.injEq, true_and, exists_eq_left']
      · obtain ⟨selected, hselected, hget, hmem⟩ := ih hroots byDomain legacy
        refine ⟨selected, ?_, fun domain => ?_, fun folder => ?_⟩
        · rw [if_neg hactive, if_neg hlegacy]
          exact hselected
        · rw [hget, lastWrite_cons, hunder, Option.or_none]
        · rw [hmem, List.exists_mem_cons_iff]
          simp only [hlegacy, false_and, false_or]

/-- The crawled legacy folders are the requested ones that an archive has. -/
lemma mem_legacyCrawls {folders : List Str} :
    folder ∈ legacyCrawls cm config overview env folders ↔
      folder ∈ folders ∧ Archived cm config overview env folder := by
  unfold legacyCrawls Archived
  rw [List.mem_flatMap]
  constructor
  · rintro ⟨archive, harchive, hmem⟩
    cases hget : getLegacyArchiveFolders cm overview config env archive with
    | error e =>
      rw [hget] at hmem
      cases hmem
    | ok archiveFolders =>
      rw [hget, List.mem_filter, decide_eq_true_eq] at hmem
      exact ⟨hmem.1, archive, harchive, archiveFolders, hget, hmem.2⟩
  · rintro ⟨hmem, archive, harchive, archiveFolders, hget, hin⟩
    refine ⟨archive, harchive, ?_⟩
    rw [hget, List.mem_filter, decide_eq_true_eq]
    exact ⟨hmem, hin⟩

/-- The crawls of a readable environment are those of its chosen folders. -/
lemma crawlsOfEnv_spec (h : Readable cm checklist env) :
    ∃ crawls, crawlsOfEnv cm config overview checklist env = .ok crawls ∧
      ∀ crawl, crawl ∈ crawls ↔
        crawl.1 = env ∧ Chosen cm config overview checklist env crawl.2.1 crawl.2.2 := by
  obtain ⟨selected, hselected, hget, hmem⟩ := selectRoots_spec h ∅ []
  have hselect : selectFolders cm env checklist = .ok selected := by
    unfold selectFolders
    rw [← hselected, rootsFor]
    cases rootsOfEnv cm env checklist <;> rfl
  refine ⟨_, by rw [crawlsOfEnv, hselect]; rfl, ?_⟩
  rintro ⟨env', root, folder⟩
  have hdomain : folder ∈ selected.1.values.flatten ↔ ∃ domain folders,
      lastWrite (ChecklistRoot.selectedUnder domain) (rootsFor cm checklist env) = some folders ∧
        folder ∈ folders := by
    simp only [List.mem_flatten, Dict.mem_values_iff, hget, Dict.get?_empty, Option.or_none]
    grind
  have hlegacy := hmem folder
  unfold Chosen
  simp only [List.mem_append, List.mem_map, Prod.mk.injEq, mem_legacyCrawls]
  constructor
  · rintro (⟨name, hname, rfl, rfl, rfl⟩ | ⟨name, ⟨hname, harchived⟩, rfl, rfl, rfl⟩)
    · exact ⟨rfl, Or.inl ⟨rfl, hdomain.mp hname⟩⟩
    · exact ⟨rfl, Or.inr ⟨rfl, harchived, (hlegacy.mp hname).resolve_left (by simp)⟩⟩
  · rintro ⟨rfl, ⟨rfl, hchosen⟩ | ⟨rfl, harchived, hchosen⟩⟩
    · exact Or.inl ⟨folder, hdomain.mpr hchosen, rfl, rfl, rfl⟩
    · exact Or.inr ⟨folder, ⟨hlegacy.mpr (Or.inr hchosen), harchived⟩, rfl, rfl, rfl⟩

/-- The crawls of readable environments are those of their chosen folders. -/
lemma mapM_crawlsOfEnv_spec {envs : List Str} (h : ∀ env ∈ envs, Readable cm checklist env) :
    ∃ crawls, envs.mapM (crawlsOfEnv cm config overview checklist) = .ok crawls ∧
      ∀ crawl, crawl ∈ crawls.flatten ↔ crawl.1 ∈ envs ∧
        Chosen cm config overview checklist crawl.1 crawl.2.1 crawl.2.2 := by
  induction envs with
  | nil => exact ⟨[], rfl, by simp⟩
  | cons env envs ih =>
    obtain ⟨henv, henvs⟩ := List.forall_mem_cons.mp h
    obtain ⟨crawls, hok, hmem⟩ := @crawlsOfEnv_spec cm config overview checklist env henv
    obtain ⟨rest, hrest, hmemRest⟩ := ih henvs
    refine ⟨crawls :: rest, ?_, fun crawl => ?_⟩
    · rw [mapM_eq_ok_iff] at hrest ⊢
      exact .cons hok hrest
    · rw [List.flatten_cons, List.mem_append, hmem, hmemRest, List.mem_cons, or_and_right]
      refine or_congr_left (and_congr_right ?_)
      rintro rfl
      rfl

/-- A chosen folder is enabled. -/
lemma exists_lists_of_chosen {root : Str} (h : Readable cm checklist env)
    (hchosen : Chosen cm config overview checklist env root folder) :
    ∃ rdir ∈ rootsFor cm checklist env, rdir.name = root ∧ rdir.Lists Yaml.isEnabled folder := by
  have hselected : ∀ entries : Dict Str Yaml, folder ∈ selectedFolders entries.items →
      ∃ value, entries.get? folder = some value ∧ value.isEnabled = true := by
    intro entries hmem
    obtain ⟨⟨name, value⟩, hentry, rfl⟩ := List.mem_map.mp hmem
    obtain ⟨hitem, hvalue⟩ := List.mem_filter.mp hentry
    exact ⟨value, Dict.mem_items_iff.mp hitem, Yaml.isEnabled_of_isSelected hvalue⟩
  rcases hchosen with ⟨rfl, domain, folders, hlast, hfolder⟩ |
    ⟨rfl, -, rdir, hrdir, hname, folders, hfolders, hfolder⟩
  · obtain ⟨rdir, hrdir, hunder⟩ := exists_of_lastWrite_eq_some hlast
    obtain ⟨⟨domains, hdomains, hgroups⟩, -⟩ := h rdir hrdir
    unfold ChecklistRoot.selectedUnder at hunder
    split_ifs at hunder with hname
    rw [hdomains] at hunder
    obtain ⟨node, hnode, hselectedIn⟩ := Option.bind_eq_some_iff.mp hunder
    unfold selectedIn at hselectedIn
    split_ifs at hselectedIn
    cases hselectedIn
    obtain ⟨group, hgroup⟩ := hgroups _ (Dict.mem_items_iff.mpr hnode)
    dsimp only at hgroup
    subst hgroup
    obtain ⟨value, hvalue, henabled⟩ := hselected group hfolder
    exact ⟨rdir, hrdir, hname, .byDomain hdomains hnode hvalue henabled⟩
  · obtain ⟨value, hvalue, henabled⟩ := hselected folders hfolder
    exact ⟨rdir, hrdir, hname, .direct hfolders hvalue henabled⟩

/-- The environments that are prepared are those with an enabled folder. -/
lemma envsToPrepare_spec {envs : List Str} :
    ((∃ prepared, envsToPrepare cm checklist envs = .ok prepared) ↔
      ∀ env ∈ envs, Readable cm checklist env) ∧
    ∀ prepared, envsToPrepare cm checklist envs = .ok prepared → ∀ env, env ∈ prepared ↔
      env ∈ envs ∧ ∃ rdir ∈ rootsFor cm checklist env, ∃ folder,
        rdir.Lists Yaml.isEnabled folder := by
  induction envs with
  | nil => simp [envsToPrepare]
  | cons env envs ih =>
    obtain ⟨hok, hmem⟩ := ih
    rw [envsToPrepare, List.forall_mem_cons, ← hok, ← extractActiveFoldersOf_ok_iff]
    simp only [bind_eq_ok_iff, pure, Except.pure, Except.ok.injEq]
    constructor
    · constructor
      · rintro ⟨-, active, hactive, prepared, hprepared, rfl⟩
        exact ⟨⟨active, hactive⟩, prepared, hprepared⟩
      · rintro ⟨⟨active, hactive⟩, prepared, hprepared⟩
        exact ⟨_, active, hactive, prepared, hprepared, rfl⟩
    · rintro - ⟨active, hactive, prepared, hprepared, rfl⟩ env'
      have hkeys := items_extractActiveFoldersOf_ne_nil_iff hactive
      rw [List.mem_cons, or_and_right, ← hmem prepared hprepared env']
      by_cases hnil : active.items = []
      · rw [if_pos hnil]
        constructor
        · exact Or.inr
        · rintro (⟨rfl, hlists⟩ | hin)
          · exact absurd hnil (hkeys.mpr hlists)
          · exact hin
      · rw [if_neg hnil, List.mem_cons]
        constructor
        · rintro (rfl | hin)
          · exact Or.inl ⟨rfl, hkeys.mp hnil⟩
          · exact Or.inr hin
        · rintro (⟨rfl, -⟩ | hin)
          · exact Or.inl rfl
          · exact Or.inr hin

end Crawls

/-! ## The two together -/

section Agreement

variable {cm : CaseMap} {config : ClassifierConfig} {overview : Overview}
    {checklist : YamlChecklist}

/-- The root directories that are read for an environment are those of one of the keys. -/
lemma rootsFor_eq (env : Str) : rootsFor cm checklist env = [] ∨
    ∃ envKey ∈ checklist.keys, rootsFor cm checklist env = rootsFor cm checklist envKey := by
  cases hfind : checklist.keys.find? fun k => cm.upper k = cm.upper env with
  | none =>
    refine Or.inl ?_
    rw [rootsFor, rootsOfEnv, hfind]
    rfl
  | some envKey =>
    have hupper : cm.upper envKey = cm.upper env := by simpa using List.find?_some hfind
    refine Or.inr ⟨envKey, List.mem_of_find?_eq_some hfind, ?_⟩
    rw [rootsFor, rootsFor, rootsOfEnv, rootsOfEnv, hupper]

/-- A checklist whose environments can be read can be read for every environment. -/
lemma readable_of_keys (h : ∀ env ∈ checklist.keys, Readable cm checklist env) (env : Str) :
    Readable cm checklist env := by
  intro root hroot
  rcases @rootsFor_eq cm checklist env with hnil | ⟨envKey, hkey, hsame⟩
  · rw [hnil] at hroot
    cases hroot
  · exact h envKey hkey root (hsame ▸ hroot)

/-- **The crawled folders.** When the checklist can be read for every environment, the job crawls
the chosen folders of its environments.

**Proof sketch.** An environment with a chosen folder has an enabled one, so it is prepared. Without
any enabled folder the active environment is prepared, which then has no chosen folder either. -/
theorem crawled_iff (hread : ∀ env ∈ checklist.keys, Readable cm checklist env) (activeEnv : Str)
    (crawl : Crawl) :
    IsCrawled cm config overview activeEnv checklist crawl ↔
      crawl.1 ∈ checklist.keys ∧
        Chosen cm config overview checklist crawl.1 crawl.2.1 crawl.2.2 := by
  have hspec := @envsToPrepare_spec cm checklist checklist.keys
  obtain ⟨prepared, hprepared⟩ := hspec.1.mpr hread
  have hmem := hspec.2 prepared hprepared
  obtain ⟨envs, henvs⟩ : ∃ envs, envs = if prepared = [] then [activeEnv] else prepared := ⟨_, rfl⟩
  -- a chosen folder is crawled for the environments of the list
  have hcrawls : IsCrawled cm config overview activeEnv checklist crawl ↔
      crawl.1 ∈ envs ∧ Chosen cm config overview checklist crawl.1 crawl.2.1 crawl.2.2 := by
    obtain ⟨crawls, hcrawls, hcrawl⟩ := @mapM_crawlsOfEnv_spec cm config overview checklist envs
      fun env _ => readable_of_keys hread env
    unfold IsCrawled prepareLandingIngestion
    rw [hprepared]
    simp only [bind, Except.bind, ← henvs, hcrawls, pure, Except.pure, Except.ok.injEq,
      exists_eq_left', hcrawl]
  rw [hcrawls]
  refine and_congr_left fun hchosen => ?_
  obtain ⟨rdir, hrdir, -, hlists⟩ := exists_lists_of_chosen (readable_of_keys hread _) hchosen
  by_cases hnil : prepared = []
  · rw [henvs, if_pos hnil, List.mem_singleton]
    have hnone : ∀ env ∈ checklist.keys, rootsFor cm checklist crawl.1 ≠
        rootsFor cm checklist env := by
      intro env henv hsame
      have hin := (hmem env).mpr ⟨henv, rdir, hsame ▸ hrdir, _, hlists⟩
      rw [hnil] at hin
      cases hin
    rcases @rootsFor_eq cm checklist crawl.1 with hroots | ⟨env, henv, hsame⟩
    · rw [hroots] at hrdir
      cases hrdir
    · exact absurd hsame (hnone env henv)
  · rw [henvs, if_neg hnil, hmem]
    exact ⟨fun h => h.1, fun h => ⟨h, rdir, hrdir, _, hlists⟩⟩

/-- When the checklist cannot be read for some environment, the job raises before it crawls. -/
lemma not_isCrawled_of_not_readable (h : ¬ ∀ env ∈ checklist.keys, Readable cm checklist env)
    (activeEnv : Str) (crawl : Crawl) :
    ¬ IsCrawled cm config overview activeEnv checklist crawl := by
  rintro ⟨crawls, hcrawls, -⟩
  obtain ⟨prepared, hprepared, -⟩ := bind_eq_ok_iff.mp hcrawls
  exact h (envsToPrepare_spec.1.mp ⟨prepared, hprepared⟩)

/-- **When preparation and sync select the same folders.** For every checklist, the job crawls
exactly the folders that the sync treats as active if and only if the checklist can be read and each
of its entries that is not `False` is chosen, or it cannot be read for some environment and has no
such entry for the others.

**Proof sketch.** A chosen folder is enabled (`exists_lists_of_chosen`), so the two differ in
enabled folders that are not chosen only. -/
theorem sameSelection_iff (cm : CaseMap) (config : ClassifierConfig) (overview : Overview)
    (checklist : YamlChecklist) (activeEnv : Str) :
    SameSelection cm config overview checklist activeEnv ↔
      SelectionAgrees cm config overview checklist := by
  have hactive : ∀ crawl, IsActive cm checklist crawl ↔ crawl.1 ∈ checklist.keys ∧
      Readable cm checklist crawl.1 ∧ ∃ root ∈ rootsFor cm checklist crawl.1,
        root.name = crawl.2.1 ∧ root.Lists Yaml.isEnabled crawl.2.2 := by
    intro crawl
    rw [IsActive, extractActiveFoldersOf_ok_iff]
  unfold SameSelection SelectionAgrees
  by_cases hread : ∀ env ∈ checklist.keys, Readable cm checklist env
  · have hsome : ¬ ∃ env ∈ checklist.keys, ¬ Readable cm checklist env := by
      rintro ⟨env, henv, hnot⟩
      exact hnot (hread env henv)
    rw [or_iff_left fun h => hsome h.1, and_iff_right hread]
    constructor
    · intro hsame env henv rdir hrdir folder hlists
      have hcrawled := (hsame (env, rdir.name, folder)).mpr
        ((hactive _).mpr ⟨henv, hread env henv, rdir, hrdir, rfl, hlists⟩)
      exact ((crawled_iff hread activeEnv _).mp hcrawled).2
    · rintro hchosen ⟨env, root, folder⟩
      rw [crawled_iff hread, hactive]
      constructor
      · rintro ⟨henv, h⟩
        exact ⟨henv, hread env henv, exists_lists_of_chosen (hread env henv) h⟩
      · rintro ⟨henv, -, rdir, hrdir, rfl, hlists⟩
        exact ⟨henv, hchosen env henv rdir hrdir folder hlists⟩
  · have hsome : ∃ env ∈ checklist.keys, ¬ Readable cm checklist env := by
      simpa using hread
    rw [or_iff_right fun h => hread h.1, and_iff_right hsome]
    constructor
    · intro hsame env henv henvRead rdir hrdir folder hlists
      have hcrawled := (hsame (env, rdir.name, folder)).mpr
        ((hactive _).mpr ⟨henv, henvRead, rdir, hrdir, rfl, hlists⟩)
      exact not_isCrawled_of_not_readable hread activeEnv _ hcrawled
    · rintro hnone ⟨env, root, folder⟩
      refine iff_of_false (not_isCrawled_of_not_readable hread activeEnv _) ?_
      rw [hactive]
      rintro ⟨henv, henvRead, rdir, hrdir, -, hlists⟩
      exact hnone env henv henvRead rdir hrdir folder hlists

end Agreement

/-! ## Plain checklists -/

section Plain

/-- The YAML value of an entry. -/
def EntryValue.toYaml : EntryValue → Yaml
  | .bool b => .bool b
  | .files names => .list (names.map .str)
  | .null => .null

/-- A root directory with its YAML values. -/
def RootDirectory.toYaml (rdir : RootDirectory) : ChecklistRoot where
  name := rdir.name
  domains := .map (rdir.domains.mapValues fun folders => .map (folders.mapValues EntryValue.toYaml))
  folders := .map (rdir.folders.mapValues EntryValue.toYaml)

/-- A checklist with its YAML values. -/
def Checklist.toYaml (checklist : Checklist) : YamlChecklist :=
  checklist.mapValues (List.map RootDirectory.toYaml)

/-- The root directories of a checklist are found in its text form. -/
lemma rootsOfEnv_toYaml (cm : CaseMap) (env : Str) (checklist : Checklist) :
    rootsOfEnv cm env (Checklist.toYaml checklist) =
      (envData cm env checklist).map (List.map RootDirectory.toYaml) := by
  unfold rootsOfEnv envData Checklist.toYaml
  rw [Dict.keys_mapValues]
  cases checklist.keys.find? fun k => cm.upper k = cm.upper env with
  | none => rfl
  | some envKey =>
    dsimp only
    split_ifs
    · rfl
    · exact Dict.get?_mapValues _ _ _

/-- The enabled folders of a group are the same in the text form. -/
lemma collectEnabled_toYaml (active folders : Dict Str EntryValue) :
    collectEnabled (active.mapValues EntryValue.toYaml)
        (folders.mapValues EntryValue.toYaml).items =
      (collectFolders active folders).mapValues EntryValue.toYaml := by
  unfold collectEnabled collectFolders
  rw [Dict.items_mapValues]
  generalize folders.items = entries
  induction entries generalizing active with
  | nil => rfl
  | cons entry entries ih =>
    have henabled : entry.2.toYaml.isEnabled = true ↔ entry.2 ≠ .bool false := by
      rcases entry.2 with (_ | _) | _ | _ <;> simp [EntryValue.toYaml, Yaml.isEnabled]
    rw [List.map_cons, List.foldl_cons, List.foldl_cons, ← ih]
    by_cases hval : entry.2 ≠ .bool false
    · rw [if_pos hval, if_pos (henabled.mpr hval), Dict.mapValues_set]
    · rw [if_neg hval, if_neg (mt henabled.mp hval)]

/-- The enabled folders of domains are the same in the text form. -/
lemma collectDomains_toYaml (active : Dict Str EntryValue)
    (domains : List (Str × Dict Str EntryValue)) :
    collectDomains (domains.map fun domain =>
        (domain.1, .map (domain.2.mapValues EntryValue.toYaml)))
        (active.mapValues EntryValue.toYaml) =
      .ok (((domains.map Prod.snd).foldl collectFolders active).mapValues EntryValue.toYaml) := by
  induction domains generalizing active with
  | nil => rfl
  | cons domain domains ih =>
    rw [List.map_cons, List.map_cons, List.foldl_cons, collectDomains, ← ih,
      ← collectEnabled_toYaml]
    rfl

/-- **Plain checklists.** On a checklist of plain values the extraction does not raise and gives the
enabled folders of the sync. -/
theorem extractActiveFoldersOf_toYaml (cm : CaseMap) (env : Str) (checklist : Checklist) :
    extractActiveFoldersOf cm env (Checklist.toYaml checklist) =
      .ok ((extractActiveFolders cm env checklist).mapValues EntryValue.toYaml) := by
  have hroots : ∀ (rootDirs : List RootDirectory) (active : Dict Str EntryValue),
      collectRoots (rootDirs.map RootDirectory.toYaml) (active.mapValues EntryValue.toYaml) =
        .ok ((rootDirs.foldl (fun active rdir =>
          collectFolders (rdir.domains.values.foldl collectFolders active) rdir.folders)
            active).mapValues EntryValue.toYaml) := by
    intro rootDirs
    induction rootDirs with
    | nil => exact fun _ => rfl
    | cons rdir rootDirs ih =>
      intro active
      rw [List.map_cons, List.foldl_cons, collectRoots, ← ih, ← collectEnabled_toYaml]
      have hdomains := collectDomains_toYaml active rdir.domains.items
      unfold RootDirectory.toYaml
      dsimp only [Node.items]
      rw [Dict.items_mapValues]
      simp only [bind, Except.bind, hdomains]
      rfl
  unfold extractActiveFoldersOf extractActiveFolders
  rw [rootsOfEnv_toYaml]
  cases envData cm env checklist with
  | none => rfl
  | some rootDirs => exact hroots rootDirs ∅

end Plain

/-! ## Built checklists -/

section Built

variable {cm : CaseMap}

/-- A checklist that is built can be read. -/
lemma wellFormed_of_buildDomainsConfig {overview : Overview} {target : Option Str}
    {domainValue : Bool → Str → Str → Yaml} {folderValue : Bool → Str → Yaml} (env : Str) :
    Readable cm (buildDomainsConfig cm overview target domainValue folderValue) env := by
  intro root hroot
  obtain ⟨roots, hroots⟩ : ∃ roots, rootsOfEnv cm env
      (buildDomainsConfig cm overview target domainValue folderValue) = some roots := by
    rw [← Option.isSome_iff_exists]
    by_contra hnone
    rw [Option.not_isSome_iff_eq_none] at hnone
    rw [rootsFor, hnone] at hroot
    cases hroot
  rw [rootsFor, hroots, Option.getD_some] at hroot
  unfold rootsOfEnv at hroots
  split at hroots
  · split_ifs at hroots
    obtain ⟨entry, -, heq⟩ := List.mem_map.mp (Dict.mem_of_get?_ofList hroots)
    obtain ⟨-, rfl⟩ := Prod.mk.inj heq
    obtain ⟨source, -, rfl⟩ := List.mem_map.mp hroot
    refine ⟨⟨_, rfl, fun domain hdomain => ?_⟩, _, rfl⟩
    obtain ⟨name, node⟩ := domain
    obtain ⟨group, -, heq⟩ := List.mem_map.mp
      (Dict.mem_of_get?_ofList (Dict.mem_items_iff.mp hdomain))
    obtain ⟨-, rfl⟩ := Prod.mk.inj heq
    exact ⟨_, rfl⟩
  · cases hroots

/-- **Short forms.** The checklist of a short form can be read for every environment, whatever
values the user gave. -/
theorem readable_of_buildDomainsChecklist {template : Template} {overviewData : Option Overview}
    {checklist : YamlChecklist} (hshort : ∀ whole, template ≠ .environments whole)
    (h : buildDomainsChecklist cm template overviewData = .ok checklist) (env : Str) :
    Readable cm checklist env := by
  unfold buildDomainsChecklist at h
  split at h
  · exact absurd rfl (hshort _)
  · split at h
    · cases h
    · split at h
      · exact absurd rfl (hshort _)
      · cases h
        exact wellFormed_of_buildDomainsConfig env
      · cases h
        exact wellFormed_of_buildDomainsConfig env
      · cases h
        exact wellFormed_of_buildDomainsConfig env
      · cases h

end Built

/-! ### An empty value -/

/-- An overview with one folder. -/
def oneFolderOverview : Overview :=
  Dict.ofList [("IOP".toList, [⟨"TP_export".toList,
    Dict.ofList [("Load".toList, ["ActualTotalLoad_6.1.A_r3".toList])], []⟩])]

/-- A selection that lists a folder with an empty value. -/
def emptyValueTemplate : Template :=
  .selectedDomains (.map [("Load".toList,
    .list [.map [("ActualTotalLoad_6.1.A_r3".toList, .null)]])]) none

/-- A folder with an empty value is not crawled, and the sync treats it as active. -/
theorem not_sameSelection_null : ¬ ∀ template overviewData checklist,
    buildDomainsChecklist .ascii template overviewData = .ok checklist →
      SameSelection .ascii (.ofYaml ∅ []) oneFolderOverview checklist "IOP".toList := by
  intro hall
  have hsame := hall emptyValueTemplate (some oneFolderOverview) _ rfl
    ("IOP".toList, "TP_export".toList, "ActualTotalLoad_6.1.A_r3".toList)
  obtain ⟨crawls, hcrawls, hmem⟩ := hsame.mpr ⟨List.mem_singleton_self _, ⟨_, rfl⟩, _,
    List.mem_singleton_self _, rfl,
    @ChecklistRoot.Lists.byDomain _ _ _ _ "Load".toList _ .null rfl rfl rfl rfl⟩
  cases hcrawls
  cases hmem

end EntsoePipeline
