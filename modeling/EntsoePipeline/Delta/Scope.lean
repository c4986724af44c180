import EntsoePipeline.Config.Classifier
import Mathlib.Data.List.Sort

set_option relaxedAutoImplicit false
set_option autoImplicit false

/-!
# The folders a refresh is about

The delta refresh and the full refresh take the same arguments and read the folders of an
environment from the same overview. The full refresh examines the folders of the selected domains,
unless the legacy archives are asked for alone, and outside of the test mode it examines the folders
of the legacy archives when these or everything is asked for. The delta refresh monitors the folders
of the selected domains, and for the legacy archives it selects every domain.

## Main definitions

* `EntsoePipeline.Overview` — the folders of the file server by environment.
* `EntsoePipeline.getDomainFolders`, `EntsoePipeline.getLegacyArchiveFolders` — the folders of a
  domain and of an archive.
* `EntsoePipeline.monitoredFolders`, `EntsoePipeline.examinedFolders` — the folders of the delta
  refresh and of the full refresh, each with its root directory.

## Main results

* `EntsoePipeline.sameScope_iff` — when the two are the same.

## Implementation notes

A missing environment or root directory raises in the first call that reads the overview. The full
refresh has then examined what it came to before; the delta refresh monitors nothing.
-/

namespace EntsoePipeline

open Py

/-! ## The overview -/

/-- A root directory of the overview. -/
structure OverviewRoot where
  /-- The name of the root directory. -/
  name : Str
  /-- The folders by domain. -/
  domains : Dict Str (List Str)
  /-- The folders that are listed without a domain. -/
  folders : List Str

/-- The root directories of each environment. -/
abbrev Overview := Dict Str (List OverviewRoot)

/-- Why the overview cannot be read. -/
inductive OverviewError
  /-- The environment is not in the overview. -/
  | environmentNotFound
  /-- The root directory is not in the environment. -/
  | rootNotFound
  deriving DecidableEq

section Overview

variable (cm : CaseMap) (overview : Overview)

/-- A root directory of an environment, whose name is matched up to letter case. -/
def overviewRoot (rootName env : Str) : Except OverviewError OverviewRoot :=
  match overview.keys.find? fun k => cm.upper k = cm.upper env with
  | none => .error .environmentNotFound
  | some envKey =>
    if envKey = [] then .error .environmentNotFound
    else match ((overview.get? envKey).getD []).find? fun d => d.name = rootName with
      | none => .error .rootNotFound
      | some root => .ok root

/-- The folders of a domain, whose name is matched up to letter case. -/
def getDomainFolders (env domainName : Str) : Except OverviewError (List Str) :=
  (overviewRoot cm overview "TP_export".toList env).map fun tpExport =>
    match tpExport.domains.keys.find? fun k => cm.lower k = cm.lower domainName with
    | none => []
    | some domainKey => if domainKey = [] then [] else (tpExport.domains.get? domainKey).getD []

/-- `sorted(set(l))`. -/
def sortedSet (l : List Str) : List Str := l.dedup.insertionSort (· ≤ ·)

/-- One of the patterns occurs in the folder name, up to letter case. -/
def matchesPatterns (patterns : List Str) (folder : Str) : Bool :=
  patterns.any fun pat => contains (cm.lower folder) (cm.lower pat)

variable (config : ClassifierConfig)

/-- The patterns of the first rule of an archive. -/
def archivePatterns (archive : Str) : List Str :=
  match config.legacyRules.find? fun rule => rule.archive = archive with
  | none => []
  | some rule => rule.patterns

/-- The folders that match no rule of the two other archives are added to the matched ones. -/
def addUnmatched (folders matched : List Str) : List Str :=
  folders.foldl (fun matched folder =>
    if folder ∈ matched then matched
    else if matchesPatterns cm (archivePatterns config "R2_Archives".toList) folder ||
        matchesPatterns cm (archivePatterns config "R3_Archives".toList) folder then matched
    else matched ++ [folder]) matched

/-- The folders of a legacy archive, whose name is matched up to letter case. -/
def getLegacyArchiveFolders (env archiveName : Str) : Except OverviewError (List Str) :=
  (overviewRoot cm overview "TP_Legacy_Publications".toList env).map fun tpLegacy =>
    match config.legacyRules.find? fun rule => cm.lower rule.archive = cm.lower archiveName with
    | none => []
    | some rule =>
      let matched := tpLegacy.folders.filter (matchesPatterns cm rule.patterns)
      sortedSet (if rule.archive = "R1_Archives_CSV_XML".toList
        then addUnmatched cm config tpLegacy.folders matched else matched)

end Overview

/-- The folders of names that are taken one after the other, up to the first one that raises. -/
def collectFoldersOf (foldersOf : Str → Except OverviewError (List Str)) :
    List Str → List Str × Option OverviewError
  | [] => ([], none)
  | name :: names =>
    match foldersOf name with
    | .error e => ([], some e)
    | .ok folders =>
      let rest := collectFoldersOf foldersOf names
      (folders ++ rest.1, rest.2)

/-! ## The two scopes -/

/-- The domains of the test mode. -/
def lightDomains : List Str :=
  ["Load".toList, "Generation".toList, "OtherMarketInformation".toList]

/-- The archives of the legacy publications. -/
def legacyArchives : List Str :=
  ["R3_Archives".toList, "R2_Archives".toList, "R1_Archives_CSV_XML".toList]

/-- `domain_name.strip() if domain_name else "ALL"`. -/
def targetDomain (domainName : Option Str) : Str :=
  match domainName with
  | none => "ALL".toList
  | some name => if name = [] then "ALL".toList else stripSpaces name

section Scope

variable (cm : CaseMap) (config : ClassifierConfig) (overview : Overview) (env : Str)
  (isTest : Bool) (domainName : Option Str)

/-- The target in lower case. -/
def scopeTarget : Str := cm.lower (targetDomain domainName)

/-- The selected domains. -/
def scopeDomains : List Str :=
  let domains := if isTest then config.domainOrder.filter (· ∈ lightDomains)
    else config.domainOrder
  if scopeTarget cm domainName ∈ ["all".toList, "legacy".toList] then domains
  else domains.filter fun d => cm.lower d = scopeTarget cm domainName

/-- The folders of the selected domains. -/
def domainFoldersOf : List Str × Option OverviewError :=
  collectFoldersOf (getDomainFolders cm overview env) (scopeDomains cm config isTest domainName)

/-- The folders of the legacy archives. -/
def legacyFoldersOf : List Str × Option OverviewError :=
  collectFoldersOf (getLegacyArchiveFolders cm overview config env) legacyArchives

/-- The folders that the delta refresh monitors, each with its root directory. -/
def monitoredFolders : List (Str × Str) :=
  let active := domainFoldersOf cm config overview env isTest domainName
  if active.2.isSome then [] else active.1.map fun folder => ("TP_export".toList, folder)

/-- The folders that the full refresh examines, each with its root directory. -/
def examinedFolders : List (Str × Str) :=
  let target := scopeTarget cm domainName
  let active := if target ≠ "legacy".toList
    then domainFoldersOf cm config overview env isTest domainName else ([], none)
  let legacy := if active.2 = none ∧ target ∈ ["all".toList, "legacy".toList] ∧ isTest = false
    then (legacyFoldersOf cm config overview env).1 else []
  (active.1.map fun folder => ("TP_export".toList, folder)) ++
    legacy.map fun folder => ("TP_Legacy_Publications".toList, folder)

/-- The two refreshes are about the same folders. -/
def SameScope : Prop :=
  ∀ root folder, (root, folder) ∈ monitoredFolders cm config overview env isTest domainName ↔
    (root, folder) ∈ examinedFolders cm config overview env isTest domainName

/-- The selected domains have no folder in the overview. -/
def NoActiveFolder : Prop :=
  ∀ domain ∈ scopeDomains cm config isTest domainName, ∀ folders,
    getDomainFolders cm overview env domain = .ok folders → folders = []

/-- The legacy archives have no folder in the overview. -/
def NoLegacyFolder : Prop :=
  ∀ archive ∈ legacyArchives, ∀ folders,
    getLegacyArchiveFolders cm overview config env archive = .ok folders → folders = []

/-- The overview cannot be read for a selected domain. -/
def Unreadable : Prop :=
  ∃ domain ∈ scopeDomains cm config isTest domainName, ∃ e,
    getDomainFolders cm overview env domain = .error e

/-- When everything is asked for there is no legacy folder outside of the test mode, and when the
legacy archives are asked for there is no folder of a domain either. -/
def ScopeAgrees : Prop :=
  (scopeTarget cm domainName = "all".toList → isTest = true ∨
    Unreadable cm config overview env isTest domainName ∨ NoLegacyFolder cm config overview env) ∧
  (scopeTarget cm domainName = "legacy".toList →
    NoActiveFolder cm config overview env isTest domainName ∧
      (isTest = true ∨ NoLegacyFolder cm config overview env))

end Scope

/-! ## Reading the overview -/

section Collect

variable {foldersOf : Str → Except OverviewError (List Str)}

/-- A reader of the overview raises for every name or for none. -/
def Uniform (foldersOf : Str → Except OverviewError (List Str)) : Prop :=
  ∀ name name' e, foldersOf name = .error e → foldersOf name' = .error e

/-- What is looked up below one root directory fails for all names or for none. -/
lemma uniform_map (root : Except OverviewError OverviewRoot)
    (folders : Str → OverviewRoot → List Str) : Uniform fun name => root.map (folders name) := by
  intro name name' e h
  cases root with
  | ok root => cases h
  | error e' =>
    cases h
    rfl

/-- The lookup of the folders of a domain is uniform. -/
lemma uniform_getDomainFolders (cm : CaseMap) (overview : Overview) (env : Str) :
    Uniform (getDomainFolders cm overview env) :=
  uniform_map (overviewRoot cm overview "TP_export".toList env) _

/-- The lookup of the folders of an archive is uniform. -/
lemma uniform_getLegacyArchiveFolders (cm : CaseMap) (overview : Overview)
    (config : ClassifierConfig) (env : Str) :
    Uniform (getLegacyArchiveFolders cm overview config env) :=
  uniform_map (overviewRoot cm overview "TP_Legacy_Publications".toList env) _

/-- Nothing is collected when the reader raises. -/
lemma collectFoldersOf_of_error {e : OverviewError} (h : ∀ name, foldersOf name = .error e)
    (names : List Str) : (collectFoldersOf foldersOf names).1 = [] ∧
      ((collectFoldersOf foldersOf names).2.isSome ↔ names ≠ []) := by
  cases names with
  | nil => exact ⟨rfl, by simp [collectFoldersOf]⟩
  | cons name names => simp [collectFoldersOf, h name]

/-- The folders of every name are collected when the reader does not raise. -/
lemma collectFoldersOf_of_ok {names : List Str}
    (h : ∀ name ∈ names, ∃ folders, foldersOf name = .ok folders) :
    (collectFoldersOf foldersOf names).2 = none ∧
      ((collectFoldersOf foldersOf names).1 = [] ↔
        ∀ name ∈ names, ∀ folders, foldersOf name = .ok folders → folders = []) := by
  induction names with
  | nil => exact ⟨rfl, by simp [collectFoldersOf]⟩
  | cons name names ih =>
    obtain ⟨⟨folders, hname⟩, hnames⟩ := List.forall_mem_cons.mp h
    obtain ⟨hnone, hiff⟩ := ih hnames
    rw [List.forall_mem_cons, ← hiff]
    simp [collectFoldersOf, hname, hnone]

/-- A uniform lookup fails for all names with one error, or for none. -/
lemma Uniform.cases (h : Uniform foldersOf) :
    (∃ e, ∀ name, foldersOf name = .error e) ∨
      ∀ name, ∃ folders, foldersOf name = .ok folders := by
  by_cases hraises : ∃ name e, foldersOf name = .error e
  · obtain ⟨name, e, hname⟩ := hraises
    exact Or.inl ⟨e, fun name' => h name name' e hname⟩
  · refine Or.inr fun name => ?_
    cases hname : foldersOf name with
    | error e => exact absurd ⟨name, e, hname⟩ hraises
    | ok folders => exact ⟨folders, rfl⟩

/-- Nothing is collected exactly when no name has a folder. -/
lemma collectFoldersOf_eq_nil_iff (h : Uniform foldersOf) (names : List Str) :
    (collectFoldersOf foldersOf names).1 = [] ↔
      ∀ name ∈ names, ∀ folders, foldersOf name = .ok folders → folders = [] := by
  rcases h.cases with ⟨e, herror⟩ | hok
  · refine iff_of_true (collectFoldersOf_of_error herror names).1 fun name _ folders hname => ?_
    rw [herror] at hname
    cases hname
  · exact (collectFoldersOf_of_ok fun name _ => hok name).2

/-- The collection raises exactly when the reader raises for a name. -/
lemma isSome_collectFoldersOf_iff (h : Uniform foldersOf) (names : List Str) :
    (collectFoldersOf foldersOf names).2.isSome ↔
      ∃ name ∈ names, ∃ e, foldersOf name = .error e := by
  rcases h.cases with ⟨e, herror⟩ | hok
  · rw [(collectFoldersOf_of_error herror names).2]
    cases names with
    | nil => simp
    | cons name names => simp [herror]
  · rw [(collectFoldersOf_of_ok fun name _ => hok name).1]
    refine iff_of_false (by simp) ?_
    rintro ⟨name, -, e, hname⟩
    obtain ⟨folders, hfolders⟩ := hok name
    rw [hfolders] at hname
    cases hname

/-- A collection that raises is empty. -/
lemma collectFoldersOf_eq_nil_of_isSome (h : Uniform foldersOf) {names : List Str}
    (hsome : (collectFoldersOf foldersOf names).2.isSome) :
    (collectFoldersOf foldersOf names).1 = [] := by
  rcases h.cases with ⟨e, herror⟩ | hok
  · exact (collectFoldersOf_of_error herror names).1
  · rw [(collectFoldersOf_of_ok fun name _ => hok name).1] at hsome
    cases hsome

end Collect

/-! ## When the scopes are the same -/

section Same

variable {cm : CaseMap} {config : ClassifierConfig} {overview : Overview} {env : Str}
  {isTest : Bool} {domainName : Option Str}

/-- The delta refresh monitors the folders of the selected domains. -/
lemma monitoredFolders_eq : monitoredFolders cm config overview env isTest domainName =
    (domainFoldersOf cm config overview env isTest domainName).1.map fun folder =>
      ("TP_export".toList, folder) := by
  unfold monitoredFolders
  dsimp only
  split_ifs with hsome
  · have hnil : (domainFoldersOf cm config overview env isTest domainName).1 = [] :=
      collectFoldersOf_eq_nil_of_isSome (uniform_getDomainFolders cm overview env) hsome
    rw [hnil, List.map_nil]
  · rfl

/-- Folders of the active root and folders of either root are the same when there is none of the
legacy root. -/
lemma forall_mem_tagged_iff (active legacy : List Str) :
    (∀ root folder, (root, folder) ∈ active.map (fun folder => ("TP_export".toList, folder)) ↔
      (root, folder) ∈ (active.map fun folder => ("TP_export".toList, folder)) ++
        legacy.map fun folder => ("TP_Legacy_Publications".toList, folder)) ↔ legacy = [] := by
  constructor
  · intro h
    rw [List.eq_nil_iff_forall_not_mem]
    intro folder hmem
    have hright := (h "TP_Legacy_Publications".toList folder).mpr
      (List.mem_append_right _ (List.mem_map.mpr ⟨folder, hmem, rfl⟩))
    obtain ⟨folder', -, heq⟩ := List.mem_map.mp hright
    exact absurd (Prod.mk.inj heq).1 (by decide)
  · rintro rfl
    simp

/-- Folders of the active root and folders of the legacy root are the same when there are none. -/
lemma forall_mem_active_iff_legacy (active legacy : List Str) :
    (∀ root folder, (root, folder) ∈ active.map (fun folder => ("TP_export".toList, folder)) ↔
      (root, folder) ∈ legacy.map fun folder => ("TP_Legacy_Publications".toList, folder)) ↔
        active = [] ∧ legacy = [] := by
  constructor
  · intro h
    constructor
    · rw [List.eq_nil_iff_forall_not_mem]
      intro folder hmem
      have hright := (h "TP_export".toList folder).mp (List.mem_map.mpr ⟨folder, hmem, rfl⟩)
      obtain ⟨folder', -, heq⟩ := List.mem_map.mp hright
      exact absurd (Prod.mk.inj heq).1 (by decide)
    · rw [List.eq_nil_iff_forall_not_mem]
      intro folder hmem
      have hleft := (h "TP_Legacy_Publications".toList folder).mpr
        (List.mem_map.mpr ⟨folder, hmem, rfl⟩)
      obtain ⟨folder', -, heq⟩ := List.mem_map.mp hleft
      exact absurd (Prod.mk.inj heq).1 (by decide)
  · rintro ⟨rfl, rfl⟩
    simp

/-- **When the scopes are the same.** The delta refresh monitors the folders that the full refresh
examines if and only if it is not asked for everything outside of the test mode while there is a
legacy folder and the overview can be read, and not asked for the legacy archives while there is a
folder of a selected domain, or a legacy folder outside of the test mode.

**Proof sketch.** The delta refresh monitors the folders of the selected domains for every target.
The full refresh examines the same ones, but none for the legacy archives, and adds the legacy
folders for these and for everything. The two roots have different names. -/
theorem sameScope_iff (cm : CaseMap) (config : ClassifierConfig) (overview : Overview) (env : Str)
    (isTest : Bool) (domainName : Option Str) :
    SameScope cm config overview env isTest domainName ↔
      ScopeAgrees cm config overview env isTest domainName := by
  have hactive : NoActiveFolder cm config overview env isTest domainName ↔
      (domainFoldersOf cm config overview env isTest domainName).1 = [] :=
    (collectFoldersOf_eq_nil_iff (uniform_getDomainFolders cm overview env) _).symm
  have hlegacy : NoLegacyFolder cm config overview env ↔
      (legacyFoldersOf cm config overview env).1 = [] :=
    (collectFoldersOf_eq_nil_iff (uniform_getLegacyArchiveFolders cm overview config env) _).symm
  have hunreadable : Unreadable cm config overview env isTest domainName ↔
      (domainFoldersOf cm config overview env isTest domainName).2 ≠ none := by
    rw [Option.ne_none_iff_isSome]
    exact (isSome_collectFoldersOf_iff (uniform_getDomainFolders cm overview env) _).symm
  have hne : "all".toList ≠ "legacy".toList := by decide
  unfold SameScope ScopeAgrees
  rw [hactive, hlegacy, hunreadable, monitoredFolders_eq]
  unfold examinedFolders
  dsimp only
  by_cases hall : scopeTarget cm domainName = "all".toList
  · -- everything
    rw [hall, if_pos hne, forall_mem_tagged_iff]
    cases isTest <;> simp [imp_iff_not_or]
  · by_cases hleg : scopeTarget cm domainName = "legacy".toList
    · -- the legacy archives
      rw [hleg, if_neg (not_not_intro rfl), List.map_nil, List.nil_append,
        forall_mem_active_iff_legacy]
      cases isTest <;> simp
    · -- one domain
      have hother : scopeTarget cm domainName ∉ ["all".toList, "legacy".toList] := fun hmem =>
        (List.mem_pair.mp hmem).elim hall hleg
      rw [if_pos hleg, forall_mem_tagged_iff, if_neg fun h => hother h.2.1]
      exact iff_of_true rfl ⟨fun h => absurd h hall, fun h => absurd h hleg⟩

end Same

/-! ### One domain and one archive -/

/-- A classifier with a domain and an archive. -/
def loadClassifier : ClassifierConfig :=
  .ofYaml (Dict.ofList [("Load".toList, ∅)])
    [⟨"R3_Archives".toList, ["_r3".toList]⟩]

/-- An overview with a folder of the domain and a legacy folder. -/
def loadOverview : Overview :=
  Dict.ofList [("IOP".toList,
    [⟨"TP_export".toList, Dict.ofList [("Load".toList, ["ActualTotalLoad_6.1.A_r3".toList])], []⟩,
      ⟨"TP_Legacy_Publications".toList, ∅, ["AggregatedBids_r3".toList]⟩])]

/-- For the legacy archives the delta refresh monitors the folder of the domain, and the full
refresh examines the legacy folder. -/
theorem not_sameScope_legacy :
    monitoredFolders .ascii loadClassifier loadOverview "IOP".toList false (some "Legacy".toList) =
        [("TP_export".toList, "ActualTotalLoad_6.1.A_r3".toList)] ∧
      examinedFolders .ascii loadClassifier loadOverview "IOP".toList false (some "Legacy".toList) =
        [("TP_Legacy_Publications".toList, "AggregatedBids_r3".toList)] ∧
      ¬ SameScope .ascii loadClassifier loadOverview "IOP".toList false (some "Legacy".toList) := by
  have hmonitored : monitoredFolders .ascii loadClassifier loadOverview "IOP".toList false
      (some "Legacy".toList) = [("TP_export".toList, "ActualTotalLoad_6.1.A_r3".toList)] := by
    decide +kernel
  have hexamined : examinedFolders .ascii loadClassifier loadOverview "IOP".toList false
      (some "Legacy".toList) = [("TP_Legacy_Publications".toList, "AggregatedBids_r3".toList)] := by
    decide +kernel
  refine ⟨hmonitored, hexamined, fun h => ?_⟩
  have hmem := (h "TP_export".toList "ActualTotalLoad_6.1.A_r3".toList).mp
    (hmonitored ▸ List.mem_singleton_self _)
  rw [hexamined] at hmem
  exact absurd hmem (by decide)

end EntsoePipeline
