import EntsoePipeline.Fms.OverviewIngest

set_option relaxedAutoImplicit false
set_option autoImplicit false

/-!
# The drift reports

The active folders are compared with the classifier file twice: by the collector of the overview,
and later by two reports on the saved overview. Both report the folders without a publication and
the publications without a folder. All loops over the publications stop at the first one that
matches a folder, the one of the collector for good and the one of the saved report in each domain.
So a publication that only matches folders with another one before it is reported as unseen.

## Main definitions

* `EntsoePipeline.generateUndocumentedFoldersReport`,
  `EntsoePipeline.generateUnseenPublicationsReport` — the reports on the saved overview.
* `EntsoePipeline.DriftReportsExact` — both implementations report what they should.
* `EntsoePipeline.NoneShadowed` — each publication that matches a folder is the first one to match
  some folder.

## Main results

* `EntsoePipeline.driftReportsExact_iff` — the reports are exact exactly when none is shadowed.
* `EntsoePipeline.noneShadowed_of_lowerPrefixFree` — none is shadowed when no contract name is a
  prefix of another one.
* `EntsoePipeline.not_driftReportsExact_shadowed` — a failing input.
-/

namespace EntsoePipeline

open Py

/-! ## The code -/

section Reports

variable (cm : CaseMap) (config : ClassifierConfig) (overview : Overview)

/-- The active folders of all platforms of the overview. -/
def allActiveFolders : List Str := overview.values.flatMap exportFoldersOf

/-- `folder_lower.startswith(fms_prefix)`. -/
def matchesFolder (folder : Str) (item : ClassifierItem) : Bool :=
  startsWith (cm.lower folder) (cm.lower item.fmsName)

/-- The folders without a publication. -/
def generateUndocumentedFoldersReport : List Str :=
  (sortedSet (allActiveFolders overview)).filter fun folder =>
    ! config.domains.values.any fun items => items.values.any (matchesFolder cm folder)

/-- The publications without a folder. The first publication of each domain that matches a folder is
marked. -/
def generateUnseenPublicationsReport : List ClassifierRule :=
  let matchedFmsNames := (sortedSet (allActiveFolders overview)).flatMap fun folder =>
    config.domains.values.filterMap fun items =>
      (items.values.find? (matchesFolder cm folder)).map ClassifierItem.fmsName
  config.rules.filter fun rule => rule.fmsName ∉ matchedFmsNames

end Reports

/-! ## Exact reports -/

section Exact

variable (cm : CaseMap) (config : ClassifierConfig)

/-- The contract name is a prefix of the folder name, up to letter case. -/
def Prefixes (fmsName folder : Str) : Prop := cm.lower fmsName <+: cm.lower folder

/-- The reports on some folders: those that no contract name prefixes, and the publications whose
contract name prefixes none of them. -/
structure ReportsExact (folders undocumentedFolders : List Str)
    (unseenPublications : List ClassifierRule) : Prop where
  /-- The folders. -/
  undocumented_iff : ∀ folder, folder ∈ undocumentedFolders ↔
    folder ∈ folders ∧ ∀ rule ∈ config.rules, ¬ Prefixes cm rule.fmsName folder
  /-- The publications. -/
  unseen_iff : ∀ rule, rule ∈ unseenPublications ↔
    rule ∈ config.rules ∧ ∀ folder ∈ folders, ¬ Prefixes cm rule.fmsName folder

/-- The reports of the collector and those on the overview that it saves are exact, and the same. -/
def DriftReportsExact (iop prod : List OverviewRoot) : Prop :=
  let overview := overviewOf iop prod
  let drift := detectOverviewDrift cm config iop prod
  ReportsExact cm config (allActiveFolders overview) drift.undocumentedFolders
      drift.unseenPublications ∧
    ReportsExact cm config (allActiveFolders overview)
      (generateUndocumentedFoldersReport cm config overview)
      (generateUnseenPublicationsReport cm config overview) ∧
    drift.undocumentedFolders = generateUndocumentedFoldersReport cm config overview ∧
    drift.unseenPublications = generateUnseenPublicationsReport cm config overview

/-- For each publication that matches a folder there is a folder that its contract name is the first
one to match, in the order of the file. -/
def NoneShadowed (folders : List Str) : Prop :=
  ∀ rule ∈ config.rules, (∃ folder ∈ folders, Prefixes cm rule.fmsName folder) →
    ∃ folder ∈ folders, ∃ before first after, config.rules = before ++ first :: after ∧
      first.fmsName = rule.fmsName ∧ Prefixes cm first.fmsName folder ∧
        ∀ earlier ∈ before, ¬ Prefixes cm earlier.fmsName folder

end Exact

section Loops

variable {cm : CaseMap} {config : ClassifierConfig}

/-- A rule matches a folder when its name is a prefix up to case. -/
lemma isPrefixOf_lowerName_iff {rule : ClassifierRule} {folder : Str} :
    (rule.lowerName cm).isPrefixOf (cm.lower folder) = true ↔ Prefixes cm rule.fmsName folder :=
  List.isPrefixOf_iff_prefix

/-- The collector marks the first rule that matches a folder. -/
lemma firstRule_eq_some_iff {folder : Str} {rule : ClassifierRule} :
    firstRule cm config folder = some rule ↔ ∃ before after,
      config.rules = before ++ rule :: after ∧ Prefixes cm rule.fmsName folder ∧
        ∀ earlier ∈ before, ¬ Prefixes cm earlier.fmsName folder := by
  unfold firstRule
  rw [List.find?_eq_some_iff_append, isPrefixOf_lowerName_iff]
  simp only [Bool.not_eq_true', ← Bool.not_eq_true, isPrefixOf_lowerName_iff]
  constructor
  · rintro ⟨hpre, before, after, hrules, hbefore⟩
    exact ⟨before, after, hrules, hpre, hbefore⟩
  · rintro ⟨before, after, hrules, hpre, hbefore⟩
    exact ⟨hpre, before, after, hrules, hbefore⟩

/-- No rule is first when none matches. -/
lemma firstRule_eq_none_iff {folder : Str} :
    firstRule cm config folder = none ↔ ∀ rule ∈ config.rules,
      ¬ Prefixes cm rule.fmsName folder := by
  unfold firstRule
  rw [List.find?_eq_none]
  simp only [isPrefixOf_lowerName_iff]

/-- A publication of the file is one of its rules. -/
lemma mem_groupRules {group : Str × DomainGroup} (hgroup : group ∈ config.domains.items)
    {item : ClassifierItem} (hitem : item ∈ group.2.values) :
    ∃ rule ∈ config.rules, rule.fmsName = item.fmsName := by
  obtain ⟨entry, hentry, rfl⟩ := List.mem_map.mp hitem
  exact ⟨_, List.mem_flatMap.mpr ⟨group, hgroup, List.mem_map_of_mem hentry⟩, rfl⟩

/-- The saved report of the folders tests whether the collector finds a rule. -/
lemma any_matchesFolder (folder : Str) :
    (config.domains.values.any fun items => items.values.any (matchesFolder cm folder)) =
      decide (matchedFmsName cm config folder ≠ none) := by
  rw [Bool.eq_iff_iff, decide_eq_true_eq, ne_eq, matchedFmsName_eq_find?, Option.map_eq_none_iff,
    firstRule_eq_none_iff]
  simp only [List.any_eq_true]
  constructor
  · rintro ⟨items, hitems, item, hitem, hmatch⟩ hnone
    obtain ⟨group, hgroup, rfl⟩ := List.mem_map.mp hitems
    obtain ⟨rule, hrule, hname⟩ := mem_groupRules hgroup hitem
    refine hnone rule hrule ?_
    rw [hname]
    exact startsWith_iff.mp hmatch
  · intro hsome
    rw [not_forall₂] at hsome
    obtain ⟨rule, hrule, hpre⟩ := hsome
    rw [not_not] at hpre
    obtain ⟨group, hgroup, hmem⟩ := List.mem_flatMap.mp hrule
    obtain ⟨entry, hentry, rfl⟩ := List.mem_map.mp hmem
    exact ⟨group.2, List.mem_map_of_mem hgroup, entry.2, List.mem_map_of_mem hentry,
      startsWith_iff.mpr hpre⟩

/-- The saved report of the publications marks the first one of some domain. -/
def markedNames (cm : CaseMap) (config : ClassifierConfig) (folder : Str) : List Str :=
  config.domains.values.filterMap fun items =>
    (items.values.find? (matchesFolder cm folder)).map ClassifierItem.fmsName

/-- What the collector marks is marked by the saved report, which marks only what matches. -/
lemma mem_markedNames_of_matched {folder name : Str}
    (h : matchedFmsName cm config folder = some name) : name ∈ markedNames cm config folder := by
  obtain ⟨group, hgroup, hfind⟩ := List.exists_of_findSome?_eq_some h
  exact List.mem_filterMap.mpr ⟨group.2, List.mem_map_of_mem hgroup, hfind⟩

/-- A name that a folder marks is a prefix of it. -/
lemma prefixes_of_mem_markedNames {folder name : Str} (h : name ∈ markedNames cm config folder) :
    Prefixes cm name folder := by
  obtain ⟨items, -, hfind⟩ := List.mem_filterMap.mp h
  obtain ⟨item, hitem, rfl⟩ := Option.map_eq_some_iff.mp hfind
  have hmatch : matchesFolder cm folder item = true := List.find?_some hitem
  exact startsWith_iff.mp hmatch

end Loops

/-! ## The two implementations -/

section Drift

variable {cm : CaseMap} {config : ClassifierConfig}

/-- A sorted set has the members of the list. -/
lemma mem_sortedSet {l : List Str} {s : Str} : s ∈ sortedSet l ↔ s ∈ l := by
  rw [sortedSet, List.mem_insertionSort, List.mem_dedup]

/-- A list of unseen publications is exact when what is marked is what matches a folder. -/
lemma unseen_iff_of_marked {folders matched : List Str}
    (h : ∀ rule ∈ config.rules, rule.fmsName ∈ matched ↔
      ∃ folder ∈ folders, Prefixes cm rule.fmsName folder) (rule : ClassifierRule) :
    rule ∈ config.rules.filter (fun rule => rule.fmsName ∉ matched) ↔
      rule ∈ config.rules ∧ ∀ folder ∈ folders, ¬ Prefixes cm rule.fmsName folder := by
  rw [List.mem_filter, decide_eq_true_eq]
  refine and_congr_right fun hrule => ?_
  rw [h rule hrule]
  exact ⟨fun hnone folder hfolder hpre => hnone ⟨folder, hfolder, hpre⟩,
    fun hnone ⟨folder, hfolder, hpre⟩ => hnone folder hfolder hpre⟩

/-- The collector and the saved report read the same folders. -/
lemma allActiveFolders_overviewOf (iop prod : List OverviewRoot) :
    allActiveFolders (overviewOf iop prod) = exportFoldersOf iop ++ exportFoldersOf prod := by
  have hvalues : (overviewOf iop prod).values = [iop, prod] := by
    simp [overviewOf, Dict.ofList, Dict.setAll, Dict.set, Dict.alter, Dict.alterItems, Dict.values]
  rw [allActiveFolders, hvalues, List.flatMap_cons, List.flatMap_cons, List.flatMap_nil,
    List.append_nil]

/-- Both implementations report the same folders. -/
lemma undocumentedFolders_eq (folders : List Str) (overview : Overview)
    (h : allActiveFolders overview = folders) :
    (detectDrift cm config folders).undocumentedFolders =
      generateUndocumentedFoldersReport cm config overview := by
  unfold generateUndocumentedFoldersReport
  rw [h]
  apply List.filter_congr
  intro folder _
  rw [any_matchesFolder]
  simp

/-- The reported folders are those that no contract name prefixes. -/
lemma mem_undocumentedFolders {folders : List Str} {folder : Str} :
    folder ∈ (detectDrift cm config folders).undocumentedFolders ↔
      folder ∈ folders ∧ ∀ rule ∈ config.rules, ¬ Prefixes cm rule.fmsName folder := by
  unfold detectDrift
  rw [List.mem_filter, decide_eq_true_eq, mem_sortedSet, matchedFmsName_eq_find?,
    Option.map_eq_none_iff, firstRule_eq_none_iff]

/-- What the collector marks on some folders: the contract names that are the first one to match one
of them. -/
lemma exists_first_iff {folders : List Str} {name : Str} :
    name ∈ (sortedSet folders).filterMap (matchedFmsName cm config) ↔
      ∃ folder ∈ folders, ∃ before first after, config.rules = before ++ first :: after ∧
        first.fmsName = name ∧ Prefixes cm first.fmsName folder ∧
          ∀ earlier ∈ before, ¬ Prefixes cm earlier.fmsName folder := by
  rw [List.mem_filterMap]
  simp only [mem_sortedSet, matchedFmsName_eq_find?, Option.map_eq_some_iff, firstRule_eq_some_iff]
  refine exists_congr fun folder => and_congr_right fun _ => ?_
  constructor
  · rintro ⟨first, ⟨before, after, hrules, hpre, hbefore⟩, hname⟩
    exact ⟨before, first, after, hrules, hname, hpre, hbefore⟩
  · rintro ⟨before, first, after, hrules, hname, hpre, hbefore⟩
    exact ⟨first, ⟨before, after, hrules, hpre, hbefore⟩, hname⟩

/-- The publications that the collector reports are exact when none is shadowed. -/
lemma NoneShadowed.matched_iff {folders : List Str} (h : NoneShadowed cm config folders)
    {rule : ClassifierRule} (hrule : rule ∈ config.rules) :
    rule.fmsName ∈ (sortedSet folders).filterMap (matchedFmsName cm config) ↔
      ∃ folder ∈ folders, Prefixes cm rule.fmsName folder := by
  rw [exists_first_iff]
  constructor
  · rintro ⟨folder, hfolder, _, first, _, -, hname, hpre, -⟩
    exact ⟨folder, hfolder, hname ▸ hpre⟩
  · exact h rule hrule

/-- So are those of the saved report, which marks at least what the collector marks. -/
lemma NoneShadowed.marked_iff {folders : List Str} (h : NoneShadowed cm config folders)
    {rule : ClassifierRule} (hrule : rule ∈ config.rules) :
    rule.fmsName ∈ (sortedSet folders).flatMap (markedNames cm config) ↔
      ∃ folder ∈ folders, Prefixes cm rule.fmsName folder := by
  constructor
  · intro hmarked
    obtain ⟨folder, hfolder, hname⟩ := List.mem_flatMap.mp hmarked
    exact ⟨folder, mem_sortedSet.mp hfolder, prefixes_of_mem_markedNames hname⟩
  · intro hmatches
    obtain ⟨folder, hfolder, hname⟩ := List.mem_filterMap.mp ((h.matched_iff hrule).mpr hmatches)
    exact List.mem_flatMap.mpr ⟨folder, hfolder, mem_markedNames_of_matched hname⟩

/-- **Exact drift reports.** Both implementations report exactly the folders that no contract name
prefixes, and exactly the publications whose contract name prefixes no folder, and they report the
same, if and only if no publication is shadowed.

**Proof sketch.** The collector marks a contract name when it is the first one to match some folder.
The saved report marks no less, and neither marks a name that matches no folder. -/
theorem driftReportsExact_iff (cm : CaseMap) (config : ClassifierConfig)
    (iop prod : List OverviewRoot) : DriftReportsExact cm config iop prod ↔
      NoneShadowed cm config (allActiveFolders (overviewOf iop prod)) := by
  unfold DriftReportsExact detectOverviewDrift
  rw [← allActiveFolders_overviewOf]
  set folders := allActiveFolders (overviewOf iop prod) with hfolders
  dsimp only
  constructor
  · rintro ⟨hcollector, -⟩ rule hrule ⟨folder, hfolder, hpre⟩
    by_contra hshadowed
    rw [← exists_first_iff] at hshadowed
    have hunseen : rule ∈ (detectDrift cm config folders).unseenPublications :=
      List.mem_filter.mpr ⟨hrule, decide_eq_true hshadowed⟩
    exact ((hcollector.unseen_iff rule).mp hunseen).2 folder hfolder hpre
  · intro hnone
    have hundocumented := @undocumentedFolders_eq cm config folders _ hfolders.symm
    refine ⟨⟨fun folder => mem_undocumentedFolders,
      unseen_iff_of_marked fun rule hrule => hnone.matched_iff hrule⟩,
      ⟨fun folder => ?_, unseen_iff_of_marked fun rule hrule => hnone.marked_iff hrule⟩,
      hundocumented, ?_⟩
    · rw [← hundocumented]
      exact mem_undocumentedFolders
    · apply List.filter_congr
      intro rule hrule
      rw [decide_eq_decide, not_iff_not]
      exact (hnone.matched_iff hrule).trans (hnone.marked_iff hrule).symm

/-- When no contract name in lower case is a prefix of another one, no publication is shadowed. -/
theorem noneShadowed_of_lowerPrefixFree (hfree : config.LowerPrefixFree cm) (folders : List Str) :
    NoneShadowed cm config folders := by
  rintro rule hrule ⟨folder, hfolder, hpre⟩
  obtain ⟨before, after, hrules⟩ := List.append_of_mem hrule
  refine ⟨folder, hfolder, before, rule, after, hrules, rfl, hpre, fun earlier hearlier hpre' => ?_⟩
  have hapart := hfree
  unfold ClassifierConfig.LowerPrefixFree FirstMatch.PrefixFree at hapart
  rw [hrules, List.pairwise_append] at hapart
  exact FirstMatch.not_apart_of_common hpre' hpre
    (hapart.2.2 earlier hearlier rule List.mem_cons_self)

/-- The reports of a run of the collector are those on the overview that it saves. -/
lemma exists_of_ingestOverviewMetadata {createFmsClient : Str → Except PyError FileServer}
    {overview : Overview} {drift : DriftReport}
    (h : ingestOverviewMetadata cm config createFmsClient = .ok (overview, drift)) :
    ∃ iop prod, overview = overviewOf iop prod ∧
      drift = detectOverviewDrift cm config iop prod := by
  unfold ingestOverviewMetadata at h
  obtain ⟨iop, -, h⟩ := Outcome.bind_eq_ok_iff.mp h
  obtain ⟨prod, -, h⟩ := Outcome.bind_eq_ok_iff.mp h
  cases h
  exact ⟨_, _, rfl, rfl⟩

end Drift

/-! ## A publication behind a shorter name -/

/-- Two domains, the second one with a publication whose name the first one has a prefix of. -/
def shadowingConfig : ClassifierConfig :=
  .ofYaml (Dict.ofList [
    ("Load".toList, Dict.ofList [("total_load".toList, ⟨"ActualTotalLoad".toList⟩)]),
    ("Market".toList, Dict.ofList [("load_r3".toList, ⟨"ActualTotalLoad_6.1.A_r3".toList⟩)])]) []

/-- The root directory of a platform with one active folder. -/
def loadRoots : List OverviewRoot :=
  [⟨"TP_export".toList, Dict.ofList [("Load".toList, ["ActualTotalLoad_6.1.A_r3".toList]),
    ("Market".toList, [])], []⟩]

/-- The collector reports the publication of the folder itself as unseen, and the saved report does
not. -/
theorem not_driftReportsExact_shadowed :
    (detectOverviewDrift .ascii shadowingConfig loadRoots loadRoots).unseenPublications =
        [⟨"Market".toList, "load_r3".toList, "ActualTotalLoad_6.1.A_r3".toList⟩] ∧
      generateUnseenPublicationsReport .ascii shadowingConfig (overviewOf loadRoots loadRoots) =
        [] ∧
      ¬ DriftReportsExact .ascii shadowingConfig loadRoots loadRoots := by
  have hcollector : (detectOverviewDrift .ascii shadowingConfig loadRoots
      loadRoots).unseenPublications =
      [⟨"Market".toList, "load_r3".toList, "ActualTotalLoad_6.1.A_r3".toList⟩] := by
    decide +kernel
  have hsaved : generateUnseenPublicationsReport .ascii shadowingConfig
      (overviewOf loadRoots loadRoots) = [] := by
    decide +kernel
  refine ⟨hcollector, hsaved, fun h => ?_⟩
  have hsame := h.2.2.2
  rw [hcollector, hsaved] at hsame
  cases hsame

end EntsoePipeline
