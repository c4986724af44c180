import EntsoePipeline.Landing.Preparation

set_option relaxedAutoImplicit false
set_option autoImplicit false

/-!
# The short forms of a checklist

Three builders expand the short forms: one for popular folders, one for a selection of domains and
one for lists of enabled domains and legacy folders. The first and the last look a name up as it is
written, the second up to letter case and in several shapes.

## Main definitions

* `EntsoePipeline.DistinctNames` — no overview name occurs twice, up to letter case.
* `EntsoePipeline.SpelledAs` — popular folders are written as in the overview.
* `EntsoePipeline.ShortForm` — the checklists of the three builders.
* `EntsoePipeline.FalseOutside` — nothing outside of an environment is enabled.

## Main results

* `EntsoePipeline.buildDomainsConfig_eq_iff` — when two forms give the same checklist.
* `EntsoePipeline.shortForms_agree` — where the forms agree, and what every form keeps.
* `EntsoePipeline.not_shortForms_agree` — a domain in lower case is enabled by one form only, and an
  empty environment is none.
-/

namespace EntsoePipeline

open Py

/-! ## Names and values -/

/-- The entries, none when there is no mapping. -/
def Node.entries {ν : Type} : Node ν → List (Str × ν)
  | .map entries => entries.items
  | .other _ => []

/-- The names in a root directory. -/
structure RootNames where
  /-- The name of the root directory. -/
  name : Str
  /-- The folders by domain. -/
  domains : List (Str × List Str)
  /-- The folders without a domain. -/
  folders : List Str

/-- The names of the overview. -/
def overviewNames (overview : Overview) : List (Str × List RootNames) :=
  overview.items.map fun env =>
    (env.1, env.2.map fun root => ⟨root.name, root.domains.items, root.folders⟩)

/-- The names in a root directory of a checklist. -/
def ChecklistRoot.names (root : ChecklistRoot) : RootNames :=
  ⟨root.name, root.domains.entries.map fun domain => (domain.1, domain.2.entries.map Prod.fst),
    root.folders.entries.map Prod.fst⟩

/-- The names of a checklist. -/
def checklistNames (checklist : YamlChecklist) : List (Str × List RootNames) :=
  checklist.items.map fun env => (env.1, env.2.map ChecklistRoot.names)

/-- The values of the folders in a root directory. -/
def ChecklistRoot.values (root : ChecklistRoot) : List Yaml :=
  (root.domains.entries.flatMap fun domain => domain.2.entries.map Prod.snd) ++
    root.folders.entries.map Prod.snd

/-- Outside of the environment every folder is `False`. -/
def FalseOutside (cm : CaseMap) (target : Str) (checklist : YamlChecklist) : Prop :=
  ∀ env ∈ checklist.items, cm.upper env.1 ≠ cm.upper target →
    ∀ root ∈ env.2, ∀ value ∈ root.values, value = .bool false

section Forms

variable (cm : CaseMap) (overview : Overview)

/-- The domain and folder names of the overview are distinct up to letter case. -/
structure DistinctNames : Prop where
  domain : ∀ env ∈ overview.items, ∀ root ∈ env.2, (root.domains.keys.map cm.lower).Nodup
  domainFolder : ∀ env ∈ overview.items, ∀ root ∈ env.2, ∀ domain ∈ root.domains.items,
    (domain.2.map cm.lower).Nodup
  folder : ∀ env ∈ overview.items, ∀ root ∈ env.2, (root.folders.map cm.lower).Nodup

/-- A popular name that is an overview name up to letter case is written as there. -/
structure SpelledAs (popular : Dict Str (List Str)) : Prop where
  domain : ∀ env ∈ overview.items, ∀ root ∈ env.2, ∀ domain ∈ root.domains.items,
    ∀ name ∈ popular.keys, cm.lower name = cm.lower domain.1 → name = domain.1
  folder : ∀ env ∈ overview.items, ∀ root ∈ env.2, ∀ domain ∈ root.domains.items,
    ∀ folder ∈ domain.2, ∀ name ∈ (popular.get? domain.1).getD [],
      cm.lower name = cm.lower folder → name = folder

/-- An enabled domain that is an overview domain up to letter case is written as there, as far as
the environments and the folders matter. -/
def KnowsDomains (domains : List Str) (target : Option Str) : Prop :=
  ∀ env ∈ overview.items, isEnvEnabled cm target env.1 = true → ∀ root ∈ env.2,
    ∀ domain ∈ root.domains.items, domain.2 ≠ [] →
      (∃ name ∈ domains, cm.lower name = cm.lower domain.1) → domain.1 ∈ domains

/-- A list of names as a selection. -/
def nameList (names : List Str) : Yaml := .list (names.map .str)

/-- The popular folders as a mapping. -/
def popularMap (popular : Dict Str (List Str)) : Yaml :=
  .map (popular.items.map fun entry => (entry.1, nameList entry.2))

/-- The popular folders as a list of mappings with one entry. -/
def popularList (popular : Dict Str (List Str)) : Yaml :=
  .list (popular.items.map fun entry => .map [(entry.1, nameList entry.2)])

/-- The checklist of a short form. -/
inductive ShortForm (target : Option Str) : YamlChecklist → Prop
  | default (popular : Dict Str (List Str)) :
    ShortForm target (buildDefaultDomainsConfig cm overview popular target)
  | custom (selected : Yaml) : ShortForm target
    (buildCustomDomainsConfig cm overview selected target)
  | extended (domains legacyFolders : List Str) :
    ShortForm target (buildExtendedDomainsConfig cm overview domains legacyFolders target)

end Forms

/-! ## The traversal -/

section Traversal

variable {cm : CaseMap} {overview : Overview} {target : Option Str}

/-- The entries that are built are those of the overview with their values. -/
lemma buildDomainsConfig_items (domainValue : Bool → Str → Str → Yaml)
    (folderValue : Bool → Str → Yaml) :
    (buildDomainsConfig cm overview target domainValue folderValue).items =
      overview.items.map fun env => (env.1, env.2.map fun root =>
        { name := root.name
          domains := .map (Dict.ofList (root.domains.items.map fun domain =>
            (domain.1, .map (Dict.ofList (domain.2.map fun folder =>
              (folder, domainValue (isEnvEnabled cm target env.1) domain.1 folder))))))
          folders := .map (Dict.ofList (root.folders.map fun folder =>
            (folder, folderValue (isEnvEnabled cm target env.1) folder))) }) := by
  apply Dict.items_ofList_of_nodup
  rw [List.map_map]
  exact overview.nodup

/-- The domains keep their order when they get their values. -/
lemma items_ofList_domains {ν : Type} (domains : Dict Str (List Str))
    (folders : Str × List Str → ν) :
    (Dict.ofList (domains.items.map fun domain => (domain.1, folders domain))).items =
      domains.items.map fun domain => (domain.1, folders domain) := by
  apply Dict.items_ofList_of_nodup
  rw [List.map_map]
  exact domains.nodup

/-- Two forms give the same checklist when they give each folder the same value. -/
theorem buildDomainsConfig_eq_iff {domainValue domainValue' : Bool → Str → Str → Yaml}
    {folderValue folderValue' : Bool → Str → Yaml} :
    buildDomainsConfig cm overview target domainValue folderValue =
        buildDomainsConfig cm overview target domainValue' folderValue' ↔
      ∀ env ∈ overview.items, ∀ root ∈ env.2,
        (∀ domain ∈ root.domains.items, ∀ folder ∈ domain.2,
          domainValue (isEnvEnabled cm target env.1) domain.1 folder =
            domainValue' (isEnvEnabled cm target env.1) domain.1 folder) ∧
        ∀ folder ∈ root.folders, folderValue (isEnvEnabled cm target env.1) folder =
          folderValue' (isEnvEnabled cm target env.1) folder := by
  rw [Dict.ext_iff, buildDomainsConfig_items, buildDomainsConfig_items, List.map_inj_left]
  refine forall₂_congr fun env _ => ?_
  rw [Prod.mk.injEq, and_iff_right rfl, List.map_inj_left]
  refine forall₂_congr fun root _ => ?_
  rw [ChecklistRoot.mk.injEq, and_iff_right rfl, Node.map.injEq, Node.map.injEq,
    Dict.ofList_map_eq_iff, Dict.ext_iff, items_ofList_domains, items_ofList_domains,
    List.map_inj_left]
  refine and_congr (forall₂_congr fun domain _ => ?_) Iff.rfl
  rw [Prod.mk.injEq, and_iff_right rfl, Node.map.injEq, Dict.ofList_map_eq_iff]

end Traversal

/-! ## Looking a name up -/

section Lookup

variable {cm : CaseMap}

/-- Where only the name itself is the name up to letter case, the search is exact. -/
lemma lookupName_eq_get? {entries : Dict Str Yaml} {name : Str}
    (h : ∀ key ∈ entries.keys, cm.lower key = cm.lower name → key = name) :
    lookupName cm name entries.items = entries.get? name := by
  unfold lookupName
  cases hfind : entries.items.find? fun entry => cm.lower entry.1 = cm.lower name with
  | some entry =>
    have hmem := List.mem_of_find?_eq_some hfind
    have hkey : entry.1 = name :=
      h entry.1 (List.mem_map_of_mem hmem) (by simpa using List.find?_some hfind)
    rw [Option.map_some, ← hkey]
    exact (Dict.mem_items_iff.mp hmem).symm
  | none =>
    cases hget : entries.get? name with
    | none => rfl
    | some value =>
      have hne := List.find?_eq_none.mp hfind _ (Dict.mem_items_iff.mpr hget)
      simp at hne

/-- A list of names selects a domain up to case. -/
lemma domainInList_names (domain : Str) (names : List Str) :
    domainInList cm domain (names.map .str) =
      .bool (decide (∃ name ∈ names, cm.lower name = cm.lower domain)) := by
  induction names with
  | nil => rfl
  | cons name names ih =>
    rw [List.map_cons, domainInList, ih]
    by_cases hname : cm.lower name = cm.lower domain
    · simp [hname]
    · simp [hname]

/-- A list of names gives a domain a truth value. -/
lemma getDomainConfig_nameList (domain : Str) (names : List Str) :
    getDomainConfig cm (nameList names) domain =
      .bool (decide (∃ name ∈ names, cm.lower name = cm.lower domain)) :=
  domainInList_names domain names

/-- A list of names selects a folder up to case. -/
lemma folderConfig_names (folder : Str) (names : List Str) :
    folderConfig cm folder (names.map .str) (.bool false) =
      .bool (decide (∃ name ∈ names, cm.lower name = cm.lower folder)) := by
  induction names with
  | nil => rfl
  | cons name names ih =>
    rw [List.map_cons, folderConfig, ih]
    by_cases hname : cm.lower name = cm.lower folder
    · simp [hname]
    · simp [hname]

/-- A list of mappings with one entry is searched like the mapping of the entries. -/
lemma domainInList_single (domain : Str) (entries : List (Str × Yaml)) :
    domainInList cm domain (entries.map fun entry => .map [entry]) =
      (lookupName cm domain entries).getD (.bool false) := by
  induction entries with
  | nil => rfl
  | cons entry entries ih =>
    rw [List.map_cons, domainInList, ih]
    unfold lookupName
    by_cases hname : cm.lower entry.1 = cm.lower domain
    · rw [List.find?_cons_of_pos (by simpa using hname), List.find?_cons_of_pos
        (by simpa using hname)]
      rfl
    · rw [List.find?_cons_of_neg (by simpa using hname), List.find?_cons_of_neg
        (by simpa using hname)]
      rfl

end Lookup

section Agreement

variable {cm : CaseMap} {overview : Overview} {target : Option Str}

/-- The forms for domains and for a selection of domains agree when the domains are known. -/
lemma extended_eq_custom_iff {domains : List Str} :
    buildExtendedDomainsConfig cm overview domains [] target =
        buildCustomDomainsConfig cm overview (nameList domains) target ↔
      KnowsDomains cm overview domains target := by
  unfold buildExtendedDomainsConfig buildCustomDomainsConfig
  rw [buildDomainsConfig_eq_iff]
  constructor
  · intro h env henv henabled root hroot domain hdomain hfolders hname
    obtain ⟨folder, hfolder⟩ := List.exists_mem_of_ne_nil _ hfolders
    have hvalue := (h env henv root hroot).1 domain hdomain folder hfolder
    rw [henabled, getDomainConfig_nameList, decide_eq_true hname] at hvalue
    simpa using hvalue
  · intro h env henv root hroot
    refine ⟨fun domain hdomain folder hfolder => ?_, fun folder _ => by simp⟩
    rw [getDomainConfig_nameList]
    cases henabled : isEnvEnabled cm target env.1 with
    | false => rfl
    | true =>
      by_cases hname : ∃ name ∈ domains, cm.lower name = cm.lower domain.1
      · have hmem := h env henv henabled root hroot domain hdomain
            (List.ne_nil_of_mem hfolder) hname
        simp [hname, hmem]
      · have hmem : domain.1 ∉ domains := fun hmem => hname ⟨domain.1, hmem, rfl⟩
        simp [hname, hmem]

/-- A popular folder is enabled by a selection that finds the folders of its domain. -/
lemma default_eq_custom {popular : Dict Str (List Str)} {selected : Yaml}
    (hspelled : SpelledAs cm overview popular)
    (hselected : ∀ domain, getDomainConfig cm selected domain =
      (lookupName cm domain (popular.mapValues nameList).items).getD (.bool false)) :
    buildDefaultDomainsConfig cm overview popular target =
      buildCustomDomainsConfig cm overview selected target := by
  unfold buildDefaultDomainsConfig buildCustomDomainsConfig
  rw [buildDomainsConfig_eq_iff]
  intro env henv root hroot
  refine ⟨fun domain hdomain folder hfolder => ?_, fun folder hfolder => rfl⟩
  have hlookup : lookupName cm domain.1 (popular.mapValues nameList).items =
      (popular.get? domain.1).map nameList := by
    rw [← Dict.get?_mapValues]
    apply lookupName_eq_get?
    rw [Dict.keys_mapValues]
    exact hspelled.domain env henv root hroot domain hdomain
  rw [hselected, hlookup]
  have hfolders := hspelled.folder env henv root hroot domain hdomain folder hfolder
  cases isEnvEnabled cm target env.1 with
  | false => rfl
  | true =>
    cases hget : popular.get? domain.1 with
    | none => rfl
    | some names =>
      rw [hget, Option.getD_some] at hfolders
      have hname : (∃ name ∈ names, cm.lower name = cm.lower folder) ↔ folder ∈ names :=
        ⟨fun ⟨name, hmem, hlower⟩ => hfolders name hmem hlower ▸ hmem,
          fun hmem => ⟨folder, hmem, rfl⟩⟩
      simp only [Option.map_some, Option.getD_some, nameList, if_true, folderConfig_names, hname,
        Bool.true_and]

/-- The default form is the custom form with a map of spelled names. -/
lemma default_eq_custom_map {popular : Dict Str (List Str)}
    (hspelled : SpelledAs cm overview popular) :
    buildDefaultDomainsConfig cm overview popular target =
      buildCustomDomainsConfig cm overview (popularMap popular) target :=
  default_eq_custom hspelled fun _ => rfl

/-- The default form is the custom form with a list of spelled names. -/
lemma default_eq_custom_list {popular : Dict Str (List Str)}
    (hspelled : SpelledAs cm overview popular) :
    buildDefaultDomainsConfig cm overview popular target =
      buildCustomDomainsConfig cm overview (popularList popular) target := by
  apply default_eq_custom hspelled
  intro domain
  rw [← domainInList_single, popularList, getDomainConfig, Dict.items_mapValues, List.map_map]
  rfl

end Agreement

/-! ## What every form keeps -/

section Names

variable {cm : CaseMap} {overview : Overview} {target : Option Str}

/-- Distinct names are the keys of the map that is made of them. -/
lemma map_fst_items_ofList {ν : Type} {names : List Str} (h : (names.map cm.lower).Nodup)
    (value : Str → ν) :
    (Dict.ofList (names.map fun name => (name, value name))).items.map Prod.fst = names := by
  have hkeys : (names.map fun name => (name, value name)).map Prod.fst = names := by
    rw [List.map_map]
    exact List.map_id names
  rw [Dict.items_ofList_of_nodup (by rw [hkeys]; exact h.of_map), hkeys]

/-- A value of the map is that of a name. -/
lemma exists_of_mem_values_ofList {ν : Type} {names : List Str} {value : Str → ν} {v : ν}
    (h : v ∈ (Dict.ofList (names.map fun name => (name, value name))).items.map Prod.snd) :
    ∃ name, value name = v := by
  obtain ⟨entry, hmem, rfl⟩ := List.mem_map.mp h
  obtain ⟨name, -, hentry⟩ :=
    List.mem_map.mp (Dict.mem_of_get?_ofList (Dict.mem_items_iff.mp hmem))
  exact ⟨name, congrArg Prod.snd hentry⟩

/-- The names that are built are those of the overview. -/
lemma checklistNames_buildDomainsConfig (h : DistinctNames cm overview)
    (domainValue : Bool → Str → Str → Yaml) (folderValue : Bool → Str → Yaml) :
    checklistNames (buildDomainsConfig cm overview target domainValue folderValue) =
      overviewNames overview := by
  unfold checklistNames overviewNames
  rw [buildDomainsConfig_items, List.map_map]
  refine List.map_congr_left fun env henv => Prod.ext rfl ?_
  rw [Function.comp_apply, List.map_map]
  refine List.map_congr_left fun root hroot => ?_
  rw [Function.comp_apply, ChecklistRoot.names, RootNames.mk.injEq]
  refine ⟨rfl, ?_, map_fst_items_ofList (h.folder env henv root hroot) _⟩
  rw [Node.entries, items_ofList_domains, List.map_map]
  conv_rhs => rw [← List.map_id root.domains.items]
  refine List.map_congr_left fun domain hdomain => Prod.ext rfl ?_
  exact map_fst_items_ofList (h.domainFolder env henv root hroot domain hdomain) _

/-- A form whose values are `False` where the environment is not enabled. -/
lemma falseOutside_buildDomainsConfig {name : Str} (hname : name ≠ [])
    {domainValue : Bool → Str → Str → Yaml} {folderValue : Bool → Str → Yaml}
    (hdomain : ∀ domain folder, domainValue false domain folder = .bool false)
    (hfolder : ∀ folder, folderValue false folder = .bool false) :
    FalseOutside cm name
      (buildDomainsConfig cm overview (some name) domainValue folderValue) := by
  intro env henv henabled root hroot value hvalue
  rw [buildDomainsConfig_items] at henv
  obtain ⟨env, -, rfl⟩ := List.mem_map.mp henv
  obtain ⟨root, -, rfl⟩ := List.mem_map.mp hroot
  have hdisabled : isEnvEnabled cm (some name) env.1 = false := by
    simpa [isEnvEnabled, hname] using henabled
  rw [ChecklistRoot.values, List.mem_append] at hvalue
  rcases hvalue with hvalue | hvalue
  · obtain ⟨domain, hmem, hvalue⟩ := List.mem_flatMap.mp hvalue
    rw [Node.entries, items_ofList_domains] at hmem
    obtain ⟨domain, -, rfl⟩ := List.mem_map.mp hmem
    obtain ⟨folder, rfl⟩ := exists_of_mem_values_ofList hvalue
    rw [hdisabled]
    exact hdomain _ _
  · obtain ⟨folder, rfl⟩ := exists_of_mem_values_ofList hvalue
    rw [hdisabled]
    exact hfolder _

/-- The names of a short form are those of the overview. -/
lemma ShortForm.names {checklist : YamlChecklist} (h : DistinctNames cm overview)
    (hform : ShortForm cm overview target checklist) :
    checklistNames checklist = overviewNames overview := by
  cases hform with
  | default => exact checklistNames_buildDomainsConfig h _ _
  | custom => exact checklistNames_buildDomainsConfig h _ _
  | extended => exact checklistNames_buildDomainsConfig h _ _

/-- A short form with a target is false outside of it. -/
lemma ShortForm.falseOutside {checklist : YamlChecklist} {name : Str} (hname : name ≠ [])
    (hform : ShortForm cm overview (some name) checklist) : FalseOutside cm name checklist := by
  cases hform with
  | default => exact falseOutside_buildDomainsConfig hname (fun _ _ => rfl) fun _ => rfl
  | custom => exact falseOutside_buildDomainsConfig hname (fun _ _ => rfl) fun _ => rfl
  | extended => exact falseOutside_buildDomainsConfig hname (fun _ _ => rfl) fun _ => rfl

end Names

/-! ## The short forms -/

/-- The form for enabled domains is the selection of these domains exactly when no enabled domain is
known by another spelling only. The form for popular folders is the selection of these folders, as a
mapping or as a list, when they are written as in the overview. Every form keeps the names of the
overview and enables nothing outside of the environment that it is for. -/
theorem shortForms_agree (cm : CaseMap) (overview : Overview)
    (hdistinct : DistinctNames cm overview) (target : Option Str) :
    (∀ domains, buildExtendedDomainsConfig cm overview domains [] target =
        buildCustomDomainsConfig cm overview (nameList domains) target ↔
      KnowsDomains cm overview domains target) ∧
    (∀ popular, SpelledAs cm overview popular →
      buildDefaultDomainsConfig cm overview popular target =
          buildCustomDomainsConfig cm overview (popularMap popular) target ∧
        buildDefaultDomainsConfig cm overview popular target =
          buildCustomDomainsConfig cm overview (popularList popular) target) ∧
    ∀ checklist, ShortForm cm overview target checklist →
      checklistNames checklist = overviewNames overview ∧
        ∀ name, target = some name → name ≠ [] → FalseOutside cm name checklist := by
  refine ⟨fun domains => extended_eq_custom_iff, fun popular hspelled =>
    ⟨default_eq_custom_map hspelled, default_eq_custom_list hspelled⟩, fun checklist hform =>
    ⟨hform.names hdistinct, ?_⟩⟩
  rintro name rfl hname
  exact hform.falseOutside hname

/-- The names of the overview with one folder are distinct. -/
lemma distinctNames_oneFolderOverview : DistinctNames .ascii oneFolderOverview where
  domain := by decide +kernel
  domainFolder := by decide +kernel
  folder := by decide +kernel

/-- An overview of two environments, with two domains and an archive folder in each. -/
def twoDomainOverview : Overview :=
  let roots : List OverviewRoot := [
    ⟨"TP_export".toList, Dict.ofList [
      ("Load".toList, ["ActualTotalLoad_6.1.A_r3".toList,
        "DayAheadTotalLoadForecast_6.1.B_r3".toList]),
      ("Market".toList, ["EnergyPrices_12.1.D_r3".toList])], []⟩,
    ⟨"TP_Legacy_Publications".toList, ∅, ["Load_r2".toList]⟩]
  Dict.ofList [("IOP".toList, roots), ("PROD".toList, roots)]

/-- The names of the overview with two domains are distinct. -/
lemma distinctNames_twoDomainOverview : DistinctNames .ascii twoDomainOverview where
  domain := by decide +kernel
  domainFolder := by decide +kernel
  folder := by decide +kernel

/-- The popular folders of one domain. -/
def popularLoad : Dict Str (List Str) :=
  Dict.ofList [("Load".toList, ["ActualTotalLoad_6.1.A_r3".toList])]

/-- The popular names are spelled as in the overview. -/
lemma spelledAs_popularLoad : SpelledAs .ascii twoDomainOverview popularLoad where
  domain := by decide +kernel
  folder := by decide +kernel

/-- The short forms for one of two environments, one of two domains and one of its two folders. -/
theorem shortForms_agree_twoDomains :
    buildExtendedDomainsConfig .ascii twoDomainOverview ["Load".toList] [] (some "IOP".toList) =
      buildCustomDomainsConfig .ascii twoDomainOverview (nameList ["Load".toList])
        (some "IOP".toList) ∧
    buildDefaultDomainsConfig .ascii twoDomainOverview popularLoad (some "IOP".toList) =
      buildCustomDomainsConfig .ascii twoDomainOverview (popularList popularLoad)
        (some "IOP".toList) ∧
    FalseOutside .ascii "IOP".toList
      (buildDefaultDomainsConfig .ascii twoDomainOverview popularLoad (some "IOP".toList)) := by
  obtain ⟨hextended, hdefault, hforms⟩ := shortForms_agree .ascii twoDomainOverview
    distinctNames_twoDomainOverview (some "IOP".toList)
  refine ⟨(hextended _).mpr ?_, (hdefault popularLoad spelledAs_popularLoad).2,
    (hforms _ (.default popularLoad)).2 _ rfl (by decide)⟩
  unfold KnowsDomains
  decide +kernel

/-- A domain in lower case is enabled by the selection only, and for an empty environment a folder
is enabled in every environment. -/
theorem not_shortForms_agree : DistinctNames .ascii oneFolderOverview ∧
    buildExtendedDomainsConfig .ascii oneFolderOverview ["load".toList] [] (some "IOP".toList) ≠
      buildCustomDomainsConfig .ascii oneFolderOverview (nameList ["load".toList])
        (some "IOP".toList) ∧
    ¬ FalseOutside .ascii []
      (buildExtendedDomainsConfig .ascii oneFolderOverview ["Load".toList] [] (some [])) := by
  refine ⟨distinctNames_oneFolderOverview, fun heq => ?_, fun hfalse => ?_⟩
  · have hknows := extended_eq_custom_iff.mp heq
    unfold KnowsDomains at hknows
    revert hknows
    decide +kernel
  · have hvalue := hfalse ("IOP".toList, _) (List.mem_singleton_self _) (by decide +kernel) _
      (List.mem_singleton_self _) (.bool true) (List.mem_singleton_self _)
    cases hvalue

end EntsoePipeline
