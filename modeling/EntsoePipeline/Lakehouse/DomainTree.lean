import EntsoePipeline.Landing.Paths
import EntsoePipeline.Lib.EventLog

set_option relaxedAutoImplicit false
set_option autoImplicit false

/-!
# The directory tree of the checklist

Before the first sync the landing bucket is given a directory for each folder that the checklist
enables. The enabled folders of all environments are collected in one set, and a path of the landing
schema is created when its first segment and one of its segments are in it. The sync takes the
environments one by one and the enabled folders of each in their order.

## Main definitions

* `EntsoePipeline.getActiveFolders`, `EntsoePipeline.targetFolders` — the enabled folders and the
  paths that are created.
* `EntsoePipeline.generateTreeForMyEntsoeDomains` — the creation of the directories.
* `EntsoePipeline.LandingSchema` — distinct paths of an environment and what lies below it.
* `EntsoePipeline.Fills` — the sync of an environment fills the path.

## Main results

* `EntsoePipeline.resolveTargetMappings_schemaPaths` — the mappings of an environment are the paths
  that it fills.
* `EntsoePipeline.mem_targetFolders_iff` — the created paths are those that some environment fills.
* `EntsoePipeline.exists_mappings` — the created directories are the paths of the mappings.
* `EntsoePipeline.tree_matches_sync` — a run creates these directories.
-/

namespace EntsoePipeline

open Py EventLog

/-! ## The code -/

section Code

variable (cm : CaseMap)

/-- The names of the enabled folders. -/
def enabledFolders (folders : Dict Str EntryValue) : List Str :=
  (folders.items.filter fun entry => entry.2 ≠ .bool false).map Prod.fst

/-- The enabled folders of all environments, each with its environment in lower case. -/
def getActiveFolders (checklist : Checklist) : Finset (Str × Str) :=
  (checklist.items.flatMap fun env => env.2.flatMap fun rdir =>
    ((rdir.domains.values.flatMap enabledFolders) ++ enabledFolders rdir.folders).map fun folder =>
      (cm.lower env.1, folder)).toFinset

/-- An enabled folder of the environment that is the first segment is among the segments. -/
def matchesActive (activeFolders : Finset (Str × Str)) (path : Str) : Bool :=
  match split '/' path with
  | [] => false
  | envLowercase :: rest =>
    decide (∃ active ∈ activeFolders, envLowercase = active.1 ∧ active.2 ∈ envLowercase :: rest)

/-- The paths of the landing schema that are created. -/
def targetFolders (activeFolders : Finset (Str × Str)) (schemaFolders : List Str) : List Str :=
  schemaFolders.filter (matchesActive activeFolders)

/-- The key of a directory. -/
def directoryKey (folder : Str) : Str := strip '/' folder ++ ['/']

variable {W ε : Type}

/-- What the creation calls, on a world that each of them may read and change. -/
structure TreeCallees (W ε : Type) where
  /-- The check of the bucket. -/
  ensureBucketExists : W → Except ε Unit × W
  /-- The creation of an empty object. -/
  putObject : (key : Str) → W → Except ε Unit × W

/-- The loop over the directories. The log shows the keys that are created. -/
def createDirectories (callees : TreeCallees W ε) : List Str → Program W Str ε Unit
  | [] => pure ()
  | folder :: folders => do
    call (callees.putObject (directoryKey folder))
    emit (directoryKey folder)
    createDirectories callees folders

/-- Create the directories of the checklist. -/
def generateTreeForMyEntsoeDomains (callees : TreeCallees W ε) (checklist : Checklist)
    (schemaFolders : List Str) : Program W Str ε Unit := do
  call callees.ensureBucketExists
  createDirectories callees (targetFolders (getActiveFolders cm checklist) schemaFolders)

end Code

/-! ## The landing schema -/

/-- The paths of a landing schema are distinct, and each is an environment and at least one segment
below it. -/
structure LandingSchema (paths : List Str) : Prop where
  nodup : paths.Nodup
  path : ∀ path ∈ paths, ∃ segs : List (Segment '/'), 2 ≤ segs.length ∧ path = renderPath segs

/-- The builder leaves a landing schema when the environments and domains of the folder rows are
names and their paths have no empty segment. -/
lemma landingSchema_buildLandingBucketSchema {cm : CaseMap} {cat : Catalog}
    (hrows : ∀ key row, cat.folders.get? key = some row →
      (∃ env : Segment '/', cm.lower key.environment = env.text) ∧
      (∃ domain : Segment '/', row.domain = domain.text) ∧
      ∃ segs : List (Segment '/'), segs ≠ [] ∧ key.folderPath = '/' :: (renderPath segs ++ ['/'])) :
    LandingSchema (buildLandingBucketSchema cm cat ∅).keys where
  nodup := (buildLandingBucketSchema cm cat ∅).nodup
  path := by
    intro path hpath
    obtain ⟨key, row, landing, hget, hlayout⟩ :=
      mem_keys_buildLandingBucketSchema hpath (by simp)
    obtain ⟨⟨env, henv⟩, ⟨domain, hdomain⟩, segs, hne, hfolder⟩ := hrows key row hget
    rw [layoutFolder, hfolder, strip_wrapped_renderPath hne, split_renderPath hne, henv, hdomain]
      at hlayout
    rcases segs with _ | ⟨root, _ | ⟨folder, rest⟩⟩
    · exact absurd rfl hne
    · cases hlayout
    · refine ⟨[env, root, domain, folder], by simp, ?_⟩
      cases hlayout
      rfl

/-! ## What the sync fills -/

section Sync

variable {cm : CaseMap} {env : Str} {activeFolders : Dict Str EntryValue}

/-- The sync of an environment fills a path: it is below the environment, and an enabled folder is
among its segments. -/
def Fills (cm : CaseMap) (env : Str) (activeFolders : Dict Str EntryValue) (path : Str) : Prop :=
  (split '/' path).head? = some (cm.lower env) ∧ ∃ folder ∈ activeFolders.keys,
    folder ∈ split '/' path

/-- A path of two segments or more is mapped exactly when an enabled folder fills it. -/
lemma resolvePath_spec {path : Str} (h : 2 ≤ (split '/' path).length) :
    ∃ mapping, resolvePath cm env activeFolders path = .ok mapping ∧
      ∀ schemaPath, schemaPath ∈ mapping.toList.map Mapping.schemaPath ↔
        schemaPath = path ∧ Fills cm env activeFolders path := by
  unfold resolvePath Fills
  match hsplit : split '/' path, h with
  | first :: topLevel :: relPath, _ =>
    dsimp only
    by_cases hfirst : first = cm.lower env
    · rw [if_neg (not_not.mpr hfirst)]
      cases hfind : activeFolders.items.find? fun entry =>
          isSegment (first :: topLevel :: relPath) entry.1 with
      | none =>
        refine ⟨none, rfl, fun schemaPath => ?_⟩
        have hnone : ¬ ∃ folder ∈ activeFolders.keys, folder ∈ first :: topLevel :: relPath := by
          rintro ⟨folder, hkey, hmem⟩
          obtain ⟨entry, hentry, rfl⟩ := List.mem_map.mp hkey
          exact List.find?_eq_none.mp hfind entry hentry (decide_eq_true hmem)
        rw [Option.toList_none, List.map_nil]
        exact ⟨fun hmem => absurd hmem List.not_mem_nil, fun hfills => absurd hfills.2.2 hnone⟩
      | some entry =>
        refine ⟨some ⟨path, entry.1, topLevel, join ['/'] relPath, entry.2⟩, rfl,
          fun schemaPath => ?_⟩
        have hseg := List.find?_some hfind
        have hsome : ∃ folder ∈ activeFolders.keys, folder ∈ first :: topLevel :: relPath :=
          ⟨entry.1, List.mem_map_of_mem (List.mem_of_find?_eq_some hfind), of_decide_eq_true hseg⟩
        rw [Option.toList_some, List.map_singleton, List.mem_singleton, List.head?_cons, hfirst]
        exact (and_iff_left ⟨rfl, hfirst ▸ hsome⟩).symm
    · rw [if_pos hfirst]
      refine ⟨none, rfl, fun schemaPath => ?_⟩
      simp [hfirst]

/-- The mappings of an environment are for the paths that it fills. -/
lemma resolveTargetMappings_schemaPaths {schemaFolders : List Str}
    (h : ∀ path ∈ schemaFolders, 2 ≤ (split '/' path).length) :
    ∃ mappings, resolveTargetMappings cm env activeFolders schemaFolders = .ok mappings ∧
      ∀ path, path ∈ mappings.map Mapping.schemaPath ↔
        path ∈ schemaFolders ∧ Fills cm env activeFolders path := by
  induction schemaFolders with
  | nil => exact ⟨[], rfl, fun path => by simp⟩
  | cons path paths ih =>
    rw [List.forall_mem_cons] at h
    obtain ⟨mapping, hmapping, hpath⟩ := @resolvePath_spec cm env activeFolders path h.1
    obtain ⟨mappings, hmappings, hpaths⟩ := ih h.2
    refine ⟨mapping.toList ++ mappings, ?_, fun schemaPath => ?_⟩
    · rw [resolveTargetMappings, hmapping, hmappings]
      rfl
    · rw [List.map_append, List.mem_append, hpath, hpaths, List.mem_cons, or_and_right]
      refine or_congr (and_congr_right ?_) Iff.rfl
      rintro rfl
      rfl

end Sync

/-! ## The enabled folders -/

section Active

variable {cm : CaseMap} {checklist : Checklist}

/-- A folder is enabled when one of its entries is. -/
lemma mem_enabledFolders_iff {folders : Dict Str EntryValue} {folder root : Str}
    {domain : Option Str} : folder ∈ enabledFolders folders ↔
      ∃ entry ∈ groupEntries root domain folders, entry.val ≠ .bool false ∧
        entry.folder = folder := by
  unfold enabledFolders groupEntries
  simp [List.mem_map, List.mem_filter, and_assoc]

/-- The enabled folders of a root directory are those of its entries. -/
lemma mem_rootFolders_iff {rdir : RootDirectory} {folder : Str} :
    folder ∈ rdir.domains.values.flatMap enabledFolders ++ enabledFolders rdir.folders ↔
      ∃ entry ∈ treeEntries [rdir], entry.val ≠ .bool false ∧ entry.folder = folder := by
  have hdomains : folder ∈ rdir.domains.values.flatMap enabledFolders ↔
      ∃ entry ∈ rdir.domains.items.flatMap fun domain =>
          groupEntries rdir.name (some domain.1) domain.2,
        entry.val ≠ .bool false ∧ entry.folder = folder := by
    rw [Dict.values, List.flatMap_map, List.mem_flatMap]
    constructor
    · rintro ⟨domain, hdomain, hfolder⟩
      obtain ⟨entry, hentry, hval⟩ := mem_enabledFolders_iff.mp hfolder
      exact ⟨entry, List.mem_flatMap.mpr ⟨domain, hdomain, hentry⟩, hval⟩
    · rintro ⟨entry, hentry, hval⟩
      obtain ⟨domain, hdomain, hentry⟩ := List.mem_flatMap.mp hentry
      exact ⟨domain, hdomain, mem_enabledFolders_iff.mpr ⟨entry, hentry, hval⟩⟩
  rw [List.mem_append, hdomains, @mem_enabledFolders_iff rdir.folders folder rdir.name none]
  unfold treeEntries
  rw [List.flatMap_singleton]
  constructor
  · rintro (⟨entry, hentry, hval⟩ | ⟨entry, hentry, hval⟩)
    · exact ⟨entry, List.mem_append_left _ hentry, hval⟩
    · exact ⟨entry, List.mem_append_right _ hentry, hval⟩
  · rintro ⟨entry, hentry, hval⟩
    rcases List.mem_append.mp hentry with hentry | hentry
    · exact Or.inl ⟨entry, hentry, hval⟩
    · exact Or.inr ⟨entry, hentry, hval⟩

/-- A folder is active when an entry of its environment enables it. -/
lemma mem_getActiveFolders_iff {envLowercase folder : Str} :
    (envLowercase, folder) ∈ getActiveFolders cm checklist ↔
      ∃ env ∈ checklist.items, cm.lower env.1 = envLowercase ∧
        ∃ entry ∈ treeEntries env.2, entry.val ≠ .bool false ∧ entry.folder = folder := by
  unfold getActiveFolders
  rw [List.mem_toFinset, List.mem_flatMap]
  refine exists_congr fun env => and_congr_right fun _ => ?_
  have htree : (∃ entry ∈ treeEntries env.2, entry.val ≠ .bool false ∧ entry.folder = folder) ↔
      ∃ rdir ∈ env.2, ∃ entry ∈ treeEntries [rdir],
        entry.val ≠ .bool false ∧ entry.folder = folder := by
    unfold treeEntries
    simp only [List.flatMap_singleton, List.mem_flatMap]
    constructor
    · rintro ⟨entry, ⟨rdir, hrdir, hentry⟩, hval⟩
      exact ⟨rdir, hrdir, entry, hentry, hval⟩
    · rintro ⟨rdir, hrdir, entry, hentry, hval⟩
      exact ⟨entry, ⟨rdir, hrdir, hentry⟩, hval⟩
  rw [htree, List.mem_flatMap]
  constructor
  · rintro ⟨rdir, hrdir, hpair⟩
    obtain ⟨folder, hfolder, heq⟩ := List.mem_map.mp hpair
    cases heq
    exact ⟨rfl, rdir, hrdir, mem_rootFolders_iff.mp hfolder⟩
  · rintro ⟨rfl, rdir, hrdir, hentry⟩
    exact ⟨rdir, hrdir, List.mem_map.mpr ⟨folder, mem_rootFolders_iff.mpr hentry, rfl⟩⟩

/-- When the environments are distinct up to case, each is found by its name. -/
lemma envData_of_mem (hkeys : (checklist.keys.map cm.upper).Nodup)
    {env : Str × List RootDirectory} (henv : env ∈ checklist.items) (hne : env.1 ≠ []) :
    envData cm env.1 checklist = some env.2 := by
  have hkey : env.1 ∈ checklist.keys := List.mem_map_of_mem henv
  unfold envData
  cases hfind : checklist.keys.find? fun k => cm.upper k = cm.upper env.1 with
  | none => simpa using List.find?_eq_none.mp hfind env.1 hkey
  | some envKey =>
    have heq : envKey = env.1 := List.inj_on_of_nodup_map hkeys (List.mem_of_find?_eq_some hfind)
      hkey (by simpa using List.find?_some hfind)
    rw [heq]
    dsimp only
    rw [if_neg hne]
    exact Dict.mem_items_iff.mp henv

/-- The folders that the sync extracts are those of the enabled entries. -/
lemma mem_keys_extractActiveFolders_iff (hkeys : (checklist.keys.map cm.upper).Nodup)
    {env : Str × List RootDirectory} (henv : env ∈ checklist.items) (hne : env.1 ≠ [])
    {folder : Str} : folder ∈ (extractActiveFolders cm env.1 checklist).keys ↔
      ∃ entry ∈ treeEntries env.2, entry.val ≠ .bool false ∧ entry.folder = folder := by
  rw [extractActiveFolders_eq, Dict.mem_keys_ofList, activeEntries, envData_of_mem hkeys henv hne,
    Option.getD_some]
  simp [and_assoc]

/-- A path of the schema is created when some environment fills it. -/
lemma mem_targetFolders_iff (hkeys : (checklist.keys.map cm.upper).Nodup) {schemaFolders : List Str}
    (hschema : LandingSchema schemaFolders) {path : Str} :
    path ∈ targetFolders (getActiveFolders cm checklist) schemaFolders ↔ path ∈ schemaFolders ∧
      ∃ env ∈ checklist.keys, Fills cm env (extractActiveFolders cm env checklist) path := by
  unfold targetFolders
  rw [List.mem_filter]
  refine and_congr_right fun hpath => ?_
  obtain ⟨segs, hlength, rfl⟩ := hschema.path path hpath
  match segs, hlength with
  | first :: segs, _ =>
    have hsplit : split '/' (renderPath (first :: segs)) = first.text :: segs.map Segment.text :=
      split_renderPath (List.cons_ne_nil _ _)
    unfold matchesActive Fills
    rw [hsplit]
    dsimp only
    rw [decide_eq_true_iff]
    constructor
    · rintro ⟨⟨envLowercase, folder⟩, hactive, hfirst, hfolder⟩
      obtain ⟨env, henv, hlower, hentry⟩ := mem_getActiveFolders_iff.mp hactive
      have hne : env.1 ≠ [] := by
        intro hnil
        rw [hnil, cm.lower_nil] at hlower
        exact first.ne_nil (hfirst.trans hlower.symm)
      refine ⟨env.1, List.mem_map_of_mem henv, ?_, folder,
        (mem_keys_extractActiveFolders_iff hkeys henv hne).mpr hentry, hfolder⟩
      rw [List.head?_cons, hfirst, hlower]
    · rintro ⟨env, hkey, hfirst, folder, hactive, hfolder⟩
      obtain ⟨env, henv, rfl⟩ := List.mem_map.mp hkey
      have hfirst : first.text = cm.lower env.1 := Option.some.inj hfirst
      have hne : env.1 ≠ [] := by
        intro hnil
        rw [hnil, cm.lower_nil] at hfirst
        exact first.ne_nil hfirst
      exact ⟨(cm.lower env.1, folder), mem_getActiveFolders_iff.mpr ⟨env, henv, rfl,
        (mem_keys_extractActiveFolders_iff hkeys henv hne).mp hactive⟩, hfirst, hfolder⟩

end Active

/-! ## The created directories -/

/-- The directories are created in order, all of them when the run returns. -/
def Creates {ε α : Type} (expected : List Str) (r : Except ε α) (new : List Str) : Prop :=
  new <+: expected ∧ ((∃ a, r = .ok a) → new = expected)

section Created

variable {W ε : Type} {callees : TreeCallees W ε}

/-- The creation of directories logs each directory that it has created. -/
lemma emits_createDirectories (folders : List Str) :
    Emits (createDirectories callees folders) (Creates (folders.map directoryKey)) := by
  induction folders with
  | nil => exact emits_pure ⟨List.prefix_refl _, fun _ => rfl⟩
  | cons folder folders ih =>
    have hput : Emits (call (callees.putObject (directoryKey folder)) : Program W Str ε Unit)
        fun _ new => new = [] := emits_call fun _ => rfl
    have hemit : Emits (emit (directoryKey folder) : Program W Str ε Unit)
        fun r new => r = .ok () ∧ new = [directoryKey folder] := emits_emit ⟨rfl, rfl⟩
    refine (hput.bind fun _ => hemit.bind fun _ => ih).mono ?_
    rintro r new (⟨e, rfl, rfl⟩ | ⟨-, -, new, rfl, rfl, hrest⟩)
    · refine ⟨List.nil_prefix, ?_⟩
      rintro ⟨a, ha⟩
      cases ha
    · rcases hrest with ⟨e, -, hok, -⟩ | ⟨-, -, back, rfl, ⟨-, rfl⟩, hback, hall⟩
      · cases hok
      · exact ⟨List.cons_prefix_cons.mpr ⟨rfl, hback⟩, fun hok =>
          congrArg (directoryKey folder :: ·) (hall hok)⟩

/-- The directory tree logs each directory that it has created. -/
lemma emits_generateTree (cm : CaseMap) (checklist : Checklist) (schemaFolders : List Str) :
    Emits (generateTreeForMyEntsoeDomains cm callees checklist schemaFolders) (Creates
      ((targetFolders (getActiveFolders cm checklist) schemaFolders).map directoryKey)) := by
  have hbucket : Emits (call callees.ensureBucketExists : Program W Str ε Unit)
      fun _ new => new = [] := emits_call fun _ => rfl
  refine (hbucket.bind fun _ => emits_createDirectories _).mono ?_
  rintro r new (⟨e, rfl, rfl⟩ | ⟨-, -, new, rfl, rfl, hcreates⟩)
  · refine ⟨List.nil_prefix, ?_⟩
    rintro ⟨a, ha⟩
    cases ha
  · exact hcreates

end Created

/-- A path of a landing schema has two segments or more. -/
lemma LandingSchema.two_le_length {schemaFolders : List Str} (h : LandingSchema schemaFolders) :
    ∀ path ∈ schemaFolders, 2 ≤ (split '/' path).length := by
  intro path hpath
  obtain ⟨segs, hlength, rfl⟩ := h.path path hpath
  rw [split_renderPath (List.ne_nil_of_length_pos (by omega)), List.length_map]
  exact hlength

/-- The directory of a path of a landing schema is the path with a slash. -/
lemma LandingSchema.directoryKey_eq {schemaFolders : List Str} (h : LandingSchema schemaFolders)
    {path : Str} (hpath : path ∈ schemaFolders) : directoryKey path = path ++ ['/'] := by
  obtain ⟨segs, -, rfl⟩ := h.path path hpath
  rw [directoryKey, strip_renderPath]

/-- The mappings of every environment exist, and the created directories are those of their
paths. -/
lemma exists_mappings {cm : CaseMap} {checklist : Checklist} {schemaFolders : List Str}
    (hkeys : (checklist.keys.map cm.upper).Nodup) (hschema : LandingSchema schemaFolders) :
    ∃ mappings : Str → List Mapping,
      (∀ env, resolveTargetMappings cm env (extractActiveFolders cm env checklist) schemaFolders =
        .ok (mappings env)) ∧
      ∀ key, key ∈ (targetFolders (getActiveFolders cm checklist) schemaFolders).map directoryKey ↔
        ∃ env ∈ checklist.keys, ∃ mapping ∈ mappings env, key = mapping.schemaPath ++ ['/'] := by
  have hmappings : ∀ env, ∃ mappings, resolveTargetMappings cm env
      (extractActiveFolders cm env checklist) schemaFolders = .ok mappings ∧
        ∀ path, path ∈ mappings.map Mapping.schemaPath ↔
          path ∈ schemaFolders ∧ Fills cm env (extractActiveFolders cm env checklist) path :=
    fun env => resolveTargetMappings_schemaPaths hschema.two_le_length
  choose mappings hok hpaths using hmappings
  refine ⟨mappings, hok, fun key => ?_⟩
  rw [List.mem_map]
  constructor
  · rintro ⟨path, hpath, rfl⟩
    obtain ⟨hmem, env, henv, hfills⟩ := (mem_targetFolders_iff hkeys hschema).mp hpath
    obtain ⟨mapping, hmapping, rfl⟩ := List.mem_map.mp ((hpaths env path).mpr ⟨hmem, hfills⟩)
    exact ⟨env, henv, mapping, hmapping, hschema.directoryKey_eq hmem⟩
  · rintro ⟨env, henv, mapping, hmapping, rfl⟩
    obtain ⟨hmem, hfills⟩ := (hpaths env mapping.schemaPath).mp (List.mem_map_of_mem hmapping)
    exact ⟨mapping.schemaPath, (mem_targetFolders_iff hkeys hschema).mpr ⟨hmem, env, henv, hfills⟩,
      hschema.directoryKey_eq hmem⟩

/-- The directories of a landing schema are distinct. -/
lemma nodup_directories {activeFolders : Finset (Str × Str)} {schemaFolders : List Str}
    (hschema : LandingSchema schemaFolders) :
    ((targetFolders activeFolders schemaFolders).map directoryKey).Nodup := by
  have hkeys : (targetFolders activeFolders schemaFolders).map directoryKey =
      (targetFolders activeFolders schemaFolders).map (· ++ ['/']) :=
    List.map_congr_left fun path hpath => hschema.directoryKey_eq (List.mem_of_mem_filter hpath)
  rw [hkeys]
  exact (hschema.nodup.filter _).map (List.append_left_injective _)

/-- **The tree is what the sync fills.** The mappings of every environment exist, and the created
directories are distinct and are the paths of these mappings, all of them when the run returns. -/
theorem tree_matches_sync {W ε : Type} (cm : CaseMap) (callees : TreeCallees W ε)
    (checklist : Checklist) (schemaFolders : List Str)
    (hkeys : (checklist.keys.map cm.upper).Nodup) (hschema : LandingSchema schemaFolders)
    (world : W) :
    ∃ mappings : Str → List Mapping,
      (∀ env ∈ checklist.keys, resolveTargetMappings cm env
        (extractActiveFolders cm env checklist) schemaFolders = .ok (mappings env)) ∧
      (∀ run, run = (generateTreeForMyEntsoeDomains cm callees checklist schemaFolders).start
        world → run.2.events.Nodup ∧
        (∀ key ∈ run.2.events, ∃ env ∈ checklist.keys, ∃ mapping ∈ mappings env,
          key = mapping.schemaPath ++ ['/']) ∧
        (run.1 = .ok () → ∀ env ∈ checklist.keys, ∀ mapping ∈ mappings env,
          mapping.schemaPath ++ ['/'] ∈ run.2.events)) := by
  obtain ⟨mappings, hok, hmem⟩ := exists_mappings hkeys hschema
  refine ⟨mappings, fun env _ => hok env, ?_⟩
  rintro run rfl
  obtain ⟨hsub, hall⟩ :=
    (@emits_generateTree W ε callees cm checklist schemaFolders).start world
  refine ⟨hsub.sublist.nodup (nodup_directories hschema), fun key hkey => ?_,
    fun hreturns env henv mapping hmapping => ?_⟩
  · exact (hmem key).mp (hsub.subset hkey)
  · rw [hall ⟨(), hreturns⟩]
    exact (hmem _).mpr ⟨env, henv, mapping, hmapping, rfl⟩

/-- A checklist with an enabled and a disabled publication, an archive and a second environment. -/
def treeChecklist : Checklist :=
  Dict.ofList [
    ("IOP".toList, [
      ⟨"TP_export".toList, Dict.ofList [("Load".toList, Dict.ofList
        [("Load_r3".toList, .bool true), ("Forecast_r3".toList, .bool false)])], ∅⟩,
      ⟨"TP_Legacy_Publications".toList, ∅, Dict.ofList [("Load_r2".toList, .bool true)]⟩]),
    ("PROD".toList, [
      ⟨"TP_export".toList, Dict.ofList [("Market".toList, Dict.ofList
        [("Prices_r3".toList, .files ["2026_04.csv".toList])])], ∅⟩])]

/-- The landing paths of the publications in both environments, and of the archive in one. -/
def treeSchema : List Str :=
  ["iop/TP_export/Load/Load_r3".toList, "iop/TP_export/Load/Forecast_r3".toList,
    "iop/TP_Legacy_Publications/R2_Archives/Load_r2".toList,
    "prod/TP_export/Load/Load_r3".toList, "prod/TP_export/Market/Prices_r3".toList]

/-- Paths are a landing schema when they are distinct and their segments are not empty. -/
lemma landingSchema_of_split {paths : List Str} (hnodup : paths.Nodup)
    (hsplit : ∀ path ∈ paths, 2 ≤ (split '/' path).length ∧ ∀ name ∈ split '/' path, name ≠ []) :
    LandingSchema paths where
  nodup := hnodup
  path path hpath := by
    obtain ⟨hlength, hnames⟩ := hsplit path hpath
    refine ⟨(split '/' path).attach.map fun name =>
      ⟨name.1, hnames name.1 name.2, not_mem_of_mem_split name.2⟩, by simpa using hlength, ?_⟩
    rw [renderPath, List.map_map]
    exact (join_split '/' path).symm.trans
      (congrArg (join ['/']) (List.attach_map_subtype_val _).symm)

/-- In two environments the directories of the enabled folders are created, and no others. -/
theorem tree_matches_sync_twoEnvironments :
    ((generateTreeForMyEntsoeDomains .ascii (⟨fun w => (.ok (), w), fun _ w => (.ok (), w)⟩ :
      TreeCallees Unit Empty) treeChecklist treeSchema).start ()).2.events.Perm
        ["iop/TP_export/Load/Load_r3/".toList,
          "iop/TP_Legacy_Publications/R2_Archives/Load_r2/".toList,
          "prod/TP_export/Market/Prices_r3/".toList] := by
  obtain ⟨mappings, hok, hrun⟩ := tree_matches_sync .ascii
    (⟨fun w => (.ok (), w), fun _ w => (.ok (), w)⟩ : TreeCallees Unit Empty) treeChecklist
    treeSchema (by decide) (landingSchema_of_split (by decide) (by decide)) ()
  obtain ⟨hnodup, hsub, hall⟩ := hrun _ rfl
  have hiop : resolveTargetMappings .ascii "IOP".toList
      (extractActiveFolders .ascii "IOP".toList treeChecklist) treeSchema =
        .ok [⟨"iop/TP_export/Load/Load_r3".toList, "Load_r3".toList, "TP_export".toList,
          "Load/Load_r3".toList, .bool true⟩,
          ⟨"iop/TP_Legacy_Publications/R2_Archives/Load_r2".toList, "Load_r2".toList,
            "TP_Legacy_Publications".toList, "R2_Archives/Load_r2".toList, .bool true⟩] := by
    decide +kernel
  have hprod : resolveTargetMappings .ascii "PROD".toList
      (extractActiveFolders .ascii "PROD".toList treeChecklist) treeSchema =
        .ok [⟨"prod/TP_export/Market/Prices_r3".toList, "Prices_r3".toList, "TP_export".toList,
          "Market/Prices_r3".toList, .files ["2026_04.csv".toList]⟩] := by
    decide +kernel
  have hiopEq := Except.ok.inj ((hok "IOP".toList (by decide)).symm.trans hiop)
  have hprodEq := Except.ok.inj ((hok "PROD".toList (by decide)).symm.trans hprod)
  have henvs : treeChecklist.keys = ["IOP".toList, "PROD".toList] := by decide
  rw [henvs] at hsub hall
  simp only [List.forall_mem_cons, List.exists_mem_cons_iff, hiopEq, hprodEq] at hsub hall
  refine (List.perm_ext_iff_of_nodup hnodup (by decide)).mpr fun key => ?_
  constructor
  · intro hkey
    have hcases := hsub key hkey
    simpa [or_assoc] using hcases
  · intro hkey
    obtain ⟨⟨hload, harchive, -⟩, ⟨hprices, -⟩, -⟩ := hall rfl
    simp only [List.mem_cons, List.not_mem_nil, or_false] at hkey
    rcases hkey with rfl | rfl | rfl
    · exact hload
    · exact harchive
    · exact hprices

end EntsoePipeline
