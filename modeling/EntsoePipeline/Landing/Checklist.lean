import EntsoePipeline.Landing.Layout

set_option relaxedAutoImplicit false
set_option autoImplicit false

/-!
# The checklist and the landing paths

The user's checklist enables folders of the remote roots. Its entries are collected by bare folder
name, the names are matched against the segments of the landing paths, and each matched path is
turned into a remote listing.

## Main definitions

* `EntsoePipeline.Checklist`, `EntsoePipeline.EntryValue` — the checklist tree and the value of
  an entry.
* `EntsoePipeline.extractActiveFolders` — the enabled folders by name.
* `EntsoePipeline.resolveTargetMappings` — the landing paths that an enabled folder matches.
* `EntsoePipeline.selectFilesToSync` — the remote listing of a mapping and the files it selects.
* `EntsoePipeline.activeEntries` — the enabled entries of the tree in reading order.
* `EntsoePipeline.LandingPath` — a landing path of four segments.

## Main results

* `EntsoePipeline.extractActiveFolders_eq` — the enabled folders are a comprehension over the
  enabled entries, so the last entry of a name wins.
* `EntsoePipeline.resolveTargetMappings_landing` — the mappings of paths of four segments.
-/

namespace EntsoePipeline

open Py

/-! ## The code -/

/-- The value of a checklist entry. -/
inductive EntryValue
  /-- `True` or `False`. -/
  | bool (b : Bool)
  /-- A list of file names. -/
  | files (names : List Str)
  /-- An empty value. -/
  | null
  deriving DecidableEq

/-- A root directory of the checklist. -/
structure RootDirectory where
  /-- The name of the root directory. -/
  name : Str
  /-- The entries listed by domain. -/
  domains : Dict Str (Dict Str EntryValue)
  /-- The entries listed without a domain. -/
  folders : Dict Str EntryValue

/-- The root directories of each environment. -/
abbrev Checklist := Dict Str (List RootDirectory)

/-- The root directories of an environment, whose name is matched up to letter case. -/
def envData (cm : CaseMap) (env : Str) (checklist : Checklist) : Option (List RootDirectory) :=
  match checklist.keys.find? fun k => cm.upper k = cm.upper env with
  | some envKey => if envKey = [] then none else checklist.get? envKey
  | none => none

/-- Add the enabled entries of one group of folders. -/
def collectFolders (active folders : Dict Str EntryValue) : Dict Str EntryValue :=
  folders.items.foldl (fun active entry =>
    if entry.2 ≠ .bool false then active.set entry.1 entry.2 else active) active

/-- The enabled folders of an environment by name. -/
def extractActiveFolders (cm : CaseMap) (env : Str) (checklist : Checklist) :
    Dict Str EntryValue :=
  match envData cm env checklist with
  | some rootDirs => rootDirs.foldl (fun active rdir =>
      collectFolders (rdir.domains.values.foldl collectFolders active) rdir.folders) ∅
  | none => ∅

/-- A landing path matched by an enabled folder. -/
structure Mapping where
  /-- The landing path. -/
  schemaPath : Str
  /-- The enabled folder that matched. -/
  activeFolder : Str
  /-- The root directory: the second segment of the path. -/
  topLevelFolder : Str
  /-- The path behind the root directory. -/
  remoteFolderPath : Str
  /-- The value of the enabled folder. -/
  val : EntryValue
  deriving DecidableEq

/-- `active_folder in segments`. -/
def isSegment (segments : List Str) (activeFolder : Str) : Bool := decide (activeFolder ∈ segments)

/-- The mapping of one landing path: its first segment is the environment, and the first enabled
folder that is among its segments is taken. -/
def resolvePath (cm : CaseMap) (env : Str) (activeFolders : Dict Str EntryValue) (path : Str) :
    Except PyError (Option Mapping) :=
  match split '/' path with
  | [] => .ok none
  | first :: rest =>
    if first ≠ cm.lower env then .ok none
    else
      match activeFolders.items.find? fun entry => isSegment (first :: rest) entry.1 with
      | none => .ok none
      | some (activeFolder, val) =>
        match rest with
        | [] => .error .indexError
        | topLevel :: relPath => .ok (some ⟨path, activeFolder, topLevel, join ['/'] relPath, val⟩)

/-- The mappings of the landing schema. -/
def resolveTargetMappings (cm : CaseMap) (env : Str) (activeFolders : Dict Str EntryValue)
    (schemaFolders : List Str) : Except PyError (List Mapping) :=
  match schemaFolders with
  | [] => .ok []
  | path :: paths => do
    let mapping ← resolvePath cm env activeFolders path
    let mappings ← resolveTargetMappings cm env activeFolders paths
    return mapping.toList ++ mappings

/-- The file extensions of the shipped configuration. -/
def fmsExtensions : List Str :=
  [".csv".toList, ".zip".toList, ".xml".toList, ".xlsx".toList, ".xls".toList]

/-- The path that `list_folder_raw_items` requests. -/
def listFolderPath (rootDir folderName : Str) : Str :=
  if folderName = [] then '/' :: (rootDir ++ ['/'])
  else if endsWith folderName ".csv".toList then '/' :: (rootDir ++ '/' :: folderName)
  else '/' :: (rootDir ++ '/' :: (folderName ++ ['/']))

/-- A remote listing: the requested path, and the only name that is kept when the folder is a file
of the root directory. -/
structure RemoteListing where
  /-- The requested path. -/
  path : Str
  /-- The file the listing is filtered to. -/
  only : Option Str
  deriving DecidableEq

/-- The folder of the remote server that a mapping points to. -/
def remoteFolder (mapping : Mapping) : Str :=
  if mapping.topLevelFolder = "TP_export".toList then mapping.activeFolder
  else mapping.remoteFolderPath

/-- The folder that is passed to the listing: empty for a file of the root directory. -/
def listFolder (mapping : Mapping) : Str :=
  if endsWithAny (remoteFolder mapping) fmsExtensions then [] else remoteFolder mapping

/-- The remote listing of a mapping. -/
def listingOf (mapping : Mapping) : RemoteListing where
  path := listFolderPath mapping.topLevelFolder (listFolder mapping)
  only := if endsWithAny (remoteFolder mapping) fmsExtensions then some (remoteFolder mapping)
    else none

/-- The files a mapping selects from its listing, which `server` answers by path. -/
def selectFilesToSync {ι : Type*} (nameOf : ι → Str) (server : Str → Except PyError (List ι))
    (mapping : Mapping) : Except PyError (List ι) := do
  let fmsFiles ← server (listingOf mapping).path
  match (listingOf mapping).only with
  | some name => return fmsFiles.filter fun f => nameOf f = name
  | none =>
    let csvFiles := fmsFiles.filter fun f => endsWith (nameOf f) ".csv".toList
    match mapping.val with
    | .files names => return if names = [] then csvFiles
        else csvFiles.filter fun f => nameOf f ∈ names
    | _ => return csvFiles

/-- The selected files are a part of the listing, in its order. -/
lemma exists_sublist_of_selectFilesToSync {ι : Type*} {nameOf : ι → Str}
    {server : Str → Except PyError (List ι)} {mapping : Mapping} {files : List ι}
    (h : selectFilesToSync nameOf server mapping = .ok files) :
    ∃ items, server (listingOf mapping).path = .ok items ∧ files.Sublist items := by
  unfold selectFilesToSync at h
  cases hserver : server (listingOf mapping).path with
  | error e =>
    rw [hserver] at h
    cases h
  | ok items =>
    refine ⟨items, rfl, ?_⟩
    rw [hserver] at h
    simp only [bind, Except.bind, pure, Except.pure] at h
    split at h
    · cases h
      exact List.filter_sublist
    · split at h
      · split_ifs at h
        · cases h
          exact List.filter_sublist
        · cases h
          exact List.filter_sublist.trans List.filter_sublist
      · cases h
        exact List.filter_sublist

/-! ## The enabled entries -/

/-- An entry of the checklist tree. -/
structure Entry where
  /-- The root directory it is listed under. -/
  root : Str
  /-- Its domain, if it is listed by domain. -/
  domain : Option Str
  /-- The folder. -/
  folder : Str
  /-- Its value. -/
  val : EntryValue
  deriving DecidableEq

/-- The entries of a group of folders. -/
def groupEntries (root : Str) (domain : Option Str) (folders : Dict Str EntryValue) : List Entry :=
  folders.items.map fun entry => ⟨root, domain, entry.1, entry.2⟩

/-- The entries of the root directories, in the order the code reads them. -/
def treeEntries (rootDirs : List RootDirectory) : List Entry :=
  rootDirs.flatMap fun rdir =>
    (rdir.domains.items.flatMap fun domain => groupEntries rdir.name (some domain.1) domain.2) ++
      groupEntries rdir.name none rdir.folders

/-- The enabled entries of an environment: those whose value is not `False`. -/
def activeEntries (cm : CaseMap) (env : Str) (checklist : Checklist) : List Entry :=
  (treeEntries ((envData cm env checklist).getD [])).filter fun entry => entry.val ≠ .bool false

/-- The folder and value of an entry. -/
def Entry.pair (entry : Entry) : Str × EntryValue := (entry.folder, entry.val)

/-- The pairs of the enabled entries of a list. -/
def enabledPairs (entries : List Entry) : List (Str × EntryValue) :=
  (entries.filter fun entry => entry.val ≠ .bool false).map Entry.pair

/-- The folders of a group are collected in their order. -/
lemma collectFolders_eq (root : Str) (domain : Option Str) (active folders : Dict Str EntryValue) :
    collectFolders active folders = active.setAll
      (enabledPairs (groupEntries root domain folders)) := by
  unfold collectFolders enabledPairs groupEntries Dict.setAll
  generalize folders.items = items
  induction items generalizing active with
  | nil => rfl
  | cons entry items ih =>
    rw [List.foldl_cons, ih, List.map_cons]
    by_cases hval : entry.2 ≠ .bool false
    · rw [if_pos hval, List.filter_cons_of_pos (by simpa using hval), List.map_cons,
        List.foldl_cons]
      rfl
    · rw [if_neg hval, List.filter_cons_of_neg (by simpa using hval)]

/-- The enabled folders of entries that follow one another. -/
lemma enabledPairs_append (l l' : List Entry) :
    enabledPairs (l ++ l') = enabledPairs l ++ enabledPairs l' := by
  simp [enabledPairs]

/-- The folders of some domains are collected in their order. -/
lemma collectDomains_eq (root : Str) (active : Dict Str EntryValue)
    (domains : List (Str × Dict Str EntryValue)) :
    (domains.map Prod.snd).foldl collectFolders active = active.setAll (enabledPairs
      (domains.flatMap fun domain => groupEntries root (some domain.1) domain.2)) := by
  induction domains generalizing active with
  | nil => rfl
  | cons domain domains ih =>
    rw [List.map_cons, List.foldl_cons, ih, collectFolders_eq root (some domain.1),
      List.flatMap_cons, enabledPairs_append, Dict.setAll_append]

/-- The folders of a checklist are collected in the order of its entries. -/
lemma collectRoots_eq (active : Dict Str EntryValue) (rootDirs : List RootDirectory) :
    rootDirs.foldl (fun active rdir =>
      collectFolders (rdir.domains.values.foldl collectFolders active) rdir.folders) active =
        active.setAll (enabledPairs (treeEntries rootDirs)) := by
  induction rootDirs generalizing active with
  | nil => rfl
  | cons rdir rootDirs ih =>
    have htree : treeEntries (rdir :: rootDirs) =
        ((rdir.domains.items.flatMap fun domain => groupEntries rdir.name
          (some domain.1) domain.2) ++
          groupEntries rdir.name none rdir.folders) ++ treeEntries rootDirs :=
      List.flatMap_cons
    rw [List.foldl_cons, ih, Dict.values, collectDomains_eq rdir.name,
      collectFolders_eq rdir.name none, htree, enabledPairs_append, enabledPairs_append,
      Dict.setAll_append, Dict.setAll_append]

/-- **The enabled folders.** The nested loops are a comprehension over the enabled entries in
reading order. -/
lemma extractActiveFolders_eq (cm : CaseMap) (env : Str) (checklist : Checklist) :
    extractActiveFolders cm env checklist =
      Dict.ofList ((activeEntries cm env checklist).map fun entry =>
        (entry.folder, entry.val)) := by
  unfold extractActiveFolders activeEntries
  cases envData cm env checklist with
  | none => rfl
  | some rootDirs => exact collectRoots_eq ∅ rootDirs

/-- A folder is enabled with the value of the last enabled entry of its name. -/
lemma get?_extractActiveFolders {cm : CaseMap} {env : Str} {checklist : Checklist} {folder : Str} :
    (extractActiveFolders cm env checklist).get? folder =
      ((activeEntries cm env checklist).reverse.find? fun entry =>
        decide (entry.folder = folder)).map Entry.val := by
  rw [extractActiveFolders_eq, Dict.get?_ofList_map]

/-- The first enabled folder that passes a test is the folder of the first such enabled entry. -/
lemma find?_keys_extractActiveFolders {cm : CaseMap} {env : Str} {checklist : Checklist}
    {p : Str → Bool} :
    (extractActiveFolders cm env checklist).keys.find? p =
      ((activeEntries cm env checklist).find? fun entry => p entry.folder).map Entry.folder := by
  rw [extractActiveFolders_eq, Dict.find?_keys_ofList, List.map_map, List.find?_map]
  rfl

/-! ## Landing paths of four segments -/

/-- A landing path `env/root/domain/folder`. -/
structure LandingPath where
  /-- The environment. -/
  env : Segment '/'
  /-- The root directory. -/
  root : Segment '/'
  /-- The domain or archive. -/
  domain : Segment '/'
  /-- The folder. -/
  folder : Segment '/'

namespace LandingPath

/-- The texts of the segments. -/
def segments (path : LandingPath) : List Str :=
  [path.env.text, path.root.text, path.domain.text, path.folder.text]

/-- The text of the path. -/
def text (path : LandingPath) : Str := renderPath [path.env, path.root, path.domain, path.folder]

/-- The text of a landing path is split into its segments. -/
lemma split_text (path : LandingPath) : split '/' path.text = path.segments :=
  split_renderPath (by simp)

/-- The text of a landing path determines the path. -/
lemma text_injective {path path' : LandingPath} (h : path.text = path'.text) : path = path' := by
  have hsegs := renderPath_injective (by simp) (by simp) h
  simp only [List.cons.injEq, and_true] at hsegs
  obtain ⟨henv, hroot, hdomain, hfolder⟩ := hsegs
  cases path
  cases path'
  simp_all

/-- The mapping of a landing path, if an enabled folder matches it. -/
def mapping (cm : CaseMap) (env : Str) (activeFolders : Dict Str EntryValue) (path : LandingPath) :
    Option Mapping :=
  if path.env.text = cm.lower env then
    (activeFolders.items.find? fun entry => isSegment path.segments entry.1).map fun entry =>
      ⟨path.text, entry.1, path.root.text, join ['/'] [path.domain.text, path.folder.text], entry.2⟩
  else none

/-- The fields of the mapping of a landing path. -/
lemma mapping_eq_some {cm : CaseMap} {env : Str} {active : Dict Str EntryValue}
    {path : LandingPath} {mapping : Mapping} (h : path.mapping cm env active = some mapping) :
    path.env.text = cm.lower env ∧ mapping.schemaPath = path.text ∧
      mapping.topLevelFolder = path.root.text ∧
      mapping.remoteFolderPath = renderPath [path.domain, path.folder] ∧
      mapping.activeFolder ∈ path.segments := by
  unfold LandingPath.mapping at h
  split_ifs at h with henv
  obtain ⟨entry, hentry, rfl⟩ := Option.map_eq_some_iff.mp h
  have hseg := List.find?_some hentry
  exact ⟨henv, rfl, rfl, rfl, of_decide_eq_true hseg⟩

end LandingPath

/-- A landing path is resolved to its mapping. -/
lemma resolvePath_landing (cm : CaseMap) (env : Str) (activeFolders : Dict Str EntryValue)
    (path : LandingPath) :
    resolvePath cm env activeFolders path.text = .ok (path.mapping cm env activeFolders) := by
  unfold resolvePath LandingPath.mapping
  rw [path.split_text]
  dsimp only [LandingPath.segments]
  by_cases henv : path.env.text = cm.lower env
  · rw [if_neg (by simpa using henv), if_pos henv]
    cases activeFolders.items.find? fun entry => isSegment
      [path.env.text, path.root.text, path.domain.text, path.folder.text] entry.1 with
    | none => rfl
    | some entry => rfl
  · rw [if_pos henv, if_neg henv]

/-- The mappings of landing paths of four segments, in path order. -/
lemma resolveTargetMappings_landing (cm : CaseMap) (env : Str)
    (activeFolders : Dict Str EntryValue) (paths : List LandingPath) :
    resolveTargetMappings cm env activeFolders (paths.map LandingPath.text) =
      .ok (paths.filterMap (LandingPath.mapping cm env activeFolders)) := by
  induction paths with
  | nil => rfl
  | cons path paths ih =>
    rw [List.map_cons, resolveTargetMappings, resolvePath_landing, ih]
    cases hmap : path.mapping cm env activeFolders with
    | none => rw [List.filterMap_cons_none hmap]; rfl
    | some m => rw [List.filterMap_cons_some hmap]; rfl

end EntsoePipeline
