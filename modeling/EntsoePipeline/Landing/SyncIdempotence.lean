import EntsoePipeline.Landing.SyncRun

set_option relaxedAutoImplicit false
set_option autoImplicit false

/-!
# A second run has nothing to do

After a run without errors every selected file with an id is synced, since no later file is stored
under its key. A second run over the same listings then skips every file.

## Main definitions

* `EntsoePipeline.UniqueNames` — the names in a remote folder are segments that occur once.
* `EntsoePipeline.RunAnswers.ChecksPass` — the checks at the files of a run are answered.

## Main results

* `EntsoePipeline.s3KeyOf_inj` — a key determines the landing path and the file name.
* `EntsoePipeline.synced_of_clean` — what a run without errors leaves.
* `EntsoePipeline.syncActiveDomains_idempotent` — the second run.
-/

namespace EntsoePipeline

open Py

variable {β : Type*}

/-! ## Keys -/

/-- A key below a landing path determines the path and the file name. -/
lemma s3KeyOf_inj {path path' : LandingPath} {mapping mapping' : Mapping} {file file' : RawItem}
    (hpath : mapping.schemaPath = path.text) (hpath' : mapping'.schemaPath = path'.text)
    (hslash : '/' ∉ file.itemName) (hslash' : '/' ∉ file'.itemName)
    (h : s3KeyOf mapping file = s3KeyOf mapping' file') :
    path = path' ∧ file.itemName = file'.itemName := by
  obtain ⟨hpaths, hname⟩ := (append_cons_inj_of_not_mem hslash hslash').mp h
  rw [hpath, hpath', LandingPath.text, LandingPath.text, strip_renderPath,
    strip_renderPath] at hpaths
  exact ⟨LandingPath.text_injective hpaths, hname⟩

/-- The names of the files in a listing: no slash, and no name twice. -/
def UniqueNames (items : List RawItem) : Prop :=
  (∀ item ∈ items, item.itemId ≠ [] → '/' ∉ item.itemName) ∧
    items.Pairwise fun a b => a.itemId ≠ [] → b.itemId ≠ [] → a.itemName ≠ b.itemName

/-- The names in a part of a listing are unique. -/
lemma UniqueNames.sublist {items files : List RawItem} (h : UniqueNames items)
    (hsub : files.Sublist items) : UniqueNames files :=
  ⟨fun file hmem => h.1 file (hsub.subset hmem), h.2.sublist hsub⟩

section Keys

variable {server : Str → Except PyError (List RawItem)}

/-- The selected files of a folder have unique names. -/
lemma uniqueNames_selectedFiles
    (hnames : ∀ path items, server path = .ok items → UniqueNames items) (mapping : Mapping) :
    UniqueNames (selectedFiles server mapping) := by
  unfold selectedFiles
  cases hselect : selectFilesToSync RawItem.itemName server mapping with
  | error e => exact ⟨by simp, .nil⟩
  | ok files =>
    obtain ⟨items, hitems, hsub⟩ := exists_sublist_of_selectFilesToSync hselect
    exact (hnames _ items hitems).sublist hsub

/-- The mappings of distinct landing paths have distinct landing paths. -/
lemma pairwise_mappings {cm : CaseMap} {env : Str} {active : Dict Str EntryValue}
    {paths : List LandingPath} (hdistinct : paths.Nodup) :
    (paths.filterMap (LandingPath.mapping cm env active)).Pairwise fun a b =>
      ∃ path path' : LandingPath, a.schemaPath = path.text ∧ b.schemaPath = path'.text ∧
        path ≠ path' := by
  refine List.Pairwise.filterMap _ ?_ hdistinct
  intro path path' hne a ha b hb
  obtain ⟨-, hpath, -⟩ := LandingPath.mapping_eq_some ha
  obtain ⟨-, hpath', -⟩ := LandingPath.mapping_eq_some hb
  exact ⟨path, path', hpath, hpath', hne⟩

/-- The files that a run over distinct landing paths visits have distinct keys, apart from those
without an id. -/
lemma pairwise_s3KeyOf {cm : CaseMap} {env : Str} {active : Dict Str EntryValue}
    {paths : List LandingPath} (hdistinct : paths.Nodup)
    (hnames : ∀ path items, server path = .ok items → UniqueNames items) :
    ((paths.filterMap (LandingPath.mapping cm env active)).flatMap fun mapping =>
      (selectedFiles server mapping).map fun file => (mapping, file)).Pairwise fun a b =>
        a.2.itemId ≠ [] → b.2.itemId ≠ [] → s3KeyOf a.1 a.2 ≠ s3KeyOf b.1 b.2 := by
  rw [List.pairwise_flatMap]
  constructor
  · intro mapping hmem
    obtain ⟨path, -, hmapping⟩ := List.mem_filterMap.mp hmem
    obtain ⟨-, hpath, -⟩ := LandingPath.mapping_eq_some hmapping
    obtain ⟨hslash, hunique⟩ := uniqueNames_selectedFiles hnames mapping
    rw [List.pairwise_map]
    refine hunique.imp_of_mem ?_
    intro a b ha hb hne hida hidb hkey
    exact hne hida hidb (s3KeyOf_inj hpath hpath (hslash a ha hida) (hslash b hb hidb) hkey).2
  · refine (pairwise_mappings hdistinct).imp ?_
    rintro m m' ⟨path, path', hpath, hpath', hne⟩ a ha b hb hida hidb hkey
    obtain ⟨file, hfile, rfl⟩ := List.mem_map.mp ha
    obtain ⟨file', hfile', rfl⟩ := List.mem_map.mp hb
    exact hne (s3KeyOf_inj hpath hpath' ((uniqueNames_selectedFiles hnames m).1 file hfile hida)
      ((uniqueNames_selectedFiles hnames m').1 file' hfile' hidb) hkey).1

/-- The files that a run over a landing schema without repetitions visits have distinct keys, apart
from those without an id. -/
lemma pairwise_s3KeyOf_targetMappings {cfg : SyncConfig β} {paths : List LandingPath}
    (hpaths : cfg.schemaFolders = paths.map LandingPath.text) (hdistinct : paths.Nodup)
    (hnames : ∀ path items, server path = .ok items → UniqueNames items) {env : Environment}
    {mappings : List Mapping} (htarget : cfg.targetMappings env = .ok mappings) :
    (mappings.flatMap fun mapping =>
      (selectedFiles server mapping).map fun file => (mapping, file)).Pairwise fun a b =>
        a.2.itemId ≠ [] → b.2.itemId ≠ [] → s3KeyOf a.1 a.2 ≠ s3KeyOf b.1 b.2 := by
  unfold SyncConfig.targetMappings at htarget
  split_ifs at htarget with hactive
  · cases htarget
    exact .nil
  · rw [hpaths, resolveTargetMappings_landing] at htarget
    cases htarget
    exact pairwise_s3KeyOf hdistinct hnames

end Keys

/-! ## The first run -/

section First

variable {cfg : SyncConfig β} {reader : IsoReader} {answers : RunAnswers β}

/-- A run without errors makes every pass, and no call raises in one. -/
lemma turn_of_clean {index : ℕ} {mappings : List Mapping} {zone : LandingZone β}
    (h : ∀ folder ∈ (syncMappings cfg reader answers index mappings zone).folders,
      FolderEnd.Clean folder) :
    Failstop.Clean (syncFile cfg.xxh reader) FileEnd.isFailed
        (syncVisits answers index mappings) zone ∧
      (syncMappings cfg reader answers index mappings zone).zone =
        Failstop.turn (syncFile cfg.xxh reader) (syncVisits answers index mappings) zone := by
  induction mappings generalizing index zone with
  | nil => exact ⟨Failstop.clean_nil zone, rfl⟩
  | cons mapping mappings ih =>
    simp only [syncMappings, List.forall_mem_cons] at h
    obtain ⟨⟨ends, hends, hclean⟩, hrest⟩ := h
    obtain ⟨hcleanRest, hzoneRest⟩ := ih hrest
    simp only [syncMappings, syncVisits]
    unfold syncFolder at hends hcleanRest hzoneRest ⊢
    unfold selectedFiles
    cases hselect : selectFilesToSync RawItem.itemName (answers.listing index) mapping with
    | error e =>
      rw [hselect] at hends
      cases hends
    | ok files =>
      simp only [hselect] at hends hcleanRest hzoneRest ⊢
      cases hends
      have hfolder := Failstop.clean_iff_forall_run.mpr hclean
      have hturn := Failstop.run_of_clean hfolder
      unfold syncFiles at hcleanRest hzoneRest ⊢
      rw [hturn] at hcleanRest hzoneRest ⊢
      rw [Failstop.clean_append_iff, Failstop.turn_append]
      exact ⟨⟨hfolder, hcleanRest⟩, hzoneRest⟩

/-- A pass over a file keeps every file with an id and another key synced. -/
lemma synced_syncFile_of_ne {mapping : Mapping} {file : RawItem} {visit : Visit β}
    {zone : LandingZone β} {xxh : Str → Str}
    (hne : visit.file.itemId ≠ [] → s3KeyOf mapping file ≠ s3KeyOf visit.mapping visit.file)
    (h : Synced xxh mapping file zone) :
    Synced xxh mapping file (syncFile xxh reader visit zone).2 := by
  by_cases hid : visit.file.itemId = []
  · rw [syncFile_of_no_id hid]
    exact h
  · exact (onlyAt_syncFile visit zone).synced (hne hid) h

/-- **What a run without errors leaves.** Every file with an id is synced.

**Proof sketch.** The pass over a file leaves it synced, and the later passes change nothing under
its key. -/
lemma synced_of_clean {visits : List (Visit β)} {zone : LandingZone β} {xxh : Str → Str}
    (hkeys : (visits.map Visit.source).Pairwise fun a b =>
      a.2.itemId ≠ [] → b.2.itemId ≠ [] → s3KeyOf a.1 a.2 ≠ s3KeyOf b.1 b.2)
    (h : Failstop.Clean (syncFile xxh reader) FileEnd.isFailed visits zone) :
    ∀ visit ∈ visits, visit.file.itemId ≠ [] →
      Synced xxh visit.mapping visit.file (Failstop.turn (syncFile xxh reader) visits zone) := by
  refine @Failstop.settled_turn _ _ _ _ _ (fun visit zone => visit.file.itemId ≠ [] →
    Synced xxh visit.mapping visit.file zone) _ ?_ ?_ _ h
  · intro visit _ zone hfails hid
    exact synced_syncFile hid hfails
  · refine (List.pairwise_map.mp hkeys).imp ?_
    intro visit later hne zone hsynced hid
    exact synced_syncFile_of_ne (fun hid' => hne hid hid') (hsynced hid)

/-- A run without errors lists every folder. -/
lemma listed_of_clean {server : Str → Except PyError (List RawItem)}
    (hlisting : ∀ index, answers.listing index = server) {index : ℕ} {mappings : List Mapping}
    {zone : LandingZone β}
    (h : ∀ folder ∈ (syncMappings cfg reader answers index mappings zone).folders,
      FolderEnd.Clean folder) :
    ∀ mapping ∈ mappings, ∃ files,
      selectFilesToSync RawItem.itemName server mapping = .ok files := by
  induction mappings generalizing index zone with
  | nil => simp
  | cons mapping mappings ih =>
    simp only [syncMappings, List.forall_mem_cons] at h
    obtain ⟨⟨ends, hends, -⟩, hrest⟩ := h
    rw [List.forall_mem_cons]
    refine ⟨?_, ih hrest⟩
    unfold syncFolder at hends
    rw [hlisting] at hends
    cases hselect : selectFilesToSync RawItem.itemName server mapping with
    | error e =>
      rw [hselect] at hends
      cases hends
    | ok files => exact ⟨files, rfl⟩

end First

/-! ## The second run -/

section Second

variable {cfg : SyncConfig β} {reader : IsoReader}

variable (cfg) in
/-- The checks at the files of a run pass: there is disk space, the registry can be read, and the
request for the head of a stored object is answered. -/
def RunAnswers.ChecksPass (env : Environment) (answers : RunAnswers β) : Prop :=
  ∀ mappings, cfg.targetMappings env = .ok mappings → ∀ visit ∈ syncVisits answers 0 mappings,
    verifyFreeDiskSpace visit.answers.free (itemVersion visit.file).sizeBytes = true ∧
      visit.answers.registryAnswers = true ∧ visit.answers.headAnswers = true

/-- A run that lists every folder and skips every file leaves everything as it is. -/
lemma syncMappings_of_skipped {answers : RunAnswers β}
    {server : Str → Except PyError (List RawItem)}
    (hlisting : ∀ index, answers.listing index = server) {index : ℕ} {mappings : List Mapping}
    {zone : LandingZone β}
    (hlisted : ∀ mapping ∈ mappings, ∃ files,
      selectFilesToSync RawItem.itemName server mapping = .ok files)
    (hskip : ∀ visit ∈ syncVisits answers index mappings, ∃ e,
      syncFile cfg.xxh reader visit zone = (e, zone) ∧ e.isSkipped = true) :
    (syncMappings cfg reader answers index mappings zone).zone = zone ∧
      ∀ folder ∈ (syncMappings cfg reader answers index mappings zone).folders,
        FolderEnd.Skipped folder := by
  induction mappings generalizing index with
  | nil => exact ⟨rfl, by simp [syncMappings]⟩
  | cons mapping mappings ih =>
    obtain ⟨⟨files, hselect⟩, hrest⟩ := List.forall_mem_cons.mp hlisted
    simp only [syncVisits, hlisting, selectedFiles, hselect, List.forall_mem_append] at hskip
    obtain ⟨hfiles, hskipRest⟩ := hskip
    have hrun : syncFiles cfg.xxh reader (visitsOf mapping (answers.files index) files) zone =
        ((visitsOf mapping (answers.files index) files).map fun visit =>
          (syncFile cfg.xxh reader visit zone).1, zone) := by
      refine Failstop.run_of_settled fun visit hvisit => ?_
      obtain ⟨e, hpass, hskipped⟩ := hfiles visit hvisit
      rw [hpass]
      cases e with
      | noFileId => exact ⟨rfl, rfl⟩
      | alreadySynced => exact ⟨rfl, rfl⟩
      | downloaded => cases hskipped
      | failed step => cases hskipped
    have hfolder : syncFolder cfg.xxh reader mapping (answers.listing index) (answers.files index)
        zone = (.ok ((visitsOf mapping (answers.files index) files).map fun visit =>
          (syncFile cfg.xxh reader visit zone).1), zone) := by
      simp only [syncFolder, hlisting, hselect, hrun]
    simp only [syncMappings, hfolder, List.forall_mem_cons]
    obtain ⟨hzone, hfolders⟩ := ih hrest hskipRest
    refine ⟨hzone, ⟨_, rfl, ?_⟩, hfolders⟩
    rw [List.forall_mem_map]
    intro visit hvisit
    obtain ⟨e, hpass, hskipped⟩ := hfiles visit hvisit
    rw [hpass]
    exact hskipped

/-- Being synced depends on the registry and the bucket only. -/
lemma Synced.congr {xxh : Str → Str} {mapping : Mapping} {file : RawItem}
    {zone zone' : LandingZone β} (h : Synced xxh mapping file zone)
    (hobjects : zone'.objects = zone.objects) (hregistry : zone'.registry = zone.registry) :
    Synced xxh mapping file zone' := by
  unfold Synced
  rw [hobjects, hregistry]
  exact h

/-- **The second run.** After a run without errors, a run over the same listings downloads nothing,
has no errors, skips every file and leaves the registry and the bucket as they are.

**Proof sketch.** The first run makes a pass over every selected file and leaves it synced, and no
later file has its key. The second run visits the same files and finds each of them synced. -/
theorem syncActiveDomains_idempotent {env : Environment} {first second : RunAnswers β}
    {server : Str → Except PyError (List RawItem)} {paths : List LandingPath}
    (hpaths : cfg.schemaFolders = paths.map LandingPath.text) (hdistinct : paths.Nodup)
    (hnames : ∀ path items, server path = .ok items → UniqueNames items)
    (hfirst : ∀ index, first.listing index = server)
    (hsecond : ∀ index, second.listing index = server) (hchecks : second.ChecksPass cfg env)
    {zone zone' : LandingZone β} {result : SyncResult β}
    (hrun : syncActiveDomains cfg reader first env zone = .ok result)
    (herrors : result.metrics.errors = 0) (hobjects : zone'.objects = result.zone.objects)
    (hregistry : zone'.registry = result.zone.registry) :
    ∃ result', syncActiveDomains cfg reader second env zone' = .ok result' ∧
      result'.metrics.downloaded = 0 ∧ result'.metrics.errors = 0 ∧
      (∀ folder ∈ result'.folders, FolderEnd.Skipped folder) ∧ result'.zone = zone' := by
  obtain ⟨mappings, htarget, rfl⟩ := syncActiveDomains_eq_ok_iff.mp hrun
  have hkeys := pairwise_s3KeyOf_targetMappings hpaths hdistinct hnames htarget
  -- the first run leaves every file synced
  obtain ⟨-, hclean⟩ := clean_of_errors_eq_zero herrors
  obtain ⟨hpasses, hzone⟩ := turn_of_clean hclean
  rw [← map_source_syncVisits hfirst 0 mappings] at hkeys
  have hsynced := synced_of_clean hkeys hpasses
  -- the second run visits the same files
  have hsame : (syncVisits second 0 mappings).map Visit.source =
      (syncVisits first 0 mappings).map Visit.source := by
    rw [map_source_syncVisits hsecond, map_source_syncVisits hfirst]
  have hskip : ∀ visit ∈ syncVisits second 0 mappings, ∃ e,
      syncFile cfg.xxh reader visit zone' = (e, zone') ∧ e.isSkipped = true := by
    intro visit hvisit
    by_cases hid : visit.file.itemId = []
    · exact ⟨.noFileId, syncFile_of_no_id hid zone', rfl⟩
    · have hmem : visit.source ∈ (syncVisits first 0 mappings).map Visit.source :=
        hsame ▸ List.mem_map_of_mem hvisit
      obtain ⟨visit', hvisit', heq⟩ := List.mem_map.mp hmem
      obtain ⟨hmapping, hfile⟩ := Prod.mk.inj heq
      have hbefore := hsynced visit' hvisit' (hfile ▸ hid)
      rw [hmapping, hfile, ← hzone] at hbefore
      obtain ⟨hdisk, hanswers, hhead⟩ := hchecks mappings htarget visit hvisit
      exact ⟨.alreadySynced, syncFile_of_synced hdisk hanswers hhead hid
        (hbefore.congr hobjects hregistry), rfl⟩
  obtain ⟨hzone', hskipped⟩ := @syncMappings_of_skipped _ cfg reader _ _ hsecond _ _ _
    (listed_of_clean hfirst hclean) hskip
  obtain ⟨hdownloaded, herrors'⟩ := foldl_countFolder_of_skipped hskipped ⟨0, 0, 0, 0⟩
  refine ⟨_, syncActiveDomains_eq_ok_iff.mpr ⟨mappings, htarget, rfl⟩, hdownloaded,
    herrors', hskipped, hzone'⟩

end Second

/-! ### A folder with two files -/

/-- A configuration with one enabled folder. -/
def loadSync : SyncConfig ℕ where
  cm := CaseMap.ascii
  xxh := id
  checklist := Dict.ofList [("IOP".toList, [⟨"TP_export".toList,
    Dict.ofList [("Load".toList, Dict.ofList [("Load_r3".toList, .bool true)])], ∅⟩])]
  schemaFolders := ["iop/TP_export/Load/Load_r3".toList]
  remote _ _ _ _ := none

/-- The landing schema has one path. -/
lemma exists_loadPath : ∃ path : LandingPath,
    loadSync.schemaFolders = [path].map LandingPath.text :=
  ⟨⟨⟨"iop".toList, by decide, by decide⟩, ⟨"TP_export".toList, by decide, by decide⟩,
    ⟨"Load".toList, by decide, by decide⟩, ⟨"Load_r3".toList, by decide, by decide⟩⟩, by decide⟩

/-- A reader that knows the time of one file. -/
def noonReader : IsoReader where
  isoFormat text := if text = "2026-04-15T12:00:00+00:00".toList then some (.utc 0) else none
  secondsFormat _ := none

/-- A listing entry of the folder. -/
def loadItem (name lastUpdated fileId : String) : RawItem :=
  ⟨some "File".toList, some name.toList, some 9, some 4, some lastUpdated.toList,
    some fileId.toList⟩

/-- A server that lists these entries in the folder. -/
def loadServer (items : List RawItem) (path : Str) : Except PyError (List RawItem) :=
  .ok (if path = "/TP_export/Load_r3/".toList then items else [])

/-- Every call at a file succeeds. -/
def calmFile : FileAnswers ℕ :=
  ⟨safetyMarginBytes, true, true, some 1, true, .done, true, .done⟩

/-- A run in which every call succeeds. -/
def calmAnswers (items : List RawItem) : RunAnswers ℕ where
  listing _ := loadServer items
  files _ _ := calmFile

/-- The files of the folder: one of them has no id. -/
def loadItems : List RawItem :=
  [loadItem "a.csv" "2026-04-15T12:00:00Z" "7", loadItem "b.csv" "" ""]

/-- A first run downloads a file and skips the one without an id, and a second run skips both. -/
theorem syncActiveDomains_idempotent_load : ∃ result result',
    syncActiveDomains loadSync noonReader (calmAnswers loadItems) .iop ⟨0, ∅, ∅⟩ = .ok result ∧
      result.metrics = ⟨1, 1, 1, 0⟩ ∧
      syncActiveDomains loadSync noonReader (calmAnswers loadItems) .iop result.zone =
        .ok result' ∧ result'.metrics.downloaded = 0 ∧ result'.metrics.errors = 0 ∧
      result'.zone = result.zone := by
  have hnames : ∀ path items, loadServer loadItems path = .ok items → UniqueNames items := by
    intro path items h
    cases h
    split_ifs
    · exact ⟨by decide, by decide⟩
    · exact ⟨by simp, .nil⟩
  have hchecks : (calmAnswers loadItems).ChecksPass loadSync .iop := by
    intro mappings h
    have htargets : loadSync.targetMappings .iop =
        .ok [⟨"iop/TP_export/Load/Load_r3".toList, "Load_r3".toList, "TP_export".toList,
          "Load/Load_r3".toList, .bool true⟩] := by decide +kernel
    rw [htargets] at h
    cases h
    decide +kernel
  have hmetrics : ∃ result, syncActiveDomains loadSync noonReader (calmAnswers loadItems) .iop
      ⟨0, ∅, ∅⟩ = .ok result ∧ result.metrics = ⟨1, 1, 1, 0⟩ :=
    ⟨_, rfl, by decide +kernel⟩
  obtain ⟨result, hrun, hmetrics⟩ := hmetrics
  obtain ⟨path, hpath⟩ := exists_loadPath
  obtain ⟨result', hrun', hdownloaded, herrors, -, hzone⟩ :=
    @syncActiveDomains_idempotent _ loadSync noonReader .iop (calmAnswers loadItems)
      (calmAnswers loadItems) (loadServer loadItems) [path] hpath
      (List.nodup_singleton _) hnames (fun _ => rfl) (fun _ => rfl) hchecks _ _ _ hrun
      (by rw [hmetrics]) rfl rfl
  exact ⟨result, result', hrun, hmetrics, hrun', hdownloaded, herrors, hzone⟩

end EntsoePipeline
