import EntsoePipeline.Landing.SyncIsolation

set_option relaxedAutoImplicit false
set_option autoImplicit false

/-!
# The ingestion job over its environments

The job synchronises the environments of the checklist that have enabled folders, one after the
other, and the resolved environment when there is none. A folder that fails is counted and logged;
the job itself fails only when the readiness checks do, when a client cannot be made or when the
landing paths cannot be resolved.

## Main definitions

* `EntsoePipeline.envsToSync`, `EntsoePipeline.syncEnvironment`,
  `EntsoePipeline.ingestMyEntsoeDomains` — the job.
* `EntsoePipeline.JobSelects` — a file that the job can come to.
* `EntsoePipeline.Traced` — every change of a landing zone comes from such a file.
* `EntsoePipeline.jobVisits` — the files of a job in the order of its loops.

## Main results

* `EntsoePipeline.traced_ingestMyEntsoeDomains` — what a job can change, whatever is answered.
* `EntsoePipeline.counters_ingestMyEntsoeDomains` — what the counters of a job say.
* `EntsoePipeline.ingestMyEntsoeDomains_again` — a second job has nothing to do.

## Implementation notes

The readiness checks are a parameter: they pass, or the job exits before it begins. The names of the
environments are those of the checklist; the file server is asked for the upper case name.
-/

namespace EntsoePipeline

open Py

variable {β : Type*}

/-! ## The job -/

/-- What is answered to the synchronisation of an environment. -/
structure EnvAnswers (β : Type*) where
  /-- The credentials are complete and a token is granted. -/
  clientMade : Bool
  /-- What is answered in the run. -/
  run : RunAnswers β

/-- `get_fms_client`: every exception is raised again as a connection error. -/
def getFmsClient (cm : CaseMap) (registered : List Str) (clientMade : Bool) (envName : Str) :
    Except PyError Unit :=
  if cm.upper envName ∈ registered ∧ clientMade = true then .ok () else .error .apiError

/-- The state of the job: the landing zone, the totals and the messages of the log. -/
structure IngestState (β : Type*) where
  /-- The landing zone. -/
  zone : LandingZone β
  /-- `total_processed`. -/
  processed : ℕ
  /-- `total_downloaded`. -/
  downloaded : ℕ
  /-- `total_skipped`. -/
  skipped : ℕ
  /-- The environments that were logged as finished, with their counters. -/
  finished : List (Str × SyncMetrics)

/-- Add the counters of an environment. -/
def IngestState.finish (st : IngestState β) (envName : Str) (result : SyncResult β) :
    IngestState β where
  zone := result.zone
  processed := st.processed + result.metrics.processed
  downloaded := st.downloaded + result.metrics.downloaded
  skipped := st.skipped + result.metrics.skipped
  finished := st.finished ++ [(envName, result.metrics)]

/-- The state in which the job ends. -/
def exitState : Except (IngestState β) (IngestState β) → IngestState β
  | .ok st => st
  | .error st => st

section Job

variable (cfg : SyncConfig β) (reader : IsoReader) (registered : List Str)

/-- The folders that are enabled for a name of an environment. -/
def foldersOf (envName : Str) : Dict Str EntryValue :=
  extractActiveFolders cfg.cm envName cfg.checklist

/-- The environments of the checklist with enabled folders, or the resolved environment. -/
def envsToSync (activeEnv : Str) : List Str :=
  let environments := cfg.checklist.keys.filter fun envName => (foldersOf cfg envName).items ≠ []
  if environments = [] then [activeEnv] else environments

/-- `sync_active_domains` for a name of an environment. -/
def syncEnvironment (answers : EnvAnswers β) (envName : Str) (zone : LandingZone β) :
    Except PyError (SyncResult β) :=
  if (foldersOf cfg envName).items = [] then .ok ⟨[], zone⟩
  else
    match resolveTargetMappings cfg.cm envName (foldersOf cfg envName) cfg.schemaFolders with
    | .error e => .error e
    | .ok targetMappings =>
      match getFmsClient cfg.cm registered answers.clientMade envName with
      | .error e => .error e
      | .ok () => .ok (syncMappings cfg reader answers.run 0 targetMappings zone)

/-- The loop over the environments, of which `index` is the position of the first; an error is the
state in which the job exits. -/
def syncEnvironments (answers : ℕ → EnvAnswers β) :
    ℕ → List Str → IngestState β → Except (IngestState β) (IngestState β)
  | _, [], st => .ok st
  | index, envName :: envs, st =>
    match syncEnvironment cfg reader registered (answers index) envName st.zone with
    | .error _ => .error st
    | .ok result => syncEnvironments answers (index + 1) envs (st.finish envName result)

/-- The job. -/
def ingestMyEntsoeDomains (activeEnv : Str) (preflight : Bool) (answers : ℕ → EnvAnswers β)
    (zone : LandingZone β) : Except (IngestState β) (IngestState β) :=
  if preflight = false then .error ⟨zone, 0, 0, 0, []⟩
  else syncEnvironments cfg reader registered answers 0 (envsToSync cfg activeEnv)
    ⟨zone, 0, 0, 0, []⟩

/-- For a registered environment the job calls the synchronisation of the environment. -/
lemma syncEnvironment_name {answers : EnvAnswers β} {env : Environment}
    (h : getFmsClient cfg.cm registered answers.clientMade env.name = .ok ())
    (zone : LandingZone β) :
    syncEnvironment cfg reader registered answers env.name zone =
      syncActiveDomains cfg reader answers.run env zone := by
  unfold syncEnvironment syncActiveDomains SyncConfig.targetMappings SyncConfig.activeFolders
    foldersOf
  split_ifs with hnone
  · rfl
  · generalize getFmsClient cfg.cm registered answers.clientMade env.name = made at h ⊢
    subst h
    cases resolveTargetMappings cfg.cm env.name
        (extractActiveFolders cfg.cm env.name cfg.checklist) cfg.schemaFolders with
    | error e => rfl
    | ok mappings => rfl

/-! ## The mappings of an environment -/

variable (paths : List LandingPath)

/-- The mappings of an environment. -/
def envMappings (envName : Str) : List Mapping :=
  paths.filterMap (LandingPath.mapping cfg.cm envName (foldersOf cfg envName))

variable {cfg reader registered paths}

/-- Without enabled folders there is no mapping. -/
lemma envMappings_of_none {envName : Str} (h : (foldersOf cfg envName).items = []) :
    envMappings cfg paths envName = [] := by
  unfold envMappings
  rw [List.filterMap_eq_nil_iff]
  intro path _
  unfold LandingPath.mapping
  rw [h]
  split_ifs
  · rfl
  · rfl

/-- The client of an environment with enabled folders can be made. -/
def ClientReady (cfg : SyncConfig β) (registered : List Str) (answers : EnvAnswers β)
    (envName : Str) : Prop :=
  (foldersOf cfg envName).items ≠ [] →
    cfg.cm.upper envName ∈ registered ∧ answers.clientMade = true

/-- The synchronisation of an environment goes through its mappings when the client can be made, and
raises otherwise. -/
lemma syncEnvironment_eq_ok_iff (hpaths : cfg.schemaFolders = paths.map LandingPath.text)
    {answers : EnvAnswers β} {envName : Str} {zone : LandingZone β} {result : SyncResult β} :
    syncEnvironment cfg reader registered answers envName zone = .ok result ↔
      ClientReady cfg registered answers envName ∧
        syncMappings cfg reader answers.run 0 (envMappings cfg paths envName) zone = result := by
  unfold syncEnvironment ClientReady
  by_cases hnone : (foldersOf cfg envName).items = []
  · rw [if_pos hnone, envMappings_of_none hnone]
    simp [hnone, syncMappings]
  · rw [if_neg hnone, hpaths, resolveTargetMappings_landing]
    unfold getFmsClient
    by_cases hready : cfg.cm.upper envName ∈ registered ∧ answers.clientMade = true
    · rw [if_pos hready]
      simp [hready, envMappings]
    · rw [if_neg hready]
      simp only [reduceCtorEq, false_iff, not_and]
      exact fun h => absurd (h hnone) hready

end Job

/-! ## What a job can change -/

section Changes

variable {cfg : SyncConfig β} {reader : IsoReader} {registered : List Str}
    {paths : List LandingPath}
  {xxh : Str → Str}

/-- A pass leaves the landing zone as it is, or the file has an id and is uploaded, and perhaps
registered. -/
lemma syncFile_zone_cases (visit : Visit β) (zone : LandingZone β) :
    (syncFile xxh reader visit zone).2 = zone ∨
      visit.file.itemId ≠ [] ∧ ∃ object,
        (syncFile xxh reader visit zone).2 =
          uploadFileToS3 zone (s3KeyOf visit.mapping visit.file) object ∨
        (syncFile xxh reader visit zone).2 = registerDownloadedFile
          (uploadFileToS3 zone (s3KeyOf visit.mapping visit.file) object)
          (s3KeyOf visit.mapping visit.file) (registryRowOf xxh visit.file) := by
  unfold syncFile
  dsimp only
  split_ifs with hid
  · exact Or.inl rfl
  · exact Or.inl rfl
  · exact Or.inl rfl
  · exact Or.inl rfl
  · unfold transferFile
    cases visit.answers.csvData with
    | none => exact Or.inl rfl
    | some csvData =>
      dsimp only
      split_ifs
      · exact Or.inl rfl
      · unfold storeFile
        dsimp only
        cases visit.answers.upload with
        | failed => exact Or.inl rfl
        | unconfirmed => exact Or.inr ⟨hid, _, Or.inl rfl⟩
        | done =>
          dsimp only
          split_ifs
          · exact Or.inr ⟨hid, _, Or.inl rfl⟩
          · cases parseIsoDatetime reader (itemVersion visit.file).lastUpdated with
            | none => exact Or.inr ⟨hid, _, Or.inl rfl⟩
            | some time =>
              cases visit.answers.transaction with
              | failed => exact Or.inr ⟨hid, _, Or.inl rfl⟩
              | unconfirmed => exact Or.inr ⟨hid, _, Or.inr rfl⟩
              | done => exact Or.inr ⟨hid, _, Or.inr rfl⟩

variable (xxh) in
/-- Every change between two landing zones comes from a file of `source`: an object that was
uploaded under its key, or its row, which stands beside an object. -/
structure Traced (source : Mapping → RawItem → Prop) (before after : LandingZone β) : Prop where
  /-- The registry. -/
  registry : ∀ s3Key, after.registry.get? s3Key = before.registry.get? s3Key ∨
    ∃ mapping file, source mapping file ∧ s3KeyOf mapping file = s3Key ∧
      after.registry.get? s3Key = some (registryRowOf xxh file) ∧
      (after.objects.get? s3Key).isSome
  /-- The bucket. -/
  objects : ∀ s3Key, after.objects.get? s3Key = before.objects.get? s3Key ∨
    ∃ mapping file, source mapping file ∧ s3KeyOf mapping file = s3Key ∧
      (after.objects.get? s3Key).isSome

/-- A landing zone that does not change is traced. -/
lemma Traced.refl (source : Mapping → RawItem → Prop) (zone : LandingZone β) :
    Traced xxh source zone zone :=
  ⟨fun _ => Or.inl rfl, fun _ => Or.inl rfl⟩

section Steps

variable {source : Mapping → RawItem → Prop} {before after : LandingZone β} {mapping : Mapping}
  {file : RawItem}

/-- An upload of a file of the source is traced. -/
lemma Traced.upload (h : Traced xxh source before after) (hsource : source mapping file)
    (object : Download β) :
    Traced xxh source before (uploadFileToS3 after (s3KeyOf mapping file) object) := by
  constructor
  · intro s3Key
    rcases h.registry s3Key with hsame | ⟨m, f, hm, hkey, hrow, hobject⟩
    · exact Or.inl hsame
    · refine Or.inr ⟨m, f, hm, hkey, hrow, ?_⟩
      rw [objects_uploadFileToS3, Dict.get?_set]
      split_ifs
      · rfl
      · exact hobject
  · intro s3Key
    rw [objects_uploadFileToS3, Dict.get?_set]
    by_cases hkey : s3Key = s3KeyOf mapping file
    · rw [if_pos hkey]
      exact Or.inr ⟨mapping, file, hsource, hkey.symm, rfl⟩
    · rw [if_neg hkey]
      exact h.objects s3Key

/-- An upload and a registration of a file of the source are traced. -/
lemma Traced.register (h : Traced xxh source before after) (hsource : source mapping file)
    (object : Download β) :
    Traced xxh source before (registerDownloadedFile
      (uploadFileToS3 after (s3KeyOf mapping file) object) (s3KeyOf mapping file)
      (registryRowOf xxh file)) := by
  have hupload := h.upload hsource object
  constructor
  · intro s3Key
    by_cases hkey : s3Key = s3KeyOf mapping file
    · subst hkey
      refine Or.inr ⟨mapping, file, hsource, rfl, Dict.get?_set_self _ _ _, ?_⟩
      rw [objects_registerDownloadedFile, objects_uploadFileToS3, Dict.get?_set_self]
      rfl
    · rw [registry_registerDownloadedFile, Dict.get?_set_of_ne _ _ hkey]
      exact hupload.registry s3Key
  · exact hupload.objects

/-- A pass over a file of the source is traced. -/
lemma Traced.syncFile (h : Traced xxh source before after) {visit : Visit β}
    (hsource : visit.file.itemId ≠ [] → source visit.mapping visit.file) :
    Traced xxh source before (syncFile xxh reader visit after).2 := by
  rcases @syncFile_zone_cases _ reader xxh visit after with
    hsame | ⟨hid, object, hupload | hregister⟩
  · rw [hsame]
    exact h
  · rw [hupload]
    exact h.upload (hsource hid) object
  · rw [hregister]
    exact h.register (hsource hid) object

end Steps

/-- A file with an id that a job can come to: it is selected from the listing that is answered, in
the run of one of the environments, to the mapping at one of its positions. -/
def JobSelects (cfg : SyncConfig β) (paths : List LandingPath) (answers : ℕ → EnvAnswers β)
    (envs : List Str) (mapping : Mapping) (file : RawItem) : Prop :=
  file.itemId ≠ [] ∧ ∃ index envName, envs[index]? = some envName ∧
    ∃ position, (envMappings cfg paths envName)[position]? = some mapping ∧
      file ∈ selectedFiles ((answers index).run.listing position) mapping

/-- A visited file is one of the files. -/
lemma file_mem_of_mem_visitsOf {mapping : Mapping} {answers : ℕ → FileAnswers β}
    {files : List RawItem} {visit : Visit β} (h : visit ∈ visitsOf mapping answers files) :
    visit.mapping = mapping ∧ visit.file ∈ files := by
  have hmem := List.mem_map_of_mem (f := Visit.source) h
  rw [map_source_visitsOf, List.mem_map] at hmem
  obtain ⟨file, hfile, heq⟩ := hmem
  obtain ⟨rfl, rfl⟩ := Prod.mk.inj heq
  exact ⟨rfl, hfile⟩

/-- The synchronisation of a folder is traced. -/
lemma Traced.syncFolder {source : Mapping → RawItem → Prop} {before after : LandingZone β}
    (h : Traced xxh source before after) {mapping : Mapping}
    {server : Str → Except PyError (List RawItem)} {answers : ℕ → FileAnswers β}
    (hsource : ∀ file ∈ selectedFiles server mapping, file.itemId ≠ [] → source mapping file) :
    Traced xxh source before (syncFolder xxh reader mapping server answers after).2 := by
  unfold EntsoePipeline.syncFolder
  unfold selectedFiles at hsource
  cases hselect : selectFilesToSync RawItem.itemName server mapping with
  | error e => exact h
  | ok files =>
    rw [hselect] at hsource
    refine Failstop.run_preserves ?_ h
    intro visit hvisit zone hzone
    obtain ⟨hmapping, hfile⟩ := file_mem_of_mem_visitsOf hvisit
    exact hzone.syncFile fun hid => hmapping ▸ hsource _ hfile hid

/-- The loop over the environments is traced. -/
lemma traced_syncEnvironments (hpaths : cfg.schemaFolders = paths.map LandingPath.text)
    {answers : ℕ → EnvAnswers β} {before : LandingZone β} (all : List Str) {envs : List Str}
    {index : ℕ}
    (henvs : ∀ offset envName, envs[offset]? = some envName → all[index + offset]? = some envName)
    {st : IngestState β}
    (h : Traced cfg.xxh (JobSelects cfg paths answers all) before st.zone) :
    Traced cfg.xxh (JobSelects cfg paths answers all) before
      (exitState (syncEnvironments cfg reader registered answers index envs st)).zone := by
  induction envs generalizing index st with
  | nil => exact h
  | cons envName envs ih =>
    unfold syncEnvironments
    cases hsync : syncEnvironment cfg reader registered (answers index) envName st.zone with
    | error e => exact h
    | ok result =>
      refine ih (fun offset next hnext => ?_) ?_
      · rw [show index + 1 + offset = index + (offset + 1) by omega]
        exact henvs (offset + 1) next hnext
      obtain ⟨-, hresult⟩ := (syncEnvironment_eq_ok_iff hpaths).mp hsync
      have hkeep := @syncMappings_preserves _ cfg reader
        (Traced cfg.xxh (JobSelects cfg paths answers all) before) (answers index).run 0
        (envMappings cfg paths envName) ?_ _ h
      · rw [hresult] at hkeep
        exact hkeep
      · intro position mapping hmapping zone hzone
        rw [Nat.zero_add]
        exact hzone.syncFolder fun file hfile hid =>
          ⟨hid, index, envName, henvs 0 envName rfl, position, hmapping, hfile⟩

/-- A mapping of an environment comes from a landing path below the environment, of which a segment
is an enabled folder. -/
lemma exists_path_of_mem_envMappings {envName : Str} {mapping : Mapping}
    (h : mapping ∈ envMappings cfg paths envName) :
    ∃ path ∈ paths, mapping.schemaPath = path.text ∧ path.env.text = cfg.cm.lower envName ∧
      ∃ folder ∈ (foldersOf cfg envName).keys, folder ∈ path.segments := by
  obtain ⟨path, hpath, hmapping⟩ := List.mem_filterMap.mp h
  obtain ⟨henv, hschema, -, -, -⟩ := LandingPath.mapping_eq_some hmapping
  refine ⟨path, hpath, hschema, henv, ?_⟩
  unfold LandingPath.mapping at hmapping
  rw [if_pos henv] at hmapping
  obtain ⟨entry, hentry, -⟩ := Option.map_eq_some_iff.mp hmapping
  have hsegment := List.find?_some hentry
  exact ⟨entry.1, List.mem_map_of_mem (List.mem_of_find?_eq_some hentry),
    of_decide_eq_true hsegment⟩

/-- The key of a file of a landing path. -/
lemma s3KeyOf_eq_text {mapping : Mapping} {path : LandingPath} (h : mapping.schemaPath = path.text)
    (file : RawItem) : s3KeyOf mapping file = path.text ++ '/' :: file.itemName := by
  rw [s3KeyOf, h, LandingPath.text, strip_renderPath]

/-- **What a job can change.** Whatever is answered and however the job ends, it removes nothing.
Where it changes the row or the object of a key, the key is that of a file with an id, below a
landing path of an environment of the job, of which a segment is an enabled folder. The file was
selected from the listing that the run of this environment was answered for its mapping of this
path. A changed row is the row of the listed version, and an object is stored beside it.

**Proof sketch.** A pass changes nothing but the object and the row of its file, and it uploads
before it registers. This is carried through the three loops, also when one of them ends early. -/
theorem traced_ingestMyEntsoeDomains (hpaths : cfg.schemaFolders = paths.map LandingPath.text)
    (activeEnv : Str) (preflight : Bool) (answers : ℕ → EnvAnswers β) (zone : LandingZone β)
    (s3Key : Str) :
    let final := (exitState (ingestMyEntsoeDomains cfg reader registered activeEnv preflight answers
      zone)).zone
    final.registry.get? s3Key ≠ zone.registry.get? s3Key ∨
        final.objects.get? s3Key ≠ zone.objects.get? s3Key →
      ∃ index envName, (envsToSync cfg activeEnv)[index]? = some envName ∧ ∃ path ∈ paths, ∃ file,
        path.env.text = cfg.cm.lower envName ∧
        (∃ folder ∈ (foldersOf cfg envName).keys, folder ∈ path.segments) ∧
        s3Key = path.text ++ '/' :: file.itemName ∧ file.itemId ≠ [] ∧
        (∃ position mapping, (envMappings cfg paths envName)[position]? = some mapping ∧
          mapping.schemaPath = path.text ∧
          file ∈ selectedFiles ((answers index).run.listing position) mapping) ∧
        (final.objects.get? s3Key).isSome ∧
        (final.registry.get? s3Key ≠ zone.registry.get? s3Key →
          final.registry.get? s3Key = some (registryRowOf cfg.xxh file)) := by
  intro final hchanged
  have htraced : Traced cfg.xxh (JobSelects cfg paths answers (envsToSync cfg activeEnv)) zone
      final := by
    unfold final ingestMyEntsoeDomains
    cases preflight with
    | false => exact .refl _ _
    | true =>
      refine traced_syncEnvironments hpaths _ (fun offset envName henv => ?_) (.refl _ _)
      rwa [Nat.zero_add]
  -- a changed row decides the file, and otherwise a changed object does
  have hsource : ∃ mapping file, JobSelects cfg paths answers
      (envsToSync cfg activeEnv) mapping file ∧
      s3KeyOf mapping file = s3Key ∧ (final.objects.get? s3Key).isSome ∧
      (final.registry.get? s3Key ≠ zone.registry.get? s3Key →
        final.registry.get? s3Key = some (registryRowOf cfg.xxh file)) := by
    rcases htraced.registry s3Key with hsame | ⟨mapping, file, hselects, hkey, hrow, hobject⟩
    · rcases htraced.objects s3Key with hsame' | ⟨mapping, file, hselects, hkey, hobject⟩
      · exact absurd hchanged (by simp [hsame, hsame'])
      · exact ⟨mapping, file, hselects, hkey, hobject, fun hne => absurd hsame hne⟩
    · exact ⟨mapping, file, hselects, hkey, hobject, fun _ => hrow⟩
  obtain ⟨mapping, file, ⟨hid, index, envName, henv, position, hmapping, hfile⟩, hkey, hobject,
    hrow⟩ := hsource
  obtain ⟨path, hpath, hschema, hprefix, hfolder⟩ :=
    exists_path_of_mem_envMappings (List.mem_of_getElem? hmapping)
  refine ⟨index, envName, henv, path, hpath, file, hprefix, hfolder, ?_, hid, ?_, hobject, hrow⟩
  · rw [← hkey, s3KeyOf_eq_text hschema]
  · exact ⟨position, mapping, hmapping, hschema, hfile⟩

/-- A configuration with one enabled folder in each environment. -/
def twoEnvSync : SyncConfig ℕ where
  cm := CaseMap.ascii
  xxh := id
  checklist := Dict.ofList
    (["IOP", "PROD"].map fun envName => (envName.toList, [⟨"TP_export".toList,
    Dict.ofList [("Load".toList, Dict.ofList [("Load_r3".toList, .bool true)])], ∅⟩]))
  schemaFolders := ["iop/TP_export/Load/Load_r3".toList, "prod/TP_export/Load/Load_r3".toList]
  remote _ _ _ _ := none

/-- The segment with a text. A text that is no segment is read as a dash. -/
def segmentOf (text : Str) : Segment '/' :=
  if h : text ≠ [] ∧ '/' ∉ text then ⟨text, h.1, h.2⟩ else ⟨['-'], by decide, by decide⟩

/-- The landing paths of the two folders. -/
def twoEnvPaths : List LandingPath :=
  ["iop".toList, "prod".toList].map fun env =>
    ⟨segmentOf env, segmentOf "TP_export".toList, segmentOf "Load".toList,
      segmentOf "Load_r3".toList⟩

/-- The landing schema has the two paths. -/
lemma schemaFolders_twoEnvSync : twoEnvSync.schemaFolders = twoEnvPaths.map LandingPath.text := by
  decide

/-- Every call of a job succeeds. -/
def calmJob (items : List RawItem) : ℕ → EnvAnswers ℕ := fun _ => ⟨true, calmAnswers items⟩

/-- The job for the two environments. -/
def twoEnvJob (zone : LandingZone ℕ) : Except (IngestState ℕ) (IngestState ℕ) :=
  ingestMyEntsoeDomains twoEnvSync noonReader ["IOP".toList, "PROD".toList] "IOP".toList true
    (calmJob loadItems) zone

/-- The object of the production environment is that of a file which was listed for one of its
mappings. -/
theorem traced_ingestMyEntsoeDomains_twoEnvs : ∃ index envName,
    (envsToSync twoEnvSync "IOP".toList)[index]? = some envName ∧ ∃ path ∈ twoEnvPaths,
    ∃ file : RawItem, path.env.text = twoEnvSync.cm.lower envName ∧
      "prod/TP_export/Load/Load_r3/a.csv".toList = path.text ++ '/' :: file.itemName ∧
      (∃ position mapping, (envMappings twoEnvSync twoEnvPaths envName)[position]? = some mapping ∧
        file ∈ selectedFiles ((calmJob loadItems index).run.listing position) mapping) ∧
      ((exitState (twoEnvJob ⟨0, ∅, ∅⟩)).zone.objects.get?
        "prod/TP_export/Load/Load_r3/a.csv".toList).isSome := by
  have hchanged : (exitState (twoEnvJob ⟨0, ∅, ∅⟩)).zone.registry.get?
      "prod/TP_export/Load/Load_r3/a.csv".toList ≠
        (∅ : Dict Str RegistryRow).get? "prod/TP_export/Load/Load_r3/a.csv".toList := by
    decide +kernel
  obtain ⟨index, envName, henv, path, hpath, file, hprefix, -, hkey, -,
    ⟨position, mapping, hmapping, -, hfile⟩, hobject, -⟩ :=
    traced_ingestMyEntsoeDomains schemaFolders_twoEnvSync _ _ _ _ _ (Or.inl hchanged)
  exact ⟨index, envName, henv, path, hpath, file, hprefix, hkey,
    ⟨position, mapping, hmapping, hfile⟩, hobject⟩

end Changes

/-! ## The files of a job -/

section Visits

variable (cfg : SyncConfig β) (paths : List LandingPath)

/-- The files of a job in the order of its loops, when no call raises. -/
def jobVisits (answers : ℕ → EnvAnswers β) : ℕ → List Str → List (Visit β)
  | _, [] => []
  | index, envName :: envs =>
    syncVisits (answers index).run 0 (envMappings cfg paths envName) ++
      jobVisits answers (index + 1) envs

/-- The files that are selected for the environments, of which `server index` is the file server. -/
def jobSources (server : ℕ → Str → Except PyError (List RawItem)) :
    ℕ → List Str → List (Mapping × RawItem)
  | _, [] => []
  | index, envName :: envs =>
    ((envMappings cfg paths envName).flatMap fun mapping =>
      (selectedFiles (server index) mapping).map fun file => (mapping, file)) ++
        jobSources server (index + 1) envs

/-- Two visited files have different keys, apart from files without an id. -/
def KeysApart (a b : Mapping × RawItem) : Prop :=
  a.2.itemId ≠ [] → b.2.itemId ≠ [] → s3KeyOf a.1 a.2 ≠ s3KeyOf b.1 b.2

variable {cfg paths} {server : ℕ → Str → Except PyError (List RawItem)}

/-- The file servers do not change while the job runs. -/
def ServedBy (server : ℕ → Str → Except PyError (List RawItem)) (answers : ℕ → EnvAnswers β) :
    Prop :=
  ∀ index position, (answers index).run.listing position = server index

/-- The files that a job visits are those of its listings. -/
lemma map_source_jobVisits {answers : ℕ → EnvAnswers β} (hserved : ServedBy server answers)
    (index : ℕ) (envs : List Str) :
    (jobVisits cfg paths answers index envs).map Visit.source =
      jobSources cfg paths server index envs := by
  induction envs generalizing index with
  | nil => rfl
  | cons envName envs ih =>
    rw [jobVisits, jobSources, List.map_append, map_source_syncVisits (hserved index), ih]

/-- A selected file belongs to a mapping of one of the environments, and its name has no slash. -/
lemma of_mem_jobSources (hnames : ∀ index path items, server index path = .ok items →
      UniqueNames items) {index : ℕ} {envs : List Str} {entry : Mapping × RawItem}
    (h : entry ∈ jobSources cfg paths server index envs) :
    (∃ envName ∈ envs, entry.1 ∈ envMappings cfg paths envName) ∧
      (entry.2.itemId ≠ [] → '/' ∉ entry.2.itemName) := by
  induction envs generalizing index with
  | nil => cases h
  | cons envName envs ih =>
    rw [jobSources, List.mem_append, List.mem_flatMap] at h
    rcases h with ⟨mapping, hmapping, hmem⟩ | hrest
    · obtain ⟨file, hfile, rfl⟩ := List.mem_map.mp hmem
      exact ⟨⟨envName, List.mem_cons_self, hmapping⟩,
        (uniqueNames_selectedFiles (hnames index) mapping).1 file hfile⟩
    · obtain ⟨⟨envName', henv', hmapping⟩, hslash⟩ := ih hrest
      exact ⟨⟨envName', List.mem_cons_of_mem _ henv', hmapping⟩, hslash⟩

/-- The files of a job over distinct landing paths have distinct keys, when the lower case names of
the environments differ. -/
lemma pairwise_jobSources (hdistinct : paths.Nodup)
    (hnames : ∀ index path items, server index path = .ok items → UniqueNames items)
    {envs : List Str} (henvs : (envs.map cfg.cm.lower).Nodup) (index : ℕ) :
    (jobSources cfg paths server index envs).Pairwise KeysApart := by
  induction envs generalizing index with
  | nil => exact .nil
  | cons envName envs ih =>
    rw [List.map_cons, List.nodup_cons] at henvs
    rw [jobSources, List.pairwise_append]
    refine ⟨pairwise_s3KeyOf hdistinct (hnames index), ih henvs.2 _, ?_⟩
    intro a ha b hb hida hidb hkey
    obtain ⟨mapping, hmapping, ha⟩ := List.mem_flatMap.mp ha
    obtain ⟨file, hfile, rfl⟩ := List.mem_map.mp ha
    obtain ⟨⟨envName', henv', hmapping'⟩, hslash'⟩ := of_mem_jobSources hnames hb
    obtain ⟨path, -, hschema, hprefix, -⟩ := exists_path_of_mem_envMappings hmapping
    obtain ⟨path', -, hschema', hprefix', -⟩ := exists_path_of_mem_envMappings hmapping'
    have hslash := (uniqueNames_selectedFiles (hnames index) mapping).1 file hfile hida
    obtain ⟨rfl, -⟩ := s3KeyOf_inj hschema hschema' hslash (hslash' hidb) hkey
    apply henvs.1
    rw [← hprefix, hprefix']
    exact List.mem_map_of_mem henv'

end Visits

/-! ## A job without errors -/

section Clean

variable {cfg : SyncConfig β} {reader : IsoReader} {registered : List Str}
    {paths : List LandingPath}

/-- No folder of the environments that were logged as finished failed. -/
def NoErrors (finished : List (Str × SyncMetrics)) : Prop := ∀ entry ∈ finished, entry.2.errors = 0

/-- The counters of files that did not fail. -/
def SyncMetrics.addEnds (metrics : SyncMetrics) (ends : List FileEnd) : SyncMetrics where
  processed := metrics.processed + ends.countP fun e => decide (e = .downloaded)
  downloaded := metrics.downloaded + ends.countP fun e => decide (e = .downloaded)
  skipped := metrics.skipped + ends.countP FileEnd.isSkipped
  errors := metrics.errors

/-- Files that do not fail are counted by their ends. -/
lemma foldl_countFile_of_clean {ends : List FileEnd} (h : ∀ e ∈ ends, e.isFailed = false)
    (metrics : SyncMetrics) :
    ends.foldl SyncMetrics.countFile metrics = metrics.addEnds ends := by
  induction ends generalizing metrics with
  | nil => rfl
  | cons e ends ih =>
    obtain ⟨he, hends⟩ := List.forall_mem_cons.mp h
    rw [List.foldl_cons, ih hends]
    unfold SyncMetrics.addEnds
    cases e with
    | failed step => cases he
    | noFileId =>
      simp only [SyncMetrics.countFile, List.countP_cons, FileEnd.isSkipped]
      simp
      omega
    | alreadySynced =>
      simp only [SyncMetrics.countFile, List.countP_cons, FileEnd.isSkipped]
      simp
      omega
    | downloaded =>
      simp only [SyncMetrics.countFile, List.countP_cons, FileEnd.isSkipped]
      simp
      omega

/-- Ends that follow one another are counted together. -/
lemma addEnds_append (metrics : SyncMetrics) (ends ends' : List FileEnd) :
    metrics.addEnds (ends ++ ends') = (metrics.addEnds ends).addEnds ends' := by
  simp only [SyncMetrics.addEnds, List.countP_append, Nat.add_assoc]

/-- A run without errors is one loop over all of its files, and its counters are those of the passes
of this loop. -/
lemma metrics_of_clean {answers : RunAnswers β} {index : ℕ} {mappings : List Mapping}
    {zone : LandingZone β} (metrics : SyncMetrics)
    (h : ∀ folder ∈ (syncMappings cfg reader answers index mappings zone).folders,
      FolderEnd.Clean folder) :
    (syncMappings cfg reader answers index mappings zone).folders.foldl SyncMetrics.countFolder
        metrics =
      metrics.addEnds (syncFiles cfg.xxh reader (syncVisits answers index mappings) zone).1 := by
  induction mappings generalizing index zone metrics with
  | nil => rfl
  | cons mapping mappings ih =>
    simp only [syncMappings, List.forall_mem_cons] at h
    obtain ⟨⟨ends, hends, hclean⟩, hrest⟩ := h
    simp only [syncMappings, syncVisits, List.foldl_cons, ih _ hrest]
    unfold syncFolder at hends ⊢
    unfold selectedFiles
    cases hselect : selectFilesToSync RawItem.itemName (answers.listing index) mapping with
    | error e =>
      rw [hselect] at hends
      cases hends
    | ok files =>
      simp only [hselect] at hends ⊢
      cases hends
      unfold syncFiles at hclean ⊢
      have hfolder := Failstop.clean_iff_forall_run.mpr hclean
      rw [Failstop.run_append_of_clean _ hfolder, addEnds_append, Failstop.run_of_clean hfolder,
        SyncMetrics.countFolder, foldl_countFile_of_clean hclean]

variable (cfg paths) in
/-- Every folder of the environments can be listed. -/
def JobListed (server : ℕ → Str → Except PyError (List RawItem)) : ℕ → List Str → Prop
  | _, [] => True
  | index, envName :: envs =>
    (∀ mapping ∈ envMappings cfg paths envName, ∃ files,
      selectFilesToSync RawItem.itemName (server index) mapping = .ok files) ∧
        JobListed server (index + 1) envs

variable (cfg reader paths) in
/-- The loop over the environments made a pass over each of their files, and none failed. -/
structure CleanJob (server : ℕ → Str → Except PyError (List RawItem)) (answers : ℕ → EnvAnswers β)
    (index : ℕ) (envs : List Str) (st final : IngestState β) : Prop where
  /-- No pass failed. -/
  clean : Failstop.Clean (syncFile cfg.xxh reader) FileEnd.isFailed
    (jobVisits cfg paths answers index envs) st.zone
  /-- The landing zone behind the passes. -/
  zone : final.zone = Failstop.turn (syncFile cfg.xxh reader)
    (jobVisits cfg paths answers index envs) st.zone
  /-- The folders were listed. -/
  listed : JobListed cfg paths server index envs
  /-- The files that were processed. -/
  processed : final.processed = st.processed +
    (syncFiles cfg.xxh reader (jobVisits cfg paths answers index envs) st.zone).1.countP
      fun e => decide (e = .downloaded)
  /-- The files that were downloaded. -/
  downloaded : final.downloaded = st.downloaded +
    (syncFiles cfg.xxh reader (jobVisits cfg paths answers index envs) st.zone).1.countP
      fun e => decide (e = .downloaded)
  /-- The files that were skipped. -/
  skipped : final.skipped = st.skipped +
    (syncFiles cfg.xxh reader (jobVisits cfg paths answers index envs) st.zone).1.countP
      FileEnd.isSkipped

/-- **A job without errors.** When the loop over the environments ends and no finished environment
has an error, every file had its pass. -/
lemma cleanJob_of_noErrors (hpaths : cfg.schemaFolders = paths.map LandingPath.text)
    {server : ℕ → Str → Except PyError (List RawItem)} {answers : ℕ → EnvAnswers β}
    (hserved : ServedBy server answers) {index : ℕ} {envs : List Str} {st final : IngestState β}
    (hrun : syncEnvironments cfg reader registered answers index envs st = .ok final)
    (herrors : NoErrors final.finished) :
    NoErrors st.finished ∧ CleanJob cfg reader paths server answers index envs st final := by
  induction envs generalizing index st with
  | nil =>
    cases hrun
    exact ⟨herrors, Failstop.clean_nil _, rfl, trivial, rfl, rfl, rfl⟩
  | cons envName envs ih =>
    unfold syncEnvironments at hrun
    cases hsync : syncEnvironment cfg reader registered (answers index) envName st.zone with
    | error e =>
      rw [hsync] at hrun
      cases hrun
    | ok result =>
      rw [hsync] at hrun
      obtain ⟨hfinished, hrest⟩ := ih hrun
      obtain ⟨hstart, hresult⟩ := List.forall_mem_append.mp hfinished
      obtain ⟨-, rfl⟩ := (syncEnvironment_eq_ok_iff hpaths).mp hsync
      -- the environment has no error, so it is one loop over its files
      obtain ⟨-, hclean⟩ := clean_of_errors_eq_zero (hresult _ (List.mem_singleton_self _))
      obtain ⟨hpasses, hzone⟩ := turn_of_clean hclean
      have hmetrics := metrics_of_clean ⟨0, 0, 0, 0⟩ hclean
      have hlisted := listed_of_clean (hserved index) hclean
      have hends : ∀ l, (syncFiles cfg.xxh reader
          (syncVisits (answers index).run 0 (envMappings cfg paths envName) ++ l) st.zone).1 =
          (syncFiles cfg.xxh reader
            (syncVisits (answers index).run 0 (envMappings cfg paths envName)) st.zone).1 ++
          (syncFiles cfg.xxh reader l (Failstop.turn (syncFile cfg.xxh reader)
            (syncVisits (answers index).run 0 (envMappings cfg paths envName)) st.zone)).1 := by
        intro l
        unfold syncFiles
        rw [Failstop.run_append_of_clean l hpasses]
      refine ⟨hstart, ?_, ?_, ⟨hlisted, hrest.listed⟩, ?_, ?_, ?_⟩
      · rw [jobVisits, Failstop.clean_append_iff, ← hzone]
        exact ⟨hpasses, hrest.clean⟩
      · rw [jobVisits, Failstop.turn_append, ← hzone]
        exact hrest.zone
      · rw [hrest.processed, jobVisits, hends, List.countP_append, ← hzone]
        simp only [IngestState.finish, SyncResult.metrics, hmetrics, SyncMetrics.addEnds]
        omega
      · rw [hrest.downloaded, jobVisits, hends, List.countP_append, ← hzone]
        simp only [IngestState.finish, SyncResult.metrics, hmetrics, SyncMetrics.addEnds]
        omega
      · rw [hrest.skipped, jobVisits, hends, List.countP_append, ← hzone]
        simp only [IngestState.finish, SyncResult.metrics, hmetrics, SyncMetrics.addEnds]
        omega

/-! ### What the counters say -/

/-- A file that a pass has to transfer: it has an id and is not found synced. -/
def needsTransfer (xxh : Str → Str) (zone : LandingZone β) (visit : Visit β) : Bool :=
  decide (visit.file.itemId ≠ []) &&
    !checkIdempotency zone.registry (s3KeyOf visit.mapping visit.file)
      ((itemVersion visit.file).hash xxh)
      (s3ObjectExists zone (s3KeyOf visit.mapping visit.file) visit.answers)

section Pass

variable {xxh : Str → Str}

/-- The end of a transfer does not depend on the landing zone. -/
lemma fst_transferFile_congr (visit : Visit β) (zone zone' : LandingZone β) :
    (transferFile xxh reader visit zone).1 = (transferFile xxh reader visit zone').1 := by
  unfold transferFile
  cases visit.answers.csvData with
  | none => rfl
  | some csvData =>
    dsimp only
    split_ifs
    · rfl
    · unfold storeFile
      cases visit.answers.upload with
      | failed => rfl
      | unconfirmed => rfl
      | done =>
        dsimp only
        split_ifs
        · rfl
        · cases parseIsoDatetime reader (itemVersion visit.file).lastUpdated with
          | none => rfl
          | some time =>
            cases visit.answers.transaction with
            | failed => rfl
            | unconfirmed => rfl
            | done => rfl

/-- The end of a pass depends on the row and the object of its file only. -/
lemma fst_syncFile_congr {visit : Visit β} {zone zone' : LandingZone β}
    (hrow : zone'.registry.get? (s3KeyOf visit.mapping visit.file) =
      zone.registry.get? (s3KeyOf visit.mapping visit.file))
    (hobject : zone'.objects.get? (s3KeyOf visit.mapping visit.file) =
      zone.objects.get? (s3KeyOf visit.mapping visit.file)) :
    (syncFile xxh reader visit zone').1 = (syncFile xxh reader visit zone).1 := by
  unfold syncFile checkIdempotency s3ObjectExists
  dsimp only
  rw [hrow, hobject]
  split_ifs
  · rfl
  · rfl
  · rfl
  · rfl
  · exact fst_transferFile_congr visit zone' zone

/-- A pass over a file does not change the end of a pass over a file with another key. -/
lemma fst_syncFile_of_keysApart {visit later : Visit β}
    (h : KeysApart visit.source later.source) (zone : LandingZone β) :
    (syncFile xxh reader later (syncFile xxh reader visit zone).2).1 =
      (syncFile xxh reader later zone).1 := by
  by_cases hid : visit.file.itemId = []
  · rw [syncFile_of_no_id hid]
  · by_cases hid' : later.file.itemId = []
    · rw [syncFile_of_no_id hid', syncFile_of_no_id hid']
    · have hframe := @onlyAt_syncFile _ xxh reader visit zone
      have hne : s3KeyOf later.mapping later.file ≠ s3KeyOf visit.mapping visit.file :=
        (h hid hid').symm
      exact fst_syncFile_congr (hframe.registry _ hne) (hframe.objects _ hne)

/-- A pass that does not fail transfers its file when it has to, and skips it otherwise. -/
lemma fst_syncFile_of_not_failed {visit : Visit β} {zone : LandingZone β}
    (h : (syncFile xxh reader visit zone).1.isFailed = false) :
    decide ((syncFile xxh reader visit zone).1 = .downloaded) = needsTransfer xxh zone visit ∧
      (syncFile xxh reader visit zone).1.isSkipped = !needsTransfer xxh zone visit := by
  unfold needsTransfer
  unfold syncFile at h ⊢
  dsimp only at h ⊢
  split_ifs at h ⊢ with hid hdisk hregistry hsynced
  · simp [hid, FileEnd.isSkipped]
  · cases h
  · cases h
  · simp [hid, hsynced, FileEnd.isSkipped]
  · rcases @transferFile_cases _ xxh reader visit zone with hfailed | ⟨hdone, -⟩
    · rw [h] at hfailed
      cases hfailed
    · simp [hid, hsynced, hdone, FileEnd.isSkipped]

end Pass

/-- Over files with distinct keys, a job without errors leaves every file with an id synced, and its
counters are decided by the initial landing zone.

**Proof sketch.** No pass unsettles another file, and the end of a pass depends on the row and the
object of its file only, so it is the same as on the initial landing zone. -/
lemma counters_of_cleanJob {server : ℕ → Str → Except PyError (List RawItem)}
    {answers : ℕ → EnvAnswers β} {index : ℕ} {envs : List Str} {st final : IngestState β}
    (hkeys : ((jobVisits cfg paths answers index envs).map Visit.source).Pairwise KeysApart)
    (hjob : CleanJob cfg reader paths server answers index envs st final) :
    (∀ visit ∈ jobVisits cfg paths answers index envs, visit.file.itemId ≠ [] →
      Synced cfg.xxh visit.mapping visit.file final.zone) ∧
    final.processed = st.processed +
      (jobVisits cfg paths answers index envs).countP (needsTransfer cfg.xxh st.zone) ∧
    final.downloaded = st.downloaded +
      (jobVisits cfg paths answers index envs).countP (needsTransfer cfg.xxh st.zone) ∧
    final.skipped = st.skipped + (jobVisits cfg paths answers index envs).countP
      fun visit => !needsTransfer cfg.xxh st.zone visit := by
  set visits := jobVisits cfg paths answers index envs with hvisits
  -- every pass ends as it would on the initial landing zone
  have hends : (syncFiles cfg.xxh reader visits st.zone).1 =
      visits.map fun visit => (syncFile cfg.xxh reader visit st.zone).1 := by
    refine Failstop.fst_run_of_separate ?_ hjob.clean
    exact (List.pairwise_map.mp hkeys).imp fun hapart zone => fst_syncFile_of_keysApart hapart zone
  have hclean : ∀ visit ∈ visits, (syncFile cfg.xxh reader visit st.zone).1.isFailed = false := by
    have hall := Failstop.clean_iff_forall_run.mp hjob.clean
    unfold syncFiles at hends
    rw [hends, List.forall_mem_map] at hall
    exact hall
  have hcount : ∀ (p : FileEnd → Bool) (q : Visit β → Bool),
      (∀ visit ∈ visits, p (syncFile cfg.xxh reader visit st.zone).1 = q visit) →
      (syncFiles cfg.xxh reader visits st.zone).1.countP p = visits.countP q := by
    intro p q hpq
    rw [hends, List.countP_map]
    exact List.countP_congr fun visit hvisit => by simp [hpq visit hvisit]
  have hdownloaded := hcount (fun e => decide (e = .downloaded)) (needsTransfer cfg.xxh st.zone)
    fun visit hvisit => (fst_syncFile_of_not_failed (hclean visit hvisit)).1
  have hskipped := hcount FileEnd.isSkipped (fun visit => !needsTransfer cfg.xxh st.zone visit)
    fun visit hvisit => (fst_syncFile_of_not_failed (hclean visit hvisit)).2
  refine ⟨?_, ?_, ?_, ?_⟩
  · rw [hjob.zone]
    exact synced_of_clean hkeys hjob.clean
  · rw [hjob.processed, hdownloaded]
  · rw [hjob.downloaded, hdownloaded]
  · rw [hjob.skipped, hskipped]

variable {server : ℕ → Str → Except PyError (List RawItem)} {activeEnv : Str}

/-- The files of a job over the environments have distinct keys. -/
lemma pairwise_jobVisits (hdistinct : paths.Nodup)
    (hnames : ∀ index path items, server index path = .ok items → UniqueNames items)
    {envs : List Str} (henvs : (envs.map cfg.cm.lower).Nodup) {answers : ℕ → EnvAnswers β}
    (hserved : ServedBy server answers) (index : ℕ) :
    ((jobVisits cfg paths answers index envs).map Visit.source).Pairwise KeysApart := by
  rw [map_source_jobVisits hserved]
  exact pairwise_jobSources hdistinct hnames henvs index

/-- **What the counters of a job say.** When the job ends and no folder failed, then every file with
an id is synced. The files that the job reports as processed and as downloaded are those that were
not synced when it began, and it reports all others as skipped.

**Proof sketch.** A job without errors is one loop over its files, and their keys are distinct. -/
theorem counters_ingestMyEntsoeDomains (hpaths : cfg.schemaFolders = paths.map LandingPath.text)
    (hdistinct : paths.Nodup)
    (hnames : ∀ index path items, server index path = .ok items → UniqueNames items)
    (henvs : ((envsToSync cfg activeEnv).map cfg.cm.lower).Nodup)
    {answers : ℕ → EnvAnswers β} (hserved : ServedBy server answers) {preflight : Bool}
    {zone : LandingZone β} {final : IngestState β}
    (hrun : ingestMyEntsoeDomains cfg reader registered activeEnv preflight answers zone =
      .ok final)
    (herrors : NoErrors final.finished) :
    let visits := jobVisits cfg paths answers 0 (envsToSync cfg activeEnv)
    (∀ visit ∈ visits, visit.file.itemId ≠ [] →
      Synced cfg.xxh visit.mapping visit.file final.zone) ∧
    final.processed = visits.countP (needsTransfer cfg.xxh zone) ∧
    final.downloaded = visits.countP (needsTransfer cfg.xxh zone) ∧
    final.skipped = visits.countP fun visit => !needsTransfer cfg.xxh zone visit := by
  unfold ingestMyEntsoeDomains at hrun
  split_ifs at hrun
  obtain ⟨-, hjob⟩ := cleanJob_of_noErrors hpaths hserved hrun herrors
  have hkeys := pairwise_jobVisits hdistinct hnames henvs hserved 0
  simpa only [Nat.zero_add] using counters_of_cleanJob hkeys hjob

/-- The names in the listings are unique. -/
lemma uniqueNames_loadItems (_ : ℕ) (path : Str) (items : List RawItem)
    (h : loadServer loadItems path = .ok items) : UniqueNames items := by
  cases h
  split_ifs
  · exact ⟨by decide, by decide⟩
  · exact ⟨by simp, .nil⟩

/-- The two paths are distinct. -/
lemma nodup_twoEnvPaths : twoEnvPaths.Nodup := List.Nodup.of_map LandingPath.text (by decide)

/-- The two environments are distinct up to case. -/
lemma nodup_lower_twoEnvs :
    ((envsToSync twoEnvSync "IOP".toList).map twoEnvSync.cm.lower).Nodup := by
  decide +kernel

/-- The job ends without an error. -/
lemma exists_twoEnvJob : ∃ final, twoEnvJob ⟨0, ∅, ∅⟩ = .ok final ∧ NoErrors final.finished :=
  ⟨_, rfl, by unfold NoErrors; decide +kernel⟩

/-- The job downloads the file with an id of each environment, and skips the one without. -/
theorem counters_ingestMyEntsoeDomains_twoEnvs : ∃ final, twoEnvJob ⟨0, ∅, ∅⟩ = .ok final ∧
    final.processed = 2 ∧ final.downloaded = 2 ∧ final.skipped = 2 := by
  obtain ⟨final, hrun, herrors⟩ := exists_twoEnvJob
  obtain ⟨-, hprocessed, hdownloaded, hskipped⟩ := @counters_ingestMyEntsoeDomains _ twoEnvSync
    noonReader ["IOP".toList, "PROD".toList] twoEnvPaths (fun _ => loadServer loadItems)
      "IOP".toList
    schemaFolders_twoEnvSync nodup_twoEnvPaths uniqueNames_loadItems nodup_lower_twoEnvs
    (calmJob loadItems) (fun _ _ => rfl) true ⟨0, ∅, ∅⟩ final hrun herrors
  refine ⟨final, hrun, hprocessed.trans ?_, hdownloaded.trans ?_, hskipped.trans ?_⟩
  · decide +kernel
  · decide +kernel
  · decide +kernel

/-! ### A second job -/

/-- A loop over environments whose clients can be made, whose folders can be listed and whose files
are all skipped changes nothing. -/
lemma syncEnvironments_of_skipped (hpaths : cfg.schemaFolders = paths.map LandingPath.text)
    {answers : ℕ → EnvAnswers β} (hserved : ServedBy server answers) {index : ℕ} {envs : List Str}
    (hready : ∀ index, ∀ envName ∈ envs, ClientReady cfg registered (answers index) envName)
    (hlisted : JobListed cfg paths server index envs) {st : IngestState β}
    (hskip : ∀ visit ∈ jobVisits cfg paths answers index envs, ∃ e,
      syncFile cfg.xxh reader visit st.zone = (e, st.zone) ∧ e.isSkipped = true)
    (herrors : NoErrors st.finished) :
    ∃ final, syncEnvironments cfg reader registered answers index envs st = .ok final ∧
      final.zone = st.zone ∧ NoErrors final.finished := by
  induction envs generalizing index st with
  | nil => exact ⟨st, rfl, rfl, herrors⟩
  | cons envName envs ih =>
    rw [jobVisits, List.forall_mem_append] at hskip
    obtain ⟨hzone, hfolders⟩ := @syncMappings_of_skipped _ cfg reader _ _ (hserved index) 0
      (envMappings cfg paths envName) st.zone hlisted.1 hskip.1
    have hsync := (@syncEnvironment_eq_ok_iff _ cfg reader registered paths hpaths (answers index)
      envName st.zone _).mpr ⟨hready index envName List.mem_cons_self, rfl⟩
    obtain ⟨-, hmetrics⟩ := foldl_countFolder_of_skipped hfolders ⟨0, 0, 0, 0⟩
    set next := st.finish envName (syncMappings cfg reader (answers index).run 0
      (envMappings cfg paths envName) st.zone) with hnext
    have hsame : next.zone = st.zone := hzone
    have hnoErrors : NoErrors next.finished :=
      List.forall_mem_append.mpr ⟨herrors, List.forall_mem_singleton.mpr hmetrics⟩
    obtain ⟨final, hrun, hfinal, hnone⟩ := @ih (index + 1)
      (fun index envName henv => hready index envName (List.mem_cons_of_mem _ henv)) hlisted.2 next
      (hsame ▸ hskip.2) hnoErrors
    refine ⟨final, ?_, hfinal.trans hsame, hnone⟩
    unfold syncEnvironments
    rw [hsync]
    exact hrun

/-- The checks at the files of a job pass: there is disk space, the registry can be read, and the
request for the head of a stored object is answered. -/
def JobChecksPass (visits : List (Visit β)) : Prop :=
  ∀ visit ∈ visits, verifyFreeDiskSpace visit.answers.free (itemVersion visit.file).sizeBytes =
    true ∧ visit.answers.registryAnswers = true ∧ visit.answers.headAnswers = true

/-- At a synced file whose checks pass there is nothing to do: it is skipped, and it needs no
transfer. The same holds of a file without an id. -/
lemma syncFile_of_found {visits : List (Visit β)} (hchecks : JobChecksPass visits)
    {visit : Visit β} (hvisit : visit ∈ visits) {zone : LandingZone β}
    (h : visit.file.itemId ≠ [] → Synced cfg.xxh visit.mapping visit.file zone) :
    (∃ e, syncFile cfg.xxh reader visit zone = (e, zone) ∧ e.isSkipped = true) ∧
      needsTransfer cfg.xxh zone visit = false := by
  unfold needsTransfer
  by_cases hid : visit.file.itemId = []
  · exact ⟨⟨.noFileId, syncFile_of_no_id hid zone, rfl⟩, by simp [hid]⟩
  · obtain ⟨hdisk, hanswers, hhead⟩ := hchecks visit hvisit
    have hfound := checkIdempotency_iff_synced.mpr ⟨hhead, h hid⟩
    exact ⟨⟨.alreadySynced, syncFile_of_synced hdisk hanswers hhead hid (h hid), rfl⟩,
      by simp [hfound]⟩

/-- **A second job has nothing to do.** After a job in which no folder failed, a job over the same
listings in which the clients are made and the checks pass ends, leaves the bucket and the registry
as they are, reports nothing as processed or downloaded, and reports every file of every environment
as skipped.

**Proof sketch.** The first job leaves every file with an id synced, so that every pass of the
second job skips its file. The second job is one without errors, and so its counters are known. -/
lemma ingestMyEntsoeDomains_again (hpaths : cfg.schemaFolders = paths.map LandingPath.text)
    (hdistinct : paths.Nodup)
    (hnames : ∀ index path items, server index path = .ok items → UniqueNames items)
    (henvs : ((envsToSync cfg activeEnv).map cfg.cm.lower).Nodup)
    {first second : ℕ → EnvAnswers β} (hfirst : ServedBy server first)
    (hsecond : ServedBy server second)
    (hready : ∀ index, ∀ envName ∈ envsToSync cfg activeEnv,
      ClientReady cfg registered (second index) envName)
    (hchecks : JobChecksPass (jobVisits cfg paths second 0 (envsToSync cfg activeEnv)))
    {preflight : Bool} {zone zone' : LandingZone β} {final : IngestState β}
    (hrun : ingestMyEntsoeDomains cfg reader registered activeEnv preflight first zone = .ok final)
    (herrors : NoErrors final.finished) (hobjects : zone'.objects = final.zone.objects)
    (hregistry : zone'.registry = final.zone.registry) :
    ∃ final', ingestMyEntsoeDomains cfg reader registered activeEnv true second zone' = .ok final' ∧
      final'.zone = zone' ∧ NoErrors final'.finished ∧ final'.processed = 0 ∧
      final'.downloaded = 0 ∧
      final'.skipped = (jobSources cfg paths server 0 (envsToSync cfg activeEnv)).length := by
  unfold ingestMyEntsoeDomains at hrun
  split_ifs at hrun
  obtain ⟨-, hjob⟩ := cleanJob_of_noErrors hpaths hfirst hrun herrors
  have hsynced := (counters_of_cleanJob (pairwise_jobVisits hdistinct hnames henvs hfirst 0) hjob).1
  set visits := jobVisits cfg paths second 0 (envsToSync cfg activeEnv) with hvisits
  have hsame : visits.map Visit.source =
      (jobVisits cfg paths first 0 (envsToSync cfg activeEnv)).map Visit.source := by
    rw [map_source_jobVisits hfirst, hvisits, map_source_jobVisits hsecond]
  -- every file with an id was left synced by the first job
  have hbefore : ∀ visit ∈ visits, visit.file.itemId ≠ [] →
      Synced cfg.xxh visit.mapping visit.file zone' := by
    intro visit hvisit hid
    have hmem : visit.source ∈ (jobVisits cfg paths first 0 (envsToSync cfg activeEnv)).map
        Visit.source := hsame ▸ List.mem_map_of_mem hvisit
    obtain ⟨visit', hvisit', heq⟩ := List.mem_map.mp hmem
    obtain ⟨hmapping, hfile⟩ := Prod.mk.inj heq
    have hsync := hsynced visit' hvisit' (hfile ▸ hid)
    rw [hmapping, hfile] at hsync
    exact hsync.congr hobjects hregistry
  have hfound := fun visit hvisit =>
    @syncFile_of_found _ cfg reader _ hchecks visit hvisit zone' (hbefore visit hvisit)
  obtain ⟨final', hrun', hzone', hnoErrors⟩ := @syncEnvironments_of_skipped _ cfg reader registered
    paths server hpaths second hsecond 0 (envsToSync cfg activeEnv) hready hjob.listed
    ⟨zone', 0, 0, 0, []⟩ (fun visit hvisit => (hfound visit hvisit).1) (by simp [NoErrors])
  obtain ⟨-, hjob'⟩ := cleanJob_of_noErrors hpaths hsecond hrun' hnoErrors
  obtain ⟨-, hprocessed, hdownloaded, hskipped⟩ :=
    counters_of_cleanJob (pairwise_jobVisits hdistinct hnames henvs hsecond 0) hjob'
  have hzero : visits.countP (needsTransfer cfg.xxh zone') = 0 := by
    rw [List.countP_eq_zero]
    intro visit hvisit
    simp [(hfound visit hvisit).2]
  have hall : visits.countP (fun visit => !needsTransfer cfg.xxh zone' visit) = visits.length := by
    rw [List.countP_eq_length]
    intro visit hvisit
    simp [(hfound visit hvisit).2]
  refine ⟨final', hrun', hzone', hnoErrors, ?_, ?_, ?_⟩
  · rw [hprocessed, ← hvisits, hzero]
  · rw [hdownloaded, ← hvisits, hzero]
  · rw [hskipped, ← hvisits, hall, ← map_source_jobVisits hsecond, List.length_map, Nat.zero_add]

end Clean

end EntsoePipeline
