import EntsoePipeline.Landing.SyncSafety
import EntsoePipeline.Landing.SyncIdempotence

set_option relaxedAutoImplicit false
set_option autoImplicit false

/-!
# The run as a function is a run of the state machine

`syncActiveDomains` computes what one run of the synchronisation leaves, and `SyncStep` has the same
code as moves between which others may act. When the answers are those of the server, the function
takes the landing zone along a sequence of moves, so that what holds along all runs of the state
machine holds of its result.

## Main definitions

* `EntsoePipeline.RunAnswers.Truthful` — listings show what is on the server, and downloads bring
  it.
* `EntsoePipeline.SyncLeads` — a sequence of moves between two places in a run.

## Main results

* `EntsoePipeline.syncLeads_syncFile` — a pass over a file as moves.
* `EntsoePipeline.syncLeads_syncActiveDomains` — a run as moves.
* `EntsoePipeline.current_of_clean_run` — after a run without errors the objects of the selected
  files are not older than their listed versions.
-/

namespace EntsoePipeline

open Py Transition

variable {β : Type*}

/-! ## Truthful answers -/

/-- The bytes that are downloaded for a file are those that the server has. -/
def Visit.Truthful (cfg : SyncConfig β) (now : ℕ) (env : Environment) (visit : Visit β) : Prop :=
  ∀ csvData, visit.answers.csvData = some csvData → ∃ file, cfg.remote now env
    (downloadFolder visit.mapping.topLevelFolder (listFolder visit.mapping)) visit.file.itemName =
      some file ∧ file.bytes = csvData

/-- The listings show what is on the server. -/
def ListsTruthfully (cfg : SyncConfig β) (now : ℕ) (env : Environment)
    (server : Str → Except PyError (List RawItem)) : Prop :=
  ∀ path items, server path = .ok items → cfg.Shows now env path items

/-- The answers of a run are those of the server. -/
structure RunAnswers.Truthful (cfg : SyncConfig β) (now : ℕ) (env : Environment)
    (answers : RunAnswers β) : Prop where
  /-- The listings. -/
  listing : ∀ index, ListsTruthfully cfg now env (answers.listing index)
  /-- The downloads. -/
  csvData : ∀ mappings, cfg.targetMappings env = .ok mappings →
    ∀ visit ∈ syncVisits answers 0 mappings, visit.Truthful cfg now env

/-! ## Sequences of moves -/

/-- Some sequence of moves leads from one landing zone and place in the run to another, whatever the
temporary files are. -/
def SyncLeads (cfg : SyncConfig β) (zone : LandingZone β) (pc : SyncPc β) (zone' : LandingZone β)
    (pc' : SyncPc β) : Prop :=
  ∀ tmp, ∃ trace tmp', (syncSystem cfg).Moves (zone, ⟨tmp, pc⟩) trace (zone', ⟨tmp', pc'⟩)

section Leads

variable {cfg : SyncConfig β} {zone zone' zone'' : LandingZone β} {pc pc' pc'' : SyncPc β}

/-- A move of the synchronisation as a sequence of moves. -/
lemma SyncStep.moves {st st' : SyncState β} {events : List (Event β)}
    (h : SyncStep cfg zone st events zone' st') :
    (syncSystem cfg).Moves (zone, st) events (zone', st') :=
  .single h

/-- No move leads from a place to itself. -/
lemma SyncLeads.refl (zone : LandingZone β) (pc : SyncPc β) : SyncLeads cfg zone pc zone pc :=
  fun tmp => ⟨[], tmp, .refl _⟩

/-- Moves that follow one another lead on. -/
lemma SyncLeads.trans (h : SyncLeads cfg zone pc zone' pc')
    (h' : SyncLeads cfg zone' pc' zone'' pc'') : SyncLeads cfg zone pc zone'' pc'' := by
  intro tmp
  obtain ⟨trace, tmp', hmoves⟩ := h tmp
  obtain ⟨trace', tmp'', hmoves'⟩ := h' tmp'
  exact ⟨trace ++ trace', tmp'', hmoves.trans hmoves'⟩

/-- A single move that is possible with all temporary files. -/
lemma SyncLeads.of_step
    (h : ∀ tmp, ∃ events tmp', SyncStep cfg zone ⟨tmp, pc⟩ events zone' ⟨tmp', pc'⟩) :
    SyncLeads cfg zone pc zone' pc' := by
  intro tmp
  obtain ⟨events, tmp', hstep⟩ := h tmp
  exact ⟨events, tmp', hstep.moves⟩

/-- The step at a file fails. -/
lemma syncLeads_fail (zone : LandingZone β) (phase : Phase β) (job : Job) :
    SyncLeads cfg zone (.file phase job) zone (.folders job.env job.mappings) :=
  .of_step fun tmp => ⟨[], tmp, .fail⟩

/-- The temporary file is written and uploaded. -/
lemma syncLeads_upload (zone : LandingZone β) (csvData : Download β) (job : Job) :
    SyncLeads cfg zone (.file (.write csvData) job) (uploadFileToS3 zone job.s3Key csvData)
      (.file .clean job) := by
  intro tmp
  have hwrite := (@SyncStep.write _ cfg zone tmp job csvData).moves
  have hupload := (@SyncStep.upload _ cfg zone _ job csvData csvData
    (Dict.get?_set_self tmp job.tmpName csvData)).moves
  exact ⟨_, _, hwrite.trans hupload⟩

/-- The temporary file is written and uploaded, but the upload is reported as failed. -/
lemma syncLeads_uploadUnconfirmed (zone : LandingZone β) (csvData : Download β) (job : Job) :
    SyncLeads cfg zone (.file (.write csvData) job) (uploadFileToS3 zone job.s3Key csvData)
      (.folders job.env job.mappings) := by
  intro tmp
  have hwrite := (@SyncStep.write _ cfg zone tmp job csvData).moves
  have hupload := (@SyncStep.uploadUnconfirmed _ cfg zone _ job csvData csvData
    (Dict.get?_set_self tmp job.tmpName csvData)).moves
  exact ⟨_, _, hwrite.trans hupload⟩

/-- The temporary file is removed. -/
lemma syncLeads_clean (zone : LandingZone β) (job : Job) :
    SyncLeads cfg zone (.file .clean job) zone (.file .register job) :=
  .of_step fun _ => ⟨_, _, .clean⟩

end Leads

/-! ## A pass over a file -/

section Pass

variable {cfg : SyncConfig β} {reader : IsoReader}

/-- Where a run goes from a file of a folder. -/
def FileEnd.next (env : Environment) (mapping : Mapping) (files : List RawItem)
    (mappings : List Mapping) (e : FileEnd) : SyncPc β :=
  if e.isFailed then .folders env mappings else .files env mapping files mappings

/-- A file of a run as a file in the hands of the state machine. -/
def Visit.job (visit : Visit β) (env : Environment) (files : List RawItem)
    (mappings : List Mapping) : Job :=
  ⟨env, visit.mapping, visit.file, files, mappings⟩

/-- The upload and the registration of downloaded bytes, as moves. -/
lemma syncLeads_storeFile (visit : Visit β) (csvData : β) (zone : LandingZone β)
    (env : Environment) (files : List RawItem) (mappings : List Mapping) :
    SyncLeads cfg zone (.file (.write ⟨csvData, zone.now⟩) (visit.job env files mappings))
      (storeFile cfg.xxh reader visit csvData zone).2
      ((storeFile cfg.xxh reader visit csvData zone).1.next env visit.mapping files mappings) := by
  have hupload := @syncLeads_upload _ cfg zone ⟨csvData, zone.now⟩ (visit.job env files mappings)
  have hclean := hupload.trans (syncLeads_clean _ (visit.job env files mappings))
  unfold storeFile
  cases visit.answers.upload with
  | failed => exact syncLeads_fail zone _ (visit.job env files mappings)
  | unconfirmed =>
    exact syncLeads_uploadUnconfirmed zone ⟨csvData, zone.now⟩ (visit.job env files mappings)
  | done =>
    cases visit.answers.tmpRemoved with
    | false => exact hupload.trans (syncLeads_fail _ _ (visit.job env files mappings))
    | true =>
      cases parseIsoDatetime reader (itemVersion visit.file).lastUpdated with
      | none => exact hclean.trans (syncLeads_fail _ _ (visit.job env files mappings))
      | some time =>
        cases visit.answers.transaction with
        | failed => exact hclean.trans (syncLeads_fail _ _ (visit.job env files mappings))
        | unconfirmed => exact hclean.trans (.of_step fun _ => ⟨_, _, .registerUnconfirmed⟩)
        | done => exact hclean.trans (.of_step fun _ => ⟨_, _, .register⟩)

/-- The transfer of a file, as moves. -/
lemma syncLeads_transferFile {visit : Visit β} {zone : LandingZone β} {env : Environment}
    (htrue : visit.Truthful cfg zone.now env) (files : List RawItem) (mappings : List Mapping) :
    SyncLeads cfg zone (.file .transfer (visit.job env files mappings))
      (transferFile cfg.xxh reader visit zone).2
      ((transferFile cfg.xxh reader visit zone).1.next env visit.mapping files mappings) := by
  unfold transferFile
  cases hdata : visit.answers.csvData with
  | none => exact syncLeads_fail zone _ (visit.job env files mappings)
  | some csvData =>
    obtain ⟨file, hfile, rfl⟩ := htrue csvData hdata
    have hdownload : SyncLeads cfg zone (.file .transfer (visit.job env files mappings)) zone
        (.file (.write ⟨file.bytes, zone.now⟩) (visit.job env files mappings)) :=
      .of_step fun tmp => ⟨[], tmp, .download hfile⟩
    refine hdownload.trans ?_
    cases visit.answers.tmpWritten with
    | false => exact syncLeads_fail zone _ (visit.job env files mappings)
    | true => exact syncLeads_storeFile visit file.bytes zone env files mappings

/-- **A pass over a file**, as moves: to the next file, or to the next folder when it fails.

**Proof sketch.** The cases are those of the function; in each of them the calls that were made are
the moves, in their order. -/
lemma syncLeads_syncFile {visit : Visit β} {zone : LandingZone β} {env : Environment}
    (htrue : visit.Truthful cfg zone.now env) (files : List RawItem) (mappings : List Mapping) :
    SyncLeads cfg zone (.files env visit.mapping (visit.file :: files) mappings)
      (syncFile cfg.xxh reader visit zone).2
      ((syncFile cfg.xxh reader visit zone).1.next env visit.mapping files mappings) := by
  unfold syncFile
  dsimp only
  split_ifs with hid hdisk hregistry hsynced
  · exact .of_step fun _ => ⟨_, _, .skipEmpty hid⟩
  · exact .of_step fun _ => ⟨_, _, .diskFull⟩
  all_goals
    have hcheck : SyncLeads cfg zone (.files env visit.mapping (visit.file :: files) mappings) zone
        (.file .check (visit.job env files mappings)) :=
      .of_step fun tmp => ⟨[], tmp, .verifyDisk hid (Bool.eq_true_of_not_eq_false hdisk)⟩
    refine hcheck.trans ?_
  · exact syncLeads_fail zone _ (visit.job env files mappings)
  · have hexists : s3ObjectExists zone (s3KeyOf visit.mapping visit.file) visit.answers = true →
        ∃ object, zone.objects.get? (s3KeyOf visit.mapping visit.file) = some object := by
      intro h
      rw [s3ObjectExists, Bool.and_eq_true, Option.isSome_iff_exists] at h
      exact h.2
    exact .of_step fun _ => ⟨_, _, .skip hexists hsynced⟩
  · have hneeded : SyncLeads cfg zone (.file .check (visit.job env files mappings)) zone
        (.file .transfer (visit.job env files mappings)) :=
      .of_step fun tmp => ⟨[], tmp, .needed (Bool.eq_false_of_not_eq_true hsynced)⟩
    exact hneeded.trans (syncLeads_transferFile htrue files mappings)

end Pass

/-! ## The loops -/

section Loops

variable {cfg : SyncConfig β} {reader : IsoReader}

/-- **The loop over the files of a folder**, as moves to the next folder.

**Proof sketch.** Induction over the files. A pass leads to the next file, and the loop goes on from
there, or to the next folder, and the loop ends. -/
lemma syncLeads_syncFiles {env : Environment} {mapping : Mapping} {visits : List (Visit β)}
    {zone : LandingZone β} (hmapping : ∀ visit ∈ visits, visit.mapping = mapping)
    (htrue : ∀ visit ∈ visits, visit.Truthful cfg zone.now env) (mappings : List Mapping) :
    SyncLeads cfg zone (.files env mapping (visits.map Visit.file) mappings)
      (syncFiles cfg.xxh reader visits zone).2 (.folders env mappings) := by
  induction visits generalizing zone with
  | nil => exact .of_step fun _ => ⟨_, _, .nextFolder⟩
  | cons visit visits ih =>
    obtain ⟨rfl, hmapping⟩ := List.forall_mem_cons.mp hmapping
    obtain ⟨hvisit, htrue⟩ := List.forall_mem_cons.mp htrue
    have hpass := @syncLeads_syncFile _ cfg reader _ _ _ hvisit (visits.map Visit.file) mappings
    unfold syncFiles Failstop.run
    dsimp only
    split_ifs with hfails
    · rw [FileEnd.next, if_pos hfails] at hpass
      exact hpass
    · rw [FileEnd.next, if_neg hfails] at hpass
      rw [← (@onlyAt_syncFile _ cfg.xxh reader visit zone).now] at htrue
      exact hpass.trans (ih hmapping htrue)

/-- The loop over the files of a folder leaves the clock alone. -/
lemma now_syncFiles {xxh : Str → Str} (visits : List (Visit β)) (zone : LandingZone β) :
    (syncFiles xxh reader visits zone).2.now = zone.now :=
  @Failstop.run_preserves _ _ _ _ _ (fun zone' => zone'.now = zone.now) visits
    (fun visit _ zone' h => (@onlyAt_syncFile _ xxh reader visit zone').now.trans h) zone rfl

/-- The sync of a folder as a function takes no time. -/
lemma now_syncFolder {xxh : Str → Str} (mapping : Mapping)
    (server : Str → Except PyError (List RawItem)) (answers : ℕ → FileAnswers β)
    (zone : LandingZone β) :
    (syncFolder xxh reader mapping server answers zone).2.now = zone.now := by
  unfold syncFolder
  split
  · rfl
  · exact now_syncFiles _ _

/-- A visit of a folder is at one of its files. -/
lemma mem_visitsOf {mapping : Mapping} {answers : ℕ → FileAnswers β} {files : List RawItem}
    {visit : Visit β} (h : visit ∈ visitsOf mapping answers files) :
    visit.mapping = mapping ∧ visit.file ∈ files := by
  have hsource : visit.source ∈ (visitsOf mapping answers files).map Visit.source :=
    List.mem_map_of_mem h
  rw [map_source_visitsOf] at hsource
  obtain ⟨file, hfile, heq⟩ := List.mem_map.mp hsource
  obtain ⟨hmapping, rfl⟩ := Prod.mk.inj heq
  exact ⟨hmapping.symm, hfile⟩

/-- The visits of a folder are those of its files. -/
lemma map_file_visitsOf (mapping : Mapping) (answers : ℕ → FileAnswers β)
    (files : List RawItem) : (visitsOf mapping answers files).map Visit.file = files := by
  have hfile : (visitsOf mapping answers files).map Visit.file =
      ((visitsOf mapping answers files).map Visit.source).map Prod.snd := by
    rw [List.map_map]
    rfl
  rw [hfile, map_source_visitsOf, List.map_map]
  exact List.map_id _

/-- The body of the loop over the folders, as moves to the next folder. -/
lemma syncLeads_syncFolder {env : Environment} {mapping : Mapping}
    {server : Str → Except PyError (List RawItem)} {answers : ℕ → FileAnswers β}
    {zone : LandingZone β} (hlisting : ListsTruthfully cfg zone.now env server)
    (htrue : ∀ visit ∈ visitsOf mapping answers (selectedFiles server mapping),
      visit.Truthful cfg zone.now env) (mappings : List Mapping) :
    SyncLeads cfg zone (.folders env (mapping :: mappings))
      (syncFolder cfg.xxh reader mapping server answers zone).2 (.folders env mappings) := by
  unfold selectedFiles at htrue
  unfold syncFolder
  cases hselect : selectFilesToSync RawItem.itemName server mapping with
  | error e => exact .of_step fun _ => ⟨_, _, .listFails⟩
  | ok files =>
    rw [hselect] at htrue
    obtain ⟨items, hitems, -⟩ := exists_sublist_of_selectFilesToSync hselect
    have hselected : selectFilesToSync RawItem.itemName (fun _ => .ok items) mapping =
        .ok files := by
      rw [← hselect]
      unfold selectFilesToSync
      rw [hitems]
    have hlist : SyncLeads cfg zone (.folders env (mapping :: mappings)) zone
        (.files env mapping files mappings) :=
      .of_step fun tmp => ⟨[], tmp, .list (hlisting _ _ hitems) hselected⟩
    have hfiles := @syncLeads_syncFiles _ cfg reader env mapping
      (visitsOf mapping answers files) zone (fun visit hvisit => (mem_visitsOf hvisit).1) htrue
      mappings
    rw [map_file_visitsOf] at hfiles
    exact hlist.trans hfiles

/-- **The loop over the folders**, as moves.

**Proof sketch.** Induction over the folders. The clock stands, so what the server shows stays the
same along the run. -/
lemma syncLeads_syncMappings {env : Environment} {answers : RunAnswers β} {index : ℕ}
    {mappings : List Mapping} {zone : LandingZone β}
    (hlisting : ∀ index, ListsTruthfully cfg zone.now env (answers.listing index))
    (htrue : ∀ visit ∈ syncVisits answers index mappings, visit.Truthful cfg zone.now env) :
    SyncLeads cfg zone (.folders env mappings)
      (syncMappings cfg reader answers index mappings zone).zone (.folders env []) := by
  induction mappings generalizing index zone with
  | nil => exact .refl zone _
  | cons mapping mappings ih =>
    rw [syncVisits, List.forall_mem_append] at htrue
    have hfolder := @syncLeads_syncFolder _ cfg reader _ _ _ _ _ (hlisting index) htrue.1 mappings
    have hnow := @now_syncFolder _ reader cfg.xxh mapping (answers.listing index)
      (answers.files index) zone
    rw [syncMappings]
    rw [← hnow] at hlisting htrue
    exact hfolder.trans (ih hlisting htrue.2)

/-- **A run**, as moves: the function that synchronises an environment takes the landing zone along
a run of the state machine. -/
theorem syncLeads_syncActiveDomains {env : Environment} {answers : RunAnswers β}
    {zone : LandingZone β} {result : SyncResult β} (htrue : answers.Truthful cfg zone.now env)
    (hrun : syncActiveDomains cfg reader answers env zone = .ok result) :
    SyncLeads cfg zone .idle result.zone .idle := by
  obtain ⟨mappings, htarget, rfl⟩ := syncActiveDomains_eq_ok_iff.mp hrun
  have hstart : SyncLeads cfg zone .idle zone (.folders env mappings) :=
    .of_step fun _ => ⟨_, _, .start htarget⟩
  have hfolders := @syncLeads_syncMappings _ cfg reader env answers 0 mappings zone
    htrue.listing (htrue.csvData mappings htarget)
  exact hstart.trans (hfolders.trans (.of_step fun _ => ⟨_, _, .finish⟩))

end Loops

/-! ## What a run without errors leaves -/

section Current

variable {cfg : SyncConfig β} {reader : IsoReader}

/-- A file that a run visits is selected in the folder of its mapping. -/
lemma mem_syncVisits {answers : RunAnswers β} {index : ℕ} {mappings : List Mapping}
    {visit : Visit β} (h : visit ∈ syncVisits answers index mappings) :
    visit.mapping ∈ mappings ∧
      ∃ i, visit.file ∈ selectedFiles (answers.listing i) visit.mapping := by
  induction mappings generalizing index with
  | nil => cases h
  | cons mapping mappings ih =>
    rcases List.mem_append.mp h with hhere | hlater
    · obtain ⟨rfl, hfile⟩ := mem_visitsOf hhere
      exact ⟨List.mem_cons_self, index, hfile⟩
    · obtain ⟨hmem, hfile⟩ := ih hlater
      exact ⟨List.mem_cons_of_mem _ hmem, hfile⟩

/-- A file that is selected in a truthful listing had its version. -/
lemma ListsTruthfully.hasVersion {now : ℕ} {env : Environment}
    {server : Str → Except PyError (List RawItem)} (h : ListsTruthfully cfg now env server)
    {mapping : Mapping} {file : RawItem} (hfile : file ∈ selectedFiles server mapping)
    (hid : file.itemId ≠ []) :
    ∃ t ≤ now, cfg.HasVersion t env (listingOf mapping).path (itemVersion file) := by
  unfold selectedFiles at hfile
  cases hselect : selectFilesToSync RawItem.itemName server mapping with
  | error e =>
    rw [hselect] at hfile
    cases hfile
  | ok files =>
    rw [hselect] at hfile
    obtain ⟨items, hitems, hsub⟩ := exists_sublist_of_selectFilesToSync hselect
    exact h _ items hitems file (hsub.subset hfile) hid

/-- **A run without errors leaves a current bucket.** On a landing zone that earlier runs, crashed
ones among them, have left, a run without errors over distinct landing paths leaves for every
selected file with an id an object that was downloaded when the file had the listed version, or
later.

**Proof sketch.** The run is a run of the state machine, so the invariant of the state machine holds
behind it. It leaves every such file synced, and the invariant says what that means for the
object. -/
theorem current_of_clean_run (hcfg : cfg.Assumed) {paths : List LandingPath}
    (hpaths : cfg.schemaFolders = paths.map LandingPath.text) (hdistinct : paths.Nodup)
    {trace : List (Event β)} {zone : LandingZone β} {tmp : Dict Str (Download β)}
    (hreach : (syncSystem cfg).Reach trace (zone, ⟨tmp, .idle⟩)) {env : Environment}
    {answers : RunAnswers β} (htrue : answers.Truthful cfg zone.now env)
    {server : Str → Except PyError (List RawItem)}
    (hlisting : ∀ index, answers.listing index = server)
    (hnames : ∀ path items, server path = .ok items → UniqueNames items) {result : SyncResult β}
    (hrun : syncActiveDomains cfg reader answers env zone = .ok result)
    (herrors : result.metrics.errors = 0) {mappings : List Mapping}
    (htarget : cfg.targetMappings env = .ok mappings) :
    ∀ visit ∈ syncVisits answers 0 mappings, visit.file.itemId ≠ [] → ∃ object,
      result.zone.objects.get? (s3KeyOf visit.mapping visit.file) = some object ∧
        cfg.Downloaded result.zone.now env (listingOf visit.mapping).path visit.file.itemName
          object ∧
        ∃ t ≤ object.downloadedAt,
          cfg.HasVersion t env (listingOf visit.mapping).path (itemVersion visit.file) := by
  -- the run is one of the state machine
  obtain ⟨trace', tmp', hmoves⟩ := syncLeads_syncActiveDomains htrue hrun tmp
  have hinv := syncInv_of_reach hcfg (hreach.moves hmoves)
  -- and it leaves every file synced
  have hkeys := pairwise_s3KeyOf_targetMappings hpaths hdistinct hnames htarget
  rw [← map_source_syncVisits hlisting 0 mappings] at hkeys
  simp only [syncActiveDomains, htarget, Except.ok.injEq] at hrun
  subst hrun
  obtain ⟨-, hclean⟩ := clean_of_errors_eq_zero herrors
  obtain ⟨hpasses, hzone⟩ := turn_of_clean hclean
  have hsynced := synced_of_clean hkeys hpasses
  intro visit hvisit hid
  obtain ⟨⟨row, hrow, hhash⟩, object, hobject⟩ := hsynced visit hvisit hid
  rw [← hzone] at hrow hobject
  obtain ⟨hmem, i, hfile⟩ := mem_syncVisits hvisit
  obtain ⟨u, -, hlisted⟩ := (htrue.listing i).hasVersion hfile hid
  obtain ⟨hdownloaded, hversion⟩ := @SyncInv.current _ _ hcfg _ _ hinv (visit.job env [] [])
    (SyncConfig.isTarget_of_mem hcfg htarget hmem) u hlisted row hrow hhash object hobject
  exact ⟨object, hobject, hdownloaded, hversion⟩

end Current

end EntsoePipeline
