import EntsoePipeline.Landing.IngestJob
import EntsoePipeline.Staging.PendingSet

set_option relaxedAutoImplicit false
set_option autoImplicit false

/-!
# The two jobs one after the other

The ingestion job fills the landing zone and the staging job integrates the files that are pending
behind it. When no folder of the first and no file of the second failed, everything that the file
servers list and the gateway accepts is integrated in its listed version, and a second cycle over
the same listings does nothing.

## Main definitions

* `EntsoePipeline.ingestLandingCsvToLakehouse` — the staging job.
* `EntsoePipeline.IsIntegrated` — the latest attempt of a key is a success with a digest.
* `EntsoePipeline.CleanCycle` — a cycle of the two jobs without failures.

## Main results

* `EntsoePipeline.stagingRun_of_no_failed` — what a job without failed files records.
* `EntsoePipeline.integrated_of_cleanCycle` — what a cycle without failures leaves.
* `EntsoePipeline.idle_of_cleanCycle` — the cycle behind it does nothing.
-/

namespace EntsoePipeline

open Py

/-! ## The staging job -/

section Staging

variable {τ ε : Type*} (ingest : τ → Str → List IngestibleFile → WriteOutcome ε τ)
  (runs : Str → ContractRun) (config : ClassifierConfig)

/-- The staging job behind the fetch of the pending rows; it ends early when no file is pending. -/
def ingestLandingCsvToLakehouse (preflight : Bool) (dbRows : List PendingRow) (st : JobState τ) :
    Except (JobState τ) (JobState τ) :=
  let pendingDomains := (getIncrementalFilesToIngest config dbRows).items
  if preflight = false then .error st
  else if pendingDomains = [] then .ok st
  else stagingRun ingest runs pendingDomains st

variable {ingest runs config}

/-- A failure that is recorded is counted. -/
lemma recordFailure_eq_ok {run : ContractRun} {contract : Str × List IngestibleFile}
    {st next : JobState τ} (h : recordFailure run contract st = .ok next) :
    next.failed = st.failed + contract.2.length ∧
      next.ledger = st.ledger ++ attemptRows run contract.2 .failed := by
  unfold recordFailure at h
  cases hcommit : run.failedCommit with
  | committed =>
    rw [hcommit] at h
    cases h
    exact ⟨rfl, rfl⟩
  | failed =>
    rw [hcommit] at h
    cases h
  | unconfirmed =>
    rw [hcommit] at h
    cases h

/-- A pass that goes on and counts no failed file records the successes of its contract. -/
lemma processContract_of_no_failed {st next : JobState τ} {contract : Str × List IngestibleFile}
    (h : processContract ingest runs st contract = .ok next) (hfailed : next.failed = 0) :
    st.failed = 0 ∧
      next.ledger = st.ledger ++ attemptRows (runs contract.1) contract.2 .success := by
  -- a contract whose failure is counted has no files, and then no attempt is recorded
  have hempty : ∀ st' : JobState τ, recordFailure (runs contract.1) contract st' = .ok next →
      st'.failed = 0 ∧ contract.2 = [] ∧ next.ledger = st'.ledger := by
    intro st' hrecord
    obtain ⟨hcount, hledger⟩ := recordFailure_eq_ok hrecord
    have hnone : contract.2 = [] := List.eq_nil_of_length_eq_zero (by omega)
    refine ⟨by omega, hnone, ?_⟩
    rw [hledger, hnone, attemptRows, List.map_nil, List.append_nil]
  unfold processContract at h
  dsimp only at h
  split_ifs at h
  cases hstatus : (contractEffect ingest (runs contract.1) st.lakehouse contract).2 with
  | failed =>
    rw [hstatus] at h
    obtain ⟨hzero, hnone, hledger⟩ := hempty _ h
    refine ⟨hzero, ?_⟩
    rw [hledger, hnone, attemptRows, List.map_nil, List.append_nil]
  | success =>
    rw [hstatus] at h
    unfold recordSuccess at h
    cases hcommit : (runs contract.1).successCommit with
    | committed =>
      simp only [hcommit] at h
      cases h
      exact ⟨hfailed, rfl⟩
    | failed =>
      simp only [hcommit] at h
      obtain ⟨hzero, hnone, hledger⟩ := hempty _ h
      refine ⟨hzero, ?_⟩
      rw [hledger, hnone, attemptRows, List.map_nil, List.append_nil]
    | unconfirmed =>
      simp only [hcommit] at h
      obtain ⟨hzero, -, hledger⟩ := hempty _ h
      exact ⟨hzero, hledger⟩

/-- **A job without failed files.** When the loop ends and counts no failed file, it has recorded a
success for every file of every contract, and nothing else. -/
lemma stagingRun_of_no_failed {contracts : List (Str × List IngestibleFile)} {st final : JobState τ}
    (h : stagingRun ingest runs contracts st = .ok final) (hfailed : final.failed = 0) :
    st.failed = 0 ∧ final.ledger = st.ledger ++
      contracts.flatMap fun c => attemptRows (runs c.1) c.2 .success := by
  unfold stagingRun at h
  induction contracts generalizing st with
  | nil =>
    cases h
    exact ⟨hfailed, (List.append_nil _).symm⟩
  | cons contract contracts ih =>
    rw [List.foldlM_cons] at h
    cases hpass : processContract ingest runs st contract with
    | error st' =>
      rw [hpass] at h
      cases h
    | ok next =>
      rw [hpass] at h
      obtain ⟨hnext, hledger⟩ := ih h
      obtain ⟨hzero, hadded⟩ := processContract_of_no_failed hpass hnext
      refine ⟨hzero, ?_⟩
      rw [hledger, hadded, List.append_assoc, List.flatMap_cons]

end Staging

/-! ## IsIntegrated files -/

/-- The latest attempt of a key is a success with the digest. -/
def IsIntegrated (ledger : List AttemptRow) (s3Key xxhash : Str) : Prop :=
  ∃ li ∈ ledger, li.s3Key = s3Key ∧ li.xxhash = xxhash ∧ li.status = .success ∧
    ∀ a ∈ ledger, a.s3Key = s3Key → a ≠ li → a.ingestedAt < li.ingestedAt

section Pending

variable {config : ClassifierConfig} {registry : Dict Str RegistryRow} {ledger : List AttemptRow}
  {latest : Str → Option AttemptRow} {dbRows : List PendingRow} {runs : Str → ContractRun}

/-- An integrated file is not pending. -/
lemma IsIntegrated.not_isPending {s3Key xxhash : Str} (h : IsIntegrated ledger s3Key xxhash)
    (hlatest : Ranks ledger latest) : isPending xxhash (latest s3Key) = false := by
  obtain ⟨li, hmem, hkey, hhash, hsuccess, hmax⟩ := h
  have hrank := hlatest s3Key
  cases hli : latest s3Key with
  | none =>
    rw [hli] at hrank
    exact absurd hkey (hrank li hmem)
  | some li' =>
    rw [hli] at hrank
    obtain ⟨hmem', hkey', hmax'⟩ := hrank
    have heq : li' = li := by
      by_contra hne
      have hlt := hmax li' hmem' hkey' hne
      have hle := hmax' li hmem hkey
      omega
    rw [heq, isPending, hsuccess, hhash]
    simp

/-- A file that is not pending is integrated, when attempts have increasing times. -/
lemma integrated_of_not_isPending (hpast : Chronological ledger) (hlatest : Ranks ledger latest)
    {s3Key xxhash : Str} (h : isPending xxhash (latest s3Key) = false) :
    IsIntegrated ledger s3Key xxhash := by
  have hrank := hlatest s3Key
  cases hli : latest s3Key with
  | none =>
    rw [hli] at h
    cases h
  | some li =>
    rw [hli] at hrank h
    obtain ⟨hmem, hkey, hmax⟩ := hrank
    simp only [isPending, Bool.or_eq_false_iff, decide_eq_false_iff_not, not_not] at h
    refine ⟨li, hmem, hkey, h.2.symm, ?_, ?_⟩
    · cases hstatus : li.status with
      | success => rfl
      | failed => exact absurd hstatus h.1
    · intro a ha hakey hne
      refine lt_of_le_of_ne (hmax a ha hakey) fun htime => hne ?_
      exact hpast.eq_of_latest ha hmem (hakey.trans hkey.symm) htime

/-- An integrated file stays integrated when no attempt is added for its key. -/
lemma IsIntegrated.append {s3Key xxhash : Str} (h : IsIntegrated ledger s3Key xxhash)
    {added : List AttemptRow} (hnone : ∀ a ∈ added, a.s3Key ≠ s3Key) :
    IsIntegrated (ledger ++ added) s3Key xxhash := by
  obtain ⟨li, hmem, hkey, hhash, hsuccess, hmax⟩ := h
  refine ⟨li, List.mem_append_left _ hmem, hkey, hhash, hsuccess, ?_⟩
  intro a ha hakey hne
  rcases List.mem_append.mp ha with hold | hnew
  · exact hmax a hold hakey hne
  · exact absurd hakey (hnone a hnew)

/-- The gateway accepts the pending row of a key that has a contract. -/
lemma exists_gateRow_of_contractOf {s3Key n : Str} (h : contractOf config s3Key = some n)
    (row : RegistryRow) : ∃ f, gateRow config (pendingRow s3Key row) = some f := by
  obtain ⟨file, hgate, -⟩ := Option.map_eq_some_iff.mp h
  obtain ⟨a, b, d, folder, rest, n', hsplit, hres, hadm, -⟩ := gateRow_eq_some_iff.mp hgate
  exact ⟨_, gateRow_eq_some_iff.mpr ⟨a, b, d, folder, rest, n', hsplit, hres, hadm, rfl⟩⟩

/-- **What a run without failed files integrates.** Behind the successes of all accepted files,
every registered file with a contract is integrated in its registered digest.

**Proof sketch.** A pending file is accepted, so it has a new success, which is later than all other
attempts of its key. Another one is integrated already, and no attempt of its key is added. -/
lemma integrated_of_successes (hlatest : Ranks ledger latest)
    (hrows : dbRows.Perm (fetchIncrementalFilesFromDb registry latest))
    (hpast : Chronological ledger)
    (hlater : ∀ a ∈ ledger, ∀ n, a.ingestedAt < (runs n).ingestedAt) {added : List AttemptRow}
    (hadded : added.Perm ((acceptedFiles config dbRows).map (attemptOf runs fun _ => .success)))
    {s3Key n : Str} {row : RegistryRow} (hget : registry.get? s3Key = some row)
    (hcontract : contractOf config s3Key = some n) :
    IsIntegrated (ledger ++ added) s3Key row.xxhash := by
  have hmem : ∀ a ∈ added, ∃ f ∈ acceptedFiles config dbRows,
      attemptOf runs (fun _ => .success) f = a := by
    intro a ha
    exact List.mem_map.mp (hadded.mem_iff.mp ha)
  obtain ⟨f, hgate⟩ := exists_gateRow_of_contractOf hcontract row
  obtain ⟨hkey, hhash, -⟩ := contractOf_of_gateRow hgate
  cases hpending : isPending row.xxhash (latest s3Key) with
  | false =>
    refine (integrated_of_not_isPending hpast hlatest hpending).append ?_
    intro a ha hakey
    obtain ⟨g, hg, rfl⟩ := hmem a ha
    obtain ⟨row', hget', hpending', -⟩ := (mem_acceptedFiles hrows).mp hg
    obtain rfl : g.s3Key = s3Key := hakey
    rw [hget, Option.some.injEq] at hget'
    rw [← hget', hpending] at hpending'
    cases hpending'
  | true =>
    have hf : f ∈ acceptedFiles config dbRows := by
      refine (mem_acceptedFiles hrows).mpr ⟨row, ?_, ?_, ?_⟩
      · rw [hkey]
        exact hget
      · rw [hkey]
        exact hpending
      · rw [hkey]
        exact hgate
    refine ⟨attemptOf runs (fun _ => .success) f, ?_, hkey, hhash, rfl, ?_⟩
    · exact List.mem_append_right _ (hadded.mem_iff.mpr (List.mem_map_of_mem hf))
    · intro a ha hakey hne
      rcases List.mem_append.mp ha with hold | hnew
      · exact hlater a hold f.fmsName
      · obtain ⟨g, hg, rfl⟩ := hmem a hnew
        exact absurd (congrArg _ (acceptedFiles_inj hrows hg hf (hakey.trans hkey.symm))) hne

/-- When the pending files with a contract are integrated, there is nothing to do. -/
lemma items_eq_nil_of_integrated (hlatest : Ranks ledger latest)
    (hrows : dbRows.Perm (fetchIncrementalFilesFromDb registry latest))
    (hall : ∀ s3Key row n, registry.get? s3Key = some row → contractOf config s3Key = some n →
      IsIntegrated ledger s3Key row.xxhash) :
    (getIncrementalFilesToIngest config dbRows).items = [] := by
  have hnone : dbRows.filterMap (gateRow config) = [] := by
    rw [List.filterMap_eq_nil_iff]
    intro r hr
    obtain ⟨s3Key, row, hget, hpending, rfl⟩ :=
      mem_fetchIncrementalFilesFromDb.mp (hrows.mem_iff.mp hr)
    cases hgate : gateRow config (pendingRow s3Key row) with
    | none => rfl
    | some f =>
      have hcontract := (contractOf_of_gateRow hgate).2.2
      rw [(hall s3Key row _ hget hcontract).not_isPending hlatest] at hpending
      cases hpending
  rw [getIncrementalFilesToIngest_eq, hnone]
  rfl

end Pending

/-! ## A cycle -/

section Cycle

variable {β τ ε : Type*} (cfg : SyncConfig β) (reader : IsoReader) (registered : List Str)
  (activeEnv : Str) (ingest : τ → Str → List IngestibleFile → WriteOutcome ε τ)
  (runs : Str → ContractRun)
  (config : ClassifierConfig)

/-- The files behind a staging job: what it fetches under some ranking of the attempts, and what it
leaves. -/
def Stages (registry : Dict Str RegistryRow) (lakehouse : τ) (ledger : List AttemptRow)
    (result : Except (JobState τ) (JobState τ)) : Prop :=
  ∃ latest dbRows, Ranks ledger latest ∧
    dbRows.Perm (fetchIncrementalFilesFromDb registry latest) ∧
    ingestLandingCsvToLakehouse ingest runs config true dbRows ⟨lakehouse, ledger, 0, 0, []⟩ =
      result

/-- A cycle without failures: the ingestion job ends in `landed` and no folder failed, and the
staging job behind it ends in `staged` and no file failed. -/
structure CleanCycle (answers : ℕ → EnvAnswers β) (zone : LandingZone β) (lakehouse : τ)
    (ledger : List AttemptRow) (landed : IngestState β) (staged : JobState τ) : Prop where
  /-- The ingestion job. -/
  ingests : ingestMyEntsoeDomains cfg reader registered activeEnv true answers zone = .ok landed
  /-- No folder failed. -/
  noErrors : NoErrors landed.finished
  /-- The staging job. -/
  stages : Stages ingest runs config landed.zone.registry lakehouse ledger (.ok staged)
  /-- No file failed. -/
  noFailed : staged.failed = 0

variable {cfg reader registered activeEnv ingest runs config}
variable {paths : List LandingPath} {server : ℕ → Str → Except PyError (List RawItem)}
  {answers : ℕ → EnvAnswers β} {zone : LandingZone β} {lakehouse : τ} {ledger : List AttemptRow}
  {landed : IngestState β} {staged : JobState τ}

/-- Behind a cycle without failures every registered file with a contract is integrated. -/
lemma CleanCycle.integrated
    (h : CleanCycle cfg reader registered activeEnv ingest runs config answers
      zone lakehouse ledger landed staged) (hpast : Chronological ledger)
    (hlater : ∀ a ∈ ledger, ∀ n, a.ingestedAt < (runs n).ingestedAt) {s3Key n : Str}
    {row : RegistryRow} (hget : landed.zone.registry.get? s3Key = some row)
    (hcontract : contractOf config s3Key = some n) :
    IsIntegrated staged.ledger s3Key row.xxhash := by
  obtain ⟨latest, dbRows, hlatest, hrows, hjob⟩ := h.stages
  unfold ingestLandingCsvToLakehouse at hjob
  dsimp only at hjob
  rw [if_neg (by decide)] at hjob
  split_ifs at hjob with hnone
  · -- no file was pending
    obtain rfl : (⟨lakehouse, ledger, 0, 0, []⟩ : JobState τ) = staged := Except.ok.inj hjob
    have hadded : ([] : List AttemptRow).Perm
        ((acceptedFiles config dbRows).map (attemptOf runs fun _ => .success)) := by
      have hflat := flatMap_getIncrementalFilesToIngest config dbRows
      rw [hnone, List.flatMap_nil, List.nil_perm] at hflat
      rw [acceptedFiles, hflat]
      exact .refl _
    have hintegrated := integrated_of_successes hlatest hrows hpast hlater hadded hget hcontract
    rw [List.append_nil] at hintegrated
    exact hintegrated
  · obtain ⟨-, hledger⟩ := stagingRun_of_no_failed hjob h.noFailed
    rw [hledger]
    exact integrated_of_successes hlatest hrows hpast hlater
      (flatMap_attemptRows config dbRows runs fun _ => .success) hget hcontract

variable (hpaths : cfg.schemaFolders = paths.map LandingPath.text) (hdistinct : paths.Nodup)
  (hnames : ∀ index path items, server index path = .ok items → UniqueNames items)
  (henvs : ((envsToSync cfg activeEnv).map cfg.cm.lower).Nodup)

include hpaths hdistinct hnames henvs

/-- Behind a cycle without failures every listed file with an id is synced. -/
lemma CleanCycle.synced (hserved : ServedBy server answers)
    (h : CleanCycle cfg reader registered activeEnv ingest runs config answers zone lakehouse ledger
      landed staged) :
    ∀ entry ∈ jobSources cfg paths server 0 (envsToSync cfg activeEnv), entry.2.itemId ≠ [] →
      Synced cfg.xxh entry.1 entry.2 landed.zone := by
  intro entry hentry hid
  have hrun := h.ingests
  unfold ingestMyEntsoeDomains at hrun
  rw [if_neg (by decide)] at hrun
  obtain ⟨-, hjob⟩ := cleanJob_of_noErrors hpaths hserved hrun h.noErrors
  have hsynced := (counters_of_cleanJob (pairwise_jobVisits hdistinct hnames henvs hserved 0)
      hjob).1
  rw [← map_source_jobVisits hserved] at hentry
  obtain ⟨visit, hvisit, rfl⟩ := List.mem_map.mp hentry
  exact hsynced visit hvisit hid

/-- **What a cycle without failures leaves.** Every file with an id that the file servers list for
the landing paths of the environments is stored, its row has the digest of the listed version, and,
when the gateway has a contract for it, its latest attempt is a success with this digest.

**Proof sketch.** The ingestion job leaves the file synced. When it is pending, it is accepted, and
a job without failed files records a success for every accepted file, later than all other attempts;
otherwise its latest attempt was a success already. -/
theorem integrated_of_cleanCycle (hserved : ServedBy server answers)
    (h : CleanCycle cfg reader registered activeEnv ingest runs config answers zone lakehouse ledger
      landed staged) (hpast : Chronological ledger)
    (hlater : ∀ a ∈ ledger, ∀ n, a.ingestedAt < (runs n).ingestedAt) :
    ∀ entry ∈ jobSources cfg paths server 0 (envsToSync cfg activeEnv), entry.2.itemId ≠ [] →
      Synced cfg.xxh entry.1 entry.2 landed.zone ∧
        ∀ n, contractOf config (s3KeyOf entry.1 entry.2) = some n →
          IsIntegrated staged.ledger (s3KeyOf entry.1 entry.2)
            ((itemVersion entry.2).hash cfg.xxh) := by
  intro entry hentry hid
  have hfile := h.synced hpaths hdistinct hnames henvs hserved entry hentry hid
  refine ⟨hfile, fun n hcontract => ?_⟩
  obtain ⟨⟨row, hget, hhash⟩, -⟩ := hfile
  have hintegrated := h.integrated hpast hlater hget hcontract
  rw [hhash] at hintegrated
  exact hintegrated

/-- **The cycle behind a cycle without failures.** When the file servers list the same, the clients
are made and the checks pass, the ingestion job downloads nothing and leaves the landing zone as it
is. Under every ranking of the attempts and in every order of the pending rows, whatever happens
outside of the process, the staging job then ends without an attempt and leaves the lakehouse as it
is. -/
theorem idle_of_cleanCycle (hserved : ServedBy server answers)
    (h : CleanCycle cfg reader registered activeEnv ingest runs config answers zone lakehouse ledger
      landed staged) (hpast : Chronological ledger)
    (hlater : ∀ a ∈ ledger, ∀ n, a.ingestedAt < (runs n).ingestedAt)
    {again : ℕ → EnvAnswers β} (hagain : ServedBy server again)
    (hready : ∀ index, ∀ envName ∈ envsToSync cfg activeEnv,
      ClientReady cfg registered (again index) envName)
    (hchecks : JobChecksPass (jobVisits cfg paths again 0 (envsToSync cfg activeEnv)))
    {zone' : LandingZone β} (hobjects : zone'.objects = landed.zone.objects)
    (hregistry : zone'.registry = landed.zone.registry) :
    ∃ landed', ingestMyEntsoeDomains cfg reader registered activeEnv true again zone' =
      .ok landed' ∧ landed'.zone = zone' ∧ landed'.downloaded = 0 ∧ NoErrors landed'.finished ∧
      ∀ runs' result, Stages ingest runs' config landed'.zone.registry staged.lakehouse
        staged.ledger result → result = .ok ⟨staged.lakehouse, staged.ledger, 0, 0, []⟩ := by
  obtain ⟨landed', hrun', hzone, hnoErrors, -, hdownloaded, -⟩ := ingestMyEntsoeDomains_again hpaths
    hdistinct hnames henvs hserved hagain hready hchecks h.ingests h.noErrors hobjects hregistry
  refine ⟨landed', hrun', hzone, hdownloaded, hnoErrors, ?_⟩
  rintro runs' result ⟨latest, dbRows, hlatest, hrows, rfl⟩
  rw [hzone, hregistry] at hrows
  have hnone := @items_eq_nil_of_integrated config _ _ _ _ hlatest hrows
    fun s3Key row n hget hcontract => h.integrated hpast hlater hget hcontract
  unfold ingestLandingCsvToLakehouse
  dsimp only
  rw [if_neg (by decide), if_pos hnone]

end Cycle

/-! ## A first cycle and a second one -/

/-- A configuration with the folder of a contract in each environment. -/
def cycleSync : SyncConfig ℕ where
  cm := CaseMap.ascii
  xxh := id
  checklist := Dict.ofList
    (["IOP", "PROD"].map fun envName => (envName.toList, [⟨"TP_export".toList,
    Dict.ofList [("Load".toList,
      Dict.ofList [("ActualTotalLoad_6.1.A_r3".toList, .bool true)])], ∅⟩]))
  schemaFolders := ["iop/TP_export/Load/ActualTotalLoad_6.1.A_r3".toList,
    "prod/TP_export/Load/ActualTotalLoad_6.1.A_r3".toList]
  remote _ _ _ _ := none

/-- The landing paths of the two folders. -/
def cyclePaths : List LandingPath :=
  ["iop".toList, "prod".toList].map fun env =>
    ⟨segmentOf env, segmentOf "TP_export".toList, segmentOf "Load".toList,
      segmentOf "ActualTotalLoad_6.1.A_r3".toList⟩

/-- A server that lists a file with an id and one without in the folder. -/
def cycleServer (path : Str) : Except PyError (List RawItem) :=
  .ok (if path = "/TP_export/ActualTotalLoad_6.1.A_r3/".toList then loadItems else [])

/-- Every call of a job succeeds. -/
def cycleAnswers : ℕ → EnvAnswers ℕ := fun _ => ⟨true, fun _ => cycleServer, fun _ _ => calmFile⟩

/-- The ingestion job. -/
def cycleJob (zone : LandingZone ℕ) : Except (IngestState ℕ) (IngestState ℕ) :=
  ingestMyEntsoeDomains cycleSync noonReader ["IOP".toList, "PROD".toList] "IOP".toList true
    cycleAnswers zone

/-- What the first ingestion job leaves. -/
def cycleLanded : IngestState ℕ := exitState (cycleJob ⟨0, ∅, ∅⟩)

/-- The tables as the keys that were written to them. -/
def writeKeys (lakehouse : List Str) (_ : Str) (files : List IngestibleFile) :
    WriteOutcome Unit (List Str) :=
  ⟨lakehouse, .ok (lakehouse ++ files.map IngestibleFile.s3Key)⟩

/-- What the first staging job leaves. -/
def cycleStaged : JobState (List Str) :=
  endState (ingestLandingCsvToLakehouse writeKeys (fun _ => workingRun) shippedClassifier true
    (fetchIncrementalFilesFromDb cycleLanded.zone.registry fun _ => none) ⟨[], [], 0, 0, []⟩)

/-- The first cycle has no failures. -/
lemma cleanCycle_first : CleanCycle cycleSync noonReader ["IOP".toList, "PROD".toList] "IOP".toList
    writeKeys (fun _ => workingRun) shippedClassifier cycleAnswers ⟨0, ∅, ∅⟩ [] [] cycleLanded
    cycleStaged where
  ingests := rfl
  noErrors := by unfold NoErrors; decide +kernel
  stages := ⟨fun _ => none, _, fun _ => by simp, List.Perm.refl _, rfl⟩
  noFailed := by decide +kernel

/-- The names in the listings are unique. -/
lemma uniqueNames_cycleServer (_ : ℕ) (path : Str) (items : List RawItem)
    (h : cycleServer path = .ok items) : UniqueNames items := by
  cases h
  split_ifs
  · exact ⟨by decide, by decide⟩
  · exact ⟨by simp, .nil⟩

/-- The landing paths are distinct. -/
lemma nodup_cyclePaths : cyclePaths.Nodup := List.Nodup.of_map LandingPath.text (by decide)

/-- The job is for both environments. -/
lemma envsToSync_cycleSync :
    envsToSync cycleSync "IOP".toList = ["IOP".toList, "PROD".toList] := by
  decide +kernel

/-- The mapping of the production environment. -/
def cycleMapping : Mapping :=
  ⟨"prod/TP_export/Load/ActualTotalLoad_6.1.A_r3".toList, "ActualTotalLoad_6.1.A_r3".toList,
    "TP_export".toList, "Load/ActualTotalLoad_6.1.A_r3".toList, .bool true⟩

/-- The file of the production environment is integrated. -/
theorem integrated_of_cleanCycle_first : IsIntegrated cycleStaged.ledger
    "prod/TP_export/Load/ActualTotalLoad_6.1.A_r3/a.csv".toList
    ((itemVersion (loadItem "a.csv" "2026-04-15T12:00:00Z" "7")).hash id) := by
  have hentry : (cycleMapping, loadItem "a.csv" "2026-04-15T12:00:00Z" "7") ∈
      jobSources cycleSync cyclePaths (fun _ => cycleServer) 0
        (envsToSync cycleSync "IOP".toList) := by
    decide +kernel
  have hcontract : contractOf shippedClassifier (s3KeyOf cycleMapping
      (loadItem "a.csv" "2026-04-15T12:00:00Z" "7")) =
        some "ActualTotalLoad_6.1.A_r3".toList := by
    decide +kernel
  exact (integrated_of_cleanCycle (by decide) nodup_cyclePaths uniqueNames_cycleServer
    (by rw [envsToSync_cycleSync]; decide) (fun _ _ => rfl) cleanCycle_first .nil (by simp) _ hentry
    (by decide)).2 _ hcontract

/-- A second ingestion job downloads nothing and leaves the landing zone as it is. -/
theorem idle_of_cleanCycle_second : ∃ landed', cycleJob cycleLanded.zone = .ok landed' ∧
    landed'.zone = cycleLanded.zone ∧ landed'.downloaded = 0 := by
  have hready : ∀ index, ∀ envName ∈ envsToSync cycleSync "IOP".toList,
      ClientReady cycleSync ["IOP".toList, "PROD".toList] (cycleAnswers index) envName := by
    rw [envsToSync_cycleSync]
    intro index envName henv _
    refine ⟨?_, rfl⟩
    revert envName
    decide +kernel
  have hchecks : JobChecksPass (jobVisits cycleSync cyclePaths cycleAnswers 0
      (envsToSync cycleSync "IOP".toList)) := by
    unfold JobChecksPass
    decide +kernel
  obtain ⟨landed', hrun, hzone, hdownloaded, -⟩ := idle_of_cleanCycle (by decide) nodup_cyclePaths
    uniqueNames_cycleServer (by rw [envsToSync_cycleSync]; decide) (fun _ _ => rfl) cleanCycle_first
    .nil (by simp) (fun _ _ => rfl) hready hchecks rfl rfl
  exact ⟨landed', hrun, hzone, hdownloaded⟩

end EntsoePipeline
