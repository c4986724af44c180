import EntsoePipeline.Landing.Gateway
import EntsoePipeline.Landing.Sync

set_option relaxedAutoImplicit false
set_option autoImplicit false

/-!
# The staging job

The staging job fetches the registered files whose latest ingestion attempt is missing, failed or
of another digest, groups them by contract, and for each contract reads the objects, writes them to
the table of the contract and commits one attempt row for each file. Like the synchronisation it is
a state machine whose moves are the steps that touch something outside of the process.

## Main definitions

* `EntsoePipeline.AttemptRow` — the columns of the ingestion ledger.
* `EntsoePipeline.Ranks`, `EntsoePipeline.fetchIncrementalFilesFromDb` — the latest attempts and
  the pending files.
* `EntsoePipeline.contractOf` — the contract of a key.
* `EntsoePipeline.StagingStep` — the moves of the job.
* `EntsoePipeline.pipeline` — the synchronisation and the staging job on one landing zone.

## Implementation notes

The ledger is written by the staging job only, so it is part of its local state. The window query
ranks attempts by time and may break ties in any way; the result of the ranking is a parameter of
the fetch, and what is proved holds for every ranking.
-/

namespace EntsoePipeline

open Py Transition

/-! ## The ledger -/

/-- The outcome of an ingestion attempt. -/
inductive AttemptStatus
  /-- `"SUCCESS"`. -/
  | success
  /-- `"FAILED"`. -/
  | failed
  deriving DecidableEq

/-- The columns of `lakehouse_ingestion_registry` that are read again. -/
structure AttemptRow where
  /-- The object key. -/
  s3Key : Str
  /-- The digest of the version that was fetched. -/
  xxhash : Str
  /-- The time of the attempt. -/
  ingestedAt : ℤ
  /-- The outcome. -/
  status : AttemptStatus
  deriving DecidableEq

/-- The rows of rank one, `ROW_NUMBER() OVER (PARTITION BY s3_key ORDER BY ingested_at DESC)`: for
each key with attempts one of its latest ones. -/
def Ranks (ledger : List AttemptRow) (latest : Str → Option AttemptRow) : Prop :=
  ∀ s3Key, match latest s3Key with
    | some li => li ∈ ledger ∧ li.s3Key = s3Key ∧
        ∀ row ∈ ledger, row.s3Key = s3Key → row.ingestedAt ≤ li.ingestedAt
    | none => ∀ row ∈ ledger, row.s3Key ≠ s3Key

/-- The condition of the anti-join: no attempt, a failed one, or one of another digest. -/
def isPending (xxhash : Str) (li : Option AttemptRow) : Bool :=
  match li with
  | none => true
  | some li => decide (li.status = .failed) || decide (xxhash ≠ li.xxhash)

/-- The pending row of a registered file. -/
def pendingRow (s3Key : Str) (row : RegistryRow) : PendingRow :=
  ⟨s3Key, row.xxhash, row.fileSizeBytes⟩

/-- The files pending ingestion. -/
def fetchIncrementalFilesFromDb (registry : Dict Str RegistryRow)
    (latest : Str → Option AttemptRow) : List PendingRow :=
  (registry.items.filter fun lfr => isPending lfr.2.xxhash (latest lfr.1)).map fun lfr =>
    pendingRow lfr.1 lfr.2

/-- The contract of a key: the one the gateway puts its files under, `none` when it is not
classified or bypassed. -/
def contractOf (config : ClassifierConfig) (s3Key : Str) : Option Str :=
  (gateRow config ⟨s3Key, [], 0⟩).map IngestibleFile.fmsName

/-- A fetched file is registered with its digest. -/
lemma mem_fetchIncrementalFilesFromDb {registry : Dict Str RegistryRow}
    {latest : Str → Option AttemptRow} {r : PendingRow} :
    r ∈ fetchIncrementalFilesFromDb registry latest ↔
      ∃ s3Key row, registry.get? s3Key = some row ∧ isPending row.xxhash (latest s3Key) = true ∧
        r = pendingRow s3Key row := by
  simp only [fetchIncrementalFilesFromDb, List.mem_map, List.mem_filter, Prod.exists,
    Dict.mem_items_iff, and_assoc]
  constructor
  · rintro ⟨s3Key, row, hget, hpending, heq⟩
    exact ⟨s3Key, row, hget, hpending, heq.symm⟩
  · rintro ⟨s3Key, row, hget, hpending, heq⟩
    exact ⟨s3Key, row, hget, hpending, heq.symm⟩

/-- A registered file that is not fetched has a successful attempt with its digest. -/
lemma exists_success_of_not_fetched {registry : Dict Str RegistryRow} {ledger : List AttemptRow}
    {latest : Str → Option AttemptRow} (hlatest : Ranks ledger latest) {s3Key : Str}
    {row : RegistryRow} (hrow : registry.get? s3Key = some row)
    (hnot : ∀ r ∈ fetchIncrementalFilesFromDb registry latest, r.s3Key ≠ s3Key) :
    ∃ li ∈ ledger, li.s3Key = s3Key ∧ li.xxhash = row.xxhash ∧ li.status = .success := by
  have hpending : ¬ isPending row.xxhash (latest s3Key) = true := by
    intro hpending
    exact hnot _ (mem_fetchIncrementalFilesFromDb.mpr ⟨s3Key, row, hrow, hpending, rfl⟩) rfl
  have hrank := hlatest s3Key
  cases hli : latest s3Key with
  | none =>
    rw [hli] at hpending
    exact absurd rfl hpending
  | some li =>
    rw [hli] at hrank hpending
    obtain ⟨hmem, hkey, -⟩ := hrank
    simp only [isPending, Bool.or_eq_true, decide_eq_true_eq, not_or, not_not] at hpending
    refine ⟨li, hmem, hkey, hpending.2.symm, ?_⟩
    cases hstatus : li.status with
    | success => rfl
    | failed => exact absurd hstatus hpending.1

/-- The gateway decides by the key alone. -/
lemma contractOf_of_gateRow {config : ClassifierConfig} {row : PendingRow} {file : IngestibleFile}
    (h : gateRow config row = some file) :
    file.s3Key = row.s3Key ∧ file.xxhash = row.xxhash ∧
      contractOf config row.s3Key = some file.fmsName := by
  obtain ⟨a, b, d, folder, rest, n, hsplit, hres, hadm, rfl⟩ := gateRow_eq_some_iff.mp h
  have hgate : gateRow config ⟨row.s3Key, [], 0⟩ = some ⟨row.s3Key, [], 0, d, n⟩ :=
    gateRow_eq_some_iff.mpr ⟨a, b, d, folder, rest, n, hsplit, hres, hadm, rfl⟩
  refine ⟨rfl, rfl, ?_⟩
  rw [contractOf, hgate]
  rfl

/-! ## The state of the job -/

/-- The files of one contract in the hands of the job. -/
structure Batch where
  /-- The contract. -/
  fmsName : Str
  /-- The files. -/
  files : List IngestibleFile
  /-- The time of the attempt. -/
  ingestedAt : ℤ
  /-- The contracts that come after it. -/
  rest : List (Str × List IngestibleFile)

/-- The attempt rows of a batch. -/
def Batch.attempts (batch : Batch) (status : AttemptStatus) : List AttemptRow :=
  batch.files.map fun f => ⟨f.s3Key, f.xxhash, batch.ingestedAt, status⟩

/-- Where the job is. -/
inductive StagingPc (β : Type*)
  /-- The job does not run. -/
  | idle
  /-- Before the next contract. -/
  | contracts (pending : List (Str × List IngestibleFile))
  /-- Reading the objects of a contract: those read so far and the files still to be read. -/
  | reading (batch : Batch) (objects : List (Str × Download β)) (files : List IngestibleFile)
  /-- Before the write to the table. -/
  | writing (batch : Batch) (objects : List (Str × Download β))
  /-- Before the commit of the attempt rows. -/
  | committing (batch : Batch) (status : AttemptStatus)

/-- The local state: the ledger, which is kept, and the place in the job. -/
structure StagingState (β : Type*) where
  /-- `lakehouse_ingestion_registry`. -/
  ledger : List AttemptRow
  /-- The place in the job. -/
  pc : StagingPc β

/-- The key that the reader asks the bucket for: `s3_key.lstrip('/')`. -/
def readKey (s3Key : Str) : Str := s3Key.dropWhile (· == '/')

/-! ## The moves -/

section Moves

variable {β : Type*} (config : ClassifierConfig)

/-- A move of the staging job. -/
inductive StagingStep : LandingZone β → StagingState β → List (Event β) → LandingZone β →
    StagingState β → Prop
  /-- The pending files are fetched, in any order, and grouped by contract. -/
  | fetch {zone ledger latest dbRows} (hlatest : Ranks ledger latest)
      (hrows : dbRows.Perm (fetchIncrementalFilesFromDb zone.registry latest)) :
      StagingStep zone ⟨ledger, .idle⟩ [] zone
        ⟨ledger, .contracts (getIncrementalFilesToIngest config dbRows).items⟩
  /-- All contracts are done. -/
  | finish {zone ledger} : StagingStep zone ⟨ledger, .contracts []⟩ [] zone ⟨ledger, .idle⟩
  /-- The process dies, or a failure is not caught. -/
  | crash (zone st) : StagingStep zone st [] zone ⟨st.ledger, .idle⟩
  /-- The next contract is taken up. -/
  | begin {zone ledger fmsName files rest} (ingestedAt : ℤ) :
      StagingStep zone ⟨ledger, .contracts ((fmsName, files) :: rest)⟩ [] zone
        ⟨ledger, .reading ⟨fmsName, files, ingestedAt, rest⟩ [] files⟩
  /-- An object is read. -/
  | read {zone ledger batch objects file files object}
      (h : zone.objects.get? (readKey file.s3Key) = some object) :
      StagingStep zone ⟨ledger, .reading batch objects (file :: files)⟩
        [.read (readKey file.s3Key) object] zone
        ⟨ledger, .reading batch (objects ++ [(readKey file.s3Key, object)]) files⟩
  /-- All objects of the contract are read. -/
  | loaded {zone ledger batch objects} :
      StagingStep zone ⟨ledger, .reading batch objects []⟩ [] zone ⟨ledger, .writing batch objects⟩
  /-- The objects are written to the table. -/
  | write {zone ledger batch objects} :
      StagingStep zone ⟨ledger, .writing batch objects⟩ [.wrote batch.fmsName objects] zone
        ⟨ledger, .committing batch .success⟩
  /-- The objects are written to the table, but the write is reported as failed. -/
  | writeUnconfirmed {zone ledger batch objects} :
      StagingStep zone ⟨ledger, .writing batch objects⟩ [.wrote batch.fmsName objects] zone
        ⟨ledger, .committing batch .failed⟩
  /-- The reading of a contract fails. -/
  | readFails {zone ledger batch objects files} :
      StagingStep zone ⟨ledger, .reading batch objects files⟩ [] zone
        ⟨ledger, .committing batch .failed⟩
  /-- The write fails without an effect. -/
  | writeFails {zone ledger batch objects} :
      StagingStep zone ⟨ledger, .writing batch objects⟩ [] zone ⟨ledger, .committing batch .failed⟩
  /-- The attempt rows are committed. -/
  | commit {zone ledger batch status} :
      StagingStep zone ⟨ledger, .committing batch status⟩ [] zone
        ⟨ledger ++ batch.attempts status, .contracts batch.rest⟩
  /-- The commit of a success fails without an effect, and a failure is to be committed. -/
  | commitFails {zone ledger batch} :
      StagingStep zone ⟨ledger, .committing batch .success⟩ [] zone
        ⟨ledger, .committing batch .failed⟩
  /-- A success is committed, but the commit is reported as failed. -/
  | commitUnconfirmed {zone ledger batch} :
      StagingStep zone ⟨ledger, .committing batch .success⟩ [] zone
        ⟨ledger ++ batch.attempts .success, .committing batch .failed⟩
  /-- A failure is committed, but the commit is reported as failed, which ends the job. -/
  | commitLost {zone ledger batch} :
      StagingStep zone ⟨ledger, .committing batch .failed⟩ [] zone
        ⟨ledger ++ batch.attempts .failed, .idle⟩

/-- The staging job as a component on the landing zone. -/
def stagingComponent : Component (LandingZone β) (StagingState β) (Event β) where
  init st := st = ⟨[], .idle⟩
  step := StagingStep config

/-- The synchronisation and the staging job, interleaved on an empty landing zone. -/
def pipeline (cfg : SyncConfig β) :
    System (LandingZone β × SyncState β × StagingState β) (Event β) :=
  (syncComponent cfg).interleave (stagingComponent config) LandingZone.IsEmpty

end Moves

end EntsoePipeline
