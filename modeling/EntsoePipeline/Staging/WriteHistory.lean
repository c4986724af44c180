import EntsoePipeline.Lakehouse.Upsert
import EntsoePipeline.Lib.Overwrite
import EntsoePipeline.Staging.Cycle

set_option relaxedAutoImplicit false
set_option autoImplicit false

/-!
# The history of the tables

Runs of the staging job follow one another, and each of them may fail or break off anywhere. The
tables they leave are those of a list of writes, one for each contract whose write had its effect:
what such a write adds is there until a later one writes another row over it. Every success in the
ledger stands for a file of one of these writes, so no row of an integrated file gets lost.

## Main definitions

* `EntsoePipeline.StagingStore`, `EntsoePipeline.StagingJob`, `EntsoePipeline.runJobs` — runs in a
  row.
* `EntsoePipeline.TableWrite` — a write with its effect on the tables.
* `EntsoePipeline.Explains` — writes explain what runs did.

## Main results

* `EntsoePipeline.exists_writes` — the writes behind runs in a row.
* `EntsoePipeline.exists_row_of_success` — what is left of the rows of an integrated file.
* `EntsoePipeline.rows_of_cleanCycle` — behind a cycle without failures the rows of all listed files
  are in the tables.

## Implementation notes

A version of a file is the key with the digest that the registry has for it. That the object under
the key is this version when it is read is a matter of the ingestion job, and not stated here.
-/

namespace EntsoePipeline

open Py Outcome Overwrite

/-! ## Runs -/

/-- What runs of the staging job keep. -/
structure StagingStore (ρ : Type*) where
  /-- The tables. -/
  lakehouse : Lakehouse ρ
  /-- `lakehouse_ingestion_registry`. -/
  ledger : List AttemptRow

/-- A run of the staging job, with all that comes from outside. -/
structure StagingJob (ρ : Type*) where
  /-- What Spark reads from the landing zone. -/
  reader : LandingReader ρ
  /-- What happens outside of the process at each contract. -/
  runs : Str → ContractRun
  /-- The checks pass. -/
  preflight : Bool
  /-- The pending rows. -/
  dbRows : List PendingRow

section History

variable {ρ ν : Type*} [DecidableEq ν] (cell : ρ → Str → Option ν) (lakeConfig : LakehouseConfig)
  (config : ClassifierConfig)

/-- What a run leaves, however it ends. -/
def StagingJob.run (job : StagingJob ρ) (store : StagingStore ρ) : StagingStore ρ :=
  let final := endState (ingestLandingCsvToLakehouse (ingestContract cell lakeConfig job.reader)
    job.runs config job.preflight job.dbRows ⟨store.lakehouse, store.ledger, 0, 0, []⟩)
  ⟨final.lakehouse, final.ledger⟩

/-- What runs in a row leave. -/
def runJobs (jobs : List (StagingJob ρ)) (store : StagingStore ρ) : StagingStore ρ :=
  jobs.foldl (fun store job => job.run cell lakeConfig config store) store

/-! ## Writes -/

/-- A write: the contract, its files and the rows of their frame. -/
structure TableWrite (ρ : Type*) where
  /-- The contract. -/
  fmsName : Str
  /-- The files. -/
  files : List IngestibleFile
  /-- The rows of the frame. -/
  rows : List ρ

/-- The rows that a write adds to a table. -/
def TableWrite.adds (table : Str) (w : TableWrite ρ) : Set ρ :=
  {r | tableName lakeConfig w.fmsName = table ∧ r ∈ w.rows}

/-- The rows of a table that a write writes over. -/
def TableWrite.replaced (table : Str) (w : TableWrite ρ) : Set ρ :=
  {r | tableName lakeConfig w.fmsName = table ∧
    ∃ s ∈ w.rows, Sql.Replaces cell (contractKeys lakeConfig w.fmsName) r s}

/-- The versions of files. -/
def versions (files : List IngestibleFile) : List (Str × Str) :=
  files.map fun f => (f.s3Key, f.xxhash)

/-- The versions with a success, in the order of the ledger. -/
def successes (ledger : List AttemptRow) : List (Str × Str) :=
  (ledger.filter fun a => a.status = .success).map fun a => (a.s3Key, a.xxhash)

/-- A write of a run: the files are of the contract, and the run reads the rows in them. -/
structure StagingJob.Wrote (job : StagingJob ρ) (w : TableWrite ρ) : Prop where
  /-- The gateway has the contract for the files. -/
  accepted : ∀ f ∈ w.files, contractOf config f.s3Key = some w.fmsName
  /-- The frame has the rows of all files. -/
  loaded : ∃ schema rows, lakeConfig.publications.get? w.fmsName = some schema ∧
    List.Forall₂ (fun f r => job.reader.load schema w.files f = .ok r) w.files rows ∧
    w.rows = rows.flatten

/-- The writes explain what was done: every table has the rows that they leave, and every new
success is that of a file they wrote, in their order. -/
structure Explains (writes : List (TableWrite ρ)) (before after : StagingStore ρ) : Prop where
  rows : ∀ table, {r | r ∈ tableRows after.lakehouse table} =
    contents (TableWrite.adds lakeConfig table) (TableWrite.replaced cell lakeConfig table)
      {r | r ∈ tableRows before.lakehouse table} writes
  successes : (successes after.ledger).Sublist
    (successes before.ledger ++ writes.flatMap fun w => versions w.files)

variable {cell lakeConfig config}

/-- No writes explain that nothing happened. -/
lemma explains_nil (store : StagingStore ρ) : Explains cell lakeConfig [] store store where
  rows _ := rfl
  successes := by
    rw [List.flatMap_nil, List.append_nil]

/-- Writes explain runs that follow one another. -/
lemma Explains.trans {writes writes' : List (TableWrite ρ)} {before mid after : StagingStore ρ}
    (h : Explains cell lakeConfig writes before mid)
    (h' : Explains cell lakeConfig writes' mid after) :
    Explains cell lakeConfig (writes ++ writes') before after where
  rows table := by
    rw [h'.rows, h.rows, contents_append]
  successes := by
    rw [List.flatMap_append, ← List.append_assoc]
    exact h'.successes.trans (h.successes.append (List.Sublist.refl _))

/-! ### One write -/

/-- A write to a table appends rows or merges them. -/
lemma mem_writeRows_iff {keys : List Str} {old new result : List ρ} {r : ρ}
    (h : writeRows cell keys old new = some result) :
    r ∈ result ↔ r ∈ new ∨ (r ∈ old ∧ ¬ ∃ s ∈ new, Sql.Replaces cell keys r s) := by
  unfold writeRows at h
  by_cases hkeys : keys = []
  · rw [if_pos hkeys, Option.some_inj] at h
    have hkept : ¬ ∃ s ∈ new, Sql.Replaces cell keys r s := by
      rintro ⟨s, -, hne, -⟩
      exact hne hkeys
    rw [← h, List.mem_append, or_comm, and_iff_left hkept]
  · rw [if_neg hkeys] at h
    rw [Sql.mem_merge_iff h]
    simp only [Sql.Replaces, ne_eq, hkeys, not_false_eq_true, true_and, not_exists, not_and]

/-- The tables behind an ingest. -/
lemma exists_write_of_ingest {reader : LandingReader ρ} {lakehouse lakehouse' : Lakehouse ρ}
    {n : Str} {files : List IngestibleFile}
    (h : (ingestContract cell lakeConfig reader lakehouse n files).result = .ok lakehouse') :
    ∃ schema rows, lakeConfig.publications.get? n = some schema ∧
      List.Forall₂ (fun f r => reader.load schema files f = .ok r) files rows ∧
      ∀ table, {r | r ∈ tableRows lakehouse' table} =
        contents (TableWrite.adds lakeConfig table) (TableWrite.replaced cell lakeConfig table)
          {r | r ∈ tableRows lakehouse table} [⟨n, files, rows.flatten⟩] := by
  obtain ⟨schema, rows, hschema, hrows, hwrite, hother⟩ := ingestContract_spec h
  refine ⟨schema, rows, hschema, hrows, fun table => ?_⟩
  ext r
  rw [contents_cons, contents_nil, Set.mem_union, Set.mem_sdiff]
  by_cases htable : table = tableName lakeConfig n
  · subst htable
    simp only [Set.mem_ofPred_eq, TableWrite.adds, TableWrite.replaced, true_and]
    exact mem_writeRows_iff hwrite
  · have hne : tableName lakeConfig n ≠ table := fun heq => htable heq.symm
    simp only [Set.mem_ofPred_eq, TableWrite.adds, TableWrite.replaced, hne, false_and, false_or,
      not_false_eq_true, and_true]
    rw [hother table htable]

/-! ### One pass -/

/-- The successes of a longer ledger. -/
lemma successes_append (ledger ledger' : List AttemptRow) :
    successes (ledger ++ ledger') = successes ledger ++ successes ledger' := by
  rw [successes, List.filter_append, List.map_append]
  rfl

/-- A success of a contract is one of all its files. -/
lemma successes_attemptRows_success (run : ContractRun) (files : List IngestibleFile) :
    successes (attemptRows run files .success) = versions files := by
  have hall : (attemptRows run files .success).filter (fun a => a.status = .success) =
      attemptRows run files .success := by
    refine List.filter_eq_self.mpr fun a ha => ?_
    obtain ⟨f, -, rfl⟩ := mem_attemptRows.mp ha
    rfl
  rw [successes, hall, attemptRows, List.map_map]
  rfl

/-- A ledger of failures has no success. -/
lemma successes_of_failed {ledger : List AttemptRow} (h : ∀ a ∈ ledger, a.status = .failed) :
    successes ledger = [] := by
  rw [successes, List.map_eq_nil_iff, List.filter_eq_nil_iff]
  intro a ha
  simp [h a ha]

section Pass

variable {τ ε : Type*} {ingest : τ → Str → List IngestibleFile → WriteOutcome ε τ}

/-- A recorded failure adds no success. -/
lemma successes_recordFailure (run : ContractRun) (contract : Str × List IngestibleFile)
    (st : JobState τ) :
    successes (endState (recordFailure run contract st)).ledger = successes st.ledger := by
  obtain ⟨added, hledger, -, hadded⟩ := recordFailure_adds run contract st
  rw [hledger, successes_append, successes_of_failed fun a ha => (hadded a ha).2, List.append_nil]

/-- A recorded success adds at most those of the files of the contract. -/
lemma successes_recordSuccess (run : ContractRun) (contract : Str × List IngestibleFile)
    (st : JobState τ) :
    (successes (endState (recordSuccess run contract st)).ledger).Sublist
      (successes st.ledger ++ versions contract.2) := by
  have hsuccess : successes (st.ledger ++ attemptRows run contract.2 .success) =
      successes st.ledger ++ versions contract.2 := by
    rw [successes_append, successes_attemptRows_success]
  unfold recordSuccess
  rw [← hsuccess]
  cases run.successCommit with
  | committed => exact List.Sublist.refl _
  | failed =>
    rw [successes_recordFailure, hsuccess]
    exact List.sublist_append_left _ _
  | unconfirmed =>
    rw [successes_recordFailure]

/-- A pass adds a success at most for each file of its contract. -/
lemma successes_processContract (run : ContractRun) (st : JobState τ)
    (contract : Str × List IngestibleFile) :
    (successes (endState (processContract ingest (fun _ => run) st contract)).ledger).Sublist
      (successes st.ledger ++ versions contract.2) := by
  unfold processContract
  dsimp only
  split_ifs
  · exact List.sublist_append_left _ _
  · split
    · exact successes_recordSuccess run contract _
    · rw [successes_recordFailure]
      exact List.sublist_append_left _ _

end Pass

/-- The store behind a state of the job. -/
def storeOf (st : JobState (Lakehouse ρ)) : StagingStore ρ := ⟨st.lakehouse, st.ledger⟩

variable (cell lakeConfig) in
/-- **A pass is a write or none.** -/
lemma exists_writes_pass (job : StagingJob ρ) (st : JobState (Lakehouse ρ))
    {contract : Str × List IngestibleFile}
    (haccepted : ∀ f ∈ contract.2, contractOf config f.s3Key = some contract.1) :
    ∃ writes, (∀ w ∈ writes, job.Wrote lakeConfig config w) ∧
      Explains cell lakeConfig writes (storeOf st) (storeOf (endState (processContract
        (ingestContract cell lakeConfig job.reader) job.runs st contract))) := by
  obtain ⟨n, files⟩ := contract
  obtain ⟨added, hledger, -, ⟨hlakehouse, hfailed⟩ | ⟨hingest, -⟩⟩ :=
    @processContract_passEffect _ _ (ingestContract cell lakeConfig job.reader) (job.runs n) st
      (n, files)
  · refine ⟨[], fun w hw => absurd hw List.not_mem_nil, fun table => ?_, ?_⟩
    · have hsame : tableRows (storeOf (endState (processContract
          (ingestContract cell lakeConfig job.reader) job.runs st (n, files)))).lakehouse table =
            tableRows st.lakehouse table := by
        rcases hlakehouse with hlakehouse | hlakehouse
        · exact congrArg (fun lakehouse : Lakehouse ρ => tableRows lakehouse table) hlakehouse
        · exact (congrArg (fun lakehouse : Lakehouse ρ => tableRows lakehouse table)
            hlakehouse).trans (tableRows_ingestContract_prepared table)
      rw [hsame]
      rfl
    · have hsame := congrArg successes hledger
      rw [successes_append, successes_of_failed hfailed, List.append_nil] at hsame
      rw [List.flatMap_nil, List.append_nil]
      exact hsame ▸ List.Sublist.refl _
  · obtain ⟨schema, rows, hschema, hrows, htables⟩ := exists_write_of_ingest hingest
    refine ⟨[⟨n, files, rows.flatten⟩], ?_, htables, ?_⟩
    · intro w hw
      obtain rfl := List.mem_singleton.mp hw
      exact ⟨haccepted, schema, rows, hschema, hrows, rfl⟩
    · rw [List.flatMap_singleton]
      exact successes_processContract (job.runs n) st (n, files)

/-! ### Runs in a row -/

variable (cell lakeConfig) in
/-- The loop of a run. -/
lemma exists_writes_stagingRun (job : StagingJob ρ) {contracts : List (Str × List IngestibleFile)}
    (haccepted : ∀ c ∈ contracts, ∀ f ∈ c.2, contractOf config f.s3Key = some c.1)
    (st : JobState (Lakehouse ρ)) :
    ∃ writes, (∀ w ∈ writes, job.Wrote lakeConfig config w) ∧
      Explains cell lakeConfig writes (storeOf st) (storeOf (endState (stagingRun
        (ingestContract cell lakeConfig job.reader) job.runs contracts st))) := by
  unfold stagingRun
  induction contracts generalizing st with
  | nil => exact ⟨[], fun w hw => absurd hw List.not_mem_nil, explains_nil _⟩
  | cons contract contracts ih =>
    rw [List.forall_mem_cons] at haccepted
    obtain ⟨writes, hwrote, hpass⟩ := exists_writes_pass cell lakeConfig job st haccepted.1
    rw [List.foldlM_cons]
    cases hnext : processContract (ingestContract cell lakeConfig job.reader) job.runs
      st contract with
    | error final =>
      rw [hnext] at hpass
      exact ⟨writes, hwrote, hpass⟩
    | ok next =>
      rw [hnext] at hpass
      obtain ⟨writes', hwrote', hrest⟩ := ih haccepted.2 next
      exact ⟨writes ++ writes', List.forall_mem_append.mpr ⟨hwrote, hwrote'⟩, hpass.trans hrest⟩

/-- The files of the contracts of a run are accepted by the gateway. -/
lemma contractOf_of_mem_items {dbRows : List PendingRow} {c : Str × List IngestibleFile}
    (hc : c ∈ (getIncrementalFilesToIngest config dbRows).items) {f : IngestibleFile}
    (hf : f ∈ c.2) : contractOf config f.s3Key = some c.1 := by
  obtain ⟨n, files⟩ := c
  obtain ⟨⟨row, -, hgate⟩, hname⟩ :=
    mem_getIncrementalFilesToIngest.mp ⟨files, Dict.mem_items_iff.mp hc, hf⟩
  obtain ⟨hkey, -, hcontract⟩ := contractOf_of_gateRow hgate
  rw [hkey, hcontract, hname]

variable (cell lakeConfig config) in
/-- A run. -/
lemma exists_writes_run (job : StagingJob ρ) (store : StagingStore ρ) :
    ∃ writes, (∀ w ∈ writes, job.Wrote lakeConfig config w) ∧
      Explains cell lakeConfig writes store (job.run cell lakeConfig config store) := by
  unfold StagingJob.run ingestLandingCsvToLakehouse
  dsimp only
  split_ifs
  · exact ⟨[], fun w hw => absurd hw List.not_mem_nil, explains_nil store⟩
  · exact ⟨[], fun w hw => absurd hw List.not_mem_nil, explains_nil store⟩
  · exact exists_writes_stagingRun cell lakeConfig job
      (fun c hc f hf => contractOf_of_mem_items hc hf) ⟨store.lakehouse, store.ledger, 0, 0, []⟩

variable (cell lakeConfig config) in
/-- Runs in a row. -/
lemma exists_writes_runJobs (jobs : List (StagingJob ρ)) (store : StagingStore ρ) :
    ∃ writes : List (List (TableWrite ρ)),
      List.Forall₂ (fun job ws => ∀ w ∈ ws, job.Wrote lakeConfig config w) jobs writes ∧
        Explains cell lakeConfig writes.flatten store
          (runJobs cell lakeConfig config jobs store) := by
  induction jobs generalizing store with
  | nil => exact ⟨[], .nil, explains_nil store⟩
  | cons job jobs ih =>
    obtain ⟨first, hfirst, hrun⟩ := exists_writes_run cell lakeConfig config job store
    obtain ⟨writes, hwrites, hrest⟩ := ih (job.run cell lakeConfig config store)
    exact ⟨first :: writes, .cons hfirst hwrites, hrun.trans hrest⟩

/-- **The tables are those of the writes.** Let runs follow one another, each of which may fail or
break off anywhere. Behind them there is a list of writes of each run, where a write reads files of
a contract in some version and has their rows. A row is in a table if and only if it was there at
the start and no write to the table has a row with its key, or some write has it and no later one
has a row with its key. The new successes are those of files that were written, in their order.

**Proof sketch.** A pass of the loop is one such write or none. -/
theorem exists_writes (cell : ρ → Str → Option ν) (lakeConfig : LakehouseConfig)
    (config : ClassifierConfig) (jobs : List (StagingJob ρ)) (store : StagingStore ρ) :
    ∃ writes : List (List (TableWrite ρ)),
      List.Forall₂ (fun job ws => ∀ w ∈ ws, job.Wrote lakeConfig config w) jobs writes ∧
      (successes (runJobs cell lakeConfig config jobs store).ledger).Sublist
        (successes store.ledger ++ writes.flatten.flatMap fun w => versions w.files) ∧
      ∀ table r, r ∈ tableRows (runJobs cell lakeConfig config jobs store).lakehouse table ↔
        (r ∈ tableRows store.lakehouse table ∧
          ∀ w ∈ writes.flatten, r ∉ w.replaced cell lakeConfig table) ∨
        ∃ before w after, writes.flatten = before ++ w :: after ∧ r ∈ w.adds lakeConfig table ∧
          ∀ w' ∈ after, r ∉ w'.replaced cell lakeConfig table := by
  obtain ⟨writes, hwrites, hexplains⟩ := exists_writes_runJobs cell lakeConfig config jobs store
  refine ⟨writes, hwrites, hexplains.successes, fun table r => ?_⟩
  have hrow := Set.ext_iff.mp (hexplains.rows table) r
  rw [mem_contents_iff] at hrow
  exact hrow

/-! ## No row gets lost -/

section Rows

variable {jobs : List (StagingJob ρ)} {writes : List (List (TableWrite ρ))}
  {store : StagingStore ρ}

/-- A write of a list of runs is one of a run. -/
lemma exists_job_of_mem_flatten {job : StagingJob ρ → TableWrite ρ → Prop}
    (h : List.Forall₂ (fun j ws => ∀ w ∈ ws, job j w) jobs writes) {w : TableWrite ρ}
    (hw : w ∈ writes.flatten) : ∃ j ∈ jobs, job j w := by
  induction h with
  | nil => cases hw
  | @cons first ws jobs writes hfirst _ ih =>
    rw [List.flatten_cons, List.mem_append] at hw
    rcases hw with hw | hw
    · exact ⟨first, List.mem_cons_self, hfirst w hw⟩
    · obtain ⟨j, hj, hjob⟩ := ih hw
      exact ⟨j, List.mem_cons_of_mem _ hj, hjob⟩

/-- The rows of a file of a write are rows of the write. -/
lemma StagingJob.Wrote.exists_rows {job : StagingJob ρ} {w : TableWrite ρ}
    (h : job.Wrote lakeConfig config w) {f : IngestibleFile} (hf : f ∈ w.files) :
    ∃ schema rows, lakeConfig.publications.get? w.fmsName = some schema ∧
      job.reader.load schema w.files f = .ok rows ∧ ∀ r ∈ rows, r ∈ w.rows := by
  obtain ⟨schema, loaded, hschema, hloaded, hrows⟩ := h.loaded
  obtain ⟨rows, hmem, hload⟩ := (mem_of_mapM_eq_ok (mapM_eq_ok_iff.mpr hloaded)).1 f hf
  refine ⟨schema, rows, hschema, hload, fun r hr => ?_⟩
  rw [hrows]
  exact List.mem_flatten_of_mem hmem hr

/-- One of the readers found rows in the version of a file, which it read together with others, and
of each of them the table of the contract has the row or one that took its place. -/
def RowsKept (cell : ρ → Str → Option ν) (lakeConfig : LakehouseConfig)
    (readers : List (LandingReader ρ)) (lakehouse : Lakehouse ρ) (n s3Key xxhash : Str) : Prop :=
  ∃ reader ∈ readers, ∃ schema files rows, ∃ f ∈ files,
    lakeConfig.publications.get? n = some schema ∧
    f.s3Key = s3Key ∧ f.xxhash = xxhash ∧ reader.load schema files f = .ok rows ∧
    ∀ r ∈ rows, ∃ r' ∈ tableRows lakehouse (tableName lakeConfig n),
      r = r' ∨ Sql.Replaces cell (contractKeys lakeConfig n) r r'

/-- The rows of a version with a success are kept. -/
lemma rowsKept_of_explains
    (hinj : Set.InjOn (tableName lakeConfig) {n | n ∈ lakeConfig.publications.keys})
    (hwrites : List.Forall₂ (fun job ws => ∀ w ∈ ws, job.Wrote lakeConfig config w) jobs writes)
    {start : Lakehouse ρ} (h : Explains cell lakeConfig writes.flatten ⟨start, []⟩ store)
    {s3Key xxhash : Str} (hsuccess : (s3Key, xxhash) ∈ successes store.ledger) :
    ∃ n, contractOf config s3Key = some n ∧
      RowsKept cell lakeConfig (jobs.map StagingJob.reader) store.lakehouse n s3Key xxhash := by
  obtain ⟨w, hw, hversion⟩ := List.mem_flatMap.mp (h.successes.subset hsuccess)
  obtain ⟨f, hf, heq⟩ := List.mem_map.mp hversion
  obtain ⟨hkey, hhash⟩ := Prod.mk.inj heq
  obtain ⟨job, hjob, hwrote⟩ := exists_job_of_mem_flatten hwrites hw
  obtain ⟨schema, rows, hschema, hload, hrows⟩ := hwrote.exists_rows hf
  refine ⟨w.fmsName, hkey ▸ hwrote.accepted f hf, job.reader, List.mem_map_of_mem hjob, schema,
    w.files, rows, f, hf, hschema, hkey, hhash, hload, fun r hr => ?_⟩
  -- writes to the table are those of the contract, and have its keys
  have hreplaced : ∀ w' ∈ writes.flatten,
      ∀ x ∈ w'.replaced cell lakeConfig (tableName lakeConfig w.fmsName),
      ∃ y ∈ w'.adds lakeConfig (tableName lakeConfig w.fmsName),
        x = y ∨ Sql.Replaces cell (contractKeys lakeConfig w.fmsName) x y := by
    rintro w' hw' x ⟨htable, y, hy, hxy⟩
    obtain ⟨job', -, hwrote'⟩ := exists_job_of_mem_flatten hwrites hw'
    obtain ⟨schema', -, hschema', -⟩ := hwrote'.loaded
    have hname : w'.fmsName = w.fmsName :=
      hinj (Dict.mem_keys_iff.mpr ⟨_, hschema'⟩) (Dict.mem_keys_iff.mpr ⟨_, hschema⟩) htable
    rw [hname] at hxy
    exact ⟨y, ⟨htable, hy⟩, Or.inr hxy⟩
  have hadded : r ∈ w.adds lakeConfig (tableName lakeConfig w.fmsName) := ⟨rfl, hrows r hr⟩
  have hleft := exists_mem_contents_of_mem_adds
    (s := {r | r ∈ tableRows start (tableName lakeConfig w.fmsName)})
    (R := fun x y => x = y ∨ Sql.Replaces cell (contractKeys lakeConfig w.fmsName) x y)
    (fun x => Or.inl rfl) (fun x y z hxy hyz => Sql.eq_or_replaces_trans hxy hyz)
      hreplaced hw hadded
  rw [← h.rows] at hleft
  exact hleft

/-- An attempt with a success. -/
lemma mem_successes {ledger : List AttemptRow} {a : AttemptRow} (ha : a ∈ ledger)
    (hsuccess : a.status = .success) : (a.s3Key, a.xxhash) ∈ successes ledger :=
  List.mem_map.mpr ⟨a, List.mem_filter.mpr ⟨ha, by simp [hsuccess]⟩, rfl⟩

/-- **No row gets lost.** Let no two publications share a table, and let runs follow one another
from an empty store, each of which may fail or break off anywhere. For every attempt with a success
one of the runs has read rows in this version of the file, and of each of them the table of its
contract has the row, or a row that was merged over it, with the same keys and none of them `NULL`.

**Proof sketch.** The success is that of a write. Later writes to the table have the same keys, and
each takes a row out of it only for one with the same key cells. -/
theorem rowsKept_of_success
    (hinj : Set.InjOn (tableName lakeConfig) {n | n ∈ lakeConfig.publications.keys})
    {a : AttemptRow} (ha : a ∈ (runJobs cell lakeConfig config jobs ⟨∅, []⟩).ledger)
    (hsuccess : a.status = .success) :
    ∃ n, contractOf config a.s3Key = some n ∧
      RowsKept cell lakeConfig (jobs.map StagingJob.reader)
        (runJobs cell lakeConfig config jobs ⟨∅, []⟩).lakehouse n a.s3Key a.xxhash := by
  obtain ⟨writes, hwrites, hexplains⟩ := exists_writes_runJobs cell lakeConfig config jobs ⟨∅, []⟩
  exact rowsKept_of_explains hinj hwrites hexplains (mem_successes ha hsuccess)

end Rows

end History

/-! ### The rows of a load -/

/-- The configuration of the total load. -/
def loadConfig : LakehouseConfig := singlePublication "ActualTotalLoad_6.1.A_r3" actualTotalLoad

/-- A reader that finds the load at midnight in every file, for an area of its own. -/
def areaReader : LandingReader (Dict Str (Option Str)) where
  columns schema _ := .ok (declaredColumns .ascii schema)
  load _ _ f := .ok (midnightLoad.rows.map fun row => row.set "area_code".toList (some f.s3Key))

/-- One publication has one table. -/
lemma injOn_tableName_loadConfig :
    Set.InjOn (tableName loadConfig) {n | n ∈ loadConfig.publications.keys} := by
  have hkeys : loadConfig.publications.keys = ["ActualTotalLoad_6.1.A_r3".toList] := rfl
  intro n hn n' hn' _
  have hname : n ∈ loadConfig.publications.keys := hn
  have hname' : n' ∈ loadConfig.publications.keys := hn'
  rw [hkeys, List.mem_singleton] at hname hname'
  rw [hname, hname']

/-- A run over the files of the first ingestion job. -/
def loadJob (run : ContractRun) : StagingJob (Dict Str (Option Str)) :=
  ⟨areaReader, fun _ => run, true,
    fetchIncrementalFilesFromDb cycleLanded.zone.registry fun _ => none⟩

/-- A run that cannot commit its successes and one that works. -/
def loadJobs : List (StagingJob (Dict Str (Option Str))) :=
  [loadJob ⟨false, 1, .none, .failed, .committed⟩, loadJob workingRun]

/-- The load of the production file is in the table, though the first success was lost. -/
theorem rowsKept_of_success_load : ∃ n,
    contractOf shippedClassifier "prod/TP_export/Load/ActualTotalLoad_6.1.A_r3/a.csv".toList =
        some n ∧
      RowsKept rowCell loadConfig [areaReader, areaReader]
        (runJobs rowCell loadConfig shippedClassifier loadJobs ⟨∅, []⟩).lakehouse n
        "prod/TP_export/Load/ActualTotalLoad_6.1.A_r3/a.csv".toList
        ((itemVersion (loadItem "a.csv" "2026-04-15T12:00:00Z" "7")).hash id) := by
  have hattempt : (⟨"prod/TP_export/Load/ActualTotalLoad_6.1.A_r3/a.csv".toList,
      (itemVersion (loadItem "a.csv" "2026-04-15T12:00:00Z" "7")).hash id, 2, .success⟩ :
        AttemptRow) ∈ (runJobs rowCell loadConfig shippedClassifier loadJobs ⟨∅, []⟩).ledger := by
    decide +kernel
  exact rowsKept_of_success injOn_tableName_loadConfig hattempt rfl

/-! ## The rows of listed files -/

section Cycle

variable {ρ ν : Type*} [DecidableEq ν] {cell : ρ → Str → Option ν} {lakeConfig : LakehouseConfig}
  {config : ClassifierConfig} {β : Type*} {cfg : SyncConfig β} {isoReader : IsoReader}
  {registered : List Str}
  {activeEnv : Str} {runs : Str → ContractRun} {paths : List LandingPath}
  {server : ℕ → Str → Except PyError (List RawItem)} {answers : ℕ → EnvAnswers β}
  {zone : LandingZone β} {landed : IngestState β} {reader : LandingReader ρ}
  {staged : JobState (Lakehouse ρ)} {jobs : List (StagingJob ρ)}

/-- **The rows of listed files.** Let a cycle without failures follow any runs of the staging job.
Then of every file with an id that the file servers list for the landing paths of the environments
and for which the gateway has a contract, a run of the staging job has read the listed version, and
of each row in it the table of the contract has the row or one that was merged over it.

**Proof sketch.** The latest attempt of the file is a success with the digest of the listed version,
and the staging job of the cycle is one more run. -/
theorem rows_of_cleanCycle
    (hinj : Set.InjOn (tableName lakeConfig) {n | n ∈ lakeConfig.publications.keys})
    (hpaths : cfg.schemaFolders = paths.map LandingPath.text) (hdistinct : paths.Nodup)
    (hnames : ∀ index path items, server index path = .ok items → UniqueNames items)
    (henvs : ((envsToSync cfg activeEnv).map cfg.cm.lower).Nodup)
    (hserved : ServedBy server answers)
    {store : StagingStore ρ} (hstore : runJobs cell lakeConfig config jobs ⟨∅, []⟩ = store)
    (h : CleanCycle cfg isoReader registered activeEnv (ingestContract cell lakeConfig reader) runs
      config answers zone store.lakehouse store.ledger landed staged)
    (hpast : Chronological store.ledger)
    (hlater : ∀ a ∈ store.ledger, ∀ n, a.ingestedAt < (runs n).ingestedAt) :
    ∀ entry ∈ jobSources cfg paths server 0 (envsToSync cfg activeEnv), entry.2.itemId ≠ [] →
      ∀ n, contractOf config (s3KeyOf entry.1 entry.2) = some n →
        RowsKept cell lakeConfig (jobs.map StagingJob.reader ++ [reader]) staged.lakehouse n
          (s3KeyOf entry.1 entry.2) ((itemVersion entry.2).hash cfg.xxh) := by
  intro entry hentry hid n hcontract
  obtain ⟨⟨row, hget, hhash⟩, -⟩ :=
    h.synced hpaths hdistinct hnames henvs hserved entry hentry hid
  obtain ⟨li, hli, hkey, hlihash, hsuccess, -⟩ := h.integrated hpast hlater hget hcontract
  obtain ⟨latest, dbRows, -, -, hjob⟩ := h.stages
  -- the staging job of the cycle is one more run
  have hlast : runJobs cell lakeConfig config (jobs ++ [⟨reader, runs, true, dbRows⟩]) ⟨∅, []⟩ =
      ⟨staged.lakehouse, staged.ledger⟩ := by
    unfold runJobs at hstore ⊢
    rw [List.foldl_append, hstore, List.foldl_cons, List.foldl_nil, StagingJob.run]
    dsimp only
    rw [hjob]
    rfl
  obtain ⟨writes, hwrites, hexplains⟩ := exists_writes_runJobs cell lakeConfig config
    (jobs ++ [⟨reader, runs, true, dbRows⟩]) ⟨∅, []⟩
  rw [hlast] at hexplains
  obtain ⟨n', hcontract', hkept⟩ :=
    rowsKept_of_explains hinj hwrites hexplains (mem_successes hli hsuccess)
  rw [List.map_append, hkey, hlihash, hhash] at hkept
  rw [hkey, hcontract, Option.some_inj] at hcontract'
  rw [hcontract']
  exact hkept

end Cycle

/-! ### A first cycle -/

/-- What the staging job leaves behind the first ingestion job. -/
def loadStaged : JobState (Lakehouse (Dict Str (Option Str))) :=
  endState (ingestLandingCsvToLakehouse (ingestContract rowCell loadConfig areaReader)
    (fun _ => workingRun) shippedClassifier true
    (fetchIncrementalFilesFromDb cycleLanded.zone.registry fun _ => none) ⟨∅, [], 0, 0, []⟩)

/-- The cycle with the load has no failures. -/
lemma cleanCycle_load : CleanCycle cycleSync noonReader ["IOP".toList, "PROD".toList] "IOP".toList
    (ingestContract rowCell loadConfig areaReader) (fun _ => workingRun) shippedClassifier
    cycleAnswers ⟨0, ∅, ∅⟩ ∅ [] cycleLanded loadStaged where
  ingests := rfl
  noErrors := cleanCycle_first.noErrors
  stages := ⟨fun _ => none, _, fun _ => by simp, List.Perm.refl _, rfl⟩
  noFailed := by decide +kernel

/-- The load of the production file is in the table. -/
theorem rows_of_cleanCycle_load : RowsKept rowCell loadConfig [areaReader] loadStaged.lakehouse
    "ActualTotalLoad_6.1.A_r3".toList "prod/TP_export/Load/ActualTotalLoad_6.1.A_r3/a.csv".toList
    ((itemVersion (loadItem "a.csv" "2026-04-15T12:00:00Z" "7")).hash id) := by
  have hentry : (cycleMapping, loadItem "a.csv" "2026-04-15T12:00:00Z" "7") ∈
      jobSources cycleSync cyclePaths (fun _ => cycleServer) 0
        (envsToSync cycleSync "IOP".toList) := by
    decide +kernel
  have hcontract : contractOf shippedClassifier (s3KeyOf cycleMapping
      (loadItem "a.csv" "2026-04-15T12:00:00Z" "7")) =
        some "ActualTotalLoad_6.1.A_r3".toList := by
    decide +kernel
  have hstore : runJobs (@rowCell Str) loadConfig shippedClassifier [] ⟨∅, []⟩ = ⟨∅, []⟩ := rfl
  exact rows_of_cleanCycle injOn_tableName_loadConfig (by decide) nodup_cyclePaths
    uniqueNames_cycleServer (by rw [envsToSync_cycleSync]; decide) (fun _ _ => rfl) hstore
    cleanCycle_load .nil (by simp) _ hentry (by decide) _ hcontract

end EntsoePipeline
