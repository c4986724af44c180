import EntsoePipeline.Lakehouse.Tables
import EntsoePipeline.Lib.Outcome
import EntsoePipeline.Staging.Ingestion

set_option relaxedAutoImplicit false
set_option autoImplicit false

/-!
# A run of the staging job

The loop of the job over the contracts, with what happens outside of the process at each of them:
the process may die, the write may fail or be reported as failed, and each of the two commits may
fail. The read and the write of a contract are a function on the lakehouse that may fail.

## Main definitions

* `EntsoePipeline.ContractRun` — what happens outside of the process at one contract.
* `EntsoePipeline.JobState`, `EntsoePipeline.processContract`, `EntsoePipeline.stagingRun` — the
  loop.
* `EntsoePipeline.advance` — one pass of the loop while the database works.
* `EntsoePipeline.readLandingCsvDataset`, `EntsoePipeline.ingestContract` — the read of the files of
  a contract and the write to its table.

## Main results

* `EntsoePipeline.stagingRun_of_working` — while the database works the loop comes to its end.
* `EntsoePipeline.exists_outcomes` — it then adds the attempts of every contract under one status.
* `EntsoePipeline.ingestContract_spec` — when the write of a contract succeeds.
-/

namespace EntsoePipeline

open Py Outcome

/-! ## The loop -/

/-- How the insert of attempt rows ends. -/
inductive CommitOutcome
  /-- The rows are inserted. -/
  | committed
  /-- The insert raises without an effect. -/
  | failed
  /-- The rows are inserted, but the insert raises. -/
  | unconfirmed
  deriving DecidableEq

/-- What makes the read or the write of a contract raise apart from the contents of the files. -/
inductive WriteFault
  /-- Nothing does. -/
  | none
  /-- Something before the table of the contract is created. -/
  | before
  /-- Something before the write has had its effect, when the table is there. -/
  | between
  /-- Something after the write has had its effect. -/
  | after
  deriving DecidableEq

/-- What happens outside of the process at a contract. -/
structure ContractRun where
  /-- The process dies before the contract. -/
  died : Bool
  /-- The time of the attempt. -/
  ingestedAt : ℤ
  /-- What makes the read or the write raise. -/
  fault : WriteFault
  /-- How the commit of a success ends. -/
  successCommit : CommitOutcome
  /-- How the commit of a failure ends. -/
  failedCommit : CommitOutcome
  deriving DecidableEq

/-- The state of the job: the lakehouse, the ledger, the counters and the messages of the log. -/
structure JobState (τ : Type*) where
  /-- The tables. -/
  lakehouse : τ
  /-- `lakehouse_ingestion_registry`. -/
  ledger : List AttemptRow
  /-- `total_processed`. -/
  processed : ℕ
  /-- `total_failed`. -/
  failed : ℕ
  /-- The contracts that were logged as integrated or failed. -/
  outcomes : List (Str × AttemptStatus)
  deriving DecidableEq

section Loop

variable {τ ε : Type*} (ingest : τ → Str → List IngestibleFile → WriteOutcome ε τ)
  (runs : Str → ContractRun)

/-- The attempts of a contract. -/
def attemptRows (run : ContractRun) (files : List IngestibleFile) (status : AttemptStatus) :
    List AttemptRow :=
  files.map fun f => ⟨f.s3Key, f.xxhash, run.ingestedAt, status⟩

/-- The read and the write of a contract: the lakehouse they leave, and whether they raise. -/
def contractEffect (run : ContractRun) (lakehouse : τ) (contract : Str × List IngestibleFile) :
    τ × AttemptStatus :=
  let outcome := ingest lakehouse contract.1 contract.2
  match run.fault, outcome.result with
  | .before, _ => (lakehouse, .failed)
  | .between, _ => (outcome.prepared, .failed)
  | .after, .ok written => (written, .failed)
  | .none, .ok written => (written, .success)
  | _, .error _ => (outcome.prepared, .failed)

/-- The `except` branch; an error is the state in which the job exits. -/
def recordFailure (run : ContractRun) (contract : Str × List IngestibleFile) (st : JobState τ) :
    Except (JobState τ) (JobState τ) :=
  let counted := { st with
    failed := st.failed + contract.2.length
    outcomes := st.outcomes ++ [(contract.1, .failed)] }
  let ledger := st.ledger ++ attemptRows run contract.2 .failed
  match run.failedCommit with
  | .committed => .ok { counted with ledger := ledger }
  | .failed => .error counted
  | .unconfirmed => .error { counted with ledger := ledger }

/-- The end of the `try` branch: a commit that fails leads to the `except` branch. -/
def recordSuccess (run : ContractRun) (contract : Str × List IngestibleFile) (st : JobState τ) :
    Except (JobState τ) (JobState τ) :=
  let ledger := st.ledger ++ attemptRows run contract.2 .success
  match run.successCommit with
  | .committed => .ok { st with
      ledger := ledger
      processed := st.processed + contract.2.length
      outcomes := st.outcomes ++ [(contract.1, .success)] }
  | .failed => recordFailure run contract st
  | .unconfirmed => recordFailure run contract { st with ledger := ledger }

/-- One pass of the loop. -/
def processContract (st : JobState τ) (contract : Str × List IngestibleFile) :
    Except (JobState τ) (JobState τ) :=
  let run := runs contract.1
  let effect := contractEffect ingest run st.lakehouse contract
  if run.died then .error st
  else match effect.2 with
    | .success => recordSuccess run contract { st with lakehouse := effect.1 }
    | .failed => recordFailure run contract { st with lakehouse := effect.1 }

/-- The loop over the contracts. -/
def stagingRun (contracts : List (Str × List IngestibleFile)) (st : JobState τ) :
    Except (JobState τ) (JobState τ) :=
  contracts.foldlM (processContract ingest runs) st

/-- The state in which the job ends. -/
def endState : Except (JobState τ) (JobState τ) → JobState τ
  | .ok st => st
  | .error st => st

/-! ## While the database works -/

/-- The process does not die and the commits succeed. -/
def ContractRun.Working (run : ContractRun) : Prop :=
  run.died = false ∧ run.successCommit = .committed ∧ run.failedCommit = .committed

instance (run : ContractRun) : Decidable run.Working := inferInstanceAs (Decidable (_ ∧ _ ∧ _))

/-- One pass of the loop while the database works. -/
def advance (st : JobState τ) (contract : Str × List IngestibleFile) : JobState τ :=
  let run := runs contract.1
  let effect := contractEffect ingest run st.lakehouse contract
  { lakehouse := effect.1
    ledger := st.ledger ++ attemptRows run contract.2 effect.2
    processed := st.processed + if effect.2 = .success then contract.2.length else 0
    failed := st.failed + if effect.2 = .failed then contract.2.length else 0
    outcomes := st.outcomes ++ [(contract.1, effect.2)] }

/-- The lakehouse when the loop comes to a contract. -/
def lakehouseBefore (contracts : List (Str × List IngestibleFile)) (lakehouse : τ) (fmsName : Str) :
    τ :=
  (contracts.takeWhile fun c => c.1 ≠ fmsName).foldl
    (fun lakehouse c => (contractEffect ingest (runs c.1) lakehouse c).1) lakehouse

variable {ingest runs}

/-- A contract at which everything works advances the state. -/
lemma processContract_of_working (st : JobState τ) {contract : Str × List IngestibleFile}
    (h : (runs contract.1).Working) :
    processContract ingest runs st contract = .ok (advance ingest runs st contract) := by
  obtain ⟨hdied, hsuccess, hfailed⟩ := h
  unfold processContract advance recordSuccess recordFailure
  cases heffect : (contractEffect ingest (runs contract.1) st.lakehouse contract).2 with
  | success => simp [hdied, hsuccess, heffect]
  | failed => simp [hdied, hfailed, heffect]

/-- **The end of the loop.** While the database works, the loop goes through all contracts. -/
lemma stagingRun_of_working {contracts : List (Str × List IngestibleFile)} (st : JobState τ)
    (h : ∀ contract ∈ contracts, (runs contract.1).Working) :
    stagingRun ingest runs contracts st = .ok (contracts.foldl (advance ingest runs) st) := by
  unfold stagingRun
  induction contracts generalizing st with
  | nil => rfl
  | cons contract contracts ih =>
    rw [List.foldlM_cons, processContract_of_working st (h contract List.mem_cons_self)]
    exact ih _ fun c hc => h c (List.mem_cons_of_mem _ hc)

variable (ingest runs) in
/-- **One status for each contract.** A run over contracts of different names gives each the status
of its read and write, logs it, and records it for all files of the contract. -/
lemma exists_outcomes {contracts : List (Str × List IngestibleFile)} (st : JobState τ)
    (h : (contracts.map Prod.fst).Nodup) :
    ∃ status : Str → AttemptStatus,
      (∀ c ∈ contracts, status c.1 = (contractEffect ingest (runs c.1)
        (lakehouseBefore ingest runs contracts st.lakehouse c.1) c).2) ∧
      (contracts.foldl (advance ingest runs) st).outcomes =
        st.outcomes ++ contracts.map (fun c => (c.1, status c.1)) ∧
      (contracts.foldl (advance ingest runs) st).ledger =
        st.ledger ++ contracts.flatMap (fun c => attemptRows (runs c.1) c.2 (status c.1)) := by
  induction contracts generalizing st with
  | nil => exact ⟨fun _ => .success, by simp, by simp, by simp⟩
  | cons contract contracts ih =>
    rw [List.map_cons, List.nodup_cons] at h
    obtain ⟨status, hstatus, houtcomes, hledger⟩ := ih (advance ingest runs st contract) h.2
    set first := (contractEffect ingest (runs contract.1) st.lakehouse contract).2 with hfirst
    have hne : ∀ c ∈ contracts, c.1 ≠ contract.1 := by
      rintro c hc heq
      exact h.1 (heq ▸ List.mem_map_of_mem hc)
    have hother : ∀ c ∈ contracts, Function.update status contract.1 first c.1 = status c.1 :=
      fun c hc => Function.update_of_ne (hne c hc) _ _
    refine ⟨Function.update status contract.1 first, ?_, ?_, ?_⟩
    · intro c hc
      rcases List.mem_cons.mp hc with rfl | hc
      · rw [Function.update_self, lakehouseBefore, List.takeWhile_cons_of_neg (by simp)]
        rfl
      · rw [hother c hc, hstatus c hc, lakehouseBefore, lakehouseBefore,
          List.takeWhile_cons_of_pos (by simpa using (hne c hc).symm)]
        rfl
    · rw [List.foldl_cons, houtcomes, List.map_cons, Function.update_self, advance, ← hfirst,
        List.append_assoc, List.singleton_append]
      congr 2
      exact List.map_congr_left fun c hc => by rw [hother c hc]
    · rw [List.foldl_cons, hledger, List.flatMap_cons, Function.update_self, advance, ← hfirst,
        List.append_assoc]
      congr 2
      rw [List.flatMap_def, List.flatMap_def]
      exact congrArg List.flatten (List.map_congr_left fun c hc => by rw [hother c hc])

/-- The counters together count the files of all contracts. -/
lemma processed_add_failed (contracts : List (Str × List IngestibleFile)) (st : JobState τ) :
    (contracts.foldl (advance ingest runs) st).processed +
        (contracts.foldl (advance ingest runs) st).failed =
      st.processed + st.failed + (contracts.flatMap Prod.snd).length := by
  induction contracts generalizing st with
  | nil => simp
  | cons contract contracts ih =>
    rw [List.foldl_cons, ih, List.flatMap_cons, List.length_append, advance]
    cases (contractEffect ingest (runs contract.1) st.lakehouse contract).2 with
    | success =>
      simp only [reduceCtorEq, if_true, if_false]
      omega
    | failed =>
      simp only [reduceCtorEq, if_true, if_false]
      omega

/-! ## What one pass can do -/

/-- The write of a contract is not made, or it succeeds and its success is committed. -/
def ContractRun.Recorded (run : ContractRun) : Prop :=
  run.died = true ∨ run.fault = .before ∨ run.fault = .between ∨
    (run.fault = .none ∧ run.successCommit = .committed)

/-- The attempts of a contract are those of its files. -/
lemma mem_attemptRows {run : ContractRun} {files : List IngestibleFile} {status : AttemptStatus}
    {a : AttemptRow} :
    a ∈ attemptRows run files status ↔
      ∃ f ∈ files, (⟨f.s3Key, f.xxhash, run.ingestedAt, status⟩ : AttemptRow) = a := by
  rw [attemptRows, List.mem_map]

/-- An attempt of one of the files at the time of the run. -/
def IsAttempt (run : ContractRun) (files : List IngestibleFile) (a : AttemptRow) : Prop :=
  ∃ status, a ∈ attemptRows run files status

/-- The `except` branch adds failures. -/
lemma recordFailure_adds (run : ContractRun) (contract : Str × List IngestibleFile)
    (st : JobState τ) :
    ∃ added, (endState (recordFailure run contract st)).ledger = st.ledger ++ added ∧
      (endState (recordFailure run contract st)).lakehouse = st.lakehouse ∧
      ∀ a ∈ added, IsAttempt run contract.2 a ∧ a.status = .failed := by
  have hfailures : ∀ a ∈ attemptRows run contract.2 .failed,
      IsAttempt run contract.2 a ∧ a.status = .failed := by
    intro a ha
    refine ⟨⟨_, ha⟩, ?_⟩
    obtain ⟨f, -, rfl⟩ := mem_attemptRows.mp ha
    rfl
  unfold recordFailure
  cases run.failedCommit with
  | committed => exact ⟨_, rfl, rfl, hfailures⟩
  | failed => exact ⟨[], (List.append_nil _).symm, rfl, by simp⟩
  | unconfirmed => exact ⟨_, rfl, rfl, hfailures⟩

/-- The end of the `try` branch adds attempts: the successes when they are committed. -/
lemma recordSuccess_adds (run : ContractRun) (contract : Str × List IngestibleFile)
    (st : JobState τ) :
    ∃ added, (endState (recordSuccess run contract st)).ledger = st.ledger ++ added ∧
      (endState (recordSuccess run contract st)).lakehouse = st.lakehouse ∧
      (∀ a ∈ added, IsAttempt run contract.2 a) ∧
      (run.successCommit = .committed → added = attemptRows run contract.2 .success) := by
  unfold recordSuccess
  cases hcommit : run.successCommit with
  | committed => exact ⟨_, rfl, rfl, fun a ha => ⟨_, ha⟩, fun _ => rfl⟩
  | failed =>
    obtain ⟨added, hledger, hlake, hadded⟩ := recordFailure_adds run contract st
    exact ⟨added, hledger, hlake, fun a ha => (hadded a ha).1, fun h => by cases h⟩
  | unconfirmed =>
    obtain ⟨added, hledger, hlake, hadded⟩ := recordFailure_adds run contract
      { st with ledger := st.ledger ++ attemptRows run contract.2 .success }
    refine ⟨attemptRows run contract.2 .success ++ added, ?_, hlake, ?_, fun h => by cases h⟩
    · rw [hledger, List.append_assoc]
    · intro a ha
      rcases List.mem_append.mp ha with ha | ha
      · exact ⟨_, ha⟩
      · exact (hadded a ha).1

variable (ingest) in
/-- What one pass can do to the ledger and the tables: it adds attempts of the files of the
contract. Either it writes no rows, though it may have prepared the table, and adds failures only,
or the contract was ingested; then, when nothing goes wrong after the write, it adds the successes
of the contract. -/
def PassEffect (run : ContractRun) (contract : Str × List IngestibleFile) (st final : JobState τ) :
    Prop :=
  let outcome := ingest st.lakehouse contract.1 contract.2
  ∃ added, final.ledger = st.ledger ++ added ∧ (∀ a ∈ added, IsAttempt run contract.2 a) ∧
    (((final.lakehouse = st.lakehouse ∨ final.lakehouse = outcome.prepared) ∧
        ∀ a ∈ added, a.status = .failed) ∨
      (outcome.result = .ok final.lakehouse ∧
        (run.Recorded → added = attemptRows run contract.2 .success)))

/-- A pass that raises before the write has its effect. -/
lemma passEffect_of_lakehouse {run : ContractRun} {contract : Str × List IngestibleFile}
    {st : JobState τ} {lakehouse : τ}
    (h : lakehouse = st.lakehouse ∨
      lakehouse = (ingest st.lakehouse contract.1 contract.2).prepared) :
    PassEffect ingest run contract st
      (endState (recordFailure run contract { st with lakehouse := lakehouse })) := by
  obtain ⟨added, hledger, hlake, hadded⟩ :=
    recordFailure_adds run contract { st with lakehouse := lakehouse }
  refine ⟨added, hledger, fun a ha => (hadded a ha).1, Or.inl ⟨?_, fun a ha => (hadded a ha).2⟩⟩
  rw [hlake]
  exact h

/-- A pass that raises after the write. -/
lemma passEffect_of_written {run : ContractRun} {contract : Str × List IngestibleFile}
    {st : JobState τ} {written : τ} (hdied : run.died = false) (hfault : run.fault = .after)
    (hingest : (ingest st.lakehouse contract.1 contract.2).result = .ok written) :
    PassEffect ingest run contract st
      (endState (recordFailure run contract { st with lakehouse := written })) := by
  obtain ⟨added, hledger, hlake, hadded⟩ :=
    recordFailure_adds run contract { st with lakehouse := written }
  refine ⟨added, hledger, fun a ha => (hadded a ha).1, Or.inr ⟨by rw [hingest, hlake], ?_⟩⟩
  simp [ContractRun.Recorded, hdied, hfault]

/-- A pass whose write is made. -/
lemma passEffect_of_success {run : ContractRun} {contract : Str × List IngestibleFile}
    {st : JobState τ} {written : τ} (hdied : run.died = false) (hfault : run.fault = .none)
    (hingest : (ingest st.lakehouse contract.1 contract.2).result = .ok written) :
    PassEffect ingest run contract st
      (endState (recordSuccess run contract { st with lakehouse := written })) := by
  obtain ⟨added, hledger, hlake, hadded, hcommit⟩ :=
    recordSuccess_adds run contract { st with lakehouse := written }
  refine ⟨added, hledger, hadded, Or.inr ⟨by rw [hingest, hlake], ?_⟩⟩
  simpa [ContractRun.Recorded, hdied, hfault] using hcommit

/-- **One pass of the loop.**

**Proof sketch.** The cases are where the pass raises: before it begins, in the ingest, before or
after the write, or in the commit of the success. -/
lemma processContract_passEffect (run : ContractRun) (st : JobState τ)
    (contract : Str × List IngestibleFile) :
    PassEffect ingest run contract st
      (endState (processContract ingest (fun _ => run) st contract)) := by
  cases hdied : run.died with
  | true =>
    have hpass : processContract ingest (fun _ => run) st contract = .error st := by
      simp [processContract, hdied]
    rw [hpass]
    exact ⟨[], (List.append_nil _).symm, by simp, Or.inl ⟨Or.inl rfl, by simp⟩⟩
  | false =>
    -- the state with the tables that the ingest leaves, when the pass fails
    have hfails (lakehouse : τ) (heffect : contractEffect ingest run st.lakehouse contract =
        (lakehouse, .failed)) : processContract ingest (fun _ => run) st contract =
          recordFailure run contract { st with lakehouse := lakehouse } := by
      simp [processContract, heffect, hdied]
    cases hfault : run.fault with
    | before =>
      rw [hfails _ (by rw [contractEffect, hfault])]
      exact passEffect_of_lakehouse (Or.inl rfl)
    | between =>
      rw [hfails _ (by rw [contractEffect, hfault])]
      exact passEffect_of_lakehouse (Or.inr rfl)
    | after =>
      cases hingest : (ingest st.lakehouse contract.1 contract.2).result with
      | error e =>
        rw [hfails (ingest st.lakehouse contract.1 contract.2).prepared
          (by simp only [contractEffect, hfault, hingest])]
        exact passEffect_of_lakehouse (Or.inr rfl)
      | ok written =>
        rw [hfails written (by simp only [contractEffect, hfault, hingest])]
        exact passEffect_of_written hdied hfault hingest
    | none =>
      cases hingest : (ingest st.lakehouse contract.1 contract.2).result with
      | error e =>
        rw [hfails (ingest st.lakehouse contract.1 contract.2).prepared
          (by simp only [contractEffect, hfault, hingest])]
        exact passEffect_of_lakehouse (Or.inr rfl)
      | ok written =>
        have hpass : processContract ingest (fun _ => run) st contract =
            recordSuccess run contract { st with lakehouse := written } := by
          simp [processContract, contractEffect, hdied, hingest, hfault]
        rw [hpass]
        exact passEffect_of_success hdied hfault hingest

end Loop

/-! ## Reading and writing a contract -/

/-- What Spark reads from the landing zone. Some files are read together: the columns of the frame
and the rows of each file are those of the joint load. -/
structure LandingReader (ρ : Type*) where
  /-- The columns of the frame of some files. -/
  columns : FmsPublicationSchema → List IngestibleFile → Except LakehouseError Columns
  /-- The rows of one of some files that are loaded together. -/
  load : FmsPublicationSchema → List IngestibleFile → IngestibleFile →
    Except LakehouseError (List ρ)

section Ingest

variable {ρ ν : Type*} [DecidableEq ν] (cell : ρ → Str → Option ν) (config : LakehouseConfig)
  (reader : LandingReader ρ)

/-- The files of a contract, read into a data frame. -/
def readLandingCsvDataset (files : List IngestibleFile) (fmsName : Str) :
    Except LakehouseError (DataFrame ρ) :=
  if files = [] then .error .valueError
  else match config.publications.get? fmsName with
    | none => .error .valueError
    | some publicationSchema =>
      match reader.columns publicationSchema files with
      | .error e => .error e
      | .ok columns => do
        let rows ← files.mapM (reader.load publicationSchema files)
        .ok ⟨columns, rows.flatten⟩

/-- The read and the write of a contract. -/
def ingestContract (lakehouse : Lakehouse ρ) (fmsName : Str) (files : List IngestibleFile) :
    WriteOutcome LakehouseError (Lakehouse ρ) :=
  match readLandingCsvDataset config reader files fmsName with
  | .ok df => addCsvToIcebergTable cell config lakehouse df fmsName
  | .error e => ⟨lakehouse, .error e⟩

variable {cell config reader} {fmsName : Str} {files : List IngestibleFile}
  {lakehouse lakehouse' : Lakehouse ρ}

/-- A read succeeds when the joint load does: it then has the columns of the load and the rows of
all files. -/
lemma readLandingCsvDataset_eq_ok_iff {df : DataFrame ρ} :
    readLandingCsvDataset config reader files fmsName = .ok df ↔
      files ≠ [] ∧ ∃ schema rows, config.publications.get? fmsName = some schema ∧
        reader.columns schema files = .ok df.columns ∧
        List.Forall₂ (fun f r => reader.load schema files f = .ok r) files rows ∧
          df.rows = rows.flatten := by
  unfold readLandingCsvDataset
  split_ifs with hfiles
  · simp [hfiles]
  · cases hschema : config.publications.get? fmsName with
    | none => simp
    | some schema =>
      dsimp only
      constructor
      · intro h
        cases hcolumns : reader.columns schema files with
        | error e =>
          rw [hcolumns] at h
          cases h
        | ok columns =>
          rw [hcolumns] at h
          obtain ⟨rows, hrows, h⟩ := bind_eq_ok_iff.mp h
          cases h
          exact ⟨hfiles, schema, rows, rfl, hcolumns, mapM_eq_ok_iff.mp hrows, rfl⟩
      · rintro ⟨-, schema', rows, heq, hcolumns, hrows, hflat⟩
        cases heq
        rw [hcolumns]
        refine bind_eq_ok_iff.mpr ⟨rows, mapM_eq_ok_iff.mpr hrows, ?_⟩
        rw [← hflat]

/-- The tables before the rows of a contract are written have the rows of those before. -/
lemma tableRows_ingestContract_prepared (table : Str) :
    tableRows (ingestContract cell config reader lakehouse fmsName files).prepared table =
      tableRows lakehouse table := by
  unfold ingestContract
  cases readLandingCsvDataset config reader files fmsName with
  | error e => rfl
  | ok df => exact tableRows_prepared table

/-- **Ingesting a contract.** An ingest that succeeds has read every file and written their rows
together, and it leaves the rows of other tables as they are. -/
lemma ingestContract_spec
    (h : (ingestContract cell config reader lakehouse fmsName files).result = .ok lakehouse') :
    ∃ schema rows, config.publications.get? fmsName = some schema ∧
      List.Forall₂ (fun f r => reader.load schema files f = .ok r) files rows ∧
      writeRows cell (contractKeys config fmsName) (tableRows lakehouse (tableName config fmsName))
        rows.flatten = some (tableRows lakehouse' (tableName config fmsName)) ∧
      ∀ other ≠ tableName config fmsName,
        tableRows lakehouse' other = tableRows lakehouse other := by
  unfold ingestContract at h
  cases hread : readLandingCsvDataset config reader files fmsName with
  | error e =>
    rw [hread] at h
    cases h
  | ok df =>
    rw [hread] at h
    obtain ⟨-, schema, rows, hschema, -, hrows, hflat⟩ := readLandingCsvDataset_eq_ok_iff.mp hread
    obtain ⟨hwrite, hother⟩ := addCsvToIcebergTable_spec h
    rw [hflat] at hwrite
    exact ⟨schema, rows, hschema, hrows, hwrite, hother⟩

/-- **When a contract is ingested**: its files can be loaded together, Spark accepts the write of
their frame, and the merge does not abort. -/
lemma exists_ingestContract_iff :
    (∃ lakehouse', (ingestContract cell config reader lakehouse fmsName files).result =
        .ok lakehouse') ↔
      files ≠ [] ∧ ∃ schema columns rows, config.publications.get? fmsName = some schema ∧
        reader.columns schema files = .ok columns ∧
        List.Forall₂ (fun f r => reader.load schema files f = .ok r) files rows ∧
        Writable config lakehouse fmsName columns ∧
        writeRows cell (contractKeys config fmsName)
          (tableRows lakehouse (tableName config fmsName)) rows.flatten ≠ none := by
  unfold ingestContract
  cases hread : readLandingCsvDataset config reader files fmsName with
  | error e =>
    refine iff_of_false (by simp) ?_
    rintro ⟨hfiles, schema, columns, rows, hschema, hcolumns, hrows, -, -⟩
    have hok : readLandingCsvDataset config reader files fmsName = .ok ⟨columns, rows.flatten⟩ :=
      readLandingCsvDataset_eq_ok_iff.mpr ⟨hfiles, schema, rows, hschema, hcolumns, hrows, rfl⟩
    rw [hread] at hok
    cases hok
  | ok df =>
    obtain ⟨hfiles, schema, rows, hschema, hcolumns, hrows, hflat⟩ :=
      readLandingCsvDataset_eq_ok_iff.mp hread
    dsimp only
    rw [exists_addCsvToIcebergTable_iff, hflat]
    constructor
    · rintro ⟨hwritable, hwrite⟩
      exact ⟨hfiles, schema, df.columns, rows, hschema, hcolumns, hrows, hwritable, hwrite⟩
    · rintro ⟨-, schema', columns', rows', hschema', hcolumns', hrows', hwritable, hwrite⟩
      -- the joint load is a function of the files
      have hok : readLandingCsvDataset config reader files fmsName =
          .ok ⟨columns', rows'.flatten⟩ :=
        readLandingCsvDataset_eq_ok_iff.mpr
          ⟨hfiles, schema', rows', hschema', hcolumns', hrows', rfl⟩
      rw [hread, Except.ok.injEq] at hok
      rw [← hflat, hok]
      exact ⟨hwritable, hwrite⟩

end Ingest

end EntsoePipeline
