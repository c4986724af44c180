import EntsoePipeline.Lakehouse.Upsert
import EntsoePipeline.Staging.PendingSet

set_option relaxedAutoImplicit false
set_option autoImplicit false

/-!
# Exactly-once writes

The write to a table and the commit of its success are two steps. When the second fails, the files
are recorded as failed and written again by a later run. A merge finds the rows it has written by
their keys and writes them over; an append, and a merge of rows with a `NULL` in their keys, adds
them a second time.

## Main definitions

* `EntsoePipeline.Sourced` — a row with the file version and the line it comes from.
* `EntsoePipeline.Warehouse`, `EntsoePipeline.Move`, `EntsoePipeline.WarehouseStep` — the landing
  registry, the ledger, the tables and the contracts in the hands of the job, and how they change.
* `EntsoePipeline.AtMostOnce` — no table has two rows from one line of one file version.
* `EntsoePipeline.Unkeyed` — file versions with rows that a merge does not find again.
* `EntsoePipeline.Move.Safe` — the moves that lose no success of such a version.

## Main results

* `EntsoePipeline.sound_step` — a safe move keeps the invariant.
* `EntsoePipeline.atMostOnce_of_safe` — in every run of safe moves no row is there twice.

## Implementation notes

The origin of a row is not stored by the program; it says whose row it is. A version of a file is
the key with the digest that the registry has for it. The object under the key is taken to be this
version when it is read, and what a read finds in a file does not depend on the other files that are
read with it.
-/

namespace EntsoePipeline

open Py Transition

/-! ## Rows and their origins -/

/-- A row with its origin. -/
structure Sourced (ρ : Type*) where
  /-- The key of the file. -/
  s3Key : Str
  /-- The digest of the version. -/
  xxhash : Str
  /-- The line of the file. -/
  line : ℕ
  /-- The row. -/
  row : ρ
  deriving DecidableEq

/-- The line of the file version a row comes from. -/
def Sourced.origin {ρ : Type*} (r : Sourced ρ) : Str × Str × ℕ := (r.s3Key, r.xxhash, r.line)

/-- The rows of a file version with their origins. -/
def sourceRows {ρ : Type*} (s3Key xxhash : Str) (rows : List ρ) : List (Sourced ρ) :=
  rows.zipIdx.map fun p => ⟨s3Key, xxhash, p.2, p.1⟩

/-- The rows of a version are its lines. -/
lemma mem_sourceRows {ρ : Type*} {s3Key xxhash : Str} {rows : List ρ} {r : Sourced ρ} :
    r ∈ sourceRows s3Key xxhash rows ↔
      r.s3Key = s3Key ∧ r.xxhash = xxhash ∧ rows[r.line]? = some r.row := by
  rw [sourceRows, List.mem_map]
  constructor
  · rintro ⟨p, hp, rfl⟩
    exact ⟨rfl, rfl, List.mem_zipIdx_iff_getElem?.mp hp⟩
  · rintro ⟨rfl, rfl, hline⟩
    exact ⟨(r.row, r.line), List.mem_zipIdx_iff_getElem?.mpr hline, rfl⟩

/-- Two rows of a version come from different lines. -/
lemma nodup_origin_sourceRows {ρ : Type*} (s3Key xxhash : Str) (rows : List ρ) :
    ((sourceRows s3Key xxhash rows).map Sourced.origin).Nodup := by
  have hlines : ((sourceRows s3Key xxhash rows).map Sourced.line).Nodup := by
    have heq : (sourceRows s3Key xxhash rows).map Sourced.line = rows.zipIdx.map Prod.snd := by
      rw [sourceRows, List.map_map]
      rfl
    rw [heq, List.zipIdx_map_snd]
    exact List.nodup_range'
  have hfactor : (sourceRows s3Key xxhash rows).map Sourced.line =
      ((sourceRows s3Key xxhash rows).map Sourced.origin).map (fun o => o.2.2) := by
    rw [List.map_map]
    rfl
  rw [hfactor] at hlines
  exact hlines.of_map _

section Warehouse

variable {ρ ν : Type*} [DecidableEq ν] (cell : ρ → Str → Option ν) (lakeConfig : LakehouseConfig)
  (config : ClassifierConfig)
  (columns : FmsPublicationSchema → List IngestibleFile → Except LakehouseError Columns)
  (content : FmsPublicationSchema → Str → Str → Except LakehouseError (List ρ))

/-- The cells of a row with an origin. -/
def sourcedCell (r : Sourced ρ) : Str → Option ν := cell r.row

/-- The reader of file versions, which marks each row with its origin. -/
def sourcedReader : LandingReader (Sourced ρ) where
  columns := columns
  load schema _ f := (content schema f.s3Key f.xxhash).map (sourceRows f.s3Key f.xxhash)

/-- The ingest of a contract, with origins. -/
def sourcedIngest : Lakehouse (Sourced ρ) → Str → List IngestibleFile →
    WriteOutcome LakehouseError (Lakehouse (Sourced ρ)) :=
  ingestContract (sourcedCell cell) lakeConfig (sourcedReader columns content)

/-! ## The system -/

/-- What the job and the synchronisation keep, with the contracts that the job has still to do. -/
structure Warehouse (ρ : Type*) where
  /-- `landing_files_registry`. -/
  registry : Dict Str RegistryRow
  /-- `lakehouse_ingestion_registry`. -/
  ledger : List AttemptRow
  /-- The tables. -/
  lakehouse : Lakehouse (Sourced ρ)
  /-- The contracts of the current run that are still to be done. -/
  pending : List (Str × List IngestibleFile)

/-- A move. -/
inductive Move
  /-- A version of a file is registered between two runs. -/
  | register (s3Key : Str) (row : RegistryRow)
  /-- A run begins and fetches the pending files. -/
  | fetch
  /-- The job processes its next contract. -/
  | contract (run : ContractRun)

/-- The contracts that are left after one was processed: none when the job has exited. -/
def remaining {τ : Type*} (rest : List (Str × List IngestibleFile)) :
    Except (JobState τ) (JobState τ) → List (Str × List IngestibleFile)
  | .ok _ => rest
  | .error _ => []

/-- How a move changes the state. -/
inductive WarehouseStep : Warehouse ρ → Move → Warehouse ρ → Prop
  | register {registry ledger lakehouse} (s3Key : Str) (row : RegistryRow) :
      WarehouseStep ⟨registry, ledger, lakehouse, []⟩ (.register s3Key row)
        ⟨registry.set s3Key row, ledger, lakehouse, []⟩
  | fetch {registry ledger lakehouse latest dbRows} (hlatest : Ranks ledger latest)
      (hrows : dbRows.Perm (fetchIncrementalFilesFromDb registry latest)) :
      WarehouseStep ⟨registry, ledger, lakehouse, []⟩ .fetch
        ⟨registry, ledger, lakehouse, (getIncrementalFilesToIngest config dbRows).items⟩
  | contract {registry ledger lakehouse c rest result} (run : ContractRun)
      (hresult : processContract (sourcedIngest cell lakeConfig columns content) (fun _ => run)
        ⟨lakehouse, ledger, 0, 0, []⟩ c = result) :
      WarehouseStep ⟨registry, ledger, lakehouse, c :: rest⟩ (.contract run)
        ⟨registry, (endState result).ledger, (endState result).lakehouse, remaining rest result⟩

/-- The table of every publication has at most one row from each line of each file version. -/
def AtMostOnce (s : Warehouse ρ) : Prop :=
  ∀ n ∈ lakeConfig.publications.keys,
    ((tableRows s.lakehouse (tableName lakeConfig n)).map Sourced.origin).Nodup

/-! ## Safe moves -/

/-- A row that no merge finds again: its contract has no keys, or a key cell is `NULL`. -/
def IsLoose (keys : List Str) (r : Sourced ρ) : Prop :=
  keys = [] ∨ ¬ Sql.NullFree (sourcedCell cell) keys r

instance (keys : List Str) (r : Sourced ρ) : Decidable (IsLoose cell keys r) :=
  inferInstanceAs (Decidable (_ ∨ _))

/-- A file version with a row that no merge finds again. -/
def Unkeyed (s3Key xxhash : Str) : Prop :=
  ∃ n schema rows, contractOf config s3Key = some n ∧ lakeConfig.publications.get? n = some schema ∧
    content schema s3Key xxhash = .ok rows ∧
      ∃ r ∈ sourceRows s3Key xxhash rows, IsLoose cell (contractKeys lakeConfig n) r

/-- An attempt of the version has succeeded. -/
def Ingested (ledger : List AttemptRow) (s3Key xxhash : Str) : Prop :=
  ∃ a ∈ ledger, a.s3Key = s3Key ∧ a.xxhash = xxhash ∧ a.status = .success

/-- A move that loses no success of an unkeyed version and does not bring one back: an unkeyed
version that was ingested is not registered again after another; the success of a contract with an
unkeyed version is committed, with a time later than the earlier attempts of that file; and the keys
of a frame that have no `NULL` are different from each other, unless the merge aborts. -/
def Move.Safe (s : Warehouse ρ) : Move → Prop
  | .register s3Key row =>
      Unkeyed cell lakeConfig config content s3Key row.xxhash →
      Ingested s.ledger s3Key row.xxhash →
      ∃ old, s.registry.get? s3Key = some old ∧ old.xxhash = row.xxhash
  | .fetch => True
  | .contract run => ∀ n files rest, s.pending = (n, files) :: rest →
      (∀ f ∈ files, Unkeyed cell lakeConfig config content f.s3Key f.xxhash →
        run.Recorded ∧ ∀ a ∈ s.ledger, a.s3Key = f.s3Key → a.ingestedAt < run.ingestedAt) ∧
      ∀ schema rows, lakeConfig.publications.get? n = some schema → contractKeys lakeConfig n ≠ [] →
        List.Forall₂ (fun f r => (sourcedReader columns content).load schema files f = .ok r)
          files rows →
        Sql.Ambiguous (sourcedCell cell) (contractKeys lakeConfig n)
            (tableRows s.lakehouse (tableName lakeConfig n)) rows.flatten ∨
          Sql.Unique (sourcedCell cell) (contractKeys lakeConfig n)
            (rows.flatten.filter fun r =>
              Sql.NullFree (sourcedCell cell) (contractKeys lakeConfig n) r)

/-- The empty state. -/
def Warehouse.empty : Warehouse ρ := ⟨∅, [], ∅, []⟩

/-- Every history. -/
def warehouseSystem : System (Warehouse ρ) Move where
  init s := s = .empty
  step s moves s' := ∃ move, moves = [move] ∧
    WarehouseStep cell lakeConfig config columns content s move s'

/-- The histories of safe moves. -/
def safeSystem : System (Warehouse ρ) Move where
  init s := s = .empty
  step s moves s' := ∃ move, moves = [move] ∧
    WarehouseStep cell lakeConfig config columns content s move s' ∧
      Move.Safe cell lakeConfig config columns content s move

/-! ## The invariant -/

variable {cell lakeConfig config columns content}

/-- The row is a line of a file of the contract. -/
def Genuine (content : FmsPublicationSchema → Str → Str → Except LakehouseError (List ρ))
    (config : ClassifierConfig) (n : Str) (schema : FmsPublicationSchema) (r : Sourced ρ) : Prop :=
  contractOf config r.s3Key = some n ∧
    ∃ rows, content schema r.s3Key r.xxhash = .ok rows ∧ rows[r.line]? = some r.row

/-- A genuine row is determined by its origin. -/
lemma Genuine.eq_of_origin_eq {n : Str} {schema : FmsPublicationSchema} {r r' : Sourced ρ}
    (h : Genuine content config n schema r) (h' : Genuine content config n schema r')
    (horigin : r.origin = r'.origin) : r = r' := by
  obtain ⟨s3Key, xxhash, line, row⟩ := r
  obtain ⟨s3Key', xxhash', line', row'⟩ := r'
  simp only [Sourced.origin, Prod.mk.injEq] at horigin
  obtain ⟨rfl, rfl, rfl⟩ := horigin
  obtain ⟨-, rows, hrows, hrow⟩ := h
  obtain ⟨-, rows', hrows', hrow'⟩ := h'
  rw [hrows, Except.ok.injEq] at hrows'
  subst hrows'
  rw [hrow, Option.some.injEq] at hrow'
  obtain rfl : row = row' := hrow'
  rfl

omit [DecidableEq ν] in
/-- A genuine row that no merge finds makes its version unkeyed. -/
lemma Genuine.unkeyed {n : Str} {schema : FmsPublicationSchema} {r : Sourced ρ}
    (hschema : lakeConfig.publications.get? n = some schema)
    (h : Genuine content config n schema r) (hloose : IsLoose cell (contractKeys lakeConfig n) r) :
    Unkeyed cell lakeConfig config content r.s3Key r.xxhash := by
  obtain ⟨hcontract, rows, hrows, hrow⟩ := h
  exact ⟨n, schema, rows, hcontract, hschema, hrows, r, mem_sourceRows.mpr ⟨rfl, rfl, hrow⟩, hloose⟩

variable (cell lakeConfig config content) in
/-- The table of a contract is sound: its rows are genuine, the keys without a `NULL` are unique,
and the rows that no merge finds have different origins and belong to versions that were
ingested. -/
structure TableSound (ledger : List AttemptRow) (n : Str) (schema : FmsPublicationSchema)
    (rows : List (Sourced ρ)) : Prop where
  genuine : ∀ r ∈ rows, Genuine content config n schema r
  unique : contractKeys lakeConfig n ≠ [] →
    Sql.Unique (sourcedCell cell) (contractKeys lakeConfig n)
      (rows.filter fun r => Sql.NullFree (sourcedCell cell) (contractKeys lakeConfig n) r)
  loose_nodup : ((rows.filter fun r => IsLoose cell (contractKeys lakeConfig n) r).map
    Sourced.origin).Nodup
  recorded : ∀ r ∈ rows, IsLoose cell (contractKeys lakeConfig n) r →
    Ingested ledger r.s3Key r.xxhash

/-- A sound table has at most one row of each origin.

**Proof sketch.** Two rows of one origin are equal. Rows with a key have different keys, and the
others different origins. -/
lemma TableSound.nodup_origin {ledger : List AttemptRow} {n : Str} {schema : FmsPublicationSchema}
    {rows : List (Sourced ρ)} (h : TableSound cell lakeConfig config content ledger n schema rows) :
    (rows.map Sourced.origin).Nodup := by
  set loose := fun r : Sourced ρ => decide (IsLoose cell (contractKeys lakeConfig n) r) with hloose
  have hperm := (List.filter_append_perm loose rows).map Sourced.origin
  refine hperm.nodup_iff.mp ?_
  rw [List.map_append, List.nodup_append]
  refine ⟨h.loose_nodup, ?_, ?_⟩
  · by_cases hkeys : contractKeys lakeConfig n = []
    · have hnone : rows.filter (fun r => !loose r) = [] := by
        refine List.filter_eq_nil_iff.mpr fun r _ => ?_
        simp [hloose, IsLoose, hkeys]
      rw [hnone]
      exact List.nodup_nil
    · have htight : rows.filter (fun r => !loose r) =
          rows.filter fun r => Sql.NullFree (sourcedCell cell) (contractKeys lakeConfig n) r := by
        refine List.filter_congr fun r _ => ?_
        simp [hloose, IsLoose, hkeys]
      rw [htight, List.nodup_iff_pairwise_ne, List.pairwise_map]
      have hunique := h.unique hkeys
      rw [Sql.Unique, List.nodup_iff_pairwise_ne, List.pairwise_map] at hunique
      refine hunique.imp_of_mem ?_
      intro r r' hr hr' hne horigin
      have heq := (h.genuine r (List.mem_filter.mp hr).1).eq_of_origin_eq
        (h.genuine r' (List.mem_filter.mp hr').1) horigin
      rw [heq] at hne
      exact hne rfl
  · rintro a ha b hb rfl
    obtain ⟨r, hr, horigin⟩ := List.mem_map.mp ha
    obtain ⟨r', hr', horigin'⟩ := List.mem_map.mp hb
    obtain ⟨hr, hrloose⟩ := List.mem_filter.mp hr
    obtain ⟨hr', hrtight⟩ := List.mem_filter.mp hr'
    have heq := (h.genuine r hr).eq_of_origin_eq (h.genuine r' hr') (horigin.trans horigin'.symm)
    rw [← heq, hrloose] at hrtight
    cases hrtight

/-- A larger ledger records what a smaller one does. -/
lemma TableSound.mono {ledger ledger' : List AttemptRow} {n : Str} {schema : FmsPublicationSchema}
    {rows : List (Sourced ρ)} (h : TableSound cell lakeConfig config content ledger n schema rows)
    (hsub : ledger ⊆ ledger') : TableSound cell lakeConfig config content ledger' n
      schema rows where
  genuine := h.genuine
  unique := h.unique
  loose_nodup := h.loose_nodup
  recorded r hr hloose := by
    obtain ⟨a, ha, hattempt⟩ := h.recorded r hr hloose
    exact ⟨a, hsub ha, hattempt⟩

/-- A write keeps the rows that no merge finds and adds those of the frame. -/
lemma filter_isLoose_writeRows {keys : List Str} {old new result : List (Sourced ρ)}
    (h : writeRows (sourcedCell cell) keys old new = some result) :
    result.filter (fun r => IsLoose cell keys r) =
      old.filter (fun r => IsLoose cell keys r) ++ new.filter (fun r => IsLoose cell keys r) := by
  by_cases hkeys : keys = []
  · rw [writeRows, if_pos hkeys, Option.some.injEq] at h
    rw [← h, List.filter_append]
  · rw [writeRows, if_neg hkeys] at h
    have hloose : ∀ l : List (Sourced ρ), l.filter (fun r => IsLoose cell keys r) =
        l.filter fun r => ¬ Sql.NullFree (sourcedCell cell) keys r := by
      intro l
      refine List.filter_congr fun r _ => ?_
      simp [IsLoose, hkeys]
    rw [hloose, hloose, hloose]
    exact Sql.filter_not_nullFree_merge h

/-- A row after a write was there before or is in the frame. -/
lemma mem_or_mem_of_mem_writeRows {keys : List Str} {old new result : List (Sourced ρ)}
    (h : writeRows (sourcedCell cell) keys old new = some result) {r : Sourced ρ}
    (hr : r ∈ result) : r ∈ old ∨ r ∈ new := by
  by_cases hkeys : keys = []
  · rw [writeRows, if_pos hkeys, Option.some.injEq] at h
    rw [← h] at hr
    exact List.mem_append.mp hr
  · rw [writeRows, if_neg hkeys] at h
    exact Sql.mem_or_mem_of_mem_merge h hr

/-- **A write keeps a table sound** when the frame is genuine, its keys without a `NULL` are unique,
and its versions with rows that no merge finds were not ingested before and are now. -/
lemma TableSound.write {ledger ledger' : List AttemptRow} {n : Str} {schema : FmsPublicationSchema}
    {old new result : List (Sourced ρ)}
    (h : TableSound cell lakeConfig config content ledger n schema old)
    (hwrite : writeRows (sourcedCell cell) (contractKeys lakeConfig n) old new = some result)
    (hgenuine : ∀ r ∈ new, Genuine content config n schema r)
    (hnodup : (new.map Sourced.origin).Nodup)
    (hunique : contractKeys lakeConfig n ≠ [] →
      Sql.Ambiguous (sourcedCell cell) (contractKeys lakeConfig n) old new ∨
        Sql.Unique (sourcedCell cell) (contractKeys lakeConfig n)
          (new.filter fun r => Sql.NullFree (sourcedCell cell) (contractKeys lakeConfig n) r))
    (hfresh : ∀ r ∈ new, IsLoose cell (contractKeys lakeConfig n) r →
      ¬ Ingested ledger r.s3Key r.xxhash)
    (hsub : ledger ⊆ ledger')
    (hrecorded : ∀ r ∈ new, IsLoose cell (contractKeys lakeConfig n) r →
      Ingested ledger' r.s3Key r.xxhash) :
    TableSound cell lakeConfig config content ledger' n schema result where
  genuine r hr := (mem_or_mem_of_mem_writeRows hwrite hr).elim (h.genuine r) (hgenuine r)
  unique hkeys := by
    rw [writeRows, if_neg hkeys] at hwrite
    have hnot := (Sql.merge_eq_some_iff.mp hwrite).1
    exact Sql.unique_nullFree_merge (h.unique hkeys) ((hunique hkeys).resolve_left hnot) hwrite
  loose_nodup := by
    rw [filter_isLoose_writeRows hwrite, List.map_append, List.nodup_append]
    refine ⟨h.loose_nodup, hnodup.sublist (List.filter_sublist.map _), ?_⟩
    rintro a ha b hb rfl
    obtain ⟨r, hr, horigin⟩ := List.mem_map.mp ha
    obtain ⟨r', hr', horigin'⟩ := List.mem_map.mp hb
    obtain ⟨hr, hloose⟩ := List.mem_filter.mp hr
    obtain ⟨hr', hloose'⟩ := List.mem_filter.mp hr'
    have heq : r'.origin = r.origin := horigin'.trans horigin.symm
    simp only [Sourced.origin, Prod.mk.injEq] at heq
    refine hfresh r' hr' (by simpa using hloose') ?_
    rw [heq.1, heq.2.1]
    exact h.recorded r hr (by simpa using hloose)
  recorded r hr hloose := by
    rcases mem_or_mem_of_mem_writeRows hwrite hr with hold | hnew
    · exact (h.mono hsub).recorded r hold hloose
    · exact hrecorded r hnew hloose

/-! ### The state -/

variable (cell lakeConfig config content) in
/-- The state is sound: the tables are; the latest attempt of a registered unkeyed version that was
ingested is its success; and the files in the hands of the job are registered, have different keys,
and were not ingested if they are unkeyed. -/
structure Sound (s : Warehouse ρ) : Prop where
  tables : ∀ n schema, lakeConfig.publications.get? n = some schema →
    TableSound cell lakeConfig config content s.ledger n schema
      (tableRows s.lakehouse (tableName lakeConfig n))
  settled : ∀ s3Key row, s.registry.get? s3Key = some row →
    Unkeyed cell lakeConfig config content s3Key row.xxhash →
    Ingested s.ledger s3Key row.xxhash → ∀ li ∈ s.ledger, li.s3Key = s3Key →
    (∀ a ∈ s.ledger, a.s3Key = s3Key → a.ingestedAt ≤ li.ingestedAt) →
    li.status = .success ∧ li.xxhash = row.xxhash
  registered : ∀ c ∈ s.pending, ∀ f ∈ c.2, contractOf config f.s3Key = some c.1 ∧
    ∃ row, s.registry.get? f.s3Key = some row ∧ row.xxhash = f.xxhash
  fresh : ∀ c ∈ s.pending, ∀ f ∈ c.2, Unkeyed cell lakeConfig config content f.s3Key f.xxhash →
    ¬ Ingested s.ledger f.s3Key f.xxhash
  distinct : ((s.pending.flatMap Prod.snd).map IngestibleFile.s3Key).Nodup

/-- The empty warehouse is sound. -/
lemma sound_empty : Sound cell lakeConfig config content (Warehouse.empty : Warehouse ρ) where
  tables n schema _ := by
    have hrows : tableRows (Warehouse.empty : Warehouse ρ).lakehouse (tableName lakeConfig n) =
        [] :=
      rfl
    rw [hrows]
    exact ⟨by simp, fun _ => List.nodup_nil, List.nodup_nil, by simp⟩
  settled s3Key row hget := by
    cases hget
  registered c hc := by
    cases hc
  fresh c hc := by
    cases hc
  distinct := List.nodup_nil

/-- A registration keeps the state sound. -/
lemma sound_register {registry : Dict Str RegistryRow} {ledger : List AttemptRow}
    {lakehouse : Lakehouse (Sourced ρ)} {s3Key : Str} {row : RegistryRow}
    (h : Sound cell lakeConfig config content ⟨registry, ledger, lakehouse, []⟩)
    (hsafe : Unkeyed cell lakeConfig config content s3Key row.xxhash →
      Ingested ledger s3Key row.xxhash →
      ∃ old, registry.get? s3Key = some old ∧ old.xxhash = row.xxhash) :
    Sound cell lakeConfig config content ⟨registry.set s3Key row, ledger, lakehouse, []⟩ where
  tables := h.tables
  settled s3Key' row' hget hunkeyed hingested := by
    by_cases hkey : s3Key' = s3Key
    · subst hkey
      rw [Dict.get?_set_self, Option.some.injEq] at hget
      subst hget
      obtain ⟨old, hold, hhash⟩ := hsafe hunkeyed hingested
      rw [← hhash] at hunkeyed hingested ⊢
      exact h.settled s3Key' old hold hunkeyed hingested
    · rw [Dict.get?_set_of_ne _ _ hkey] at hget
      exact h.settled s3Key' row' hget hunkeyed hingested
  registered c hc := by
    cases hc
  fresh c hc := by
    cases hc
  distinct := List.nodup_nil

/-- The keys of the accepted files are different. -/
lemma nodup_acceptedFiles {registry : Dict Str RegistryRow} {latest : Str → Option AttemptRow}
    {dbRows : List PendingRow}
    (hrows : dbRows.Perm (fetchIncrementalFilesFromDb registry latest)) :
    ((acceptedFiles config dbRows).map IngestibleFile.s3Key).Nodup := by
  have hkeys : (dbRows.map PendingRow.s3Key).Nodup := by
    refine (hrows.map _).nodup_iff.mpr ?_
    have heq : (fetchIncrementalFilesFromDb registry latest).map PendingRow.s3Key =
        (registry.items.filter fun lfr => isPending lfr.2.xxhash (latest lfr.1)).map Prod.fst := by
      rw [fetchIncrementalFilesFromDb, List.map_map]
      rfl
    rw [heq]
    exact registry.nodup.sublist (List.filter_sublist.map _)
  rw [List.nodup_iff_pairwise_ne, List.pairwise_map] at hkeys ⊢
  rw [acceptedFiles, List.pairwise_filterMap]
  refine hkeys.imp ?_
  intro r r' hne f hf f' hf'
  rw [(contractOf_of_gateRow hf).1, (contractOf_of_gateRow hf').1]
  exact hne

/-- A fetch keeps the state sound: an unkeyed version that was ingested is not pending, as its
success is its latest attempt. -/
lemma sound_fetch {registry : Dict Str RegistryRow} {ledger : List AttemptRow}
    {lakehouse : Lakehouse (Sourced ρ)} {latest : Str → Option AttemptRow}
    {dbRows : List PendingRow}
    (h : Sound cell lakeConfig config content ⟨registry, ledger, lakehouse, []⟩)
    (hlatest : Ranks ledger latest)
    (hrows : dbRows.Perm (fetchIncrementalFilesFromDb registry latest)) :
    Sound cell lakeConfig config content
      ⟨registry, ledger, lakehouse, (getIncrementalFilesToIngest config dbRows).items⟩ := by
  have haccepted : ∀ c ∈ (getIncrementalFilesToIngest config dbRows).items, ∀ f ∈ c.2,
      f.fmsName = c.1 ∧ ∃ row, registry.get? f.s3Key = some row ∧
        isPending row.xxhash (latest f.s3Key) = true ∧
        gateRow config (pendingRow f.s3Key row) = some f := by
    rintro ⟨n, files⟩ hc f hf
    have hmem := mem_getIncrementalFilesToIngest.mp ⟨files, Dict.mem_items_iff.mp hc, hf⟩
    exact ⟨hmem.2, (mem_acceptedFiles hrows).mp (List.mem_filterMap.mpr hmem.1)⟩
  refine ⟨h.tables, h.settled, ?_, ?_, ?_⟩
  · intro c hc f hf
    obtain ⟨hname, row, hget, -, hgate⟩ := haccepted c hc f hf
    obtain ⟨-, hhash, hcontract⟩ := contractOf_of_gateRow hgate
    exact ⟨hname ▸ hcontract, row, hget, hhash.symm⟩
  · intro c hc f hf hunkeyed hingested
    obtain ⟨-, row, hget, hpending, hgate⟩ := haccepted c hc f hf
    have hhash : f.xxhash = row.xxhash := (contractOf_of_gateRow hgate).2.1
    rw [hhash] at hunkeyed hingested
    have hrank := hlatest f.s3Key
    cases hli : latest f.s3Key with
    | none =>
      rw [hli] at hrank
      obtain ⟨a, ha, hkey, -⟩ := hingested
      exact hrank a ha hkey
    | some li =>
      rw [hli] at hrank hpending
      obtain ⟨hstatus, hlihash⟩ := h.settled f.s3Key row hget hunkeyed hingested li hrank.1
        hrank.2.1 hrank.2.2
      simp [isPending, hstatus, hlihash] at hpending
  · exact ((flatMap_getIncrementalFilesToIngest config dbRows).map _).nodup_iff.mpr
      (nodup_acceptedFiles hrows)

/-! ### A pass of the job -/

section Frame

variable {schema : FmsPublicationSchema} {batch files : List IngestibleFile}
  {rows : List (List (Sourced ρ))}

/-- A row of the frame is a line of one of the files. -/
lemma mem_flatten_loaded
    (h : List.Forall₂ (fun f r => (sourcedReader columns content).load schema batch f = .ok r)
      files rows)
    {r : Sourced ρ} (hr : r ∈ rows.flatten) :
    ∃ f ∈ files, r.s3Key = f.s3Key ∧ r.xxhash = f.xxhash ∧
      ∃ lines, content schema f.s3Key f.xxhash = .ok lines ∧ lines[r.line]? = some r.row := by
  induction h with
  | nil => cases hr
  | @cons f loaded files rows hload _ ih =>
    rw [List.flatten_cons, List.mem_append] at hr
    rcases hr with hr | hr
    · cases hcontent : content schema f.s3Key f.xxhash with
      | error e =>
        simp only [sourcedReader, hcontent, Except.map] at hload
        cases hload
      | ok lines =>
        simp only [sourcedReader, hcontent, Except.map, Except.ok.injEq] at hload
        rw [← hload, mem_sourceRows] at hr
        exact ⟨f, List.mem_cons_self, hr.1, hr.2.1, lines, hcontent, hr.2.2⟩
    · obtain ⟨g, hg, hrow⟩ := ih hr
      exact ⟨g, List.mem_cons_of_mem _ hg, hrow⟩

/-- The rows of a frame of different files have different origins. -/
lemma nodup_origin_flatten
    (h : List.Forall₂ (fun f r => (sourcedReader columns content).load schema batch f = .ok r)
      files rows)
    (hkeys : (files.map IngestibleFile.s3Key).Nodup) :
    (rows.flatten.map Sourced.origin).Nodup := by
  induction h with
  | nil => exact List.nodup_nil
  | @cons f loaded files rows hload htail ih =>
    rw [List.map_cons, List.nodup_cons] at hkeys
    have hloaded : ∃ lines, loaded = sourceRows f.s3Key f.xxhash lines := by
      cases hcontent : content schema f.s3Key f.xxhash with
      | error e =>
        simp only [sourcedReader, hcontent, Except.map] at hload
        cases hload
      | ok lines =>
        simp only [sourcedReader, hcontent, Except.map, Except.ok.injEq] at hload
        exact ⟨lines, hload.symm⟩
    obtain ⟨lines, rfl⟩ := hloaded
    rw [List.flatten_cons, List.map_append, List.nodup_append]
    refine ⟨nodup_origin_sourceRows _ _ _, ih hkeys.2, ?_⟩
    rintro o ho o' ho' rfl
    obtain ⟨r, hr, rfl⟩ := List.mem_map.mp ho
    obtain ⟨r', hr', horigin⟩ := List.mem_map.mp ho'
    obtain ⟨g, hg, hkey, -⟩ := mem_flatten_loaded htail hr'
    have hsame : r'.s3Key = r.s3Key := congrArg Prod.fst horigin
    rw [(mem_sourceRows.mp hr).1, hkey] at hsame
    exact hkeys.1 (hsame ▸ List.mem_map_of_mem hg)

end Frame

section Contract

variable {registry : Dict Str RegistryRow} {ledger : List AttemptRow}
  {lakehouse : Lakehouse (Sourced ρ)} {n : Str} {files : List IngestibleFile}
  {rest pending' : List (Str × List IngestibleFile)} {run : ContractRun}
  {final : JobState (Lakehouse (Sourced ρ))}

/-- The rows that are loaded for a contract are lines of registered file versions. -/
lemma genuine_of_loaded {schema : FmsPublicationSchema} {rows : List (List (Sourced ρ))}
    (h : Sound cell lakeConfig config content ⟨registry, ledger, lakehouse, (n, files) :: rest⟩)
    (hrows : List.Forall₂ (fun f r => (sourcedReader columns content).load schema files f = .ok r)
      files rows)
    {r : Sourced ρ} (hr : r ∈ rows.flatten) : Genuine content config n schema r := by
  obtain ⟨f, hf, hkey, hhash, hline⟩ := mem_flatten_loaded hrows hr
  have hcontract := (h.registered _ List.mem_cons_self f hf).1
  rw [← hkey] at hcontract hline
  rw [← hhash] at hline
  exact ⟨hcontract, hline⟩

/-- A loaded row without keys comes from a file version without keys. -/
lemma exists_unkeyed_of_loose {schema : FmsPublicationSchema} {rows : List (List (Sourced ρ))}
    (h : Sound cell lakeConfig config content ⟨registry, ledger, lakehouse, (n, files) :: rest⟩)
    (hschema : lakeConfig.publications.get? n = some schema)
    (hrows : List.Forall₂ (fun f r => (sourcedReader columns content).load schema files f = .ok r)
      files rows)
    {r : Sourced ρ} (hr : r ∈ rows.flatten) (hloose : IsLoose cell (contractKeys lakeConfig n) r) :
    ∃ f ∈ files, r.s3Key = f.s3Key ∧ r.xxhash = f.xxhash ∧
      Unkeyed cell lakeConfig config content f.s3Key f.xxhash := by
  obtain ⟨f, hf, hkey, hhash, -⟩ := mem_flatten_loaded hrows hr
  have hun := (genuine_of_loaded h hrows hr).unkeyed hschema hloose
  rw [hkey, hhash] at hun
  exact ⟨f, hf, hkey, hhash, hun⟩

/-- A pending file of a contract is the registered version of its key. -/
lemma xxhash_eq_of_registered
    (h : Sound cell lakeConfig config content ⟨registry, ledger, lakehouse, (n, files) :: rest⟩)
    {f : IngestibleFile} (hf : f ∈ files) {row : RegistryRow}
    (hget : registry.get? f.s3Key = some row) : f.xxhash = row.xxhash := by
  obtain ⟨-, row', hget', hhash⟩ := h.registered _ List.mem_cons_self f hf
  rw [hget, Option.some.injEq] at hget'
  rw [← hhash, hget']

/-- The tables after a pass of the job. -/
lemma tables_contract
    (hinj : Set.InjOn (tableName lakeConfig) {n | n ∈ lakeConfig.publications.keys})
    (h : Sound cell lakeConfig config content ⟨registry, ledger, lakehouse, (n, files) :: rest⟩)
    (hunkeyed : ∀ f ∈ files, Unkeyed cell lakeConfig config content f.s3Key f.xxhash →
      run.Recorded)
    (hframe : ∀ schema rows, lakeConfig.publications.get? n = some schema →
      contractKeys lakeConfig n ≠ [] →
      List.Forall₂ (fun f r => (sourcedReader columns content).load schema files f = .ok r)
        files rows →
      Sql.Ambiguous (sourcedCell cell) (contractKeys lakeConfig n)
          (tableRows lakehouse (tableName lakeConfig n)) rows.flatten ∨
        Sql.Unique (sourcedCell cell) (contractKeys lakeConfig n)
          (rows.flatten.filter fun r =>
            Sql.NullFree (sourcedCell cell) (contractKeys lakeConfig n) r))
    (heffect : PassEffect (sourcedIngest cell lakeConfig columns content) run (n, files)
      ⟨lakehouse, ledger, 0, 0, []⟩ final) {m : Str} {schema : FmsPublicationSchema}
    (hm : lakeConfig.publications.get? m = some schema) :
    TableSound cell lakeConfig config content final.ledger m schema
      (tableRows final.lakehouse (tableName lakeConfig m)) := by
  obtain ⟨added, hledger, -, hcase⟩ := heffect
  have hsub : ledger ⊆ final.ledger := by
    rw [hledger]
    exact List.subset_append_left _ _
  rcases hcase with ⟨hlake, -⟩ | ⟨hingest, hrecorded⟩
  · have hsame : tableRows final.lakehouse (tableName lakeConfig m) =
        tableRows lakehouse (tableName lakeConfig m) := by
      rcases hlake with hlake | hlake
      · rw [hlake]
      · rw [hlake]
        exact tableRows_ingestContract_prepared _
    rw [hsame]
    exact (h.tables m schema hm).mono hsub
  · obtain ⟨schema', rows, hn, hrows, hwrite, hother⟩ := ingestContract_spec hingest
    by_cases hname : m = n
    · subst hname
      rw [hm, Option.some.injEq] at hn
      subst hn
      have hdistinct := h.distinct
      rw [List.flatMap_cons, List.map_append] at hdistinct
      refine (h.tables m schema hm).write hwrite (fun r hr => genuine_of_loaded h hrows hr)
        (nodup_origin_flatten hrows hdistinct.of_append_left)
        (fun hkeys => hframe schema rows hm hkeys hrows) ?_ hsub ?_
      · intro r hr hloose
        obtain ⟨f, hf, hkey, hhash, hun⟩ := exists_unkeyed_of_loose h hm hrows hr hloose
        rw [hkey, hhash]
        exact h.fresh _ List.mem_cons_self f hf hun
      · intro r hr hloose
        obtain ⟨f, hf, hkey, hhash, hun⟩ := exists_unkeyed_of_loose h hm hrows hr hloose
        rw [hkey, hhash]
        refine ⟨⟨f.s3Key, f.xxhash, run.ingestedAt, .success⟩, ?_, rfl, rfl, rfl⟩
        rw [hledger, hrecorded (hunkeyed f hf hun)]
        exact List.mem_append_right _ (mem_attemptRows.mpr ⟨f, hf, rfl⟩)
    · have hne : tableName lakeConfig m ≠ tableName lakeConfig n := fun heq =>
        hname (hinj (Dict.mem_keys_iff.mpr ⟨_, hm⟩) (Dict.mem_keys_iff.mpr ⟨_, hn⟩) heq)
      rw [hother _ hne]
      exact (h.tables m schema hm).mono hsub

/-- The latest attempts after a pass of the job. -/
lemma settled_contract
    (h : Sound cell lakeConfig config content ⟨registry, ledger, lakehouse, (n, files) :: rest⟩)
    (hunkeyed : ∀ f ∈ files, Unkeyed cell lakeConfig config content f.s3Key f.xxhash →
      run.Recorded ∧ ∀ a ∈ ledger, a.s3Key = f.s3Key → a.ingestedAt < run.ingestedAt)
    (heffect : PassEffect (sourcedIngest cell lakeConfig columns content) run (n, files)
      ⟨lakehouse, ledger, 0, 0, []⟩ final) {s3Key : Str} {row : RegistryRow}
    (hget : registry.get? s3Key = some row)
    (hversion : Unkeyed cell lakeConfig config content s3Key row.xxhash)
    (hingested : Ingested final.ledger s3Key row.xxhash) {li : AttemptRow}
    (hli : li ∈ final.ledger) (hlikey : li.s3Key = s3Key)
    (hmax : ∀ a ∈ final.ledger, a.s3Key = s3Key → a.ingestedAt ≤ li.ingestedAt) :
    li.status = .success ∧ li.xxhash = row.xxhash := by
  obtain ⟨added, hledger, hattempts, hcase⟩ := heffect
  rw [hledger] at hingested hli hmax
  -- a file of the contract under this key is the registered version
  have hfile : ∀ f ∈ files, f.s3Key = s3Key → f.xxhash = row.xxhash := by
    rintro f hf rfl
    exact xxhash_eq_of_registered h hf hget
  obtain ⟨a, ha, hakey, hahash, hastatus⟩ := hingested
  rcases List.mem_append.mp ha with hold | hnew
  · have hnone : ∀ b ∈ added, b.s3Key ≠ s3Key := by
      intro b hb hbkey
      obtain ⟨status, hb⟩ := hattempts b hb
      obtain ⟨f, hf, rfl⟩ := mem_attemptRows.mp hb
      have hhash := hfile f hf hbkey
      obtain rfl : f.s3Key = s3Key := hbkey
      rw [← hhash] at hversion hahash
      exact h.fresh _ List.mem_cons_self f hf hversion ⟨a, hold, hakey, hahash, hastatus⟩
    have hliold : li ∈ ledger :=
      (List.mem_append.mp hli).resolve_right fun hb => hnone li hb hlikey
    exact h.settled s3Key row hget hversion ⟨a, hold, hakey, hahash, hastatus⟩ li hliold hlikey
      fun b hb => hmax b (List.mem_append_left _ hb)
  · rcases hcase with ⟨-, hfailed⟩ | ⟨-, hrecorded⟩
    · rw [hfailed a hnew] at hastatus
      cases hastatus
    · obtain ⟨status, hattempt⟩ := hattempts a hnew
      obtain ⟨f, hf, rfl⟩ := mem_attemptRows.mp hattempt
      obtain rfl : f.s3Key = s3Key := hakey
      rw [← hfile f hf rfl] at hversion
      obtain ⟨hrun, hlater⟩ := hunkeyed f hf hversion
      rcases List.mem_append.mp hli with hliold | hlinew
      · have hlt := hlater li hliold hlikey
        have hle : run.ingestedAt ≤ li.ingestedAt := hmax _ ha rfl
        omega
      · rw [hrecorded hrun] at hlinew
        obtain ⟨g, hg, rfl⟩ := mem_attemptRows.mp hlinew
        exact ⟨rfl, hfile g hg hlikey⟩

/-- **A pass of the job keeps the state sound** when it is safe. -/
lemma sound_contract
    (hinj : Set.InjOn (tableName lakeConfig) {n | n ∈ lakeConfig.publications.keys})
    (h : Sound cell lakeConfig config content ⟨registry, ledger, lakehouse, (n, files) :: rest⟩)
    (hunkeyed : ∀ f ∈ files, Unkeyed cell lakeConfig config content f.s3Key f.xxhash →
      run.Recorded ∧ ∀ a ∈ ledger, a.s3Key = f.s3Key → a.ingestedAt < run.ingestedAt)
    (hframe : ∀ schema rows, lakeConfig.publications.get? n = some schema →
      contractKeys lakeConfig n ≠ [] →
      List.Forall₂ (fun f r => (sourcedReader columns content).load schema files f = .ok r)
        files rows →
      Sql.Ambiguous (sourcedCell cell) (contractKeys lakeConfig n)
          (tableRows lakehouse (tableName lakeConfig n)) rows.flatten ∨
        Sql.Unique (sourcedCell cell) (contractKeys lakeConfig n)
          (rows.flatten.filter fun r =>
            Sql.NullFree (sourcedCell cell) (contractKeys lakeConfig n) r))
    (heffect : PassEffect (sourcedIngest cell lakeConfig columns content) run (n, files)
      ⟨lakehouse, ledger, 0, 0, []⟩ final) (hpending : pending' = rest ∨ pending' = []) :
    Sound cell lakeConfig config content ⟨registry, final.ledger, final.lakehouse, pending'⟩ := by
  have hdistinct := h.distinct
  rw [List.flatMap_cons, List.map_append] at hdistinct
  have hrest : ∀ c ∈ pending', c ∈ rest := by
    rcases hpending with rfl | rfl
    · exact fun c hc => hc
    · exact fun c hc => by cases hc
  refine ⟨fun m schema hm => tables_contract hinj h (fun f hf hun => (hunkeyed f hf hun).1) hframe
    heffect hm, ?_, ?_, ?_, ?_⟩
  · intro s3Key row hget hversion hingested li hli hlikey hmax
    exact settled_contract h hunkeyed heffect hget hversion hingested hli hlikey hmax
  · exact fun c hc => h.registered c (List.mem_cons_of_mem _ (hrest c hc))
  · intro c hc f hf hversion hingested
    obtain ⟨added, hledger, hattempts, -⟩ := heffect
    rw [hledger] at hingested
    obtain ⟨a, ha, hakey, hahash, hastatus⟩ := hingested
    rcases List.mem_append.mp ha with hold | hnew
    · exact h.fresh c (List.mem_cons_of_mem _ (hrest c hc)) f hf hversion
        ⟨a, hold, hakey, hahash, hastatus⟩
    · -- the keys of the other contracts are different
      obtain ⟨status, hattempt⟩ := hattempts a hnew
      obtain ⟨g, hg, rfl⟩ := mem_attemptRows.mp hattempt
      have hne := (List.nodup_append.mp hdistinct).2.2 _ (List.mem_map_of_mem hg) _
        (List.mem_map_of_mem (List.mem_flatMap.mpr ⟨c, hrest c hc, hf⟩))
      exact hne hakey
  · rcases hpending with rfl | rfl
    · exact hdistinct.of_append_right
    · exact List.nodup_nil

end Contract

/-- A safe move keeps the state sound. -/
lemma sound_step (hinj : Set.InjOn (tableName lakeConfig) {n | n ∈ lakeConfig.publications.keys})
    {s s' : Warehouse ρ} {move : Move} (h : Sound cell lakeConfig config content s)
    (hstep : WarehouseStep cell lakeConfig config columns content s move s')
    (hsafe : move.Safe cell lakeConfig config columns content s) :
    Sound cell lakeConfig config content s' := by
  cases hstep with
  | register s3Key row => exact sound_register h hsafe
  | fetch hlatest hrows => exact sound_fetch h hlatest hrows
  | @contract registry ledger lakehouse c rest result run hresult =>
    obtain ⟨n, files⟩ := c
    obtain ⟨hunkeyed, hframe⟩ := hsafe n files rest rfl
    subst hresult
    refine sound_contract hinj h hunkeyed hframe (processContract_passEffect run _ _) ?_
    cases processContract (sourcedIngest cell lakeConfig columns content) (fun _ => run)
        ⟨lakehouse, ledger, 0, 0, []⟩ (n, files) with
    | ok st => exact Or.inl rfl
    | error st => exact Or.inr rfl

/-- **Exactly once.** When no two publications share a table, then in every history of safe moves no
line of a file version is in its table more than once.

**Proof sketch.** Rows with a key are found again by the merge and written over. A version with
other rows is written once: its success is committed and stays its latest attempt, so that it is not
pending while it is registered, and it does not come back after another version. -/
theorem atMostOnce_of_safe
    (hinj : Set.InjOn (tableName lakeConfig) {n | n ∈ lakeConfig.publications.keys})
    {moves : List Move} {s : Warehouse ρ}
    (hreach : (safeSystem cell lakeConfig config columns content).Reach moves s) :
    AtMostOnce lakeConfig s := by
  have hsound : Sound cell lakeConfig config content s := by
    refine @System.Reach.invariant _ _ (safeSystem cell lakeConfig config columns content)
      (fun _ s => Sound cell lakeConfig config content s) ?_ ?_ moves s hreach
    · rintro s rfl
      exact sound_empty
    · rintro _ _ s s' h ⟨move, -, hstep, hsafe⟩
      exact sound_step hinj h hstep hsafe
  intro n hn
  obtain ⟨schema, hschema⟩ := Dict.mem_keys_iff.mp hn
  exact (hsound.tables n schema hschema).nodup_origin

end Warehouse

/-! ## A publication without keys -/

/-- The key of a file of a publication that declares no columns. -/
def noticeKey : Str := "iop/TP_export/OtherMarketInformation/OtherMarketInformation_r3/a.csv".toList

/-- Its table. -/
def noticeTable : Str := "lakehouse.staging.`othermarketinformation_r3`".toList

/-- The shipped publication, which declares no columns. -/
def noticeConfig : LakehouseConfig := singlePublication "OtherMarketInformation_r3" ⟨[]⟩

/-- The registry with the file. -/
def noticeRegistry : Dict Str RegistryRow :=
  (∅ : Dict Str RegistryRow).set noticeKey ⟨"a.csv".toList, "1".toList, 1, "h".toList⟩

/-- The contract of the file. -/
def noticeContract : Str × List IngestibleFile :=
  ("OtherMarketInformation_r3".toList, [⟨noticeKey, "h".toList, 1, "OtherMarketInformation".toList,
    "OtherMarketInformation_r3".toList⟩])

/-- The one row of the file. -/
def noticeRow : Sourced Unit := ⟨noticeKey, "h".toList, 0, ()⟩

/-- An attempt of the file. -/
def noticeAttempt (ingestedAt : ℤ) (status : AttemptStatus) : AttemptRow :=
  ⟨noticeKey, "h".toList, ingestedAt, status⟩

/-- Spark finds one column in every file. -/
def noticeColumns (_ : FmsPublicationSchema) (_ : List IngestibleFile) :
    Except LakehouseError Columns :=
  .ok [("text".toList, .string)]

/-- The table with some rows. -/
def noticeLakehouse (rows : List (Sourced Unit)) : Lakehouse (Sourced Unit) :=
  (∅ : Lakehouse _).set noticeTable ⟨[("text".toList, .string)], rows⟩

/-- The state after some attempts, with the rows that the table holds. -/
def noticeState (ledger : List AttemptRow) (rows : List (Sourced Unit))
    (pending : List (Str × List IngestibleFile)) : Warehouse Unit :=
  ⟨noticeRegistry, ledger, if rows = [] then ∅ else noticeLakehouse rows, pending⟩

/-- A run in which the commit of the success fails. -/
def lostCommit : ContractRun := ⟨false, 1, .none, .failed, .committed⟩

/-- The moves of the example. -/
def NoticeStep : Warehouse Unit → Move → Warehouse Unit → Prop :=
  WarehouseStep (fun _ _ => (none : Option Str)) noticeConfig shippedClassifier
    noticeColumns (fun _ _ _ => .ok [()])

/-- The file of the notice is registered. -/
lemma noticeStep_register :
    NoticeStep .empty (.register noticeKey ⟨"a.csv".toList, "1".toList, 1, "h".toList⟩)
      (noticeState [] [] []) :=
  .register noticeKey ⟨"a.csv".toList, "1".toList, 1, "h".toList⟩

/-- The file is fetched when it is pending under the latest attempts. -/
lemma noticeStep_fetch {ledger : List AttemptRow} {latest : Str → Option AttemptRow}
    (rows : List (Sourced Unit)) (hlatest : Ranks ledger latest)
    (hpending : (getIncrementalFilesToIngest shippedClassifier
      (fetchIncrementalFilesFromDb noticeRegistry latest)).items = [noticeContract]) :
    NoticeStep (noticeState ledger rows []) .fetch (noticeState ledger rows [noticeContract]) := by
  unfold noticeState
  rw [← hpending]
  exact .fetch hlatest (List.Perm.refl _)

/-- The first attempt succeeds. -/
lemma noticeStep_working :
    NoticeStep (noticeState [] [] [noticeContract]) (.contract workingRun)
      (noticeState [noticeAttempt 2 .success] [noticeRow] []) := by
  have hresult : processContract (sourcedIngest (fun _ _ => (none : Option Str)) noticeConfig
      noticeColumns (fun _ _ _ => .ok [()])) (fun _ => workingRun)
      ⟨∅, [], 0, 0, []⟩ noticeContract = .ok ⟨noticeLakehouse [noticeRow],
        [noticeAttempt 2 .success], 1, 0, [(noticeContract.1, .success)]⟩ := by decide +kernel
  exact .contract workingRun hresult

/-- The first attempt writes the row but does not commit its success. -/
lemma noticeStep_lost :
    NoticeStep (noticeState [] [] [noticeContract]) (.contract lostCommit)
      (noticeState [noticeAttempt 1 .failed] [noticeRow] []) := by
  have hresult : processContract (sourcedIngest (fun _ _ => (none : Option Str)) noticeConfig
      noticeColumns (fun _ _ _ => .ok [()])) (fun _ => lostCommit)
      ⟨∅, [], 0, 0, []⟩ noticeContract = .ok ⟨noticeLakehouse [noticeRow],
        [noticeAttempt 1 .failed], 0, 1, [(noticeContract.1, .failed)]⟩ := by decide +kernel
  exact .contract lostCommit hresult

/-- The second attempt writes the row again. -/
lemma noticeStep_again :
    NoticeStep (noticeState [noticeAttempt 1 .failed] [noticeRow] [noticeContract])
      (.contract workingRun) (noticeState [noticeAttempt 1 .failed, noticeAttempt 2 .success]
        [noticeRow, noticeRow] []) := by
  have hresult : processContract (sourcedIngest (fun _ _ => (none : Option Str)) noticeConfig
      noticeColumns (fun _ _ _ => .ok [()])) (fun _ => workingRun)
      ⟨noticeLakehouse [noticeRow], [noticeAttempt 1 .failed], 0, 0, []⟩
      noticeContract = .ok ⟨noticeLakehouse [noticeRow, noticeRow],
        [noticeAttempt 1 .failed, noticeAttempt 2 .success], 1, 0,
        [(noticeContract.1, .success)]⟩ := by decide +kernel
  exact .contract workingRun hresult

/-- A run that commits its success leaves one row. -/
theorem atMostOnce_notice :
    AtMostOnce noticeConfig (noticeState [noticeAttempt 2 .success] [noticeRow] []) := by
  have hkeys : noticeConfig.publications.keys = ["OtherMarketInformation_r3".toList] := rfl
  have hinj : Set.InjOn (tableName noticeConfig) {n | n ∈ noticeConfig.publications.keys} := by
    intro a ha b hb _
    have ha' : a ∈ ["OtherMarketInformation_r3".toList] := hkeys ▸ ha
    have hb' : b ∈ ["OtherMarketInformation_r3".toList] := hkeys ▸ hb
    rw [List.mem_singleton.mp ha', List.mem_singleton.mp hb']
  have hstart : (safeSystem (fun (_ : Unit) _ => (none : Option Str)) noticeConfig shippedClassifier
      noticeColumns (fun _ _ _ => .ok [()])).Reach [] .empty := .start rfl
  have hregistered := hstart.next ⟨_, rfl, noticeStep_register, fun _ hingested => by
    obtain ⟨a, ha, -⟩ := hingested
    cases ha⟩
  have hfetched := hregistered.next ⟨_, rfl, @noticeStep_fetch _ (fun _ => none) []
    (fun s3Key => by simp) (by decide +kernel), trivial⟩
  refine atMostOnce_of_safe hinj (hfetched.next ⟨_, rfl, noticeStep_working, ?_⟩)
  intro n files rest heq
  cases heq
  refine ⟨fun f _ _ => ⟨Or.inr (Or.inr (Or.inr ⟨rfl, rfl⟩)), fun a ha => by cases ha⟩, ?_⟩
  intro schema rows _ hnone
  exact absurd (by decide +kernel) hnone

/-- Without keys, a version whose success was not committed is in the table twice. -/
theorem not_atMostOnce_append : ¬ ∀ moves s, (warehouseSystem (fun _ _ => (none : Option Str))
    noticeConfig shippedClassifier noticeColumns (fun _ _ _ => .ok [()])).Reach moves s →
      AtMostOnce noticeConfig s := by
  intro h
  have hstart : (warehouseSystem (fun (_ : Unit) _ => (none : Option Str)) noticeConfig
      shippedClassifier noticeColumns (fun _ _ _ => .ok [()])).Reach [] .empty :=
    .start rfl
  have hregistered := hstart.next ⟨_, rfl, noticeStep_register⟩
  have hfetched := hregistered.next ⟨_, rfl, @noticeStep_fetch _ (fun _ => none) []
    (fun s3Key => by simp) (by decide +kernel)⟩
  have hlost := hfetched.next ⟨_, rfl, noticeStep_lost⟩
  have hpending := hlost.next ⟨_, rfl, noticeStep_fetch [noticeRow]
    (ranks_latestOf (noticeAttempt 1 .failed)) (by decide +kernel)⟩
  have hagain := hpending.next ⟨_, rfl, noticeStep_again⟩
  have honce := h _ _ hagain "OtherMarketInformation_r3".toList (by decide +kernel)
  exact absurd honce (by decide +kernel)

end EntsoePipeline
