import EntsoePipeline.Staging.Run

set_option relaxedAutoImplicit false
set_option autoImplicit false

/-!
# How the pending files evolve

A run of the staging job takes the pending files that the gateway accepts and records one attempt
for each of them. When the next run asks for the pending files, it finds those of the contracts that
failed and those that the gateway did not accept, and no others.

## Main definitions

* `EntsoePipeline.Chronological` — the attempts of a key are recorded in the order of their times.
* `EntsoePipeline.acceptedFiles` — the pending files that the gateway accepts.
* `EntsoePipeline.stillPending` — a pending file whose contract failed or that was not accepted.

## Main results

* `EntsoePipeline.ranks_of_accepted`, `EntsoePipeline.ranks_of_not_accepted` — the latest attempts
  after a run.
* `EntsoePipeline.pendingSet_evolution` — what a run records, reports and leaves pending.
-/

namespace EntsoePipeline

open Py

/-- The attempts of a key have increasing times. -/
def Chronological (ledger : List AttemptRow) : Prop :=
  ledger.Pairwise fun a b => a.s3Key = b.s3Key → a.ingestedAt < b.ingestedAt

/-- The pending files that the gateway accepts. -/
def acceptedFiles (config : ClassifierConfig) (dbRows : List PendingRow) : List IngestibleFile :=
  dbRows.filterMap (gateRow config)

/-- The attempt of an accepted file. -/
def attemptOf (runs : Str → ContractRun) (status : Str → AttemptStatus) (f : IngestibleFile) :
    AttemptRow :=
  ⟨f.s3Key, f.xxhash, (runs f.fmsName).ingestedAt, status f.fmsName⟩

/-- A pending file whose contract failed, or that the gateway rejected or bypassed. -/
def stillPending (config : ClassifierConfig) (status : Str → AttemptStatus) (row : PendingRow) :
    Bool :=
  match gateRow config row with
  | some file => decide (status file.fmsName = .failed)
  | none => true

section Evolution

variable {config : ClassifierConfig} {registry : Dict Str RegistryRow} {ledger : List AttemptRow}
  {latest : Str → Option AttemptRow} {dbRows : List PendingRow}

/-! ## Accepted files -/

/-- An accepted file is registered under its key with its digest, pending, and admitted. -/
lemma mem_acceptedFiles (hrows : dbRows.Perm (fetchIncrementalFilesFromDb registry latest))
    {f : IngestibleFile} :
    f ∈ acceptedFiles config dbRows ↔ ∃ row, registry.get? f.s3Key = some row ∧
      isPending row.xxhash (latest f.s3Key) = true ∧
        gateRow config (pendingRow f.s3Key row) = some f := by
  rw [acceptedFiles, List.mem_filterMap]
  constructor
  · rintro ⟨r, hr, hgate⟩
    obtain ⟨s3Key, row, hget, hpending, rfl⟩ :=
      mem_fetchIncrementalFilesFromDb.mp (hrows.mem_iff.mp hr)
    obtain rfl : f.s3Key = s3Key := (contractOf_of_gateRow hgate).1
    exact ⟨row, hget, hpending, hgate⟩
  · rintro ⟨row, hget, hpending, hgate⟩
    exact ⟨_, hrows.mem_iff.mpr (mem_fetchIncrementalFilesFromDb.mpr ⟨_, row, hget, hpending, rfl⟩),
      hgate⟩

/-- Accepted files with one key are one file. -/
lemma acceptedFiles_inj (hrows : dbRows.Perm (fetchIncrementalFilesFromDb registry latest))
    {f g : IngestibleFile} (hf : f ∈ acceptedFiles config dbRows)
    (hg : g ∈ acceptedFiles config dbRows) (hkey : f.s3Key = g.s3Key) : f = g := by
  obtain ⟨row, hget, -, hgate⟩ := (mem_acceptedFiles hrows).mp hf
  obtain ⟨row', hget', -, hgate'⟩ := (mem_acceptedFiles hrows).mp hg
  rw [hkey, hget', Option.some.injEq] at hget
  rw [hkey, ← hget, hgate', Option.some.injEq] at hgate
  exact hgate.symm

/-- The attempts of all contracts are the attempts of the accepted files. -/
lemma flatMap_attemptRows (config : ClassifierConfig) (dbRows : List PendingRow)
    (runs : Str → ContractRun) (status : Str → AttemptStatus) :
    ((getIncrementalFilesToIngest config dbRows).items.flatMap fun c =>
        attemptRows (runs c.1) c.2 (status c.1)).Perm
      ((acceptedFiles config dbRows).map (attemptOf runs status)) := by
  have hitems : ((getIncrementalFilesToIngest config dbRows).items.flatMap fun c =>
      attemptRows (runs c.1) c.2 (status c.1)) =
      ((getIncrementalFilesToIngest config dbRows).items.flatMap Prod.snd).map
        (attemptOf runs status) := by
    rw [List.map_flatMap, List.flatMap_def, List.flatMap_def]
    refine congrArg List.flatten (List.map_congr_left ?_)
    rintro ⟨n, files⟩ hc
    refine List.map_congr_left fun f hf => ?_
    rw [attemptOf, fmsName_of_mem_getIncrementalFilesToIngest hc hf]
  rw [hitems]
  exact (flatMap_getIncrementalFilesToIngest config dbRows).map _

/-! ## The latest attempts -/

/-- With increasing times the latest attempt of a key is unique. -/
lemma Chronological.eq_of_latest (h : Chronological ledger) {a b : AttemptRow} (ha : a ∈ ledger)
    (hb : b ∈ ledger) (hkey : a.s3Key = b.s3Key) (htime : a.ingestedAt = b.ingestedAt) : a = b := by
  by_contra hne
  have hpair : ledger.Pairwise fun a b => a.s3Key = b.s3Key → a.ingestedAt ≠ b.ingestedAt :=
    h.imp fun hlt heq => (hlt heq).ne
  have hsymm : Std.Symm fun a b : AttemptRow => a.s3Key = b.s3Key → a.ingestedAt ≠ b.ingestedAt :=
    ⟨fun _ _ hab heq => (hab heq.symm).symm⟩
  exact hpair.forall ha hb hne hkey htime

variable {added : List AttemptRow} {latest' : Str → Option AttemptRow} {s3Key : Str}

/-- After a run the latest attempt of an accepted file is the one that the run recorded. -/
lemma ranks_of_accepted {row : AttemptRow} (hrow : row ∈ added) (hkey : row.s3Key = s3Key)
    (honly : ∀ a ∈ added, a.s3Key = s3Key → a = row)
    (hlater : ∀ a ∈ ledger, a.s3Key = s3Key → a.ingestedAt < row.ingestedAt)
    (hlatest' : Ranks (ledger ++ added) latest') : latest' s3Key = some row := by
  have hrank := hlatest' s3Key
  cases hli : latest' s3Key with
  | none =>
    rw [hli] at hrank
    exact absurd hkey (hrank row (List.mem_append_right _ hrow))
  | some li =>
    rw [hli] at hrank
    obtain ⟨hmem, hlikey, hmax⟩ := hrank
    rcases List.mem_append.mp hmem with hold | hnew
    · have hlt := hlater li hold hlikey
      have hle := hmax row (List.mem_append_right _ hrow) hkey
      omega
    · rw [honly li hnew hlikey]

/-- After a run the latest attempt of a file that was not accepted is the old one. -/
lemma ranks_of_not_accepted (hpast : Chronological ledger) (hlatest : Ranks ledger latest)
    (hnone : ∀ a ∈ added, a.s3Key ≠ s3Key) (hlatest' : Ranks (ledger ++ added) latest') :
    latest' s3Key = latest s3Key := by
  have hrank := hlatest s3Key
  have hrank' := hlatest' s3Key
  cases hli : latest s3Key with
  | none =>
    rw [hli] at hrank
    cases hli' : latest' s3Key with
    | none => rfl
    | some li' =>
      rw [hli'] at hrank'
      rcases List.mem_append.mp hrank'.1 with hold | hnew
      · exact absurd hrank'.2.1 (hrank li' hold)
      · exact absurd hrank'.2.1 (hnone li' hnew)
  | some li =>
    rw [hli] at hrank
    obtain ⟨hmem, hkey, hmax⟩ := hrank
    cases hli' : latest' s3Key with
    | none =>
      rw [hli'] at hrank'
      exact absurd hkey (hrank' li (List.mem_append_left _ hmem))
    | some li' =>
      rw [hli'] at hrank'
      obtain ⟨hmem', hkey', hmax'⟩ := hrank'
      rcases List.mem_append.mp hmem' with hold | hnew
      · have hle := hmax li' hold hkey'
        have hge := hmax' li (List.mem_append_left _ hmem) hkey
        rw [hpast.eq_of_latest hold hmem (hkey'.trans hkey.symm) (by omega)]
      · exact absurd hkey' (hnone li' hnew)

/-! ## The next fetch -/

/-- After attempts of the accepted files were added to the ledger, a registered file is pending if
and only if it was and is still. -/
lemma isPending_after_run {runs : Str → ContractRun} {status : Str → AttemptStatus}
    (hlatest : Ranks ledger latest)
    (hrows : dbRows.Perm (fetchIncrementalFilesFromDb registry latest))
    (hpast : Chronological ledger)
    (hlater : ∀ f ∈ acceptedFiles config dbRows, ∀ a ∈ ledger, a.s3Key = f.s3Key →
      a.ingestedAt < (runs f.fmsName).ingestedAt)
    (hadded : added.Perm ((acceptedFiles config dbRows).map (attemptOf runs status)))
    (hlatest' : Ranks (ledger ++ added) latest') {row : RegistryRow}
    (hget : registry.get? s3Key = some row) :
    isPending row.xxhash (latest' s3Key) =
      (stillPending config status (pendingRow s3Key row) &&
        isPending row.xxhash (latest s3Key)) := by
  have hmem : ∀ a, a ∈ added ↔ ∃ f ∈ acceptedFiles config dbRows, attemptOf runs status f = a := by
    intro a
    rw [hadded.mem_iff, List.mem_map]
  -- a file that is not accepted keeps its latest attempt
  have hkept : (∀ f ∈ acceptedFiles config dbRows, f.s3Key ≠ s3Key) →
      latest' s3Key = latest s3Key := by
    intro hnot
    refine ranks_of_not_accepted hpast hlatest ?_ hlatest'
    intro a ha
    obtain ⟨f, hf, rfl⟩ := (hmem a).mp ha
    exact hnot f hf
  have hadmitted : ∀ f ∈ acceptedFiles config dbRows, f.s3Key = s3Key →
      isPending row.xxhash (latest s3Key) = true ∧
        gateRow config (pendingRow s3Key row) = some f := by
    rintro f hf rfl
    obtain ⟨row', hget', hpending, hgate⟩ := (mem_acceptedFiles hrows).mp hf
    rw [hget, Option.some.injEq] at hget'
    rw [hget']
    exact ⟨hpending, hgate⟩
  cases hgate : gateRow config (pendingRow s3Key row) with
  | none =>
    rw [hkept, stillPending, hgate, Bool.true_and]
    intro f hf hkey
    rw [(hadmitted f hf hkey).2] at hgate
    cases hgate
  | some f =>
    have hfile := contractOf_of_gateRow hgate
    cases hpending : isPending row.xxhash (latest s3Key) with
    | false =>
      rw [hkept, hpending, Bool.and_false]
      intro g hg hkey
      rw [(hadmitted g hg hkey).1] at hpending
      cases hpending
    | true =>
      have hkey : f.s3Key = s3Key := hfile.1
      have hf : f ∈ acceptedFiles config dbRows := by
        refine (mem_acceptedFiles hrows).mpr ⟨row, ?_, ?_, ?_⟩
        · rw [hkey, hget]
        · rw [hkey, hpending]
        · rw [hkey, hgate]
      have hrank : latest' s3Key = some (attemptOf runs status f) := by
        refine ranks_of_accepted ((hmem _).mpr ⟨f, hf, rfl⟩) hkey ?_ ?_ hlatest'
        · intro a ha hakey
          obtain ⟨g, hg, rfl⟩ := (hmem a).mp ha
          rw [acceptedFiles_inj hrows hg hf (hakey.trans hkey.symm)]
        · intro a ha hakey
          exact hlater f hf a ha (hakey.trans hkey.symm)
      have hhash : f.xxhash = row.xxhash := hfile.2.1
      simp [hrank, isPending, attemptOf, stillPending, hgate, hhash]

/-- **The pending files evolve.** While the database works and every attempt is later than those
before it, a run goes through to its end. It gives every contract one outcome, adds one attempt for
each accepted file and no other, counts the accepted files, and the next fetch returns the files of
the contracts that failed and those that were not accepted. -/
theorem pendingSet_evolution {τ ε : Type*}
    {ingest : τ → Str → List IngestibleFile → WriteOutcome ε τ} {runs : Str → ContractRun}
    (lakehouse : τ)
    (hlatest : Ranks ledger latest)
    (hrows : dbRows.Perm (fetchIncrementalFilesFromDb registry latest))
    (hworking : ∀ n, (runs n).Working) (hpast : Chronological ledger)
    (hlater : ∀ f ∈ acceptedFiles config dbRows, ∀ a ∈ ledger, a.s3Key = f.s3Key →
      a.ingestedAt < (runs f.fmsName).ingestedAt) :
    ∃ (final : JobState τ) (status : Str → AttemptStatus) (added : List AttemptRow),
      stagingRun ingest runs (getIncrementalFilesToIngest config dbRows).items
        ⟨lakehouse, ledger, 0, 0, []⟩ = .ok final ∧
      (∀ c ∈ (getIncrementalFilesToIngest config dbRows).items, status c.1 =
        (contractEffect ingest (runs c.1) (lakehouseBefore ingest runs
          (getIncrementalFilesToIngest config dbRows).items lakehouse c.1) c).2) ∧
      final.outcomes = (getIncrementalFilesToIngest config dbRows).items.map
        (fun c => (c.1, status c.1)) ∧
      final.ledger = ledger ++ added ∧
      added.Perm ((acceptedFiles config dbRows).map (attemptOf runs status)) ∧
      final.processed + final.failed = (acceptedFiles config dbRows).length ∧
      ∀ (latest' : Str → Option AttemptRow) (dbRows' : List PendingRow),
        Ranks final.ledger latest' → dbRows'.Perm (fetchIncrementalFilesFromDb registry latest') →
        dbRows'.Perm (dbRows.filter (stillPending config status)) := by
  set contracts := (getIncrementalFilesToIngest config dbRows).items with hcontracts
  set start : JobState τ := ⟨lakehouse, ledger, 0, 0, []⟩ with hstart
  obtain ⟨status, hstatus, houtcomes, hledger⟩ := exists_outcomes ingest runs start
    (getIncrementalFilesToIngest config dbRows).nodup
  have hadded := flatMap_attemptRows config dbRows runs status
  refine ⟨_, status, _, stagingRun_of_working start fun c _ => hworking c.1, hstatus, houtcomes,
    hledger, hadded, ?_, ?_⟩
  · rw [processed_add_failed, hcontracts,
      (flatMap_getIncrementalFilesToIngest config dbRows).length_eq]
    simp [start, acceptedFiles]
  · intro latest' dbRows' hlatest' hrows'
    rw [hledger] at hlatest'
    have hfetch : fetchIncrementalFilesFromDb registry latest' =
        (fetchIncrementalFilesFromDb registry latest).filter (stillPending config status) := by
      unfold fetchIncrementalFilesFromDb
      rw [List.filter_map, List.filter_filter]
      congr 1
      refine List.filter_congr ?_
      rintro ⟨s3Key, row⟩ hmem
      exact isPending_after_run hlatest hrows hpast hlater hadded hlatest'
        (Dict.mem_items_iff.mp hmem)
    rw [hfetch] at hrows'
    exact hrows'.trans (hrows.symm.filter _)

end Evolution

/-! ## A file of no contract -/

/-- Two registered files: a load and a file of no contract. -/
def mixedRegistry : Dict Str RegistryRow :=
  Dict.ofList [("iop/TP_export/Load/ActualTotalLoad_6.1.A_r3/a.csv".toList,
      ⟨"a.csv".toList, "1".toList, 10, "h1".toList⟩),
    ("iop/TP_export/Unknown/SomethingNew_r4/b.csv".toList,
      ⟨"b.csv".toList, "2".toList, 20, "h2".toList⟩)]

/-- An attempt of the load that failed. -/
def failedAttempt : AttemptRow :=
  ⟨"iop/TP_export/Load/ActualTotalLoad_6.1.A_r3/a.csv".toList, "h1".toList, 1, .failed⟩

/-- Nothing fails outside of the process; the time is two. -/
def workingRun : ContractRun := ⟨false, 2, .none, .committed, .committed⟩

/-- The latest attempts when there was one attempt. -/
def latestOf (row : AttemptRow) (s3Key : Str) : Option AttemptRow :=
  if s3Key = row.s3Key then some row else none

/-- The only attempt is the latest one. -/
lemma ranks_latestOf (row : AttemptRow) : Ranks [row] (latestOf row) := by
  intro s3Key
  unfold latestOf
  by_cases hkey : s3Key = row.s3Key
  · rw [if_pos hkey]
    simp [hkey]
  · rw [if_neg hkey]
    simpa using Ne.symm hkey

/-- The load is attempted again and the other file is not. -/
theorem pendingSet_evolution_mixed :
    ∃ final, stagingRun (fun lakehouse _ _ => (⟨lakehouse, .ok lakehouse⟩ : WriteOutcome Unit Unit))
        (fun _ => workingRun)
        (getIncrementalFilesToIngest shippedClassifier
          (fetchIncrementalFilesFromDb mixedRegistry (latestOf failedAttempt))).items
        ⟨(), [failedAttempt], 0, 0, []⟩ = .ok final ∧
      final.processed + final.failed = 1 := by
  have hworking : ∀ n : Str, ((fun _ => workingRun) n).Working := fun _ => ⟨rfl, rfl, rfl⟩
  have hlater : ∀ f ∈ acceptedFiles shippedClassifier
      (fetchIncrementalFilesFromDb mixedRegistry (latestOf failedAttempt)),
      ∀ a ∈ [failedAttempt], a.s3Key = f.s3Key →
        a.ingestedAt < ((fun _ => workingRun) f.fmsName).ingestedAt := by
    intro f _ a ha _
    rw [List.mem_singleton.mp ha]
    show (1 : ℤ) < 2
    omega
  obtain ⟨final, -, -, hrun, -, -, -, -, hcount, -⟩ := pendingSet_evolution ()
    (ranks_latestOf failedAttempt) (List.Perm.refl _) hworking (List.pairwise_singleton _ _) hlater
  exact ⟨final, hrun, hcount.trans (by decide)⟩

end EntsoePipeline
