import EntsoePipeline.Lakehouse.Upsert
import EntsoePipeline.Staging.PendingSet

set_option relaxedAutoImplicit false
set_option autoImplicit false

/-!
# Files that cannot be ingested

The job catches failures contract by contract: one file whose read or write raises makes the whole
contract fail, and the files that would have been ingested without it are recorded as failed too.
They are pending again in the next run, together with the file that made them fail.

## Main definitions

* `EntsoePipeline.SucceedsAlone`, `EntsoePipeline.Poisoned` — files whose own read and write
  succeed, and files whose own read or write raises.
* `EntsoePipeline.Isolates` — every file that would succeed alone is recorded as ingested, whatever
  other files do.
* `EntsoePipeline.Together`, `EntsoePipeline.Separable` — the files of a contract can be ingested
  together, and no file that would succeed alone is in a contract whose files cannot be.

## Main results

* `EntsoePipeline.success_mem_iff` — a file is recorded as ingested when its contract is.
* `EntsoePipeline.isolates_iff` — when failures are isolated file by file.
-/

namespace EntsoePipeline

open Py

section DeadLetter

variable {ρ ν : Type*} [DecidableEq ν] (cell : ρ → Str → Option ν) (lakeConfig : LakehouseConfig)
  (reader : LandingReader ρ) (config : ClassifierConfig) (runs : Str → ContractRun)
  (lakehouse : Lakehouse ρ) (dbRows : List PendingRow)

/-- The contracts of a run. -/
abbrev pendingContracts : List (Str × List IngestibleFile) :=
  (getIncrementalFilesToIngest config dbRows).items

/-- The files of a contract. -/
def contractFiles (fmsName : Str) : List IngestibleFile :=
  ((getIncrementalFilesToIngest config dbRows).get? fmsName).getD []

/-- The tables when the run comes to a contract. -/
def tablesBefore (fmsName : Str) : Lakehouse ρ :=
  lakehouseBefore (ingestContract cell lakeConfig reader) runs (pendingContracts config dbRows)
    lakehouse fmsName

/-- The read and the write of the file alone succeed when the run comes to its contract. -/
def SucceedsAlone (f : IngestibleFile) : Prop :=
  ∃ lakehouse', (ingestContract cell lakeConfig reader
    (tablesBefore cell lakeConfig reader config runs lakehouse dbRows f.fmsName) f.fmsName
      [f]).result = .ok lakehouse'

/-- The contract of the file has a schema, and yet its own read or write raises. -/
def Poisoned (f : IngestibleFile) : Prop :=
  (∃ schema, lakeConfig.publications.get? f.fmsName = some schema) ∧
    ¬ SucceedsAlone cell lakeConfig reader config runs lakehouse dbRows f

/-- One run records a success for every accepted file that would succeed alone, for every poisoned
file among the others. -/
def Isolates (ledger : List AttemptRow) : Prop :=
  ∃ final, stagingRun (ingestContract cell lakeConfig reader) runs (pendingContracts config dbRows)
      ⟨lakehouse, ledger, 0, 0, []⟩ = .ok final ∧
    ∀ p ∈ acceptedFiles config dbRows,
      Poisoned cell lakeConfig reader config runs lakehouse dbRows p →
      ∀ f ∈ acceptedFiles config dbRows,
        SucceedsAlone cell lakeConfig reader config runs lakehouse dbRows f →
        (⟨f.s3Key, f.xxhash, (runs f.fmsName).ingestedAt, .success⟩ : AttemptRow) ∈
          final.ledger.drop ledger.length

/-- The files of a contract can be loaded together, Spark accepts the write of a frame with the
columns of the load, and no stored row has the key of two of its rows. -/
def Together (fmsName : Str) : Prop :=
  let tables := tablesBefore cell lakeConfig reader config runs lakehouse dbRows fmsName
  let files := contractFiles config dbRows fmsName
  ∃ schema columns rows, lakeConfig.publications.get? fmsName = some schema ∧
    reader.columns schema files = .ok columns ∧
    List.Forall₂ (fun g r => reader.load schema files g = .ok r) files rows ∧
    Writable lakeConfig tables fmsName columns ∧
    (contractKeys lakeConfig fmsName ≠ [] →
      ¬ Sql.Ambiguous cell (contractKeys lakeConfig fmsName)
        (tableRows tables (tableName lakeConfig fmsName)) rows.flatten)

/-- When there is a poisoned file, then the files of every contract with a file that would succeed
alone can be ingested together. -/
def Separable : Prop :=
  (∃ p ∈ acceptedFiles config dbRows,
    Poisoned cell lakeConfig reader config runs lakehouse dbRows p) →
  ∀ f ∈ acceptedFiles config dbRows,
    SucceedsAlone cell lakeConfig reader config runs lakehouse dbRows f →
    Together cell lakeConfig reader config runs lakehouse dbRows f.fmsName

/-- Nothing but the contents of the files makes a read, a write or a commit fail. -/
def ContractRun.Calm (run : ContractRun) : Prop := run.Working ∧ run.fault = .none

instance (run : ContractRun) : Decidable run.Calm := inferInstanceAs (Decidable (_ ∧ _))

variable {cell lakeConfig reader config runs lakehouse dbRows}

/-- In a calm run the status of a contract is that of its ingest. -/
lemma contractEffect_eq_success_iff {run : ContractRun} (hcalm : run.Calm)
    {tables : Lakehouse ρ} {contract : Str × List IngestibleFile} :
    (contractEffect (ingestContract cell lakeConfig reader) run tables contract).2 = .success ↔
      ∃ lakehouse', (ingestContract cell lakeConfig reader tables contract.1 contract.2).result =
        .ok lakehouse' := by
  unfold contractEffect
  rw [hcalm.2]
  dsimp only
  cases (ingestContract cell lakeConfig reader tables contract.1 contract.2).result with
  | ok lakehouse' => simp
  | error e => simp

/-- An accepted file is one of the files of its contract. -/
lemma mem_contractFiles {f : IngestibleFile} (h : f ∈ acceptedFiles config dbRows) :
    (f.fmsName, contractFiles config dbRows f.fmsName) ∈ pendingContracts config dbRows ∧
      f ∈ contractFiles config dbRows f.fmsName := by
  obtain ⟨files, hget, hmem⟩ := mem_getIncrementalFilesToIngest.mpr
    ⟨List.mem_filterMap.mp h, rfl⟩
  have hfiles : contractFiles config dbRows f.fmsName = files := by
    rw [contractFiles, hget]
    rfl
  rw [hfiles]
  exact ⟨Dict.mem_items_iff.mpr hget, hmem⟩

variable {registry : Dict Str RegistryRow} {latest : Str → Option AttemptRow}

variable (cell lakeConfig reader config lakehouse) in
/-- **Recorded contract by contract.** A calm run records an accepted file as ingested if and only
if the files of its contract can be ingested together. -/
lemma success_mem_iff (hrows : dbRows.Perm (fetchIncrementalFilesFromDb registry latest))
    (hcalm : ∀ n, (runs n).Calm) (ledger : List AttemptRow) :
    ∃ final, stagingRun (ingestContract cell lakeConfig reader) runs
        (pendingContracts config dbRows) ⟨lakehouse, ledger, 0, 0, []⟩ = .ok final ∧
      ∀ f ∈ acceptedFiles config dbRows,
        ((⟨f.s3Key, f.xxhash, (runs f.fmsName).ingestedAt, .success⟩ : AttemptRow) ∈
            final.ledger.drop ledger.length ↔
          Together cell lakeConfig reader config runs lakehouse dbRows f.fmsName) := by
  obtain ⟨status, hstatus, -, hledger⟩ := exists_outcomes (ingestContract cell lakeConfig reader)
    runs ⟨lakehouse, ledger, 0, 0, []⟩ (getIncrementalFilesToIngest config dbRows).nodup
  refine ⟨_, stagingRun_of_working _ fun c _ => (hcalm c.1).1, fun f hf => ?_⟩
  rw [hledger, List.drop_left, (flatMap_attemptRows config dbRows runs status).mem_iff,
    List.mem_map]
  have hcontract := (mem_contractFiles hf).1
  have heffect := hstatus _ hcontract
  have hiff := @contractEffect_eq_success_iff _ _ _ cell lakeConfig reader _ (hcalm f.fmsName)
    (tablesBefore cell lakeConfig reader config runs lakehouse dbRows f.fmsName)
    (f.fmsName, contractFiles config dbRows f.fmsName)
  rw [exists_ingestContract_iff,
    and_iff_right (List.ne_nil_of_mem (mem_contractFiles hf).2)] at hiff
  simp only [writeRows_ne_none_iff] at hiff
  refine Iff.trans ?_ hiff
  constructor
  · rintro ⟨g, hg, hrow⟩
    obtain rfl : g = f := acceptedFiles_inj hrows hg hf (congrArg AttemptRow.s3Key hrow)
    exact heffect.symm.trans (congrArg AttemptRow.status hrow)
  · intro hsuccess
    refine ⟨f, hf, ?_⟩
    rw [attemptOf, heffect.trans hsuccess]

/-- **When failures are isolated.** A run in which nothing but the contents of files fails records a
success for every file that would succeed alone if and only if the files of every contract with such
a file can be ingested together, or no file is poisoned.

**Proof sketch.** The files of a contract are recorded as ingested when they are ingested together,
and that is when they can be loaded together and the write of their frame is accepted and does not
abort. -/
theorem isolates_iff (hrows : dbRows.Perm (fetchIncrementalFilesFromDb registry latest))
    (hcalm : ∀ n, (runs n).Calm) (ledger : List AttemptRow) :
    Isolates cell lakeConfig reader config runs lakehouse dbRows ledger ↔
      Separable cell lakeConfig reader config runs lakehouse dbRows := by
  obtain ⟨final, hrun, hrecorded⟩ := success_mem_iff cell lakeConfig reader config lakehouse hrows
    hcalm ledger
  constructor
  · rintro ⟨final', hrun', h⟩ ⟨p, hp, hpoisoned⟩ f hf halone
    rw [hrun, Except.ok.injEq] at hrun'
    subst hrun'
    exact (hrecorded f hf).mp (h p hp hpoisoned f hf halone)
  · intro h
    refine ⟨final, hrun, ?_⟩
    intro p hp hpoisoned f hf halone
    exact (hrecorded f hf).mpr (h ⟨p, hp, hpoisoned⟩ f hf halone)

end DeadLetter

/-! ## An unreadable file -/

/-- A reader that reads every file as the load at midnight, except the unreadable ones. -/
def readerWithout (unreadable : List String) : LandingReader (Dict Str (Option Str)) where
  columns _ _ := .ok midnightLoad.columns
  load _ _ f := if f.s3Key ∈ unreadable.map String.toList then .error .analysisError
    else .ok midnightLoad.rows

/-- A registry of files, each with its key as name and digest. -/
def registryOf (s3Keys : List String) : Dict Str RegistryRow :=
  Dict.ofList (s3Keys.map fun s3Key => (s3Key.toList, ⟨s3Key.toList, [], 1, s3Key.toList⟩))

/-- Two shipped publications, one of which declares no columns. -/
def twoPublications : LakehouseConfig where
  cm := .ascii
  spark := plainSpark
  staging := "staging".toList
  publications := Dict.ofList [("ActualTotalLoad_6.1.A_r3".toList, actualTotalLoad),
    ("OtherMarketInformation_r3".toList, ⟨[]⟩)]

/-- The pending rows when nothing was attempted. -/
def freshRows (s3Keys : List String) : List PendingRow :=
  fetchIncrementalFilesFromDb (registryOf s3Keys) fun _ => none

/-- The key of a good file. -/
def goodKey : String := "iop/TP_export/Load/ActualTotalLoad_6.1.A_r3/good.csv"

/-- The key of another good file of the same contract. -/
def nextKey : String := "iop/TP_export/Load/ActualTotalLoad_6.1.A_r3/next.csv"

/-- The key of an unreadable file of the same contract. -/
def badKey : String := "iop/TP_export/Load/ActualTotalLoad_6.1.A_r3/bad.csv"

/-- The key of an unreadable file of another contract. -/
def otherKey : String := "iop/TP_export/OtherMarketInformation/OtherMarketInformation_r3/bad.csv"

/-- A file of the total load. -/
def loadFile (s3Key : String) : IngestibleFile :=
  ⟨s3Key.toList, s3Key.toList, 1, "Load".toList, "ActualTotalLoad_6.1.A_r3".toList⟩

/-- The good files are ingested next to the unreadable one of another contract. -/
theorem isolates_otherContract :
    Isolates rowCell twoPublications (readerWithout [otherKey]) shippedClassifier
      (fun _ => workingRun) ∅ (freshRows [goodKey, otherKey, nextKey]) [] := by
  have hcalm : ∀ n : Str, ((fun _ => workingRun) n).Calm := fun _ => ⟨⟨rfl, rfl, rfl⟩, rfl⟩
  have hrows : (freshRows [goodKey, otherKey, nextKey]).Perm
      (fetchIncrementalFilesFromDb (registryOf [goodKey, otherKey, nextKey]) fun _ => none) :=
    List.Perm.refl _
  refine (isolates_iff hrows hcalm []).mpr ?_
  intro _ f hf halone
  have hfiles : acceptedFiles shippedClassifier (freshRows [goodKey, otherKey, nextKey]) =
      [loadFile goodKey, ⟨otherKey.toList, otherKey.toList, 1, "OtherMarketInformation".toList,
        "OtherMarketInformation_r3".toList⟩, loadFile nextKey] := by
    decide +kernel
  have htogether : Together rowCell twoPublications (readerWithout [otherKey]) shippedClassifier
      (fun _ => workingRun) ∅ (freshRows [goodKey, otherKey, nextKey])
      "ActualTotalLoad_6.1.A_r3".toList := by
    have hcontract : contractFiles shippedClassifier (freshRows [goodKey, otherKey, nextKey])
        "ActualTotalLoad_6.1.A_r3".toList = [loadFile goodKey, loadFile nextKey] := by
      decide +kernel
    refine ⟨actualTotalLoad, midnightLoad.columns, [midnightLoad.rows, midnightLoad.rows],
      by decide +kernel, rfl, ?_, by decide +kernel, by decide +kernel⟩
    rw [hcontract]
    exact .cons rfl (.cons rfl .nil)
  rw [hfiles] at hf
  simp only [List.mem_cons, List.not_mem_nil, or_false] at hf
  rcases hf with rfl | rfl | rfl
  · exact htogether
  · obtain ⟨lakehouse', hingest⟩ := halone
    obtain ⟨schema, rows, -, hrows, -⟩ := ingestContract_spec hingest
    cases hrows with
    | cons hother _ => cases hother
  · exact htogether

/-- The good file fails with the unreadable one of its contract. -/
theorem not_isolates_sharedContract :
    ¬ Isolates rowCell twoPublications (readerWithout [badKey]) shippedClassifier
      (fun _ => workingRun) ∅ (freshRows [badKey, goodKey]) [] := by
  rintro ⟨final, hrun, h⟩
  have hledger : final.ledger = (endState (stagingRun
      (ingestContract rowCell twoPublications (readerWithout [badKey])) (fun _ => workingRun)
      (pendingContracts shippedClassifier (freshRows [badKey, goodKey]))
      ⟨∅, [], 0, 0, []⟩)).ledger := by
    rw [hrun]
    rfl
  have hgood := h (loadFile badKey) (by decide +kernel) ?_ (loadFile goodKey) (by decide +kernel) ?_
  · rw [hledger] at hgood
    exact absurd hgood (by decide +kernel)
  · refine ⟨⟨actualTotalLoad, by decide +kernel⟩, ?_⟩
    rintro ⟨lakehouse', hingest⟩
    obtain ⟨schema, rows, -, hrows, -⟩ := ingestContract_spec hingest
    cases hrows with
    | cons hbad _ => cases hbad
  · exact ⟨_, rfl⟩

end EntsoePipeline
