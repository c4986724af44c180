import EntsoePipeline.Delta.Refresh

set_option relaxedAutoImplicit false
set_option autoImplicit false

/-!
# What the early stop misses

The dirty map of a refresh against the map of a scan of every log record, in every catalog that
refresh runs reach. The two differ by the stale records behind the stops; a folder that no visit
has crawled completely is marked in both.

## Main definitions

* `EntsoePipeline.StopsAt` — where a scan of a log stops.

## Main results

* `EntsoePipeline.dirtyMap_coverage` — the relation of the two maps.
* `EntsoePipeline.dirtyMap_ne_fullDirtyMap` — a reachable catalog and logs on which they differ.
-/

namespace EntsoePipeline

open Py

/-! ## Never-crawled folders -/

/-- A folder is only taken for crawled because of a row with a scan time whose path ends in it. -/
lemma exists_of_not_neverCrawled {rows : List (FolderKey × FolderRow)} {folder : Str}
    (h : ¬ neverCrawled (folderCrawledAtOf rows) folder = true) :
    ∃ row ∈ rows, lastSegment row.1.folderPath = folder ∧ ∃ t, row.2.crawledAt = some t := by
  unfold neverCrawled at h
  cases hget : (folderCrawledAtOf rows).get? folder with
  | none =>
    rw [hget] at h
    exact absurd rfl h
  | some crawledAt =>
    obtain ⟨row, hrow, heq⟩ := List.mem_map.mp (Dict.mem_of_get?_ofList hget)
    obtain ⟨hseg, hcrawled⟩ := Prod.mk.inj heq
    refine ⟨row, hrow, hseg, ?_⟩
    cases hc : crawledAt with
    | none =>
      rw [hget, hc] at h
      exact absurd rfl h
    | some t => exact ⟨t, hcrawled.trans hc⟩

/-! ## The two maps -/

/-- The scan of a list of records looks at `looked` and leaves `behind`: it stops at the first
place where three records in a row are fresh. -/
structure StopsAt (fresh : LogRecord → Bool) (records looked behind : List LogRecord) : Prop where
  /-- The two parts make up the records. -/
  split : records = looked ++ behind
  /-- Records are left behind only after three fresh ones. -/
  stopped : behind ≠ [] → consecutiveMatchesThreshold ≤ EarlyStop.trailing fresh looked
  /-- The scan did not pass three fresh records in a row before. -/
  first : ∀ q, q <+: looked → q ≠ looked →
    EarlyStop.trailing fresh q < consecutiveMatchesThreshold

/-- The records of the standard log behind the stop. -/
def DeltaInput.stdSkipped (cm : CaseMap) (tl : TimeLib) (input : DeltaInput) : List LogRecord :=
  EarlyStop.skipped consecutiveMatchesThreshold (input.fresh cm tl) 0 (input.std tl)

/-- The records of the capacity evolution log behind the stop. -/
def DeltaInput.oceSkipped (cm : CaseMap) (tl : TimeLib) (input : DeltaInput) : List LogRecord :=
  EarlyStop.skipped consecutiveMatchesThreshold (input.fresh cm tl) 0 (input.oce tl)

/-- The records up to the early stop, and those behind it. -/
lemma stopsAt_processed (fresh : LogRecord → Bool) (records : List LogRecord) :
    StopsAt fresh records (EarlyStop.processed consecutiveMatchesThreshold fresh 0 records)
      (EarlyStop.skipped consecutiveMatchesThreshold fresh 0 records) where
  split := (EarlyStop.processed_append_skipped _ _ _ _).symm
  stopped h := EarlyStop.le_trailing_processed h
  first _ hq hne := EarlyStop.trailing_lt (by decide) hq hne

variable {cm : CaseMap} {tl : TimeLib} {xxh : Str → Str} {allowedExts : List Str} {env : Str}

/-- A record of one of the logs is looked at or left behind. -/
lemma mem_records_iff {input : DeltaInput} {r : LogRecord} :
    r ∈ input.std tl ++ input.oce tl ↔
      r ∈ input.stdProcessed cm tl ++ input.oceProcessed cm tl ∨
        r ∈ input.stdSkipped cm tl ++ input.oceSkipped cm tl := by
  have hstd := (stopsAt_processed (input.fresh cm tl) (input.std tl)).split
  have hoce := (stopsAt_processed (input.fresh cm tl) (input.oce tl)).split
  rw [hstd, hoce]
  simp only [List.mem_append, DeltaInput.stdProcessed, DeltaInput.oceProcessed,
    DeltaInput.stdSkipped, DeltaInput.oceSkipped]
  tauto

/-- **The early stop against the full scan.** In every catalog that refresh runs reach, whenever
the full scan completes, so does the refresh's own: each log is read, newest record first, up to
the first three consecutive up-to-date records; what is marked then is marked by the full scan;
the two maps are equal exactly when every stale record behind a stop belongs to a leaf that is
marked anyway; and an active folder whose name no completed visit has crawled is marked with
itself.

**Proof sketch.** Both maps are the marks of the never-crawled folders with those of the stale
records that are looked at, and the records of a log are those looked at and those left behind.
A folder counts as crawled only through a row with a scan time, which stems from a completed
visit. -/
theorem dirtyMap_coverage {visits : List (Str × FolderVisit)} {cat : Catalog}
    (hist : History cm tl xxh allowedExts env visits cat) {input : DeltaInput}
    (hreads : input.Reads cm env cat) {full : DirtyMap}
    (hfull : fullDirtyMap cm tl input = .ok full) :
    ∃ early, dirtyMap cm tl input = .ok early ∧
      StopsAt (input.fresh cm tl) (input.std tl) (input.stdProcessed cm tl)
        (input.stdSkipped cm tl) ∧
      StopsAt (input.fresh cm tl) (input.oce tl) (input.oceProcessed cm tl)
        (input.oceSkipped cm tl) ∧
      (∀ folder leaf, Marked early folder leaf → Marked full folder leaf) ∧
      ((∀ folder, early.get? folder = full.get? folder) ↔
        ∀ r ∈ input.stdSkipped cm tl ++ input.oceSkipped cm tl, input.Stale cm tl r →
          Marked early r.folderName r.leaf) ∧
      (∀ folder ∈ input.activeFolders,
        (∀ visit ∈ visits, visit.2.completes xxh allowedExts = true →
          lastSegment (folderPath "TP_export".toList visit.1) ≠ folder) →
        Marked early folder folder) := by
  obtain ⟨hstd, hoce⟩ := defined_of_fullDirtyMap hfull
  obtain ⟨early, hearly, hproper, hmarked⟩ := marked_dirtyMap hstd hoce
  have hsub : ∀ folder leaf, Marked early folder leaf → Marked full folder leaf := by
    intro folder leaf h
    rw [(marked_fullDirtyMap hfull).2]
    rcases (hmarked folder leaf).mp h with h | ⟨r, hr, hs, hf⟩
    · exact Or.inl h
    · exact Or.inr ⟨r, mem_records_iff.mpr (Or.inl hr), hs, hf⟩
  refine ⟨early, hearly, stopsAt_processed _ _, stopsAt_processed _ _, hsub, ?_, ?_⟩
  · have hproper' : Proper full := (@marked_fullDirtyMap cm tl input full hfull [] []).1
    rw [get?_eq_iff_marked hproper hproper']
    constructor
    · intro heq r hr hs
      rw [heq, (marked_fullDirtyMap hfull).2]
      exact Or.inr ⟨r, mem_records_iff.mpr (Or.inr hr), hs, rfl, rfl⟩
    · intro hbehind folder leaf
      refine ⟨hsub folder leaf, fun h => ?_⟩
      rcases ((marked_fullDirtyMap hfull).2).mp h with h | ⟨r, hr, hs, rfl, rfl⟩
      · exact (hmarked folder leaf).mpr (Or.inl h)
      · rcases mem_records_iff.mp hr with hr | hr
        · exact (hmarked _ _).mpr (Or.inr ⟨r, hr, hs, rfl, rfl⟩)
        · exact hbehind r hr hs
  · intro folder hfolder hnone
    refine (hmarked folder folder).mpr (Or.inl (marked_markNeverCrawled.mpr ⟨hfolder, ?_, rfl⟩))
    by_contra hcrawled
    obtain ⟨⟨key, row⟩, hrow, hseg, t, ht⟩ := exists_of_not_neverCrawled hcrawled
    have hget : cat.folders.get? key = some row :=
      (Catalog.mem_folderRows.mp (hreads.folderRows.mem_iff.mp hrow)).1
    have hbind : (cat.folders.get? key).bind FolderRow.crawledAt = some t := by
      rw [hget]
      exact ht
    obtain ⟨visit, hmem, hkey, hdone, -⟩ := hist.crawledAt hbind
    apply hnone visit hmem hdone
    rw [← hseg]
    show lastSegment (folderPath _ _) = lastSegment key.folderPath
    rw [hkey]
    rfl

/-! ## A new file behind three fresh records -/

/-- Readers that know the times of the sample below. -/
def sampleTimes : TimeLib where
  logFormat text :=
    if text = "08-07-2026 00:00:00".toList then some 1783468800000000
    else if text = "07-07-2026 00:00:00".toList then some 1783382400000000 else none
  anyFormat _ := none
  isoFormat text :=
    if text = "2026-07-08T00:00:00Z".toList then some (Datetime.utc 1783468800000000) else none

/-- A file of the sample folder, last updated on the eighth of July. -/
def sampleItem (name : Str) : RawItem :=
  ⟨some "File".toList, some name, some 9, some 4, some "2026-07-08T00:00:00Z".toList, some name⟩

/-- The input of the first run: one active folder, an empty catalog and empty logs. -/
def firstInput : DeltaInput := ⟨["Load_r3".toList], [], [], [], []⟩

/-- The visit of the first run, which crawls three files of the folder. -/
def firstVisit : FolderVisit where
  ensureFails := false
  leaves := [("Load_r3".toList, ⟨.ok [sampleItem "a_Load_r3.csv".toList,
    sampleItem "b_Load_r3.csv".toList, sampleItem "c_Load_r3.csv".toList], false⟩)]
  checkpointFails := false
  now := Datetime.utc 1783468900000000

/-- The catalog after the first run. -/
def sampleCatalog : Catalog :=
  runVisits CaseMap.ascii id [".csv".toList] "IOP".toList [("Load".toList, ["Load_r3".toList])]
    [("Load_r3".toList, firstVisit)] Catalog.empty

/-- The input of the second run: the log lists the three known files and, with an older time, a
file that is not in the catalog. -/
def secondInput : DeltaInput where
  activeFolders := ["Load_r3".toList]
  stdLog :=
    [⟨some "a_Load_r3".toList, none, some "08-07-2026 00:00:00".toList⟩,
      ⟨some "b_Load_r3".toList, none, some "08-07-2026 00:00:00".toList⟩,
      ⟨some "c_Load_r3".toList, none, some "08-07-2026 00:00:00".toList⟩,
      ⟨some "d_Load_r3".toList, none, some "07-07-2026 00:00:00".toList⟩]
  oceLog := []
  fileRows := sampleCatalog.fileRows "iop".toList
  folderRows := sampleCatalog.folderRows "iop".toList

/-- The map that marks the sample folder with itself. -/
def sampleDirty : DirtyMap := Dict.ofList [("Load_r3".toList, {"Load_r3".toList})]

/-- The first run leads to the sample catalog. -/
lemma refreshRun_sample : RefreshRun CaseMap.ascii sampleTimes id [".csv".toList] "IOP".toList
    Catalog.empty [("Load_r3".toList, firstVisit)] sampleCatalog := by
  have hvisit : firstVisit.Visits sampleDirty "Load_r3".toList := FolderVisit.visits_singleton rfl
  have hdirty : dirtyMap CaseMap.ascii sampleTimes firstInput = .ok sampleDirty := rfl
  have hreads : firstInput.Reads CaseMap.ascii "IOP".toList Catalog.empty := ⟨.nil, .nil⟩
  have hactive : firstInput.activeFolders =
      activeFoldersOf [("Load".toList, ["Load_r3".toList])] := rfl
  exact .crawled hactive hreads hdirty (.next hvisit (.stop []))

/-- The sample catalog is reached by a run on the empty database. -/
lemma history_sample : History CaseMap.ascii sampleTimes id [".csv".toList] "IOP".toList
    [("Load_r3".toList, firstVisit)] sampleCatalog :=
  History.run .start refreshRun_sample

/-- The second input is read from the catalog. -/
lemma reads_secondInput : secondInput.Reads CaseMap.ascii "IOP".toList sampleCatalog :=
  ⟨List.Perm.refl _, List.Perm.refl _⟩

/-- The map of the second input without the early stop. -/
lemma fullDirtyMap_secondInput :
    fullDirtyMap CaseMap.ascii sampleTimes secondInput = .ok sampleDirty := by
  decide

/-- The comparison of the two maps at the sample: what the refresh marks there is marked by the
full scan. -/
theorem dirtyMap_coverage_sample :
    ∃ early, dirtyMap CaseMap.ascii sampleTimes secondInput = .ok early ∧
      ∀ folder leaf, Marked early folder leaf → Marked sampleDirty folder leaf := by
  obtain ⟨early, hearly, -, -, hsub, -⟩ :=
    dirtyMap_coverage history_sample reads_secondInput fullDirtyMap_secondInput
  exact ⟨early, hearly, hsub⟩

/-- On a reachable catalog, the refresh misses the folder of a new file that is older than three
fresh ones. -/
theorem dirtyMap_ne_fullDirtyMap :
    ∃ visits cat, History CaseMap.ascii sampleTimes id [".csv".toList] "IOP".toList visits cat ∧
      ∃ input : DeltaInput, input.Reads CaseMap.ascii "IOP".toList cat ∧
        ∃ early full, dirtyMap CaseMap.ascii sampleTimes input = .ok early ∧
          fullDirtyMap CaseMap.ascii sampleTimes input = .ok full ∧
            early.get? "Load_r3".toList ≠ full.get? "Load_r3".toList := by
  have hearly : dirtyMap CaseMap.ascii sampleTimes secondInput = .ok ∅ := by decide
  refine ⟨_, _, history_sample, secondInput, reads_secondInput, ∅, sampleDirty, hearly,
    fullDirtyMap_secondInput, ?_⟩
  decide

end EntsoePipeline
