import EntsoePipeline.Delta.Log

set_option relaxedAutoImplicit false
set_option autoImplicit false

/-!
# The comparison of a record with the catalog

A record of a log is dirty when the time of its file in the catalog cannot be read or is before the
time of the record. The time of a log cell is taken as UTC, also when it is written with an offset;
the time of a catalog row is naive when it is written without one, and then it cannot be compared.

## Main definitions

* `EntsoePipeline.TimeReaders` — the library readers, with the offsets they read.
* `EntsoePipeline.TimeReaders.logTime` — the time that a log cell denotes.
* `EntsoePipeline.ComparesInstants` — a record is dirty when the catalog is behind it.

## Main results

* `EntsoePipeline.parseLogTimestamp_lib` — a log cell is read as the wall clock of its time.
* `EntsoePipeline.comparesInstants_iff` — when a record is compared by the instants.

## Implementation notes

The readers are those of `TimeLib`, except that `pd.to_datetime` also has the offset that
`replace(tzinfo=UTC)` drops. A naive time denotes the instant of its reading in UTC.
-/

namespace EntsoePipeline

open Py

/-! ## Readers -/

/-- The library readers of time texts. -/
structure TimeReaders where
  /-- The reading of `datetime.strptime(val.strip(), "%d-%m-%Y %H:%M:%S")`. -/
  strptime : Str → Option ℤ
  /-- `pd.to_datetime(val.strip()).to_pydatetime()`. -/
  toDatetime : Str → Option Datetime
  /-- `datetime.fromisoformat(val)`. -/
  fromisoformat : Str → Option Datetime

namespace TimeReaders

variable (readers : TimeReaders)

/-- The readings that the refresh uses. -/
def lib : TimeLib :=
  ⟨readers.strptime, fun text => (readers.toDatetime text).map Datetime.wall, readers.fromisoformat⟩

/-- The time that a log cell denotes. -/
def logTime (text : Str) : Option Datetime :=
  ((readers.strptime text).map Datetime.naive).or (readers.toDatetime text)

/-- The time that a catalog row denotes. -/
def dbTime (stored : Str) : Option Datetime := parseDbTimestamp readers.lib stored

end TimeReaders

/-- A log cell is read as the wall clock of its time, in UTC. -/
theorem parseLogTimestamp_lib (readers : TimeReaders) (text : Str) :
    parseLogTimestamp readers.lib (some text) =
      (readers.logTime text).map fun time => Datetime.utc time.wall := by
  simp only [parseLogTimestamp, TimeReaders.lib, TimeReaders.logTime, Option.bind_some]
  cases readers.strptime text with
  | some wall => rfl
  | none => rw [Option.none_or, Option.map_none, Option.none_or, Option.map_map, Function.comp_def]

/-! ## Comparisons -/

/-- A comparison with the stored time, which is missing when it cannot be read, does not raise and
finds a record dirty when the stored time is missing or before that of the log. -/
def ComparesInstants (stored : Option Datetime) (logTime : Datetime)
    (verdict : Except PyError Bool) : Prop :=
  ∃ upToDate, verdict = .ok upToDate ∧
    (upToDate = false ↔ ∀ time, stored = some time → time.instant < logTime.instant)

/-- The stored time cannot be read, or it has an offset and is not between the instant of the log
and its wall clock in UTC. -/
def ReadsAlike (stored : Option Datetime) (logTime : Datetime) : Prop :=
  ∀ time, stored = some time → time.isNaive = false ∧
    time.instant ∉ Set.Ico (min logTime.instant logTime.wall) (max logTime.instant logTime.wall)

/-- The wall clock of a time in UTC does not change what is before it but for the times between. -/
lemma lt_wall_iff_lt_instant {t : ℤ} {logTime : Datetime} :
    (t < logTime.wall ↔ t < logTime.instant) ↔
      t ∉ Set.Ico (min logTime.instant logTime.wall) (max logTime.instant logTime.wall) := by
  rw [Set.mem_Ico]
  omega

/-- A log time without an offset, or with that of UTC, is read as it is. -/
lemma readsAlike_of_instant_eq_wall {stored : Option Datetime} {logTime : Datetime}
    (hlog : logTime.instant = logTime.wall) :
    ReadsAlike stored logTime ↔ ∀ time, stored = some time → time.isNaive = false := by
  unfold ReadsAlike
  rw [hlog, min_self, max_self, Set.Ico_self]
  simp only [Set.mem_empty_iff_false, not_false_eq_true, and_true]

section Verdicts

variable {cm : CaseMap} {readers : TimeReaders} {input : DeltaInput} {record : LogRecord}
  {stored text xxhash : Str} {logTime : Datetime}

/-- **The comparison.** A record of a known file is compared by the instants exactly when the stored
time cannot be read, or has an offset and is not between the instant of the log time and its wall
clock in UTC.

**Proof sketch.** The record is compared as if its wall clock was UTC. That is an error for a naive
stored time, and moves the record past the stored times between the two. -/
theorem comparesInstants_iff (hlog : readers.logTime text = some logTime)
    (hrecord : parseLogTimestamp readers.lib (some text) = some record.maxUpdateTime)
    (hknown : (dbFilesOf cm readers.lib input.fileRows).get? (stripExtension cm record.fileName) =
      some ⟨parseDbTimestamp readers.lib stored, xxhash⟩) :
    ComparesInstants (readers.dbTime stored) logTime (input.verdict cm readers.lib record) ↔
      ReadsAlike (readers.dbTime stored) logTime := by
  have htime : record.maxUpdateTime = .utc logTime.wall := by
    rw [parseLogTimestamp_lib, hlog] at hrecord
    exact (Option.some.inj hrecord).symm
  unfold DeltaInput.verdict upToDate TimeReaders.dbTime ComparesInstants ReadsAlike
  rw [hknown, htime]
  dsimp only
  cases hstored : parseDbTimestamp readers.lib stored with
  | none => simp
  | some time =>
    simp only [Option.some.injEq, forall_eq']
    cases hnaive : time.isNaive with
    | true =>
      -- a naive and an aware time are not comparable
      have hraises : (Datetime.utc logTime.wall).gt? time = .error .typeError := by
        simp [Datetime.gt?, hnaive]
      rw [hraises]
      simp [Except.map]
    | false =>
      have hcompares : (Datetime.utc logTime.wall).gt? time =
          .ok (decide (time.instant < logTime.wall)) := by
        simp [Datetime.gt?, hnaive]
      rw [hcompares, ← lt_wall_iff_lt_instant]
      simp only [Except.map, Except.ok.injEq, exists_eq_left', Bool.not_eq_false',
        decide_eq_true_eq, true_and]

end Verdicts

/-! ## A naive time and an offset -/

/-- The readings of three texts: the log format, a text with an offset of two hours, and three texts
of the catalog. The wall clocks are counted in hours from the first of July. -/
def julyReaders : TimeReaders where
  strptime text := if text = "01-07-2026 10:00:00".toList then some (10 * 3600000000) else none
  toDatetime text := if text = "2026-07-01T10:00:00+02:00".toList
    then some ⟨10 * 3600000000, some (2 * 3600000000)⟩ else none
  fromisoformat text :=
    if text = "2026-07-01T09:00:00".toList then some (.naive (9 * 3600000000))
    else if text = "2026-07-01T09:00:00Z".toList then some (.utc (9 * 3600000000))
    else none

/-- The log of the total load with one record. -/
def julyInput (maxUpdate stored : Str) : DeltaInput where
  activeFolders := ["ActualTotalLoad_6.1.A_r3".toList]
  stdLog := [⟨some "2026_07_ActualTotalLoad_6.1.A_r3.csv".toList, none, some maxUpdate⟩]
  oceLog := []
  fileRows := [⟨⟨"iop".toList, "/TP_export/ActualTotalLoad_6.1.A_r3/".toList⟩,
    "2026_07_ActualTotalLoad_6.1.A_r3.csv".toList, 1, 1, stored, []⟩]
  folderRows := []

/-- The record of the log at ten o'clock. -/
def julyRecord : LogRecord :=
  ⟨"2026_07_ActualTotalLoad_6.1.A_r3.csv".toList, "ActualTotalLoad_6.1.A_r3".toList,
    .utc (10 * 3600000000)⟩

/-- A stored time in UTC is compared with a log time without an offset. -/
theorem comparesInstants_utc :
    ComparesInstants (julyReaders.dbTime "2026-07-01T09:00:00Z".toList) (.naive (10 * 3600000000))
      ((julyInput "01-07-2026 10:00:00".toList "2026-07-01T09:00:00Z".toList).verdict .ascii
        julyReaders.lib julyRecord) :=
  (comparesInstants_iff (by decide +kernel :
      julyReaders.logTime "01-07-2026 10:00:00".toList = some (.naive (10 * 3600000000)))
    (by decide +kernel) (by decide +kernel :
      (dbFilesOf .ascii julyReaders.lib (julyInput "01-07-2026 10:00:00".toList
        "2026-07-01T09:00:00Z".toList).fileRows).get? (stripExtension .ascii julyRecord.fileName) =
          some ⟨parseDbTimestamp julyReaders.lib "2026-07-01T09:00:00Z".toList, []⟩)).mpr
    ((readsAlike_of_instant_eq_wall rfl).mpr fun time htime => by
      cases htime.symm.trans (by decide +kernel :
        julyReaders.dbTime "2026-07-01T09:00:00Z".toList = some (.utc (9 * 3600000000)))
      rfl)

/-- A naive stored time ends the refresh. A log time with an offset of two hours is found newer than
a stored time that is one hour after it. -/
theorem not_comparesInstants_naive :
    dirtyMap .ascii julyReaders.lib
        (julyInput "01-07-2026 10:00:00".toList "2026-07-01T09:00:00".toList) =
      .error .typeError ∧
    ¬ ComparesInstants (julyReaders.dbTime "2026-07-01T09:00:00".toList) (.naive (10 * 3600000000))
      ((julyInput "01-07-2026 10:00:00".toList "2026-07-01T09:00:00".toList).verdict .ascii
        julyReaders.lib julyRecord) ∧
    ¬ ComparesInstants (julyReaders.dbTime "2026-07-01T09:00:00Z".toList)
      ⟨10 * 3600000000, some (2 * 3600000000)⟩
      ((julyInput "2026-07-01T10:00:00+02:00".toList "2026-07-01T09:00:00Z".toList).verdict .ascii
        julyReaders.lib julyRecord) := by
  have hraises : (julyInput "01-07-2026 10:00:00".toList "2026-07-01T09:00:00".toList).verdict
      .ascii julyReaders.lib julyRecord = .error .typeError := by
    decide +kernel
  have hdirty : (julyInput "2026-07-01T10:00:00+02:00".toList "2026-07-01T09:00:00Z".toList).verdict
      .ascii julyReaders.lib julyRecord = .ok false := by
    decide +kernel
  have hstored : julyReaders.dbTime "2026-07-01T09:00:00Z".toList =
      some (.utc (9 * 3600000000)) := by
    decide +kernel
  refine ⟨by decide +kernel, ?_, ?_⟩
  · rintro ⟨upToDate, hverdict, -⟩
    cases hraises.symm.trans hverdict
  · rintro ⟨upToDate, hverdict, hiff⟩
    cases hdirty.symm.trans hverdict
    exact absurd (hiff.mp rfl _ hstored) (by decide)

end EntsoePipeline
