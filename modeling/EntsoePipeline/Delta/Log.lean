import EntsoePipeline.Catalog.Tables
import EntsoePipeline.Lib.EarlyStop
import Mathlib.Data.Finset.Insert

set_option relaxedAutoImplicit false
set_option autoImplicit false

/-!
# The export logs of the delta refresh

The delta refresh reads two export logs, attributes their records to the active folders, and
compares each record with the catalog. A record of a file that is new, or newer than the
catalog's row, marks the leaf directory of the file as dirty under its folder. Each log is
scanned from its newest record and the scan stops after three consecutive up-to-date records.

## Main definitions

* `EntsoePipeline.stripExtension`, `EntsoePipeline.resolveExactFmsFolder` — base names and leaf
  directories.
* `EntsoePipeline.matchFolder`, `EntsoePipeline.stdRecords`, `EntsoePipeline.oceRecords` — the
  records of the two logs.
* `EntsoePipeline.upToDate` — the verdict on one record.
* `EntsoePipeline.dirtyMap` — the map from folders to dirty leaves that the refresh computes.
* `EntsoePipeline.fullDirtyMap` — the map that a scan of every record computes.

## Main results

* `EntsoePipeline.marked_dirtyMap` — what the refresh marks.
* `EntsoePipeline.attributedTo_iff` — a record of a folder's own file is attributed to that folder
  exactly when no active folder listed before it occurs in the file name.

## Implementation notes

The texts of the time columns are read by the libraries of the program; a reading of the wall
clock or a failure is all that is used of them (`TimeLib`). A cell of a log is `none` when it is
missing. A dirty map is compared entry by entry, since the order of its entries and of the leaves
in a set is not fixed.
-/

namespace EntsoePipeline

open Py

/-! ## Time texts and names -/

/-- The library readers of time texts. -/
structure TimeLib where
  /-- The reading of `datetime.strptime(val.strip(), "%d-%m-%Y %H:%M:%S")`. -/
  logFormat : Str → Option ℤ
  /-- The reading of `pd.to_datetime(val.strip())`. -/
  anyFormat : Str → Option ℤ
  /-- `datetime.fromisoformat(val)`. -/
  isoFormat : Str → Option Datetime

/-- The time of a log cell, taken as UTC. -/
def parseLogTimestamp (tl : TimeLib) (val : Option Str) : Option Datetime :=
  val.bind fun text => ((tl.logFormat text).or (tl.anyFormat text)).map Datetime.utc

/-- The time of a catalog row. -/
def parseDbTimestamp (tl : TimeLib) (val : Str) : Option Datetime :=
  if val = [] then none else tl.isoFormat val

/-- The time of a log record has a time zone. -/
lemma isNaive_parseLogTimestamp {tl : TimeLib} {val : Option Str} {t : Datetime}
    (h : parseLogTimestamp tl val = some t) : t.isNaive = false := by
  obtain ⟨text, -, h⟩ := Option.bind_eq_some_iff.mp h
  obtain ⟨wall, -, rfl⟩ := Option.map_eq_some_iff.mp h
  exact Datetime.isNaive_utc wall

/-- The extensions that are stripped off a file name, in the order they are tried. -/
def strippedExtensions : List Str :=
  [".zip".toList, ".csv".toList, ".xml".toList, ".xlsx".toList]

/-- The file name without its extension. -/
def stripExtension (cm : CaseMap) (filename : Str) : Str :=
  match strippedExtensions.find? fun ext => endsWith (cm.lower filename) ext with
  | some ext => filename.take (filename.length - ext.length)
  | none => filename

/-- The leaf directory of a file of a folder: the folder itself, but for the one publication with
a directory for each month, day and area. -/
def resolveExactFmsFolder (folderName fileName : Str) : Str :=
  if contains folderName "OfferedTransferCapacitiesContinuousEvolution".toList then
    match split '_' fileName with
    | year :: month :: day :: outArea :: _ =>
      join ['/'] [folderName, year ++ '_' :: month, year ++ '_' :: (month ++ '_' :: day), outArea]
    | _ => folderName
  else folderName

/-! ## Log records -/

/-- A row of a log. The standard log has no folder column. -/
structure LogRow where
  /-- The column `file_name`. -/
  fileName : Option Str
  /-- The column `folder_name`. -/
  folderName : Option Str
  /-- The column `max_update_time(UTC)`. -/
  maxUpdate : Option Str
  deriving DecidableEq

/-- A record of a log that belongs to an active folder. -/
structure LogRecord where
  /-- The file name. -/
  fileName : Str
  /-- The active folder the record is attributed to. -/
  folderName : Str
  /-- The time of the last update of the file. -/
  maxUpdateTime : Datetime
  deriving DecidableEq

/-- The leaf directory of a record. -/
def LogRecord.leaf (record : LogRecord) : Str :=
  resolveExactFmsFolder record.folderName record.fileName

/-- The first active folder whose name occurs in the file name. -/
def matchFolder (activeFolders : List Str) (fileName : Str) : Option Str :=
  activeFolders.find? fun folder => contains fileName folder

/-- The record of a row of the standard log. -/
def stdRecord (tl : TimeLib) (activeFolders : List Str) (row : LogRow) : Option LogRecord := do
  let fileName ← row.fileName.filter (· ≠ [])
  let matchedFolder ← (matchFolder activeFolders fileName).filter (· ≠ [])
  let maxUpdateTime ← parseLogTimestamp tl row.maxUpdate
  return ⟨fileName, matchedFolder, maxUpdateTime⟩

/-- The record of a row of the capacity evolution log, which names its folder. -/
def oceRecord (tl : TimeLib) (activeFolders : List Str) (row : LogRow) : Option LogRecord := do
  let fileName ← row.fileName.filter (· ≠ [])
  let folderName ← row.folderName.filter fun folder => folder ≠ [] ∧ folder ∈ activeFolders
  let maxUpdateTime ← parseLogTimestamp tl row.maxUpdate
  return ⟨fileName, folderName, maxUpdateTime⟩

/-- The newest record first; records of the same time stay in log order. -/
def sortRecords (records : List LogRecord) : List LogRecord :=
  records.insertionSort fun a b => b.maxUpdateTime.instant ≤ a.maxUpdateTime.instant

/-- The records of the standard log, in the order they are scanned. -/
def stdRecords (tl : TimeLib) (activeFolders : List Str) (log : List LogRow) : List LogRecord :=
  sortRecords (log.filterMap (stdRecord tl activeFolders))

/-- The records of the capacity evolution log, in the order they are scanned. -/
def oceRecords (tl : TimeLib) (activeFolders : List Str) (log : List LogRow) : List LogRecord :=
  sortRecords (log.filterMap (oceRecord tl activeFolders))

/-- The rows of the standard log that give a record. -/
lemma stdRecord_eq_some_iff {tl : TimeLib} {activeFolders : List Str} {row : LogRow}
    {record : LogRecord} :
    stdRecord tl activeFolders row = some record ↔
      row.fileName = some record.fileName ∧ record.fileName ≠ [] ∧
        matchFolder activeFolders record.fileName = some record.folderName ∧
          record.folderName ≠ [] ∧
            parseLogTimestamp tl row.maxUpdate = some record.maxUpdateTime := by
  obtain ⟨fileName, folderName, time⟩ := record
  simp only [stdRecord, bind, Option.bind_eq_some_iff, Option.filter_eq_some_iff, pure,
    Option.some.injEq, decide_eq_true_eq, LogRecord.mk.injEq]
  constructor
  · rintro ⟨a, ⟨ha, hane⟩, b, ⟨hb, hbne⟩, c, hc, rfl, rfl, rfl⟩
    exact ⟨ha, hane, hb, hbne, hc⟩
  · rintro ⟨ha, hane, hb, hbne, hc⟩
    exact ⟨_, ⟨ha, hane⟩, _, ⟨hb, hbne⟩, _, hc, rfl, rfl, rfl⟩

/-- The rows of the other log that give a record. -/
lemma oceRecord_eq_some_iff {tl : TimeLib} {activeFolders : List Str} {row : LogRow}
    {record : LogRecord} :
    oceRecord tl activeFolders row = some record ↔
      row.fileName = some record.fileName ∧ record.fileName ≠ [] ∧
        row.folderName = some record.folderName ∧
          (record.folderName ≠ [] ∧ record.folderName ∈ activeFolders) ∧
            parseLogTimestamp tl row.maxUpdate = some record.maxUpdateTime := by
  obtain ⟨fileName, folderName, time⟩ := record
  simp only [oceRecord, bind, Option.bind_eq_some_iff, Option.filter_eq_some_iff, pure,
    Option.some.injEq, decide_eq_true_eq, LogRecord.mk.injEq]
  constructor
  · rintro ⟨a, ⟨ha, hane⟩, b, ⟨hb, hbne⟩, c, hc, rfl, rfl, rfl⟩
    exact ⟨ha, hane, hb, hbne, hc⟩
  · rintro ⟨ha, hane, hb, hbne, hc⟩
    exact ⟨_, ⟨ha, hane⟩, _, ⟨hb, hbne⟩, _, hc, rfl, rfl, rfl⟩

/-! ## The catalog side -/

/-- What the refresh knows of a catalog file. -/
structure DbFile where
  /-- The parsed time of the last update. -/
  lastUpdated : Option Datetime
  /-- The stored digest. -/
  xxhash : Str
  deriving DecidableEq

/-- The catalog files by base name. A base name of several rows has the last one. -/
def dbFilesOf (cm : CaseMap) (tl : TimeLib) (rows : List FileRow) : Dict Str DbFile :=
  Dict.ofList (rows.map fun row =>
    (stripExtension cm row.name, ⟨parseDbTimestamp tl row.lastUpdated, row.xxhash⟩))

/-- The last segment of a folder path. -/
def lastSegment (path : Str) : Str :=
  (split '/' (strip '/' path)).getLast (split_ne_nil _ _)

/-- The scan times of the catalog folders by the last segment of their paths. -/
def folderCrawledAtOf (rows : List (FolderKey × FolderRow)) : Dict Str (Option Datetime) :=
  Dict.ofList (rows.map fun row => (lastSegment row.1.folderPath, row.2.crawledAt))

/-- `not folder_crawled_at.get(folder)`. -/
def neverCrawled (folderCrawledAt : Dict Str (Option Datetime)) (folder : Str) : Bool :=
  ((folderCrawledAt.get? folder).bind id).isNone

/-- The verdict on a record: its file is in the catalog and not newer in the log. -/
def upToDate (cm : CaseMap) (dbFiles : Dict Str DbFile) (record : LogRecord) :
    Except PyError Bool :=
  match dbFiles.get? (stripExtension cm record.fileName) with
  | none => .ok false
  | some dbRecord =>
    match dbRecord.lastUpdated with
    | none => .ok false
    | some dbTime => (record.maxUpdateTime.gt? dbTime).map (!·)

/-! ## The dirty map -/

/-- The dirty leaves of each folder. -/
abbrev DirtyMap := Dict Str (Finset Str)

/-- `dirty.setdefault(folder, set()).add(leaf)`. -/
def markDirty (dirty : DirtyMap) (folder leaf : Str) : DirtyMap :=
  dirty.alter folder fun leaves => insert leaf (leaves.getD ∅)

/-- Mark the leaf of a record under its folder. -/
def markRecord (dirty : DirtyMap) (record : LogRecord) : DirtyMap :=
  markDirty dirty record.folderName record.leaf

/-- Mark each active folder that was never crawled with itself. -/
def markNeverCrawled (activeFolders : List Str) (folderCrawledAt : Dict Str (Option Datetime)) :
    DirtyMap :=
  (activeFolders.filter fun folder => neverCrawled folderCrawledAt folder).foldl
    (fun dirty folder => markDirty dirty folder folder) ∅

/-- What one refresh reads before it crawls: the active folders, both logs, and the rows that the
two catalog queries return, in the order they are returned. -/
structure DeltaInput where
  /-- The active folders, in the order of the domains and of the overview. -/
  activeFolders : List Str
  /-- The standard log. -/
  stdLog : List LogRow
  /-- The capacity evolution log. -/
  oceLog : List LogRow
  /-- The catalog files of the environment. -/
  fileRows : List FileRow
  /-- The catalog folders of the environment. -/
  folderRows : List (FolderKey × FolderRow)

/-- The number of consecutive up-to-date records that ends a scan. -/
def consecutiveMatchesThreshold : ℕ := 3

section Scan

variable (cm : CaseMap) (tl : TimeLib) (input : DeltaInput)

/-- The verdict on a record against the catalog rows of the input. -/
def DeltaInput.verdict : LogRecord → Except PyError Bool :=
  upToDate cm (dbFilesOf cm tl input.fileRows)

/-- The records of the standard log of the input. -/
def DeltaInput.std : List LogRecord := stdRecords tl input.activeFolders input.stdLog

/-- The records of the capacity evolution log of the input. -/
def DeltaInput.oce : List LogRecord := oceRecords tl input.activeFolders input.oceLog

/-- The marks of the never-crawled folders of the input. -/
def DeltaInput.initial : DirtyMap :=
  markNeverCrawled input.activeFolders (folderCrawledAtOf input.folderRows)

/-- The dirty map of a refresh: each log is scanned until three consecutive records are up to
date. -/
def dirtyMap : Except PyError DirtyMap := do
  let dirty ← EarlyStop.scan (input.verdict cm tl) markRecord consecutiveMatchesThreshold 0
    input.initial (input.std tl)
  EarlyStop.scan (input.verdict cm tl) markRecord consecutiveMatchesThreshold 0 dirty
    (input.oce tl)

/-- The dirty map of a scan of every record of both logs. -/
def fullDirtyMap : Except PyError DirtyMap := do
  let dirty ← EarlyStop.scanAll (input.verdict cm tl) markRecord input.initial (input.std tl)
  EarlyStop.scanAll (input.verdict cm tl) markRecord dirty (input.oce tl)

end Scan

/-! ### What is marked -/

/-- `leaf` is dirty under `folder`. -/
def Marked (dirty : DirtyMap) (folder leaf : Str) : Prop :=
  ∃ leaves, dirty.get? folder = some leaves ∧ leaf ∈ leaves

/-- No entry of the map is the empty set. -/
def Proper (dirty : DirtyMap) : Prop :=
  ∀ folder leaves, dirty.get? folder = some leaves → leaves.Nonempty

/-- In the empty map nothing is marked. -/
lemma not_marked_empty (folder leaf : Str) : ¬ Marked ∅ folder leaf := by
  rintro ⟨leaves, h, -⟩
  cases h

/-- The empty map is proper. -/
lemma proper_empty : Proper ∅ := by
  intro folder leaves h
  cases h

/-- What is marked when one folder has one dirty leaf. -/
lemma marked_singleton {folder leaf leaf' : Str} :
    Marked (Dict.ofList [(folder, {leaf})]) folder leaf' ↔ leaf' = leaf := by
  have hget : (Dict.ofList [(folder, ({leaf} : Finset Str))]).get? folder = some {leaf} :=
    Dict.get?_set_self _ _ _
  unfold Marked
  rw [hget]
  simp

/-- Marking a leaf adds it under its folder and changes nothing else. -/
lemma marked_markDirty {dirty : DirtyMap} {folder leaf folder' leaf' : Str} :
    Marked (markDirty dirty folder leaf) folder' leaf' ↔
      Marked dirty folder' leaf' ∨ (folder' = folder ∧ leaf' = leaf) := by
  unfold Marked markDirty
  by_cases hf : folder' = folder
  · subst hf
    rw [Dict.get?_alter_self]
    cases hd : dirty.get? folder' with
    | none => simp
    | some leaves =>
      simp only [Option.getD_some, Option.some.injEq, exists_eq_left', Finset.mem_insert, true_and]
      exact or_comm
  · rw [Dict.get?_alter_of_ne _ _ hf]
    simp [hf]

/-- A mark keeps a map proper. -/
lemma Proper.markDirty {dirty : DirtyMap} (h : Proper dirty) (folder leaf : Str) :
    Proper (markDirty dirty folder leaf) := by
  intro folder' leaves hget
  by_cases hf : folder' = folder
  · subst hf
    rw [EntsoePipeline.markDirty, Dict.get?_alter_self, Option.some.injEq] at hget
    exact hget ▸ Finset.insert_nonempty leaf _
  · rw [EntsoePipeline.markDirty, Dict.get?_alter_of_ne _ _ hf] at hget
    exact h folder' leaves hget

/-- Two maps without empty entries are equal entry by entry when they mark the same leaves. -/
lemma get?_eq_iff_marked {dirty dirty' : DirtyMap} (h : Proper dirty) (h' : Proper dirty') :
    (∀ folder, dirty.get? folder = dirty'.get? folder) ↔
      ∀ folder leaf, Marked dirty folder leaf ↔ Marked dirty' folder leaf := by
  constructor
  · intro heq folder leaf
    unfold Marked
    rw [heq folder]
  · intro hm folder
    cases hd : dirty.get? folder with
    | none =>
      cases hd' : dirty'.get? folder with
      | none => rfl
      | some leaves =>
        obtain ⟨leaf, hleaf⟩ := h' folder leaves hd'
        obtain ⟨_, hd'', -⟩ := (hm folder leaf).mpr ⟨leaves, hd', hleaf⟩
        rw [hd] at hd''
        cases hd''
    | some leaves =>
      obtain ⟨leaf, hleaf⟩ := h folder leaves hd
      obtain ⟨leaves', hd', -⟩ := (hm folder leaf).mp ⟨leaves, hd, hleaf⟩
      rw [hd']
      congr 1
      ext m
      have := hm folder m
      unfold Marked at this
      rw [hd, hd'] at this
      simpa using this

section Marks

variable {β : Type*} (folderOf leafOf : β → Str)

/-- What a list of marks adds. -/
lemma marked_foldl {dirty : DirtyMap} {l : List β} {folder leaf : Str} :
    Marked (l.foldl (fun d x => markDirty d (folderOf x) (leafOf x)) dirty) folder leaf ↔
      Marked dirty folder leaf ∨ ∃ x ∈ l, folder = folderOf x ∧ leaf = leafOf x := by
  induction l generalizing dirty with
  | nil => simp
  | cons x xs ih =>
    rw [List.foldl_cons, ih, marked_markDirty, or_assoc]
    simp only [List.mem_cons, exists_eq_or_imp]

/-- Marks in a row keep a map proper. -/
lemma proper_foldl {dirty : DirtyMap} (h : Proper dirty) (l : List β) :
    Proper (l.foldl (fun d x => markDirty d (folderOf x) (leafOf x)) dirty) := by
  induction l generalizing dirty with
  | nil => exact h
  | cons x xs ih => exact ih (h.markDirty _ _)

end Marks

/-- The never-crawled active folders are marked with themselves. -/
lemma marked_markNeverCrawled {activeFolders : List Str}
    {folderCrawledAt : Dict Str (Option Datetime)} {folder leaf : Str} :
    Marked (markNeverCrawled activeFolders folderCrawledAt) folder leaf ↔
      folder ∈ activeFolders ∧ neverCrawled folderCrawledAt folder ∧ leaf = folder := by
  rw [markNeverCrawled, marked_foldl (fun folder => folder) fun folder => folder]
  simp only [not_marked_empty, false_or, List.mem_filter]
  constructor
  · rintro ⟨x, ⟨hx, hnever⟩, rfl, rfl⟩
    exact ⟨hx, hnever, rfl⟩
  · rintro ⟨hf, hnever, rfl⟩
    exact ⟨leaf, ⟨hf, hnever⟩, rfl, rfl⟩

/-- The map of the folders that were never crawled is proper. -/
lemma proper_initial (input : DeltaInput) : Proper input.initial :=
  proper_foldl (fun folder => folder) (fun folder => folder) proper_empty _

/-- A record of either log belongs to an active folder and has an aware time. -/
lemma DeltaInput.mem_activeFolders_of_mem {tl : TimeLib} {input : DeltaInput} {r : LogRecord}
    (hr : r ∈ input.std tl ++ input.oce tl) :
    r.folderName ∈ input.activeFolders ∧ r.maxUpdateTime.isNaive = false := by
  rcases List.mem_append.mp hr with hr | hr
  · obtain ⟨row, -, hrow⟩ := List.mem_filterMap.mp ((List.mem_insertionSort _).mp hr)
    obtain ⟨-, -, hmatch, -, htime⟩ := stdRecord_eq_some_iff.mp hrow
    exact ⟨List.mem_of_find?_eq_some hmatch, isNaive_parseLogTimestamp htime⟩
  · obtain ⟨row, -, hrow⟩ := List.mem_filterMap.mp ((List.mem_insertionSort _).mp hr)
    obtain ⟨-, -, -, ⟨-, hmem⟩, htime⟩ := oceRecord_eq_some_iff.mp hrow
    exact ⟨hmem, isNaive_parseLogTimestamp htime⟩

/-! ### Attribution of the standard records -/

/-- The rows of a file are recorded under `folder`, and a record of the file marks nothing under
another folder. -/
structure AttributedTo (activeFolders : List Str) (folder fileName : Str) : Prop where
  /-- Every row of the file with a readable time becomes a record of `folder`. -/
  recorded : ∀ (tl : TimeLib) (row : LogRow) (time : Datetime), row.fileName = some fileName →
    parseLogTimestamp tl row.maxUpdate = some time →
      stdRecord tl activeFolders row = some ⟨fileName, folder, time⟩
  /-- Marking a record of the file leaves the entries of the other folders as they are. -/
  frame : ∀ (tl : TimeLib) (row : LogRow) (record : LogRecord) (dirty : DirtyMap)
    (folder' : Str), row.fileName = some fileName →
      stdRecord tl activeFolders row = some record → folder' ≠ folder →
        (markRecord dirty record).get? folder' = dirty.get? folder'

/-- A record is attributed to the folder that the substring search finds. -/
lemma attributedTo_iff_matchFolder {activeFolders : List Str} {folder fileName : Str}
    (hfile : fileName ≠ []) (hfolder : folder ≠ []) :
    AttributedTo activeFolders folder fileName ↔
      matchFolder activeFolders fileName = some folder := by
  constructor
  · intro h
    let tl : TimeLib := ⟨fun _ => some 0, fun _ => none, fun _ => none⟩
    have hrec := h.recorded tl ⟨some fileName, none, some []⟩ (Datetime.utc 0) rfl rfl
    exact (stdRecord_eq_some_iff.mp hrec).2.2.1
  · intro h
    refine ⟨fun tl row time hrow htime => ?_, fun tl row record dirty folder' hrow hrec hne => ?_⟩
    · exact stdRecord_eq_some_iff.mpr ⟨hrow, hfile, h, hfolder, htime⟩
    · obtain ⟨hname, -, hmatch, -, -⟩ := stdRecord_eq_some_iff.mp hrec
      rw [hrow, Option.some.injEq] at hname
      rw [← hname, h, Option.some.injEq] at hmatch
      rw [markRecord, markDirty, Dict.get?_alter_of_ne _ _ (by rwa [← hmatch])]

/-- **Attribution of a folder's own files.** A standard record of a file `<prefix>_F<ext>` of an
active folder `F`, where no active folder occurs in the prefix, is attributed to `F` and marks
nothing else exactly when no active folder listed before `F` occurs in the file name.

**Proof sketch.** `F` occurs in the file name, so the search finds `F` when nothing before `F`
does. -/
theorem attributedTo_iff {activeFolders : List Str} {folder pre : Str} (ext : Str)
    (hmem : folder ∈ activeFolders) (hpre : ∀ g ∈ activeFolders, ¬ g <:+: pre) :
    AttributedTo activeFolders folder (pre ++ '_' :: folder ++ ext) ↔
      ∀ g ∈ activeFolders.takeWhile (· ≠ folder), ¬ g <:+: pre ++ '_' :: folder ++ ext := by
  have hfolder : folder ≠ [] := fun h => hpre folder hmem (h ▸ List.nil_infix)
  have hin : folder <:+: pre ++ '_' :: folder ++ ext := ⟨pre ++ ['_'], ext, by simp⟩
  rw [attributedTo_iff_matchFolder (by simp) hfolder, matchFolder,
    find?_eq_some_iff_takeWhile hmem (contains_iff.mpr hin)]
  simp only [contains_iff]

/-- The attribution theorem on two sibling revisions, with the longer name listed first. -/
theorem attributedTo_siblings :
    AttributedTo ["Load_r3.1".toList, "Load_r3".toList] "Load_r3".toList
      ("2026_07".toList ++ '_' :: "Load_r3".toList ++ ".csv".toList) :=
  (attributedTo_iff ".csv".toList (by decide) (by decide)).mpr (by decide)

/-- With the shorter sibling listed first, as the sorted overview lists it, the records of the
longer one are attributed to the shorter one. -/
theorem not_attributedTo_sibling :
    "Load_r3.1".toList ∈ ["Load_r3".toList, "Load_r3.1".toList] ∧
      (∀ g ∈ ["Load_r3".toList, "Load_r3.1".toList], ¬ g <:+: "2026_07".toList) ∧
        ¬ AttributedTo ["Load_r3".toList, "Load_r3.1".toList] "Load_r3.1".toList
          ("2026_07".toList ++ '_' :: "Load_r3.1".toList ++ ".csv".toList) := by
  refine ⟨by decide, by decide, fun h => ?_⟩
  exact absurd ((attributedTo_iff_matchFolder (by decide) (by decide)).mp h) (by decide)

/-! ### What the two scans compute -/

section Results

variable {cm : CaseMap} {tl : TimeLib} {input : DeltaInput}

/-- A record whose file is new, or newer in the log than in the catalog. -/
def DeltaInput.Stale (cm : CaseMap) (tl : TimeLib) (input : DeltaInput) (record : LogRecord) :
    Prop :=
  input.verdict cm tl record = .ok false

/-- A record is up to date. -/
def DeltaInput.fresh (cm : CaseMap) (tl : TimeLib) (input : DeltaInput) (record : LogRecord) :
    Bool :=
  EarlyStop.isFresh (input.verdict cm tl) record

/-- The records of the standard log that the early-stopping scan looks at. -/
def DeltaInput.stdProcessed (cm : CaseMap) (tl : TimeLib) (input : DeltaInput) : List LogRecord :=
  EarlyStop.processed consecutiveMatchesThreshold (input.fresh cm tl) 0 (input.std tl)

/-- The records of the capacity evolution log that the early-stopping scan looks at. -/
def DeltaInput.oceProcessed (cm : CaseMap) (tl : TimeLib) (input : DeltaInput) : List LogRecord :=
  EarlyStop.processed consecutiveMatchesThreshold (input.fresh cm tl) 0 (input.oce tl)

/-- The marks of the records that are not fresh. -/
lemma marked_foldl_stale {dirty : DirtyMap} {l : List LogRecord}
    (hd : EarlyStop.Defined (input.verdict cm tl) l) {folder leaf : Str} :
    Marked ((l.filter fun x => !EarlyStop.isFresh (input.verdict cm tl) x).foldl markRecord dirty)
        folder leaf ↔
      Marked dirty folder leaf ∨
        ∃ r ∈ l, input.Stale cm tl r ∧ folder = r.folderName ∧ leaf = r.leaf := by
  have hstale : ∀ r ∈ l, (!EarlyStop.isFresh (input.verdict cm tl) r) = true ↔
      input.Stale cm tl r := by
    intro r hr
    unfold DeltaInput.Stale
    rw [hd.verdict_eq hr]
    simp
  unfold markRecord
  rw [marked_foldl LogRecord.folderName LogRecord.leaf]
  constructor
  · rintro (h | ⟨r, hr, hf⟩)
    · exact Or.inl h
    · rw [List.mem_filter] at hr
      exact Or.inr ⟨r, hr.1, (hstale r hr.1).mp hr.2, hf⟩
  · rintro (h | ⟨r, hr, hs, hf⟩)
    · exact Or.inl h
    · exact Or.inr ⟨r, List.mem_filter.mpr ⟨hr, (hstale r hr).mpr hs⟩, hf⟩

/-- When the full scan completes, every record of both logs has a verdict. -/
lemma defined_of_fullDirtyMap {full : DirtyMap} (h : fullDirtyMap cm tl input = .ok full) :
    EarlyStop.Defined (input.verdict cm tl) (input.std tl) ∧
      EarlyStop.Defined (input.verdict cm tl) (input.oce tl) := by
  unfold fullDirtyMap at h
  cases hstd : EarlyStop.scanAll (input.verdict cm tl) markRecord input.initial (input.std tl) with
  | error e =>
    rw [hstd] at h
    cases h
  | ok dirty =>
    rw [hstd] at h
    exact ⟨(EarlyStop.scanAll_eq_ok_iff.mp hstd).1, (EarlyStop.scanAll_eq_ok_iff.mp h).1⟩

/-- The full scan marks the never-crawled folders and every stale record. -/
lemma marked_fullDirtyMap {full : DirtyMap} (h : fullDirtyMap cm tl input = .ok full)
    {folder leaf : Str} :
    Proper full ∧ (Marked full folder leaf ↔ Marked input.initial folder leaf ∨
      ∃ r ∈ input.std tl ++ input.oce tl, input.Stale cm tl r ∧
        folder = r.folderName ∧ leaf = r.leaf) := by
  obtain ⟨hstd, hoce⟩ := defined_of_fullDirtyMap h
  unfold fullDirtyMap at h
  rw [EarlyStop.scanAll_eq_ok_iff.mpr ⟨hstd, rfl⟩] at h
  obtain ⟨-, rfl⟩ := EarlyStop.scanAll_eq_ok_iff.mp h
  refine ⟨?_, ?_⟩
  · exact proper_foldl _ _ (proper_foldl _ _ (proper_initial input) _) _
  · rw [marked_foldl_stale hoce, marked_foldl_stale hstd, or_assoc]
    simp only [List.mem_append, or_and_right, exists_or]

/-- **What a refresh has marked.** When the early-stopping scans succeed, the records they look at
have verdicts, and the never-crawled folders and the stale ones among these records are marked. -/
lemma marked_of_dirtyMap {early : DirtyMap} (h : dirtyMap cm tl input = .ok early) :
    EarlyStop.Defined (input.verdict cm tl) (input.stdProcessed cm tl ++ input.oceProcessed cm tl) ∧
      Proper early ∧
      ∀ folder leaf, Marked early folder leaf ↔ Marked input.initial folder leaf ∨
        ∃ r ∈ input.stdProcessed cm tl ++ input.oceProcessed cm tl, input.Stale cm tl r ∧
          folder = r.folderName ∧ leaf = r.leaf := by
  unfold dirtyMap at h
  cases hscan : EarlyStop.scan (input.verdict cm tl) markRecord consecutiveMatchesThreshold 0
      input.initial (input.std tl) with
  | error e =>
    rw [hscan] at h
    cases h
  | ok dirty =>
    rw [hscan] at h
    obtain ⟨hstd, rfl⟩ := EarlyStop.scan_eq_ok_iff.mp hscan
    obtain ⟨hoce, rfl⟩ := EarlyStop.scan_eq_ok_iff.mp h
    change EarlyStop.Defined (input.verdict cm tl) (input.stdProcessed cm tl) at hstd
    change EarlyStop.Defined (input.verdict cm tl) (input.oceProcessed cm tl) at hoce
    refine ⟨?_, proper_foldl _ _ (proper_foldl _ _ (proper_initial input) _) _,
      fun folder leaf => ?_⟩
    · intro r hr
      exact (List.mem_append.mp hr).elim (hstd r) (hoce r)
    · refine (marked_foldl_stale hoce).trans ((or_congr_left (marked_foldl_stale hstd)).trans ?_)
      rw [or_assoc]
      simp only [List.mem_append, or_and_right, exists_or]

/-- **What the refresh marks.** When every record has a verdict, the early-stopping scans succeed
and mark the never-crawled folders and the stale records among those they look at. -/
lemma marked_dirtyMap (hstd : EarlyStop.Defined (input.verdict cm tl) (input.std tl))
    (hoce : EarlyStop.Defined (input.verdict cm tl) (input.oce tl)) :
    ∃ early, dirtyMap cm tl input = .ok early ∧ Proper early ∧
      ∀ folder leaf, Marked early folder leaf ↔ Marked input.initial folder leaf ∨
        ∃ r ∈ input.stdProcessed cm tl ++ input.oceProcessed cm tl, input.Stale cm tl r ∧
          folder = r.folderName ∧ leaf = r.leaf := by
  have hscan : ∃ early, dirtyMap cm tl input = .ok early := by
    unfold dirtyMap
    rw [EarlyStop.scan_eq_foldl hstd]
    exact ⟨_, EarlyStop.scan_eq_foldl hoce⟩
  obtain ⟨early, hearly⟩ := hscan
  exact ⟨early, hearly, (marked_of_dirtyMap hearly).2⟩

/-- A refresh that meets crawled folders only, and fresh records at the head of both logs, marks
nothing. -/
lemma dirtyMap_eq_empty
    (hcrawled : ∀ folder ∈ input.activeFolders,
      neverCrawled (folderCrawledAtOf input.folderRows) folder = false)
    (hfresh : ∀ r ∈ (input.std tl).take consecutiveMatchesThreshold ++
      (input.oce tl).take consecutiveMatchesThreshold, input.verdict cm tl r = .ok true) :
    dirtyMap cm tl input = .ok ∅ := by
  obtain ⟨hstd, hoce⟩ := List.forall_mem_append.mp hfresh
  have hinitial : input.initial = ∅ := by
    unfold DeltaInput.initial markNeverCrawled
    rw [List.filter_eq_nil_iff.mpr fun folder hfolder => by simp [hcrawled folder hfolder]]
    rfl
  unfold dirtyMap
  rw [hinitial, EarlyStop.scan_of_forall_take (by decide) hstd]
  exact EarlyStop.scan_of_forall_take (by decide) hoce

end Results

end EntsoePipeline
