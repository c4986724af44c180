import EntsoePipeline.Catalog.Sizes
import EntsoePipeline.Fms.DriftReports
import EntsoePipeline.Lib.Fibers

set_option relaxedAutoImplicit false
set_option autoImplicit false

/-!
# The report by domain

The catalog report lists, for each environment and each of the two root directories, the domains
that have a folder there, and adds up the folder rows of each domain. The sizes report adds up the
rows of a root directory. The first reads the rows by their domain, wherever they are, and the
second by their path.

## Main definitions

* `EntsoePipeline.getDomainSummary` — the summary of a domain.
* `EntsoePipeline.compileReport` — the catalog report.
* `EntsoePipeline.UnderRoots`, `EntsoePipeline.SeparateDomains` — the rows are under the two root
  directories, which have no domain in common.
* `EntsoePipeline.SizeReportsAgree` — the two reports count the same rows.

## Main results

* `EntsoePipeline.perm_reportRows`, `EntsoePipeline.perm_sizesRows_roots` — each of the reports
  counts every row of an environment once.
* `EntsoePipeline.sizeReports_agree` — their totals are the same.

## Implementation notes

The sizes are exact numbers of bytes, and the layout of the report is left out. Which characters are
decimal digits for a regular expression is a parameter.
-/

namespace EntsoePipeline

open Py

/-! ## The code -/

/-- The summary of a domain. -/
structure DomainSummary where
  /-- The size of the files. -/
  originalBytes : ℤ
  /-- The compressed size of the files. -/
  compressedBytes : ℤ
  /-- The number of files. -/
  fileCount : ℕ
  /-- The first and the last month that a file name has. -/
  dateRange : Option (Str × Str)
  deriving DecidableEq

/-- The domains under a root directory. -/
structure RootSection where
  /-- The domains in the order of their names. -/
  domains : List (Str × DomainSummary)
  /-- The size of all files. -/
  originalBytes : ℤ
  /-- The compressed size of all files. -/
  compressedBytes : ℤ
  /-- The number of all files. -/
  fileCount : ℕ
  deriving DecidableEq

/-- The part of the report about an environment. -/
structure EnvironmentReport where
  /-- The name of the environment. -/
  environment : Str
  /-- The domains of the current publications. -/
  activeExport : RootSection
  /-- The legacy archives. -/
  legacyArchives : RootSection
  deriving DecidableEq

namespace EnvironmentReport

/-- The number of files under both root directories. -/
def combinedFiles (report : EnvironmentReport) : ℕ :=
  report.activeExport.fileCount + report.legacyArchives.fileCount

/-- The size under both root directories. -/
def combinedOriginal (report : EnvironmentReport) : ℤ :=
  report.activeExport.originalBytes + report.legacyArchives.originalBytes

end EnvironmentReport

section Report

variable (cm : CaseMap) (isDecimal : Char → Bool)

/-- The month that a text begins with, of the form `dddd_dd`. -/
def monthAt : Str → Option Str
  | y₁ :: y₂ :: y₃ :: y₄ :: '_' :: m₁ :: m₂ :: _ =>
    if [y₁, y₂, y₃, y₄, m₁, m₂].all isDecimal then some [y₁, y₂, y₃, y₄, '_', m₁, m₂] else none
  | _ => none

/-- The first month of a text. -/
def searchMonth : Str → Option Str
  | [] => none
  | c :: s => (monthAt isDecimal (c :: s)).or (searchMonth s)

/-- The first and the last month of some file names. -/
def monthRange (fileNames : List Str) : Option (Str × Str) :=
  let months := (fileNames.filterMap (searchMonth isDecimal)).insertionSort (· ≤ ·)
  match months.head?, months.getLast? with
  | some first, some last => some (first, last)
  | _, _ => none

variable (rows : List (FolderKey × FolderRow)) (files : List FileRow)

/-- The rows of an environment. -/
def environmentRows (env : Str) : List (FolderKey × FolderRow) :=
  rows.filter fun row => row.1.environment = cm.lower env

/-- The rows of a domain. -/
def domainRows (env domain : Str) : List (FolderKey × FolderRow) :=
  rows.filter fun row => row.1.environment = cm.lower env ∧ row.2.domain = domain

/-- The summary of a domain. -/
def getDomainSummary (env domain : Str) : DomainSummary :=
  let rows := domainRows cm rows env domain
  if rows = [] then ⟨0, 0, 0, none⟩
  else
    { originalBytes := (rows.map fun row => row.2.originalBytes).sum
      compressedBytes := (rows.map fun row => row.2.compressedBytes).sum
      fileCount := (rows.map fun row => row.2.itemCount).sum
      dateRange := monthRange isDecimal
        ((files.filter fun file => file.folder ∈ rows.map Prod.fst).map FileRow.name) }

/-- The distinct domains that have a row under a root directory. -/
def domainsUnder (env rootDir : Str) : List Str :=
  sortedSet ((rows.filter fun row => row.1.environment = cm.lower env ∧
    underRoot rootDir row.1.folderPath).map fun row => row.2.domain)

/-- Add a domain to its section. -/
def addDomain (env : Str) (sect : RootSection) (domain : Str) : RootSection :=
  let summary := getDomainSummary cm isDecimal rows files env domain
  { domains := sect.domains ++ [(domain, summary)]
    originalBytes := sect.originalBytes + summary.originalBytes
    compressedBytes := sect.compressedBytes + summary.compressedBytes
    fileCount := sect.fileCount + summary.fileCount }

/-- The section of a root directory. -/
def rootSection (env rootDir : Str) : RootSection :=
  (domainsUnder cm rows env rootDir).foldl (addDomain cm isDecimal rows files env) ⟨[], 0, 0, 0⟩

/-- The part of the report about an environment. An environment without rows has none. -/
def environmentReport (env : Str) : Option EnvironmentReport :=
  if environmentRows cm rows env = [] then none
  else some
    { environment := env
      activeExport := rootSection cm isDecimal rows files env "TP_export".toList
      legacyArchives :=
        rootSection cm isDecimal rows files env "TP_Legacy_Publications".toList }

/-- The environments of the report. -/
def reportEnvironments : List Str := ["IOP".toList, "PROD".toList]

/-- The catalog report. -/
def compileReport : List EnvironmentReport :=
  reportEnvironments.filterMap (environmentReport cm isDecimal rows files)

/-- The rows that the summaries of an environment add up, domain by domain. -/
def reportRows (env : Str) : List (FolderKey × FolderRow) :=
  (domainsUnder cm rows env RemoteRoot.active.name ++
    domainsUnder cm rows env RemoteRoot.legacy.name).flatMap (domainRows cm rows env)

end Report

/-! ## The tables -/

/-- The path is under a root directory. -/
def IsUnder (root : RemoteRoot) (path : Str) : Prop := '/' :: (root.name ++ ['/']) <+: path

instance (root : RemoteRoot) (path : Str) : Decidable (IsUnder root path) :=
  inferInstanceAs (Decidable (_ <+: _))

/-- Every row is under one of the two root directories. -/
def UnderRoots (rows : List (FolderKey × FolderRow)) : Prop :=
  ∀ row ∈ rows, IsUnder .active row.1.folderPath ∨ IsUnder .legacy row.1.folderPath

/-- The two root directories have no domain in common. -/
def SeparateDomains (rows : List (FolderKey × FolderRow)) : Prop :=
  ∀ row ∈ rows, ∀ row' ∈ rows, IsUnder .active row.1.folderPath →
    IsUnder .legacy row'.1.folderPath → row.2.domain ≠ row'.2.domain

/-- The two reports count every row of an environment once, so that the combined totals of the
catalog report are the sums of those of the sizes reports. -/
structure SizeReportsAgree (cm : CaseMap) (isDecimal : Char → Bool)
    (rows : List (FolderKey × FolderRow)) (files : List FileRow) (env : Str) : Prop where
  combined : ∀ report ∈ compileReport cm isDecimal rows files, report.environment = env →
    report.combinedFiles = (compileSizesReport cm rows env RemoteRoot.active.name).totalFiles +
        (compileSizesReport cm rows env RemoteRoot.legacy.name).totalFiles ∧
      report.combinedOriginal =
        (compileSizesReport cm rows env RemoteRoot.active.name).totalBytes +
          (compileSizesReport cm rows env RemoteRoot.legacy.name).totalBytes
  unreported : (∀ report ∈ compileReport cm isDecimal rows files, report.environment ≠ env) →
    ∀ root : RemoteRoot, (compileSizesReport cm rows env root.name).totalFiles = 0 ∧
      (compileSizesReport cm rows env root.name).totalBytes = 0
  reported : (reportRows cm rows env).Perm (environmentRows cm rows env)
  sized : (sizesRows cm rows env RemoteRoot.active.name ++
    sizesRows cm rows env RemoteRoot.legacy.name).Perm (environmentRows cm rows env)

/-! ## The rows of the two reports -/

section Rows

variable {cm : CaseMap} {rows : List (FolderKey × FolderRow)} {env : Str} {root : RemoteRoot}

/-- The rows of a domain are the fiber of the rows of the environment over it. -/
lemma domainRows_eq_fiber (domain : Str) : domainRows cm rows env domain =
    Fibers.fiber (fun row => row.2.domain) (environmentRows cm rows env) domain := by
  rw [domainRows, environmentRows, Fibers.fiber, List.filter_filter]
  simp only [Bool.decide_and, Bool.and_comm]

/-- A path under one root directory is under no other. -/
lemma underRoot_of_isUnder {path : Str} (h : IsUnder root path) (root' : RemoteRoot) :
    underRoot root'.name path = decide (root' = root) := by
  by_cases hroot : root' = root
  · subst hroot
    rw [underRoot_of_begins h, decide_eq_true rfl]
  · obtain ⟨rest, rfl⟩ := h
    rw [decide_eq_false hroot]
    -- the names of the root directories differ behind `TP_`, where the pattern has no wildcard
    cases root <;> cases root' <;> first
      | rfl
      | exact absurd rfl hroot

/-- The domains of a root directory are those of its rows. -/
lemma mem_domainsUnder {domain : Str} : domain ∈ domainsUnder cm rows env root.name ↔
    ∃ row ∈ environmentRows cm rows env,
      underRoot root.name row.1.folderPath = true ∧ row.2.domain = domain := by
  rw [domainsUnder, mem_sortedSet, List.mem_map]
  simp only [environmentRows, List.mem_filter, decide_eq_true_eq, and_assoc]

/-- Every domain of a root directory is listed once. -/
lemma nodup_domainsUnder : (domainsUnder cm rows env root.name).Nodup :=
  (List.perm_insertionSort _ _).nodup_iff.mpr (List.nodup_dedup _)

/-- A row is under the root directory whose pattern its path matches. -/
lemma isUnder_of_underRoot (hroots : UnderRoots rows) {row : FolderKey × FolderRow}
    (hrow : row ∈ environmentRows cm rows env)
    (h : underRoot root.name row.1.folderPath = true) : IsUnder root row.1.folderPath := by
  rcases hroots row (List.mem_of_mem_filter hrow) with hunder | hunder
  · rw [underRoot_of_isUnder hunder, decide_eq_true_eq] at h
    rwa [h]
  · rw [underRoot_of_isUnder hunder, decide_eq_true_eq] at h
    rwa [h]

/-- The summaries of the domains add up every row of the environment once. -/
lemma perm_reportRows (hroots : UnderRoots rows) (hdomains : SeparateDomains rows) :
    (reportRows cm rows env).Perm (environmentRows cm rows env) := by
  have hfiber : domainRows cm rows env =
      Fibers.fiber (fun row => row.2.domain) (environmentRows cm rows env) :=
    funext domainRows_eq_fiber
  rw [reportRows, hfiber]
  refine Fibers.perm_flatMap_fiber ?_ ?_
  · refine List.Nodup.append nodup_domainsUnder nodup_domainsUnder fun domain hactive hlegacy => ?_
    obtain ⟨row, hrow, hunder, rfl⟩ := mem_domainsUnder.mp hactive
    obtain ⟨row', hrow', hunder', hdomain⟩ := mem_domainsUnder.mp hlegacy
    exact hdomains row (List.mem_of_mem_filter hrow) row' (List.mem_of_mem_filter hrow')
      (isUnder_of_underRoot hroots hrow hunder) (isUnder_of_underRoot hroots hrow' hunder')
      hdomain.symm
  · intro row hrow
    rw [List.mem_append]
    rcases hroots row (List.mem_of_mem_filter hrow) with hunder | hunder
    · exact .inl (mem_domainsUnder.mpr ⟨row, hrow, underRoot_of_begins hunder, rfl⟩)
    · exact .inr (mem_domainsUnder.mpr ⟨row, hrow, underRoot_of_begins hunder, rfl⟩)

/-- The rows of the sizes report are the rows under the root directory. -/
lemma perm_sizesRows_filter : (sizesRows cm rows env root.name).Perm
    ((environmentRows cm rows env).filter fun row => underRoot root.name row.1.folderPath) := by
  refine (perm_sizesRows rows env root.name).trans (List.Perm.of_eq ?_)
  rw [environmentRows, List.filter_filter]
  simp only [Bool.decide_and, Bool.decide_eq_true, Bool.and_comm]

/-- The two sizes reports add up every row of the environment once. -/
lemma perm_sizesRows_roots (hroots : UnderRoots rows) :
    (sizesRows cm rows env RemoteRoot.active.name ++
      sizesRows cm rows env RemoteRoot.legacy.name).Perm (environmentRows cm rows env) := by
  have hlegacy : (environmentRows cm rows env).filter
      (fun row => underRoot RemoteRoot.legacy.name row.1.folderPath) =
      (environmentRows cm rows env).filter
        fun row => !underRoot RemoteRoot.active.name row.1.folderPath := by
    apply List.filter_congr
    intro row hrow
    rcases hroots row (List.mem_of_mem_filter hrow) with hunder | hunder
    · rw [underRoot_of_isUnder hunder, underRoot_of_isUnder hunder]
      rfl
    · rw [underRoot_of_isUnder hunder, underRoot_of_isUnder hunder]
      rfl
  refine (perm_sizesRows_filter.append perm_sizesRows_filter).trans ?_
  rw [hlegacy]
  exact List.filter_append_perm _ _

end Rows

/-! ## The totals -/

section Totals

variable {cm : CaseMap} {isDecimal : Char → Bool} {rows : List (FolderKey × FolderRow)}
  {files : List FileRow} {env : Str}

/-- The summary of a domain adds up its rows. -/
lemma getDomainSummary_totals (domain : Str) :
    (getDomainSummary cm isDecimal rows files env domain).originalBytes =
        ((domainRows cm rows env domain).map fun row => row.2.originalBytes).sum ∧
      (getDomainSummary cm isDecimal rows files env domain).fileCount =
        ((domainRows cm rows env domain).map fun row => row.2.itemCount).sum := by
  rw [getDomainSummary]
  split_ifs with hrows
  · rw [hrows]
    exact ⟨rfl, rfl⟩
  · exact ⟨rfl, rfl⟩

/-- The totals of a section are the sums over its domains. -/
lemma foldl_addDomain (domains : List Str) (sect : RootSection) :
    (domains.foldl (addDomain cm isDecimal rows files env) sect).originalBytes =
        sect.originalBytes + (domains.map fun domain =>
          ((domainRows cm rows env domain).map fun row => row.2.originalBytes).sum).sum ∧
      (domains.foldl (addDomain cm isDecimal rows files env) sect).fileCount =
        sect.fileCount + (domains.map fun domain =>
          ((domainRows cm rows env domain).map fun row => row.2.itemCount).sum).sum := by
  induction domains generalizing sect with
  | nil => exact ⟨(add_zero _).symm, (add_zero _).symm⟩
  | cons domain domains ih =>
    obtain ⟨hbytes, hfiles⟩ :=
      @getDomainSummary_totals cm isDecimal rows files env domain
    rw [List.foldl_cons, (ih _).1, (ih _).2, addDomain, hbytes, hfiles, List.map_cons,
      List.sum_cons, List.map_cons, List.sum_cons, add_assoc, add_assoc]
    exact ⟨rfl, rfl⟩

/-- The combined totals are those of the rows that the summaries add up. -/
lemma combined_of_environmentReport {report : EnvironmentReport}
    (h : environmentReport cm isDecimal rows files env = some report) :
    report.environment = env ∧
      report.combinedOriginal =
        ((reportRows cm rows env).map fun row => row.2.originalBytes).sum ∧
      report.combinedFiles = ((reportRows cm rows env).map fun row => row.2.itemCount).sum := by
  rw [environmentReport] at h
  split_ifs at h
  obtain rfl := Option.some.inj h
  have hsection : ∀ domains, _ := fun domains =>
    @foldl_addDomain cm isDecimal rows files env domains ⟨[], 0, 0, 0⟩
  refine ⟨rfl, ?_, ?_⟩
  · rw [reportRows, Fibers.sum_map_flatMap, List.map_append, List.sum_append]
    exact congrArg₂ (· + ·) ((hsection _).1.trans (zero_add _)) ((hsection _).1.trans (zero_add _))
  · rw [reportRows, Fibers.sum_map_flatMap, List.map_append, List.sum_append]
    exact congrArg₂ (· + ·) ((hsection _).2.trans (zero_add _)) ((hsection _).2.trans (zero_add _))

/-- The report of an environment is the one compiled for it. -/
lemma mem_compileReport {report : EnvironmentReport} (henv : env ∈ reportEnvironments) :
    report ∈ compileReport cm isDecimal rows files ∧ report.environment = env ↔
      environmentReport cm isDecimal rows files env = some report := by
  rw [compileReport, List.mem_filterMap]
  constructor
  · rintro ⟨⟨env', -, hreport⟩, rfl⟩
    rwa [(combined_of_environmentReport hreport).1]
  · intro hreport
    exact ⟨⟨env, henv, hreport⟩, (combined_of_environmentReport hreport).1⟩

/-- An environment without rows has empty totals. -/
lemma compileSizesReport_of_no_rows (hrows : environmentRows cm rows env = []) (root : RemoteRoot) :
    (compileSizesReport cm rows env root.name).totalFiles = 0 ∧
      (compileSizesReport cm rows env root.name).totalBytes = 0 := by
  have hperm := @perm_sizesRows_filter cm rows env root
  rw [hrows] at hperm
  obtain ⟨hbytes, hfiles⟩ := @compileSizesReport_totals cm rows env root.name
  rw [hbytes, hfiles, hperm.eq_nil]
  exact ⟨rfl, rfl⟩

/-- Where every row is under one of the root directories, which have no domain in common, the
catalog report and the two sizes reports count every row once and have the same totals. -/
theorem sizeReports_agree (hroots : UnderRoots rows) (hdomains : SeparateDomains rows) :
    ∀ env ∈ reportEnvironments, SizeReportsAgree cm isDecimal rows files env := by
  intro env henv
  have hreported := @perm_reportRows cm rows env hroots hdomains
  have hsized := @perm_sizesRows_roots cm rows env hroots
  have hperm := hreported.trans hsized.symm
  refine ⟨fun report hreport hname => ?_, fun hnone => ?_, hreported, hsized⟩
  · obtain ⟨-, hbytes, hfiles⟩ :=
      combined_of_environmentReport ((mem_compileReport henv).mp ⟨hreport, hname⟩)
    rw [hbytes, hfiles, (compileSizesReport_totals _ _ _).1, (compileSizesReport_totals _ _ _).1,
      (compileSizesReport_totals _ _ _).2, (compileSizesReport_totals _ _ _).2, ← List.sum_append,
      ← List.sum_append, ← List.map_append, ← List.map_append]
    exact ⟨(hperm.map _).sum_eq, (hperm.map _).sum_eq⟩
  · refine compileSizesReport_of_no_rows ?_
    by_contra hrows
    obtain ⟨report, hsome⟩ : ∃ report, environmentReport cm isDecimal rows files env =
        some report :=
      ⟨_, if_neg hrows⟩
    obtain ⟨hreport, hname⟩ := (mem_compileReport henv).mpr hsome
    exact hnone report hreport hname

end Totals

/-- A folder of each root directory in the production environment, of two domains. -/
def twoRootRows : List (FolderKey × FolderRow) :=
  [(⟨"prod".toList, "/TP_export/ActualTotalLoad_6.1.A_r3/".toList⟩,
      ⟨"Load".toList, 3, 30, 10, none⟩),
    (⟨"prod".toList, "/TP_Legacy_Publications/AcceptedOffers_12.3.E/".toList⟩,
      ⟨"R2_Archives".toList, 2, 20, 8, none⟩)]

/-- The two reports of the production environment count five files. -/
theorem sizeReports_agree_twoRoots :
    SizeReportsAgree .ascii Char.isDigit twoRootRows [] "PROD".toList := by
  refine sizeReports_agree ?_ ?_ _ (by decide)
  · rw [UnderRoots]
    decide +kernel
  · rw [SeparateDomains]
    decide +kernel

end EntsoePipeline
