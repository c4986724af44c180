import EntsoePipeline.Landing.Layout
import EntsoePipeline.Lib.Like

set_option relaxedAutoImplicit false
set_option autoImplicit false

/-!
# The freshness filter

Before a full crawl the folders that were scanned recently are filtered out. The scan time of a
folder is looked up with an unanchored, unescaped `LIKE` on the folder path, and the first row the
database returns is taken.

## Main definitions

* `EntsoePipeline.pathContains` — `fms_folders.c.folder_path.contains(folder)`.
* `EntsoePipeline.filterFreshFolders` — the filter, with the row order of each query.
* `EntsoePipeline.FilterExact` — the filter drops exactly the folders whose own row is fresh, in
  whatever order the database returns the rows.

## Main results

* `EntsoePipeline.filterExact_iff` — the filter is exact when every row that the lookup of a
  folder can return has the verdict of the folder's own row.
* `EntsoePipeline.lookupAgrees_iff` — for a name without a backslash, whose own row always
  matches, only the rows that match have to agree.
* `EntsoePipeline.not_filterExact_sibling` — a fresh sibling revision hides a stale folder.
-/

namespace EntsoePipeline

open Py

/-! ## The code -/

/-- The special characters of `LIKE` patterns in PostgreSQL. -/
def sqlSpecials : Like.Specials Char := ⟨'%', '_', '\\'⟩

/-- `folder_path LIKE '%' || folder || '%'`. -/
def pathContains (folderPath folder : Str) : Bool :=
  Like.like (Like.parse sqlSpecials ('%' :: (folder ++ ['%']))) folderPath

/-- The microseconds of a day. -/
def dayMicros : ℤ := 86400000000

/-- The scan time of a row is later than the cutoff. A naive time is read as UTC, so that both
sides are aware. -/
def rowFresh (cutoff : Datetime) (row : FolderRow) : Bool :=
  match row.crawledAt with
  | some crawledAt => decide (cutoff.instant < crawledAt.assumeUtc.instant)
  | none => false

/-- The first row that the lookup of a folder returns, in the given row order. -/
def lookupFolder (rows : List (FolderKey × FolderRow)) (folder : Str) :
    Option (FolderKey × FolderRow) :=
  rows.find? fun row => pathContains row.1.folderPath folder

/-- The loop over the folders; `orders i` is the order in which the `i`-th query sees the rows. -/
def staleFolders (cutoff : Datetime) (orders : ℕ → List (FolderKey × FolderRow)) :
    ℕ → List Str → List Str
  | _, [] => []
  | i, folder :: rest =>
    if (lookupFolder (orders i) folder).any fun row => rowFresh cutoff row.2 then
      staleFolders cutoff orders (i + 1) rest
    else folder :: staleFolders cutoff orders (i + 1) rest

/-- The folders that need to be crawled. -/
def filterFreshFolders (now : Datetime) (maxAgeDays : ℤ) (isForce : Bool)
    (orders : ℕ → List (FolderKey × FolderRow)) (folders : List Str) : List Str :=
  if folders = [] then []
  else if isForce then folders
  else if maxAgeDays ≤ 0 then folders
  else staleFolders ⟨now.wall - maxAgeDays * dayMicros, now.offset⟩ orders 0 folders

/-! ## Exactness -/

section Exactness

variable (cm : CaseMap) (env root : Str) (cat : Catalog) (cutoff : Datetime)

/-- The folder's own row exists and was scanned after the cutoff. -/
def OwnFresh (folder : Str) : Bool :=
  (cat.folders.get? ⟨cm.lower env, folderPath root folder⟩).any (rowFresh cutoff)

/-- The database answers each query with the rows of the environment in some order. -/
def RowOrders (orders : ℕ → List (FolderKey × FolderRow)) : Prop :=
  ∀ i, (orders i).Perm (cat.folderRows (cm.lower env))

/-- Every row that the lookup of a folder can return has the verdict of the folder's own row, and
if there is no such row, the folder's own row is not fresh. -/
def LookupAgrees (folder : Str) : Prop :=
  (∀ row ∈ cat.folderRows (cm.lower env), pathContains row.1.folderPath folder = true →
    rowFresh cutoff row.2 = OwnFresh cm env root cat cutoff folder) ∧
  ((∀ row ∈ cat.folderRows (cm.lower env), ¬ pathContains row.1.folderPath folder = true) →
    OwnFresh cm env root cat cutoff folder = false)

instance (folder : Str) : Decidable (LookupAgrees cm env root cat cutoff folder) :=
  inferInstanceAs (Decidable (_ ∧ _))

end Exactness

/-- The filter, not forced and with the given age limit, drops a folder exactly when its own row
is fresh, whatever the row orders. -/
def FilterExact (cm : CaseMap) (env root : Str) (cat : Catalog) (now : Datetime) (maxAgeDays : ℤ)
    (folders : List Str) : Prop :=
  ∀ orders, RowOrders cm env cat orders →
    filterFreshFolders now maxAgeDays false orders folders =
      folders.filter fun folder => !OwnFresh cm env root cat
        ⟨now.wall - maxAgeDays * dayMicros, now.offset⟩ folder

section Lemmas

variable {cm : CaseMap} {env root : Str} {cat : Catalog} {cutoff : Datetime}

/-- With one order for all queries the loop is a filter. -/
lemma staleFolders_const (rows : List (FolderKey × FolderRow)) (i : ℕ) (folders : List Str) :
    staleFolders cutoff (fun _ => rows) i folders =
      folders.filter fun folder =>
        !(lookupFolder rows folder).any fun row => rowFresh cutoff row.2 := by
  induction folders generalizing i with
  | nil => rfl
  | cons folder rest ih =>
    rw [staleFolders, ih]
    cases hf : (lookupFolder rows folder).any fun row => rowFresh cutoff row.2 with
    | true => rw [if_pos rfl, List.filter_cons_of_neg (by simp [hf])]
    | false => rw [if_neg (by simp), List.filter_cons_of_pos (by simp [hf])]

/-- A list is filtered alike only by tests that agree on its elements. -/
lemma agree_of_filter_eq {l : List Str} {p q : Str → Bool} (h : l.filter p = l.filter q) {x : Str}
    (hx : x ∈ l) : p x = q x := by
  have hp : x ∈ l.filter p ↔ p x = true := by
    rw [List.mem_filter]
    exact and_iff_right hx
  have hq : x ∈ l.filter q ↔ q x = true := by
    rw [List.mem_filter]
    exact and_iff_right hx
  rw [h, hq] at hp
  exact Bool.eq_iff_iff.mpr hp.symm

/-- An agreeing lookup gives the verdict of the folder's own row in every row order. -/
lemma lookupFolder_fresh {folder : Str} {rows : List (FolderKey × FolderRow)}
    (hagree : LookupAgrees cm env root cat cutoff folder)
    (hrows : rows.Perm (cat.folderRows (cm.lower env))) :
    ((lookupFolder rows folder).any fun row => rowFresh cutoff row.2) =
      OwnFresh cm env root cat cutoff folder := by
  unfold lookupFolder
  cases hfind : rows.find? fun row => pathContains row.1.folderPath folder with
  | none =>
    have hnone := List.find?_eq_none.mp hfind
    rw [hagree.2 fun row hrow => hnone row (hrows.mem_iff.mpr hrow)]
    rfl
  | some row =>
    have hmem := hrows.mem_iff.mp (List.mem_of_find?_eq_some hfind)
    have hpath : pathContains row.1.folderPath folder = true := by
      simpa using List.find?_some hfind
    rw [Option.any_some, hagree.1 row hmem hpath]

/-- Where every lookup finds the own row of its folder, the stale folders are those that are not
fresh by it. -/
lemma staleFolders_eq_filter {orders : ℕ → List (FolderKey × FolderRow)}
    (horders : RowOrders cm env cat orders) (i : ℕ) {folders : List Str}
    (hagree : ∀ folder ∈ folders, LookupAgrees cm env root cat cutoff folder) :
    staleFolders cutoff orders i folders =
      folders.filter fun folder => !OwnFresh cm env root cat cutoff folder := by
  induction folders generalizing i with
  | nil => rfl
  | cons folder rest ih =>
    obtain ⟨hfolder, hrest⟩ := List.forall_mem_cons.mp hagree
    rw [staleFolders, lookupFolder_fresh hfolder (horders i), ih (i + 1) hrest]
    cases hf : OwnFresh cm env root cat cutoff folder with
    | true => rw [if_pos rfl, List.filter_cons_of_neg (by simp [hf])]
    | false => rw [if_neg (by simp), List.filter_cons_of_pos (by simp [hf])]

/-- A filter that is exact in every row order has agreeing lookups.

**Proof sketch.** Let the database return a matching row first, for every query. The filter then
drops the folder by the verdict of that row, and by exactness this is the verdict of the
folder's own row. -/
lemma lookupAgrees_of_exact {folders : List Str}
    (h : ∀ rows, rows.Perm (cat.folderRows (cm.lower env)) →
      folders.filter (fun folder =>
        !(lookupFolder rows folder).any fun row => rowFresh cutoff row.2) =
          folders.filter fun folder => !OwnFresh cm env root cat cutoff folder)
    {folder : Str} (hfolder : folder ∈ folders) : LookupAgrees cm env root cat cutoff folder := by
  refine ⟨fun row hrow hpath => ?_, fun hnone => ?_⟩
  · obtain ⟨before, after, hsplit⟩ := List.append_of_mem hrow
    have hperm : (row :: (before ++ after)).Perm (cat.folderRows (cm.lower env)) := by
      rw [hsplit]
      exact List.perm_middle.symm
    have hagree := agree_of_filter_eq (h _ hperm) hfolder
    have hfind : lookupFolder (row :: (before ++ after)) folder = some row :=
      List.find?_cons_of_pos hpath
    rw [hfind, Option.any_some] at hagree
    simpa using hagree
  · have hagree := agree_of_filter_eq (h _ (List.Perm.refl _)) hfolder
    have hfind : lookupFolder (cat.folderRows (cm.lower env)) folder = none :=
      List.find?_eq_none.mpr hnone
    rw [hfind] at hagree
    simpa using hagree.symm

end Lemmas

/-- **When the freshness filter is exact.** Not forced and with a positive age limit, the filter
drops exactly the folders whose own row is fresh, in every row order, if and only if for every
listed folder each row of the environment whose path matches the folder's pattern has the verdict
of the folder's own row (and, if no path matches, the own row is not fresh).

**Proof sketch.** Agreeing lookups give the verdict of the own row whatever row comes first. For
the converse any matching row may come first. -/
theorem filterExact_iff (cm : CaseMap) (env root : Str) (cat : Catalog) (now : Datetime)
    {maxAgeDays : ℤ} (hage : 0 < maxAgeDays) (folders : List Str) :
    FilterExact cm env root cat now maxAgeDays folders ↔
      ∀ folder ∈ folders, LookupAgrees cm env root cat
        ⟨now.wall - maxAgeDays * dayMicros, now.offset⟩ folder := by
  have hfilter : ∀ orders, filterFreshFolders now maxAgeDays false orders folders =
      staleFolders ⟨now.wall - maxAgeDays * dayMicros, now.offset⟩ orders 0 folders := by
    intro orders
    unfold filterFreshFolders
    rw [if_neg (by simp : ¬ false = true), if_neg (by omega : ¬ maxAgeDays ≤ 0)]
    split_ifs with hnil
    · rw [hnil]
      rfl
    · rfl
  constructor
  · intro hexact folder hfolder
    apply lookupAgrees_of_exact (fun rows hrows => ?_) hfolder
    rw [← hexact (fun _ => rows) (fun _ => hrows), hfilter, staleFolders_const]
  · intro hagree orders horders
    rw [hfilter, staleFolders_eq_filter horders 0 hagree]

/-- The own path of a folder whose name has no backslash matches its pattern. -/
lemma pathContains_folderPath (root : Str) {folder : Str} (h : '\\' ∉ folder) :
    pathContains (folderPath root folder) folder = true := by
  unfold pathContains
  rw [Like.like_iff]
  refine Like.matches_infix (by decide) h ⟨'/' :: (root ++ ['/']), ['/'], ?_⟩
  simp [folderPath]

/-- For a name without a backslash the matching rows alone decide whether the lookup agrees with
the folder's own row. -/
lemma lookupAgrees_iff {cm : CaseMap} {env root : Str} {cat : Catalog} {cutoff : Datetime}
    {folder : Str} (h : '\\' ∉ folder) :
    LookupAgrees cm env root cat cutoff folder ↔
      ∀ row ∈ cat.folderRows (cm.lower env), pathContains row.1.folderPath folder = true →
        rowFresh cutoff row.2 = OwnFresh cm env root cat cutoff folder := by
  refine ⟨fun hagree => hagree.1, fun hmatch => ⟨hmatch, fun hnone => ?_⟩⟩
  unfold OwnFresh
  cases hget : cat.folders.get? ⟨cm.lower env, folderPath root folder⟩ with
  | none => rfl
  | some row =>
    have hrow : (⟨cm.lower env, folderPath root folder⟩, row) ∈ cat.folderRows (cm.lower env) :=
      Catalog.mem_folderRows.mpr ⟨hget, rfl⟩
    exact absurd (pathContains_folderPath root h) (hnone _ hrow)

/-- A catalog with a fresh row of a minor revision and no row of the folder itself. -/
def siblingCatalog : Catalog where
  folders := Dict.ofList [(⟨"iop".toList, folderPath "TP_export".toList "Load_r3.1".toList⟩,
    ⟨"Load".toList, 1, 9, 9, some (Datetime.utc 100)⟩)]
  files := ∅

/-- The exactness theorem at the fresh revision itself. -/
theorem filterExact_revision : FilterExact CaseMap.ascii "IOP".toList "TP_export".toList
    siblingCatalog (Datetime.utc 100) 3 ["Load_r3.1".toList] := by
  apply (filterExact_iff _ _ _ _ _ (by decide) _).mpr
  decide

/-- The fresh revision `Load_r3.1` hides the never-scanned folder `Load_r3`. -/
theorem not_filterExact_sibling : ¬ FilterExact CaseMap.ascii "IOP".toList "TP_export".toList
    siblingCatalog (Datetime.utc 100) 3 ["Load_r3".toList] := by
  intro hexact
  have h := hexact (fun _ => siblingCatalog.folderRows "iop".toList) fun _ => List.Perm.refl _
  exact absurd h (by decide)

end EntsoePipeline
