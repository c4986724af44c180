import EntsoePipeline.Fms.Items

set_option relaxedAutoImplicit false
set_option autoImplicit false

/-!
# Trees of the file server

The tree below a directory of the file server: files, and subdirectories with their own trees. A
directory is found by its path, and a file by the path of its directory and its item.

## Main definitions

* `EntsoePipeline.FmsTree` — a tree, as the list of the entries of its directory.
* `EntsoePipeline.FmsTree.sub?` — the directory at a path.
* `EntsoePipeline.FmsTree.files` — all files, each with the path of its directory.

## Main results

* `EntsoePipeline.FmsTree.mem_files_sub?` — the files below a directory are the files whose path
  starts with the path of the directory.

## Implementation notes

The names of subdirectories are path segments, so a path determines its directories. Nothing is
asked of the names of files.
-/

namespace EntsoePipeline

open Py

/-- The root directory of the publications. -/
def tpExport : Segment '/' := ⟨"TP_export".toList, by decide, by decide⟩

/-- `item.get("type", "File") == "Folder"`. -/
def isFolder (item : RawItem) : Bool := decide (item.type.getD "File".toList = "Folder".toList)

/-- The entries of a directory: its files, and its subdirectories with their entries. -/
inductive FmsTree
  /-- No entries. -/
  | nil
  /-- A file and the other entries. -/
  | file (item : RawItem) (hfile : isFolder item = false) (rest : FmsTree)
  /-- A subdirectory and the other entries. -/
  | folder (name : Segment '/') (children rest : FmsTree)

/-- The item of a subdirectory. -/
def folderItem (name : Segment '/') : RawItem :=
  ⟨some "Folder".toList, some name.text, none, none, none, none⟩

namespace FmsTree

/-- The items that the listing of the directory shows. -/
def entries : FmsTree → List RawItem
  | nil => []
  | file item _ rest => item :: rest.entries
  | folder name _ rest => folderItem name :: rest.entries

/-- The subdirectories. -/
def folders : FmsTree → List (Segment '/' × FmsTree)
  | nil => []
  | file _ _ rest => rest.folders
  | folder name children rest => (name, children) :: rest.folders

/-- The files below the directory, with the path of their directory. -/
def files : FmsTree → List (List (Segment '/') × RawItem)
  | nil => []
  | file item _ rest => ([], item) :: rest.files
  | folder name children rest =>
    (children.files.map fun f => (name :: f.1, f.2)) ++ rest.files

/-- The depth of the directory. -/
def depth : FmsTree → ℕ
  | nil => 0
  | file _ _ rest => rest.depth
  | folder _ children rest => max (children.depth + 1) rest.depth

/-- The subdirectories of every directory have distinct names. -/
def DistinctNames : FmsTree → Prop
  | nil => True
  | file _ _ rest => rest.DistinctNames
  | folder name children rest =>
    children.DistinctNames ∧ rest.DistinctNames ∧ name ∉ rest.folders.map Prod.fst

/-- The subdirectory of a name. -/
def child? : FmsTree → Segment '/' → Option FmsTree
  | nil, _ => none
  | file _ _ rest, seg => rest.child? seg
  | folder name children rest, seg => if name = seg then some children else rest.child? seg

/-- The directory at a path. -/
def sub? : FmsTree → List (Segment '/') → Option FmsTree
  | tree, [] => some tree
  | tree, seg :: segs => (tree.child? seg).bind fun child => child.sub? segs

/-- A subfolder is less deep than its folder. -/
lemma depth_lt_of_mem_folders {tree child : FmsTree} {name : Segment '/'}
    (h : (name, child) ∈ tree.folders) : child.depth < tree.depth := by
  induction tree with
  | nil => cases h
  | file item hfile rest ih => exact ih h
  | folder name' children rest _ ih =>
    simp only [folders, List.mem_cons, Prod.mk.injEq] at h
    simp only [depth]
    rcases h with ⟨-, rfl⟩ | h
    · omega
    · have := ih h
      omega

/-- A child that is found is a subfolder. -/
lemma mem_folders_of_child? {tree child : FmsTree} {name : Segment '/'}
    (h : tree.child? name = some child) : (name, child) ∈ tree.folders := by
  induction tree with
  | nil => cases h
  | file item hfile rest ih => exact ih h
  | folder name' children rest _ ih =>
    simp only [child?] at h
    split_ifs at h with hname
    · cases h
      rw [hname]
      exact List.mem_cons_self
    · exact List.mem_cons_of_mem _ (ih h)

/-- With distinct names, a subdirectory is the one of its name. -/
lemma child?_of_mem_folders {tree child : FmsTree} (hnames : tree.DistinctNames)
    {name : Segment '/'} (h : (name, child) ∈ tree.folders) : tree.child? name = some child := by
  induction tree with
  | nil => cases h
  | file item hfile rest ih => exact ih hnames h
  | folder name' children rest _ ih =>
    obtain ⟨-, hrest, hnot⟩ := hnames
    simp only [folders, List.mem_cons, Prod.mk.injEq] at h
    simp only [child?]
    rcases h with ⟨rfl, rfl⟩ | h
    · rw [if_pos rfl]
    · rw [if_neg, ih hrest h]
      rintro rfl
      exact hnot (List.mem_map_of_mem h)

/-- The names in a subfolder are distinct when those of the tree are. -/
lemma distinctNames_of_mem_folders {tree child : FmsTree} (hnames : tree.DistinctNames)
    {name : Segment '/'} (h : (name, child) ∈ tree.folders) : child.DistinctNames := by
  induction tree with
  | nil => cases h
  | file item hfile rest ih => exact ih hnames h
  | folder name' children rest _ ih =>
    obtain ⟨hchildren, hrest, -⟩ := hnames
    simp only [folders, List.mem_cons, Prod.mk.injEq] at h
    rcases h with ⟨-, rfl⟩ | h
    · exact hchildren
    · exact ih hrest h

/-- The first segment of a file's path is a subdirectory. -/
lemma mem_folders_of_mem_files {tree : FmsTree} {name : Segment '/'} {segs : List (Segment '/')}
    {item : RawItem} (h : (name :: segs, item) ∈ tree.files) :
    name ∈ tree.folders.map Prod.fst := by
  induction tree with
  | nil => cases h
  | file item' hfile rest ih =>
    simp only [files, List.mem_cons, Prod.mk.injEq, reduceCtorEq, false_and, false_or] at h
    exact ih h
  | folder name' children rest _ ih =>
    simp only [files, List.mem_append, List.mem_map, Prod.mk.injEq, List.cons.injEq] at h
    rcases h with ⟨f, -, ⟨rfl, -⟩, -⟩ | h
    · exact List.mem_cons_self
    · exact List.mem_cons_of_mem _ (ih h)

/-- The files of a subdirectory. -/
lemma mem_files_child? {tree child : FmsTree} (hnames : tree.DistinctNames) {name : Segment '/'}
    (h : tree.child? name = some child) {segs : List (Segment '/')} {item : RawItem} :
    (segs, item) ∈ child.files ↔ (name :: segs, item) ∈ tree.files := by
  induction tree with
  | nil => cases h
  | file item' hfile rest ih =>
    simp only [files, List.mem_cons, Prod.mk.injEq, reduceCtorEq, false_and, false_or]
    exact ih hnames h
  | folder name' children rest _ ih =>
    obtain ⟨-, hrest, hnot⟩ := hnames
    simp only [child?] at h
    simp only [files, List.mem_append, List.mem_map, Prod.mk.injEq, List.cons.injEq]
    split_ifs at h with hname
    · cases h
      subst hname
      constructor
      · exact fun hmem => Or.inl ⟨(segs, item), hmem, ⟨rfl, rfl⟩, rfl⟩
      · rintro (⟨f, hmem, ⟨-, rfl⟩, rfl⟩ | hmem)
        · exact hmem
        · exact absurd (mem_folders_of_mem_files hmem) hnot
    · rw [ih hrest h]
      constructor
      · exact Or.inr
      · rintro (⟨f, -, ⟨hname', -⟩, -⟩ | hmem)
        · exact absurd hname' hname
        · exact hmem

/-- The names below a path are distinct when those of the tree are. -/
lemma distinctNames_sub? {tree sub : FmsTree} (hnames : tree.DistinctNames)
    {segs : List (Segment '/')} (h : tree.sub? segs = some sub) : sub.DistinctNames := by
  induction segs generalizing tree with
  | nil =>
    cases h
    exact hnames
  | cons seg segs ih =>
    obtain ⟨child, hchild, hsub⟩ := Option.bind_eq_some_iff.mp h
    exact ih (distinctNames_of_mem_folders hnames (mem_folders_of_child? hchild)) hsub

/-- The files below the directory at a path. -/
lemma mem_files_sub? {tree sub : FmsTree} (hnames : tree.DistinctNames) {base : List (Segment '/')}
    (h : tree.sub? base = some sub) {segs : List (Segment '/')} {item : RawItem} :
    (segs, item) ∈ sub.files ↔ (base ++ segs, item) ∈ tree.files := by
  induction base generalizing tree with
  | nil =>
    cases h
    rfl
  | cons seg base ih =>
    obtain ⟨child, hchild, hsub⟩ := Option.bind_eq_some_iff.mp h
    rw [ih (distinctNames_of_mem_folders hnames (mem_folders_of_child? hchild)) hsub,
      mem_files_child? hnames hchild]
    rfl

/-- The files of a subdirectory are a part of the files. -/
lemma files_child?_sublist {tree child : FmsTree} {name : Segment '/'}
    (h : tree.child? name = some child) :
    (child.files.map Prod.snd).Sublist (tree.files.map Prod.snd) := by
  induction tree with
  | nil => cases h
  | file item hfile rest ih => exact (ih h).cons _
  | folder name' children rest _ ih =>
    simp only [child?] at h
    simp only [files, List.map_append, List.map_map]
    split_ifs at h with hname
    · cases h
      exact List.sublist_append_left _ _
    · exact (ih h).trans (List.sublist_append_right _ _)

/-- The files below a path are files of the tree, in the same order. -/
lemma files_sub?_sublist {tree sub : FmsTree} {base : List (Segment '/')}
    (h : tree.sub? base = some sub) :
    (sub.files.map Prod.snd).Sublist (tree.files.map Prod.snd) := by
  induction base generalizing tree with
  | nil =>
    cases h
    exact List.Sublist.refl _
  | cons seg base ih =>
    obtain ⟨child, hchild, hsub⟩ := Option.bind_eq_some_iff.mp h
    exact (ih hsub).trans (files_child?_sublist hchild)

/-- A path is followed step by step. -/
lemma sub?_append {tree sub : FmsTree} {base segs : List (Segment '/')}
    (h : tree.sub? base = some sub) : tree.sub? (base ++ segs) = sub.sub? segs := by
  induction base generalizing tree with
  | nil =>
    cases h
    rfl
  | cons seg base ih =>
    obtain ⟨child, hchild, hsub⟩ := Option.bind_eq_some_iff.mp h
    rw [List.cons_append, sub?, hchild, Option.bind_some, ih hsub]

/-- The directories above a file are directories of the tree. -/
lemma exists_sub?_of_mem_files {tree : FmsTree} (hnames : tree.DistinctNames)
    {base segs : List (Segment '/')} {item : RawItem} (h : (base ++ segs, item) ∈ tree.files) :
    ∃ sub, tree.sub? base = some sub := by
  induction base generalizing tree with
  | nil => exact ⟨tree, rfl⟩
  | cons seg base ih =>
    obtain ⟨⟨name, child⟩, hfolder, rfl⟩ := List.mem_map.mp (mem_folders_of_mem_files h)
    have hchild := child?_of_mem_folders hnames hfolder
    have hfiles : (base ++ segs, item) ∈ child.files := (mem_files_child? hnames hchild).mpr h
    obtain ⟨sub, hsub⟩ := ih (distinctNames_of_mem_folders hnames hfolder) hfiles
    refine ⟨sub, ?_⟩
    rw [sub?, hchild, Option.bind_some, hsub]

/-- The tree below a path is not deeper than the whole tree. -/
lemma depth_sub?_le {tree sub : FmsTree} {base : List (Segment '/')}
    (h : tree.sub? base = some sub) : sub.depth ≤ tree.depth := by
  induction base generalizing tree with
  | nil =>
    cases h
    exact le_refl _
  | cons seg base ih =>
    obtain ⟨child, hchild, hsub⟩ := Option.bind_eq_some_iff.mp h
    have hsubdepth := ih hsub
    have hdepth := depth_lt_of_mem_folders (mem_folders_of_child? hchild)
    omega

end FmsTree

end EntsoePipeline
