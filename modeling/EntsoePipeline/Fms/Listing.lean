import EntsoePipeline.Fms.Tree
import Mathlib.Data.List.Sort

set_option relaxedAutoImplicit false
set_option autoImplicit false

/-!
# Recursive listings of the file server

The recursive lister walks a directory of the file server page by page, descends into its
subdirectories, prefixes the name of each file by its path below the directory it started from, and
sorts the files by name. On a server that shows a tree it returns the files of the subtree, each
with its relative name.

## Main definitions

* `EntsoePipeline.listFolderRawItemsRecursive` — the lister.
* `EntsoePipeline.Serves` — a server that shows a tree.
* `EntsoePipeline.NamesDirectory` — a folder name of the lister names a directory of the tree.
* `EntsoePipeline.treeServer` — the server of a tree.

## Main results

* `EntsoePipeline.listFolderRawItemsRecursive_ok` — what the lister returns on a tree.
* `EntsoePipeline.serves_treeServer` — every tree has a server.

## Implementation notes

The server answers a path with its pages, and a request behind the last of them fails. The depth of
the recursion is bounded by the recursion limit of the interpreter.
-/

namespace EntsoePipeline

open Py

/-! ## The code -/

/-- The page size. -/
def pageSize : ℕ := 1000

/-- The pages with which the server answers the requests for a path. -/
abbrev FileServer := Str → List (Except PyError (List RawItem))

/-- The path that is requested for a directory below the crawled one. -/
def recursivePath (rootDir folderName currentSubpath : Str) : Str :=
  squeeze '/' (if currentSubpath = [] then '/' :: (rootDir ++ '/' :: (folderName ++ ['/']))
    else '/' :: (rootDir ++ '/' :: (folderName ++ '/' :: (currentSubpath ++ ['/']))))

/-- The relative path of a subdirectory. -/
def nestedSubpath (currentSubpath : Str) (item : RawItem) : Str :=
  strip '/' (if currentSubpath = [] then item.itemName else currentSubpath ++ '/' :: item.itemName)

/-- A file with its relative name. -/
def relativeItem (currentSubpath : Str) (item : RawItem) : RawItem :=
  if currentSubpath = [] then item
  else { item with name := some (currentSubpath ++ '/' :: item.itemName) }

/-- The files of an item: those of a subdirectory, which `recurse` lists, or the file itself. -/
def listItem (recurse : Str → Except PyError (List RawItem)) (currentSubpath : Str)
    (item : RawItem) : Except PyError (List RawItem) :=
  if isFolder item then recurse (nestedSubpath currentSubpath item)
  else .ok [relativeItem currentSubpath item]

/-- The files of the items of a page. -/
def listItems (recurse : Str → Except PyError (List RawItem)) (currentSubpath : Str) :
    List RawItem → Except PyError (List RawItem)
  | [] => .ok []
  | item :: items => do
    let files ← listItem recurse currentSubpath item
    let rest ← listItems recurse currentSubpath items
    return files ++ rest

/-- The files of the pages of a directory, up to the first page that is not full. -/
def listPages (recurse : Str → Except PyError (List RawItem)) (currentSubpath : Str) :
    List (Except PyError (List RawItem)) → Except PyError (List RawItem)
  | [] => .error .apiError
  | page :: pages => do
    let items ← page
    let files ← listItems recurse currentSubpath items
    if items.length < pageSize then return files
    else
      let rest ← listPages recurse currentSubpath pages
      return files ++ rest

/-- `files.sort(key=lambda x: x.get("name", ""))`. -/
def sortByName (files : List RawItem) : List RawItem :=
  files.insertionSort fun a b => a.itemName ≤ b.itemName

/-- The recursive lister, under a recursion limit. -/
def listFolderRawItemsRecursive (server : FileServer) (rootDir folderName : Str) :
    ℕ → Str → Except PyError (List RawItem)
  | 0, _ => .error .recursionError
  | limit + 1, currentSubpath => do
    let files ← listPages (listFolderRawItemsRecursive server rootDir folderName limit)
      currentSubpath (server (recursivePath rootDir folderName currentSubpath))
    return sortByName files

/-! ## The lister on a tree -/

/-- The pages show the items: all but the last one are full. -/
inductive PagesOf : List RawItem → List (Except PyError (List RawItem)) → Prop
  /-- The last page. -/
  | last {items : List RawItem} {pages : List (Except PyError (List RawItem))}
      (h : items.length < pageSize) : PagesOf items (.ok items :: pages)
  /-- A full page. -/
  | next {items more : List RawItem} {pages : List (Except PyError (List RawItem))}
      (h : items.length = pageSize) (hmore : PagesOf more pages) :
      PagesOf (items ++ more) (.ok items :: pages)

/-- The path of a directory. -/
def directoryPath (segs : List (Segment '/')) : Str := '/' :: (renderPath segs ++ ['/'])

/-- A directory that does not exist: the request fails or shows no items. -/
def NoEntries : List (Except PyError (List RawItem)) → Prop
  | .ok items :: _ => items = []
  | _ => True

/-- The server shows a tree below a directory of a root directory. -/
structure Serves (server : FileServer) (root top : Segment '/') (tree : FmsTree) : Prop where
  distinctNames : tree.DistinctNames
  /-- A directory of the tree is shown page by page. -/
  pages : ∀ segs sub, tree.sub? segs = some sub →
    PagesOf sub.entries (server (directoryPath (root :: top :: segs)))
  /-- No other directory is shown. -/
  missing : ∀ segs, tree.sub? segs = none →
    NoEntries (server (directoryPath (root :: top :: segs)))

/-- A folder name of the lister names a directory below `top`: the requests for it, and for what is
below it, are those for the directory. -/
def NamesDirectory (root top : Segment '/') (folderName : Str) (base : List (Segment '/')) : Prop :=
  ∀ rel, recursivePath root.text folderName (renderPath rel) =
    directoryPath (root :: top :: (base ++ rel))

/-- The part of a directory path that belongs to the last segments. -/
def pathBelow (rel : List (Segment '/')) : Str :=
  match rel with
  | [] => []
  | seg :: segs => renderPath (seg :: segs) ++ ['/']

/-- The path of a subdirectory is that of the directory with the names below it. -/
lemma directoryPath_append {segs : List (Segment '/')} (h : segs ≠ []) (rel : List (Segment '/')) :
    directoryPath (segs ++ rel) = '/' :: (renderPath segs ++ '/' :: pathBelow rel) := by
  cases rel with
  | nil => rw [List.append_nil, directoryPath, pathBelow]
  | cons seg rel =>
    rw [directoryPath, renderPath_append h (by simp), pathBelow, List.append_assoc,
      List.cons_append]

/-- The path that is requested below the path of a directory, behind which more may stand. -/
lemma recursivePath_renderPath_append (root top : Segment '/') (base rel : List (Segment '/'))
    (tail : Str) :
    recursivePath root.text (renderPath (top :: base) ++ tail) (renderPath rel) =
      '/' :: (renderPath (root :: top :: base) ++ squeeze '/' (tail ++ '/' :: pathBelow rel)) := by
  have hroot : renderPath (root :: top :: base) = root.text ++ '/' :: renderPath (top :: base) :=
    renderPath_cons (by simp)
  rw [← squeeze_cons_renderPath_append (by simp), hroot]
  unfold recursivePath
  cases rel with
  | nil =>
    rw [if_pos (by rfl), pathBelow]
    simp only [List.append_assoc, List.cons_append]
  | cons seg rel =>
    rw [if_neg (renderPath_ne_nil (by simp)), pathBelow]
    simp only [List.append_assoc, List.cons_append]

/-- The path below a directory has no two slashes in a row. -/
lemma squeeze_pathBelow (rel : List (Segment '/')) :
    squeeze '/' (pathBelow rel) = pathBelow rel := by
  cases rel with
  | nil => rfl
  | cons seg rel =>
    rw [pathBelow, squeeze_renderPath_append (by simp)]
    rfl

/-- The path of a directory names it. -/
lemma namesDirectory_renderPath (root top : Segment '/') (base : List (Segment '/')) :
    NamesDirectory root top (renderPath (top :: base)) base := by
  intro rel
  have hpath := recursivePath_renderPath_append root top base rel []
  have hsqueeze : squeeze '/' ('/' :: pathBelow rel) = '/' :: pathBelow rel := by
    cases rel with
    | nil => rfl
    | cons seg rel =>
      rw [pathBelow, squeeze_cons_renderPath_append (by simp)]
      rfl
  rw [List.append_nil, List.nil_append, hsqueeze] at hpath
  rw [hpath, ← directoryPath_append (by simp)]
  rfl

/-- The path of a directory with a separator behind it names the directory too. -/
lemma namesDirectory_renderPath_concat (root top : Segment '/') (base : List (Segment '/')) :
    NamesDirectory root top (renderPath (top :: base) ++ ['/']) base := by
  intro rel
  have hsqueeze : squeeze '/' (['/'] ++ '/' :: pathBelow rel) = '/' :: pathBelow rel := by
    rw [List.singleton_append, squeeze, if_pos ⟨rfl, rfl⟩, squeeze_pathBelow]
  rw [recursivePath_renderPath_append, hsqueeze, ← directoryPath_append (by simp)]
  rfl

/-- The subpath of a subfolder is that of the folder with its name. -/
lemma nestedSubpath_eq (rel : List (Segment '/')) (name : Segment '/') :
    nestedSubpath (renderPath rel) (folderItem name) = renderPath (rel ++ [name]) := by
  have hname : (folderItem name).itemName = renderPath [name] := (join_singleton _ _).symm
  unfold nestedSubpath
  rw [hname]
  cases rel with
  | nil => rw [if_pos (by rfl), strip_renderPath, List.nil_append]
  | cons seg segs =>
    rw [if_neg (renderPath_ne_nil (by simp)), ← renderPath_append (by simp) (by simp),
      strip_renderPath]

section Lister

variable {recurse : Str → Except PyError (List RawItem)} {currentSubpath : Str}

/-- Items that follow one another are listed one after the other. -/
lemma listItems_append {items more files : List RawItem}
    (h : listItems recurse currentSubpath (items ++ more) = .ok files) :
    ∃ front rest, listItems recurse currentSubpath items = .ok front ∧
      listItems recurse currentSubpath more = .ok rest ∧ files = front ++ rest := by
  induction items generalizing files with
  | nil => exact ⟨[], files, rfl, h, rfl⟩
  | cons item items ih =>
    rw [List.cons_append, listItems] at h
    rw [listItems]
    cases hitem : listItem recurse currentSubpath item with
    | error e =>
      rw [hitem] at h
      cases h
    | ok own =>
      cases hrest : listItems recurse currentSubpath (items ++ more) with
      | error e =>
        rw [hitem, hrest] at h
        cases h
      | ok others =>
        rw [hitem, hrest] at h
        cases h
        obtain ⟨front, rest, hfront, hmore, rfl⟩ := ih hrest
        refine ⟨own ++ front, rest, ?_, hmore, by rw [List.append_assoc]⟩
        rw [hfront]
        rfl

/-- The pages of a directory give the files of its items. -/
lemma listPages_of_pagesOf {items files : List RawItem}
    {pages : List (Except PyError (List RawItem))} (hpages : PagesOf items pages)
    (h : listItems recurse currentSubpath items = .ok files) :
    listPages recurse currentSubpath pages = .ok files := by
  induction hpages generalizing files with
  | last hlen =>
    rw [listPages]
    simp only [bind, Except.bind, h, if_pos hlen]
    rfl
  | @next items _ _ hlen _ ih =>
    obtain ⟨front, rest, hfront, hmore, rfl⟩ := listItems_append h
    have hfull : ¬ items.length < pageSize := by omega
    rw [listPages]
    simp only [bind, Except.bind, hfront, ih hmore, if_neg hfull]
    rfl

end Lister

/-- The files of a tree with their names relative to a directory above it. -/
def relativeFiles (rel : List (Segment '/')) (tree : FmsTree) : List RawItem :=
  tree.files.map fun f => relativeItem (renderPath (rel ++ f.1)) f.2

/-- The files below a subdirectory come before those of the entries after it. -/
lemma relativeFiles_folder (rel : List (Segment '/')) (name : Segment '/')
    (children rest : FmsTree) : relativeFiles rel (.folder name children rest) =
      relativeFiles (rel ++ [name]) children ++ relativeFiles rel rest := by
  simp [relativeFiles, FmsTree.files, Function.comp_def]

/-- The files of the entries of a directory, when the lister returns the files of each
subdirectory. -/
lemma listItems_entries {recurse : Str → Except PyError (List RawItem)} {rel : List (Segment '/')}
    {tree : FmsTree}
    (hrecurse : ∀ folder ∈ tree.folders, ∃ items,
      recurse (nestedSubpath (renderPath rel) (folderItem folder.1)) = .ok items ∧
        items.Perm (relativeFiles (rel ++ [folder.1]) folder.2)) :
    ∃ items, listItems recurse (renderPath rel) tree.entries = .ok items ∧
      items.Perm (relativeFiles rel tree) := by
  induction tree with
  | nil => exact ⟨[], rfl, List.Perm.refl _⟩
  | file item hfile rest ih =>
    obtain ⟨items, hitems, hperm⟩ := ih hrecurse
    refine ⟨relativeItem (renderPath rel) item :: items, ?_, ?_⟩
    · have hitem : listItem recurse (renderPath rel) item =
          .ok [relativeItem (renderPath rel) item] := if_neg (by simp [hfile])
      rw [FmsTree.entries, listItems, hitem, hitems]
      rfl
    · rw [relativeFiles, FmsTree.files, List.map_cons, List.append_nil]
      exact hperm.cons _
  | folder name children rest _ ih =>
    obtain ⟨items, hitems, hperm⟩ := ih fun folder hfolder =>
      hrecurse folder (List.mem_cons_of_mem _ hfolder)
    obtain ⟨own, hown, hownperm⟩ := hrecurse (name, children) List.mem_cons_self
    refine ⟨own ++ items, ?_, ?_⟩
    · have hitem : listItem recurse (renderPath rel) (folderItem name) = .ok own := hown
      rw [FmsTree.entries, listItems, hitem, hitems]
      rfl
    · rw [relativeFiles_folder]
      exact hownperm.append hperm

section Directory

variable {server : FileServer} {root top : Segment '/'} {tree : FmsTree} {folderName : Str}
  {base : List (Segment '/')}

/-- **The lister on a tree.** Started at a directory of a tree that the server shows, the recursive
lister returns, in some order, the files below the directory, with their names relative to it.

**Proof sketch.** Induction on the recursion limit, which exceeds the depth of the tree. The
entries of a directory are listed one by one; a subdirectory is listed by a recursive call. -/
theorem listFolderRawItemsRecursive_ok (hserves : Serves server root top tree)
    (hnames : NamesDirectory root top folderName base) {rel : List (Segment '/')} {sub : FmsTree}
    (hsub : tree.sub? (base ++ rel) = some sub) {limit : ℕ} (hlimit : sub.depth < limit) :
    ∃ items, listFolderRawItemsRecursive server root.text folderName limit (renderPath rel) =
      .ok items ∧ items.Perm (relativeFiles rel sub) := by
  induction limit generalizing rel sub with
  | zero => omega
  | succ limit ih =>
    have hrecurse : ∀ folder ∈ sub.folders, ∃ items,
        listFolderRawItemsRecursive server root.text folderName limit
          (nestedSubpath (renderPath rel) (folderItem folder.1)) = .ok items ∧
            items.Perm (relativeFiles (rel ++ [folder.1]) folder.2) := by
      intro folder hfolder
      have hdepth := FmsTree.depth_lt_of_mem_folders hfolder
      have hdistinct := FmsTree.distinctNames_sub? hserves.distinctNames hsub
      have hchild := FmsTree.child?_of_mem_folders hdistinct hfolder
      rw [nestedSubpath_eq]
      apply ih _ (by omega)
      rw [← List.append_assoc, FmsTree.sub?_append hsub, FmsTree.sub?, hchild]
      rfl
    obtain ⟨items, hitems, hperm⟩ := listItems_entries hrecurse
    refine ⟨sortByName items, ?_, (List.perm_insertionSort _ _).trans hperm⟩
    have hpages := hserves.pages _ _ hsub
    rw [listFolderRawItemsRecursive, hnames, listPages_of_pagesOf hpages hitems]
    rfl

/-- Started at a directory that does not exist, the lister returns no file. -/
lemma eq_nil_of_listFolderRawItemsRecursive (hserves : Serves server root top tree)
    (hnames : NamesDirectory root top folderName base) (hsub : tree.sub? base = none) {limit : ℕ}
    {items : List RawItem}
    (h : listFolderRawItemsRecursive server root.text folderName limit [] = .ok items) :
    items = [] := by
  cases limit with
  | zero => cases h
  | succ limit =>
    have hempty := hserves.missing _ hsub
    have hpath : recursivePath root.text folderName [] = directoryPath (root :: top :: base) := by
      have hrel := hnames []
      rwa [List.append_nil] at hrel
    rw [listFolderRawItemsRecursive, hpath] at h
    generalize server (directoryPath (root :: top :: base)) = pages at h hempty
    rcases pages with _ | ⟨e | items, pages⟩
    · cases h
    · cases h
    · change items = [] at hempty
      subst hempty
      rw [listPages] at h
      cases h
      rfl

end Directory

/-! ## The server of a tree -/

/-- The pages of a list of items. -/
def paginate (items : List RawItem) : List (Except PyError (List RawItem)) :=
  if items.length < pageSize then [.ok items]
  else .ok (items.take pageSize) :: paginate (items.drop pageSize)
termination_by items.length
decreasing_by
  have hpos : 0 < pageSize := by decide
  rw [List.length_drop]
  omega

/-- The pages of the server are pages of the items. -/
lemma pagesOf_paginate (items : List RawItem) : PagesOf items (paginate items) := by
  fun_induction paginate items with
  | case1 items hlast => exact .last hlast
  | case2 items hfull ih =>
    have hpage : (items.take pageSize).length = pageSize := by
      rw [List.length_take]
      omega
    have hpages := PagesOf.next hpage ih
    rwa [List.take_append_drop] at hpages

/-- The server that shows a tree below a directory, and refuses every other path. -/
def treeServer (root top : Segment '/') (tree : FmsTree) : FileServer := fun path =>
  match parsePath (c := '/') path with
  | some (root' :: top' :: segs) =>
    if root' = root ∧ top' = top then
      match tree.sub? segs with
      | some sub => paginate sub.entries
      | none => []
    else []
  | _ => []

/-- Every tree has a server. -/
theorem serves_treeServer (root top : Segment '/') {tree : FmsTree}
    (hnames : tree.DistinctNames) : Serves (treeServer root top tree) root top tree := by
  have hserver : ∀ segs, treeServer root top tree (directoryPath (root :: top :: segs)) =
      match tree.sub? segs with
      | some sub => paginate sub.entries
      | none => [] := by
    intro segs
    unfold treeServer directoryPath
    rw [parsePath_wrapped_renderPath (by simp)]
    exact if_pos ⟨rfl, rfl⟩
  constructor
  · exact hnames
  · intro segs sub hsub
    rw [hserver, hsub]
    exact pagesOf_paginate _
  · intro segs hsub
    rw [hserver, hsub]
    exact trivial

end EntsoePipeline
