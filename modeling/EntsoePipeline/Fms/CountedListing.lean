import EntsoePipeline.Fms.Listing
import EntsoePipeline.Lib.Counting

set_option relaxedAutoImplicit false
set_option autoImplicit false

/-!
# Requests and order of recursive listings

The recursive lister counts its requests in a counter of its caller, before it sends them. On a
tree whose entries have distinct names it returns every file once, in ascending order of the
relative names, and it sends as many requests as the directories of the tree have pages.

## Main definitions

* `EntsoePipeline.countedListFolderRawItemsRecursive` — the lister with its counter.
* `EntsoePipeline.FmsTree.WellNamed` — the names of a tree are segments, distinct in a directory.
* `EntsoePipeline.FmsTree.requests` — the pages of the directories of a tree.
* `EntsoePipeline.ShowsPages` — a server that shows a tree page by page.

## Main results

* `EntsoePipeline.erases_countedListFolderRawItemsRecursive` — without its counter the lister is
  `listFolderRawItemsRecursive`.
* `EntsoePipeline.counts_countedListFolderRawItemsRecursive` — what the lister returns and counts.
* `EntsoePipeline.countedListFolderRawItemsRecursive_complete` — every file of the tree is listed
  once and in order.

## Implementation notes

A full last page needs one more request, which shows an empty page, so a directory of `n` entries
is listed with `n / 1000 + 1` requests.
-/

namespace EntsoePipeline

open Py Counting

/-! ## The code -/

/-- The files of an item: those of a subdirectory, which `recurse` lists, or the file itself. -/
def countedListItem (recurse : Str → Counted PyError (List RawItem)) (currentSubpath : Str)
    (item : RawItem) : Counted PyError (List RawItem) :=
  if isFolder item then recurse (nestedSubpath currentSubpath item)
  else pure [relativeItem currentSubpath item]

/-- The files of the items of a page. -/
def countedListItems (recurse : Str → Counted PyError (List RawItem)) (currentSubpath : Str) :
    List RawItem → Counted PyError (List RawItem)
  | [] => pure []
  | item :: items => do
    let files ← countedListItem recurse currentSubpath item
    let rest ← countedListItems recurse currentSubpath items
    return files ++ rest

/-- The files of the pages of a directory. Every request is counted before it is sent. -/
def countedListPages (recurse : Str → Counted PyError (List RawItem)) (currentSubpath : Str) :
    List (Except PyError (List RawItem)) → Counted PyError (List RawItem)
  | [] => do
    tick
    throw .apiError
  | page :: pages => do
    tick
    let items ← call page
    let files ← countedListItems recurse currentSubpath items
    if items.length < pageSize then return files
    else
      let rest ← countedListPages recurse currentSubpath pages
      return files ++ rest

/-- The recursive lister with the counter of its requests, under a recursion limit. -/
def countedListFolderRawItemsRecursive (server : FileServer) (rootDir folderName : Str) :
    ℕ → Str → Counted PyError (List RawItem)
  | 0, _ => throw .recursionError
  | limit + 1, currentSubpath => do
    let files ← countedListPages
      (countedListFolderRawItemsRecursive server rootDir folderName limit) currentSubpath
      (server (recursivePath rootDir folderName currentSubpath))
    return sortByName files

/-! ## The lister without its counter -/

section Erasure

variable {recurse : Str → Counted PyError (List RawItem)}
  {recurse' : Str → Except PyError (List RawItem)}

/-- Without its counter the counting lister of items is the plain one. -/
lemma erases_countedListItems (h : ∀ subpath, Erases (recurse subpath) (recurse' subpath))
    (currentSubpath : Str) (items : List RawItem) :
    Erases (countedListItems recurse currentSubpath items)
      (listItems recurse' currentSubpath items) := by
  induction items with
  | nil => exact erases_pure _
  | cons item items ih =>
    rw [countedListItems, listItems]
    apply Erases.bind
    · unfold countedListItem listItem
      split_ifs
      · exact h _
      · exact erases_pure _
    · exact fun files => ih.bind fun rest => erases_pure _

/-- Without its counter the counting lister of pages is the plain one. -/
lemma erases_countedListPages (h : ∀ subpath, Erases (recurse subpath) (recurse' subpath))
    (currentSubpath : Str) (pages : List (Except PyError (List RawItem))) :
    Erases (countedListPages recurse currentSubpath pages)
      (listPages recurse' currentSubpath pages) := by
  induction pages with
  | nil =>
    rw [countedListPages, listPages]
    exact (erases_throw PyError.apiError).tick_bind
  | cons page pages ih =>
    rw [countedListPages, listPages]
    apply Erases.tick_bind
    refine (erases_call page).bind fun items => ?_
    refine (erases_countedListItems h currentSubpath items).bind fun files => ?_
    split_ifs
    · exact erases_pure _
    · exact ih.bind fun rest => erases_pure _

/-- **The counter does not steer the lister.** Without its counter the lister is the one that does
not count. -/
theorem erases_countedListFolderRawItemsRecursive (server : FileServer) (rootDir folderName : Str)
    (limit : ℕ) (currentSubpath : Str) :
    Erases (countedListFolderRawItemsRecursive server rootDir folderName limit currentSubpath)
      (listFolderRawItemsRecursive server rootDir folderName limit currentSubpath) := by
  induction limit generalizing currentSubpath with
  | zero => exact erases_throw _
  | succ limit ih =>
    rw [countedListFolderRawItemsRecursive, listFolderRawItemsRecursive]
    exact (erases_countedListPages ih _ _).bind fun files => erases_pure _

end Erasure

/-! ## Trees with distinct names -/

namespace FmsTree

/-- The files have segments for names, and the entries of every directory have distinct names. -/
def WellNamed : FmsTree → Prop
  | nil => True
  | file item _ rest =>
    (∃ name : Segment '/', item.name = some name.text) ∧
      item.itemName ∉ rest.entries.map RawItem.itemName ∧ rest.WellNamed
  | folder name children rest =>
    children.WellNamed ∧ name.text ∉ rest.entries.map RawItem.itemName ∧ rest.WellNamed

/-- The directories below the directory. -/
def subdirectories : FmsTree → List FmsTree
  | nil => []
  | file _ _ rest => rest.subdirectories
  | folder _ children rest => children :: (children.subdirectories ++ rest.subdirectories)

/-- The directory and those below it. -/
def directories (tree : FmsTree) : List FmsTree := tree :: tree.subdirectories

/-- The number of requests with which a directory is listed. -/
def pageRequests (tree : FmsTree) : ℕ := tree.entries.length / pageSize + 1

/-- The number of requests with which a directory and all below it are listed. -/
def requests (tree : FmsTree) : ℕ := (tree.directories.map pageRequests).sum

/-- The path of a file, relative to the directory. -/
def filePath (f : List (Segment '/') × RawItem) : List Str := f.1.map Segment.text ++ [f.2.itemName]

/-- A file under its relative name. -/
def namedFile (f : List (Segment '/') × RawItem) : RawItem :=
  { f.2 with name := some (join ['/'] (filePath f)) }

variable {tree child : FmsTree} {name : Segment '/'}

/-- The name of a subfolder is that of an entry. -/
lemma itemName_mem_of_mem_folders (h : name ∈ tree.folders.map Prod.fst) :
    name.text ∈ tree.entries.map RawItem.itemName := by
  induction tree with
  | nil => cases h
  | file item hfile rest ih => exact List.mem_cons_of_mem _ (ih h)
  | folder name' children rest _ ih =>
    rw [folders, List.map_cons, List.mem_cons] at h
    rcases h with rfl | h
    · exact List.mem_cons_self
    · exact List.mem_cons_of_mem _ (ih h)

/-- Distinct names of entries are distinct names of subdirectories. -/
lemma WellNamed.distinctNames (h : tree.WellNamed) : tree.DistinctNames := by
  induction tree with
  | nil => trivial
  | file item hfile rest ih => exact ih h.2.2
  | folder name children rest ihchildren ih =>
    obtain ⟨hchildren, hname, hrest⟩ := h
    exact ⟨ihchildren hchildren, ih hrest, fun hmem => hname (itemName_mem_of_mem_folders hmem)⟩

/-- Every file of a well-named tree has a name. -/
lemma WellNamed.exists_name (h : tree.WellNamed) {f : List (Segment '/') × RawItem}
    (hf : f ∈ tree.files) : ∃ name : Segment '/', f.2.name = some name.text := by
  induction tree generalizing f with
  | nil => cases hf
  | file item hfile rest ih =>
    rw [files, List.mem_cons] at hf
    rcases hf with rfl | hf
    · exact h.1
    · exact ih h.2.2 hf
  | folder name children rest ihchildren ih =>
    rw [files, List.mem_append, List.mem_map] at hf
    rcases hf with ⟨g, hg, rfl⟩ | hf
    · obtain ⟨seg, hseg⟩ := ihchildren h.1 hg
      exact ⟨seg, hseg⟩
    · exact ih h.2.2 hf

/-- The path of a file begins with the name of an entry. -/
lemma head?_filePath {f : List (Segment '/') × RawItem} (hf : f ∈ tree.files) :
    ∃ first ∈ tree.entries.map RawItem.itemName, (filePath f).head? = some first := by
  induction tree generalizing f with
  | nil => cases hf
  | file item hfile rest ih =>
    rw [files, List.mem_cons] at hf
    rcases hf with rfl | hf
    · exact ⟨item.itemName, List.mem_cons_self, rfl⟩
    · obtain ⟨first, hfirst, hhead⟩ := ih hf
      exact ⟨first, List.mem_cons_of_mem _ hfirst, hhead⟩
  | folder name children rest _ ih =>
    rw [files, List.mem_append, List.mem_map] at hf
    rcases hf with ⟨g, hg, rfl⟩ | hf
    · exact ⟨name.text, List.mem_cons_self, rfl⟩
    · obtain ⟨first, hfirst, hhead⟩ := ih hf
      exact ⟨first, List.mem_cons_of_mem _ hfirst, hhead⟩

/-- With distinct names, every file has its own path. -/
lemma WellNamed.nodup_filePath (h : tree.WellNamed) : (tree.files.map filePath).Nodup := by
  induction tree with
  | nil => exact List.nodup_nil
  | file item hfile rest ih =>
    obtain ⟨-, hname, hrest⟩ := h
    rw [files, List.map_cons, List.nodup_cons]
    refine ⟨fun hmem => ?_, ih hrest⟩
    obtain ⟨f, hf, hpath⟩ := List.mem_map.mp hmem
    obtain ⟨first, hfirst, hhead⟩ := head?_filePath hf
    rw [hpath] at hhead
    cases hhead
    exact hname hfirst
  | folder name children rest ihchildren ih =>
    obtain ⟨hchildren, hname, hrest⟩ := h
    have hbelow : (children.files.map fun f => (name :: f.1, f.2)).map filePath =
        (children.files.map filePath).map fun path => name.text :: path := by
      simp [filePath, Function.comp_def]
    rw [files, List.map_append, hbelow]
    refine List.Nodup.append ((ihchildren hchildren).map fun _ _ => List.tail_eq_of_cons_eq)
      (ih hrest) ?_
    -- the paths below the subdirectory begin with its name, which no other entry has
    intro path hleft hright
    obtain ⟨tail, -, rfl⟩ := List.mem_map.mp hleft
    obtain ⟨f, hf, hpath⟩ := List.mem_map.mp hright
    obtain ⟨first, hfirst, hhead⟩ := head?_filePath hf
    rw [hpath] at hhead
    cases hhead
    exact hname hfirst

/-- The relative names of the files are distinct. -/
lemma WellNamed.nodup_namedFile (h : tree.WellNamed) :
    ((tree.files.map namedFile).map RawItem.itemName).Nodup := by
  have hnames : (tree.files.map namedFile).map RawItem.itemName =
      (tree.files.map filePath).map (join ['/']) := by
    simp [namedFile, RawItem.itemName, Function.comp_def]
  rw [hnames]
  refine List.Nodup.map_on ?_ h.nodup_filePath
  have hsplit : ∀ path ∈ tree.files.map filePath, split '/' (join ['/'] path) = path := by
    intro path hpath
    obtain ⟨f, hf, rfl⟩ := List.mem_map.mp hpath
    obtain ⟨name, hname⟩ := h.exists_name hf
    refine split_join (fun part hpart => ?_) (by simp [filePath])
    rw [filePath, List.mem_append, List.mem_map, List.mem_singleton, RawItem.itemName, hname]
      at hpart
    rcases hpart with ⟨seg, -, rfl⟩ | rfl
    · exact seg.sep_not_mem
    · exact name.sep_not_mem
  intro path hpath path' hpath' heq
  rw [← hsplit path hpath, ← hsplit path' hpath', heq]

/-- The requests for a directory are those for its own pages and those for its subdirectories. -/
lemma requests_eq (tree : FmsTree) :
    tree.requests = tree.pageRequests + (tree.folders.map fun f => f.2.requests).sum := by
  have hbelow : ∀ tree : FmsTree, (tree.subdirectories.map pageRequests).sum =
      (tree.folders.map fun f => f.2.requests).sum := by
    intro tree
    induction tree with
    | nil => rfl
    | file item hfile rest ih => exact ih
    | folder name children rest _ ih =>
      rw [subdirectories, folders, List.map_cons, List.map_append, List.map_cons, List.sum_cons,
        List.sum_append, List.sum_cons, ih, requests, directories, List.map_cons, List.sum_cons,
        Nat.add_assoc]
  rw [requests, directories, List.map_cons, List.sum_cons, hbelow]

end FmsTree

/-! ## What the lister counts -/

section Pages

variable {recurse : Str → Counted PyError (List RawItem)} {currentSubpath : Str}

/-- The files of each item, with the requests for them. -/
def ListsItems (recurse : Str → Counted PyError (List RawItem)) (currentSubpath : Str) :
    List (List RawItem × ℕ) → List RawItem → Prop :=
  List.Forall₂ fun result item =>
    Counts (countedListItem recurse currentSubpath item) result.1 result.2

/-- The requests for some items are those of their subfolders. -/
lemma counts_countedListItems {results : List (List RawItem × ℕ)} {items : List RawItem}
    (h : ListsItems recurse currentSubpath results items) :
    Counts (countedListItems recurse currentSubpath items) (results.flatMap Prod.fst)
      (results.map Prod.snd).sum := by
  induction h with
  | nil => exact counts_pure _
  | cons hitem _ ih =>
    rw [countedListItems, List.flatMap_cons, List.map_cons, List.sum_cons]
    exact hitem.bind (ih.map _)

/-- The pages of a directory are counted, and then the requests for its items. -/
lemma counts_countedListPages {items : List RawItem} {pages : List (Except PyError (List RawItem))}
    (hpages : PagesOf items pages) {results : List (List RawItem × ℕ)}
    (h : ListsItems recurse currentSubpath results items) :
    Counts (countedListPages recurse currentSubpath pages) (results.flatMap Prod.fst)
      (items.length / pageSize + 1 + (results.map Prod.snd).sum) := by
  induction hpages generalizing results with
  | @last items pages hlen =>
    have hcount : items.length / pageSize + 1 + (results.map Prod.snd).sum =
        1 + (0 + (results.map Prod.snd).sum) := by
      rw [Nat.div_eq_of_lt hlen]
      omega
    rw [countedListPages, hcount]
    refine counts_tick.bind ((counts_call items).bind ?_)
    simp only [if_pos hlen]
    exact (counts_countedListItems h).map id
  | @next items more pages hlen _ ih =>
    have hfront := List.forall₂_take_append _ _ _ h
    have hmore := List.forall₂_drop_append _ _ _ h
    have hfiles : results.flatMap Prod.fst = (results.take items.length).flatMap Prod.fst ++
        (results.drop items.length).flatMap Prod.fst := by
      rw [← List.flatMap_append, List.take_append_drop]
    have hsum : (results.map Prod.snd).sum = ((results.take items.length).map Prod.snd).sum +
        ((results.drop items.length).map Prod.snd).sum := by
      rw [← List.sum_append, ← List.map_append, List.take_append_drop]
    have hdiv : (items ++ more).length / pageSize = more.length / pageSize + 1 := by
      rw [List.length_append, hlen, Nat.add_div_left _ (by decide)]
    have hcount : (items ++ more).length / pageSize + 1 + (results.map Prod.snd).sum =
        1 + (0 + (((results.take items.length).map Prod.snd).sum +
          (more.length / pageSize + 1 + ((results.drop items.length).map Prod.snd).sum))) := by
      omega
    rw [countedListPages, hcount, hfiles]
    refine counts_tick.bind ((counts_call items).bind ((counts_countedListItems hfront).bind ?_))
    rw [if_neg (by omega)]
    exact (ih hmore).map _

/-- The entries of a directory, when each subdirectory is listed. -/
lemma listsItems_entries {rel : List (Segment '/')} {tree : FmsTree}
    (hrecurse : ∀ folder ∈ tree.folders, ∃ items,
      Counts (recurse (nestedSubpath (renderPath rel) (folderItem folder.1))) items
        folder.2.requests ∧ items.Perm (relativeFiles (rel ++ [folder.1]) folder.2)) :
    ∃ results, ListsItems recurse (renderPath rel) results tree.entries ∧
      (results.flatMap Prod.fst).Perm (relativeFiles rel tree) ∧
        (results.map Prod.snd).sum = (tree.folders.map fun f => f.2.requests).sum := by
  induction tree with
  | nil => exact ⟨[], .nil, .refl _, rfl⟩
  | file item hfile rest ih =>
    obtain ⟨results, hitems, hperm, hsum⟩ := ih hrecurse
    have hitem : Counts (countedListItem recurse (renderPath rel) item)
        [relativeItem (renderPath rel) item] 0 := by
      rw [countedListItem, if_neg (by simp [hfile])]
      exact counts_pure _
    refine ⟨([relativeItem (renderPath rel) item], 0) :: results, .cons hitem hitems, ?_, ?_⟩
    · rw [relativeFiles, FmsTree.files, List.map_cons, List.append_nil]
      exact hperm.cons _
    · rw [List.map_cons, List.sum_cons, hsum, Nat.zero_add, FmsTree.folders]
  | folder name children rest _ ih =>
    obtain ⟨results, hitems, hperm, hsum⟩ := ih fun folder hfolder =>
      hrecurse folder (List.mem_cons_of_mem _ hfolder)
    obtain ⟨own, hown, hownperm⟩ := hrecurse (name, children) List.mem_cons_self
    refine ⟨(own, children.requests) :: results, .cons hown hitems, ?_, ?_⟩
    · rw [relativeFiles_folder]
      exact hownperm.append hperm
    · rw [List.map_cons, List.sum_cons, hsum, FmsTree.folders, List.map_cons, List.sum_cons]

end Pages

/-! ## The lister on a tree -/

/-- The server shows the directories of a tree, which stands below a directory, page by page. -/
def ShowsPages (server : FileServer) (dir : List (Segment '/')) (tree : FmsTree) : Prop :=
  ∀ rel sub, tree.sub? rel = some sub →
    PagesOf sub.entries (server (directoryPath (dir ++ rel)))

section Tree

variable {server : FileServer} {root top : Segment '/'} {base : List (Segment '/')}
  {tree : FmsTree}

/-- **What the lister counts.** Started at the directory of a tree that the server shows page by
page, the recursive lister returns the files of the tree, in some order, and counts the pages of all
directories.

**Proof sketch.** Induction on the recursion limit, which exceeds the depth of the tree. The
requests for a directory are those for its pages and those of the recursive calls. -/
theorem counts_countedListFolderRawItemsRecursive (hnames : tree.DistinctNames)
    (hserver : ShowsPages server (root :: top :: base) tree) {rel : List (Segment '/')}
    {sub : FmsTree} (hsub : tree.sub? rel = some sub) {limit : ℕ} (hlimit : sub.depth < limit) :
    ∃ items, Counts (countedListFolderRawItemsRecursive server root.text (renderPath (top :: base))
        limit (renderPath rel)) (sortByName items) sub.requests ∧
      items.Perm (relativeFiles rel sub) := by
  induction limit generalizing rel sub with
  | zero => omega
  | succ limit ih =>
    have hrecurse : ∀ folder ∈ sub.folders, ∃ items,
        Counts (countedListFolderRawItemsRecursive server root.text (renderPath (top :: base))
          limit (nestedSubpath (renderPath rel) (folderItem folder.1))) items
            folder.2.requests ∧ items.Perm (relativeFiles (rel ++ [folder.1]) folder.2) := by
      intro folder hfolder
      have hdepth := FmsTree.depth_lt_of_mem_folders hfolder
      have hdistinct := FmsTree.distinctNames_sub? hnames hsub
      have hchild := FmsTree.child?_of_mem_folders hdistinct hfolder
      rw [nestedSubpath_eq]
      have hfolderSub : tree.sub? (rel ++ [folder.1]) = some folder.2 := by
        rw [FmsTree.sub?_append hsub, FmsTree.sub?, hchild]
        rfl
      obtain ⟨items, hcounts, hperm⟩ := ih hfolderSub (by omega)
      exact ⟨_, hcounts, (List.perm_insertionSort _ _).trans hperm⟩
    obtain ⟨results, hitems, hperm, hsum⟩ := listsItems_entries hrecurse
    refine ⟨_, ?_, hperm⟩
    have hpages := hserver _ _ hsub
    have hpath : recursivePath root.text (renderPath (top :: base)) (renderPath rel) =
        directoryPath (root :: top :: base ++ rel) := namesDirectory_renderPath root top base rel
    rw [countedListFolderRawItemsRecursive, hpath, FmsTree.requests_eq, FmsTree.pageRequests,
      ← hsum]
    exact (counts_countedListPages hpages hitems).map sortByName

/-- The relative names that the lister gives to the files of a tree. -/
lemma relativeFiles_eq (hnames : tree.WellNamed) :
    relativeFiles [] tree = tree.files.map FmsTree.namedFile := by
  refine List.map_congr_left fun f hf => ?_
  obtain ⟨segs, item⟩ := f
  obtain ⟨name, hname⟩ := hnames.exists_name hf
  rw [List.nil_append, relativeItem, FmsTree.namedFile, FmsTree.filePath]
  cases segs with
  | nil =>
    rw [if_pos (by rfl), List.map_nil, List.nil_append, join_singleton, RawItem.itemName, hname]
    cases item
    cases hname
    rfl
  | cons seg segs =>
    rw [if_neg (renderPath_ne_nil (by simp)), join_concat (by simp)]
    rfl

/-- Sorted files with distinct names are in strictly ascending order. -/
lemma pairwise_lt_sortByName {files : List RawItem} (h : (files.map RawItem.itemName).Nodup) :
    ((sortByName files).map RawItem.itemName).Pairwise (· < ·) := by
  have hsorted : (sortByName files).Pairwise fun a b => a.itemName ≤ b.itemName :=
    List.pairwise_insertionSort _ files
  have hnodup : ((sortByName files).map RawItem.itemName).Nodup :=
    ((List.perm_insertionSort _ files).map _).nodup_iff.mpr h
  exact (List.pairwise_map.mpr hsorted).imp₂ (fun _ _ hle hne => lt_of_le_of_ne hle hne) hnodup

/-- **Complete listings.** Started at the directory of a tree whose files and directories have
distinct names, on a server that shows it page by page, the recursive lister returns every file of
the tree once, under its path relative to the directory, in ascending order of the names, and
increases the counter by the pages of all directories. The recursion is one deeper than the tree.

**Proof sketch.** What the lister returns and counts is
`counts_countedListFolderRawItemsRecursive`. The relative names are distinct, so sorting by them is
strict. -/
theorem countedListFolderRawItemsRecursive_complete (hnames : tree.WellNamed)
    (hserver : ShowsPages server (root :: top :: base) tree) (extra count : ℕ) :
    ∃ items, (countedListFolderRawItemsRecursive server root.text (renderPath (top :: base))
        (tree.depth + 1 + extra) []).from count =
          (.ok items,
            count + (tree.directories.map fun dir => dir.entries.length / pageSize + 1).sum) ∧
      items.Perm (tree.files.map FmsTree.namedFile) ∧
      (items.map RawItem.itemName).Pairwise (· < ·) := by
  have hsub : tree.sub? [] = some tree := rfl
  have hlimit : tree.depth < tree.depth + 1 + extra := by omega
  obtain ⟨items, hcounts, hperm⟩ := counts_countedListFolderRawItemsRecursive
    hnames.distinctNames hserver hsub hlimit
  rw [relativeFiles_eq hnames] at hperm
  have hnodup : (items.map RawItem.itemName).Nodup :=
    (hperm.map _).nodup_iff.mpr hnames.nodup_namedFile
  exact ⟨sortByName items, hcounts count, (List.perm_insertionSort _ _).trans hperm,
    pairwise_lt_sortByName hnodup⟩

end Tree

/-- A directory with a file and a subdirectory with a file of the same name. -/
def twoLevelTree : FmsTree :=
  .folder ⟨"y".toList, by decide, by decide⟩
    (.file ⟨some "File".toList, some "a.csv".toList, none, none, none, some "1".toList⟩ (by decide)
      .nil)
    (.file ⟨some "File".toList, some "a.csv".toList, none, none, none, some "2".toList⟩ (by decide)
      .nil)

/-- The directory where the tree stands. -/
def twoLevelFolder : Segment '/' := ⟨"x".toList, by decide, by decide⟩

/-- The two files are listed as `a.csv` and `y/a.csv`, with two requests. -/
theorem countedListFolderRawItemsRecursive_twoLevelTree :
    ∃ items, (countedListFolderRawItemsRecursive
        (treeServer tpExport twoLevelFolder twoLevelTree) tpExport.text
        (renderPath [twoLevelFolder]) 2 []).from 5 = (.ok items, 5 + (1 + 1)) ∧
      items.Perm (twoLevelTree.files.map FmsTree.namedFile) ∧
      (items.map RawItem.itemName).Pairwise (· < ·) := by
  have hnames : twoLevelTree.WellNamed :=
    ⟨⟨⟨⟨"a.csv".toList, by decide, by decide⟩, rfl⟩, by simp [FmsTree.entries], trivial⟩,
      by decide, ⟨⟨"a.csv".toList, by decide, by decide⟩, rfl⟩, by simp [FmsTree.entries], trivial⟩
  have hshows : ShowsPages (treeServer tpExport twoLevelFolder twoLevelTree)
      [tpExport, twoLevelFolder] twoLevelTree :=
    (serves_treeServer tpExport twoLevelFolder hnames.distinctNames).pages
  exact countedListFolderRawItemsRecursive_complete hnames hshows 0 5

end EntsoePipeline
