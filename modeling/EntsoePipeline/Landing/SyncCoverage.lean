import EntsoePipeline.Catalog.Crawler
import EntsoePipeline.Fms.Listing
import EntsoePipeline.Landing.Checklist

set_option relaxedAutoImplicit false
set_option autoImplicit false

/-!
# What the sync selects and what the catalog knows

The catalog lists a folder with the recursive lister and names each file by its path below the
folder. The sync lists the same folder with the single-level lister and takes the entries of the
folder itself whose name ends in `.csv`. The two are compared on every tree that a server shows.

## Main definitions

* `EntsoePipeline.listFolderRawItems` — the single-level lister.
* `EntsoePipeline.filesToSync`, `EntsoePipeline.catalogFiles` — what the sync selects for a mapping,
  and what the catalog holds for its folder.
* `EntsoePipeline.ShowsFolder` — a server that shows the folder of a mapping.
* `EntsoePipeline.CoversCatalogue` — the sync selects the listed `.csv` files of the catalog.
* `EntsoePipeline.NoneBelow`, `EntsoePipeline.RootFileTaken` — the conditions on a directory and on
  a file of the root directory.

## Main results

* `EntsoePipeline.filesToSync_directory`, `EntsoePipeline.catalogFiles_directory` — the names on
  both sides for a directory.
* `EntsoePipeline.coversCatalogue_iff` — when the sync covers the catalog.
* `EntsoePipeline.noneBelow_iff_of_plain` — the condition on a tree of plain names.
* `EntsoePipeline.not_coversCatalogue_nested` — a file in a subfolder is never synced.
-/

namespace EntsoePipeline

open Py

/-! ## The code -/

/-- The items of the pages of a directory, up to the first page that is not full. -/
def collectPages : List (Except PyError (List RawItem)) → Except PyError (List RawItem)
  | [] => .error .apiError
  | page :: pages => do
    let items ← page
    if items.length < pageSize then return items
    else
      let rest ← collectPages pages
      return items ++ rest

/-- The items at a path, sorted by name. -/
def listPath (server : FileServer) (path : Str) : Except PyError (List RawItem) :=
  (collectPages (server path)).map sortByName

/-- The single-level lister. -/
def listFolderRawItems (server : FileServer) (rootDir folderName : Str) :
    Except PyError (List RawItem) :=
  listPath server (listFolderPath rootDir folderName)

/-- The files that the sync selects for a mapping. -/
def filesToSync (server : FileServer) (mapping : Mapping) : Except PyError (List RawItem) :=
  selectFilesToSync RawItem.itemName (listPath server) mapping

/-- The records that the catalog holds for the folder of a mapping. -/
def catalogFiles (xxh : Str → Str) (server : FileServer) (limit : ℕ) (mapping : Mapping) :
    Except PyError (List FileMeta) :=
  crawlMetadataFolder xxh fmsExtensions (remoteFolder mapping)
    (fetchRootFilesMapping (listFolderRawItems server mapping.topLevelFolder []))
    (listFolderRawItemsRecursive server mapping.topLevelFolder (remoteFolder mapping) limit [])

/-! ## Pages -/

/-- The pages of a listing give its items. -/
lemma collectPages_of_pagesOf {items : List RawItem} {pages : List (Except PyError (List RawItem))}
    (h : PagesOf items pages) : collectPages pages = .ok items := by
  induction h with
  | last hlen =>
    rw [collectPages]
    simp only [bind, Except.bind, if_pos hlen]
    rfl
  | @next items _ _ hlen _ ih =>
    have hfull : ¬ items.length < pageSize := by omega
    rw [collectPages]
    simp only [bind, Except.bind, ih, if_neg hfull]
    rfl

/-- Pages are listed as their items in some order. -/
lemma listPath_ok {server : FileServer} {path : Str} {items : List RawItem}
    (h : PagesOf items (server path)) :
    ∃ listed, listPath server path = .ok listed ∧ listed.Perm items := by
  refine ⟨sortByName items, ?_, List.perm_insertionSort _ _⟩
  rw [listPath, collectPages_of_pagesOf h]
  rfl

/-! ## The names in a tree -/

namespace FmsTree

/-- The files of the directory itself. -/
def directFiles : FmsTree → List RawItem
  | nil => []
  | file item _ rest => item :: rest.directFiles
  | folder _ _ rest => rest.directFiles

/-- The names of the files of the directory itself. -/
def fileNames (tree : FmsTree) : List Str := tree.directFiles.map RawItem.itemName

/-- The names of the subdirectories. -/
def folderNames (tree : FmsTree) : List Str := tree.folders.map fun folder => folder.1.text

/-- The files below the subdirectories. -/
def nestedFiles (tree : FmsTree) : List (List (Segment '/') × RawItem) :=
  tree.files.filter fun f => f.1 ≠ []

/-- The path of a file below the directory. -/
def relativeName (f : List (Segment '/') × RawItem) : Str :=
  (relativeItem (renderPath f.1) f.2).itemName

/-- The relative names of the files below the subdirectories. -/
def nestedNames (tree : FmsTree) : List Str := tree.nestedFiles.map relativeName

/-- A file of the folder itself has its own name. -/
lemma relativeName_nil (item : RawItem) : relativeName ([], item) = item.itemName := rfl

/-- The name of a file below the folder has the path in front. -/
lemma relativeName_of_ne_nil {f : List (Segment '/') × RawItem} (h : f.1 ≠ []) :
    relativeName f = renderPath f.1 ++ '/' :: f.2.itemName := by
  unfold relativeName relativeItem
  rw [if_neg (renderPath_ne_nil h)]
  rfl

/-- The name of a nested file has a separator. -/
lemma sep_mem_of_mem_nestedNames {tree : FmsTree} {name : Str} (h : name ∈ tree.nestedNames) :
    '/' ∈ name := by
  obtain ⟨f, hf, rfl⟩ := List.mem_map.mp h
  have hne : f.1 ≠ [] := by simpa using (List.mem_filter.mp hf).2
  rw [relativeName_of_ne_nil hne]
  simp

/-- The name of a subfolder has no separator. -/
lemma sep_not_mem_of_mem_folderNames {tree : FmsTree} {name : Str} (h : name ∈ tree.folderNames) :
    '/' ∉ name := by
  obtain ⟨folder, -, rfl⟩ := List.mem_map.mp h
  exact folder.1.sep_not_mem

/-- The entries of a directory are its files and its subdirectories. -/
lemma mem_entryNames {tree : FmsTree} {name : Str} :
    name ∈ tree.entries.map RawItem.itemName ↔ name ∈ tree.fileNames ∨ name ∈ tree.folderNames := by
  induction tree with
  | nil => simp [entries, fileNames, folderNames, directFiles, folders]
  | file item hfile rest ih =>
    rw [entries, List.map_cons, List.mem_cons, ih]
    simp only [fileNames, folderNames, directFiles, folders, List.map_cons, List.mem_cons]
    tauto
  | folder name' children rest _ ih =>
    have hname : (folderItem name').itemName = name'.text := rfl
    rw [entries, List.map_cons, List.mem_cons, ih, hname]
    simp only [fileNames, folderNames, directFiles, folders, List.map_cons, List.mem_cons]
    tauto

/-- The direct files are those with an empty path. -/
lemma mem_directFiles {tree : FmsTree} {item : RawItem} :
    item ∈ tree.directFiles ↔ ([], item) ∈ tree.files := by
  induction tree with
  | nil => simp [directFiles, files]
  | file item' hfile rest ih => simp [directFiles, files, ih]
  | folder name children rest _ ih => simp [directFiles, files, ih]

/-- The files below a directory are its own and those of its subdirectories. -/
lemma mem_relativeNames {tree : FmsTree} {name : Str} :
    name ∈ tree.files.map relativeName ↔ name ∈ tree.fileNames ∨ name ∈ tree.nestedNames := by
  constructor
  · intro h
    obtain ⟨⟨dir, item⟩, hmem, rfl⟩ := List.mem_map.mp h
    by_cases hdir : dir = []
    · subst hdir
      exact Or.inl (List.mem_map_of_mem (mem_directFiles.mpr hmem))
    · exact Or.inr (List.mem_map_of_mem (List.mem_filter.mpr ⟨hmem, by simpa using hdir⟩))
  · rintro (h | h)
    · obtain ⟨item, hitem, rfl⟩ := List.mem_map.mp h
      exact List.mem_map.mpr ⟨([], item), mem_directFiles.mp hitem, relativeName_nil item⟩
    · obtain ⟨f, hf, rfl⟩ := List.mem_map.mp h
      exact List.mem_map_of_mem (List.mem_filter.mp hf).1

end FmsTree

/-! ## The statement -/

/-- The mapping points to a file of the root directory. -/
def Mapping.isRootFile (mapping : Mapping) : Bool :=
  endsWithAny (remoteFolder mapping) fmsExtensions

/-- The server shows the folder of a mapping: the listing of the root directory for a file of it,
and the tree of the folder otherwise. -/
structure ShowsFolder (server : FileServer) (mapping : Mapping) (rootItems : List RawItem)
    (tree : FmsTree) : Prop where
  rootFile : mapping.isRootFile = true →
    PagesOf rootItems (server (listFolderPath mapping.topLevelFolder []))
  directory : mapping.isRootFile = false → ∃ root top base whole,
    mapping.topLevelFolder = Segment.text root ∧ remoteFolder mapping = renderPath (top :: base) ∧
      Serves server root top whole ∧ whole.sub? base = some tree

/-- The files the checklist asks for: all of them, or the listed ones. -/
def EntryValue.Lists (value : EntryValue) (name : Str) : Prop :=
  match value with
  | .files names => name ∈ names
  | _ => True

/-- The files the code keeps: an empty list keeps all of them. -/
def EntryValue.Keeps (value : EntryValue) (name : Str) : Prop :=
  match value with
  | .files names => names = [] ∨ name ∈ names
  | _ => True

/-- The sync selects the `.csv` files of the catalog that the checklist asks for. -/
def CoversCatalogue (xxh : Str → Str) (server : FileServer) (limit : ℕ) (mapping : Mapping) :
    Prop :=
  ∃ selected catalogued, filesToSync server mapping = .ok selected ∧
    catalogFiles xxh server limit mapping = .ok catalogued ∧
      ∀ name, name ∈ selected.map RawItem.itemName ↔
        name ∈ catalogued.map FileMeta.name ∧ endsWith name ".csv".toList ∧ mapping.val.Lists name

/-- The condition on a directory. No `.csv` name of a subdirectory or of a file below one is missing
among the files of the directory itself, as far as the checklist asks for it; under an empty list,
the directory has no entry with such a name. -/
def NoneBelow (value : EntryValue) (tree : FmsTree) : Prop :=
  ∀ name, endsWith name ".csv".toList →
    (value.Lists name → name ∈ tree.folderNames ∨ name ∈ tree.nestedNames →
      name ∈ tree.fileNames) ∧
    (value = .files [] → name ∉ tree.fileNames ∧ name ∉ tree.folderNames)

/-- The condition on a file of the root directory: when it is there it is a `.csv` file that the
checklist asks for, and all entries of the root directory have names. -/
def RootFileTaken (value : EntryValue) (name : Str) (rootItems : List RawItem) : Prop :=
  name ∈ rootItems.map RawItem.itemName →
    endsWith name ".csv".toList ∧ value.Lists name ∧ ∀ item ∈ rootItems, item.name ≠ none

/-- The condition on a mapping. -/
def SyncsAll (mapping : Mapping) (rootItems : List RawItem) (tree : FmsTree) : Prop :=
  if mapping.isRootFile then RootFileTaken mapping.val (remoteFolder mapping) rootItems
  else NoneBelow mapping.val tree

/-! ## Directories -/

section Names

variable {server : FileServer} {mapping : Mapping} {rootItems : List RawItem} {tree : FmsTree}

/-- The mapping of a directory requests the path of the directory. -/
lemma listingOf_directory (hfile : mapping.isRootFile = false) {root top : Segment '/'}
    {base : List (Segment '/')} (hroot : mapping.topLevelFolder = root.text)
    (hfolder : remoteFolder mapping = renderPath (top :: base)) :
    listingOf mapping = ⟨directoryPath (root :: top :: base), none⟩ := by
  have hext : ¬ endsWithAny (remoteFolder mapping) fmsExtensions = true := by
    rw [Mapping.isRootFile] at hfile
    rw [hfile]
    exact Bool.false_ne_true
  have hcsv : ¬ endsWith (remoteFolder mapping) ".csv".toList = true := by
    intro h
    rw [endsWithAny_iff] at hext
    exact hext ⟨_, List.mem_cons_self, endsWith_iff.mp h⟩
  have hne : remoteFolder mapping ≠ [] := by
    rw [hfolder]
    exact renderPath_ne_nil (by simp)
  have hpath : renderPath (root :: top :: base) = root.text ++ '/' :: renderPath (top :: base) :=
    renderPath_cons (by simp)
  rw [listingOf, listFolder, if_neg hext, if_neg hext, listFolderPath, if_neg hne, if_neg hcsv,
    hroot, hfolder, directoryPath, hpath, List.append_assoc, List.cons_append]

/-- The names of the items whose names pass a test. -/
lemma map_itemName_filter (p : Str → Bool) (items : List RawItem) :
    (items.filter fun item => p item.itemName).map RawItem.itemName =
      (items.map RawItem.itemName).filter p :=
  List.filter_map.symm

/-- What is kept of a listing of a directory. -/
lemma mem_selectFilesToSync {server : Str → Except PyError (List RawItem)} {items : List RawItem}
    (hlisted : server (listingOf mapping).path = .ok items)
    (honly : (listingOf mapping).only = none) :
    ∃ selected, selectFilesToSync RawItem.itemName server mapping = .ok selected ∧
      ∀ name, name ∈ selected.map RawItem.itemName ↔
        name ∈ items.map RawItem.itemName ∧ endsWith name ".csv".toList ∧
          mapping.val.Keeps name := by
  have hcsv : ∀ name, name ∈ (items.filter fun f => endsWith f.itemName ".csv".toList).map
      RawItem.itemName ↔ name ∈ items.map RawItem.itemName ∧ endsWith name ".csv".toList := by
    intro name
    rw [map_itemName_filter fun name => endsWith name ".csv".toList, List.mem_filter]
  unfold selectFilesToSync
  rw [hlisted, honly]
  simp only [bind, Except.bind, pure, Except.pure]
  cases hval : mapping.val with
  | bool b => exact ⟨_, rfl, fun name => by rw [hcsv]; simp [EntryValue.Keeps]⟩
  | null => exact ⟨_, rfl, fun name => by rw [hcsv]; simp [EntryValue.Keeps]⟩
  | files names =>
    refine ⟨_, rfl, fun name => ?_⟩
    by_cases hnames : names = []
    · rw [if_pos hnames, hcsv]
      simp [EntryValue.Keeps, hnames]
    · rw [if_neg hnames, map_itemName_filter fun name => decide (name ∈ names), List.mem_filter,
        hcsv]
      simp [EntryValue.Keeps, hnames, and_assoc]

/-- **The sync of a directory.** The kept `.csv` names of its own files and subdirectories. -/
theorem filesToSync_directory (hshows : ShowsFolder server mapping rootItems tree)
    (hfile : mapping.isRootFile = false) :
    ∃ selected, filesToSync server mapping = .ok selected ∧
      ∀ name, name ∈ selected.map RawItem.itemName ↔
        (name ∈ tree.fileNames ∨ name ∈ tree.folderNames) ∧ endsWith name ".csv".toList ∧
          mapping.val.Keeps name := by
  obtain ⟨root, top, base, whole, hroot, hfolder, hserves, hsub⟩ := hshows.directory hfile
  have hlisting := listingOf_directory hfile hroot hfolder
  obtain ⟨items, hitems, hperm⟩ := listPath_ok (hserves.pages base tree hsub)
  have hlisted : listPath server (listingOf mapping).path = .ok items := by rw [hlisting, hitems]
  have honly : (listingOf mapping).only = none := by rw [hlisting]
  obtain ⟨selected, hselected, hmem⟩ := mem_selectFilesToSync hlisted honly
  refine ⟨selected, hselected, fun name => ?_⟩
  rw [hmem, (hperm.map _).mem_iff, FmsTree.mem_entryNames]

/-- **The catalog of a directory.** The names of its own files and of all files below it. -/
theorem catalogFiles_directory (xxh : Str → Str)
    (hshows : ShowsFolder server mapping rootItems tree) (hfile : mapping.isRootFile = false)
    {limit : ℕ} (hlimit : tree.depth < limit) :
    ∃ catalogued, catalogFiles xxh server limit mapping = .ok catalogued ∧
      ∀ name, name ∈ catalogued.map FileMeta.name ↔
        name ∈ tree.fileNames ∨ name ∈ tree.nestedNames := by
  obtain ⟨root, top, base, whole, hroot, hfolder, hserves, hsub⟩ := hshows.directory hfile
  have hdir : whole.sub? (base ++ []) = some tree := by rw [List.append_nil, hsub]
  obtain ⟨items, hitems, hperm⟩ := listFolderRawItemsRecursive_ok hserves
    (namesDirectory_renderPath root top base) hdir hlimit
  rw [Mapping.isRootFile] at hfile
  refine ⟨items.map (mapRawFmsItem xxh), ?_, fun name => ?_⟩
  · rw [catalogFiles, crawlMetadataFolder_of_directory hfile, hroot, hfolder]
    have hstart : renderPath ([] : List (Segment '/')) = [] := rfl
    rw [hstart] at hitems
    rw [hitems]
    rfl
  · have hnames : (items.map (mapRawFmsItem xxh)).map FileMeta.name =
        items.map RawItem.itemName := by
      rw [List.map_map]
      rfl
    have hrelative : (relativeFiles [] tree).map RawItem.itemName =
        tree.files.map FmsTree.relativeName := by
      rw [relativeFiles, List.map_map]
      rfl
    rw [hnames, (hperm.map _).mem_iff, hrelative, FmsTree.mem_relativeNames]

/-! ## Files of the root directory -/

/-- **The sync of a root file.** The file itself, when the root directory has it. -/
theorem filesToSync_rootFile (hshows : ShowsFolder server mapping rootItems tree)
    (hfile : mapping.isRootFile = true) :
    ∃ selected, filesToSync server mapping = .ok selected ∧
      ∀ name, name ∈ selected.map RawItem.itemName ↔
        name ∈ rootItems.map RawItem.itemName ∧ name = remoteFolder mapping := by
  obtain ⟨items, hitems, hperm⟩ := listPath_ok (hshows.rootFile hfile)
  rw [Mapping.isRootFile] at hfile
  have hlisting : listingOf mapping =
      ⟨listFolderPath mapping.topLevelFolder [], some (remoteFolder mapping)⟩ := by
    rw [listingOf, listFolder, if_pos hfile, if_pos hfile]
  refine ⟨items.filter fun f => f.itemName = remoteFolder mapping, ?_, fun name => ?_⟩
  · rw [filesToSync, selectFilesToSync, hlisting, hitems]
    rfl
  · rw [map_itemName_filter fun name => decide (name = remoteFolder mapping), List.mem_filter,
      (hperm.map _).mem_iff, decide_eq_true_iff]

/-- **The catalog of a root file.** The file itself, when the root directory has it and shows no
entry without a name. -/
theorem catalogFiles_rootFile (xxh : Str → Str) (limit : ℕ)
    (hshows : ShowsFolder server mapping rootItems tree) (hfile : mapping.isRootFile = true) :
    ∃ catalogued, catalogFiles xxh server limit mapping = .ok catalogued ∧
      ∀ name, name ∈ catalogued.map FileMeta.name ↔ name = remoteFolder mapping ∧
        remoteFolder mapping ∈ rootItems.map RawItem.itemName ∧
          ∀ item ∈ rootItems, item.name ≠ none := by
  obtain ⟨items, hitems, hperm⟩ := listPath_ok (hshows.rootFile hfile)
  rw [Mapping.isRootFile] at hfile
  have hnamed : (∀ item ∈ items, item.name ≠ none) ↔ ∀ item ∈ rootItems, item.name ≠ none := by
    simp only [hperm.mem_iff]
  have hget :
      (∃ item, (fetchRootFilesMapping (.ok items)).get? (remoteFolder mapping) = some item) ↔
        remoteFolder mapping ∈ rootItems.map RawItem.itemName ∧
          ∀ item ∈ rootItems, item.name ≠ none := by
    rw [exists_get?_fetchRootFilesMapping_iff, (hperm.map _).mem_iff, hnamed]
  rw [catalogFiles, crawlMetadataFolder_of_extension hfile, listFolderRawItems, hitems]
  cases hitem : (fetchRootFilesMapping (.ok items)).get? (remoteFolder mapping) with
  | none =>
    have hnot := mt hget.mpr (by simp [hitem])
    exact ⟨[], rfl, fun name => iff_of_false List.not_mem_nil fun h => hnot h.2⟩
  | some item =>
    have hthere := hget.mp ⟨item, hitem⟩
    have hname : (mapRawFmsItem xxh item).name = remoteFolder mapping :=
      itemName_of_get?_fetchRootFilesMapping hitem
    refine ⟨[mapRawFmsItem xxh item], rfl, fun name => ?_⟩
    rw [List.map_singleton, List.mem_singleton, hname]
    exact (and_iff_left hthere).symm

/-! ## When the sync covers the catalog -/

/-- Where the checklist is not an empty list, the code keeps the files it asks for. -/
lemma EntryValue.keeps_iff {value : EntryValue} (h : value ≠ .files []) {name : Str} :
    value.Keeps name ↔ value.Lists name := by
  cases value with
  | files names =>
    have hne : names ≠ [] := fun hnil => h (by rw [hnil])
    exact or_iff_right hne
  | bool b => rfl
  | null => rfl

/-- The names on both sides agree exactly under the condition on the directory. -/
lemma noneBelow_iff (value : EntryValue) (tree : FmsTree) :
    NoneBelow value tree ↔ ∀ name,
      (name ∈ tree.fileNames ∨ name ∈ tree.folderNames) ∧ endsWith name ".csv".toList ∧
        value.Keeps name ↔
      (name ∈ tree.fileNames ∨ name ∈ tree.nestedNames) ∧ endsWith name ".csv".toList ∧
        value.Lists name := by
  -- A subdirectory and a nested file never share a name: only the latter has a separator in it.
  have hapart : ∀ name, name ∈ tree.folderNames → name ∉ tree.nestedNames := fun name hfolder h =>
    FmsTree.sep_not_mem_of_mem_folderNames hfolder (FmsTree.sep_mem_of_mem_nestedNames h)
  refine forall_congr' fun name => ?_
  have hapart := hapart name
  by_cases hempty : value = .files []
  · subst hempty
    have hkeeps : (EntryValue.files []).Keeps name := Or.inl rfl
    have hlists : ¬ (EntryValue.files []).Lists name := List.not_mem_nil
    tauto
  · have hkeeps : value.Keeps name ↔ value.Lists name := EntryValue.keeps_iff hempty
    tauto

/-- **The sync covers the catalog.** On every tree that the server shows, the sync of a mapping
selects the `.csv` files of the catalog that the checklist asks for exactly under the condition.

**Proof sketch.** Both sides are computed for a directory and for a file of the root directory. In a
directory they share its own files, and nothing else: a subdirectory has no separator in its name,
and a file below one has. -/
theorem coversCatalogue_iff (xxh : Str → Str) (hshows : ShowsFolder server mapping rootItems tree)
    {limit : ℕ} (hlimit : tree.depth < limit) :
    CoversCatalogue xxh server limit mapping ↔ SyncsAll mapping rootItems tree := by
  unfold CoversCatalogue SyncsAll
  cases hfile : mapping.isRootFile with
  | false =>
    obtain ⟨selected, hselected, hsync⟩ := filesToSync_directory hshows hfile
    obtain ⟨catalogued, hcatalogued, hcatalog⟩ := catalogFiles_directory xxh hshows hfile hlimit
    rw [if_neg Bool.false_ne_true, noneBelow_iff, hselected, hcatalogued]
    simp only [Except.ok.injEq, exists_and_left, exists_eq_left', hsync, hcatalog]
  | true =>
    obtain ⟨selected, hselected, hsync⟩ := filesToSync_rootFile hshows hfile
    obtain ⟨catalogued, hcatalogued, hcatalog⟩ := catalogFiles_rootFile xxh limit hshows hfile
    rw [if_pos rfl, hselected, hcatalogued]
    simp only [Except.ok.injEq, exists_and_left, exists_eq_left', hsync, hcatalog]
    unfold RootFileTaken
    constructor
    · intro h hthere
      obtain ⟨⟨-, -, hnamed⟩, hcsv, hlists⟩ := (h (remoteFolder mapping)).mp ⟨hthere, rfl⟩
      exact ⟨hcsv, hlists, hnamed⟩
    · intro h name
      constructor
      · rintro ⟨hthere, rfl⟩
        obtain ⟨hcsv, hlists, hnamed⟩ := h hthere
        exact ⟨⟨rfl, hthere, hnamed⟩, hcsv, hlists⟩
      · rintro ⟨⟨rfl, hthere, -⟩, -, -⟩
        exact ⟨hthere, rfl⟩

end Names

/-- On a tree whose file names are plain (no separator, and none of them names a subdirectory), a
folder that is enabled as a whole is covered exactly when no `.csv` file lies in a subfolder and no
subfolder has such a name. -/
theorem noneBelow_iff_of_plain {tree : FmsTree} (hplain : ∀ name ∈ tree.fileNames,
    '/' ∉ name ∧ name ∉ tree.folderNames) :
    NoneBelow (.bool true) tree ↔
      ∀ name, name ∈ tree.folderNames ∨ name ∈ tree.nestedNames →
        ¬ endsWith name ".csv".toList := by
  constructor
  · intro h name hname hcsv
    have hfile := (h name hcsv).1 trivial hname
    rcases hname with hfolder | hnested
    · exact (hplain name hfile).2 hfolder
    · exact (hplain name hfile).1 (FmsTree.sep_mem_of_mem_nestedNames hnested)
  · intro h name hcsv
    exact ⟨fun _ hname => absurd hcsv (h name hname), fun hvalue => by cases hvalue⟩

/-! ## A folder of daily capacities -/

/-- The server of a tree shows the folder of a mapping to it. -/
lemma showsFolder_treeServer {mapping : Mapping} {root top : Segment '/'} {tree : FmsTree}
    (hfile : mapping.isRootFile = false) (hroot : mapping.topLevelFolder = root.text)
    (hfolder : remoteFolder mapping = renderPath [top]) (hnames : tree.DistinctNames) :
    ShowsFolder (treeServer root top tree) mapping [] tree where
  rootFile h := by
    rw [hfile] at h
    cases h
  directory _ := ⟨root, top, [], tree, hroot, hfolder, serves_treeServer root top hnames, rfl⟩

/-- The folder. -/
def capacityFolder : Segment '/' := ⟨"OfferedCapacity_r3".toList, by decide, by decide⟩

/-- Its subfolder of an area. -/
def areaFolder : Segment '/' := ⟨"FR".toList, by decide, by decide⟩

/-- A file of the area. -/
def capacityItem : RawItem :=
  ⟨some "File".toList, some "file.csv".toList, some 10, some 4, some "2026-01-01T00:00:00Z".toList,
    some "f1".toList⟩

/-- The file in the folder itself. -/
def flatTree : FmsTree := .file capacityItem (by decide) .nil

/-- The file in the subfolder. -/
def nestedTree : FmsTree := .folder areaFolder flatTree .nil

/-- The mapping of the folder with its value in the checklist. -/
def capacityMapping (val : EntryValue) : Mapping where
  schemaPath := "iop/TP_export/Market/OfferedCapacity_r3".toList
  activeFolder := capacityFolder.text
  topLevelFolder := tpExport.text
  remoteFolderPath := "Market/OfferedCapacity_r3".toList
  val := val

/-- The server of a tree shows the folder to its mapping, whatever is enabled of it. -/
lemma showsFolder_capacity (val : EntryValue) (tree : FmsTree) (hnames : tree.DistinctNames) :
    ShowsFolder (treeServer tpExport capacityFolder tree) (capacityMapping val) [] tree :=
  showsFolder_treeServer (by decide : (capacityMapping .null).isRootFile = false) rfl rfl hnames

/-- A file of a given name and id. -/
def namedItem (name fileId : Str) : RawItem :=
  { capacityItem with name := some name, fileId := some fileId }

/-- Two months in the folder itself, and a text in the subfolder and in one below it. -/
def monthsTree : FmsTree :=
  .file (namedItem "2026_03.csv".toList "f3".toList) (by decide)
    (.folder areaFolder
      (.file (namedItem "readme.txt".toList "f5".toList) (by decide)
        (.folder areaFolder (.file (namedItem "notes.txt".toList "f6".toList) (by decide) .nil)
          .nil))
      (.file (namedItem "2026_04.csv".toList "f4".toList) (by decide) .nil))

/-- Of two months in the folder itself the listed one is selected. -/
theorem coversCatalogue_listed :
    CoversCatalogue id (treeServer tpExport capacityFolder monthsTree) 3
      (capacityMapping (.files ["2026_04.csv".toList])) := by
  have hnames : monthsTree.DistinctNames :=
    ⟨⟨trivial, trivial, List.not_mem_nil⟩, trivial, List.not_mem_nil⟩
  refine (coversCatalogue_iff id (showsFolder_capacity _ monthsTree hnames) (by decide)).mpr ?_
  have hbelow : ∀ name ∈ monthsTree.folderNames ++ monthsTree.nestedNames,
      ¬ endsWith name ".csv".toList := by
    decide
  refine fun name hcsv => ⟨fun _ hname => ?_, fun hvalue => ?_⟩
  · exact absurd hcsv (hbelow name (List.mem_append.mpr hname))
  · cases hvalue

/-- A file in a subfolder is in the catalog and never selected. -/
theorem not_coversCatalogue_nested :
    ShowsFolder (treeServer tpExport capacityFolder nestedTree) (capacityMapping (.bool true)) []
        nestedTree ∧
      ¬ CoversCatalogue id (treeServer tpExport capacityFolder nestedTree) 2
        (capacityMapping (.bool true)) := by
  have hshows := showsFolder_capacity (.bool true) nestedTree ⟨trivial, trivial, List.not_mem_nil⟩
  refine ⟨hshows, ?_⟩
  rintro ⟨selected, catalogued, hselected, hcatalogued, hcovers⟩
  obtain ⟨_, hsync, hnames⟩ := filesToSync_directory hshows (by decide)
  have hlimit : nestedTree.depth < 2 := by decide
  obtain ⟨_, hcatalog, hrecords⟩ := catalogFiles_directory id hshows (by decide) hlimit
  rw [hselected, Except.ok.injEq] at hsync
  rw [hcatalogued, Except.ok.injEq] at hcatalog
  subst hsync hcatalog
  have hrecord := (hrecords "FR/file.csv".toList).mpr (Or.inr (List.mem_singleton.mpr rfl))
  have hname := (hcovers _).mpr ⟨hrecord, by decide, trivial⟩
  rcases ((hnames _).mp hname).1 with hfile | hfolder
  · exact absurd hfile (by decide)
  · exact absurd hfolder (by decide)

end EntsoePipeline
