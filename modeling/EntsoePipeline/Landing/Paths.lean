import EntsoePipeline.Landing.Checklist

set_option relaxedAutoImplicit false
set_option autoImplicit false

/-!
# Which landing paths are synchronised, and from where

Two properties of the chain from the checklist over the landing paths to the remote listings. The
selection is exact when a path is mapped precisely because of its own checklist entry. The round
trip holds for a catalog row when its landing path leads back to the remote folder the row was
crawled from.

## Main definitions

* `EntsoePipeline.SelectionExact` — the mappings of a list of paths are those of their own
  entries.
* `EntsoePipeline.RoundTrip` — the landing path of a catalog row lists the folder of the row.

## Main results

* `EntsoePipeline.selectionExact_iff` — the exact condition on the names of the checklist.
* `EntsoePipeline.roundTrip_iff` — the round trip fails for the legacy root, and for the other one
  exactly when a name listed before the folder is also a segment of the path.
* `EntsoePipeline.not_selectionExact_namesake`, `EntsoePipeline.not_roundTrip_legacy` — failing
  inputs.
-/

namespace EntsoePipeline

open Py

/-! ## Selection -/

section Selection

variable (cm : CaseMap) (env : Str) (checklist : Checklist)

/-- An entry is the one of a landing path: it has the root directory and the folder of the path,
and its domain if it is listed by domain. -/
def Entry.IsFor (entry : Entry) (path : LandingPath) : Prop :=
  entry.root = path.root.text ∧
    (entry.domain = none ∨ entry.domain = some path.domain.text) ∧ entry.folder = path.folder.text

instance (entry : Entry) (path : LandingPath) : Decidable (entry.IsFor path) :=
  inferInstanceAs (Decidable (_ ∧ _))

/-- The checklist enables a landing path by an entry of the path itself. -/
def Enabled (path : LandingPath) : Prop :=
  path.env.text = cm.lower env ∧ ∃ entry ∈ activeEntries cm env checklist, entry.IsFor path

/-- Each path of the list has a mapping exactly when the checklist enables it, and the mapping
carries the folder of the path and the value of an entry of the path. -/
def SelectionExact (paths : List LandingPath) : Prop :=
  ∃ mappings, resolveTargetMappings cm env (extractActiveFolders cm env checklist)
      (paths.map LandingPath.text) = .ok mappings ∧
    ∀ path ∈ paths,
      ((∃ m ∈ mappings, m.schemaPath = path.text) ↔ Enabled cm env checklist path) ∧
      ∀ m ∈ mappings, m.schemaPath = path.text → m.activeFolder = path.folder.text ∧
        ∃ entry ∈ activeEntries cm env checklist, entry.IsFor path ∧ m.val = entry.val

/-- The first enabled entry whose name is a segment of a path. -/
def firstHit (path : LandingPath) : Option Entry :=
  (activeEntries cm env checklist).find? fun entry => isSegment path.segments entry.folder

/-- The last enabled entry of a name. -/
def lastNamed (folder : Str) : Option Entry :=
  (activeEntries cm env checklist).reverse.find? fun entry => decide (entry.folder = folder)

/-- The names of the checklist do not mislead the resolution of a path. If the path has an enabled
entry of its own, the first enabled entry that is named like a segment is named like the folder,
and the last one that is named like the folder has the value of an own entry. If it has none, no
enabled entry is named like a segment. -/
def PathUnambiguous (path : LandingPath) : Prop :=
  ((∃ entry ∈ activeEntries cm env checklist, entry.IsFor path) →
    (∀ entry, firstHit cm env checklist path = some entry → entry.folder = path.folder.text) ∧
    ∃ last entry, lastNamed cm env checklist path.folder.text = some last ∧
      entry ∈ activeEntries cm env checklist ∧ entry.IsFor path ∧ last.val = entry.val) ∧
  ((¬ ∃ entry ∈ activeEntries cm env checklist, entry.IsFor path) →
    ∀ entry ∈ activeEntries cm env checklist, entry.folder ∉ path.segments)

variable {cm env checklist}

/-- The mapping of a path of the environment carries the name of the first hit and the value of
the last entry of that name. -/
lemma mapping_eq_some_iff {path : LandingPath} {m : Mapping} :
    path.mapping cm env (extractActiveFolders cm env checklist) = some m ↔
      path.env.text = cm.lower env ∧ ∃ hit last, firstHit cm env checklist path = some hit ∧
        lastNamed cm env checklist hit.folder = some last ∧
          m = ⟨path.text, hit.folder, path.root.text,
            join ['/'] [path.domain.text, path.folder.text], last.val⟩ := by
  unfold LandingPath.mapping firstHit lastNamed
  by_cases henv : path.env.text = cm.lower env
  · rw [if_pos henv, Option.map_eq_some_iff]
    constructor
    · rintro ⟨⟨folder, val⟩, hfind, rfl⟩
      obtain ⟨hkey, hget⟩ := Dict.find?_items_eq_some_iff.mp hfind
      rw [find?_keys_extractActiveFolders, Option.map_eq_some_iff] at hkey
      rw [get?_extractActiveFolders, Option.map_eq_some_iff] at hget
      obtain ⟨hit, hhit, rfl⟩ := hkey
      obtain ⟨last, hlast, rfl⟩ := hget
      exact ⟨henv, hit, last, hhit, hlast, rfl⟩
    · rintro ⟨-, hit, last, hhit, hlast, rfl⟩
      refine ⟨(hit.folder, last.val), Dict.find?_items_eq_some_iff.mpr ⟨?_, ?_⟩, rfl⟩
      · rw [find?_keys_extractActiveFolders, hhit]
        rfl
      · rw [get?_extractActiveFolders, hlast]
        rfl
  · rw [if_neg henv]
    simp [henv]

/-- A mapping of the list that has the text of a path is the mapping of that path. -/
lemma mem_mappings_iff {paths : List LandingPath} {path : LandingPath} (hpath : path ∈ paths)
    {m : Mapping} :
    (m ∈ paths.filterMap (LandingPath.mapping cm env (extractActiveFolders cm env checklist)) ∧
      m.schemaPath = path.text) ↔
        path.mapping cm env (extractActiveFolders cm env checklist) = some m := by
  rw [List.mem_filterMap]
  constructor
  · rintro ⟨⟨path', -, hm⟩, htext⟩
    obtain ⟨-, hit, last, -, -, rfl⟩ := mapping_eq_some_iff.mp hm
    obtain rfl : path' = path := LandingPath.text_injective htext
    exact hm
  · intro hm
    obtain ⟨-, hit, last, -, -, rfl⟩ := mapping_eq_some_iff.mp hm
    exact ⟨⟨path, hpath, hm⟩, rfl⟩

/-- A hit on a path is enabled and named like one of its segments. -/
lemma mem_of_firstHit {path : LandingPath} {hit : Entry}
    (h : firstHit cm env checklist path = some hit) :
    hit ∈ activeEntries cm env checklist ∧ hit.folder ∈ path.segments := by
  refine ⟨List.mem_of_find?_eq_some h, ?_⟩
  have hseg : isSegment path.segments hit.folder = true := by simpa using List.find?_some h
  exact of_decide_eq_true hseg

/-- A name of an enabled entry has a last enabled entry. -/
lemma exists_lastNamed {entry : Entry} (h : entry ∈ activeEntries cm env checklist) :
    ∃ last, lastNamed cm env checklist entry.folder = some last := by
  unfold lastNamed
  cases hfind : (activeEntries cm env checklist).reverse.find? fun e =>
      decide (e.folder = entry.folder) with
  | some last => exact ⟨last, rfl⟩
  | none =>
    have hne := List.find?_eq_none.mp hfind entry (List.mem_reverse.mpr h)
    simp at hne

/-- An enabled entry named like a segment of a path gives a hit on the path. -/
lemma exists_firstHit {path : LandingPath} {entry : Entry}
    (h : entry ∈ activeEntries cm env checklist) (hseg : entry.folder ∈ path.segments) :
    ∃ hit, firstHit cm env checklist path = some hit := by
  unfold firstHit
  cases hfind : (activeEntries cm env checklist).find? fun e =>
      isSegment path.segments e.folder with
  | some hit => exact ⟨hit, rfl⟩
  | none =>
    have hne := List.find?_eq_none.mp hfind entry h
    exact absurd (decide_eq_true hseg) hne

/-- The folder is a segment of its path. -/
lemma folder_mem_segments (path : LandingPath) : path.folder.text ∈ path.segments := by
  simp [LandingPath.segments]

/-- An enabled entry named like a segment of a path of the environment gives the path a
mapping. -/
lemma exists_mapping {path : LandingPath} (henv : path.env.text = cm.lower env) {entry : Entry}
    (h : entry ∈ activeEntries cm env checklist) (hseg : entry.folder ∈ path.segments) :
    ∃ m, path.mapping cm env (extractActiveFolders cm env checklist) = some m := by
  obtain ⟨hit, hhit⟩ := exists_firstHit h hseg
  obtain ⟨last, hlast⟩ := exists_lastNamed (mem_of_firstHit hhit).1
  exact ⟨_, mapping_eq_some_iff.mpr ⟨henv, hit, last, hhit, hlast, rfl⟩⟩

/-- A path has a mapping exactly when it is enabled, and the mapping is that of its own entries. -/
def MappedExactly (cm : CaseMap) (env : Str) (checklist : Checklist) (path : LandingPath) : Prop :=
  ((∃ m, path.mapping cm env (extractActiveFolders cm env checklist) = some m) ↔
    Enabled cm env checklist path) ∧
  ∀ m, path.mapping cm env (extractActiveFolders cm env checklist) = some m →
    m.activeFolder = path.folder.text ∧
      ∃ entry ∈ activeEntries cm env checklist, entry.IsFor path ∧ m.val = entry.val

/-- The selection is exact when every path is mapped exactly. -/
lemma selectionExact_iff_mappedExactly {paths : List LandingPath} :
    SelectionExact cm env checklist paths ↔ ∀ path ∈ paths,
      MappedExactly cm env checklist path := by
  unfold SelectionExact MappedExactly
  rw [resolveTargetMappings_landing]
  have hmapped : ∀ path ∈ paths, ∀ m,
      (m ∈ paths.filterMap (LandingPath.mapping cm env (extractActiveFolders cm env checklist)) ∧
        m.schemaPath = path.text) ↔
          path.mapping cm env (extractActiveFolders cm env checklist) = some m :=
    fun path hpath m => mem_mappings_iff hpath
  constructor
  · rintro ⟨mappings, hmappings, hexact⟩ path hpath
    cases hmappings
    obtain ⟨hiff, hcarry⟩ := hexact path hpath
    refine ⟨(exists_congr fun m => (hmapped path hpath m).symm).trans hiff, fun m hm => ?_⟩
    obtain ⟨hmem, htext⟩ := (hmapped path hpath m).mpr hm
    exact hcarry m hmem htext
  · intro hexact
    refine ⟨_, rfl, fun path hpath => ?_⟩
    obtain ⟨hiff, hcarry⟩ := hexact path hpath
    exact ⟨(exists_congr fun m => hmapped path hpath m).trans hiff,
      fun m hmem htext => hcarry m ((hmapped path hpath m).mp ⟨hmem, htext⟩)⟩

/-- A path of the environment that is mapped exactly is not ambiguous. -/
lemma MappedExactly.unambiguous {path : LandingPath} (h : MappedExactly cm env checklist path)
    (henv : path.env.text = cm.lower env) : PathUnambiguous cm env checklist path := by
  constructor
  · rintro ⟨own, hown, hfor⟩
    have hseg : own.folder ∈ path.segments := by
      rw [hfor.2.2]
      exact folder_mem_segments path
    obtain ⟨m, hm⟩ := exists_mapping henv hown hseg
    obtain ⟨-, hit, last, hhit, hlast, rfl⟩ := mapping_eq_some_iff.mp hm
    obtain ⟨hfolder, entry, hentry, hentryFor, hval⟩ := h.2 _ hm
    refine ⟨?_, last, entry, ?_, hentry, hentryFor, hval⟩
    · intro hit' hhit'
      rw [hhit, Option.some.injEq] at hhit'
      rw [← hhit']
      exact hfolder
    · rw [← hlast]
      exact congrArg _ hfolder.symm
  · intro hnone entry hentry hseg
    obtain ⟨m, hm⟩ := exists_mapping henv hentry hseg
    obtain ⟨-, own, hown, hfor, -⟩ := h.2 m hm
    exact hnone ⟨own, hown, hfor⟩

/-- A path that is not ambiguous is mapped exactly. -/
lemma mappedExactly_of_unambiguous {path : LandingPath}
    (hunamb : path.env.text = cm.lower env → PathUnambiguous cm env checklist path) :
    MappedExactly cm env checklist path := by
  -- A path with a mapping has an entry of its own, since otherwise nothing may hit it.
  have hown : ∀ m, path.mapping cm env (extractActiveFolders cm env checklist) = some m →
      ∃ entry ∈ activeEntries cm env checklist, entry.IsFor path := by
    intro m hm
    obtain ⟨henv, hit, last, hhit, -, -⟩ := mapping_eq_some_iff.mp hm
    obtain ⟨hmemhit, hseg⟩ := mem_of_firstHit hhit
    by_contra hnone
    exact (hunamb henv).2 hnone hit hmemhit hseg
  refine ⟨⟨?_, ?_⟩, ?_⟩
  · rintro ⟨m, hm⟩
    exact ⟨(mapping_eq_some_iff.mp hm).1, hown m hm⟩
  · rintro ⟨henv, own, howned, hfor⟩
    have hseg : own.folder ∈ path.segments := by
      rw [hfor.2.2]
      exact folder_mem_segments path
    exact exists_mapping henv howned hseg
  · intro m hm
    obtain ⟨henv, hit, last, hhit, hlast, rfl⟩ := mapping_eq_some_iff.mp hm
    obtain ⟨hfirst, last', entry, hlast', hentry, hfor, hval⟩ := (hunamb henv).1 (hown _ hm)
    have hfolder := hfirst hit hhit
    refine ⟨hfolder, entry, hentry, hfor, ?_⟩
    rw [hfolder, hlast', Option.some.injEq] at hlast
    rw [← hlast]
    exact hval

end Selection

/-- **When the selection is exact.** The mappings of a list of landing paths are those of their own
checklist entries if and only if no path of the environment is ambiguous.

**Proof sketch.** The mapping of a path carries the name of the first hit on its segments and the
value of the last entry of that name. For an enabled path these are its folder and the value of
an own entry exactly when the path is unambiguous; for another path there must be no hit. -/
theorem selectionExact_iff (cm : CaseMap) (env : Str) (checklist : Checklist)
    (paths : List LandingPath) :
    SelectionExact cm env checklist paths ↔
      ∀ path ∈ paths, path.env.text = cm.lower env → PathUnambiguous cm env checklist path := by
  rw [selectionExact_iff_mappedExactly]
  constructor
  · intro hexact path hpath henv
    exact (hexact path hpath).unambiguous henv
  · intro hunamb path hpath
    exact mappedExactly_of_unambiguous (hunamb path hpath)

/-- A checklist that enables `Load_r3` under `TP_export` and disables it under the legacy root. -/
def namesakeChecklist : Checklist :=
  Dict.ofList [("IOP".toList, [
    ⟨"TP_export".toList, Dict.ofList [("Load".toList, Dict.ofList
      [("Load_r3".toList, .bool true)])], ∅⟩,
    ⟨"TP_Legacy_Publications".toList, ∅, Dict.ofList [("Load_r3".toList, .bool false)]⟩])]

/-- The landing path of the legacy namesake. -/
def namesakePath : LandingPath where
  env := ⟨"iop".toList, by decide, by decide⟩
  root := ⟨"TP_Legacy_Publications".toList, by decide, by decide⟩
  domain := ⟨"R3_Archives".toList, by decide, by decide⟩
  folder := ⟨"Load_r3".toList, by decide, by decide⟩

/-- The disabled legacy folder is selected because of its namesake under the other root. -/
theorem not_selectionExact_namesake :
    ¬ SelectionExact CaseMap.ascii "IOP".toList namesakeChecklist [namesakePath] := by
  rintro ⟨mappings, hmappings, hexact⟩
  obtain ⟨hiff, -⟩ := hexact namesakePath List.mem_cons_self
  have hcode : resolveTargetMappings CaseMap.ascii "IOP".toList
      (extractActiveFolders CaseMap.ascii "IOP".toList namesakeChecklist)
        ([namesakePath].map LandingPath.text) =
          .ok [⟨namesakePath.text, "Load_r3".toList, "TP_Legacy_Publications".toList,
            "R3_Archives/Load_r3".toList, .bool true⟩] := by decide
  rw [hcode] at hmappings
  cases hmappings
  obtain ⟨-, entry, hentry, hroot, -⟩ := hiff.mp ⟨_, List.mem_cons_self, rfl⟩
  have hactive : activeEntries CaseMap.ascii "IOP".toList namesakeChecklist =
      [⟨"TP_export".toList, some "Load".toList, "Load_r3".toList, .bool true⟩] := by decide
  rw [hactive, List.mem_singleton] at hentry
  rw [hentry] at hroot
  exact absurd hroot (by decide)

/-! ## Round trip -/

/-- The two root directories that are crawled. -/
inductive RemoteRoot
  /-- The root of the current publications. -/
  | active
  /-- The root of the legacy archives. -/
  | legacy
  deriving DecidableEq

/-- The name of a root directory. -/
def RemoteRoot.name : RemoteRoot → Str
  | .active => "TP_export".toList
  | .legacy => "TP_Legacy_Publications".toList

/-- The listing of the folder that a catalog row stands for: the folder itself, or the root
directory filtered to it when the folder is a file there. -/
def crawledListing (root : RemoteRoot) (folder : Str) : RemoteListing :=
  if endsWithAny folder fmsExtensions then ⟨'/' :: (root.name ++ ['/']), some folder⟩
  else ⟨folderPath root.name folder, none⟩

/-- The landing path of a catalog row is mapped, and the mapping lists the folder of the row. -/
def RoundTrip (cm : CaseMap) (env : Str) (checklist : Checklist) (domain : Str) (root : RemoteRoot)
    (folder : Segment '/') : Prop :=
  ∃ path landing mapping,
    layoutFolder cm (cm.lower env) domain (folderPath root.name folder.text) =
      some (path, landing) ∧
    resolvePath cm env (extractActiveFolders cm env checklist) path = .ok (some mapping) ∧
    listingOf mapping = crawledListing root folder.text

/-- The name of a root directory is a path segment. -/
def RemoteRoot.segment : RemoteRoot → Segment '/'
  | .active => ⟨RemoteRoot.active.name, by decide, by decide⟩
  | .legacy => ⟨RemoteRoot.legacy.name, by decide, by decide⟩

/-- The segment of a root directory is its name. -/
lemma RemoteRoot.text_segment (root : RemoteRoot) : root.segment.text = root.name := by
  cases root <;> rfl

/-- The landing path text of a catalog row. -/
def rowPath (cm : CaseMap) (env domain : Str) (root : RemoteRoot) (folder : Segment '/') : Str :=
  join ['/'] [cm.lower env, root.name, domain, folder.text]

/-- The layout of a folder row is its landing path. -/
lemma layoutFolder_row (cm : CaseMap) (env domain : Str) (root : RemoteRoot)
    (folder : Segment '/') :
    layoutFolder cm (cm.lower env) domain (folderPath root.name folder.text) =
      some (rowPath cm env domain root folder, ⟨cm.lower env, domain, folder.text⟩) := by
  rw [← root.text_segment, layoutFolder_folderPath, cm.lower_lower, root.text_segment]
  rfl

/-- The segments of the landing path of a row, when the environment is a single segment. -/
lemma split_rowPath {cm : CaseMap} {env domain : Str} {root : RemoteRoot} {folder : Segment '/'}
    (henv : '/' ∉ cm.lower env) :
    split '/' (rowPath cm env domain root folder) =
      cm.lower env :: root.name :: (split '/' domain ++ [folder.text]) := by
  have hroot : '/' ∉ root.name := by
    rw [← root.text_segment]
    exact root.segment.sep_not_mem
  rw [rowPath, join_cons (by simp), split_cons_of_not_mem henv, join_cons (by simp),
    split_cons_of_not_mem hroot, join_cons (by simp), join_singleton, split_append_cons,
    split_of_not_mem folder.sep_not_mem]

/-- An environment that is no single segment matches no path. -/
lemma resolvePath_rowPath_of_mem {cm : CaseMap} {env domain : Str} {root : RemoteRoot}
    {folder : Segment '/'} (activeFolders : Dict Str EntryValue) (henv : '/' ∈ cm.lower env) :
    resolvePath cm env activeFolders (rowPath cm env domain root folder) = .ok none := by
  unfold resolvePath
  cases hsplit : split '/' (rowPath cm env domain root folder) with
  | nil => rfl
  | cons first rest =>
    have hmem : first ∈ split '/' (rowPath cm env domain root folder) := by
      rw [hsplit]
      exact List.mem_cons_self
    have hne : first ≠ cm.lower env := by
      rintro rfl
      exact not_mem_of_mem_split hmem henv
    dsimp only
    rw [if_pos hne]

/-- The mapping of the landing path of a row. -/
lemma resolvePath_rowPath {cm : CaseMap} {env domain : Str} {root : RemoteRoot}
    {folder : Segment '/'} {activeFolders : Dict Str EntryValue} {m : Mapping}
    (henv : '/' ∉ cm.lower env) :
    resolvePath cm env activeFolders (rowPath cm env domain root folder) = .ok (some m) ↔
      ∃ name val, activeFolders.items.find? (fun entry => isSegment
          (cm.lower env :: root.name :: (split '/' domain ++ [folder.text])) entry.1) =
            some (name, val) ∧
        m = ⟨rowPath cm env domain root folder, name, root.name,
          domain ++ '/' :: folder.text, val⟩ := by
  have hrel : join ['/'] (split '/' domain ++ [folder.text]) = domain ++ '/' :: folder.text := by
    rw [join_concat (split_ne_nil _ _), join_split]
  unfold resolvePath
  rw [split_rowPath henv]
  dsimp only
  rw [if_neg (by simp), hrel]
  cases activeFolders.items.find? fun entry => isSegment
      (cm.lower env :: root.name :: (split '/' domain ++ [folder.text])) entry.1 with
  | none => simp
  | some entry =>
    obtain ⟨name, val⟩ := entry
    simp [eq_comm]

/-- The listing of a mapping under the root of the current publications is that of its enabled
folder. -/
lemma listingOf_active {m : Mapping} (htop : m.topLevelFolder = RemoteRoot.active.name)
    {folder : Segment '/'} :
    listingOf m = crawledListing .active folder.text ↔ m.activeFolder = folder.text := by
  have hremote : remoteFolder m = m.activeFolder := if_pos htop
  have hcsv : ∀ s, endsWith s ".csv".toList = true → endsWithAny s fmsExtensions = true := by
    intro s hs
    rw [endsWithAny_iff]
    exact ⟨_, List.mem_cons_self, endsWith_iff.mp hs⟩
  unfold listingOf listFolder crawledListing
  rw [hremote, htop]
  by_cases hext : endsWithAny m.activeFolder fmsExtensions = true
  · rw [if_pos hext, if_pos hext]
    constructor
    · intro h
      split_ifs at h with hfolder
      · exact Option.some.inj (RemoteListing.mk.inj h).2
      · cases (RemoteListing.mk.inj h).2
    · intro h
      rw [← h, if_pos hext]
      rfl
  · rw [if_neg hext, if_neg hext]
    have hnocsv : ¬ endsWith m.activeFolder ".csv".toList = true := fun h => hext (hcsv _ h)
    constructor
    · intro h
      split_ifs at h with hfolder
      · cases (RemoteListing.mk.inj h).2
      · have hpath := (RemoteListing.mk.inj h).1
        unfold listFolderPath folderPath at hpath
        split_ifs at hpath with hnil
        · have hlen := congrArg List.length hpath
          simp only [List.length_cons, List.length_append] at hlen
          have := List.length_pos_of_ne_nil folder.ne_nil
          omega
        · have hcons := List.append_cancel_left (List.cons.inj hpath).2
          exact List.append_cancel_right (List.cons.inj hcons).2
    · intro h
      have hne : ¬ m.activeFolder = [] := by
        rw [h]
        exact folder.ne_nil
      rw [← h, if_neg hext, listFolderPath, if_neg hne, if_neg hnocsv]
      rfl

/-- No mapping under the legacy root lists the folder it came from: the archive stays in the
path. -/
lemma listingOf_legacy {m : Mapping} (htop : m.topLevelFolder = RemoteRoot.legacy.name)
    {domain : Str} {folder : Segment '/'}
    (hrel : m.remoteFolderPath = domain ++ '/' :: folder.text) :
    listingOf m ≠ crawledListing .legacy folder.text := by
  have hremote : remoteFolder m = domain ++ '/' :: folder.text := by
    rw [remoteFolder, if_neg, hrel]
    rw [htop]
    decide
  have hlong : folder.text.length < (domain ++ '/' :: folder.text).length := by
    rw [List.length_append, List.length_cons]
    omega
  unfold listingOf listFolder crawledListing
  rw [hremote, htop]
  intro h
  by_cases hext : endsWithAny (domain ++ '/' :: folder.text) fmsExtensions = true
  · rw [if_pos hext, if_pos hext] at h
    split_ifs at h with hfolder
    · have honly := Option.some.inj (RemoteListing.mk.inj h).2
      rw [honly] at hlong
      omega
    · cases (RemoteListing.mk.inj h).2
  · rw [if_neg hext, if_neg hext] at h
    split_ifs at h with hfolder
    · cases (RemoteListing.mk.inj h).2
    · have hpath := (RemoteListing.mk.inj h).1
      have hnocsv : ¬ endsWith (domain ++ '/' :: folder.text) ".csv".toList = true := by
        intro hcsv
        exact hext (endsWithAny_iff.mpr ⟨_, List.mem_cons_self, endsWith_iff.mp hcsv⟩)
      rw [listFolderPath, if_neg (by simp), if_neg hnocsv, folderPath] at hpath
      have hlen := congrArg List.length hpath
      simp only [List.length_cons, List.length_append, List.length_nil] at hlen
      omega

/-- The first enabled folder among the segments is a given one when no enabled folder listed
before it is. -/
lemma find?_items_segment_iff {activeFolders : Dict Str EntryValue} {segments : List Str}
    {folder : Str} (hactive : folder ∈ activeFolders.keys) (hseg : folder ∈ segments) :
    (∃ val, activeFolders.items.find? (fun entry => isSegment segments entry.1) =
      some (folder, val)) ↔
        ∀ name ∈ activeFolders.keys.takeWhile (· ≠ folder), name ∉ segments := by
  have hfirst : activeFolders.keys.find? (isSegment segments) = some folder ↔
      ∀ name ∈ activeFolders.keys.takeWhile (· ≠ folder), ¬ isSegment segments name = true :=
    find?_eq_some_iff_takeWhile hactive (decide_eq_true hseg)
  obtain ⟨val, hval⟩ := Dict.mem_keys_iff.mp hactive
  simp only [Dict.find?_items_eq_some_iff]
  rw [exists_and_left, hfirst]
  simp [isSegment, hval]

/-- **When the round trip holds.** For a folder that the checklist enables, the landing path of its
catalog row lists the folder it came from if and only if the row is under the root of the current
publications, the environment is a single segment, and no enabled folder listed before it is the
environment, the root or a segment of the domain.

**Proof sketch.** The mapping carries the first enabled folder among the segments of the path. Under
the root of the current publications the listing is that of this folder; under the legacy root it
is that of archive and folder, which is longer than the folder. -/
theorem roundTrip_iff {cm : CaseMap} {env : Str} {checklist : Checklist} {domain : Str}
    {root : RemoteRoot} {folder : Segment '/'}
    (hactive : folder.text ∈ (extractActiveFolders cm env checklist).keys) :
    RoundTrip cm env checklist domain root folder ↔
      root = .active ∧ '/' ∉ cm.lower env ∧
        ∀ name ∈ (extractActiveFolders cm env checklist).keys.takeWhile (· ≠ folder.text),
          name ≠ cm.lower env ∧ name ≠ RemoteRoot.active.name ∧ name ∉ split '/' domain := by
  have hseg : folder.text ∈ cm.lower env :: root.name :: (split '/' domain ++ [folder.text]) := by
    simp
  have htake : ∀ name ∈ (extractActiveFolders cm env checklist).keys.takeWhile (· ≠ folder.text),
      name ≠ folder.text := by
    intro name hname
    simpa using List.mem_takeWhile_imp hname
  constructor
  · rintro ⟨path, landing, m, hlayout, hresolve, hlisting⟩
    rw [layoutFolder_row, Option.some.injEq, Prod.mk.injEq] at hlayout
    obtain ⟨rfl, -⟩ := hlayout
    by_cases henv : '/' ∈ cm.lower env
    · rw [resolvePath_rowPath_of_mem _ henv] at hresolve
      cases hresolve
    · obtain ⟨name, val, hfind, rfl⟩ := (resolvePath_rowPath henv).mp hresolve
      cases root with
      | legacy => exact absurd hlisting (listingOf_legacy rfl rfl)
      | active =>
        refine ⟨rfl, henv, fun other hother => ?_⟩
        obtain rfl : name = folder.text := (listingOf_active rfl).mp hlisting
        have hnot := (find?_items_segment_iff hactive hseg).mp ⟨val, hfind⟩ other hother
        simp only [List.mem_cons, List.mem_append, not_or] at hnot
        exact ⟨hnot.1, hnot.2.1, hnot.2.2.1⟩
  · rintro ⟨rfl, henv, hnames⟩
    have hnone : ∀ name ∈ (extractActiveFolders cm env checklist).keys.takeWhile
        (· ≠ folder.text), name ∉ cm.lower env :: RemoteRoot.active.name ::
          (split '/' domain ++ [folder.text]) := by
      intro name hname
      obtain ⟨h₁, h₂, h₃⟩ := hnames name hname
      have h₄ := htake name hname
      simp only [List.mem_cons, List.mem_append, List.not_mem_nil, or_false, not_or]
      exact ⟨h₁, h₂, h₃, h₄⟩
    obtain ⟨val, hfind⟩ := (find?_items_segment_iff hactive hseg).mpr hnone
    exact ⟨_, _, _, layoutFolder_row cm env domain .active folder,
      (resolvePath_rowPath henv).mpr ⟨_, val, hfind, rfl⟩, (listingOf_active rfl).mpr rfl⟩

/-- A checklist with one folder under each root. -/
def twoRootChecklist : Checklist :=
  Dict.ofList [("IOP".toList, [
    ⟨"TP_export".toList, Dict.ofList [("Load".toList, Dict.ofList
      [("Load_r3".toList, .bool true)])], ∅⟩,
    ⟨"TP_Legacy_Publications".toList, ∅, Dict.ofList [("Load_r2".toList, .bool true)]⟩])]

/-- The round trip of a current publication. -/
theorem roundTrip_current : RoundTrip CaseMap.ascii "IOP".toList twoRootChecklist "Load".toList
    .active ⟨"Load_r3".toList, by decide, by decide⟩ :=
  (roundTrip_iff (by decide)).mpr ⟨rfl, by decide, by decide⟩

/-- The landing path of a legacy folder lists the archive directory below the legacy root, which
is not where the folder was crawled. -/
theorem not_roundTrip_legacy :
    "Load_r2".toList ∈ (extractActiveFolders CaseMap.ascii "IOP".toList twoRootChecklist).keys ∧
      ¬ RoundTrip CaseMap.ascii "IOP".toList twoRootChecklist "R2_Archives".toList .legacy
        ⟨"Load_r2".toList, by decide, by decide⟩ := by
  refine ⟨by decide, ?_⟩
  rintro ⟨path, landing, m, hlayout, hresolve, hlisting⟩
  have hpath : layoutFolder CaseMap.ascii "iop".toList "R2_Archives".toList
      (folderPath RemoteRoot.legacy.name "Load_r2".toList) =
        some ("iop/TP_Legacy_Publications/R2_Archives/Load_r2".toList,
          ⟨"iop".toList, "R2_Archives".toList, "Load_r2".toList⟩) := by decide
  obtain ⟨rfl, -⟩ := Prod.mk.inj (Option.some.inj (hpath.symm.trans hlayout))
  have hmap : resolvePath CaseMap.ascii "IOP".toList
      (extractActiveFolders CaseMap.ascii "IOP".toList twoRootChecklist)
        "iop/TP_Legacy_Publications/R2_Archives/Load_r2".toList =
          .ok (some ⟨"iop/TP_Legacy_Publications/R2_Archives/Load_r2".toList, "Load_r2".toList,
            "TP_Legacy_Publications".toList, "R2_Archives/Load_r2".toList, .bool true⟩) := by
    decide
  rw [hmap] at hresolve
  cases hresolve
  exact absurd hlisting (by decide)

end EntsoePipeline
