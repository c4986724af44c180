import EntsoePipeline.Catalog.Tables

set_option relaxedAutoImplicit false
set_option autoImplicit false

/-!
# The landing bucket layout

The landing schema is computed from the catalog: each folder row `/<root>/<folder>/` of a domain
becomes the expected bucket path `<env>/<root>/<domain>/<folder>`.

## Main definitions

* `EntsoePipeline.LandingFolder` — a row of `landing_folders_schema`.
* `EntsoePipeline.layoutFolder` — the landing row of one folder row.
* `EntsoePipeline.buildLandingBucketSchema` — the table the builder leaves.
* `EntsoePipeline.folderPath` — the folder path `/<root>/<folder>/` of the crawlers.

## Main results

* `EntsoePipeline.layoutFolder_folderPath` — the landing row of a path of two segments.
* `EntsoePipeline.mem_keys_buildLandingBucketSchema` — the paths of the built table.
-/

namespace EntsoePipeline

open Py

/-- The columns of a `landing_folders_schema` row other than its path. -/
structure LandingFolder where
  /-- The environment, in lower case. -/
  environment : Str
  /-- The data domain or the legacy archive. -/
  domain : Str
  /-- The remote folder name. -/
  folderName : Str
  deriving DecidableEq

/-- The folder path the crawlers store: `f"/{root_dir}/{folder_name}/"`. -/
def folderPath (rootDir folderName : Str) : Str := '/' :: (rootDir ++ '/' :: (folderName ++ ['/']))

/-- The landing path and row of one folder row; `none` when its path has fewer than two
segments. -/
def layoutFolder (cm : CaseMap) (env domain path : Str) : Option (Str × LandingFolder) :=
  match split '/' (strip '/' path) with
  | rootDir :: folderName :: _ =>
    some (join ['/'] [cm.lower env, rootDir, domain, folderName],
      ⟨cm.lower env, domain, folderName⟩)
  | _ => none

/-- The landing schema after the builder has run on a catalog. Nothing is written when no folder
row has a usable path. -/
def buildLandingBucketSchema (cm : CaseMap) (cat : Catalog) (old : Dict Str LandingFolder) :
    Dict Str LandingFolder :=
  let foldersToInsert := cat.folders.items.filterMap fun row =>
    layoutFolder cm row.1.environment row.2.domain row.1.folderPath
  if foldersToInsert = [] then old else Dict.ofList foldersToInsert

/-- The path of a root directory and a folder, both segments, splits into the two. -/
lemma split_strip_folderPath (root folder : Segment '/') :
    split '/' (strip '/' (folderPath root.text folder.text)) = [root.text, folder.text] := by
  have hpath : folderPath root.text folder.text =
      '/' :: (renderPath [root, folder] ++ ['/']) := by
    simp [folderPath, renderPath, join_cons]
  rw [hpath, strip_wrapped_renderPath (by simp), split_renderPath (by simp)]
  rfl

/-- The landing row of a path `/<root>/<folder>/`. -/
lemma layoutFolder_folderPath (cm : CaseMap) (env domain : Str) (root folder : Segment '/') :
    layoutFolder cm env domain (folderPath root.text folder.text) =
      some (join ['/'] [cm.lower env, root.text, domain, folder.text],
        ⟨cm.lower env, domain, folder.text⟩) := by
  rw [layoutFolder, split_strip_folderPath]

/-- The paths of the built table are the landing paths of the folder rows. -/
lemma mem_keys_buildLandingBucketSchema {cm : CaseMap} {cat : Catalog}
    {old : Dict Str LandingFolder} {path : Str}
    (h : path ∈ (buildLandingBucketSchema cm cat old).keys) (hold : path ∉ old.keys) :
    ∃ key row landing, cat.folders.get? key = some row ∧
      layoutFolder cm key.environment row.domain key.folderPath = some (path, landing) := by
  unfold buildLandingBucketSchema at h
  dsimp only at h
  split_ifs at h with hnil
  · exact absurd h hold
  · obtain ⟨⟨path', landing⟩, hmem, rfl⟩ := List.mem_map.mp (Dict.mem_keys_ofList.mp h)
    obtain ⟨⟨key, row⟩, hrow, hlayout⟩ := List.mem_filterMap.mp hmem
    exact ⟨key, row, landing, Dict.mem_items_iff.mp hrow, hlayout⟩

/-- The landing path of every folder row with a usable path is in the built table. -/
lemma mem_keys_of_layoutFolder {cm : CaseMap} {cat : Catalog} {old : Dict Str LandingFolder}
    {key : FolderKey} {row : FolderRow} {path : Str} {landing : LandingFolder}
    (hrow : cat.folders.get? key = some row)
    (hlayout : layoutFolder cm key.environment row.domain key.folderPath = some (path, landing)) :
    path ∈ (buildLandingBucketSchema cm cat old).keys := by
  have hmem : (path, landing) ∈ cat.folders.items.filterMap (fun row =>
      layoutFolder cm row.1.environment row.2.domain row.1.folderPath) :=
    List.mem_filterMap.mpr ⟨(key, row), Dict.mem_items_iff.mpr hrow, hlayout⟩
  unfold buildLandingBucketSchema
  dsimp only
  rw [if_neg (List.ne_nil_of_mem hmem)]
  exact Dict.mem_keys_ofList.mpr (List.mem_map.mpr ⟨_, hmem, rfl⟩)

end EntsoePipeline
