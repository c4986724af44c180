import EntsoePipeline.Py.Datetime
import EntsoePipeline.Py.Dict

set_option relaxedAutoImplicit false
set_option autoImplicit false

/-!
# The metadata catalog

The two catalog tables `fms_folders` and `fms_files`. A folder row is keyed by its unique
constraint, environment and folder path, and a file row by its primary key, the file id; the
foreign key `folder_id` of a file is the key of its folder row.

## Main definitions

* `EntsoePipeline.FolderKey`, `EntsoePipeline.FolderRow` — the key and the columns of
  `fms_folders`.
* `EntsoePipeline.FileRow` — the columns of `fms_files`.
* `EntsoePipeline.Catalog` — both tables.

## Implementation notes

A query without `ORDER BY` may return its rows in any order, so the code that reads several rows
takes the list of rows as an argument and its properties are stated for every permutation of
`Catalog.folderRows` and `Catalog.fileRows`.
-/

namespace EntsoePipeline

open Py

/-- The unique key of a folder row. -/
structure FolderKey where
  /-- The environment, in lower case. -/
  environment : Str
  /-- The path `/<root>/<folder>/`. -/
  folderPath : Str
  deriving DecidableEq, Repr

/-- The other columns of a folder row. -/
structure FolderRow where
  /-- The data domain or the legacy archive. -/
  domain : Str
  /-- The number of files of the folder. -/
  itemCount : ℕ
  /-- The uncompressed size of its files. -/
  originalBytes : ℤ
  /-- The compressed size of its files. -/
  compressedBytes : ℤ
  /-- The time of the last successful scan; `none` when the folder was never scanned. -/
  crawledAt : Option Datetime
  deriving DecidableEq, Repr

/-- The columns of a file row other than its id. -/
structure FileRow where
  /-- The folder that owns the file. -/
  folder : FolderKey
  /-- The stored file name. -/
  name : Str
  /-- The uncompressed size. -/
  originalBytes : ℤ
  /-- The compressed size. -/
  compressedBytes : ℤ
  /-- The time of the last modification, as the server writes it. -/
  lastUpdated : Str
  /-- The digest of name, size and time. -/
  xxhash : Str
  deriving DecidableEq, Repr

/-- The catalog tables. -/
structure Catalog where
  /-- `fms_folders`. -/
  folders : Dict FolderKey FolderRow
  /-- `fms_files`, by file id. -/
  files : Dict Str FileRow
  deriving DecidableEq

namespace Catalog

/-- The catalog of a fresh database. -/
def empty : Catalog := ⟨∅, ∅⟩

/-- The folder rows of an environment. -/
def folderRows (cat : Catalog) (env : Str) : List (FolderKey × FolderRow) :=
  cat.folders.items.filter fun row => row.1.environment = env

/-- The rows of the files whose folder belongs to an environment. -/
def fileRows (cat : Catalog) (env : Str) : List FileRow :=
  cat.files.values.filter fun row => row.folder.environment = env

/-- The empty catalog has no folder rows. -/
@[simp] lemma folderRows_empty (env : Str) : empty.folderRows env = [] := rfl

/-- The empty catalog has no file rows. -/
@[simp] lemma fileRows_empty (env : Str) : empty.fileRows env = [] := rfl

/-- The folder rows of an environment are the entries of its keys. -/
lemma mem_folderRows {cat : Catalog} {env : Str} {key : FolderKey} {row : FolderRow} :
    (key, row) ∈ cat.folderRows env ↔ cat.folders.get? key = some row ∧ key.environment = env := by
  rw [folderRows, List.mem_filter, Dict.mem_items_iff, decide_eq_true_eq]

/-- The file rows of an environment are the entries whose folder belongs to it. -/
lemma mem_fileRows {cat : Catalog} {env : Str} {row : FileRow} :
    row ∈ cat.fileRows env ↔
      (∃ fileId, cat.files.get? fileId = some row) ∧ row.folder.environment = env := by
  rw [fileRows, List.mem_filter, Dict.mem_values_iff, decide_eq_true_eq]

end Catalog

end EntsoePipeline
