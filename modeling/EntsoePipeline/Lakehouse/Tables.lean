import EntsoePipeline.Lakehouse.FmsSchemas
import EntsoePipeline.Lib.Merge

set_option relaxedAutoImplicit false
set_option autoImplicit false

/-!
# The staging tables

The files of a contract are read into a data frame, and the frame is written to the table of the
contract: merged on the business keys of its schema, or appended when the schema has none. The table
is created when it is missing, with the columns of the frame, and keeps them. Spark refuses a
statement that it cannot parse or whose columns do not fit before the statement has an effect, but a
table that was created for it stays.

## Main definitions

* `EntsoePipeline.loadRawCsvWithSchema` — the rows of a file, with blank cells set to `NULL`.
* `EntsoePipeline.SparkSql` — what Spark accepts.
* `EntsoePipeline.Lakehouse`, `EntsoePipeline.addCsvToIcebergTable` — the tables and the write.
* `EntsoePipeline.Writable` — Spark accepts the statements of a write.

## Main results

* `EntsoePipeline.addCsvToIcebergTable_spec`, `EntsoePipeline.exists_addCsvToIcebergTable_iff` —
  what a write does to the tables, and when it succeeds.
* `EntsoePipeline.writable_left_iff` — a write leaves its table as fit for the frame as it was.

## Implementation notes

Rows are of any type with named cells. A merge or an append that is accepted stores the rows of the
frame as they are. The text of a key stands in the condition of the merge without quotes: what Spark
reads there as the name of one column is a parameter, and all other texts are refused (a text that
is an expression of its own is left out). How many files a write produces is left out.
-/

namespace EntsoePipeline

open Py

/-! ## Reading a file -/

/-- What can go wrong in a read or a write. -/
inductive LakehouseError
  /-- A `ValueError`. -/
  | valueError
  /-- A statement that Spark cannot parse, or a column or a value that it cannot resolve. -/
  | analysisError
  /-- A target row of a merge is matched by two source rows. -/
  | cardinalityViolation
  deriving DecidableEq

/-- A field of a Spark schema. -/
structure StructField where
  /-- The name of the column. -/
  name : Str
  /-- The header it is read from, empty when the metadata do not have one. -/
  sourceCsvColumn : Str
  /-- The data type is `StringType`. -/
  isString : Bool
  /-- The data type is `TimestampType`. -/
  isTimestamp : Bool

/-- The header a field is read from. -/
def StructField.csvColName (field : StructField) : Str :=
  if field.sourceCsvColumn = [] then field.name else field.sourceCsvColumn

/-- The conversions of Spark, `NULL` or an error when a text has no value of the type. -/
structure SparkCasts (ν : Type*) where
  /-- `cast`. -/
  cast : StructField → Str → Except LakehouseError (Option ν)
  /-- `to_timestamp` with a format. -/
  toTimestamp : Str → Str → Except LakehouseError (Option ν)

section Load

variable {ν : Type*} (casts : SparkCasts ν) (dateFormat : Option Str)

/-- The value of a cell: a blank cell of a column that is no string is `NULL` before the cast. -/
def loadCell (field : StructField) (cell : Option Str) : Except LakehouseError (Option ν) :=
  let cell := if field.isString then cell else cell.filter fun text => strip ' ' text ≠ []
  match cell, field.isTimestamp, dateFormat with
  | none, _, _ => .ok none
  | some text, true, some format => casts.toTimestamp format text
  | some text, _, _ => casts.cast field text

/-- The row of a data frame that a line of a file gives. -/
def loadRow (sparkSchema : List StructField) (line : Dict Str (Option Str)) :
    Except LakehouseError (Dict Str (Option ν)) :=
  (sparkSchema.mapM fun field => (loadCell casts dateFormat field
    ((line.get? field.csvColName).getD none)).map fun value => (field.name, value)).map Dict.ofList

/-- The rows of a file with the given header. A field without a column fails at its cast. -/
def loadRawCsvWithSchema (sparkSchema : List StructField) (header : List Str)
    (lines : List (Dict Str (Option Str))) : Except LakehouseError (List (Dict Str (Option ν))) :=
  if ∀ field ∈ sparkSchema, field.csvColName ∈ header then
    lines.mapM (loadRow casts dateFormat sparkSchema)
  else .error .analysisError

/-- A blank cell of a column that is no string becomes `NULL`, whatever the conversions do. -/
lemma loadCell_blank {field : StructField} (h : field.isString = false) {text : Str}
    (hblank : strip ' ' text = []) : loadCell casts dateFormat field (some text) = .ok none := by
  simp [loadCell, h, Option.filter, hblank]

end Load

/-- The cell of a row that is a dictionary. -/
def rowCell {ν : Type*} (row : Dict Str (Option ν)) (name : Str) : Option ν :=
  (row.get? name).getD none

/-! ## Tables -/

/-- A data frame. -/
structure DataFrame (ρ : Type*) where
  /-- The columns. -/
  columns : Columns
  /-- The rows. -/
  rows : List ρ

/-- A table. -/
structure LakeTable (ρ : Type*) where
  /-- The columns. -/
  columns : Columns
  /-- The rows. -/
  rows : List ρ
  deriving DecidableEq

/-- The tables of the lakehouse under their names. -/
abbrev Lakehouse (ρ : Type*) := Dict Str (LakeTable ρ)

/-- The rows of a table, none when it does not exist. -/
def tableRows {ρ : Type*} (lakehouse : Lakehouse ρ) (tableName : Str) : List ρ :=
  ((lakehouse.get? tableName).map LakeTable.rows).getD []

/-- The columns of a table; a table that does not exist will have those of the frame. -/
def tableColumns {ρ : Type*} (lakehouse : Lakehouse ρ) (tableName : Str) (columns : Columns) :
    Columns :=
  ((lakehouse.get? tableName).map LakeTable.columns).getD columns

/-- What Spark accepts before a statement has an effect. -/
structure SparkSql where
  /-- Behind the alias of a table, the text is the name of one column, and this is its name. -/
  isIdentifier : Str → Bool
  /-- A table with the columns can be created. -/
  canCreate : Columns → Bool
  /-- A frame with the second columns can be appended to a table with the first ones. -/
  canAppend : Columns → Columns → Bool
  /-- A frame with the second columns can be merged on some keys into a table with the first
  ones. -/
  canMerge : List Str → Columns → Columns → Bool
  /-- A space ends a name that is not quoted. -/
  space_not_mem : ∀ name, isIdentifier name = true → ' ' ∉ name

/-- What the write reads from the configuration, and the Spark that it runs on. -/
structure LakehouseConfig where
  /-- Conversion of letters. -/
  cm : CaseMap
  /-- What Spark accepts. -/
  spark : SparkSql
  /-- The namespace of the staging zone. -/
  staging : Str
  /-- The schemas of the publications. -/
  publications : Dict Str FmsPublicationSchema

/-- The table of a contract. -/
def tableName (config : LakehouseConfig) (fmsName : Str) : Str :=
  "lakehouse.".toList ++ config.staging ++ ".`".toList ++
    (config.cm.lower fmsName).map (fun ch => if ch = '.' then '_' else ch) ++ "`".toList

/-- The keys of a contract: none when it has no schema. -/
def contractKeys (config : LakehouseConfig) (fmsName : Str) : List Str :=
  match config.publications.get? fmsName with
  | some publicationSchema => getDomainBusinessKeys config.cm publicationSchema
  | none => []

/-- How a write ends. -/
structure WriteOutcome (ε τ : Type*) where
  /-- The tables before any row is written, with the table of the contract if it was created. -/
  prepared : τ
  /-- The tables behind the write, or why it fails. -/
  result : Except ε τ

section Write

variable {ρ ν : Type*} [DecidableEq ν] (cell : ρ → Str → Option ν) (config : LakehouseConfig)

/-- The lakehouse with the table of a contract, which is created when it is missing. -/
def ensureIcebergTableExists (lakehouse : Lakehouse ρ) (fmsName : Str) (columns : Columns) :
    Except LakehouseError (Lakehouse ρ) :=
  match lakehouse.get? (tableName config fmsName) with
  | some _ => .ok lakehouse
  | none =>
    if columns = [] then .error .valueError
    else if config.spark.canCreate columns then
      .ok (lakehouse.set (tableName config fmsName) ⟨columns, []⟩)
    else .error .analysisError

/-- `df.write.format("iceberg").mode("append").save(table)`. -/
def appendDataframeToTable (lakehouse : Lakehouse ρ) (df : DataFrame ρ) (table : Str) :
    Except LakehouseError (Lakehouse ρ) :=
  match lakehouse.get? table with
  | none => .error .analysisError
  | some target =>
    if config.spark.canAppend target.columns df.columns then
      .ok (lakehouse.set table { target with rows := target.rows ++ df.rows })
    else .error .analysisError

/-- The upsert of a data frame into a table. The condition of the merge is a conjunction of
`t.key = s.key` with the texts of the keys. -/
def mergeDataframeIntoTable (lakehouse : Lakehouse ρ) (df : DataFrame ρ) (table : Str)
    (keys : List Str) : Except LakehouseError (Lakehouse ρ) :=
  if keys = [] then .error .valueError
  else match lakehouse.get? table with
    | none => .error .analysisError
    | some target =>
      if keys.all config.spark.isIdentifier ∧
          config.spark.canMerge keys target.columns df.columns then
        match Sql.merge cell keys target.rows df.rows with
        | some rows => .ok (lakehouse.set table { target with rows := rows })
        | none => .error .cardinalityViolation
      else .error .analysisError

/-- The write of a data frame to the table of its contract. -/
def addCsvToIcebergTable (lakehouse : Lakehouse ρ) (df : DataFrame ρ) (fmsName : Str) :
    WriteOutcome LakehouseError (Lakehouse ρ) :=
  let keys := contractKeys config fmsName
  let table := tableName config fmsName
  match ensureIcebergTableExists config lakehouse fmsName df.columns with
  | .error e => ⟨lakehouse, .error e⟩
  | .ok prepared =>
    ⟨prepared, if keys = [] then appendDataframeToTable config prepared df table
      else mergeDataframeIntoTable cell config prepared df table keys⟩

/-! ### What Spark accepts -/

/-- The table of a contract exists or can be created. -/
def CanPrepare (lakehouse : Lakehouse ρ) (fmsName : Str) (columns : Columns) : Prop :=
  lakehouse.get? (tableName config fmsName) = none →
    columns ≠ [] ∧ config.spark.canCreate columns = true

/-- The columns of a frame fit the table of its contract, and the keys can stand in the condition of
the merge. -/
def Fits (lakehouse : Lakehouse ρ) (fmsName : Str) (columns : Columns) : Prop :=
  let target := tableColumns lakehouse (tableName config fmsName) columns
  if contractKeys config fmsName = [] then config.spark.canAppend target columns = true
  else (∀ key ∈ contractKeys config fmsName, config.spark.isIdentifier key = true) ∧
    config.spark.canMerge (contractKeys config fmsName) target columns = true

/-- Spark accepts the statements that write a frame with some columns. -/
def Writable (lakehouse : Lakehouse ρ) (fmsName : Str) (columns : Columns) : Prop :=
  CanPrepare config lakehouse fmsName columns ∧ Fits config lakehouse fmsName columns

variable (lakehouse : Lakehouse ρ) (fmsName : Str) (columns : Columns)

instance : Decidable (CanPrepare config lakehouse fmsName columns) :=
  inferInstanceAs (Decidable (_ → _))

instance : Decidable (Fits config lakehouse fmsName columns) :=
  inferInstanceAs (Decidable (ite _ _ _))

instance : Decidable (Writable config lakehouse fmsName columns) :=
  inferInstanceAs (Decidable (_ ∧ _))

variable {cell config lakehouse fmsName columns} {lakehouse' : Lakehouse ρ} {df : DataFrame ρ}

/-- A key with a space makes every write be refused. -/
lemma not_writable_of_space {key : Str} (hkey : key ∈ contractKeys config fmsName)
    (hspace : ' ' ∈ key) : ¬ Writable config lakehouse fmsName columns := by
  rintro ⟨-, hfits⟩
  rw [Fits, if_neg (List.ne_nil_of_mem hkey)] at hfits
  exact config.spark.space_not_mem key (hfits.1 key hkey) hspace

/-! ### The tables behind a write -/

/-- A table has the rows that were stored in it. -/
@[simp] lemma tableRows_set_self (lakehouse : Lakehouse ρ) (table : Str) (target : LakeTable ρ) :
    tableRows (lakehouse.set table target) table = target.rows := by
  simp [tableRows]

/-- Storing rows in a table leaves the others as they are. -/
lemma tableRows_set_of_ne (lakehouse : Lakehouse ρ) {table other : Str} (target : LakeTable ρ)
    (h : other ≠ table) :
    tableRows (lakehouse.set table target) other = tableRows lakehouse other := by
  rw [tableRows, Dict.get?_set_of_ne _ _ h]
  rfl

/-- The table of a contract exists when it could be created. -/
lemma exists_ensureIcebergTableExists_iff :
    (∃ prepared, ensureIcebergTableExists config lakehouse fmsName columns = .ok prepared) ↔
      CanPrepare config lakehouse fmsName columns := by
  unfold ensureIcebergTableExists CanPrepare
  cases lakehouse.get? (tableName config fmsName) with
  | some target => simp
  | none =>
    dsimp only
    split_ifs with hnil hcreate
    · simp [hnil]
    · simp [hnil, hcreate]
    · simp [hcreate]

/-- The table of a contract, once it exists: its columns and its rows. -/
lemma get?_ensureIcebergTableExists {prepared : Lakehouse ρ}
    (h : ensureIcebergTableExists config lakehouse fmsName columns = .ok prepared) :
    prepared.get? (tableName config fmsName) =
      some ⟨tableColumns lakehouse (tableName config fmsName) columns,
        tableRows lakehouse (tableName config fmsName)⟩ := by
  unfold ensureIcebergTableExists at h
  unfold tableColumns tableRows
  cases hget : lakehouse.get? (tableName config fmsName) with
  | some target =>
    rw [hget] at h
    cases h
    rw [hget]
    rfl
  | none =>
    rw [hget] at h
    dsimp only at h
    split_ifs at h
    cases h
    exact Dict.get?_set_self _ _ _

/-- Creating a table changes the rows of none. -/
lemma tableRows_ensureIcebergTableExists {prepared : Lakehouse ρ}
    (h : ensureIcebergTableExists config lakehouse fmsName columns = .ok prepared) (table : Str) :
    tableRows prepared table = tableRows lakehouse table := by
  by_cases hname : table = tableName config fmsName
  · rw [hname, tableRows, get?_ensureIcebergTableExists h]
    rfl
  · unfold ensureIcebergTableExists at h
    cases hget : lakehouse.get? (tableName config fmsName) with
    | some target =>
      rw [hget] at h
      cases h
      rfl
    | none =>
      rw [hget] at h
      dsimp only at h
      split_ifs at h
      cases h
      exact tableRows_set_of_ne _ _ hname

variable (cell) in
/-- The rows of a table after a write, `none` when the merge aborts. -/
def writeRows (keys : List Str) (old new : List ρ) : Option (List ρ) :=
  if keys = [] then some (old ++ new) else Sql.merge cell keys old new

/-- A write does not abort unless it merges and a stored row has the key of two written rows. -/
lemma writeRows_ne_none_iff {keys : List Str} {old new : List ρ} :
    writeRows cell keys old new ≠ none ↔ (keys ≠ [] → ¬ Sql.Ambiguous cell keys old new) := by
  unfold writeRows
  split_ifs with hkeys
  · simp [hkeys]
  · rw [ne_eq, Sql.merge_eq_none_iff]
    simp [hkeys]

/-- A write to a table that exists. -/
lemma addCsvToIcebergTable_of_ensure {prepared : Lakehouse ρ}
    (h : ensureIcebergTableExists config lakehouse fmsName df.columns = .ok prepared) :
    addCsvToIcebergTable cell config lakehouse df fmsName = ⟨prepared,
      if Fits config lakehouse fmsName df.columns then
        match writeRows cell (contractKeys config fmsName)
          (tableRows lakehouse (tableName config fmsName)) df.rows with
        | some rows => .ok (prepared.set (tableName config fmsName)
            ⟨tableColumns lakehouse (tableName config fmsName) df.columns, rows⟩)
        | none => .error .cardinalityViolation
      else .error .analysisError⟩ := by
  unfold addCsvToIcebergTable
  rw [h]
  dsimp only
  congr 1
  unfold Fits writeRows appendDataframeToTable mergeDataframeIntoTable
  rw [get?_ensureIcebergTableExists h]
  dsimp only
  by_cases hkeys : contractKeys config fmsName = []
  · simp only [if_pos hkeys]
  · simp only [if_neg hkeys, List.all_eq_true]

/-- The tables before the rows are written have the rows of those before the write. -/
lemma tableRows_prepared (table : Str) :
    tableRows (addCsvToIcebergTable cell config lakehouse df fmsName).prepared table =
      tableRows lakehouse table := by
  cases hensure : ensureIcebergTableExists config lakehouse fmsName df.columns with
  | error e => simp only [addCsvToIcebergTable, hensure]
  | ok prepared =>
    rw [addCsvToIcebergTable_of_ensure hensure]
    exact tableRows_ensureIcebergTableExists hensure table

/-- **A write.** A write that succeeds appends to the table of its contract or merges into it, and
leaves the rows of the other tables as they are. -/
lemma addCsvToIcebergTable_spec
    (h : (addCsvToIcebergTable cell config lakehouse df fmsName).result = .ok lakehouse') :
    writeRows cell (contractKeys config fmsName)
        (tableRows lakehouse (tableName config fmsName)) df.rows =
          some (tableRows lakehouse' (tableName config fmsName)) ∧
      ∀ other ≠ tableName config fmsName,
        tableRows lakehouse' other = tableRows lakehouse other := by
  cases hensure : ensureIcebergTableExists config lakehouse fmsName df.columns with
  | error e =>
    simp only [addCsvToIcebergTable, hensure] at h
    cases h
  | ok prepared =>
    rw [addCsvToIcebergTable_of_ensure hensure] at h
    dsimp only at h
    split_ifs at h
    cases hwrite : writeRows cell (contractKeys config fmsName)
        (tableRows lakehouse (tableName config fmsName)) df.rows with
    | none =>
      rw [hwrite] at h
      cases h
    | some rows =>
      rw [hwrite] at h
      cases h
      refine ⟨by rw [tableRows_set_self], ?_⟩
      intro other hother
      rw [tableRows_set_of_ne _ _ hother, tableRows_ensureIcebergTableExists hensure]

/-- **When a write succeeds**: Spark accepts its statements, and the merge does not abort. -/
lemma exists_addCsvToIcebergTable_iff :
    (∃ lakehouse', (addCsvToIcebergTable cell config lakehouse df fmsName).result =
        .ok lakehouse') ↔
      Writable config lakehouse fmsName df.columns ∧
        writeRows cell (contractKeys config fmsName)
          (tableRows lakehouse (tableName config fmsName)) df.rows ≠ none := by
  unfold Writable
  rw [← exists_ensureIcebergTableExists_iff]
  cases hensure : ensureIcebergTableExists config lakehouse fmsName df.columns with
  | error e => simp [addCsvToIcebergTable, hensure]
  | ok prepared =>
    rw [addCsvToIcebergTable_of_ensure hensure]
    dsimp only
    split_ifs with hfits
    · cases writeRows cell (contractKeys config fmsName)
          (tableRows lakehouse (tableName config fmsName)) df.rows with
      | none => simp
      | some rows => simp [hfits]
    · simp [hfits]

/-- The tables behind a write, whether it succeeds or not. -/
def WriteOutcome.left {ε τ : Type*} (outcome : WriteOutcome ε τ) : τ :=
  match outcome.result with
  | .ok written => written
  | .error _ => outcome.prepared

/-- A write leaves the table of its contract as fit for the columns of its frame as it was. -/
lemma writable_left_iff :
    Writable config (addCsvToIcebergTable cell config lakehouse df fmsName).left
      fmsName df.columns ↔ Writable config lakehouse fmsName df.columns := by
  cases hensure : ensureIcebergTableExists config lakehouse fmsName df.columns with
  | error e =>
    have hleft : (addCsvToIcebergTable cell config lakehouse df fmsName).left = lakehouse := by
      simp only [WriteOutcome.left, addCsvToIcebergTable, hensure]
    rw [hleft]
  | ok prepared =>
    -- the table exists afterwards, with the columns that it had or was created with
    have hleft : ∃ rows,
        (addCsvToIcebergTable cell config lakehouse df fmsName).left.get?
          (tableName config fmsName) =
            some ⟨tableColumns lakehouse (tableName config fmsName) df.columns, rows⟩ := by
      rw [addCsvToIcebergTable_of_ensure hensure, WriteOutcome.left]
      dsimp only
      split_ifs
      · cases writeRows cell (contractKeys config fmsName)
            (tableRows lakehouse (tableName config fmsName)) df.rows with
        | none => exact ⟨_, get?_ensureIcebergTableExists hensure⟩
        | some rows => exact ⟨rows, Dict.get?_set_self _ _ _⟩
      · exact ⟨_, get?_ensureIcebergTableExists hensure⟩
    obtain ⟨rows, hget⟩ := hleft
    have hcolumns : tableColumns (addCsvToIcebergTable cell config lakehouse df fmsName).left
        (tableName config fmsName) df.columns =
          tableColumns lakehouse (tableName config fmsName) df.columns := by
      rw [tableColumns, hget]
      rfl
    have hprepare := exists_ensureIcebergTableExists_iff.mp ⟨prepared, hensure⟩
    have hprepare' : CanPrepare config (addCsvToIcebergTable cell config lakehouse df fmsName).left
        fmsName df.columns := by
      intro hnone
      rw [hget] at hnone
      cases hnone
    unfold Writable Fits
    rw [hcolumns, and_iff_right hprepare, and_iff_right hprepare']

end Write

end EntsoePipeline
