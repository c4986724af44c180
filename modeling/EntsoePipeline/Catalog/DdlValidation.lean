import EntsoePipeline.Lib.Outcome
import EntsoePipeline.Py.Dict
import EntsoePipeline.Py.Str

set_option relaxedAutoImplicit false
set_option autoImplicit false

/-!
# The schema check of the metadata database

The tables of the metadata database are declared in a schema contract. The preflight check builds
the declared tables and compares them with those of the live database: that every table and column
exists, that the nullability agrees, and that the SQL types have the same Python type. It does not
look at keys and constraints, and two SQL types may have the same Python type.

## Main definitions

* `EntsoePipeline.SchemaContract`, `EntsoePipeline.buildMetadata` — the contract and its tables.
* `EntsoePipeline.Database`, `EntsoePipeline.SqlTypes` — a live database, and what is known of its
  types.
* `EntsoePipeline.validateSchemaDdl` — the check.
* `EntsoePipeline.Deviation` — what the check rejects.
* `EntsoePipeline.Conforms` — the database is as declared.
* `EntsoePipeline.TypesAndKeysDeclared` — the SQL types, keys and unique constraints of the tables
  and columns that exist are as declared.

## Main results

* `EntsoePipeline.deviation_of_error` — every error names a deviation that is there.
* `EntsoePipeline.validateSchemaDdl_ok_iff` — the check passes when there is none.
* `EntsoePipeline.conforms_of_ok_iff` — when a passed check means that the database is as declared.
* `EntsoePipeline.not_conforms_of_ok` — databases with a narrow byte counter, and without the keys
  that the writers rely on, pass.

## Implementation notes

The SQL types of a live database are a parameter, with their Python types, their texts and the type
of the contract that each of them is. The columns of a live table have distinct names.
-/

namespace EntsoePipeline

open Py Outcome

/-! ## The code -/

/-- The column types of the contract: `Integer`, `BigInteger`, `String` and `DateTime`. -/
inductive ColumnType
  /-- A 32-bit integer. -/
  | integer
  /-- A 64-bit integer. -/
  | bigint
  /-- A text. -/
  | string
  /-- A time. -/
  | datetime
  deriving DecidableEq

/-- The name of the Python type of a column type. -/
def ColumnType.pythonType : ColumnType → Str
  | integer => "int".toList
  | bigint => "int".toList
  | string => "str".toList
  | datetime => "datetime.datetime".toList

/-- The text of a column type. -/
def ColumnType.text : ColumnType → Str
  | integer => "INTEGER".toList
  | bigint => "BIGINT".toList
  | string => "VARCHAR".toList
  | datetime => "DATETIME".toList

/-- A column of the contract. A property is `none` when it is not given. -/
structure ColumnDef where
  /-- The name of the type. -/
  type : Option Str
  /-- The column that is referenced. -/
  foreignKey : Option Str
  /-- Part of the primary key. -/
  primaryKey : Option Bool
  /-- Numbered by the database. -/
  autoincrement : Option Bool
  /-- May be null. -/
  nullable : Option Bool
  /-- Indexed. -/
  index : Option Bool

/-- A constraint of the contract. -/
structure ConstraintDef where
  /-- The kind of the constraint. -/
  type : Option Str
  /-- Its columns. -/
  columns : Option (List Str)

/-- A table of the contract. -/
structure TableDef where
  /-- The columns by name. -/
  columns : Dict Str ColumnDef
  /-- The constraints by name. -/
  constraints : Dict Str ConstraintDef

/-- The tables of the contract by name. -/
abbrev SchemaContract := Dict Str TableDef

/-- A declared column. -/
structure SaColumn where
  /-- The name. -/
  name : Str
  /-- The type. -/
  type : ColumnType
  /-- The column that is referenced. -/
  foreignKey : Option Str
  /-- Part of the primary key. -/
  primaryKey : Bool
  /-- Numbered by the database. -/
  autoincrement : Bool
  /-- May be null. -/
  nullable : Bool
  /-- Indexed. -/
  index : Bool

/-- A declared table. -/
structure SaTable where
  /-- The name. -/
  name : Str
  /-- The columns. -/
  columns : List SaColumn
  /-- The unique constraints with their names. -/
  uniques : List (Str × List Str)

/-- A side of a comparison of types: Python types, or the texts of the SQL types. -/
inductive TypeName
  /-- A Python type. -/
  | python (name : Str)
  /-- The text of a SQL type. -/
  | sql (text : Str)
  deriving DecidableEq

/-- The errors of the check. -/
inductive DdlError
  /-- The contract has a type that is not known. -/
  | unsupportedType (typeName : Str)
  /-- A unique constraint names a column that its table does not have. -/
  | unknownColumn (table column : Str)
  /-- The database lacks a table. -/
  | missingTable (table : Str)
  /-- A table lacks a column. -/
  | missingColumn (table column : Str)
  /-- The nullability of a column differs. -/
  | nullability (table column : Str) (expected found : Bool)
  /-- The type of a column differs. -/
  | type (table column : Str) (expected found : TypeName)
  deriving DecidableEq

/-- `str(b)`. -/
def boolText (b : Bool) : Str := if b then "True".toList else "False".toList

/-- `str(t)`. -/
def TypeName.show : TypeName → Str
  | python name => "<class '".toList ++ name ++ "'>".toList
  | sql text => text

/-- The texts of the errors that the code raises itself. -/
def DdlError.message : DdlError → Option Str
  | unsupportedType typeName =>
    some ("Unsupported column type in schema contract: ".toList ++ typeName)
  | unknownColumn _ _ => none
  | missingTable table => some ("Missing table '".toList ++ table ++
      "' in database. Please initialize the schema first.".toList)
  | missingColumn table column => some ("Missing column '".toList ++ column ++
      "' in table '".toList ++ table ++ "'.".toList)
  | nullability table column expected found => some ("Nullability mismatch for column '".toList ++
      table ++ '.' :: (column ++ "': expected ".toList ++ boolText expected ++
        ", found ".toList ++ boolText found ++ ['.']))
  | type table column expected found => some ("Type mismatch for column '".toList ++
      table ++ '.' :: (column ++ "': expected python type ".toList ++ expected.show ++
        ", found ".toList ++ found.show ++ ['.']))

/-- What an error is about: the name of a type, or a table. -/
def DdlError.subject : DdlError → Str
  | unsupportedType typeName => typeName
  | unknownColumn table _ => table
  | missingTable table => table
  | missingColumn table _ => table
  | nullability table _ _ _ => table
  | type table _ _ _ => table

/-- Every message names what it is about. -/
lemma DdlError.subject_infix_message {e : DdlError} {text : Str} (h : e.message = some text) :
    e.subject <:+: text := by
  cases e with
  | unknownColumn table column => cases h
  | unsupportedType typeName =>
    cases h
    exact (List.suffix_append _ _).isInfix
  | missingTable table =>
    cases h
    exact List.infix_append _ _ _
  | missingColumn table column =>
    cases h
    exact List.infix_append _ _ _
  | nullability table column expected found =>
    cases h
    exact List.infix_append _ _ _
  | type table column expected found =>
    cases h
    exact List.infix_append _ _ _

/-- The column type of a name. -/
def mapType (cm : CaseMap) (typeName : Str) : Option ColumnType :=
  (Dict.ofList [("integer".toList, ColumnType.integer), ("bigint".toList, .bigint),
    ("string".toList, .string), ("datetime".toList, .datetime)]).get? (cm.lower typeName)

/-- The name of the type of a column: text by default. -/
def ColumnDef.typeName (col : ColumnDef) : Str := col.type.getD "string".toList

/-- The declared column of an entry of the contract. -/
def buildColumn (cm : CaseMap) (entry : Str × ColumnDef) : Except DdlError SaColumn :=
  match mapType cm entry.2.typeName with
  | none => .error (.unsupportedType entry.2.typeName)
  | some type => .ok
    { name := entry.1
      type := type
      foreignKey := entry.2.foreignKey.filter fun fk => fk ≠ []
      primaryKey := entry.2.primaryKey.getD false
      autoincrement := entry.2.autoincrement.getD false
      nullable := entry.2.nullable.getD true
      index := entry.2.index.getD false }

/-- The columns of a constraint, if it is a unique constraint. -/
def ConstraintDef.uniqueColumns (constraint : ConstraintDef) : Option (List Str) :=
  if constraint.type = some "unique".toList then some (constraint.columns.getD []) else none

/-- The declared unique constraints. -/
def TableDef.uniques (table : TableDef) : List (Str × List Str) :=
  table.constraints.items.filterMap fun entry =>
    entry.2.uniqueColumns.map fun columns => (entry.1, columns)

/-- The declared table of an entry of the contract. A unique constraint is on columns of the
table. -/
def buildTable (cm : CaseMap) (entry : Str × TableDef) : Except DdlError SaTable := do
  let columns ← entry.2.columns.items.mapM (buildColumn cm)
  match (entry.2.uniques.flatMap Prod.snd).find? fun column => column ∉ entry.2.columns.keys with
  | some column => .error (.unknownColumn entry.1 column)
  | none => .ok ⟨entry.1, columns, entry.2.uniques⟩

/-- The tables of the contract. -/
def buildMetadata (cm : CaseMap) (contract : SchemaContract) : Except DdlError (List SaTable) :=
  contract.items.mapM (buildTable cm)

/-- What is known of the SQL types of a live database. -/
structure SqlTypes (T : Type) where
  /-- The name of the Python type, if the type has one. -/
  pythonType : T → Option Str
  /-- The text of the type. -/
  text : T → Str
  /-- The type of the contract that it is, if any. -/
  declares : T → Option ColumnType

/-- A column of a live table. -/
structure DbColumn (T : Type) where
  /-- May be null. -/
  nullable : Bool
  /-- The type. -/
  type : T

/-- A live table. -/
structure DbTable (T : Type) where
  /-- The columns by name. -/
  columns : Dict Str (DbColumn T)
  /-- The columns of the primary key. -/
  primaryKey : List Str
  /-- The columns of each unique constraint. -/
  uniques : List (List Str)

/-- The tables of a live database by name. -/
abbrev Database (T : Type) := Dict Str (DbTable T)

section Check

variable {T : Type} (types : SqlTypes T)

/-- The two sides of the comparison of types: the texts, when the live type has no Python type. -/
def comparedTypes (expected : ColumnType) (actual : T) : TypeName × TypeName :=
  match types.pythonType actual with
  | some name => (.python expected.pythonType, .python name)
  | none => (.sql expected.text, .sql (types.text actual))

/-- The check of a column. -/
def checkColumn (tableName : Str) (actualCols : Dict Str (DbColumn T)) (expectedCol : SaColumn) :
    Except DdlError Unit :=
  match actualCols.get? expectedCol.name with
  | none => .error (.missingColumn tableName expectedCol.name)
  | some actualCol =>
    if expectedCol.nullable ≠ actualCol.nullable then
      .error (.nullability tableName expectedCol.name expectedCol.nullable actualCol.nullable)
    else
      let compared := comparedTypes types expectedCol.type actualCol.type
      if compared.1 ≠ compared.2 then
        .error (.type tableName expectedCol.name compared.1 compared.2)
      else .ok ()

/-- The check of a table. -/
def checkTable (db : Database T) (expectedTable : SaTable) : Except DdlError Unit :=
  match db.get? expectedTable.name with
  | none => .error (.missingTable expectedTable.name)
  | some actual => expectedTable.columns.forM (checkColumn types expectedTable.name actual.columns)

/-- The check of a database. -/
def validateSchemaDdl (cm : CaseMap) (contract : SchemaContract) (db : Database T) :
    Except DdlError Unit := do
  let tables ← buildMetadata cm contract
  tables.forM (checkTable types db)

end Check

/-! ## What the check rejects -/

section Deviations

variable {T : Type} {types : SqlTypes T} {cm : CaseMap} {contract : SchemaContract}
  {db : Database T}

/-- The deviations that the check rejects, with their errors. -/
inductive Deviation (types : SqlTypes T) (cm : CaseMap) (contract : SchemaContract)
    (db : Database T) : DdlError → Prop
  /-- The contract has a type that is not known. -/
  | unsupportedType {table name : Str} {tableDef : TableDef} {col : ColumnDef}
      (htable : contract.get? table = some tableDef)
      (hcol : tableDef.columns.get? name = some col) (htype : mapType cm col.typeName = none) :
      Deviation types cm contract db (.unsupportedType col.typeName)
  /-- A unique constraint is on a column that its table does not have. -/
  | unknownColumn {table constraint column : Str} {tableDef : TableDef} {columns : List Str}
      (htable : contract.get? table = some tableDef)
      (hunique : (constraint, columns) ∈ tableDef.uniques) (hcolumn : column ∈ columns)
      (hunknown : column ∉ tableDef.columns.keys) :
      Deviation types cm contract db (.unknownColumn table column)
  /-- The database lacks a table. -/
  | missingTable {table : Str} {tableDef : TableDef} (htable : contract.get? table = some tableDef)
      (hmissing : db.get? table = none) : Deviation types cm contract db (.missingTable table)
  /-- A table lacks a column. -/
  | missingColumn {table name : Str} {tableDef : TableDef} {col : ColumnDef} {actual : DbTable T}
      (htable : contract.get? table = some tableDef) (hactual : db.get? table = some actual)
      (hcol : tableDef.columns.get? name = some col) (hmissing : actual.columns.get? name = none) :
      Deviation types cm contract db (.missingColumn table name)
  /-- The nullability of a column differs. -/
  | nullability {table name : Str} {tableDef : TableDef} {col : ColumnDef} {actual : DbTable T}
      {found : DbColumn T}
      (htable : contract.get? table = some tableDef) (hactual : db.get? table = some actual)
      (hcol : tableDef.columns.get? name = some col)
      (hfound : actual.columns.get? name = some found)
      (hne : col.nullable.getD true ≠ found.nullable) :
      Deviation types cm contract db
        (.nullability table name (col.nullable.getD true) found.nullable)
  /-- The Python type of a column differs, or the text where the live type has no Python type. -/
  | type {table name : Str} {tableDef : TableDef} {col : ColumnDef} {actual : DbTable T}
      {found : DbColumn T} {type : ColumnType}
      (htable : contract.get? table = some tableDef) (hactual : db.get? table = some actual)
      (hcol : tableDef.columns.get? name = some col)
      (hfound : actual.columns.get? name = some found)
      (htype : mapType cm col.typeName = some type)
      (hne : (comparedTypes types type found.type).1 ≠ (comparedTypes types type found.type).2) :
      Deviation types cm contract db
        (.type table name (comparedTypes types type found.type).1
          (comparedTypes types type found.type).2)

/-- A declared column. -/
lemma buildColumn_ok {entry : Str × ColumnDef} {col : SaColumn}
    (h : buildColumn cm entry = .ok col) :
    col.name = entry.1 ∧ mapType cm entry.2.typeName = some col.type ∧
      col.nullable = entry.2.nullable.getD true := by
  unfold buildColumn at h
  cases htype : mapType cm entry.2.typeName with
  | none =>
    rw [htype] at h
    cases h
  | some type =>
    rw [htype] at h
    cases h
    exact ⟨rfl, rfl, rfl⟩

/-- The declared table of an entry: its columns are those of the entry, and its unique constraints
are on columns that it has. -/
lemma buildTable_ok {entry : Str × TableDef} {table : SaTable}
    (h : buildTable cm entry = .ok table) :
    table.name = entry.1 ∧ entry.2.columns.items.mapM (buildColumn cm) = .ok table.columns ∧
      ∀ unique ∈ entry.2.uniques, ∀ column ∈ unique.2, column ∈ entry.2.columns.keys := by
  rw [buildTable] at h
  obtain ⟨columns, hcolumns, h⟩ := bind_eq_ok_iff.mp h
  cases hfind : (entry.2.uniques.flatMap Prod.snd).find? fun column =>
      column ∉ entry.2.columns.keys with
  | some column =>
    rw [hfind] at h
    cases h
  | none =>
    rw [hfind] at h
    cases h
    refine ⟨rfl, hcolumns, fun unique hunique column hcolumn => ?_⟩
    have hnone := List.find?_eq_none.mp hfind column
      (List.mem_flatMap.mpr ⟨unique, hunique, hcolumn⟩)
    simpa using hnone

/-- When the check of a column passes. -/
lemma checkColumn_eq_ok_iff {table : Str} {actual : Dict Str (DbColumn T)} {col : SaColumn} :
    checkColumn types table actual col = .ok () ↔ ∃ found, actual.get? col.name = some found ∧
      col.nullable = found.nullable ∧
        (comparedTypes types col.type found.type).1 =
          (comparedTypes types col.type found.type).2 := by
  unfold checkColumn
  cases actual.get? col.name with
  | none => simp
  | some found =>
    dsimp only
    split_ifs with hnull htype
    · simp [hnull]
    · simp [htype]
    · simp only [ne_eq, not_not] at hnull htype
      simp [hnull, htype]

/-- An error of the declared tables. -/
lemma deviation_of_buildMetadata_error {e : DdlError} (h : buildMetadata cm contract = .error e) :
    Deviation types cm contract db e := by
  obtain ⟨⟨table, tableDef⟩, hentry, htable⟩ := exists_of_mapM_eq_error h
  rw [Dict.mem_items_iff] at hentry
  unfold buildTable at htable
  cases hcolumns : tableDef.columns.items.mapM (buildColumn cm) with
  | error e' =>
    rw [hcolumns] at htable
    cases htable
    obtain ⟨⟨name, col⟩, hcol, hcolerr⟩ := exists_of_mapM_eq_error hcolumns
    rw [Dict.mem_items_iff] at hcol
    unfold buildColumn at hcolerr
    cases htype : mapType cm col.typeName with
    | none =>
      rw [htype] at hcolerr
      cases hcolerr
      exact .unsupportedType hentry hcol htype
    | some type =>
      rw [htype] at hcolerr
      cases hcolerr
  | ok columns =>
    rw [hcolumns] at htable
    cases hfind : (tableDef.uniques.flatMap Prod.snd).find? fun column =>
        column ∉ tableDef.columns.keys with
    | none =>
      simp only [bind, Except.bind, hfind] at htable
      cases htable
    | some column =>
      simp only [bind, Except.bind, hfind] at htable
      cases htable
      obtain ⟨⟨constraint, cols⟩, hunique, hcolumn⟩ :=
        List.mem_flatMap.mp (List.mem_of_find?_eq_some hfind)
      have hunknown := List.find?_some hfind
      exact .unknownColumn hentry hunique hcolumn (by simpa using hunknown)

/-- An error of the comparison of a table. -/
lemma deviation_of_checkTable_error {e : DdlError} {name : Str} {tableDef : TableDef}
    {table : SaTable} (hentry : contract.get? name = some tableDef)
    (hbuilt : buildTable cm (name, tableDef) = .ok table)
    (h : checkTable types db table = .error e) : Deviation types cm contract db e := by
  obtain ⟨hname, hcolumns, -⟩ := buildTable_ok hbuilt
  unfold checkTable at h
  rw [hname] at h
  cases hactual : db.get? name with
  | none =>
    rw [hactual] at h
    cases h
    exact .missingTable hentry hactual
  | some actual =>
    rw [hactual] at h
    obtain ⟨saCol, hsaCol, hcolerr⟩ := exists_of_forM_eq_error h
    obtain ⟨⟨colName, col⟩, hcol, hcolbuilt⟩ := (mem_of_mapM_eq_ok hcolumns).2 saCol hsaCol
    rw [Dict.mem_items_iff] at hcol
    obtain ⟨hcolname, htype, hnullable⟩ := buildColumn_ok hcolbuilt
    unfold checkColumn at hcolerr
    rw [hcolname] at hcolerr
    cases hfound : actual.columns.get? colName with
    | none =>
      rw [hfound] at hcolerr
      cases hcolerr
      exact .missingColumn hentry hactual hcol hfound
    | some found =>
      rw [hfound] at hcolerr
      dsimp only at hcolerr
      split_ifs at hcolerr with hnull hcompared
      · cases hcolerr
        rw [hnullable] at hnull ⊢
        exact .nullability hentry hactual hcol hfound hnull
      · cases hcolerr
        exact .type hentry hactual hcol hfound htype hcompared

/-- **Errors.** Every error of the check is a deviation that is there.

**Proof sketch.** The error is that of the declared tables or of the comparison of one of them, and
the tables and columns that are compared come from entries of the contract. -/
theorem deviation_of_error {e : DdlError} (h : validateSchemaDdl types cm contract db = .error e) :
    Deviation types cm contract db e := by
  unfold validateSchemaDdl at h
  cases hbuild : buildMetadata cm contract with
  | error e' =>
    rw [hbuild] at h
    cases h
    exact deviation_of_buildMetadata_error hbuild
  | ok tables =>
    rw [hbuild] at h
    obtain ⟨table, htable, herror⟩ := exists_of_forM_eq_error h
    obtain ⟨⟨name, tableDef⟩, hentry, hbuilt⟩ := (mem_of_mapM_eq_ok hbuild).2 table htable
    exact deviation_of_checkTable_error (Dict.mem_items_iff.mp hentry) hbuilt herror

/-- A passed check: every entry of the contract is built, and its columns are there with their
nullability and their Python types. -/
lemma spec_of_ok (h : validateSchemaDdl types cm contract db = .ok ()) {table : Str}
    {tableDef : TableDef} (htable : contract.get? table = some tableDef) :
    (∀ unique ∈ tableDef.uniques, ∀ column ∈ unique.2, column ∈ tableDef.columns.keys) ∧
    ∃ actual, db.get? table = some actual ∧
      ∀ name col, tableDef.columns.get? name = some col → ∃ type found,
        mapType cm col.typeName = some type ∧ actual.columns.get? name = some found ∧
          col.nullable.getD true = found.nullable ∧
            (comparedTypes types type found.type).1 = (comparedTypes types type found.type).2 := by
  obtain ⟨tables, hbuild, hchecks⟩ := bind_eq_ok_iff.mp h
  obtain ⟨saTable, hmem, hbuilt⟩ :=
    (mem_of_mapM_eq_ok hbuild).1 _ (Dict.mem_items_iff.mpr htable)
  obtain ⟨hname, hcolumns, huniques⟩ := buildTable_ok hbuilt
  have hcheck := forM_eq_ok_iff.mp hchecks saTable hmem
  refine ⟨huniques, ?_⟩
  unfold checkTable at hcheck
  rw [hname] at hcheck
  cases hactual : db.get? table with
  | none =>
    rw [hactual] at hcheck
    cases hcheck
  | some actual =>
    rw [hactual] at hcheck
    refine ⟨actual, rfl, fun name col hcol => ?_⟩
    obtain ⟨saCol, hsaCol, hcolbuilt⟩ :=
      (mem_of_mapM_eq_ok hcolumns).1 _ (Dict.mem_items_iff.mpr hcol)
    obtain ⟨hcolname, htype, hnullable⟩ := buildColumn_ok hcolbuilt
    obtain ⟨found, hfound, hnull, hcompared⟩ :=
      checkColumn_eq_ok_iff.mp (forM_eq_ok_iff.mp hcheck saCol hsaCol)
    rw [hcolname] at hfound
    exact ⟨saCol.type, found, htype, hfound, hnullable ▸ hnull, hcompared⟩

/-- **The check.** It passes exactly when there is none of the deviations that it rejects.

**Proof sketch.** An error is a deviation. When the check passes, each entry of the contract has
been compared, which excludes every kind of deviation. -/
theorem validateSchemaDdl_ok_iff : validateSchemaDdl types cm contract db = .ok () ↔
    ∀ e, ¬ Deviation types cm contract db e := by
  constructor
  · intro hok e hdev
    cases hdev with
    | unsupportedType htable hcol htype =>
      obtain ⟨-, actual, -, hcols⟩ := spec_of_ok hok htable
      obtain ⟨type, found, hsome, -⟩ := hcols _ _ hcol
      rw [htype] at hsome
      cases hsome
    | unknownColumn htable hunique hcolumn hunknown =>
      exact hunknown ((spec_of_ok hok htable).1 _ hunique _ hcolumn)
    | missingTable htable hmissing =>
      obtain ⟨-, actual, hactual, -⟩ := spec_of_ok hok htable
      rw [hmissing] at hactual
      cases hactual
    | missingColumn htable hactual hcol hmissing =>
      obtain ⟨-, actual, hactual', hcols⟩ := spec_of_ok hok htable
      cases hactual.symm.trans hactual'
      obtain ⟨type, found, -, hfound, -⟩ := hcols _ _ hcol
      rw [hmissing] at hfound
      cases hfound
    | nullability htable hactual hcol hfound hne =>
      obtain ⟨-, actual, hactual', hcols⟩ := spec_of_ok hok htable
      cases hactual.symm.trans hactual'
      obtain ⟨type, found, -, hfound', hnull, -⟩ := hcols _ _ hcol
      cases hfound.symm.trans hfound'
      exact hne hnull
    | type htable hactual hcol hfound htype hne =>
      obtain ⟨-, actual, hactual', hcols⟩ := spec_of_ok hok htable
      cases hactual.symm.trans hactual'
      obtain ⟨type, found, htype', hfound', -, hcompared⟩ := hcols _ _ hcol
      cases hfound.symm.trans hfound'
      cases htype.symm.trans htype'
      exact hne hcompared
  · intro hnone
    cases hresult : validateSchemaDdl types cm contract db with
    | ok u => rfl
    | error e => exact absurd (deviation_of_error hresult) (hnone e)

/-! ## What the check does not look at -/

/-- The live table has the unique constraints of the contract. -/
def UniquesDeclared (tableDef : TableDef) (actual : DbTable T) : Prop :=
  ∀ unique ∈ tableDef.uniques, ∃ columns ∈ actual.uniques, ∀ column,
    column ∈ columns ↔ column ∈ unique.2

/-- The database is as declared: every table and column of the contract exists, with its type, its
nullability, its place in the primary key, and the unique constraints. Whether the live primary key
has columns outside the contract is not part of it. -/
def Conforms (types : SqlTypes T) (cm : CaseMap) (contract : SchemaContract) (db : Database T) :
    Prop :=
  ∀ table tableDef, contract.get? table = some tableDef →
    ∃ actual, db.get? table = some actual ∧
      (∀ name col, tableDef.columns.get? name = some col → ∃ type found,
        mapType cm col.typeName = some type ∧ actual.columns.get? name = some found ∧
          types.declares found.type = some type ∧ found.nullable = col.nullable.getD true ∧
            (name ∈ actual.primaryKey ↔ col.primaryKey.getD false = true)) ∧
      UniquesDeclared tableDef actual

/-- The condition: the SQL types, the primary key and the unique constraints of the tables and
columns that exist are as declared. -/
def TypesAndKeysDeclared (types : SqlTypes T) (cm : CaseMap) (contract : SchemaContract)
    (db : Database T) : Prop :=
  ∀ table tableDef actual, contract.get? table = some tableDef → db.get? table = some actual →
    (∀ name col type found, tableDef.columns.get? name = some col →
      mapType cm col.typeName = some type → actual.columns.get? name = some found →
        types.declares found.type = some type ∧
          (name ∈ actual.primaryKey ↔ col.primaryKey.getD false = true)) ∧
    UniquesDeclared tableDef actual

/-- **Completeness of the check.** For every contract and database, a passed check means that the
database is as declared exactly when the database has a deviation that the check rejects, or the SQL
types, keys and unique constraints are as declared.

**Proof sketch.** The check passes when there is no deviation that it rejects. It has then seen that
the tables and columns exist and have their nullability, and nothing else of what is declared. -/
theorem conforms_of_ok_iff (types : SqlTypes T) (cm : CaseMap) (contract : SchemaContract)
    (db : Database T) :
    (validateSchemaDdl types cm contract db = .ok () → Conforms types cm contract db) ↔
      (∃ e, Deviation types cm contract db e) ∨ TypesAndKeysDeclared types cm contract db := by
  constructor
  · intro hcomplete
    by_cases hdev : ∃ e, Deviation types cm contract db e
    · exact Or.inl hdev
    · right
      intro table tableDef actual htable hactual
      have hconforms := hcomplete (validateSchemaDdl_ok_iff.mpr (not_exists.mp hdev))
      obtain ⟨actual', hactual', hcols, huniques⟩ := hconforms table tableDef htable
      cases hactual.symm.trans hactual'
      refine ⟨fun name col type found hcol htype hfound => ?_, huniques⟩
      obtain ⟨type', found', htype', hfound', hdeclares, -, hkey⟩ := hcols name col hcol
      cases htype.symm.trans htype'
      cases hfound.symm.trans hfound'
      exact ⟨hdeclares, hkey⟩
  · rintro (⟨e, hdev⟩ | hdeclared) hok
    · exact absurd hdev (validateSchemaDdl_ok_iff.mp hok e)
    · intro table tableDef htable
      obtain ⟨-, actual, hactual, hcols⟩ := spec_of_ok hok htable
      obtain ⟨hdeclares, huniques⟩ := hdeclared table tableDef actual htable hactual
      refine ⟨actual, hactual, fun name col hcol => ?_, huniques⟩
      obtain ⟨type, found, htype, hfound, hnull, -⟩ := hcols name col hcol
      obtain ⟨hsame, hkey⟩ := hdeclares name col type found hcol htype hfound
      exact ⟨type, found, htype, hfound, hsame, hnull.symm, hkey⟩

end Deviations

/-! ## The folders and files of the catalog -/

/-- A column of the contract. -/
def contractColumn (type : String) (nullable : Bool) : ColumnDef :=
  ⟨some type.toList, none, none, none, some nullable, none⟩

/-- The tables of the folders and files. -/
def fmsContract : SchemaContract := Dict.ofList [
  ("fms_folders".toList,
    { columns := Dict.ofList [
        ("id".toList, ⟨some "integer".toList, none, some true, some true, some false, none⟩),
        ("environment".toList, contractColumn "string" false),
        ("domain".toList, contractColumn "string" false),
        ("folder_path".toList, contractColumn "string" false),
        ("original_bytes".toList, contractColumn "bigint" false),
        ("crawled_at".toList, contractColumn "datetime" true)]
      constraints := Dict.ofList [("uq_env_folder_path".toList,
        ⟨some "unique".toList, some ["environment".toList, "folder_path".toList]⟩)] }),
  ("fms_files".toList,
    { columns := Dict.ofList [
        ("file_id".toList, ⟨some "string".toList, none, some true, none, some false, none⟩),
        ("folder_id".toList,
          ⟨some "integer".toList, some "fms_folders.id".toList, none, none, some false, some true⟩),
        ("original_bytes".toList, contractColumn "bigint" false)]
      constraints := ∅ })]

/-- A database whose types are those of the contract. -/
def genericTypes : SqlTypes ColumnType where
  pythonType type := some type.pythonType
  text type := type.text
  declares type := some type

/-- A database with the columns of the folders and files: the type of the byte counters, the key of
the files and the unique constraints of the folders vary. -/
def fmsDatabase (bytes : ColumnType) (filesKey : List Str) (folderUniques : List (List Str)) :
    Database ColumnType := Dict.ofList [
  ("fms_folders".toList,
    { columns := Dict.ofList [
        ("id".toList, ⟨false, .integer⟩), ("environment".toList, ⟨false, .string⟩),
        ("domain".toList, ⟨false, .string⟩), ("folder_path".toList, ⟨false, .string⟩),
        ("original_bytes".toList, ⟨false, bytes⟩), ("crawled_at".toList, ⟨true, .datetime⟩)]
      primaryKey := ["id".toList]
      uniques := folderUniques }),
  ("fms_files".toList,
    { columns := Dict.ofList [
        ("file_id".toList, ⟨false, .string⟩), ("folder_id".toList, ⟨false, .integer⟩),
        ("original_bytes".toList, ⟨false, bytes⟩)]
      primaryKey := filesKey
      uniques := [] })]

/-- The database with the declared constraints and byte counters of 32 bits. -/
def narrowDatabase : Database ColumnType :=
  fmsDatabase .integer ["file_id".toList] [["environment".toList, "folder_path".toList]]

/-- The database in which the id of a file is no key. -/
def keylessDatabase : Database ColumnType :=
  fmsDatabase .bigint [] [["environment".toList, "folder_path".toList]]

/-- The database in which two rows may have one folder path. -/
def sharedPathDatabase : Database ColumnType := fmsDatabase .bigint ["file_id".toList] []

/-- Databases pass in which a byte counter has 32 bits, the id of a file is no key, or two rows may
have one folder path. -/
theorem not_conforms_of_ok :
    ¬ (validateSchemaDdl genericTypes CaseMap.ascii fmsContract narrowDatabase = .ok () →
        Conforms genericTypes CaseMap.ascii fmsContract narrowDatabase) ∧
      ¬ (validateSchemaDdl genericTypes CaseMap.ascii fmsContract keylessDatabase = .ok () →
        Conforms genericTypes CaseMap.ascii fmsContract keylessDatabase) ∧
      ¬ (validateSchemaDdl genericTypes CaseMap.ascii fmsContract sharedPathDatabase = .ok () →
        Conforms genericTypes CaseMap.ascii fmsContract sharedPathDatabase) := by
  refine ⟨fun hcomplete => ?_, fun hcomplete => ?_, fun hcomplete => ?_⟩
  · have hconforms := hcomplete (by decide +kernel)
    obtain ⟨actual, hactual, hcols, -⟩ := hconforms "fms_files".toList _ rfl
    cases hactual
    obtain ⟨type, found, htype, hfound, hdeclares, -⟩ := hcols "original_bytes".toList _ rfl
    cases hfound
    have hbigint : some ColumnType.bigint = some type := htype
    have hinteger : some ColumnType.integer = some type := hdeclares
    rw [← hinteger] at hbigint
    cases hbigint
  · have hconforms := hcomplete (by decide +kernel)
    obtain ⟨actual, hactual, hcols, -⟩ := hconforms "fms_files".toList _ rfl
    cases hactual
    obtain ⟨type, found, -, hfound, -, -, hkey⟩ := hcols "file_id".toList _ rfl
    exact absurd (hkey.mpr rfl) List.not_mem_nil
  · have hconforms := hcomplete (by decide +kernel)
    obtain ⟨actual, hactual, -, huniques⟩ := hconforms "fms_folders".toList _ rfl
    cases hactual
    obtain ⟨columns, hcolumns, -⟩ := huniques _ List.mem_cons_self
    exact absurd hcolumns List.not_mem_nil

end EntsoePipeline
