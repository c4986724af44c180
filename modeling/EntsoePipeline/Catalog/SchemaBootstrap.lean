import EntsoePipeline.Catalog.DdlValidation

set_option relaxedAutoImplicit false
set_option autoImplicit false

/-!
# The initialisation of the metadata database

The tables of the schema contract that the database lacks are created. A table that exists is left
as it is, even when the contract has changed since. A run can break off at any statement, and is
then taken back or not, as the database does.

## Main definitions

* `EntsoePipeline.DdlEngine` — what a database makes of a declaration.
* `EntsoePipeline.createTable`, `EntsoePipeline.createAll`, `EntsoePipeline.initDb` — the code.
* `EntsoePipeline.initRuns` — runs in a row.
* `EntsoePipeline.Grown` — what runs can have done to a database.

## Main results

* `EntsoePipeline.grown_initRuns` — whatever breaks off, runs keep every table and add only tables
  of the contract, as declared.
* `EntsoePipeline.validate_of_initDb_iff` — when the schema check passes behind a finished run.
* `EntsoePipeline.conforms_of_initDb_iff` — on tables that only runs created, a passed check means
  that the database is as declared.

## Implementation notes

What the library and the database do is documented behaviour: the creation looks for the tables that
exist first, orders the others by their references, and creates each of them, followed by its
indexes. The indexes themselves are left out, as no check reads them. A column of the primary key is
not null on a database that does not allow it, whatever is declared.
-/

namespace EntsoePipeline

open Py Outcome

/-! ## The code -/

/-- What a database makes of a declaration. -/
structure DdlEngine (T : Type) where
  /-- The live type of a column type. -/
  liveType : ColumnType → T
  /-- A column of the primary key may be null when it is declared so. -/
  nullInKey : Bool
  /-- A run that breaks off is taken back. -/
  transactional : Bool
  /-- The tables behind those that they refer to, if all of these are declared. -/
  sortTables : List SaTable → Option (List SaTable)
  sortTables_perm : ∀ tables sorted, sortTables tables = some sorted → sorted.Perm tables

/-- The errors of the initialisation. -/
inductive InitError
  /-- The contract cannot be built. -/
  | contract (e : DdlError)
  /-- A table refers to one that is not declared. -/
  | unresolvedReference
  /-- A statement fails. -/
  | statement

/-- What becomes of the statements of a table. -/
inductive TableOutcome
  | created
  /-- The table is there, but the statement of one of its indexes fails. -/
  | indexFails
  | refused

section Code

variable {T : Type} (engine : DdlEngine T)

/-- The live column of a declared one. -/
def createColumn (col : SaColumn) : DbColumn T where
  nullable := col.nullable && (engine.nullInKey || !col.primaryKey)
  type := engine.liveType col.type

/-- The live table of a declared one. -/
def createTable (table : SaTable) : DbTable T where
  columns := Dict.ofList (table.columns.map fun col => (col.name, createColumn engine col))
  primaryKey := (table.columns.filter SaColumn.primaryKey).map SaColumn.name
  uniques := table.uniques.map Prod.snd

/-- The statements, table by table, until one of them fails. -/
def createTables (served : ℕ → TableOutcome) : ℕ → List SaTable → Database T → Bool × Database T
  | _, [], db => (true, db)
  | n, table :: tables, db =>
    match served n with
    | .created => createTables served (n + 1) tables (db.set table.name (createTable engine table))
    | .indexFails => (false, db.set table.name (createTable engine table))
    | .refused => (false, db)

/-- Create the tables that the database lacks. -/
def createAll (served : ℕ → TableOutcome) (tables : List SaTable) (db : Database T) :
    Except InitError Unit × Database T :=
  match engine.sortTables tables with
  | none => (.error .unresolvedReference, db)
  | some sorted =>
    let missing := sorted.filter fun table => (db.get? table.name).isNone
    let result := createTables engine served 0 missing db
    if result.1 then (.ok (), result.2)
    else (.error .statement, if engine.transactional then db else result.2)

/-- The initialisation. -/
def initDb (cm : CaseMap) (contract : SchemaContract) (served : ℕ → TableOutcome)
    (db : Database T) : Except InitError Unit × Database T :=
  match buildMetadata cm contract with
  | .error e => (.error (.contract e), db)
  | .ok tables => createAll engine served tables db

/-- Runs in a row, each with what becomes of its statements. -/
def initRuns (cm : CaseMap) (contract : SchemaContract) (runs : List (ℕ → TableOutcome))
    (db : Database T) : Database T :=
  runs.foldl (fun db served => (initDb engine cm contract served db).2) db

end Code

/-! ## What runs do -/

section Runs

variable {T : Type} {engine : DdlEngine T} {cm : CaseMap} {contract : SchemaContract}
  {before after : Database T}

/-- The table is a declared one of the contract. -/
def Declares (cm : CaseMap) (contract : SchemaContract) (table : SaTable) : Prop :=
  ∃ tableDef, contract.get? table.name = some tableDef ∧
    buildTable cm (table.name, tableDef) = .ok table

/-- What runs can have done: the tables that existed are as they were, and every other one is a
table of the contract as it is declared. -/
structure Grown (engine : DdlEngine T) (cm : CaseMap) (contract : SchemaContract)
    (before after : Database T) : Prop where
  kept : ∀ name table, before.get? name = some table → after.get? name = some table
  added : ∀ name table, after.get? name = some table → before.get? name = some table ∨
    ∃ saTable, saTable.name = name ∧ Declares cm contract saTable ∧
      table = createTable engine saTable

/-- A database has grown by nothing. -/
lemma grown_refl (db : Database T) : Grown engine cm contract db db where
  kept _ _ h := h
  added _ _ h := Or.inl h

/-- Databases that grow one after the other grow together. -/
lemma Grown.trans {mid : Database T} (h : Grown engine cm contract before mid)
    (h' : Grown engine cm contract mid after) : Grown engine cm contract before after where
  kept name table hbefore := h'.kept name table (h.kept name table hbefore)
  added name table hafter := (h'.added name table hafter).elim (h.added name table) Or.inr

/-- The tables of the contract are declared ones, with distinct names. -/
lemma declares_buildMetadata {tables : List SaTable} (h : buildMetadata cm contract = .ok tables) :
    (∀ table, table ∈ tables ↔ Declares cm contract table) ∧ (tables.map SaTable.name).Nodup := by
  have hmem := mem_of_mapM_eq_ok h
  have hname : ∀ {entry table}, buildTable cm entry = .ok table → table.name = entry.1 :=
    fun hbuilt => (buildTable_ok hbuilt).1
  refine ⟨fun table => ⟨fun htable => ?_, ?_⟩, ?_⟩
  · obtain ⟨⟨name, tableDef⟩, hentry, hbuilt⟩ := hmem.2 table htable
    obtain rfl := hname hbuilt
    exact ⟨tableDef, Dict.mem_items_iff.mp hentry, hbuilt⟩
  · rintro ⟨tableDef, hget, hbuilt⟩
    obtain ⟨table', htable', hbuilt'⟩ := hmem.1 _ (Dict.mem_items_iff.mpr hget)
    rw [hbuilt] at hbuilt'
    cases hbuilt'
    exact htable'
  · have hnames : tables.map SaTable.name = contract.keys := by
      have hforall := mapM_eq_ok_iff.mp h
      unfold Dict.keys
      clear hmem h
      generalize contract.items = items at hforall ⊢
      induction hforall with
      | nil => rfl
      | cons hbuilt _ ih => rw [List.map_cons, List.map_cons, hname hbuilt, ih]
    rw [hnames]
    exact contract.nodup

/-- The statements create the tables up to one that fails. -/
lemma createTables_spec (served : ℕ → TableOutcome) (n : ℕ) (tables : List SaTable)
    (db : Database T) : ∃ created rest, tables = created ++ rest ∧
      (createTables engine served n tables db).2 =
        db.setAll (created.map fun table => (table.name, createTable engine table)) ∧
      ((createTables engine served n tables db).1 = true → rest = []) := by
  induction tables generalizing n db with
  | nil => exact ⟨[], [], rfl, rfl, fun _ => rfl⟩
  | cons table tables ih =>
    unfold createTables
    cases served n with
    | created =>
      obtain ⟨created, rest, rfl, hdb, hall⟩ :=
        ih (n + 1) (db.set table.name (createTable engine table))
      exact ⟨table :: created, rest, rfl, hdb, hall⟩
    | indexFails => exact ⟨[table], tables, rfl, rfl, fun hfalse => by cases hfalse⟩
    | refused => exact ⟨[], table :: tables, rfl, rfl, fun hfalse => by cases hfalse⟩

/-- **A run.** It creates some of the declared tables that are missing, and all of them when it
finishes. -/
lemma initDb_spec (served : ℕ → TableOutcome) (db : Database T) : ∃ created : List SaTable,
    (initDb engine cm contract served db).2 =
        db.setAll (created.map fun table => (table.name, createTable engine table)) ∧
      (∀ table ∈ created, Declares cm contract table ∧ db.get? table.name = none) ∧
      (created.map SaTable.name).Nodup ∧
      ((initDb engine cm contract served db).1 = .ok () → ∀ table, Declares cm contract table →
        db.get? table.name = none → table ∈ created) := by
  have hidle : ∀ e : InitError, ∃ created : List SaTable,
      db = db.setAll (created.map fun table => (table.name, createTable engine table)) ∧
        (∀ table ∈ created, Declares cm contract table ∧ db.get? table.name = none) ∧
        (created.map SaTable.name).Nodup ∧ ((.error e : Except InitError Unit) = .ok () →
          ∀ table, Declares cm contract table → db.get? table.name = none → table ∈ created) :=
    fun e => ⟨[], rfl, fun _ hmem => absurd hmem List.not_mem_nil, List.nodup_nil,
      fun h => by cases h⟩
  unfold initDb
  cases hbuild : buildMetadata cm contract with
  | error e => exact hidle _
  | ok tables =>
    obtain ⟨hdeclares, hnames⟩ := declares_buildMetadata hbuild
    dsimp only [createAll]
    cases hsort : engine.sortTables tables with
    | none => exact hidle _
    | some sorted =>
      have hperm := engine.sortTables_perm tables sorted hsort
      dsimp only
      obtain ⟨created, rest, hmissing, hdb, hall⟩ := @createTables_spec T engine served 0
        (sorted.filter fun table => (db.get? table.name).isNone) db
      have hcreated : ∀ table ∈ created, Declares cm contract table ∧
          db.get? table.name = none := by
        intro table htable
        have hmem : table ∈ sorted.filter fun table => (db.get? table.name).isNone :=
          hmissing ▸ List.mem_append_left _ htable
        obtain ⟨hsorted, hnone⟩ := List.mem_filter.mp hmem
        exact ⟨(hdeclares table).mp (hperm.mem_iff.mp hsorted), Option.isNone_iff_eq_none.mp hnone⟩
      have hnodup : (created.map SaTable.name).Nodup := by
        have hsublist := List.sublist_append_left created rest
        rw [← hmissing] at hsublist
        exact ((hsublist.trans List.filter_sublist).map _).nodup
          ((hperm.map _).nodup_iff.mpr hnames)
      by_cases hserved : (createTables engine served 0
          (sorted.filter fun table => (db.get? table.name).isNone) db).1 = true
      · rw [if_pos hserved]
        refine ⟨created, hdb, hcreated, hnodup, fun _ table htable hnone => ?_⟩
        rw [hall hserved, List.append_nil] at hmissing
        rw [← hmissing, List.mem_filter]
        exact ⟨hperm.mem_iff.mpr ((hdeclares table).mpr htable),
          Option.isNone_iff_eq_none.mpr hnone⟩
      · rw [if_neg hserved]
        cases engine.transactional with
        | true => exact hidle _
        | false => exact ⟨created, hdb, hcreated, hnodup, fun h => by cases h⟩

/-- What a run does. -/
lemma grown_initDb (served : ℕ → TableOutcome) (db : Database T) :
    Grown engine cm contract db (initDb engine cm contract served db).2 := by
  obtain ⟨created, hdb, hcreated, hnodup, -⟩ := @initDb_spec T engine cm contract served db
  have hkeys : ((created.map fun table => (table.name, createTable engine table)).map
      Prod.fst).Nodup := by
    rwa [List.map_map]
  rw [hdb]
  refine ⟨fun name table hbefore => ?_, fun name table hafter => ?_⟩
  · refine (Dict.get?_setAll_eq_some_iff hkeys).mpr (Or.inr ⟨fun hname => ?_, hbefore⟩)
    rw [List.map_map] at hname
    obtain ⟨saTable, hmem, rfl⟩ := List.mem_map.mp hname
    have hmissing := (hcreated saTable hmem).2
    rw [Function.comp_apply, hmissing] at hbefore
    cases hbefore
  · rcases (Dict.get?_setAll_eq_some_iff hkeys).mp hafter with hmem | ⟨-, hbefore⟩
    · obtain ⟨saTable, hsaTable, heq⟩ := List.mem_map.mp hmem
      obtain ⟨rfl, rfl⟩ := Prod.mk.inj heq
      exact Or.inr ⟨saTable, rfl, (hcreated saTable hsaTable).1, rfl⟩
    · exact Or.inl hbefore

/-- Runs in a row let the database grow. -/
lemma grown_runs (engine : DdlEngine T) (cm : CaseMap) (contract : SchemaContract)
    (runs : List (ℕ → TableOutcome)) (db : Database T) :
    Grown engine cm contract db (initRuns engine cm contract runs db) := by
  induction runs generalizing db with
  | nil => exact grown_refl db
  | cons served runs ih => exact (grown_initDb served db).trans (ih _)

/-- Behind a run that finishes no declared table is missing. -/
lemma exists_of_initDb_ok {served : ℕ → TableOutcome} {db : Database T}
    (h : (initDb engine cm contract served db).1 = .ok ()) {table : SaTable}
    (hdeclares : Declares cm contract table) :
    ∃ actual, (initDb engine cm contract served db).2.get? table.name = some actual := by
  obtain ⟨created, hdb, -, hnodup, hall⟩ := @initDb_spec T engine cm contract served db
  cases hexists : db.get? table.name with
  | some actual => exact ⟨actual, (grown_initDb served db).kept _ _ hexists⟩
  | none =>
    have hmem := hall h table hdeclares hexists
    refine ⟨createTable engine table, ?_⟩
    rw [hdb, Dict.get?_setAll_eq_some_iff (by rwa [List.map_map])]
    exact Or.inl (List.mem_map.mpr ⟨table, hmem, rfl⟩)

/-- **What runs do.** Runs follow one another, and each breaks off at any statement. None of them
changes or removes a table, and every table that is added is one of the contract as it is declared.
From the first run that finishes on, no table of the contract is missing.

**Proof sketch.** A run creates some of the declared tables that are missing, and all of them when
it finishes. Later runs keep them. -/
theorem grown_initRuns (engine : DdlEngine T) (cm : CaseMap) (contract : SchemaContract)
    (runs : List (ℕ → TableOutcome)) (db : Database T) :
    Grown engine cm contract db (initRuns engine cm contract runs db) ∧
      ∀ earlier served later, runs = earlier ++ served :: later →
        (initDb engine cm contract served (initRuns engine cm contract earlier db)).1 = .ok () →
        ∀ table, Declares cm contract table →
          ∃ actual, (initRuns engine cm contract runs db).get? table.name = some actual := by
  refine ⟨grown_runs engine cm contract runs db, ?_⟩
  rintro earlier served later rfl hdone table htable
  obtain ⟨actual, hactual⟩ := exists_of_initDb_ok hdone htable
  have hsplit : initRuns engine cm contract (earlier ++ served :: later) db =
      initRuns engine cm contract later
        (initDb engine cm contract served (initRuns engine cm contract earlier db)).2 := by
    unfold initRuns
    rw [List.foldl_append, List.foldl_cons]
  rw [hsplit]
  exact ⟨actual, (grown_runs engine cm contract later _).kept _ _ hactual⟩

end Runs

/-- A database in which a run is taken back and no column of a primary key is null. -/
def strictEngine : DdlEngine ColumnType where
  liveType := id
  nullInKey := false
  transactional := true
  sortTables := some
  sortTables_perm tables sorted h := by
    cases h
    exact .refl _

/-- A database that keeps what a run that breaks off has created. -/
def keepingEngine : DdlEngine ColumnType := { strictEngine with transactional := false }

/-- A run whose second statement fails. -/
def brokenRun (n : ℕ) : TableOutcome := if n = 1 then .refused else .created

/-- A broken run leaves its first table, a second one finishes, and a third one breaks off. -/
theorem grown_initRuns_interrupted :
    (initRuns keepingEngine .ascii fmsContract [brokenRun] ∅).keys.length = 1 ∧
      Grown keepingEngine .ascii fmsContract ∅
        (initRuns keepingEngine .ascii fmsContract [brokenRun, fun _ => .created, brokenRun] ∅) ∧
      ∀ table, Declares .ascii fmsContract table → ∃ actual,
        (initRuns keepingEngine .ascii fmsContract [brokenRun, fun _ => .created, brokenRun]
          ∅).get? table.name = some actual := by
  obtain ⟨hgrown, hall⟩ := grown_initRuns keepingEngine .ascii fmsContract
    [brokenRun, fun _ => .created, brokenRun] ∅
  exact ⟨by decide +kernel, hgrown, hall [brokenRun] (fun _ => .created) [brokenRun] rfl rfl⟩

/-! ## When the check passes -/

section Check

variable {T : Type} {types : SqlTypes T} {engine : DdlEngine T} {cm : CaseMap}
  {contract : SchemaContract} {db : Database T} {served : ℕ → TableOutcome}
  {runs : List (ℕ → TableOutcome)}

/-- The types of created columns are read back as they were declared. -/
structure Reflects (types : SqlTypes T) (engine : DdlEngine T) : Prop where
  pythonType : ∀ type, types.pythonType (engine.liveType type) = some type.pythonType
  declares : ∀ type, types.declares (engine.liveType type) = some type

/-- No column of the primary key is declared to be null, unless the database allows it. -/
def KeysNotNull (engine : DdlEngine T) (table : SaTable) : Prop :=
  ∀ col ∈ table.columns, col.primaryKey = true → col.nullable = true → engine.nullInKey = true

/-- The columns of a declared table, by the columns of the contract. -/
lemma columns_of_declares {table : SaTable} {tableDef : TableDef}
    (h : buildTable cm (table.name, tableDef) = .ok table) :
    (table.columns.map SaColumn.name).Nodup ∧
      (∀ name col, tableDef.columns.get? name = some col →
        ∃ saCol ∈ table.columns, buildColumn cm (name, col) = .ok saCol) ∧
      (∀ saCol ∈ table.columns, ∃ col, tableDef.columns.get? saCol.name = some col ∧
        buildColumn cm (saCol.name, col) = .ok saCol) ∧
      table.uniques = tableDef.uniques := by
  obtain ⟨-, hcolumns, -⟩ := buildTable_ok h
  have hmem := mem_of_mapM_eq_ok hcolumns
  refine ⟨?_, fun name col hcol => hmem.1 _ (Dict.mem_items_iff.mpr hcol),
    fun saCol hsaCol => ?_, ?_⟩
  · have hnames : table.columns.map SaColumn.name = tableDef.columns.keys := by
      have hforall := mapM_eq_ok_iff.mp hcolumns
      unfold Dict.keys
      clear hmem h hcolumns
      generalize tableDef.columns.items = items at hforall ⊢
      generalize table.columns = columns at hforall ⊢
      induction hforall with
      | nil => rfl
      | cons hbuilt _ ih => rw [List.map_cons, List.map_cons, (buildColumn_ok hbuilt).1, ih]
    rw [hnames]
    exact tableDef.columns.nodup
  · obtain ⟨⟨name, col⟩, hcol, hbuilt⟩ := hmem.2 saCol hsaCol
    obtain rfl : saCol.name = name := (buildColumn_ok hbuilt).1
    exact ⟨col, Dict.mem_items_iff.mp hcol, hbuilt⟩
  · rw [buildTable] at h
    obtain ⟨columns, -, h⟩ := bind_eq_ok_iff.mp h
    split at h
    · cases h
    · exact (congrArg SaTable.uniques (Except.ok.inj h)).symm

/-- A created table has the created columns. -/
lemma get?_columns_createTable {table : SaTable} (hnames : (table.columns.map SaColumn.name).Nodup)
    {col : SaColumn} (hcol : col ∈ table.columns) :
    (createTable engine table).columns.get? col.name = some (createColumn engine col) := by
  refine (Dict.get?_setAll_eq_some_iff (by rwa [List.map_map])).mpr (Or.inl ?_)
  exact List.mem_map.mpr ⟨col, hcol, rfl⟩

/-- When a created table passes its check. -/
lemma checkTable_createTable_iff (hreflects : Reflects types engine) {table : SaTable}
    (hnames : (table.columns.map SaColumn.name).Nodup)
    (hget : db.get? table.name = some (createTable engine table)) :
    checkTable types db table = .ok () ↔ KeysNotNull engine table := by
  unfold checkTable KeysNotNull
  rw [hget]
  dsimp only
  rw [forM_eq_ok_iff]
  refine forall₂_congr fun col hcol => ?_
  rw [checkColumn_eq_ok_iff]
  have hcompared : (comparedTypes types col.type (createColumn engine col).type).1 =
      (comparedTypes types col.type (createColumn engine col).type).2 := by
    unfold comparedTypes
    rw [show (createColumn engine col).type = engine.liveType col.type from rfl,
      hreflects.pythonType]
  have hnullable : col.nullable = (createColumn engine col).nullable ↔
      (col.primaryKey = true → col.nullable = true → engine.nullInKey = true) := by
    show col.nullable = (col.nullable && (engine.nullInKey || !col.primaryKey)) ↔ _
    cases col.nullable <;> cases col.primaryKey <;> cases engine.nullInKey <;> decide
  rw [← hnullable]
  constructor
  · rintro ⟨found, hfound, hnull, -⟩
    rw [get?_columns_createTable hnames hcol, Option.some_inj] at hfound
    rwa [hfound]
  · exact fun hnull => ⟨_, get?_columns_createTable hnames hcol, hnull, hcompared⟩

/-- A run that finishes could build the tables of the contract. -/
lemma buildMetadata_of_initDb_ok (h : (initDb engine cm contract served db).1 = .ok ()) :
    ∃ tables, buildMetadata cm contract = .ok tables := by
  unfold initDb at h
  cases hbuild : buildMetadata cm contract with
  | error e =>
    rw [hbuild] at h
    cases h
  | ok tables => exact ⟨tables, rfl⟩

/-- Behind a run that finishes, a declared table that did not exist before the first run is there as
it is declared. -/
lemma get?_initDb_of_none
    (hdone : (initDb engine cm contract served (initRuns engine cm contract runs db)).1 = .ok ())
    {table : SaTable} (hdeclares : Declares cm contract table) (hnone : db.get? table.name = none) :
    (initDb engine cm contract served (initRuns engine cm contract runs db)).2.get? table.name =
      some (createTable engine table) := by
  have hgrown := (grown_runs engine cm contract runs db).trans (grown_initDb served _)
  obtain ⟨actual, hactual⟩ := exists_of_initDb_ok hdone hdeclares
  obtain ⟨tableDef, hget, hbuilt⟩ := hdeclares
  rcases hgrown.added _ _ hactual with hbefore | ⟨saTable, hname, ⟨tableDef', hget', hbuilt'⟩, heq⟩
  · rw [hnone] at hbefore
    cases hbefore
  · rw [hname] at hget' hbuilt'
    cases hget.symm.trans hget'
    cases hbuilt.symm.trans hbuilt'
    rw [hactual, heq]

/-- The schema check is the check of the declared tables. -/
lemma validateSchemaDdl_iff_declares {tables : List SaTable}
    (hbuild : buildMetadata cm contract = .ok tables) : validateSchemaDdl types cm contract db =
      .ok () ↔ ∀ table, Declares cm contract table → checkTable types db table = .ok () := by
  rw [validateSchemaDdl, hbuild]
  show tables.forM (checkTable types db) = .ok () ↔ _
  rw [forM_eq_ok_iff]
  exact forall_congr' fun table => by rw [(declares_buildMetadata hbuild).1]

/-- **When the check passes.** Let runs break off anywhere and a last one finish. Then the schema
check passes exactly when every table of the contract that existed before the first run passes, and
no other table has a column of its primary key that is declared to be null.

**Proof sketch.** The tables that existed are as they were, and the others are as declared. -/
theorem validate_of_initDb_iff (hreflects : Reflects types engine)
    (hdone : (initDb engine cm contract served (initRuns engine cm contract runs db)).1 = .ok ()) :
    validateSchemaDdl types cm contract
        (initDb engine cm contract served (initRuns engine cm contract runs db)).2 = .ok () ↔
      (∀ table, Declares cm contract table → (db.get? table.name).isSome →
        checkTable types db table = .ok ()) ∧
      ∀ table, Declares cm contract table → db.get? table.name = none →
        KeysNotNull engine table := by
  set final := (initDb engine cm contract served (initRuns engine cm contract runs db)).2 with
      hfinal
  have hgrown : Grown engine cm contract db final :=
    (grown_runs engine cm contract runs db).trans (grown_initDb served _)
  have hold : ∀ table, (db.get? table.name).isSome →
      (checkTable types final table = .ok () ↔ checkTable types db table = .ok ()) := by
    intro table hsome
    obtain ⟨actual, hactual⟩ := Option.isSome_iff_exists.mp hsome
    unfold checkTable
    rw [hgrown.kept _ _ hactual, hactual]
  have hnew : ∀ table, Declares cm contract table → db.get? table.name = none →
      (checkTable types final table = .ok () ↔ KeysNotNull engine table) := by
    intro table htable hnone
    obtain ⟨tableDef, -, hbuilt⟩ := id htable
    exact checkTable_createTable_iff hreflects (columns_of_declares hbuilt).1
      (get?_initDb_of_none hdone htable hnone)
  obtain ⟨tables, hbuild⟩ := buildMetadata_of_initDb_ok hdone
  rw [validateSchemaDdl_iff_declares hbuild]
  constructor
  · exact fun h => ⟨fun table htable hsome => (hold table hsome).mp (h table htable),
      fun table htable hnone => (hnew table htable hnone).mp (h table htable)⟩
  · rintro ⟨hexisting, hkeys⟩ table htable
    by_cases hsome : (db.get? table.name).isSome
    · exact (hold table hsome).mpr (hexisting table htable hsome)
    · have hnone := Option.not_isSome_iff_eq_none.mp hsome
      exact (hnew table htable hnone).mpr (hkeys table htable hnone)

/-! ### A fresh catalog -/

/-- The database reads the types back as declared. -/
lemma reflects_strictEngine : Reflects genericTypes strictEngine where
  pythonType _ := rfl
  declares _ := rfl

/-- The catalog behind a broken run and one that finishes. -/
def freshCatalog : Database ColumnType :=
  (initDb strictEngine .ascii fmsContract (fun _ => .created)
    (initRuns strictEngine .ascii fmsContract [brokenRun] ∅)).2

/-- The check passes, and so no key of the catalog is declared to be null. -/
theorem validate_of_initDb_iff_fresh :
    validateSchemaDdl genericTypes .ascii fmsContract freshCatalog = .ok () ∧
      ∀ table, Declares .ascii fmsContract table → KeysNotNull strictEngine table := by
  have hvalid : validateSchemaDdl genericTypes .ascii fmsContract freshCatalog = .ok () := by
    decide +kernel
  obtain ⟨-, hkeys⟩ := (validate_of_initDb_iff reflects_strictEngine rfl).mp hvalid
  exact ⟨hvalid, fun table htable => hkeys table htable rfl⟩

/-! ### Created tables -/

/-- A declared column has the place in the primary key that the contract gives it. -/
lemma primaryKey_of_buildColumn {entry : Str × ColumnDef} {col : SaColumn}
    (h : buildColumn cm entry = .ok col) : col.primaryKey = entry.2.primaryKey.getD false := by
  unfold buildColumn at h
  cases htype : mapType cm entry.2.typeName with
  | none =>
    rw [htype] at h
    cases h
  | some type =>
    rw [htype] at h
    cases h
    rfl

/-- The primary key of a created table. -/
lemma mem_primaryKey_createTable {table : SaTable}
    (hnames : (table.columns.map SaColumn.name).Nodup) {col : SaColumn}
    (hcol : col ∈ table.columns) :
    col.name ∈ (createTable engine table).primaryKey ↔ col.primaryKey = true := by
  unfold createTable
  rw [List.mem_map]
  constructor
  · rintro ⟨other, hother, heq⟩
    obtain ⟨hmem, hkey⟩ := List.mem_filter.mp hother
    rwa [List.inj_on_of_nodup_map hnames hmem hcol heq] at hkey
  · exact fun hkey => ⟨col, List.mem_filter.mpr ⟨hcol, hkey⟩, rfl⟩

/-- When a database of created tables is as declared. -/
lemma conforms_iff_keysNotNull (hreflects : Reflects types engine) {tables : List SaTable}
    (hbuild : buildMetadata cm contract = .ok tables)
    (hcreated : ∀ table, Declares cm contract table →
      db.get? table.name = some (createTable engine table)) :
    Conforms types cm contract db ↔ ∀ table, Declares cm contract table →
      KeysNotNull engine table := by
  constructor
  · rintro hconforms table ⟨tableDef, hget, hbuilt⟩ col hcol hkey hnull
    obtain ⟨hnames, -, hdefs, -⟩ := columns_of_declares hbuilt
    obtain ⟨colDef, hcolDef, hcolBuilt⟩ := hdefs col hcol
    obtain ⟨actual, hactual, hcols, -⟩ := hconforms _ _ hget
    rw [hcreated table ⟨tableDef, hget, hbuilt⟩, Option.some_inj] at hactual
    obtain ⟨type, found, -, hfound, -, hnullable, -⟩ := hcols _ _ hcolDef
    rw [← hactual, get?_columns_createTable hnames hcol, Option.some_inj] at hfound
    rw [← (buildColumn_ok hcolBuilt).2.2, hnull, ← hfound] at hnullable
    have hcreatedNull : (col.nullable && (engine.nullInKey || !col.primaryKey)) = true := hnullable
    rwa [hnull, hkey, Bool.true_and, Bool.not_true, Bool.or_false] at hcreatedNull
  · intro hkeys name tableDef hget
    obtain ⟨table, htable, hbuilt⟩ :=
      (mem_of_mapM_eq_ok hbuild).1 _ (Dict.mem_items_iff.mpr hget)
    obtain rfl : table.name = name := (buildTable_ok hbuilt).1
    obtain ⟨hnames, hcols, -, huniques⟩ := columns_of_declares hbuilt
    have hdeclares : Declares cm contract table := ⟨tableDef, hget, hbuilt⟩
    refine ⟨_, hcreated table hdeclares, fun name col hcol => ?_, fun unique hunique => ?_⟩
    · obtain ⟨saCol, hsaCol, hcolBuilt⟩ := hcols name col hcol
      obtain ⟨rfl, htype, hnull⟩ := buildColumn_ok hcolBuilt
      refine ⟨saCol.type, createColumn engine saCol, htype, get?_columns_createTable hnames hsaCol,
        hreflects.declares saCol.type, ?_, ?_⟩
      · rw [← hnull]
        have hkey := hkeys table hdeclares saCol hsaCol
        show (saCol.nullable && (engine.nullInKey || !saCol.primaryKey)) = saCol.nullable
        revert hkey
        cases saCol.nullable <;> cases saCol.primaryKey <;> cases engine.nullInKey <;> decide
      · rw [mem_primaryKey_createTable hnames hsaCol, primaryKey_of_buildColumn hcolBuilt]
    · refine ⟨unique.2, ?_, fun column => Iff.rfl⟩
      show unique.2 ∈ table.uniques.map Prod.snd
      rw [huniques]
      exact List.mem_map_of_mem hunique

/-- **The check is complete on created tables.** Let runs break off anywhere and a last one finish,
on a database that had no table of the contract. Then the schema check passes exactly when the
database is as declared, with its types, keys and unique constraints.

**Proof sketch.** All tables of the contract are created ones. Of these the check can only reject a
column of the primary key that is declared to be null, and nothing else of them can differ. -/
theorem conforms_of_initDb_iff (hreflects : Reflects types engine)
    (hfresh : ∀ name ∈ contract.keys, db.get? name = none)
    (hdone : (initDb engine cm contract served (initRuns engine cm contract runs db)).1 = .ok ()) :
    validateSchemaDdl types cm contract
        (initDb engine cm contract served (initRuns engine cm contract runs db)).2 = .ok () ↔
      Conforms types cm contract
        (initDb engine cm contract served (initRuns engine cm contract runs db)).2 := by
  have hnone : ∀ table, Declares cm contract table → db.get? table.name = none := by
    rintro table ⟨tableDef, hget, -⟩
    exact hfresh _ (Dict.mem_keys_iff.mpr ⟨tableDef, hget⟩)
  have hcreated := fun table (htable : Declares cm contract table) =>
    get?_initDb_of_none hdone htable (hnone table htable)
  obtain ⟨tables, hbuild⟩ := buildMetadata_of_initDb_ok hdone
  rw [validateSchemaDdl_iff_declares hbuild, conforms_iff_keysNotNull hreflects hbuild hcreated]
  refine forall₂_congr fun table htable => ?_
  obtain ⟨tableDef, -, hbuilt⟩ := id htable
  exact checkTable_createTable_iff hreflects (columns_of_declares hbuilt).1 (hcreated table htable)

/-- The catalog is as declared. -/
theorem conforms_of_initDb_iff_fresh :
    Conforms genericTypes .ascii fmsContract freshCatalog :=
  (conforms_of_initDb_iff reflects_strictEngine (fun _ _ => rfl) rfl).mp (by decide +kernel)

end Check

end EntsoePipeline
