import EntsoePipeline.Lakehouse.Tables
import EntsoePipeline.Lib.Outcome

set_option relaxedAutoImplicit false
set_option autoImplicit false

/-!
# What the upsert keeps

A publication with business keys is merged on them. The table then holds one row for each key, and
writing the same frame again changes nothing, as long as no frame has a key twice or a key with a
`NULL` in it: the join condition of the merge is never true on `NULL`, so such a row is inserted
again by every write. A write that Spark refuses changes no row at all.

The keys are the mandatory strings and timestamps. A publication whose periods are numbers (a year,
a quarter, a month or a week) has the same key in every period, and a later period is written over
the earlier one.

## Main definitions

* `EntsoePipeline.afterCalls` — the lakehouse after a sequence of writes.
* `EntsoePipeline.UpsertInvariant` — after every write the keys are unique, and to repeat the write
  changes nothing.
* `EntsoePipeline.IsTimeCoordinate`, `EntsoePipeline.KeepsPeriods` — the mandatory time coordinates,
  and that rows of different periods are kept apart.

## Main results

* `EntsoePipeline.upsertInvariant_iff` — the frames for which the upsert keeps its invariant.
* `EntsoePipeline.mergeable_iff_of_blank` — a file with a blank key cell gives no such frame, unless
  the write is refused or the merge aborts.
* `EntsoePipeline.keepsPeriods_iff` — the time coordinates that the keys tell apart.
-/

namespace EntsoePipeline

open Py Outcome

/-! ## Sequences of writes -/

section Calls

variable {ρ ν : Type*} [DecidableEq ν] (cell : ρ → Str → Option ν) (config : LakehouseConfig)
  (fmsName : Str)

/-- The lakehouse after a write; of one that fails, only a created table is left. -/
def afterCall (lakehouse : Lakehouse ρ) (df : DataFrame ρ) : Lakehouse ρ :=
  (addCsvToIcebergTable cell config lakehouse df fmsName).left

/-- The lakehouse after a sequence of writes to the table of one contract. -/
def afterCalls (lakehouse : Lakehouse ρ) (frames : List (DataFrame ρ)) : Lakehouse ρ :=
  frames.foldl (afterCall cell config fmsName) lakehouse

/-- The rows of the contract after a sequence of writes. -/
def rowsAfter (lakehouse : Lakehouse ρ) (frames : List (DataFrame ρ)) : List ρ :=
  tableRows (afterCalls cell config fmsName lakehouse frames) (tableName config fmsName)

/-- After every write of a sequence the table has one row for each business key, where `NULL` counts
as a value, and the same write once more leaves the same rows. -/
def UpsertInvariant (lakehouse : Lakehouse ρ) (frames : List (DataFrame ρ)) : Prop :=
  ∀ earlier df, earlier ++ [df] <+: frames →
    Sql.Unique cell (contractKeys config fmsName)
        (rowsAfter cell config fmsName lakehouse (earlier ++ [df])) ∧
      (rowsAfter cell config fmsName lakehouse (earlier ++ [df, df])).Perm
        (rowsAfter cell config fmsName lakehouse (earlier ++ [df]))

/-- A frame that the upsert deals with: Spark refuses a statement of the write; or two of its rows
have the key of one stored row, so that the merge aborts; or its keys are different from each other
and without a `NULL`. -/
def Mergeable (lakehouse : Lakehouse ρ) (df : DataFrame ρ) : Prop :=
  ¬ Writable config lakehouse fmsName df.columns ∨
    Sql.Ambiguous cell (contractKeys config fmsName)
      (tableRows lakehouse (tableName config fmsName)) df.rows ∨
    (Sql.Unique cell (contractKeys config fmsName) df.rows ∧
      ∀ r ∈ df.rows, Sql.NullFree cell (contractKeys config fmsName) r)

variable {cell config fmsName}

/-- A refused write leaves the rows of the table as they are. -/
lemma tableRows_afterCall_of_refused {lakehouse : Lakehouse ρ} {df : DataFrame ρ}
    (h : ¬ Writable config lakehouse fmsName df.columns) (table : Str) :
    tableRows (afterCall cell config fmsName lakehouse df) table = tableRows lakehouse table := by
  unfold afterCall WriteOutcome.left
  cases hresult : (addCsvToIcebergTable cell config lakehouse df fmsName).result with
  | ok written => exact absurd (exists_addCsvToIcebergTable_iff.mp ⟨written, hresult⟩).1 h
  | error e => exact tableRows_prepared table

/-- An accepted write to a contract with keys merges, and leaves the rows as they are when the merge
aborts. -/
lemma tableRows_afterCall (hkeys : contractKeys config fmsName ≠ []) {lakehouse : Lakehouse ρ}
    {df : DataFrame ρ} (hwritable : Writable config lakehouse fmsName df.columns) :
    tableRows (afterCall cell config fmsName lakehouse df) (tableName config fmsName) =
      Sql.mergeInto cell (contractKeys config fmsName)
        (tableRows lakehouse (tableName config fmsName)) df.rows := by
  have hwrite : ∀ old new, writeRows cell (contractKeys config fmsName) old new =
      Sql.merge cell (contractKeys config fmsName) old new := fun old new => if_neg hkeys
  unfold afterCall WriteOutcome.left Sql.mergeInto
  cases hresult : (addCsvToIcebergTable cell config lakehouse df fmsName).result with
  | ok written =>
    have hspec := (addCsvToIcebergTable_spec hresult).1
    rw [hwrite] at hspec
    rw [hspec]
    rfl
  | error e =>
    have haborts : writeRows cell (contractKeys config fmsName)
        (tableRows lakehouse (tableName config fmsName)) df.rows = none := by
      by_contra hne
      obtain ⟨written, hok⟩ := exists_addCsvToIcebergTable_iff.mpr ⟨hwritable, hne⟩
      rw [hresult] at hok
      cases hok
    rw [hwrite] at haborts
    rw [haborts]
    exact tableRows_prepared _

/-- The last write of a sequence is made to what the others leave. -/
lemma afterCalls_concat (lakehouse : Lakehouse ρ) (earlier : List (DataFrame ρ))
    (df : DataFrame ρ) : afterCalls cell config fmsName lakehouse (earlier ++ [df]) =
      afterCall cell config fmsName (afterCalls cell config fmsName lakehouse earlier) df := by
  unfold afterCalls
  rw [List.foldl_append]
  rfl

/-- One write keeps the keys unique and is changed by no repetition exactly on the frames that the
upsert deals with.

**Proof sketch.** A frame that is refused is refused again, and one that is accepted is accepted
again: then the two writes are two merges. -/
lemma unique_and_stable_call_iff (hkeys : contractKeys config fmsName ≠ [])
    {lakehouse : Lakehouse ρ} {earlier : List (DataFrame ρ)} {df : DataFrame ρ}
    (hunique : Sql.Unique cell (contractKeys config fmsName)
      (rowsAfter cell config fmsName lakehouse earlier)) :
    (Sql.Unique cell (contractKeys config fmsName)
        (rowsAfter cell config fmsName lakehouse (earlier ++ [df])) ∧
      (rowsAfter cell config fmsName lakehouse (earlier ++ [df, df])).Perm
        (rowsAfter cell config fmsName lakehouse (earlier ++ [df]))) ↔
      Mergeable cell config fmsName (afterCalls cell config fmsName lakehouse earlier) df := by
  have htwice : earlier ++ [df, df] = (earlier ++ [df]) ++ [df] := by simp
  unfold rowsAfter at hunique ⊢
  rw [htwice, afterCalls_concat _ (earlier ++ [df]), afterCalls_concat _ earlier]
  set before := afterCalls cell config fmsName lakehouse earlier
  have hagain : Writable config (afterCall cell config fmsName before df) fmsName df.columns ↔
      Writable config before fmsName df.columns := writable_left_iff
  by_cases hwritable : Writable config before fmsName df.columns
  · rw [tableRows_afterCall hkeys (hagain.mpr hwritable), tableRows_afterCall hkeys hwritable,
      Mergeable, or_iff_right (not_not_intro hwritable)]
    exact Sql.unique_and_stable_iff hunique
  · rw [tableRows_afterCall_of_refused (mt hagain.mp hwritable),
      tableRows_afterCall_of_refused hwritable]
    exact iff_of_true ⟨hunique, List.Perm.refl _⟩ (Or.inl hwritable)

/-- **The upsert invariant.** From a table with unique keys, a sequence of writes of frames of the
schema keeps the keys unique at every moment, with each write repeatable, if and only if every frame
is one that the upsert deals with when it is written.

**Proof sketch.** The table before a write is unique: it is the first one or was left so by the
write before. For one write the two sides agree. -/
theorem upsertInvariant_iff {schema : FmsPublicationSchema}
    (hschema : config.publications.get? fmsName = some schema)
    (hkeys : getDomainBusinessKeys config.cm schema ≠ []) (lakehouse : Lakehouse ρ)
    (hstart : Sql.Unique cell (contractKeys config fmsName)
      (tableRows lakehouse (tableName config fmsName)))
    (frames : List (DataFrame ρ)) :
    UpsertInvariant cell config fmsName lakehouse frames ↔
      ∀ earlier df, earlier ++ [df] <+: frames →
        Mergeable cell config fmsName (afterCalls cell config fmsName lakehouse earlier) df := by
  have hcontract : contractKeys config fmsName ≠ [] := by
    simpa [contractKeys, hschema] using hkeys
  constructor
  · intro h earlier df hpre
    refine (unique_and_stable_call_iff hcontract ?_).mp (h earlier df hpre)
    rcases List.eq_nil_or_concat earlier with rfl | ⟨before, last, rfl⟩
    · exact hstart
    · rw [List.concat_eq_append] at hpre ⊢
      exact (h before last ((List.prefix_append _ _).trans hpre)).1
  · intro h
    have hunique : ∀ earlier, earlier <+: frames → Sql.Unique cell (contractKeys config fmsName)
        (rowsAfter cell config fmsName lakehouse earlier) := by
      intro earlier
      induction earlier using List.reverseRecOn with
      | nil => exact fun _ => hstart
      | append_singleton before last ih =>
        intro hpre
        exact ((unique_and_stable_call_iff hcontract
          (ih ((List.prefix_append _ _).trans hpre))).mpr (h before last hpre)).1
    intro earlier df hpre
    exact (unique_and_stable_call_iff hcontract
      (hunique earlier ((List.prefix_append _ _).trans hpre))).mpr (h earlier df hpre)

end Calls

/-! ## A blank key cell -/

section Blank

variable {ν : Type*} {casts : SparkCasts ν} {dateFormat : Option Str}
  {sparkSchema : List StructField} {field : StructField}

/-- A blank cell of a column that is no string is `NULL` in the loaded row. -/
lemma rowCell_loadRow_of_blank {line : Dict Str (Option Str)} {row : Dict Str (Option ν)}
    (hload : loadRow casts dateFormat sparkSchema line = .ok row)
    (hnames : (sparkSchema.map StructField.name).Nodup) (hfield : field ∈ sparkSchema)
    (hstring : field.isString = false) {text : Str}
    (hcell : line.get? field.csvColName = some (some text)) (hblank : strip ' ' text = []) :
    rowCell row field.name = none := by
  unfold loadRow at hload
  cases hpairs : sparkSchema.mapM fun field => (loadCell casts dateFormat field
    ((line.get? field.csvColName).getD none)).map fun value => (field.name, value) with
  | error e =>
    rw [hpairs] at hload
    cases hload
  | ok pairs =>
    rw [hpairs] at hload
    cases hload
    unfold rowCell
    cases hget : (Dict.ofList pairs).get? field.name with
    | none => rfl
    | some value =>
      obtain ⟨other, hother, hvalue⟩ :=
        (mem_of_mapM_eq_ok hpairs).2 _ (Dict.mem_of_get?_ofList hget)
      cases hcast : loadCell casts dateFormat other ((line.get? other.csvColName).getD none) with
      | error e =>
        rw [hcast] at hvalue
        cases hvalue
      | ok value' =>
        rw [hcast] at hvalue
        obtain ⟨hname, rfl⟩ := Prod.mk.inj (Except.ok.inj hvalue)
        rw [List.inj_on_of_nodup_map hnames hother hfield hname, hcell, Option.getD_some,
          loadCell_blank casts dateFormat hstring hblank] at hcast
        exact (Except.ok.inj hcast).symm

/-- **Frames with a blank key cell.** A file has a line with a blank cell in a key column that is no
string. The upsert deals with the frame of the file only if Spark refuses it or the merge aborts.

**Proof sketch.** The key of the row of the line has a `NULL`. -/
theorem mergeable_iff_of_blank [DecidableEq ν] {config : LakehouseConfig} {fmsName : Str}
    {header : List Str} {lines : List (Dict Str (Option Str))}
    {df : DataFrame (Dict Str (Option ν))}
    (hload : loadRawCsvWithSchema casts dateFormat sparkSchema header lines = .ok df.rows)
    (hnames : (sparkSchema.map StructField.name).Nodup) {line : Dict Str (Option Str)}
    (hline : line ∈ lines) (hfield : field ∈ sparkSchema) (hstring : field.isString = false)
    {text : Str} (hcell : line.get? field.csvColName = some (some text))
    (hblank : strip ' ' text = []) (hkey : field.name ∈ contractKeys config fmsName)
    (lakehouse : Lakehouse (Dict Str (Option ν))) :
    Mergeable rowCell config fmsName lakehouse df ↔
      ¬ Writable config lakehouse fmsName df.columns ∨
        Sql.Ambiguous rowCell (contractKeys config fmsName)
          (tableRows lakehouse (tableName config fmsName)) df.rows := by
  refine or_congr_right ⟨fun h => h.resolve_right fun hkeys => ?_, Or.inl⟩
  unfold loadRawCsvWithSchema at hload
  split_ifs at hload
  obtain ⟨row, hrow, hloaded⟩ := (mem_of_mapM_eq_ok hload).1 line hline
  have hnull := rowCell_loadRow_of_blank hloaded hnames hfield hstring hcell hblank
  exact Sql.nullFree_iff.mp (hkeys.2 row hrow) _ hkey hnull

end Blank

/-- A mandatory column. -/
def mandatory (csvName dbName type : String) : FmsColumnSchema :=
  ⟨csvName.toList, dbName.toList, type.toList, true⟩

/-- The shipped schema of `ActualTotalLoad_6.1.A_r3`. -/
def actualTotalLoad : FmsPublicationSchema where
  columns := [mandatory "DateTime(UTC)" "date_time_utc" "timestamp",
    mandatory "ResolutionCode" "resolution_code" "string",
      mandatory "AreaCode" "area_code" "string",
    mandatory "AreaDisplayName" "area_display_name" "string",
    mandatory "AreaTypeCode" "area_type_code" "string",
    mandatory "AreaMapCode" "area_map_code" "string",
    mandatory "TotalLoad[MW]" "total_load_mw" "decimal(18,4)",
    mandatory "UpdateTime(UTC)" "update_time_utc" "timestamp"]

/-- A Spark that takes words for names and frames with the columns of the table. -/
def plainSpark : SparkSql where
  isIdentifier name := name ≠ [] ∧ name.all fun ch => ch.isAlphanum || ch == '_'
  canCreate columns := (columns.map Prod.fst).Nodup
  canAppend target columns := target = columns
  canMerge _ target columns := target = columns
  space_not_mem name h hspace := by
    rw [decide_eq_true_eq, List.all_eq_true] at h
    exact absurd (h.2 ' ' hspace) (by decide)

/-- A configuration with one publication. -/
def singlePublication (fmsName : String) (schema : FmsPublicationSchema) : LakehouseConfig where
  cm := .ascii
  spark := plainSpark
  staging := "staging".toList
  publications := (∅ : Dict Str FmsPublicationSchema).set fmsName.toList schema

/-- The frame of a publication with the given rows of texts. -/
def textFrame (schema : FmsPublicationSchema) (rows : List (List (Option String))) :
    DataFrame (Dict Str (Option Str)) where
  columns := declaredColumns .ascii schema
  rows := rows.map fun cells => Dict.ofList ((schema.columns.map FmsColumnSchema.dbName).zip
    (cells.map (Option.map String.toList)))

/-- A load of Spain at midnight. -/
def midnightLoad : DataFrame (Dict Str (Option Str)) :=
  textFrame actualTotalLoad [[some "2025-02-01 00:00", some "PT15M", some "10YES-REE------0",
    some "Spain (ES)", some "BZN", some "ES", some "25916", some "2025-02-01 01:31"]]

/-- The same load with a blank time. -/
def undatedLoad : DataFrame (Dict Str (Option Str)) :=
  textFrame actualTotalLoad [[none, some "PT15M", some "10YES-REE------0",
    some "Spain (ES)", some "BZN", some "ES", some "25916", some "2025-02-01 01:31"]]

/-- The load at midnight is merged once, however often it is written. -/
theorem upsertInvariant_midnight : UpsertInvariant rowCell
    (singlePublication "ActualTotalLoad_6.1.A_r3" actualTotalLoad)
    "ActualTotalLoad_6.1.A_r3".toList ∅ [midnightLoad, midnightLoad] := by
  have hschema : (singlePublication "ActualTotalLoad_6.1.A_r3" actualTotalLoad).publications.get?
      "ActualTotalLoad_6.1.A_r3".toList = some actualTotalLoad := by decide
  refine (upsertInvariant_iff hschema (by decide) ∅ (by decide) [midnightLoad, midnightLoad]).mpr ?_
  intro earlier df hpre
  have hdf : df = midnightLoad := by
    have hmem : df ∈ [midnightLoad, midnightLoad] := hpre.subset (by simp)
    simpa using hmem
  subst hdf
  exact Or.inr (Or.inr (by decide))

/-- A row without a time is inserted again when its frame is written again. -/
theorem not_upsertInvariant_undated : ¬ UpsertInvariant rowCell
    (singlePublication "ActualTotalLoad_6.1.A_r3" actualTotalLoad)
    "ActualTotalLoad_6.1.A_r3".toList ∅ [undatedLoad] := by
  intro h
  have hlen := (h [] undatedLoad (List.prefix_refl _)).2.length_eq
  exact absurd hlen (by decide)

/-- A column that may be blank. -/
def optional (csvName dbName type : String) : FmsColumnSchema :=
  ⟨csvName.toList, dbName.toList, type.toList, false⟩

/-- The shipped schema of `ResultsOfTheCriteriaApplicationProcess_SOGL_185.4_r3`. -/
def resultsOfTheCriteria : FmsPublicationSchema where
  columns := [mandatory "Year" "year" "decimal(18,4)",
    mandatory "Quarter" "quarter" "decimal(18,4)", optional "Month" "month" "decimal(18,4)",
    mandatory "TimeZone" "time_zone" "string",
    mandatory "ResolutionCode" "resolution_code" "string",
    mandatory "AreaCode" "area_code" "string",
    mandatory "AreaDisplayName" "area_display_name" "string",
    mandatory "AreaTypeCode" "area_type_code" "string", mandatory "MapCode" "map_code" "string",
    mandatory "Type" "type" "string", mandatory "ShortDescription" "short_description" "string",
    mandatory "Long Description" "long description" "string",
    optional "Value" "value" "decimal(18,4)",
    optional "UnitOfMeasurement" "unit_of_measurement" "string",
    optional "Descriptor" "descriptor" "string",
    mandatory "UpdateTime(UTC)" "update_time_utc" "timestamp"]

/-- A key with a space makes every write of this publication be refused. -/
example (lakehouse : Lakehouse (Dict Str (Option Str))) (columns : Columns) :
    ¬ Writable (singlePublication "ResultsOfTheCriteriaApplicationProcess_SOGL_185.4_r3"
      resultsOfTheCriteria) lakehouse
        "ResultsOfTheCriteriaApplicationProcess_SOGL_185.4_r3".toList columns := by
  have hkey : "long description".toList ∈ contractKeys
      (singlePublication "ResultsOfTheCriteriaApplicationProcess_SOGL_185.4_r3"
        resultsOfTheCriteria)
      "ResultsOfTheCriteriaApplicationProcess_SOGL_185.4_r3".toList := by
    decide +kernel
  exact not_writable_of_space hkey (by decide)

/-! ## Time coordinates -/

section Periods

variable (config : LakehouseConfig) (fmsName : Str)

/-- The headers of periods that are numbers. -/
def periodHeaders : List Str := ["Year".toList, "Quarter".toList, "Month".toList, "Week".toList]

/-- A mandatory time coordinate: a timestamp other than the time of the update, or the number of a
period. -/
def IsTimeCoordinate (cm : CaseMap) (col : FmsColumnSchema) : Prop :=
  col.required = true ∧ col.dbName ≠ updateTimeUtc ∧ (cm.lower col.type = "timestamp".toList ∨
    (col.csvName ∈ periodHeaders ∧ startsWith (cm.lower col.type) "decimal".toList = true))

instance (cm : CaseMap) (col : FmsColumnSchema) : Decidable (IsTimeCoordinate cm col) :=
  inferInstanceAs (Decidable (_ ∧ _ ∧ _))

/-- A mandatory column that identifies a row. -/
def IsIdentifying (cm : CaseMap) (col : FmsColumnSchema) : Prop :=
  isBusinessKey cm col = true ∨ IsTimeCoordinate cm col

/-- Rows of different periods are kept apart: rows that differ in the coordinate only have different
keys, and a frame whose periods are not in the table leaves every row of the table there. -/
def KeepsPeriods (ν : Type*) [DecidableEq ν] (schema : FmsPublicationSchema)
    (col : FmsColumnSchema) : Prop :=
  (∀ r s : Dict Str (Option ν),
    (∀ other ∈ schema.columns, IsIdentifying config.cm other → other ≠ col →
      rowCell r other.dbName = rowCell s other.dbName) →
    rowCell r col.dbName ≠ rowCell s col.dbName →
    Sql.keyTuple rowCell (getDomainBusinessKeys config.cm schema) r ≠
      Sql.keyTuple rowCell (getDomainBusinessKeys config.cm schema) s) ∧
  ∀ (lakehouse lakehouse' : Lakehouse (Dict Str (Option ν))) (df : DataFrame (Dict Str (Option ν))),
    (addCsvToIcebergTable rowCell config lakehouse df fmsName).result = .ok lakehouse' →
    (∀ t ∈ tableRows lakehouse (tableName config fmsName), ∀ s ∈ df.rows,
      rowCell t col.dbName ≠ rowCell s col.dbName) →
    ∀ t ∈ tableRows lakehouse (tableName config fmsName),
      t ∈ tableRows lakehouse' (tableName config fmsName)

variable {config fmsName}

/-- A time coordinate is a business key when it is a timestamp. -/
lemma IsTimeCoordinate.isBusinessKey_iff {cm : CaseMap} {col : FmsColumnSchema}
    (h : IsTimeCoordinate cm col) :
    isBusinessKey cm col = true ↔ cm.lower col.type = "timestamp".toList := by
  obtain ⟨hrequired, hname, htype⟩ := h
  simp only [isBusinessKey, hrequired, Bool.true_and, Bool.and_eq_true, Bool.or_eq_true, beq_iff_eq,
    bne_iff_ne, ne_eq, hname, not_false_eq_true, and_true]
  refine ⟨?_, Or.inr⟩
  rintro (hstring | htimestamp)
  · rcases htype with htimestamp | ⟨-, hdecimal⟩
    · exact htimestamp
    · rw [hstring] at hdecimal
      exact absurd hdecimal (by decide)
  · exact htimestamp

/-- The rows of two periods, equal in all other columns. -/
def periodRow {ν : Type*} (schema : FmsPublicationSchema) (col : FmsColumnSchema)
    (period other : ν) : Dict Str (Option ν) :=
  Dict.ofList (schema.columns.map fun c =>
    (c.dbName, some (if c.dbName = col.dbName then period else other)))

/-- The cells of the row of a period. -/
lemma rowCell_periodRow {ν : Type*} {schema : FmsPublicationSchema} (col : FmsColumnSchema)
    (period other : ν) {name : Str} (h : name ∈ schema.columns.map FmsColumnSchema.dbName) :
    rowCell (periodRow schema col period other) name =
      some (if name = col.dbName then period else other) := by
  obtain ⟨c, hc, rfl⟩ := List.mem_map.mp h
  rw [rowCell, periodRow, Dict.get?_ofList_map]
  cases hfind : schema.columns.reverse.find? fun x => decide (x.dbName = c.dbName) with
  | none =>
    have hmiss := List.find?_eq_none.mp hfind c (List.mem_reverse.mpr hc)
    simp at hmiss
  | some found =>
    have hname : found.dbName = c.dbName := by simpa using List.find?_some hfind
    simp [hname]

/-- **Which periods are kept apart.** A mandatory time coordinate of a publication keeps its periods
apart if and only if it is declared as a timestamp. -/
theorem keepsPeriods_iff {ν : Type*} [DecidableEq ν] [Nontrivial ν] {schema : FmsPublicationSchema}
    (hschema : config.publications.get? fmsName = some schema)
    (hnames : (schema.columns.map FmsColumnSchema.dbName).Nodup) {col : FmsColumnSchema}
    (hcol : col ∈ schema.columns) (htime : IsTimeCoordinate config.cm col) :
    KeepsPeriods config fmsName ν schema col ↔ config.cm.lower col.type = "timestamp".toList := by
  have hmem : col.dbName ∈ getDomainBusinessKeys config.cm schema ↔
      config.cm.lower col.type = "timestamp".toList := by
    rw [← htime.isBusinessKey_iff, mem_getDomainBusinessKeys]
    constructor
    · rintro ⟨other, hother, hkey, hname⟩
      rwa [List.inj_on_of_nodup_map hnames hother hcol hname] at hkey
    · intro hkey
      exact ⟨col, hcol, hkey, rfl⟩
  rw [← hmem]
  constructor
  · intro h
    by_contra hnot
    obtain ⟨a, b, hab⟩ := exists_pair_ne ν
    have hcell := fun period => @rowCell_periodRow ν schema col period a
    refine h.1 (periodRow schema col a a) (periodRow schema col b a) ?_ ?_ ?_
    · intro other hother _ hne
      have hname : other.dbName ≠ col.dbName := fun heq =>
        hne (List.inj_on_of_nodup_map hnames hother hcol heq)
      rw [hcell a (List.mem_map_of_mem hother), hcell b (List.mem_map_of_mem hother), if_neg hname,
        if_neg hname]
    · rw [hcell a (List.mem_map_of_mem hcol), hcell b (List.mem_map_of_mem hcol), if_pos rfl,
        if_pos rfl]
      simpa using hab
    · refine List.map_congr_left ?_
      intro name hname
      have hne : name ≠ col.dbName := by
        rintro rfl
        exact hnot hname
      obtain ⟨other, hother, -, rfl⟩ := mem_getDomainBusinessKeys.mp hname
      rw [hcell a (List.mem_map_of_mem hother), hcell b (List.mem_map_of_mem hother), if_neg hne,
        if_neg hne]
  · intro hkey
    have hdiffer : ∀ r s : Dict Str (Option ν), rowCell r col.dbName ≠ rowCell s col.dbName →
        Sql.keyTuple rowCell (getDomainBusinessKeys config.cm schema) r ≠
          Sql.keyTuple rowCell (getDomainBusinessKeys config.cm schema) s := by
      intro r s hne heq
      exact hne (List.map_inj_left.mp heq _ hkey)
    refine ⟨fun r s _ hne => hdiffer r s hne, ?_⟩
    intro lakehouse lakehouse' df hadd hperiods t ht
    have hkeys : contractKeys config fmsName = getDomainBusinessKeys config.cm schema := by
      simp [contractKeys, hschema]
    have hwrite := (addCsvToIcebergTable_spec hadd).1
    rw [hkeys, writeRows, if_neg (List.ne_nil_of_mem hkey)] at hwrite
    exact Sql.mem_merge_of_keyTuple_ne hwrite ht fun s hs => hdiffer t s (hperiods t ht s hs)

end Periods

/-! ## A period that is a number -/

/-- The shipped schema of `YearAheadForecastMargin_8.1_r3`. -/
def yearAheadForecastMargin : FmsPublicationSchema where
  columns := [mandatory "Year" "year" "decimal(18,4)", mandatory "TimeZone" "time_zone" "string",
    mandatory "ResolutionCode" "resolution_code" "string",
      mandatory "AreaCode" "area_code" "string",
    mandatory "AreaDisplayName" "area_display_name" "string",
    mandatory "AreaTypeCode" "area_type_code" "string",
    mandatory "AreaMapCode" "area_map_code" "string",
    mandatory "ForecastMargin[MW]" "forecast_margin_mw" "decimal(18,4)",
    mandatory "UpdateTime(UTC)" "update_time_utc" "timestamp"]

/-- The margin of Spain in one year. -/
def forecastMargin (year margin : String) : DataFrame (Dict Str (Option Str)) :=
  textFrame yearAheadForecastMargin [[some year, some "CET/CEST", some "P1Y",
    some "10YES-REE------0", some "Spain (ES)", some "CTY", some "ES", some margin,
    some "2023-06-30 10:32"]]

/-- The table of the margins with the rows of some frames. -/
def marginLakehouse (frames : List (DataFrame (Dict Str (Option Str)))) :
    Lakehouse (Dict Str (Option Str)) :=
  (∅ : Lakehouse _).set "lakehouse.staging.`yearaheadforecastmargin_8_1_r3`".toList
    ⟨declaredColumns .ascii yearAheadForecastMargin, frames.flatMap DataFrame.rows⟩

/-- The loads of different times are kept apart. -/
theorem keepsPeriods_dateTime : KeepsPeriods
    (singlePublication "ActualTotalLoad_6.1.A_r3" actualTotalLoad)
    "ActualTotalLoad_6.1.A_r3".toList Str actualTotalLoad
    (mandatory "DateTime(UTC)" "date_time_utc" "timestamp") := by
  have hschema : (singlePublication "ActualTotalLoad_6.1.A_r3" actualTotalLoad).publications.get?
      "ActualTotalLoad_6.1.A_r3".toList = some actualTotalLoad := by decide
  exact (keepsPeriods_iff hschema (by decide) (by decide) (by decide)).mpr (by decide)

/-- The margin of a year is written over the margin of the year before. -/
theorem not_keepsPeriods_year : ¬ KeepsPeriods
    (singlePublication "YearAheadForecastMargin_8.1_r3" yearAheadForecastMargin)
    "YearAheadForecastMargin_8.1_r3".toList Str yearAheadForecastMargin
    (mandatory "Year" "year" "decimal(18,4)") := by
  intro h
  have hkept := h.2 (marginLakehouse [forecastMargin "2024" "-3050"])
    (marginLakehouse [forecastMargin "2025" "-2800"]) (forecastMargin "2025" "-2800")
    (by decide +kernel) (by decide +kernel)
  exact absurd hkept (by decide +kernel)

end EntsoePipeline
