import EntsoePipeline.Lakehouse.ColumnReference
import EntsoePipeline.Lakehouse.SchemaRegistry

set_option relaxedAutoImplicit false
set_option autoImplicit false

/-!
# Reading landed files

The files of a publication are read as text and brought into the shape of its schema in three
passes: the columns that the files have are selected, blank cells are replaced, and all columns are
cast. The timestamps are parsed with the first format that the schema declares. Where the schema has
no columns, the headers are renamed one after the other.

## Main definitions

* `EntsoePipeline.ColumnExpr` — the expression of a column.
* `EntsoePipeline.loadColumns` — the three passes.
* `EntsoePipeline.LandingCsvReader.readLandingCsvDataset` — the reader.
* `EntsoePipeline.strictColumns` — the columns that a schema asks for.

## Main results

* `EntsoePipeline.castColumns_replaceBlanks` — what the passes do to distinct columns.
* `EntsoePipeline.strictRead_iff` — when the reader gives what the schema asks for.
* `EntsoePipeline.not_strictRead_missing` — a missing column makes the reader raise.

## Implementation notes

Two names are the same for Spark when it compares them equal, with or without letter case: `key` is
what it compares. A reference to a name that no column or more than one column has raises. The names
of a header are not empty, and no two of them are the same, since Spark names the others itself. The
expression of a column keeps the alias that the selection gave it.
-/

namespace EntsoePipeline

open Py Frames

/-! ## The code -/

/-- A column of a publication with the format of its timestamps. -/
structure FormattedColumn extends DescribedColumn where
  /-- The format. -/
  format : Option Str
  deriving DecidableEq

/-- The expression of a column. -/
inductive ColumnExpr
  /-- A column of the files. -/
  | source (csvColName : Str)
  /-- A column under a new name. -/
  | alias (e : ColumnExpr) (name : Str)
  /-- `NULL` where the text is blank. -/
  | nullIfBlank (e : ColumnExpr)
  /-- A cast. -/
  | cast (targetType : SparkType) (e : ColumnExpr)
  /-- A timestamp that is parsed with a format. -/
  | toTimestamp (dateFormat : Str) (e : ColumnExpr)
  deriving DecidableEq

/-- Why a read fails. -/
inductive ReadError
  /-- There are no keys to read. -/
  | emptyKeys
  /-- The publication is unknown. -/
  | schemaNotFound (fmsName : Str)
  /-- The files cannot be read. -/
  | loadFailed
  /-- An expression refers to a column that does not exist or to more than one. -/
  | analysisError
  deriving DecidableEq

/-- The message of the `ValueError`. -/
def ReadError.message : ReadError → Option Str
  | .emptyKeys => some "Cannot read landing CSV dataset with an empty S3 keys list.".toList
  | .schemaNotFound fmsName =>
    some ("FMS schema definition not found for schema contract: '".toList ++ fmsName ++ ['\''])
  | .loadFailed => none
  | .analysisError => none

/-- The header of the files, as Spark reads it. -/
structure CsvHeader (key : Str → Str) where
  /-- The names. -/
  names : List Str
  ne_nil : ∀ name ∈ names, name ≠ []
  nodup : (names.map key).Nodup

section Code

variable (cm : CaseMap) (key : Str → Str)

/-- The columns of the files. -/
def CsvHeader.frame {key : Str → Str} (header : CsvHeader key) : Frame Str ColumnExpr :=
  header.names.map fun name => (name, .source name)

/-- The header that a field is read from. -/
def sourceColumn (field : SparkField) : Str :=
  match field.metadata.get? "source_csv_column".toList with
  | some name => if name = [] then field.name else name
  | none => field.name

/-- `col(csv_col_name)` for a field. -/
def sourceOf (header : CsvHeader key) (field : SparkField) : Option ColumnExpr :=
  (reference (sourceColumn field)).bind (column? key header.frame)

/-- The first pass: the fields whose source is in the header. -/
def selectColumns (header : CsvHeader key) (fields : List SparkField) :
    Option (Frame Str ColumnExpr) :=
  (fields.filter fun field => sourceColumn field ∈ header.names).mapM fun field =>
    (sourceOf key header field).map fun x => (field.name, .alias x field.name)

/-- The second pass: blank cells of columns that are no strings. -/
def replaceBlanks (fields : List SparkField) (frame : Frame Str ColumnExpr) :
    Option (Frame Str ColumnExpr) :=
  updateAllFrom key reference frame ((fields.filter fun field =>
    field.dataType ≠ .string ∧ field.name ∈ frame.map Prod.fst).map fun field =>
      (field.name, .nullIfBlank))

/-- The conversion of a column. -/
def convertColumn (dateFormat : Option Str) (dataType : SparkType) (e : ColumnExpr) : ColumnExpr :=
  match dataType, dateFormat.filter (· ≠ []) with
  | .timestamp, some format => .toTimestamp format e
  | targetType, _ => .cast targetType e

/-- The third pass: all fields are cast. A cast to a type that Spark does not have raises. -/
def castColumns (dateFormat : Option Str) (fields : List SparkField)
    (frame : Frame Str ColumnExpr) : Option (Frame Str ColumnExpr) :=
  if fields.all fun field => field.dataType.isValid then
    updateAllFrom key reference frame (fields.map fun field =>
      (field.name, convertColumn dateFormat field.dataType))
  else none

/-- The columns of the files in the shape of a schema, `load_raw_csv_with_schema`. -/
def loadColumns (header : CsvHeader key) (sparkSchema : List SparkField) (dateFormat : Option Str) :
    Option (Frame Str ColumnExpr) := do
  let frame ← selectColumns key header sparkSchema
  let frame ← replaceBlanks key sparkSchema frame
  castColumns key dateFormat sparkSchema frame

/-- The first format that a timestamp column declares. -/
def detectDateFormat (columns : List FormattedColumn) : Option Str :=
  columns.findSome? fun col =>
    if cm.lower col.type = "timestamp".toList then col.format.filter (· ≠ []) else none

/-- The columns under their clean names, renamed one after the other. -/
def sanitizeColumns (header : CsvHeader key) : Frame Str ColumnExpr :=
  header.names.foldl (fun frame name => rename key frame name (toSnakeCase cm name)) header.frame

/-- The path of a landed file. -/
def s3aPath (landingBucket s3Key : Str) : Str :=
  "s3a://".toList ++ landingBucket ++ '/' :: s3Key.dropWhile (· == '/')

/-- The columns of the files of a publication. `load` reads the headers at some paths. -/
def LandingCsvReader.readLandingCsvDataset (load : List Str → Option (CsvHeader key))
    (landingBucket : Str) (publications : Dict Str (List FormattedColumn)) (s3Keys : List Str)
    (fmsName : Str) : Except ReadError (Frame Str ColumnExpr) :=
  if s3Keys = [] then .error .emptyKeys
  else
    match publications.get? fmsName with
    | none => .error (.schemaNotFound fmsName)
    | some columns =>
      match load (s3Keys.map (s3aPath landingBucket)) with
      | none => .error .loadFailed
      | some header =>
        if columns = [] then .ok (sanitizeColumns cm key header)
        else
          match loadColumns key header
              (buildSparkSchemaFromFms cm (columns.map FormattedColumn.toDescribedColumn))
              (detectDateFormat cm columns) with
          | some frame => .ok frame
          | none => .error .analysisError

end Code

/-! ## What a schema asks for -/

section Spec

variable (cm : CaseMap) {key : Str → Str}

/-- The format that a column declares. -/
def FormattedColumn.declared (col : FormattedColumn) : Option Str := col.format.filter (· ≠ [])

/-- The column of the files under the name of the table. -/
def FormattedColumn.selected (col : FormattedColumn) : ColumnExpr :=
  .alias (.source col.csvName) col.dbName

/-- The text of a column: blank cells are `NULL` unless the column is a string. -/
def textColumn (col : FormattedColumn) : ColumnExpr :=
  if parseFmsTypeToSpark cm col.type = .string then col.selected else .nullIfBlank col.selected

/-- The columns that a schema asks for: those that the header has, in the order of the schema, each
cast to its own type or parsed with its own format. -/
def strictColumns (header : CsvHeader key) (columns : List FormattedColumn) :
    Frame Str ColumnExpr :=
  (columns.filter fun col => col.csvName ∈ header.names).map fun col =>
    (col.dbName, convertColumn col.format (parseFmsTypeToSpark cm col.type) (textColumn cm col))

/-- A column can be read: the header has it, its two names are read by Spark as themselves, and
Spark has its type. -/
structure FormattedColumn.Readable (header : CsvHeader key) (col : FormattedColumn) : Prop where
  mem_header : col.csvName ∈ header.names
  csvName_self : RefersToItself key reference col.csvName
  dbName_self : RefersToItself key reference col.dbName
  isValid : (parseFmsTypeToSpark cm col.type).isValid = true

/-- All timestamp columns declare the same format or none, and when they declare one, the type of
one of them is written without spaces around it. -/
structure SharesFormat (columns : List FormattedColumn) : Prop where
  same : ∀ a ∈ columns, ∀ b ∈ columns, parseFmsTypeToSpark cm a.type = .timestamp →
    parseFmsTypeToSpark cm b.type = .timestamp → a.declared = b.declared
  plain : ∀ a ∈ columns, parseFmsTypeToSpark cm a.type = .timestamp → a.declared ≠ none →
    ∃ b ∈ columns, cm.lower b.type = "timestamp".toList

end Spec

/-! ## The format -/

section Format

variable {cm : CaseMap} {columns : List FormattedColumn}

/-- The type of a timestamp is read as one. -/
lemma parseFmsTypeToSpark_timestamp {type : Str} (h : cm.lower type = "timestamp".toList) :
    parseFmsTypeToSpark cm type = .timestamp := by
  have hstrip : stripSpaces "timestamp".toList = "timestamp".toList := by decide
  rw [parseFmsTypeToSpark, h, hstrip, if_neg (by decide), knownType, if_neg (by decide), if_pos rfl]
  rfl

/-- The detected format is not empty. -/
lemma filter_detectDateFormat :
    (detectDateFormat cm columns).filter (· ≠ []) = detectDateFormat cm columns := by
  cases hdetect : detectDateFormat cm columns with
  | none => rfl
  | some format =>
    obtain ⟨col, -, hcol⟩ := List.exists_of_findSome?_eq_some hdetect
    split_ifs at hcol
    exact Option.filter_some_pos (by simpa using (Option.filter_eq_some_iff.mp hcol).2)

/-- The timestamp columns share their format when it is the one that is detected. -/
lemma sharesFormat_iff : SharesFormat cm columns ↔ ∀ col ∈ columns,
    parseFmsTypeToSpark cm col.type = .timestamp → col.declared = detectDateFormat cm columns := by
  constructor
  · intro h col hcol htype
    cases hdetect : detectDateFormat cm columns with
    | some format =>
      obtain ⟨other, hother, hformat⟩ := List.exists_of_findSome?_eq_some hdetect
      split_ifs at hformat with hplain
      exact (h.same col hcol other hother htype (parseFmsTypeToSpark_timestamp hplain)).trans
        hformat
    | none =>
      by_contra hdeclared
      obtain ⟨other, hother, hplain⟩ := h.plain col hcol htype hdeclared
      have hnone := List.findSome?_eq_none_iff.mp hdetect other hother
      rw [if_pos hplain] at hnone
      exact hdeclared
        ((h.same col hcol other hother htype (parseFmsTypeToSpark_timestamp hplain)).trans hnone)
  · intro h
    refine ⟨fun a ha b hb hatype hbtype => (h a ha hatype).trans (h b hb hbtype).symm,
      fun a ha htype hdeclared => ?_⟩
    rw [h a ha htype] at hdeclared
    obtain ⟨format, hdetect⟩ := Option.ne_none_iff_exists'.mp hdeclared
    obtain ⟨other, hother, hformat⟩ := List.exists_of_findSome?_eq_some hdetect
    split_ifs at hformat with hplain
    exact ⟨other, hother, hplain⟩

/-- Only the format of a timestamp matters to its conversion. -/
lemma convertColumn_eq_iff {dateFormat dateFormat' : Option Str} {dataType : SparkType}
    {e e' : ColumnExpr} :
    convertColumn dateFormat dataType e = convertColumn dateFormat' dataType e' ↔ e = e' ∧
      (dataType = .timestamp → dateFormat.filter (· ≠ []) = dateFormat'.filter (· ≠ [])) := by
  cases dataType with
  | timestamp =>
    unfold convertColumn
    cases dateFormat.filter (· ≠ []) <;> cases dateFormat'.filter (· ≠ []) <;> simp [and_comm]
  | string | boolean | integer | long | double | decimal | other => simp [convertColumn]

end Format

/-! ## The passes -/

/-- The number of conversions in an expression. -/
def ColumnExpr.conversions : ColumnExpr → ℕ
  | .source _ => 0
  | .alias e _ => e.conversions
  | .nullIfBlank e => e.conversions
  | .cast _ e => e.conversions + 1
  | .toTimestamp _ e => e.conversions + 1

/-- The name of the selected column that an expression is made of. -/
def ColumnExpr.origin : ColumnExpr → Str
  | .source csvColName => csvColName
  | .alias _ name => name
  | .nullIfBlank e => e.origin
  | .cast _ e => e.origin
  | .toTimestamp _ e => e.origin

/-- A conversion is one. -/
lemma conversions_convertColumn (dateFormat : Option Str) (dataType : SparkType) (e : ColumnExpr) :
    (convertColumn dateFormat dataType e).conversions = e.conversions + 1 := by
  unfold convertColumn
  split <;> rfl

/-- A conversion keeps the origin. -/
lemma origin_convertColumn (dateFormat : Option Str) (dataType : SparkType) (e : ColumnExpr) :
    (convertColumn dateFormat dataType e).origin = e.origin := by
  unfold convertColumn
  split <;> rfl

/-- The text of a column is not converted. -/
lemma conversions_textColumn (cm : CaseMap) (col : FormattedColumn) :
    (textColumn cm col).conversions = 0 := by
  unfold textColumn
  split_ifs <;> rfl

/-- The text of a column is made of the column. -/
lemma origin_textColumn (cm : CaseMap) (col : FormattedColumn) :
    (textColumn cm col).origin = col.dbName := by
  unfold textColumn
  split_ifs <;> rfl

section Passes

variable {cm : CaseMap} {key : Str → Str} {header : CsvHeader key} {fields : List SparkField}

/-- A column of the header is found by its name. -/
lemma column?_frame {name : Str} (h : name ∈ header.names) :
    column? key header.frame name = some (.source name) := by
  refine column?_of_mem ?_ (List.mem_map.mpr ⟨name, h, rfl⟩)
  rw [keys, CsvHeader.frame, List.map_map]
  exact header.nodup

/-- The source of a field is the column of the files that its reference names. -/
lemma exists_of_sourceOf {field : SparkField} {e : ColumnExpr}
    (h : sourceOf key header field = some e) : ∃ referred name,
      reference (sourceColumn field) = some referred ∧ key name = key referred ∧
        e = .source name := by
  obtain ⟨referred, hrefer, hcolumn⟩ := Option.bind_eq_some_iff.mp h
  obtain ⟨front, n, back, hframe, hkey, -⟩ := column?_eq_some_iff.mp hcolumn
  -- a column of the files is made of itself
  obtain ⟨name, -, heq⟩ := List.mem_map.mp
    (hframe ▸ List.mem_append_right front List.mem_cons_self : (n, e) ∈ header.frame)
  obtain ⟨rfl, rfl⟩ := Prod.mk.inj heq
  exact ⟨referred, name, hrefer, hkey, rfl⟩

/-- The source of a field is the column of its name when the name is read as itself. -/
lemma sourceOf_eq_some_iff {field : SparkField} (h : sourceColumn field ∈ header.names) :
    sourceOf key header field = some (.source (sourceColumn field)) ↔
      RefersToItself key reference (sourceColumn field) := by
  constructor
  · intro hsource
    obtain ⟨referred, name, hrefer, hkey, hname⟩ := exists_of_sourceOf hsource
    rw [← ColumnExpr.source.inj hname] at hkey
    exact ⟨referred, hrefer, hkey.symm⟩
  · rintro ⟨referred, hrefer, hkey⟩
    rw [sourceOf, hrefer, Option.bind_some, column?_congr hkey]
    exact column?_frame h

/-- The first pass finds the source of every field that it selects. -/
lemma selectColumns_eq_some_iff {frame : Frame Str ColumnExpr} :
    selectColumns key header fields = some frame ↔
      ∃ source : SparkField → ColumnExpr,
        (∀ field ∈ fields.filter fun field => sourceColumn field ∈ header.names,
          sourceOf key header field = some (source field)) ∧
        frame = (fields.filter fun field => sourceColumn field ∈ header.names).map fun field =>
          (field.name, .alias (source field) field.name) := by
  unfold selectColumns
  generalize (fields.filter fun field => sourceColumn field ∈ header.names) = selected
  constructor
  · intro h
    refine ⟨fun field => (sourceOf key header field).getD (.source []), ?_⟩
    induction selected generalizing frame with
    | nil =>
      cases h
      exact ⟨fun field hfield => absurd hfield List.not_mem_nil, rfl⟩
    | cons first selected ih =>
      rw [List.mapM_cons] at h
      obtain ⟨column, hcolumn, h⟩ := Option.bind_eq_some_iff.mp h
      obtain ⟨rest, hrest, h⟩ := Option.bind_eq_some_iff.mp h
      obtain ⟨x, hx, rfl⟩ := Option.map_eq_some_iff.mp hcolumn
      obtain ⟨hsource, rfl⟩ := ih hrest
      cases h
      have hfirst : (sourceOf key header first).getD (.source []) = x := by
        rw [hx]
        rfl
      refine ⟨List.forall_mem_cons.mpr ⟨hx.trans (congrArg some hfirst.symm), hsource⟩, ?_⟩
      exact congrArg (fun e => (first.name, ColumnExpr.alias e first.name) :: _) hfirst.symm
  · rintro ⟨source, hsource, rfl⟩
    induction selected with
    | nil => rfl
    | cons first selected ih =>
      rw [List.forall_mem_cons] at hsource
      rw [List.mapM_cons, hsource.1, ih hsource.2]
      rfl

/-- The second and the third pass convert every column once, when they are distinct and read as
themselves, and Spark has their types. -/
lemma castColumns_replaceBlanks {dateFormat : Option Str} {text : SparkField → ColumnExpr}
    (hself : ∀ field ∈ fields, RefersToItself key reference field.name)
    (hvalid : ∀ field ∈ fields, field.dataType.isValid = true)
    (h : (fields.map fun field => key field.name).Nodup) :
    ((replaceBlanks key fields (fields.map fun field => (field.name, text field))).bind
        fun frame => castColumns key dateFormat fields frame) =
      some (fields.map fun field => (field.name, convertColumn dateFormat field.dataType
        (if field.dataType = .string then text field else .nullIfBlank (text field)))) := by
  have hnames : (fields.filter fun field => field.dataType ≠ .string ∧
      field.name ∈ (fields.map fun field => (field.name, text field)).map Prod.fst) =
        fields.filter fun field => field.dataType ≠ .string := by
    refine List.filter_congr fun field hfield => ?_
    have hmem : field.name ∈ (fields.map fun field => (field.name, text field)).map Prod.fst := by
      rw [List.map_map]
      exact List.mem_map_of_mem hfield
    rw [decide_eq_decide]
    exact and_iff_left hmem
  have hblanks : ∀ u ∈ (fields.filter fun field => field.dataType ≠ .string).map fun field =>
      (field.name, ColumnExpr.nullIfBlank), RefersToItself key reference u.1 := by
    intro u hu
    obtain ⟨field, hfield, rfl⟩ := List.mem_map.mp hu
    exact hself field (List.mem_of_mem_filter hfield)
  have hcasts : ∀ u ∈ fields.map fun field =>
      (field.name, convertColumn dateFormat field.dataType),
      RefersToItself key reference u.1 := by
    intro u hu
    obtain ⟨field, hfield, rfl⟩ := List.mem_map.mp hu
    exact hself field hfield
  unfold replaceBlanks castColumns
  rw [hnames, updateAllFrom_eq hblanks, updateAll_filter h, Option.bind_some,
    if_pos (List.all_eq_true.mpr hvalid), updateAllFrom_eq hcasts]
  refine (updateAll_map h).trans (congrArg some (List.map_congr_left fun field _ => ?_))
  by_cases hstring : field.dataType = .string
  · simp [hstring]
  · simp [hstring]

/-- When the last two passes end with columns made of their own, the names of the fields were read
as themselves, Spark has their types, every field was converted once, and columns that are all
fields were distinct. -/
lemma exists_of_castColumns_replaceBlanks {dateFormat : Option Str}
    {frame frame' : Frame Str ColumnExpr} (h : ((replaceBlanks key fields frame).bind
      fun frame => castColumns key dateFormat fields frame) = some frame')
    (hfaithful : Faithful key ColumnExpr.origin frame') :
    (∀ field ∈ fields, RefersToItself key reference field.name) ∧
      (∀ field ∈ fields, field.dataType.isValid = true) ∧
      (frame'.map fun column => column.2.conversions).sum =
        (frame.map fun column => column.2.conversions).sum + fields.length ∧
      ((∀ k ∈ keys key frame, ∃ field ∈ fields, key field.name = k) →
        (keys key frame).Nodup) := by
  obtain ⟨middle, hblanks, hcast⟩ := Option.bind_eq_some_iff.mp h
  unfold castColumns at hcast
  split_ifs at hcast with hvalid
  have hself : ∀ field ∈ fields, RefersToItself key reference field.name := by
    have hall := (refersToItself_of_faithful (fun u hu x => by
      obtain ⟨field, -, rfl⟩ := List.mem_map.mp hu
      exact origin_convertColumn _ _ _) hcast hfaithful).2
    exact fun field hfield => hall _ (List.mem_map_of_mem hfield)
  rw [updateAllFrom_eq fun u hu => by
    obtain ⟨field, hfield, rfl⟩ := List.mem_map.mp hu
    exact hself field hfield] at hcast
  rw [replaceBlanks, updateAllFrom_eq fun u hu => by
    obtain ⟨field, hfield, rfl⟩ := List.mem_map.mp hu
    exact hself field (List.mem_of_mem_filter hfield)] at hblanks
  have hsumBlanks := @weight_updateAll _ _ _ _ key _ _ ColumnExpr.conversions 0 _
    (fun u hu x => by obtain ⟨field, -, rfl⟩ := List.mem_map.mp hu; rfl) hblanks
  have hsumCast := @weight_updateAll _ _ _ _ key _ _ ColumnExpr.conversions 1 _
    (fun u hu x => by
      obtain ⟨field, -, rfl⟩ := List.mem_map.mp hu
      exact conversions_convertColumn _ _ _) hcast
  refine ⟨hself, List.all_eq_true.mp hvalid, ?_, fun hnames => ?_⟩
  · rw [hsumCast, hsumBlanks, Nat.mul_zero, Nat.add_zero, Nat.mul_one, List.length_map]
  · rw [← keys_updateAll hblanks] at hnames ⊢
    refine distinct_of_updateAll hcast fun k hk => ?_
    obtain ⟨field, hfield, hkey⟩ := hnames k hk
    exact ⟨_, List.mem_map_of_mem hfield, hkey⟩

/-- The fields of a publication. -/
lemma exists_sparkField (columns : List FormattedColumn) :
    ∃ field : FormattedColumn → SparkField,
      buildSparkSchemaFromFms cm (columns.map FormattedColumn.toDescribedColumn) =
        columns.map field ∧
      ∀ col, (field col).name = col.dbName ∧
        (field col).dataType = parseFmsTypeToSpark cm col.type ∧
        sourceColumn (field col) = if col.csvName = [] then col.dbName else col.csvName := by
  unfold buildSparkSchemaFromFms
  rw [List.map_map]
  refine ⟨_, rfl, fun col => ⟨rfl, rfl, ?_⟩⟩
  have hget : ∀ d : Dict Str Str, d.get? "source_csv_column".toList = some col.csvName →
      (match d.get? "source_csv_column".toList with
        | some name => if name = [] then col.dbName else name
        | none => col.dbName) = if col.csvName = [] then col.dbName else col.csvName := by
    intro d hd
    rw [hd]
  refine hget _ ?_
  dsimp only [Function.comp_apply]
  have hsource : (Dict.ofList [("source_csv_column".toList, col.csvName)]).get?
      "source_csv_column".toList = some col.csvName := Dict.get?_set_self _ _ _
  cases col.description with
  | none => exact hsource
  | some text =>
    dsimp only
    split_ifs
    · exact hsource
    · rw [Dict.get?_set_of_ne _ _ (by decide)]
      exact hsource

end Passes

/-! ## The reader -/

section Reader

variable {cm : CaseMap} {key : Str → Str} {header : CsvHeader key} {columns : List FormattedColumn}

/-- Columns with the same number of conversions each. -/
lemma sum_conversions {frame : Frame Str ColumnExpr} {n : ℕ}
    (h : ∀ column ∈ frame, column.2.conversions = n) :
    (frame.map fun column => column.2.conversions).sum = frame.length * n := by
  rw [List.sum_eq_card_nsmul _ n, List.length_map, smul_eq_mul]
  intro m hm
  obtain ⟨column, hcolumn, rfl⟩ := List.mem_map.mp hm
  exact h column hcolumn

/-- The conversions that a schema asks for are one for each column that the header has. -/
lemma conversions_strictColumns :
    ((strictColumns cm header columns).map fun column => column.2.conversions).sum =
      (columns.filter fun col => col.csvName ∈ header.names).length := by
  have hone : ∀ column ∈ strictColumns cm header columns, column.2.conversions = 1 := by
    intro column hcolumn
    obtain ⟨col, -, rfl⟩ := List.mem_map.mp hcolumn
    rw [conversions_convertColumn, conversions_textColumn]
  rw [sum_conversions hone, Nat.mul_one, strictColumns, List.length_map]

/-- The columns that a schema asks for are made of their own. -/
lemma faithful_strictColumns : Faithful key ColumnExpr.origin
    (strictColumns cm header columns) := by
  intro column hcolumn
  obtain ⟨col, -, rfl⟩ := List.mem_map.mp hcolumn
  dsimp only
  rw [origin_convertColumn, origin_textColumn]

/-- The last two passes over the columns that were selected. -/
lemma castColumns_replaceBlanks_columns {field : FormattedColumn → SparkField}
    (hfield : ∀ col, (field col).name = col.dbName ∧
      (field col).dataType = parseFmsTypeToSpark cm col.type)
    {source : SparkField → ColumnExpr} {dateFormat : Option Str}
    (hself : ∀ f ∈ columns.map field, RefersToItself key reference f.name)
    (hvalid : ∀ f ∈ columns.map field, f.dataType.isValid = true)
    (hdistinct : (columns.map fun col => key col.dbName).Nodup) :
    ((replaceBlanks key (columns.map field) ((columns.map field).map fun f =>
        (f.name, .alias (source f) f.name))).bind
          fun frame => castColumns key dateFormat (columns.map field) frame) =
      some (columns.map fun col => (col.dbName, convertColumn dateFormat
        (parseFmsTypeToSpark cm col.type)
        (if parseFmsTypeToSpark cm col.type = .string then .alias (source (field col)) col.dbName
          else .nullIfBlank (.alias (source (field col)) col.dbName)))) := by
  have hnames : ((columns.map field).map fun f => key f.name).Nodup := by
    rw [List.map_map]
    exact (List.map_congr_left fun col _ => congrArg key (hfield col).1).symm ▸ hdistinct
  refine (castColumns_replaceBlanks hself hvalid hnames).trans ?_
  rw [List.map_map]
  refine congrArg some (List.map_congr_left fun col _ => ?_)
  rw [Function.comp_apply, (hfield col).1, (hfield col).2]

/-- The three passes give what a schema asks for, with the format that they are given, when its
columns can be read and are distinct. -/
lemma loadColumns_of_readable (hreadable : ∀ col ∈ columns, col.Readable cm header)
    (hdistinct : (columns.map fun col => key col.dbName).Nodup) (dateFormat : Option Str) :
    loadColumns key header
        (buildSparkSchemaFromFms cm (columns.map FormattedColumn.toDescribedColumn)) dateFormat =
      some (columns.map fun col => (col.dbName,
        convertColumn dateFormat (parseFmsTypeToSpark cm col.type) (textColumn cm col))) := by
  obtain ⟨field, hfields, hfield⟩ := @exists_sparkField cm columns
  have hsource : ∀ col ∈ columns, sourceColumn (field col) = col.csvName := by
    intro col hcol
    rw [(hfield col).2.2, if_neg (header.ne_nil _ (hreadable col hcol).mem_header)]
  have hselect : selectColumns key header (columns.map field) =
      some ((columns.map field).map fun f =>
        (f.name, .alias (.source (sourceColumn f)) f.name)) := by
    have hmem : ∀ f ∈ columns.map field, sourceColumn f ∈ header.names := by
      intro f hf
      obtain ⟨col, hcol, rfl⟩ := List.mem_map.mp hf
      exact hsource col hcol ▸ (hreadable col hcol).mem_header
    have hall : ((columns.map field).filter fun f => sourceColumn f ∈ header.names) =
        columns.map field := List.filter_eq_self.mpr fun f hf => decide_eq_true (hmem f hf)
    refine selectColumns_eq_some_iff.mpr ⟨fun f => .source (sourceColumn f), ?_, by rw [hall]⟩
    rw [hall]
    intro f hf
    refine (sourceOf_eq_some_iff (hmem f hf)).mpr ?_
    obtain ⟨col, hcol, rfl⟩ := List.mem_map.mp hf
    exact hsource col hcol ▸ (hreadable col hcol).csvName_self
  unfold loadColumns
  rw [hfields, hselect]
  refine (castColumns_replaceBlanks_columns (fun col => ⟨(hfield col).1, (hfield col).2.1⟩) ?_ ?_
    hdistinct).trans (congrArg some (List.map_congr_left fun col hcol => ?_))
  · intro f hf
    obtain ⟨col, hcol, rfl⟩ := List.mem_map.mp hf
    exact (hfield col).1 ▸ (hreadable col hcol).dbName_self
  · intro f hf
    obtain ⟨col, hcol, rfl⟩ := List.mem_map.mp hf
    exact (hfield col).2.1 ▸ (hreadable col hcol).isValid
  · rw [hsource col hcol]
    rfl

/-- When the passes convert as many columns as the schema asks for, the header has all columns of
the schema: the passes convert one for each of them, the schema asks for those that the header
has. -/
lemma mem_header_of_sum {field : FormattedColumn → SparkField} {source : SparkField → ColumnExpr}
    (hsource : ∀ f ∈ (columns.map field).filter fun f => sourceColumn f ∈ header.names,
      sourceOf key header f = some (source f))
    (hsum : ((strictColumns cm header columns).map fun column => column.2.conversions).sum =
      ((((columns.map field).filter fun f => sourceColumn f ∈ header.names).map fun f =>
        (f.name, ColumnExpr.alias (source f) f.name)).map fun column =>
          column.2.conversions).sum + (columns.map field).length) :
    ∀ col ∈ columns, col.csvName ∈ header.names := by
  have hzero : ∀ column ∈ ((columns.map field).filter fun f =>
      sourceColumn f ∈ header.names).map fun f =>
        (f.name, ColumnExpr.alias (source f) f.name), column.2.conversions = 0 := by
    intro column hcolumn
    obtain ⟨f, hf, rfl⟩ := List.mem_map.mp hcolumn
    obtain ⟨referred, name, -, -, hname⟩ := exists_of_sourceOf (hsource f hf)
    show (source f).conversions = 0
    rw [hname]
    rfl
  rw [conversions_strictColumns, sum_conversions hzero, Nat.mul_zero, Nat.zero_add,
    List.length_map, List.length_filter_eq_length_iff] at hsum
  exact fun col hcol => of_decide_eq_true (hsum col hcol)

/-- A column whose text is the one that the schema asks for is made of its own. -/
lemma source_of_textColumn {col : FormattedColumn} {e : ColumnExpr}
    (h : (if parseFmsTypeToSpark cm col.type = .string then ColumnExpr.alias e col.dbName
      else .nullIfBlank (.alias e col.dbName)) = textColumn cm col) : e = .source col.csvName := by
  unfold textColumn FormattedColumn.selected at h
  split_ifs at h
  · exact (ColumnExpr.alias.inj h).1
  · exact (ColumnExpr.alias.inj (ColumnExpr.nullIfBlank.inj h)).1

/-- A run of the passes that gives what the schema asks for found every column once, under names
that are read as themselves.

**Proof sketch.** The columns end up made of their own, so that no name was read as another. The
conversions are then counted: one for each column of the schema, and one for each that the header
has. -/
lemma readable_of_loadColumns {dateFormat : Option Str}
    (h : loadColumns key header
      (buildSparkSchemaFromFms cm (columns.map FormattedColumn.toDescribedColumn)) dateFormat =
        some (strictColumns cm header columns)) :
    (∀ col ∈ columns, col.Readable cm header) ∧
      (columns.map fun col => key col.dbName).Nodup := by
  obtain ⟨field, hfields, hfield⟩ := @exists_sparkField cm columns
  unfold loadColumns at h
  rw [hfields] at h
  obtain ⟨selected, hselect, hpasses⟩ := Option.bind_eq_some_iff.mp h
  obtain ⟨source, hsource, rfl⟩ := selectColumns_eq_some_iff.mp hselect
  obtain ⟨hself, hvalid, hsum, hdistinct⟩ :=
    exists_of_castColumns_replaceBlanks hpasses faithful_strictColumns
  have hmem : ∀ col ∈ columns, col.csvName ∈ header.names := mem_header_of_sum hsource hsum
  have hcsv : ∀ col ∈ columns, sourceColumn (field col) = col.csvName := by
    intro col hcol
    rw [(hfield col).2.2, if_neg (header.ne_nil _ (hmem col hcol))]
  have hall : ((columns.map field).filter fun f => sourceColumn f ∈ header.names) =
      columns.map field := by
    refine List.filter_eq_self.mpr fun f hf => ?_
    obtain ⟨col, hcol, rfl⟩ := List.mem_map.mp hf
    exact decide_eq_true (hcsv col hcol ▸ hmem col hcol)
  rw [hall] at hsource hpasses hdistinct
  have hnodup : (columns.map fun col => key col.dbName).Nodup := by
    have hkeys : keys key ((columns.map field).map fun f =>
        (f.name, ColumnExpr.alias (source f) f.name)) = columns.map fun col => key col.dbName := by
      rw [keys, List.map_map, List.map_map]
      exact List.map_congr_left fun col _ => congrArg key (hfield col).1
    rw [← hkeys]
    refine hdistinct fun k hk => ?_
    obtain ⟨column, hcolumn, rfl⟩ := List.mem_map.mp hk
    obtain ⟨f, hf, rfl⟩ := List.mem_map.mp hcolumn
    exact ⟨f, hf, rfl⟩
  -- the columns that were read are those of the schema
  have hread := (castColumns_replaceBlanks_columns (fun col => ⟨(hfield col).1, (hfield col).2.1⟩)
    hself hvalid hnodup).symm.trans hpasses
  rw [Option.some.injEq, strictColumns,
    List.filter_eq_self.mpr fun col hcol => decide_eq_true (hmem col hcol), List.map_inj_left]
    at hread
  refine ⟨fun col hcol => ⟨hmem col hcol, ?_, ?_, ?_⟩, hnodup⟩
  · have hexpr := (convertColumn_eq_iff.mp (Prod.mk.inj (hread col hcol)).2).1
    have hfound := hsource _ (List.mem_map_of_mem hcol)
    rw [source_of_textColumn hexpr, ← hcsv col hcol] at hfound
    exact hcsv col hcol ▸ (sourceOf_eq_some_iff (hcsv col hcol ▸ hmem col hcol)).mp hfound
  · exact (hfield col).1 ▸ hself _ (List.mem_map_of_mem hcol)
  · exact (hfield col).2.1 ▸ hvalid _ (List.mem_map_of_mem hcol)

/-- **The strict read.** The reader gives what the schema asks for exactly when every column of the
schema can be read, the columns have distinct names, and the timestamp columns share their
format. -/
theorem strictRead_iff {load : List Str → Option (CsvHeader key)} {landingBucket : Str}
    {publications : Dict Str (List FormattedColumn)} {s3Keys : List Str} {fmsName : Str}
    (hkeys : s3Keys ≠ []) (hget : publications.get? fmsName = some columns)
    (hcolumns : columns ≠ []) (hload : load (s3Keys.map (s3aPath landingBucket)) = some header) :
    LandingCsvReader.readLandingCsvDataset cm key load landingBucket publications s3Keys fmsName =
        .ok (strictColumns cm header columns) ↔
      (∀ col ∈ columns, col.Readable cm header) ∧
        (columns.map fun col => key col.dbName).Nodup ∧ SharesFormat cm columns := by
  have hread :
      LandingCsvReader.readLandingCsvDataset cm key load landingBucket publications s3Keys
          fmsName = .ok (strictColumns cm header columns) ↔
      loadColumns key header
          (buildSparkSchemaFromFms cm (columns.map FormattedColumn.toDescribedColumn))
          (detectDateFormat cm columns) = some (strictColumns cm header columns) := by
    unfold LandingCsvReader.readLandingCsvDataset
    rw [if_neg hkeys, hget]
    dsimp only
    rw [hload]
    dsimp only
    rw [if_neg hcolumns]
    cases loadColumns key header
      (buildSparkSchemaFromFms cm (columns.map FormattedColumn.toDescribedColumn))
      (detectDateFormat cm columns) <;> simp
  have hformat (hreadable : ∀ col ∈ columns, col.Readable cm header) :
      (columns.map fun col => (col.dbName, convertColumn (detectDateFormat cm columns)
          (parseFmsTypeToSpark cm col.type) (textColumn cm col))) =
        strictColumns cm header columns ↔ SharesFormat cm columns := by
    unfold strictColumns
    rw [List.filter_eq_self.mpr fun col hcol => decide_eq_true (hreadable col hcol).mem_header,
      List.map_inj_left, sharesFormat_iff]
    refine forall₂_congr fun col _ => ?_
    rw [Prod.mk.injEq, and_iff_right rfl, convertColumn_eq_iff, and_iff_right rfl,
      filter_detectDateFormat]
    exact imp_congr_right fun _ => eq_comm
  rw [hread]
  constructor
  · intro h
    obtain ⟨hreadable, hdistinct⟩ := readable_of_loadColumns h
    rw [loadColumns_of_readable hreadable hdistinct, Option.some.injEq, hformat hreadable] at h
    exact ⟨hreadable, hdistinct, h⟩
  · rintro ⟨hreadable, hdistinct, hshares⟩
    rw [loadColumns_of_readable hreadable hdistinct, (hformat hreadable).mpr hshares]

end Reader

/-! ### A missing column and two formats -/

/-- A mandatory column of the energy prices, with a format when it is a time. -/
def priceColumn (csvName dbName type : String) (format : Option String) : FormattedColumn :=
  ⟨⟨⟨csvName.toList, dbName.toList, type.toList, true⟩, none⟩, format.map String.toList⟩

/-- The time of a price. -/
def priceTime : FormattedColumn :=
  priceColumn "DateTime(UTC)" "date_time_utc" "timestamp" (some "yyyy-MM-dd HH:mm:ss")

/-- The area of a price. -/
def priceArea : FormattedColumn := priceColumn "AreaCode" "area_code" "string" none

/-- The price. -/
def priceValue : FormattedColumn :=
  priceColumn "Price[Currency/MWh]" "price_currency/m_wh" "decimal(18,4)" none

/-- The time of the update of a price, in a format. -/
def priceUpdateTime (format : String) : FormattedColumn :=
  priceColumn "UpdateTime(UTC)" "update_time_utc" "timestamp" (some format)

/-- The header of a file without the times of the updates. -/
def priceTimeHeader : CsvHeader id where
  names := ["DateTime(UTC)".toList]
  ne_nil := by decide
  nodup := by decide

/-- The header of a file with the times, the areas, the prices and another column. -/
def priceHeader : CsvHeader id where
  names := ["AreaCode".toList, "DateTime(UTC)".toList, "Currency".toList,
    "Price[Currency/MWh]".toList, "UpdateTime(UTC)".toList]
  ne_nil := by decide
  nodup := by decide

/-- The read of a file of energy prices. -/
def readPrices (header : CsvHeader id) (columns : List FormattedColumn) :
    Except ReadError (Frame Str ColumnExpr) :=
  LandingCsvReader.readLandingCsvDataset .ascii id (fun _ => some header) "landing-zone".toList
    (Dict.ofList [("EnergyPrices_12.1.D_r3".toList, columns)])
    ["iop/TP_export/Market/EnergyPrices_12.1.D_r3/2026_04.csv".toList]
    "EnergyPrices_12.1.D_r3".toList

/-- The columns of the energy prices with one format for both times. -/
def priceColumns : List FormattedColumn :=
  [priceTime, priceArea, priceValue, priceUpdateTime "yyyy-MM-dd HH:mm:ss"]

/-- A column whose names are plain can be read when the header has it. -/
lemma FormattedColumn.readable_of_isPlain {header : CsvHeader id} {col : FormattedColumn}
    (hmem : col.csvName ∈ header.names) (hcsv : IsPlain col.csvName) (hdb : IsPlain col.dbName)
    (hvalid : (parseFmsTypeToSpark .ascii col.type).isValid = true) : col.Readable .ascii header :=
  ⟨hmem, ⟨_, reference_of_isPlain hcsv, rfl⟩, ⟨_, reference_of_isPlain hdb, rfl⟩, hvalid⟩

/-- A file with the columns of its publication in another order and one more is read. -/
theorem strictRead_prices :
    readPrices priceHeader priceColumns = .ok (strictColumns .ascii priceHeader priceColumns) := by
  refine (strictRead_iff (List.cons_ne_nil _ _) rfl (List.cons_ne_nil _ _) rfl).mpr
    ⟨fun col hcol => ?_, by decide, ?_, ?_⟩
  · have hplain : ∀ col ∈ priceColumns, col.csvName ∈ priceHeader.names ∧ IsPlain col.csvName ∧
        IsPlain col.dbName ∧ (parseFmsTypeToSpark .ascii col.type).isValid = true := by
      decide +kernel
    obtain ⟨hmem, hcsv, hdb, hvalid⟩ := hplain col hcol
    exact FormattedColumn.readable_of_isPlain hmem hcsv hdb hvalid
  · decide +kernel
  · decide +kernel

/-- A column that the file lacks makes the read raise, and the second of two times is parsed with
the format of the first one. -/
theorem not_strictRead_missing :
    readPrices priceTimeHeader [priceTime, priceUpdateTime "dd/MM/yyyy HH:mm"] =
        .error .analysisError ∧
      readPrices priceHeader [priceTime, priceUpdateTime "dd/MM/yyyy HH:mm"] ≠
        .ok (strictColumns .ascii priceHeader
          [priceTime, priceUpdateTime "dd/MM/yyyy HH:mm"]) := by
  decide +kernel

end EntsoePipeline
