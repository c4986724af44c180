import EntsoePipeline.Py.Dict
import EntsoePipeline.Py.Str

set_option relaxedAutoImplicit false
set_option autoImplicit false

/-!
# The schemas of the publications

A publication declares the columns of its files: the header, the column of the table, the type and
whether it is mandatory. The business keys of a publication are some of its mandatory columns, and
its Spark schema has a field for each column.

## Main definitions

* `EntsoePipeline.FmsColumnSchema`, `EntsoePipeline.FmsPublicationSchema` — the declared columns.
* `EntsoePipeline.getDomainBusinessKeys` — the columns that identify a row.
* `EntsoePipeline.SparkType`, `EntsoePipeline.SparkField` — Spark's types and fields.
* `EntsoePipeline.parseFmsTypeToSpark`, `EntsoePipeline.buildSparkSchemaFromFms` — the Spark schema
  of a publication.
* `EntsoePipeline.declaredColumns` — the names and the types of its fields.

## Main results

* `EntsoePipeline.mem_getDomainBusinessKeys` — the business keys of a publication.

## Implementation notes

Spark's own parser of type names is a parameter.
-/

namespace EntsoePipeline

open Py

/-! ## Publications -/

/-- A column of a publication. -/
structure FmsColumnSchema where
  /-- The header in the file. -/
  csvName : Str
  /-- The column of the table. -/
  dbName : Str
  /-- The declared type. -/
  type : Str
  /-- Whether the column is mandatory. -/
  required : Bool
  deriving DecidableEq

/-- A publication. -/
structure FmsPublicationSchema where
  /-- The columns in order. -/
  columns : List FmsColumnSchema
  deriving DecidableEq

/-- The column of the metadata of an update. -/
def updateTimeUtc : Str := "update_time_utc".toList

/-- Whether a column is part of the business key: mandatory, a string or a timestamp, and not the
time of the update. -/
def isBusinessKey (cm : CaseMap) (col : FmsColumnSchema) : Bool :=
  col.required && (cm.lower col.type == "string".toList || cm.lower col.type ==
    "timestamp".toList) && col.dbName != updateTimeUtc

/-- The columns that compose the primary key of a publication. -/
def getDomainBusinessKeys (cm : CaseMap) (publicationSchema : FmsPublicationSchema) : List Str :=
  (publicationSchema.columns.filter (isBusinessKey cm)).map FmsColumnSchema.dbName

/-- The business keys are the names of the columns that are part of the key. -/
lemma mem_getDomainBusinessKeys {cm : CaseMap} {schema : FmsPublicationSchema} {name : Str} :
    name ∈ getDomainBusinessKeys cm schema ↔
      ∃ col ∈ schema.columns, isBusinessKey cm col = true ∧ col.dbName = name := by
  simp only [getDomainBusinessKeys, List.mem_map, List.mem_filter, and_assoc]

/-! ## Spark schemas -/

/-- A Spark type. -/
inductive SparkType
  | string
  | boolean
  | timestamp
  | integer
  | long
  | double
  | decimal (precision scale : ℕ)
  /-- A type that only Spark names. -/
  | other (name : Str)
  deriving DecidableEq

/-- Spark has the type: a decimal has at most 38 digits, and its fraction is not longer. -/
def SparkType.isValid : SparkType → Bool
  | .decimal precision scale => scale ≤ precision && precision ≤ 38
  | _ => true

/-- A field of a Spark schema with its metadata. -/
structure SparkField where
  /-- The name of the column. -/
  name : Str
  /-- The data type. -/
  dataType : SparkType
  /-- Whether the column may be null. -/
  nullable : Bool
  /-- The metadata. -/
  metadata : Dict Str Str
  deriving DecidableEq

/-- A column of a publication with its description, which only the registry keeps. -/
structure DescribedColumn extends FmsColumnSchema where
  /-- The description. -/
  description : Option Str
  deriving DecidableEq

/-- The rest of a text after a prefix of it. -/
def dropPrefix? (p s : Str) : Option Str := if startsWith s p then some (s.drop p.length) else none

section Parsers

variable (cm : CaseMap)

/-- A number in front of a text, and the rest: `(\d+)`. -/
def readNumber (s : Str) : Option (ℕ × Str) :=
  let digits := s.takeWhile fun ch => (cm.digit ch).isSome
  if digits = [] then none
  else some (digits.foldl (fun n ch => 10 * n + (cm.digit ch).getD 0) 0, s.drop digits.length)

/-- `re.match(r"decimal\s*\(\s*(\d+)\s*,\s*(\d+)\s*\)", s)`. -/
def matchDecimal (s : Str) : Option (ℕ × ℕ) := do
  let s ← dropPrefix? "decimal".toList s
  let s ← dropPrefix? "(".toList (s.dropWhile isSpace)
  let (precision, s) ← readNumber cm (s.dropWhile isSpace)
  let s ← dropPrefix? ",".toList (s.dropWhile isSpace)
  let (scale, s) ← readNumber cm (s.dropWhile isSpace)
  let _ ← dropPrefix? ")".toList (s.dropWhile isSpace)
  return (precision, scale)

/-- The type names that both parsers know. -/
def knownType (typeStr : Str) : Option SparkType :=
  if typeStr = "string".toList then some .string
  else if typeStr = "timestamp".toList then some .timestamp
  else if typeStr = "integer".toList ∨ typeStr = "int".toList then some .integer
  else if typeStr = "long".toList then some .long
  else if typeStr = "double".toList then some .double
  else (matchDecimal cm typeStr).map fun args => .decimal args.1 args.2

/-- The type of a column of a publication. An unknown type is a string. -/
def parseFmsTypeToSpark (typeStr : Str) : SparkType :=
  let typeStr := stripSpaces (cm.lower typeStr)
  if typeStr = "boolean".toList then .boolean else (knownType cm typeStr).getD .string

/-- The schema of a publication. -/
def buildSparkSchemaFromFms (columns : List DescribedColumn) : List SparkField :=
  columns.map fun col =>
    let source : Dict Str Str := Dict.ofList [("source_csv_column".toList, col.csvName)]
    { name := col.dbName
      dataType := parseFmsTypeToSpark cm col.type
      nullable := !col.required
      metadata :=
        match col.description with
        | some text => if text = [] then source else source.set "description".toList text
        | none => source }

/-- The type of an override, where the names that are not known here are left to Spark. -/
def parseTypeString (sparkParse : Str → Option SparkType) (typeStr : Str) : Option SparkType :=
  let typeStr := stripSpaces (cm.lower typeStr)
  (knownType cm typeStr).or (sparkParse typeStr)

end Parsers

/-- The names of columns with their types. -/
abbrev Columns := List (Str × SparkType)

/-- The columns of the frames of a publication. -/
def declaredColumns (cm : CaseMap) (publicationSchema : FmsPublicationSchema) : Columns :=
  publicationSchema.columns.map fun col => (col.dbName, parseFmsTypeToSpark cm col.type)

end EntsoePipeline
