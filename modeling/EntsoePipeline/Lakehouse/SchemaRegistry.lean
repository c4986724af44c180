import EntsoePipeline.Lakehouse.FmsSchemas
import EntsoePipeline.Lib.LastWrite

set_option relaxedAutoImplicit false
set_option autoImplicit false

/-!
# The schema registry

The generator of the schema registry takes the folder segment of a landed key as the name of an
endpoint. It keeps one sample of each endpoint and registers a schema for it: the schema of the
publication of that name, or, for the two technical logs, the schema that Spark infers from the
sample. A name that is no publication ends the run.

## Main definitions

* `EntsoePipeline.technicalSchema` — the schema of a technical log, with the overrides.
* `EntsoePipeline.sampleKeys` — the sample of each endpoint.
* `EntsoePipeline.runSchemaGeneration` — the generator.
* `EntsoePipeline.endpointSchema` — the schema that an endpoint should have.

## Main results

* `EntsoePipeline.mem_sampleKeys_iff` — the endpoints that have a sample.
* `EntsoePipeline.runSchemaGeneration_ok_iff` — when the generator raises.
* `EntsoePipeline.get?_runSchemaGeneration` — the registered schemas.

## Implementation notes

Spark's reader and its own parser of type names are parameters, and so is the JSON value of a
schema.
-/

namespace EntsoePipeline

open Py LastWrite

/-! ## Column names -/

/-- The markers of units and of the time zone in a header. -/
def unitMarkers : List Str :=
  ["(UTC)".toList, "[MW]".toList, "[EUR/MWh]".toList, "[EUR/MW]".toList, "[%]".toList]

/-- The text without the markers; the number counts the characters of a marker still to skip. -/
def removeMarkers : ℕ → Str → Str
  | _, [] => []
  | skip + 1, _ :: s => removeMarkers skip s
  | 0, c :: s =>
    match unitMarkers.find? fun marker => startsWith (c :: s) marker with
    | some marker => removeMarkers (marker.length - 1) s
    | none => c :: removeMarkers 0 s

/-- `re.sub(r"(.)([A-Z][a-z]+)", r"\1_\2", s)`; the number counts the matched characters still to
copy. -/
def splitWords : ℕ → Str → Str
  | _, [] => []
  | copy + 1, c :: s => c :: splitWords copy s
  | 0, c :: s =>
    match s with
    | [] => [c]
    | u :: t =>
      if c ≠ '\n' ∧ u.isUpper ∧ t.takeWhile Char.isLower ≠ [] then
        c :: '_' :: splitWords (1 + (t.takeWhile Char.isLower).length) (u :: t)
      else c :: splitWords 0 (u :: t)

/-- `re.sub(r"([a-z0-9])([A-Z])", r"\1_\2", s)`; the flag is set on the second character of a
match. -/
def splitCapitals : Bool → Str → Str
  | _, [] => []
  | true, c :: s => c :: splitCapitals false s
  | false, c :: s =>
    if (c.isLower ∨ c.isDigit) ∧ (s.head?.any Char.isUpper) then c :: '_' :: splitCapitals true s
    else c :: splitCapitals false s

/-- `re.sub(r"[\s\-.]+", "_", s)`; the flag is set inside of a run. -/
def joinWords : Bool → Str → Str
  | _, [] => []
  | inRun, c :: s =>
    if isSpace c ∨ c = '-' ∨ c = '.' then
      if inRun then joinWords true s else '_' :: joinWords true s
    else c :: joinWords false s

/-- The column name of a header. -/
def toSnakeCase (cm : CaseMap) (name : Str) : Str :=
  let clean := stripSpaces (removeMarkers 0 name)
  strip '_' (cm.lower (joinWords false (splitCapitals false (splitWords 0 clean))))

example : toSnakeCase .ascii "TotalLoadValue[MW]".toList = "total_load_value".toList := by decide

/-! ## Technical logs -/

/-- The logs whose schema Spark infers. -/
def technicalEndpoints : List Str := ["Export_log_r3.csv".toList, "Export_oce_log_r3.csv".toList]

/-- The schema overrides. -/
structure SchemaOverrides where
  /-- The type for each pattern of column names. -/
  global : Dict Str Str
  /-- The types for the columns of an endpoint. -/
  endpoints : Dict Str (Dict Str Str)

/-- A column name matches a pattern with an asterisk at its ends. -/
def matchesPattern (pattern cleanName : Str) : Bool :=
  if startsWith pattern ['*'] ∧ endsWith pattern ['*'] then
    contains cleanName (pattern.drop 1).dropLast
  else if startsWith pattern ['*'] then endsWith cleanName (pattern.drop 1)
  else if endsWith pattern ['*'] then startsWith cleanName pattern.dropLast
  else decide (cleanName = pattern)

/-- What the generator gets from Spark and from its files. -/
structure SchemaSources (J : Type*) where
  /-- The columns of the sample at a path, with the inferred types, if Spark can read it. -/
  readSample : Str → Option (List SparkField)
  /-- Spark's parser of type names. -/
  sparkParse : Str → Option SparkType
  /-- The JSON value of a schema. -/
  jsonValue : List SparkField → J
  /-- The overrides. -/
  overrides : SchemaOverrides
  /-- The entries of the registry file. -/
  existing : Dict Str J
  /-- The landing bucket. -/
  landingBucket : Str

section Generator

variable {J : Type*} (cm : CaseMap) (src : SchemaSources J)

/-- A type with an override, which is ignored if it cannot be parsed. -/
def overrideType (override : Option Str) (fieldType : SparkType) : SparkType :=
  (override.bind (parseTypeString cm src.sparkParse)).getD fieldType

/-- The field of a technical log: its clean name, the type with the first global override that
matches and then with the override of the endpoint, and its header. -/
def technicalField (endpoint : Str) (field : SparkField) : SparkField :=
  let cleanName := toSnakeCase cm field.name
  let globalOverride := (src.overrides.global.items.find? fun override =>
    matchesPattern override.1 cleanName).map Prod.snd
  let endpointOverride := (src.overrides.endpoints.get? endpoint).bind fun columns =>
    columns.get? cleanName
  { name := cleanName
    dataType := overrideType cm src endpointOverride
      (overrideType cm src globalOverride field.dataType)
    nullable := field.nullable
    metadata := field.metadata.set "source_csv_column".toList field.name }

/-- The schema of a technical log from a sample, if Spark can read it. -/
def technicalSchema (endpoint s3Key : Str) : Option J :=
  (src.readSample ("s3a://".toList ++ src.landingBucket ++ '/' :: s3Key)).map fun fields =>
    src.jsonValue (fields.map (technicalField cm src endpoint))

/-! ## The generator -/

/-- The publications of the configuration. -/
abbrev FmsPublications := Dict Str (List DescribedColumn)

/-- The endpoint of a key: its fourth segment. -/
def keyEndpoint (s3Key : Str) : Option Str :=
  match split '/' s3Key with
  | _ :: _ :: _ :: endpoint :: _ => some endpoint
  | _ => none

/-- Keep a CSV key as a sample, unless its endpoint has one under its domain. -/
def addSample (samples : Dict Str (Dict Str Str)) (s3Key : Str) : Dict Str (Dict Str Str) :=
  match split '/' s3Key with
  | _ :: _ :: domain :: endpoint :: _ =>
    if endsWith s3Key ".csv".toList then
      samples.alter domain fun endpoints =>
        (endpoints.getD ∅).alter endpoint fun sample => sample.getD s3Key
    else samples
  | _ => samples

/-- The samples by domain and endpoint: the first key of each. -/
def sampleKeys (s3Keys : List Str) : Dict Str (Dict Str Str) := s3Keys.foldl addSample ∅

/-- The samples in the order they are processed. -/
def samplesToProcess (s3Keys : List Str) : List (Str × Str) :=
  (sampleKeys s3Keys).values.flatMap Dict.items

/-- An endpoint without a publication. -/
structure EndpointNotFound where
  endpoint : Str
  deriving DecidableEq

/-- The message of the `EntsoeConfigurationError`. -/
def EndpointNotFound.message (e : EndpointNotFound) : Str :=
  "Endpoint '".toList ++ e.endpoint ++ ("' was not found in entsoe_fms_schemas.yml. " ++
    "Please add it to the schema registry configurations.").toList

omit cm src in
/-- The message names the endpoint. -/
lemma EndpointNotFound.endpoint_infix_message (e : EndpointNotFound) :
    e.endpoint <:+: e.message :=
  List.infix_append _ _ _

variable (publications : FmsPublications)

/-- The schema of a publication as it is registered. -/
def publicationSchema (endpoint : Str) : Option J :=
  (publications.get? endpoint).map fun columns =>
    src.jsonValue (buildSparkSchemaFromFms cm columns)

/-- What a sample registers. -/
def registeredBy (sample : Str × Str) : Option J :=
  if sample.1 ∈ technicalEndpoints then technicalSchema cm src sample.1 sample.2
  else publicationSchema cm src publications sample.1

/-- The samples, one after the other. A technical log that cannot be read is skipped. -/
def registerSamples : List (Str × Str) → Dict Str J → Except EndpointNotFound (Dict Str J)
  | [], registry => .ok registry
  | (endpoint, s3Key) :: rest, registry =>
    if endpoint ∈ technicalEndpoints then
      match technicalSchema cm src endpoint s3Key with
      | some schema => registerSamples rest (registry.set endpoint schema)
      | none => registerSamples rest registry
    else
      match publications.get? endpoint with
      | none => .error ⟨endpoint⟩
      | some columns =>
        registerSamples rest (registry.set endpoint
          (src.jsonValue (buildSparkSchemaFromFms cm columns)))

/-- The generator. -/
def runSchemaGeneration (s3Keys : List Str) : Except EndpointNotFound (Dict Str J) :=
  registerSamples cm src publications (samplesToProcess s3Keys) src.existing

/-- The registry after a sample that is registered, or skipped. -/
def register (registry : Dict Str J) (sample : Str × Str) : Dict Str J :=
  match registeredBy cm src publications sample with
  | some schema => registry.set sample.1 schema
  | none => registry

/-- The schema that an endpoint should have: that of its publication, and for a technical log the
last one that Spark inferred from its samples, or else the one of the registry file. -/
def endpointSchema (s3Keys : List Str) (endpoint : Str) : Option J :=
  if endpoint ∈ technicalEndpoints then
    (lastWrite (fun sample => if sample.1 = endpoint then
      technicalSchema cm src sample.1 sample.2 else none) (samplesToProcess s3Keys)).or
        (src.existing.get? endpoint)
  else publicationSchema cm src publications endpoint

end Generator

/-! ## What is registered -/

section Samples

/-- An endpoint has a sample. -/
def HasSample (samples : Dict Str (Dict Str Str)) (endpoint : Str) : Prop :=
  ∃ domain endpoints, samples.get? domain = some endpoints ∧ endpoint ∈ endpoints.keys

variable {samples : Dict Str (Dict Str Str)} {s3Key endpoint : Str} {s3Keys : List Str}

/-- A sample that is added is one of its endpoint. -/
lemma hasSample_alter {domain added : Str} :
    HasSample (samples.alter domain fun endpoints =>
        (endpoints.getD ∅).alter added fun sample => sample.getD s3Key) endpoint ↔
      HasSample samples endpoint ∨ added = endpoint := by
  constructor
  · rintro ⟨domain', endpoints, hget, hmem⟩
    by_cases hdomain : domain' = domain
    · subst hdomain
      rw [Dict.get?_alter_self, Option.some.injEq] at hget
      subst hget
      rcases Dict.mem_keys_alter.mp hmem with rfl | hmem
      · exact Or.inr rfl
      · cases hold : samples.get? domain' with
        | none =>
          rw [hold] at hmem
          cases hmem
        | some endpoints =>
          rw [hold] at hmem
          exact Or.inl ⟨domain', endpoints, hold, hmem⟩
    · rw [Dict.get?_alter_of_ne _ _ hdomain] at hget
      exact Or.inl ⟨domain', endpoints, hget, hmem⟩
  · rintro (⟨domain', endpoints, hget, hmem⟩ | rfl)
    · by_cases hdomain : domain' = domain
      · subst hdomain
        refine ⟨domain', _, Dict.get?_alter_self _ _ _, Dict.mem_keys_alter.mpr (Or.inr ?_)⟩
        rw [hget]
        exact hmem
      · exact ⟨domain', endpoints, (Dict.get?_alter_of_ne _ _ hdomain).trans hget, hmem⟩
    · exact ⟨domain, _, Dict.get?_alter_self _ _ _, Dict.mem_keys_alter.mpr (Or.inl rfl)⟩

/-- A key adds a sample for its endpoint when it is that of a `.csv` file. -/
lemma hasSample_addSample :
    HasSample (addSample samples s3Key) endpoint ↔ HasSample samples endpoint ∨
      (endsWith s3Key ".csv".toList = true ∧ keyEndpoint s3Key = some endpoint) := by
  unfold addSample keyEndpoint
  split
  · rename_i a b domain added rest hsplit
    simp only [Option.some.injEq]
    by_cases hcsv : endsWith s3Key ".csv".toList = true
    · rw [if_pos hcsv, hasSample_alter]
      simp only [hcsv, true_and]
    · rw [if_neg hcsv]
      simp only [hcsv, false_and, or_false, Bool.false_eq_true]
  · simp

/-- **The endpoints with a sample** are those of the CSV keys. -/
lemma mem_sampleKeys_iff : HasSample (sampleKeys s3Keys) endpoint ↔
    ∃ s3Key ∈ s3Keys, endsWith s3Key ".csv".toList = true ∧ keyEndpoint s3Key = some endpoint := by
  unfold sampleKeys
  induction s3Keys using List.reverseRecOn with
  | nil =>
    refine iff_of_false ?_ (by simp)
    rintro ⟨domain, endpoints, hget, -⟩
    cases hget
  | append_singleton s3Keys s3Key ih =>
    rw [List.foldl_append, List.foldl_cons, List.foldl_nil, hasSample_addSample, ih]
    simp only [List.mem_append, List.mem_singleton, or_and_right, exists_or, exists_eq_left]

/-- An endpoint is processed when one of the keys is a sample of it. -/
lemma exists_mem_samplesToProcess_iff :
    (∃ sample ∈ samplesToProcess s3Keys, sample.1 = endpoint) ↔
      HasSample (sampleKeys s3Keys) endpoint := by
  unfold samplesToProcess HasSample
  simp only [List.mem_flatMap, Dict.mem_values_iff]
  constructor
  · rintro ⟨⟨e, key⟩, ⟨endpoints, ⟨domain, hget⟩, hmem⟩, rfl⟩
    exact ⟨domain, endpoints, hget, List.mem_map_of_mem hmem⟩
  · rintro ⟨domain, endpoints, hget, hmem⟩
    obtain ⟨sample, hsample, rfl⟩ := List.mem_map.mp hmem
    exact ⟨sample, ⟨endpoints, ⟨domain, hget⟩, hsample⟩, rfl⟩

end Samples

section Registry

variable {J : Type*} {cm : CaseMap} {src : SchemaSources J} {publications : FmsPublications}
  {s3Keys : List Str} {endpoint : Str}

/-- The generator can register an endpoint: it is a technical log or a publication. -/
def Registrable (publications : FmsPublications) (endpoint : Str) : Prop :=
  endpoint ∈ technicalEndpoints ∨ endpoint ∈ publications.keys

/-- Samples can be registered when every endpoint has a publication, and then they are one after the
other. -/
lemma registerSamples_eq_ok_iff {samples : List (Str × Str)} {registry registry' : Dict Str J} :
    registerSamples cm src publications samples registry = .ok registry' ↔
      (∀ sample ∈ samples, Registrable publications sample.1) ∧
        samples.foldl (register cm src publications) registry = registry' := by
  induction samples generalizing registry with
  | nil => simp [registerSamples]
  | cons sample rest ih =>
    obtain ⟨endpoint, s3Key⟩ := sample
    rw [registerSamples, List.forall_mem_cons, List.foldl_cons, Registrable]
    by_cases htechnical : endpoint ∈ technicalEndpoints
    · have hregister : register cm src publications registry (endpoint, s3Key) =
          match technicalSchema cm src endpoint s3Key with
          | some schema => registry.set endpoint schema
          | none => registry := by
        unfold register registeredBy
        dsimp only
        rw [if_pos htechnical]
      rw [if_pos htechnical, hregister]
      cases technicalSchema cm src endpoint s3Key with
      | none => simpa [htechnical] using ih
      | some schema => simpa [htechnical] using ih
    · have hregister : register cm src publications registry (endpoint, s3Key) =
          match publicationSchema cm src publications endpoint with
          | some schema => registry.set endpoint schema
          | none => registry := by
        unfold register registeredBy
        dsimp only
        rw [if_neg htechnical]
      rw [if_neg htechnical, hregister, publicationSchema, Dict.mem_keys_iff]
      cases publications.get? endpoint with
      | none => simp [htechnical]
      | some columns => simpa [htechnical] using ih

/-- **When the generator raises.** The generator returns exactly when the endpoint of every CSV key
is a technical log or a publication. -/
theorem runSchemaGeneration_ok_iff :
    (∃ registry, runSchemaGeneration cm src publications s3Keys = .ok registry) ↔
      ∀ s3Key ∈ s3Keys, endsWith s3Key ".csv".toList = true → ∀ endpoint,
        keyEndpoint s3Key = some endpoint → Registrable publications endpoint := by
  unfold runSchemaGeneration
  simp only [registerSamples_eq_ok_iff, exists_and_left, exists_eq', and_true]
  constructor
  · intro h s3Key hkey hcsv endpoint hendpoint
    obtain ⟨sample, hsample, rfl⟩ := exists_mem_samplesToProcess_iff.mpr
      (mem_sampleKeys_iff.mpr ⟨s3Key, hkey, hcsv, hendpoint⟩)
    exact h sample hsample
  · intro h sample hsample
    obtain ⟨s3Key, hkey, hcsv, hendpoint⟩ :=
      mem_sampleKeys_iff.mp (exists_mem_samplesToProcess_iff.mp ⟨sample, hsample, rfl⟩)
    exact h s3Key hkey hcsv sample.1 hendpoint

/-- A sample changes the entry of its own endpoint only. -/
lemma get?_register (registry : Dict Str J) (sample : Str × Str) :
    (register cm src publications registry sample).get? endpoint =
      (if sample.1 = endpoint then registeredBy cm src publications sample else none).or
        (registry.get? endpoint) := by
  unfold register
  by_cases hendpoint : sample.1 = endpoint
  · subst hendpoint
    rw [if_pos rfl]
    cases registeredBy cm src publications sample with
    | none => rfl
    | some schema => exact Dict.get?_set_self _ _ _
  · rw [if_neg hendpoint]
    cases registeredBy cm src publications sample with
    | none => rfl
    | some schema => exact Dict.get?_set_of_ne _ _ (Ne.symm hendpoint)

/-- **The registered schemas.** When the generator returns, every endpoint with a sample has the
schema it should have.

**Proof sketch.** The last sample of the endpoint that registers a schema decides; all samples of a
publication register the same. -/
theorem get?_runSchemaGeneration {registry : Dict Str J}
    (hrun : runSchemaGeneration cm src publications s3Keys = .ok registry)
    (hsample : HasSample (sampleKeys s3Keys) endpoint) :
    registry.get? endpoint = endpointSchema cm src publications s3Keys endpoint := by
  obtain ⟨hall, rfl⟩ := registerSamples_eq_ok_iff.mp hrun
  have hread := @read_foldl _ _ _ (fun sample : Str × Str => if sample.1 = endpoint then
      registeredBy cm src publications sample else none) (register cm src publications)
    (fun registry => registry.get? endpoint) (samplesToProcess s3Keys)
    (fun sample _ registry => get?_register registry sample) src.existing
  refine hread.trans ?_
  unfold endpointSchema registeredBy
  by_cases htechnical : endpoint ∈ technicalEndpoints
  · rw [if_pos htechnical]
    congr 2
    funext sample
    by_cases hendpoint : sample.1 = endpoint
    · rw [if_pos hendpoint, if_pos hendpoint, if_pos (hendpoint ▸ htechnical)]
    · rw [if_neg hendpoint, if_neg hendpoint]
  · rw [if_neg htechnical]
    obtain ⟨sample, hmem, rfl⟩ := exists_mem_samplesToProcess_iff.mpr hsample
    obtain ⟨columns, hcolumns⟩ :=
      Dict.mem_keys_iff.mp ((hall sample hmem).resolve_left htechnical)
    have hschema : publicationSchema cm src publications sample.1 =
        some (src.jsonValue (buildSparkSchemaFromFms cm columns)) := by
      rw [publicationSchema, hcolumns]
      rfl
    have hlast := @lastWrite_eq_some_of_forall _ _ (fun other : Str × Str =>
      if other.1 = sample.1 then
        if other.1 ∈ technicalEndpoints then technicalSchema cm src other.1 other.2
        else publicationSchema cm src publications other.1
      else none) (samplesToProcess s3Keys) (src.jsonValue (buildSparkSchemaFromFms cm columns))
      ⟨sample, hmem, by simp [htechnical, hschema]⟩ (by
        intro other _ schema hwrite
        split_ifs at hwrite with hsame hother
        · exact absurd (hsame ▸ hother) htechnical
        · rw [hsame, hschema] at hwrite
          exact (Option.some.inj hwrite).symm)
    rw [hlast, hschema]
    rfl

end Registry

end EntsoePipeline
