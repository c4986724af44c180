import EntsoePipeline.Lakehouse.SchemaRegistry
import EntsoePipeline.Landing.GatewayCoverage

set_option relaxedAutoImplicit false
set_option autoImplicit false

/-!
# The schema registry and the gateway

The gateway resolves the folder of a key to a contract and knows minor revisions of a folder. The
generator of the schema registry looks the folder up as it is, and raises when it is not found, so
one folder with a minor revision leaves the registry without any schema.

## Main definitions

* `EntsoePipeline.ResolvesTo` — the gateway resolves a key to a contract.
* `EntsoePipeline.SchemasAgree` — the keys of contracts with an entry get the schemas of their
  contracts.

## Main results

* `EntsoePipeline.schemasAgree_iff` — when the two agree.
* `EntsoePipeline.runSchemaGeneration_minorRevision` — a minor revision ends the run.
* `EntsoePipeline.not_schemasAgree_minorRevision` — the gateway admits a key, and the generator
  raises for it.
-/

namespace EntsoePipeline

open Py

/-! ## Segments -/

/-- A text has one part more than separators. -/
lemma length_split (c : Char) (s : Str) : (split c s).length = s.count c + 1 := by
  induction s with
  | nil => rfl
  | cons x s ih =>
    have htail : (List.splitOn c s).length = s.count c + 1 := ih
    rw [split, List.splitOn_cons_eq_if_modifyHead, List.count_cons]
    split_ifs
    · rw [List.length_cons, htail]
    · rw [List.length_modifyHead, htail]

/-- A stripped text is a part of the text. -/
lemma strip_sublist (c : Char) (s : Str) : (strip c s).Sublist s :=
  (List.rdropWhile_prefix _ _).sublist.trans (List.dropWhile_suffix _).sublist

/-- A key with a folder segment for the gateway has an endpoint for the generator. -/
lemma exists_keyEndpoint {s3Key d folder : Str} (h : keySegments s3Key = some (d, folder)) :
    ∃ endpoint, keyEndpoint s3Key = some endpoint := by
  obtain ⟨a, b, rest, hsplit⟩ := keySegments_eq_some_iff.mp h
  have hstripped := length_split '/' (strip '/' s3Key)
  have hlength := length_split '/' s3Key
  have hcount := (strip_sublist '/' s3Key).count_le '/'
  rw [hsplit] at hstripped
  simp only [List.length_cons] at hstripped
  unfold keyEndpoint
  match hparts : split '/' s3Key with
  | _ :: _ :: _ :: endpoint :: _ => exact ⟨endpoint, rfl⟩
  | [] | [_] | [_, _] | [_, _, _] =>
    rw [hparts] at hlength
    simp only [List.length_cons, List.length_nil] at hlength
    omega

/-! ## Agreement -/

/-- The gateway resolves the key to the contract `n`. -/
def ResolvesTo (config : ClassifierConfig) (s3Key n : Str) : Prop :=
  n ≠ [] ∧ ∃ d folder, keySegments s3Key = some (d, folder) ∧
    resolveFmsName config d folder = some n

section Agreement

variable {J : Type*} (cm : CaseMap) (src : SchemaSources J) (publications : FmsPublications)
  (config : ClassifierConfig)

/-- Every CSV key that the gateway resolves to a contract with an entry is handled without raising,
and its endpoint is registered with the schema of the contract. -/
def SchemasAgree (s3Keys : List Str) : Prop :=
  ∀ s3Key ∈ s3Keys, endsWith s3Key ".csv".toList = true → ∀ n, ResolvesTo config s3Key n →
    n ∈ publications.keys →
      ∃ registry endpoint, runSchemaGeneration cm src publications s3Keys = .ok registry ∧
        keyEndpoint s3Key = some endpoint ∧
          registry.get? endpoint = endpointSchema cm src publications s3Keys n

/-- Every endpoint of a CSV key is a technical log or a publication. -/
def AllRegistrable (s3Keys : List Str) : Prop :=
  ∀ s3Key ∈ s3Keys, endsWith s3Key ".csv".toList = true → ∀ endpoint,
    keyEndpoint s3Key = some endpoint → Registrable publications endpoint

variable {cm src publications config}

/-- **When the registry and the gateway agree.** For all landed keys, the CSV keys that the gateway
resolves to a contract with an entry are handled without raising and registered with the schema of
their contract if and only if there is no such key, or every endpoint is a technical log or a
publication and those of such keys have the schema of their contract.

**Proof sketch.** The generator returns exactly when every endpoint can be registered, and then
each has the schema it should have. -/
theorem schemasAgree_iff (cm : CaseMap) (src : SchemaSources J) (publications : FmsPublications)
    (config : ClassifierConfig) (s3Keys : List Str) :
    SchemasAgree cm src publications config s3Keys ↔
      ∀ s3Key ∈ s3Keys, endsWith s3Key ".csv".toList = true → ∀ n, ResolvesTo config s3Key n →
        n ∈ publications.keys → AllRegistrable publications s3Keys ∧
          ∀ endpoint, keyEndpoint s3Key = some endpoint →
            endpointSchema cm src publications s3Keys endpoint =
              endpointSchema cm src publications s3Keys n := by
  refine forall₃_congr fun s3Key hkey hcsv => forall₃_congr fun n hresolves hentry => ?_
  constructor
  · rintro ⟨registry, endpoint, hrun, hendpoint, hschema⟩
    refine ⟨runSchemaGeneration_ok_iff.mp ⟨registry, hrun⟩, fun endpoint' hendpoint' => ?_⟩
    rw [hendpoint, Option.some.injEq] at hendpoint'
    subst hendpoint'
    rw [← get?_runSchemaGeneration hrun
      (mem_sampleKeys_iff.mpr ⟨s3Key, hkey, hcsv, hendpoint⟩), hschema]
  · rintro ⟨hall, hschema⟩
    obtain ⟨-, d, folder, hsegments, -⟩ := hresolves
    obtain ⟨endpoint, hendpoint⟩ := exists_keyEndpoint hsegments
    obtain ⟨registry, hrun⟩ := (@runSchemaGeneration_ok_iff _ cm src _ _).mpr hall
    refine ⟨registry, endpoint, hrun, hendpoint, ?_⟩
    rw [get?_runSchemaGeneration hrun
      (mem_sampleKeys_iff.mpr ⟨s3Key, hkey, hcsv, hendpoint⟩), hschema endpoint hendpoint]

/-- A folder with a minor revision that is no publication of its own ends the run, whatever the
other keys are. -/
lemma runSchemaGeneration_minorRevision {s3Keys : List Str} {s3Key n endpoint : Str}
    (hkey : s3Key ∈ s3Keys) (hcsv : endsWith s3Key ".csv".toList = true)
    (hendpoint : keyEndpoint s3Key = some endpoint) (hrevision : MinorRevision n endpoint)
    (hnew : endpoint ∉ publications.keys) (registry : Dict Str J) :
    runSchemaGeneration cm src publications s3Keys ≠ .ok registry := by
  intro hrun
  rcases runSchemaGeneration_ok_iff.mp ⟨registry, hrun⟩ s3Key hkey hcsv endpoint hendpoint with
    htechnical | hknown
  · -- the technical logs end in a letter, and a minor revision in a digit
    obtain ⟨digits, hne, hdigits, rfl⟩ := hrevision
    have hlast : (n ++ '.' :: digits).getLast? = digits.getLast? := by
      rw [List.getLast?_append_of_ne_nil _ (by simp), List.getLast?_cons_of_ne_nil hne]
    obtain ⟨ch, hch⟩ := Option.ne_none_iff_exists'.mp (mt List.getLast?_eq_none_iff.mp hne)
    have hdigit := hdigits ch (List.mem_of_getLast? hch)
    rw [hch] at hlast
    rcases List.mem_pair.mp htechnical with heq | heq
    · rw [heq] at hlast
      obtain rfl : 'v' = ch := Option.some.inj hlast
      exact absurd hdigit (by decide)
    · rw [heq] at hlast
      obtain rfl : 'v' = ch := Option.some.inj hlast
      exact absurd hdigit (by decide)
  · exact hnew hknown

end Agreement

/-! ### A minor revision -/

/-- Sources without any sample, where a schema is its own JSON value. -/
def bareSources : SchemaSources (List SparkField) where
  readSample _ := none
  sparkParse _ := none
  jsonValue := id
  overrides := ⟨∅, ∅⟩
  existing := ∅
  landingBucket := "landing".toList

/-- A file in a folder with a minor revision of a contract. -/
def revisedKey : Str := "iop/TP_export/Load/ActualTotalLoad_6.1.A_r3.1/2026_04.csv".toList

/-- The gateway resolves the key of a minor revision to its contract, and the generator raises. -/
theorem not_schemasAgree_minorRevision :
    ResolvesTo shippedClassifier revisedKey "ActualTotalLoad_6.1.A_r3".toList ∧
      ¬ SchemasAgree .ascii bareSources
        (Dict.ofList [("ActualTotalLoad_6.1.A_r3".toList, [])]) shippedClassifier [revisedKey] := by
  have hresolves : ResolvesTo shippedClassifier revisedKey "ActualTotalLoad_6.1.A_r3".toList :=
    ⟨by decide, "Load".toList, "ActualTotalLoad_6.1.A_r3.1".toList, by decide, by decide⟩
  have hrevision : MinorRevision "ActualTotalLoad_6.1.A_r3".toList
      "ActualTotalLoad_6.1.A_r3.1".toList := ⟨['1'], by simp, by simp, by decide +kernel⟩
  have hcsv : endsWith revisedKey ".csv".toList = true := by decide
  have hendpoint : keyEndpoint revisedKey = some "ActualTotalLoad_6.1.A_r3.1".toList := by
    decide +kernel
  refine ⟨hresolves, fun hagree => ?_⟩
  obtain ⟨registry, endpoint, hrun, -, -⟩ := hagree revisedKey (List.mem_singleton_self _)
    hcsv _ hresolves (by decide)
  exact runSchemaGeneration_minorRevision (List.mem_singleton_self _) hcsv hendpoint hrevision
    (by decide) registry hrun

end EntsoePipeline
