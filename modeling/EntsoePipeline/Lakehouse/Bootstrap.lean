import EntsoePipeline.Lakehouse.DomainTree
import EntsoePipeline.Lakehouse.ObjectStore

set_option relaxedAutoImplicit false
set_option autoImplicit false

/-!
# Preparing the object storage

Four jobs prepare the storage before data is moved: the initialisation of the buckets, the directory
tree of the checklist, and the readiness checks of the landing job and of the staging job. Each of
them can be run at any time and can break off at any call, and each completes what is missing.

## Main definitions

* `EntsoePipeline.ensureBucketExists`, `EntsoePipeline.verifyS3Readiness`,
  `EntsoePipeline.ensureAllBucketsExist` — the parts.
* `EntsoePipeline.BootJob`, `EntsoePipeline.BootJob.run` — the jobs.
* `EntsoePipeline.Touch` — what a call of a job can change.

## Main results

* `EntsoePipeline.touches_run` — all that a run changes, however it ends.
* `EntsoePipeline.framed_runAll` — what no job changes, whatever the network does.

## Implementation notes

What is read from the checklist, the schema table, the environment, the token endpoint and the
database is an input of a run. The configuration of the buckets is the same in all of them.
-/

namespace EntsoePipeline

open Py Recovery Simulation
open Relation (ReflTransGen)

/-! ## The code -/

/-- The names of the buckets and of the namespace. -/
structure InfraConfig where
  /-- The bucket of the landing zone. -/
  s3LandingBucket : Str
  /-- The bucket of the lakehouse. -/
  s3LakehouseBucket : Str
  /-- The table bucket. -/
  s3TableBucket : Str
  /-- The namespace of the staging tables. -/
  staging : Str

/-- What a run reads. -/
structure RunInputs where
  /-- The checklist, or why there is none. -/
  checklist : Except BootError Checklist
  /-- The paths of the landing schema. -/
  schemaFolders : Except BootError (List Str)
  /-- The active environment. -/
  activeEnv : Except BootError Str
  /-- The creation of a client for an environment. -/
  fmsReadiness : (envName : Str) → Except BootError Unit
  /-- The check of the database. -/
  dbReadiness : Except BootError Unit

section Code

variable (cm : CaseMap) (network : ℕ → Delivery) (cfg : InfraConfig)

/-- Create a bucket that does not exist. -/
def ensureBucketExists (bucketName : Str) : Program Infra BootError Unit :=
  tryCatch (headBucket network bucketName) fun
    | .clientError errorCode =>
      if errorCode = "404".toList ∨ errorCode = "NoSuchBucket".toList then
        tryCatch (createBucket network bucketName) fun createErr =>
          throw (.entsoeConnectionError
            ("Failed to create S3 bucket ".toList ++ bucketName ++ ": ".toList) createErr)
      else
        throw (.entsoeConnectionError
          ("Failed to check S3 bucket ".toList ++ bucketName ++ " presence: ".toList)
          (.clientError errorCode))
    | e => throw (.entsoeConnectionError "Connection to S3 compatible storage failed: ".toList e)

/-- Create a directory. -/
def putDirectory (bucketName key : Str) : Program Infra BootError Unit :=
  tryCatch (putObject network bucketName key []) fun e =>
    throw (.entsoeConnectionError
      ("Failed to create directory path ".toList ++ key ++ " in S3: ".toList) e)

/-- What the creation of the directory tree calls. -/
def treeCallees : TreeCallees Infra BootError where
  ensureBucketExists := (ensureBucketExists network cfg.s3LandingBucket).from
  putObject key := (putDirectory network cfg.s3LandingBucket key).from

/-- The directory tree of the checklist. -/
def generateTree (inputs : RunInputs) : Program Infra BootError Unit := do
  let checklist ← ofExcept inputs.checklist
  let schemaFolders ← ofExcept inputs.schemaFolders
  unlogged (generateTreeForMyEntsoeDomains cm (treeCallees network cfg) checklist schemaFolders)

/-- The object of the check. -/
def testKey : Str := "system_health_checks/seaweedfs_readiness.txt".toList

/-- What the check writes. -/
def testData : Str := "ready".toList

/-- The check that objects are written and read. -/
def verifyS3Readiness (bucketName : Str) : Program Infra BootError Unit := do
  putObject network bucketName testKey testData
  let retrievedData ← getObject network bucketName testKey
  deleteObject network bucketName testKey
  if retrievedData = testData then pure ()
  else throw (.valueError "Retrieved health check data does not match written data.".toList)

/-- An error response ends the process. -/
def exitOnClientError (p : Program Infra BootError Unit) : Program Infra BootError Unit :=
  tryCatch p fun
    | .clientError _ => throw (.systemExit 1)
    | e => throw e

/-- Every exception ends the process. -/
def exitOnException (p : Program Infra BootError Unit) : Program Infra BootError Unit :=
  tryCatch p fun _ => throw (.systemExit 1)

/-- The table bucket. That it exists is no failure. -/
def ensureS3TableBucketExists : Program Infra BootError Unit :=
  tryCatch (createTableBucket network cfg.s3TableBucket) fun
    | .httpError status => if status = 409 then pure () else throw (.httpError status)
    | e => throw e

/-- The namespace. That it exists is no failure. -/
def ensureIcebergNamespaceExists : Program Infra BootError Unit :=
  tryCatch (createNamespace network cfg.s3TableBucket cfg.staging) fun
    | .httpError status => if status = 409 then pure () else throw (.httpError status)
    | e => throw e

/-- Create a bucket on any error response to the question for it. -/
def createMissingBucket (bucketName : Str) : Program Infra BootError Unit :=
  tryCatch (headBucket network bucketName) fun
    | .clientError _ => createBucket network bucketName
    | e => throw e

/-- The two buckets. -/
def ensureAllBucketsExist : Program Infra BootError Unit := do
  createMissingBucket network cfg.s3LandingBucket
  createMissingBucket network cfg.s3LakehouseBucket

/-- The initialisation of the buckets. -/
def createBuckets : Program Infra BootError Unit := do
  ensureS3TableBucketExists network cfg
  ensureAllBucketsExist network cfg
  ensureIcebergNamespaceExists network cfg

/-- The readiness checks of the landing job. -/
def runIngestLandingPreflight (inputs : RunInputs) : Program Infra BootError Unit := do
  generateTree cm network cfg inputs
  exitOnClientError (headBucket network cfg.s3LandingBucket)
  exitOnClientError (headBucket network cfg.s3LakehouseBucket)
  exitOnException (verifyS3Readiness network cfg.s3LandingBucket)
  let activeEnv ← ofExcept inputs.activeEnv
  exitOnException (ofExcept (inputs.fmsReadiness activeEnv))
  exitOnException (ofExcept inputs.dbReadiness)

/-- The readiness checks of the staging job. -/
def runStagingPreflight (inputs : RunInputs) : Program Infra BootError Unit := do
  ensureS3TableBucketExists network cfg
  ensureIcebergNamespaceExists network cfg
  exitOnClientError (headBucket network cfg.s3LakehouseBucket)
  exitOnClientError (headBucket network cfg.s3LandingBucket)
  exitOnException (verifyS3Readiness network cfg.s3LandingBucket)
  exitOnException (ofExcept inputs.dbReadiness)
  let activeEnv ← ofExcept inputs.activeEnv
  exitOnException (ofExcept (inputs.fmsReadiness activeEnv))

/-- The jobs that prepare the storage. -/
inductive BootJob
  /-- The initialisation of the buckets. -/
  | createBuckets
  /-- The directory tree on its own. -/
  | generateTree (inputs : RunInputs)
  /-- The readiness checks of the landing job. -/
  | ingestLandingPreflight (inputs : RunInputs)
  /-- The readiness checks of the staging job. -/
  | stagingPreflight (inputs : RunInputs)

/-- A run of a job. -/
def BootJob.run : BootJob → Program Infra BootError Unit
  | .createBuckets => EntsoePipeline.createBuckets network cfg
  | .generateTree inputs => EntsoePipeline.generateTree cm network cfg inputs
  | .ingestLandingPreflight inputs => runIngestLandingPreflight cm network cfg inputs
  | .stagingPreflight inputs => runStagingPreflight network cfg inputs

/-- The keys of the directories that a run creates. -/
def RunInputs.directories (inputs : RunInputs) : List Str :=
  match inputs.checklist, inputs.schemaFolders with
  | .ok checklist, .ok schemaFolders =>
    (targetFolders (getActiveFolders cm checklist) schemaFolders).map directoryKey
  | _, _ => []

/-- The keys of the directories that a job creates. -/
def BootJob.directories : BootJob → List Str
  | .generateTree inputs | .ingestLandingPreflight inputs => inputs.directories cm
  | .createBuckets | .stagingPreflight _ => []

end Code

/-! ## What a call of a job can change -/

section Touch

variable (cfg : InfraConfig) (dirs : List Str)

/-- The changes: a missing bucket is created empty, a directory is written, the object of the check
is written or removed, and the table bucket and the namespace are added. -/
inductive Touch : Storage → Storage → Prop
  | bucket {s : Storage} {name : Str}
    (hname : name = cfg.s3LandingBucket ∨ name = cfg.s3LakehouseBucket)
      (h : s.buckets name = none) : Touch s (s.setBucket name fun _ => none)
  | directory {s : Storage} {objects : Str → Option Str} {key : Str}
      (h : s.buckets cfg.s3LandingBucket = some objects) (hkey : key ∈ dirs) :
      Touch s (s.setBucket cfg.s3LandingBucket (Function.update objects key (some [])))
  | check {s : Storage} {objects : Str → Option Str}
      (h : s.buckets cfg.s3LandingBucket = some objects) (body : Option Str) :
      Touch s (s.setBucket cfg.s3LandingBucket (Function.update objects testKey body))
  | tableBucket {s : Storage} :
      Touch s { s with tableBuckets := insert cfg.s3TableBucket s.tableBuckets }
  | icebergNamespace {s : Storage} :
      Touch s { s with namespaces := insert (cfg.s3TableBucket, cfg.staging) s.namespaces }

end Touch

section Moves

variable {cm : CaseMap} {network : ℕ → Delivery} {cfg : InfraConfig} {dirs : List Str}

/-- All that a program changes are such changes. -/
abbrev Touches {α : Type} (cfg : InfraConfig) (dirs : List Str) (p : Program Infra BootError α) :
    Prop :=
  Moves Infra.storage (Touch cfg dirs) p

/-- The look at a bucket changes nothing. -/
lemma touches_headBucket (bucketName : Str) : Touches cfg dirs (headBucket network bucketName) := by
  refine moves_serve fun s => ?_
  cases s.buckets bucketName <;> exact .refl

/-- The read of an object changes nothing. -/
lemma touches_getObject (bucketName key : Str) :
    Touches cfg dirs (getObject network bucketName key) := by
  refine moves_serve fun s => ?_
  cases s.buckets bucketName with
  | none => exact .refl
  | some objects => cases hkey : objects key <;> simp only [hkey] <;> exact .refl

/-- The creation of a configured bucket touches nothing else. -/
lemma touches_createBucket {bucketName : Str}
    (hname : bucketName = cfg.s3LandingBucket ∨ bucketName = cfg.s3LakehouseBucket) :
    Touches cfg dirs (createBucket network bucketName) := by
  refine moves_serve fun s => ?_
  cases hbucket : s.buckets bucketName with
  | none => exact .single (.bucket hname hbucket)
  | some objects => exact .refl

/-- The creation of a directory touches nothing else. -/
lemma touches_putDirectory {key : Str} (hkey : key ∈ dirs) :
    Touches cfg dirs (putDirectory network cfg.s3LandingBucket key) := by
  refine Moves.tryCatch (moves_serve fun s => ?_) fun e => moves_throw _
  cases hbucket : s.buckets cfg.s3LandingBucket with
  | none => exact .refl
  | some objects => exact .single (.directory hbucket hkey)

/-- A step of the storage check touches the test object only. -/
lemma touches_check (body : Option Str) (op : Storage → Except BootError Unit × Storage)
    (hop : ∀ s, (op s).2 = match s.buckets cfg.s3LandingBucket with
      | some objects => s.setBucket cfg.s3LandingBucket (Function.update objects testKey body)
      | none => s) : Touches cfg dirs (serve network Refusal.toClientError op) := by
  refine moves_serve fun s => ?_
  rw [hop]
  cases hbucket : s.buckets cfg.s3LandingBucket with
  | none => exact .refl
  | some objects => exact .single (.check hbucket body)

/-- What ensures a configured bucket touches nothing else. -/
lemma touches_ensureBucketExists {bucketName : Str}
    (hname : bucketName = cfg.s3LandingBucket ∨ bucketName = cfg.s3LakehouseBucket) :
    Touches cfg dirs (ensureBucketExists network bucketName) := by
  refine (touches_headBucket bucketName).tryCatch fun e => ?_
  cases e with
  | clientError errorCode =>
    dsimp only
    split_ifs
    · exact (touches_createBucket hname).tryCatch fun e => moves_throw _
    · exact moves_throw _
  | _ => exact moves_throw _

/-- The creation of a missing configured bucket touches nothing else. -/
lemma touches_createMissingBucket {bucketName : Str}
    (hname : bucketName = cfg.s3LandingBucket ∨ bucketName = cfg.s3LakehouseBucket) :
    Touches cfg dirs (createMissingBucket network bucketName) := by
  refine (touches_headBucket bucketName).tryCatch fun e => ?_
  cases e with
  | clientError errorCode => exact touches_createBucket hname
  | _ => exact moves_throw _

/-- The creation of directories touches nothing else. -/
lemma touches_createDirectories {folders : List Str}
    (h : ∀ folder ∈ folders, directoryKey folder ∈ dirs) :
    Moves (fun run : EventLog.Run Infra Str => run.world.storage) (Touch cfg dirs)
      (createDirectories (treeCallees network cfg) folders) := by
  induction folders with
  | nil => exact moves_pure ()
  | cons folder folders ih =>
    rw [List.forall_mem_cons] at h
    refine Moves.bind (fun run => touches_putDirectory h.1 run.world) fun _ => ?_
    exact Moves.bind (fun run => .refl) fun _ => ih h.2

/-- The directory tree touches nothing but its directories. -/
lemma touches_generateTree {inputs : RunInputs} (h : ∀ key ∈ inputs.directories cm, key ∈ dirs) :
    Touches cfg dirs (generateTree cm network cfg inputs) := by
  unfold RunInputs.directories at h
  refine moves_ofExcept_bind fun checklist hchecklist =>
    moves_ofExcept_bind fun schemaFolders hschema => moves_unlogged ?_
  rw [hchecklist, hschema] at h
  refine Moves.bind (fun run => touches_ensureBucketExists (Or.inl rfl) run.world) fun _ => ?_
  exact touches_createDirectories fun folder hfolder => h _ (List.mem_map_of_mem hfolder)

/-- The storage check touches the test object only. -/
lemma touches_verifyS3Readiness :
    Touches cfg dirs (verifyS3Readiness network cfg.s3LandingBucket) := by
  refine (touches_check (some testData) _ fun s => ?_).bind fun _ =>
    (touches_getObject _ _).bind fun retrievedData =>
      (touches_check none _ fun s => ?_).bind fun _ => ?_
  · cases s.buckets cfg.s3LandingBucket <;> rfl
  · cases s.buckets cfg.s3LandingBucket <;> rfl
  · split_ifs
    · exact moves_pure ()
    · exact moves_throw _

/-- An exit on an error of the client moves the storage as the program does. -/
lemma moves_exitOnClientError {R : Storage → Storage → Prop} {p : Program Infra BootError Unit}
    (hp : Moves Infra.storage R p) : Moves Infra.storage R (exitOnClientError p) :=
  hp.tryCatch fun e => by cases e <;> exact moves_throw _

/-- An exit on an exception moves the storage as the program does. -/
lemma moves_exitOnException {R : Storage → Storage → Prop} {p : Program Infra BootError Unit}
    (hp : Moves Infra.storage R p) : Moves Infra.storage R (exitOnException p) :=
  hp.tryCatch fun _ => moves_throw _

/-- What ensures the table bucket touches nothing else. -/
lemma touches_ensureS3TableBucketExists :
    Touches cfg dirs (ensureS3TableBucketExists network cfg) := by
  refine Moves.tryCatch (moves_serve fun s => ?_) fun e => ?_
  · by_cases hbucket : cfg.s3TableBucket ∈ s.tableBuckets
    · rw [if_pos hbucket]
    · rw [if_neg hbucket]
      exact .single .tableBucket
  · cases e with
    | httpError status =>
      dsimp only
      split_ifs
      · exact moves_pure ()
      · exact moves_throw _
    | _ => exact moves_throw _

/-- What ensures the namespace touches nothing else. -/
lemma touches_ensureIcebergNamespaceExists :
    Touches cfg dirs (ensureIcebergNamespaceExists network cfg) := by
  refine Moves.tryCatch (moves_serve fun s => ?_) fun e => ?_
  · by_cases hbucket : cfg.s3TableBucket ∉ s.tableBuckets
    · rw [if_pos hbucket]
    · rw [if_neg hbucket]
      by_cases hnamespace : (cfg.s3TableBucket, cfg.staging) ∈ s.namespaces
      · rw [if_pos hnamespace]
      · rw [if_neg hnamespace]
        exact .single .icebergNamespace
  · cases e with
    | httpError status =>
      dsimp only
      split_ifs
      · exact moves_pure ()
      · exact moves_throw _
    | _ => exact moves_throw _

/-- **The changes of a run.** However a run of a job ends, all that it changed are changes of this
kind. -/
lemma touches_run {job : BootJob} (h : ∀ key ∈ job.directories cm, key ∈ dirs) :
    Touches cfg dirs (job.run cm network cfg) := by
  cases job with
  | createBuckets =>
    refine touches_ensureS3TableBucketExists.bind fun _ => ?_
    refine Moves.bind ?_ fun _ => touches_ensureIcebergNamespaceExists
    exact (touches_createMissingBucket (Or.inl rfl)).bind fun _ =>
      touches_createMissingBucket (Or.inr rfl)
  | generateTree inputs => exact touches_generateTree h
  | ingestLandingPreflight inputs =>
    refine (touches_generateTree h).bind fun _ => ?_
    refine (moves_exitOnClientError (touches_headBucket _)).bind fun _ => ?_
    refine (moves_exitOnClientError (touches_headBucket _)).bind fun _ => ?_
    refine (moves_exitOnException touches_verifyS3Readiness).bind fun _ => ?_
    refine (moves_ofExcept _).bind fun activeEnv => ?_
    exact (moves_exitOnException (moves_ofExcept _)).bind fun _ =>
      moves_exitOnException (moves_ofExcept _)
  | stagingPreflight inputs =>
    refine touches_ensureS3TableBucketExists.bind fun _ => ?_
    refine touches_ensureIcebergNamespaceExists.bind fun _ => ?_
    refine (moves_exitOnClientError (touches_headBucket _)).bind fun _ => ?_
    refine (moves_exitOnClientError (touches_headBucket _)).bind fun _ => ?_
    refine (moves_exitOnException touches_verifyS3Readiness).bind fun _ => ?_
    refine (moves_exitOnException (moves_ofExcept _)).bind fun _ => ?_
    exact (moves_ofExcept _).bind fun activeEnv => moves_exitOnException (moves_ofExcept _)

end Moves

/-! ## What no job changes -/

section Frame

variable {cfg : InfraConfig} {dirs : List Str}

/-- What is the same behind a run: no bucket is gone, buckets of other names are as they were, and
so are all objects but the directories and the object of the check. -/
structure Framed (cfg : InfraConfig) (dirs : List Str) (before after : Storage) : Prop where
  exists_of_exists : ∀ name, (before.buckets name).isSome → (after.buckets name).isSome
  others : ∀ name, name ≠ cfg.s3LandingBucket → name ≠ cfg.s3LakehouseBucket →
    after.buckets name = before.buckets name
  objects : ∀ name key, after.object name key ≠ before.object name key →
    name = cfg.s3LandingBucket ∧ (key = testKey ∨ key ∈ dirs ∧ after.object name key = some [])
  tableBuckets : before.tableBuckets ⊆ after.tableBuckets ∧
    after.tableBuckets ⊆ insert cfg.s3TableBucket before.tableBuckets
  namespaces : before.namespaces ⊆ after.namespaces ∧
    after.namespaces ⊆ insert (cfg.s3TableBucket, cfg.staging) before.namespaces

/-- A storage is framed by itself. -/
lemma framed_refl (s : Storage) : Framed cfg dirs s s where
  exists_of_exists _ h := h
  others _ _ _ := rfl
  objects _ _ h := absurd rfl h
  tableBuckets := ⟨Finset.Subset.refl _, Finset.subset_insert _ _⟩
  namespaces := ⟨Finset.Subset.refl _, Finset.subset_insert _ _⟩

/-- A bucket is given other objects, which differ in one key. -/
lemma Framed.setBucket {before s : Storage} (h : Framed cfg dirs before s)
    {name : Str} (hname : name = cfg.s3LandingBucket ∨ name = cfg.s3LakehouseBucket)
    {objects : Str → Option Str}
    (hobjects : ∀ key, objects key ≠ s.object name key →
      name = cfg.s3LandingBucket ∧ (key = testKey ∨ key ∈ dirs ∧ objects key = some [])) :
    Framed cfg dirs before (s.setBucket name objects) where
  exists_of_exists name' hbefore := by
    by_cases heq : name' = name
    · rw [heq, Storage.buckets_setBucket_self]
      rfl
    · rw [Storage.buckets_setBucket_of_ne heq]
      exact h.exists_of_exists name' hbefore
  others name' hlanding hlakehouse := by
    rw [Storage.buckets_setBucket_of_ne, h.others name' hlanding hlakehouse]
    rintro rfl
    exact hname.elim hlanding hlakehouse
  objects name' key hne := by
    by_cases heq : name' = name
    · subst heq
      rw [Storage.object_of_bucket (Storage.buckets_setBucket_self ..)] at hne ⊢
      by_cases hsame : objects key = s.object name' key
      · rw [hsame] at hne ⊢
        exact h.objects name' key hne
      · exact hobjects key hsame
    · have hbucket : (s.setBucket name objects).object name' key = s.object name' key := by
        rw [Storage.object, Storage.buckets_setBucket_of_ne heq, Storage.object]
      rw [hbucket] at hne ⊢
      exact h.objects name' key hne
  tableBuckets := h.tableBuckets
  namespaces := h.namespaces

/-- No change leaves the frame. -/
lemma stable_framed (before : Storage) : Stable (Touch cfg dirs) (Framed cfg dirs before) := by
  rintro s s' htouch h
  cases htouch with
  | @bucket name hname hnone =>
    refine h.setBucket hname fun key hne => absurd ?_ hne
    rw [Storage.object, hnone, Option.bind_none]
  | @directory objects key hlanding hkey =>
    refine h.setBucket (Or.inl rfl) fun key' hne => ⟨rfl, Or.inr ?_⟩
    rw [Storage.object_of_bucket hlanding] at hne
    by_cases heq : key' = key
    · subst heq
      exact ⟨hkey, Function.update_self ..⟩
    · exact absurd (Function.update_of_ne heq ..) hne
  | @check objects hlanding body =>
    refine h.setBucket (Or.inl rfl) fun key' hne => ⟨rfl, Or.inl ?_⟩
    rw [Storage.object_of_bucket hlanding] at hne
    by_contra heq
    exact hne (Function.update_of_ne heq ..)
  | tableBucket =>
    exact { h with
      tableBuckets := ⟨h.tableBuckets.1.trans (Finset.subset_insert _ _),
        Finset.insert_subset (Finset.mem_insert_self _ _) h.tableBuckets.2⟩ }
  | icebergNamespace =>
    exact { h with
      namespaces := ⟨h.namespaces.1.trans (Finset.subset_insert _ _),
        Finset.insert_subset (Finset.mem_insert_self _ _) h.namespaces.2⟩ }

/-- **What no job changes.** Jobs run one after another, each of them breaks off wherever the
network makes it, and none of them touches more than the directories of its checklist, the object of
the check, and what it creates. In particular no file of the landing zone or of the lakehouse
changes.

**Proof sketch.** All changes of a run are of a few kinds, and each of them stays in the frame. -/
theorem framed_runAll (cm : CaseMap) (network : ℕ → Delivery) (cfg : InfraConfig)
    (jobs : List BootJob) (w : Infra) :
    Framed cfg (jobs.flatMap (BootJob.directories cm)) w.storage
      (runAll (BootJob.run cm network cfg) jobs w).2.storage := by
  refine (stable_framed w.storage).run (moves_runAll (fun job hjob => ?_) w) (framed_refl _)
  exact touches_run fun key hkey => List.mem_flatMap.mpr ⟨job, hjob, hkey⟩

end Frame

end EntsoePipeline
