import EntsoePipeline.Lakehouse.Bootstrap

set_option relaxedAutoImplicit false
set_option autoImplicit false

/-!
# What the preparation of the storage leads to

The jobs that prepare the storage complete what is missing, and what one of them completes the
others keep. So it does not matter where earlier runs broke off: once the checks have passed, the
storage is the one that an undisturbed preparation leaves.

## Main definitions

* `EntsoePipeline.Storage.provisioned` — the storage when nothing is missing.
* `EntsoePipeline.Storage.LandingReady`, `EntsoePipeline.Storage.TablesReady`,
  `EntsoePipeline.Storage.Created` — what passing jobs leave.
* `EntsoePipeline.BootJob.Ready` — the inputs of a job are there.

## Main results

* `EntsoePipeline.stored_tree_matches_sync` — the directories in the storage are those that the sync
  fills.
* `EntsoePipeline.provisioned_of_passed` — after a passing landing check and a passing staging
  check the storage is that of an undisturbed preparation.
* `EntsoePipeline.passed_of_created` — behind the initialisation of the buckets all jobs pass when
  nothing is disturbed.
-/

namespace EntsoePipeline

open Py Recovery Simulation

/-! ## What the jobs complete -/

section Complete

variable {cm : CaseMap} {network : ℕ → Delivery} {cfg : InfraConfig} {dirs : List Str}
  {s s' : Storage}

/-- The storage when nothing is missing: the two buckets, the directories, the table bucket and the
namespace are there, and the object of the check is not. -/
def Storage.provisioned (cfg : InfraConfig) (dirs : List Str) (s : Storage) : Storage where
  buckets name :=
    if name = cfg.s3LandingBucket then
      some fun key =>
        if key = testKey then none else if key ∈ dirs then some [] else s.object name key
    else if name = cfg.s3LakehouseBucket then some (s.object name)
    else s.buckets name
  tableBuckets := insert cfg.s3TableBucket s.tableBuckets
  namespaces := insert (cfg.s3TableBucket, cfg.staging) s.namespaces

/-- What no job changes decides what the jobs lead to. -/
lemma Framed.provisioned_eq (h : Framed cfg dirs s s') :
    s'.provisioned cfg dirs = s.provisioned cfg dirs := by
  have hobject : ∀ name key, (name = cfg.s3LandingBucket → key ≠ testKey ∧ key ∉ dirs) →
      s'.object name key = s.object name key := by
    intro name key hother
    by_contra hne
    obtain ⟨hname, hkey | ⟨hkey, -⟩⟩ := h.objects name key hne
    · exact (hother hname).1 hkey
    · exact (hother hname).2 hkey
  unfold Storage.provisioned
  congr 1
  · funext name
    split_ifs with hlanding hlakehouse
    · congr 1
      funext key
      split_ifs with htest hdir
      · rfl
      · rfl
      · exact hobject name key fun _ => ⟨htest, hdir⟩
    · congr 1
      funext key
      exact hobject name key fun hname => absurd hname hlanding
    · exact h.others name hlanding hlakehouse
  · refine subset_antisymm ?_ (Finset.insert_subset_insert _ h.tableBuckets.1)
    exact Finset.insert_subset (Finset.mem_insert_self _ _) h.tableBuckets.2
  · refine subset_antisymm ?_ (Finset.insert_subset_insert _ h.namespaces.1)
    exact Finset.insert_subset (Finset.mem_insert_self _ _) h.namespaces.2

/-- The bucket is there. -/
def Storage.HasBucket (name : Str) (s : Storage) : Prop := (s.buckets name).isSome

/-- The directories are there. -/
def Storage.HasDirectories (cfg : InfraConfig) (keys : List Str) (s : Storage) : Prop :=
  ∀ key ∈ keys, s.object cfg.s3LandingBucket key = some []

/-- The table bucket is there. -/
def Storage.HasTableBucket (cfg : InfraConfig) (s : Storage) : Prop :=
  cfg.s3TableBucket ∈ s.tableBuckets

/-- The namespace is there. -/
def Storage.HasNamespace (cfg : InfraConfig) (s : Storage) : Prop :=
  (cfg.s3TableBucket, cfg.staging) ∈ s.namespaces

/-- Nothing is missing in a storage that has all of it. -/
lemma provisioned_eq_self (hlanding : s.HasBucket cfg.s3LandingBucket)
    (hlakehouse : s.HasBucket cfg.s3LakehouseBucket) (hdirs : s.HasDirectories cfg dirs)
    (htable : s.HasTableBucket cfg) (hnamespace : s.HasNamespace cfg)
    (hcheck : s.object cfg.s3LandingBucket testKey = none) : s.provisioned cfg dirs = s := by
  have hbucket : ∀ name, s.HasBucket name → s.buckets name = some (s.object name) := by
    intro name hname
    obtain ⟨objects, hobjects⟩ := Option.isSome_iff_exists.mp hname
    rw [hobjects, Option.some_inj]
    funext key
    exact (Storage.object_of_bucket hobjects key).symm
  obtain ⟨buckets, tableBuckets, namespaces⟩ := s
  unfold Storage.provisioned
  congr 1
  · funext name
    split_ifs with hname hname'
    · subst hname
      refine Eq.trans ?_ (hbucket _ hlanding).symm
      congr 1
      funext key
      split_ifs with htest hdir
      · rw [htest, hcheck]
      · exact (hdirs key hdir).symm
      · rfl
    · subst hname'
      exact (hbucket _ hlakehouse).symm
    · rfl
  · exact Finset.insert_eq_self.mpr htable
  · exact Finset.insert_eq_self.mpr hnamespace

/-! ### What stays -/

/-- A directory is not the test object. -/
lemma directoryKey_ne_testKey (folder : Str) : directoryKey folder ≠ testKey := by
  intro heq
  have hlast := congrArg List.getLast? heq
  rw [directoryKey, List.getLast?_concat] at hlast
  revert hlast
  decide

/-- No directory of a job is the test object. -/
lemma ne_testKey_of_mem_directories {inputs : RunInputs} {key : Str}
    (h : key ∈ inputs.directories cm) : key ≠ testKey := by
  unfold RunInputs.directories at h
  split at h
  · obtain ⟨folder, -, rfl⟩ := List.mem_map.mp h
    exact directoryKey_ne_testKey folder
  · exact absurd h List.not_mem_nil

/-- A touch changes nothing but what jobs may change. -/
lemma framed_of_touch (h : Touch cfg dirs s s') : Framed cfg dirs s s' :=
  stable_framed s s s' h (framed_refl s)

/-- A bucket that is there stays. -/
lemma stable_hasBucket (name : Str) : Stable (Touch cfg dirs) (Storage.HasBucket name) :=
  fun _ _ htouch h => (framed_of_touch htouch).exists_of_exists name h

/-- Directories that are there stay. -/
lemma stable_hasDirectories {keys : List Str} (hkeys : ∀ key ∈ keys, key ≠ testKey) :
    Stable (Touch cfg dirs) (Storage.HasDirectories cfg keys) := by
  intro s s' htouch h key hkey
  by_contra hne
  rw [← h key hkey] at hne
  obtain ⟨-, htest | ⟨-, hempty⟩⟩ := (framed_of_touch htouch).objects _ _ hne
  · exact hkeys key hkey htest
  · exact hne (hempty.trans (h key hkey).symm)

/-- A table bucket that is there stays. -/
lemma stable_hasTableBucket : Stable (Touch cfg dirs) (Storage.HasTableBucket cfg) :=
  fun _ _ htouch h => (framed_of_touch htouch).tableBuckets.1 h

/-- A namespace that is there stays. -/
lemma stable_hasNamespace : Stable (Touch cfg dirs) (Storage.HasNamespace cfg) :=
  fun _ _ htouch h => (framed_of_touch htouch).namespaces.1 h

/-! ### What passing runs leave -/

/-- A look at a bucket that succeeds has found it. -/
lemma leaves_headBucket (bucketName : Str) :
    Leaves (fun _ => True) (headBucket network bucketName)
      fun _ w => w.storage.HasBucket bucketName := by
  refine leaves_serve (P := fun _ => True) fun s _ a hok => ?_
  cases hbucket : s.buckets bucketName with
  | none =>
    rw [hbucket] at hok
    cases hok
  | some objects =>
    simp only
    rw [Storage.HasBucket, hbucket]
    rfl

/-- A bucket that exists. -/
lemma leaves_putObject (bucketName key body : Str) :
    Leaves (fun _ => True) (putObject network bucketName key body)
      fun _ w => w.storage.object bucketName key = some body := by
  refine leaves_serve (P := fun _ => True) (Q := fun _ s => s.object bucketName key = some body)
    fun s _ a hok => ?_
  cases hbucket : s.buckets bucketName with
  | none =>
    rw [hbucket] at hok
    cases hok
  | some objects =>
    simp only
    rw [Storage.object_of_bucket (Storage.buckets_setBucket_self ..), Function.update_self]

/-- An object that was deleted is not there. -/
lemma leaves_deleteObject (bucketName key : Str) :
    Leaves (fun _ => True) (deleteObject network bucketName key)
      fun _ w => w.storage.object bucketName key = none := by
  refine leaves_serve (P := fun _ => True) (Q := fun _ s => s.object bucketName key = none)
    fun s _ a hok => ?_
  cases hbucket : s.buckets bucketName with
  | none =>
    rw [hbucket] at hok
    cases hok
  | some objects =>
    simp only
    rw [Storage.object_of_bucket (Storage.buckets_setBucket_self ..), Function.update_self]

/-- What a program leaves is there when it did not exit on an error of the client. -/
lemma leaves_exitOnClientError {p : Program Infra BootError Unit} {Q : Unit → Infra → Prop}
    (hp : Leaves (fun _ => True) p Q) : Leaves (fun _ => True) (exitOnClientError p) Q :=
  hp.tryCatch fun e => by cases e <;> exact leaves_throw _

/-- What a program leaves is there when it did not exit on an exception. -/
lemma leaves_exitOnException {p : Program Infra BootError Unit} {Q : Unit → Infra → Prop}
    (hp : Leaves (fun _ => True) p Q) : Leaves (fun _ => True) (exitOnException p) Q :=
  hp.tryCatch fun _ => leaves_throw _

/-- A passing check has removed its object. -/
lemma leaves_verifyS3Readiness (bucketName : Str) :
    Leaves (fun _ => True) (verifyS3Readiness network bucketName)
      fun _ w => w.storage.object bucketName testKey = none := by
  refine Leaves.after fun _ => Leaves.after fun retrievedData =>
    (leaves_deleteObject bucketName testKey).bind fun _ => ?_
  split_ifs
  · exact leaves_pure fun _ h => h
  · exact leaves_throw _

/-- The directories are there when their creation has returned. -/
lemma leaves_createDirectories {folders : List Str}
    (h : ∀ folder ∈ folders, directoryKey folder ∈ dirs) :
    Leaves (fun _ => True) (createDirectories (treeCallees network cfg) folders)
      fun _ run => run.world.storage.HasDirectories cfg (folders.map directoryKey) := by
  induction folders with
  | nil => exact leaves_pure fun _ _ key hkey => absurd hkey List.not_mem_nil
  | cons folder folders ih =>
    rw [List.forall_mem_cons] at h
    have hput : Leaves (fun _ => True)
        (EventLog.call ((treeCallees network cfg).putObject (directoryKey folder)) :
          Program (EventLog.Run Infra Str) BootError Unit)
        fun _ run => run.world.storage.HasDirectories cfg [directoryKey folder] := by
      rintro run - a run' hrun
      obtain ⟨hok, rfl⟩ := Prod.mk.inj hrun
      have hleaves : Leaves (fun _ => True)
          (putDirectory network cfg.s3LandingBucket (directoryKey folder))
          fun _ w => w.storage.object cfg.s3LandingBucket (directoryKey folder) = some [] :=
        (leaves_putObject cfg.s3LandingBucket (directoryKey folder) []).tryCatch
          fun _ => leaves_throw _
      intro key hkey
      obtain rfl := List.mem_singleton.mp hkey
      exact hleaves run.world trivial a _ (Prod.ext hok rfl)
    have hstable : Stable (Touch cfg dirs) (Storage.HasDirectories cfg [directoryKey folder]) :=
      stable_hasDirectories fun key hkey =>
        List.mem_singleton.mp hkey ▸ directoryKey_ne_testKey folder
    have hemit : Leaves (fun run => run.world.storage.HasDirectories cfg [directoryKey folder])
        (EventLog.emit (directoryKey folder) : Program (EventLog.Run Infra Str) BootError Unit)
        fun _ run => run.world.storage.HasDirectories cfg [directoryKey folder] := by
      rintro run hrun a run' hresult
      obtain ⟨-, rfl⟩ := Prod.mk.inj hresult
      exact hrun
    have hrest := (ih h.2).gain (touches_createDirectories h.2) hstable
    refine (hput.bind fun _ => hemit.bind fun _ => hrest).mono fun _ run hrun => ?_
    rw [List.map_cons, Storage.HasDirectories, List.forall_mem_cons]
    exact ⟨hrun.1 _ List.mem_cons_self, hrun.2⟩

/-- The directories of a job are there when the tree was generated. -/
lemma leaves_generateTree (inputs : RunInputs) :
    Leaves (fun _ => True) (generateTree cm network cfg inputs)
      fun _ w => w.storage.HasDirectories cfg (inputs.directories cm) := by
  unfold RunInputs.directories
  refine leaves_ofExcept_bind fun checklist hchecklist =>
    leaves_ofExcept_bind fun schemaFolders hschema => leaves_unlogged ?_
  rw [hchecklist, hschema]
  exact Leaves.after fun _ => leaves_createDirectories fun folder hfolder =>
    List.mem_map_of_mem hfolder

/-- **The stored directories are what the sync fills.** Whatever the network does, an object that
the creation of the tree changes is the empty object of a directory that the sync fills. When the
creation returns, all these directories are stored. -/
theorem stored_tree_matches_sync (cm : CaseMap) (network : ℕ → Delivery) (cfg : InfraConfig)
    {inputs : RunInputs} {checklist : Checklist} {schemaFolders : List Str}
    (hchecklist : inputs.checklist = .ok checklist)
    (hschemaFolders : inputs.schemaFolders = .ok schemaFolders)
    (hkeys : (checklist.keys.map cm.upper).Nodup) (hschema : LandingSchema schemaFolders)
    (w : Infra) :
    ∃ mappings : Str → List Mapping,
      (∀ env ∈ checklist.keys, resolveTargetMappings cm env
        (extractActiveFolders cm env checklist) schemaFolders = .ok (mappings env)) ∧
      ∀ result w', (generateTree cm network cfg inputs).from w = (result, w') →
        (∀ name key, key ≠ testKey → w'.storage.object name key ≠ w.storage.object name key →
          name = cfg.s3LandingBucket ∧ w'.storage.object name key = some [] ∧
            ∃ env ∈ checklist.keys, ∃ mapping ∈ mappings env, key = mapping.schemaPath ++ ['/']) ∧
        (result = .ok () → ∀ env ∈ checklist.keys, ∀ mapping ∈ mappings env,
          w'.storage.object cfg.s3LandingBucket (mapping.schemaPath ++ ['/']) = some []) := by
  obtain ⟨mappings, hok, hmem⟩ := exists_mappings hkeys hschema
  have hdirs : inputs.directories cm =
      (targetFolders (getActiveFolders cm checklist) schemaFolders).map directoryKey := by
    rw [RunInputs.directories, hchecklist, hschemaFolders]
  refine ⟨mappings, fun env _ => hok env, fun result w' hrun => ⟨?_, ?_⟩⟩
  · intro name key hcheck hne
    have hmoves : Touches cfg (inputs.directories cm) (generateTree cm network cfg inputs) :=
      touches_generateTree fun key hkey => hkey
    have hframed := (stable_framed w.storage).run (hmoves w) (framed_refl _)
    rw [hrun] at hframed
    obtain ⟨hname, hkey | ⟨hkey, hempty⟩⟩ := hframed.objects name key hne
    · exact absurd hkey hcheck
    · exact ⟨hname, hempty, (hmem key).mp (hdirs ▸ hkey)⟩
  · rintro rfl env henv mapping hmapping
    have hstored := leaves_generateTree inputs w trivial () w' hrun
    rw [hdirs] at hstored
    exact hstored _ ((hmem _).mpr ⟨env, henv, mapping, hmapping, rfl⟩)

/-- The table bucket is there when it was ensured. -/
lemma leaves_ensureS3TableBucketExists :
    Leaves (fun _ => True) (ensureS3TableBucketExists network cfg)
      fun _ w => w.storage.HasTableBucket cfg := by
  refine leaves_tryCatch_serve (Q := fun _ s => s.HasTableBucket cfg) ?_ ?_ ?_ (leaves_throw _)
  · intro s a hok
    by_cases hbucket : cfg.s3TableBucket ∈ s.tableBuckets
    · rw [if_pos hbucket] at hok
      cases hok
    · rw [if_neg hbucket]
      exact Finset.mem_insert_self _ _
  · intro s e herror
    by_cases hbucket : cfg.s3TableBucket ∈ s.tableBuckets
    · rw [if_pos hbucket] at herror ⊢
      cases herror
      exact leaves_pure fun w hw => hw ▸ hbucket
    · rw [if_neg hbucket] at herror
      cases herror
  · intro refusal
    rw [Refusal.toHttpError]
    dsimp only
    rw [if_neg refusal.status_ne]
    exact leaves_throw _

/-- The namespace is there when it was ensured. -/
lemma leaves_ensureIcebergNamespaceExists :
    Leaves (fun _ => True) (ensureIcebergNamespaceExists network cfg)
      fun _ w => w.storage.HasNamespace cfg := by
  refine leaves_tryCatch_serve (Q := fun _ s => s.HasNamespace cfg) ?_ ?_ ?_ (leaves_throw _)
  · intro s a hok
    split at hok
    · cases hok
    · rename_i hbucket
      rw [if_neg hbucket]
      split at hok
      · cases hok
      · rename_i hnamespace
        rw [if_neg hnamespace]
        exact Finset.mem_insert_self _ _
  · intro s e herror
    split at herror
    · cases herror
      exact leaves_throw _
    · rename_i hbucket
      rw [if_neg hbucket]
      split at herror
      · rename_i hnamespace
        rw [if_pos hnamespace]
        cases herror
        exact leaves_pure fun w hw => hw ▸ hnamespace
      · cases herror
  · intro refusal
    rw [Refusal.toHttpError]
    dsimp only
    rw [if_neg refusal.status_ne]
    exact leaves_throw _

/-- What a passing landing check leaves: the two buckets and the directories. -/
structure Storage.LandingReady (cfg : InfraConfig) (keys : List Str) (s : Storage) : Prop where
  directories : s.HasDirectories cfg keys
  landing : s.HasBucket cfg.s3LandingBucket
  lakehouse : s.HasBucket cfg.s3LakehouseBucket

/-- What a passing staging check leaves: the table bucket and the namespace. -/
structure Storage.TablesReady (cfg : InfraConfig) (s : Storage) : Prop where
  tableBucket : s.HasTableBucket cfg
  icebergNamespace : s.HasNamespace cfg

variable (dirs) in
/-- A landing zone that is ready stays ready. -/
lemma stable_landingReady {keys : List Str} (hkeys : ∀ key ∈ keys, key ≠ testKey) :
    Stable (Touch cfg dirs) (Storage.LandingReady cfg keys) := fun _ _ htouch h =>
  ⟨stable_hasDirectories hkeys _ _ htouch h.directories, stable_hasBucket _ _ _ htouch h.landing,
    stable_hasBucket _ _ _ htouch h.lakehouse⟩

variable (dirs) in
/-- Tables that are ready stay ready. -/
lemma stable_tablesReady : Stable (Touch cfg dirs) (Storage.TablesReady cfg) := fun _ _ htouch h =>
  ⟨stable_hasTableBucket _ _ htouch h.tableBucket,
    stable_hasNamespace _ _ htouch h.icebergNamespace⟩

/-- A landing check that passed leaves the landing zone ready. -/
lemma leaves_ingestLandingPreflight (inputs : RunInputs) :
    Leaves (fun _ => True) ((BootJob.ingestLandingPreflight inputs).run cm network cfg)
      fun _ w => w.storage.LandingReady cfg (inputs.directories cm) := by
  have hkeys : ∀ key ∈ inputs.directories cm, key ≠ testKey :=
    fun key hkey => ne_testKey_of_mem_directories hkey
  have hdirs : Stable (Touch cfg (inputs.directories cm))
      (Storage.HasDirectories cfg (inputs.directories cm)) := stable_hasDirectories hkeys
  refine (leaves_generateTree inputs).bind fun _ => ?_
  refine ((leaves_exitOnClientError (leaves_headBucket cfg.s3LandingBucket)).gain
    (moves_exitOnClientError (touches_headBucket _)) hdirs).bind fun _ => ?_
  have hlakehouse := (leaves_exitOnClientError (@leaves_headBucket network
    cfg.s3LakehouseBucket)).gain (moves_exitOnClientError (touches_headBucket _))
      (hdirs.and (stable_hasBucket cfg.s3LandingBucket))
  refine (hlakehouse.mono fun _ w hw => Storage.LandingReady.mk hw.1.1 hw.1.2 hw.2).seq
    (stable_landingReady [] hkeys) fun _ => ?_
  refine (moves_exitOnException touches_verifyS3Readiness).bind fun _ => ?_
  refine (moves_ofExcept _).bind fun activeEnv => ?_
  exact (moves_exitOnException (moves_ofExcept _)).bind fun _ =>
    moves_exitOnException (moves_ofExcept _)

/-- A staging check that passed leaves the tables ready. -/
lemma leaves_stagingPreflight (inputs : RunInputs) :
    Leaves (fun _ => True) ((BootJob.stagingPreflight inputs).run cm network cfg)
      fun _ w => w.storage.TablesReady cfg := by
  have htable : Stable (Touch cfg []) (Storage.HasTableBucket cfg) := stable_hasTableBucket
  refine leaves_ensureS3TableBucketExists.bind fun _ => ?_
  have hnamespace := (@leaves_ensureIcebergNamespaceExists network cfg).gain
    touches_ensureIcebergNamespaceExists htable
  refine (hnamespace.mono fun _ w hw => Storage.TablesReady.mk hw.1 hw.2).seq
    (stable_tablesReady []) fun _ => ?_
  refine (moves_exitOnClientError (touches_headBucket _)).bind fun _ => ?_
  refine (moves_exitOnClientError (touches_headBucket _)).bind fun _ => ?_
  refine (moves_exitOnException touches_verifyS3Readiness).bind fun _ => ?_
  refine (moves_exitOnException (moves_ofExcept _)).bind fun _ => ?_
  exact (moves_ofExcept _).bind fun activeEnv => moves_exitOnException (moves_ofExcept _)

/-- A job that checks the storage. -/
def BootJob.Checks : BootJob → Prop
  | .ingestLandingPreflight _ | .stagingPreflight _ => True
  | .createBuckets | .generateTree _ => False

/-- A passing check leaves nothing behind in the landing bucket. -/
lemma leaves_check {job : BootJob} (h : job.Checks) :
    Leaves (fun _ => True) (job.run cm network cfg)
      fun _ w => w.storage.object cfg.s3LandingBucket testKey = none := by
  have hcheck := leaves_exitOnException (@leaves_verifyS3Readiness network cfg.s3LandingBucket)
  have hstable : Stable (fun _ _ : Storage => False)
      fun s => s.object cfg.s3LandingBucket testKey = none := fun _ _ hstep => hstep.elim
  cases job with
  | createBuckets => exact h.elim
  | generateTree inputs => exact h.elim
  | ingestLandingPreflight inputs =>
    refine Leaves.after fun _ => Leaves.after fun _ => Leaves.after fun _ =>
      hcheck.seq hstable fun _ => ?_
    refine (moves_ofExcept _).bind fun activeEnv => ?_
    exact (moves_exitOnException (moves_ofExcept _)).bind fun _ =>
      moves_exitOnException (moves_ofExcept _)
  | stagingPreflight inputs =>
    refine Leaves.after fun _ => Leaves.after fun _ => Leaves.after fun _ => Leaves.after fun _ =>
      hcheck.seq hstable fun _ => ?_
    refine (moves_exitOnException (moves_ofExcept _)).bind fun _ => ?_
    exact (moves_ofExcept _).bind fun activeEnv => moves_exitOnException (moves_ofExcept _)

/-- **Nothing is left half done.** Jobs run one after another, and each of them may break off
anywhere. When a landing check and a staging check have passed, in whatever order, and the last job
is a check that passed, then the storage is the one in which nothing is missing.

**Proof sketch.** What a passing check leaves stays, so nothing is missing in the end. What no job
changes decides what a storage without gaps is, and this is the same as at the start. -/
theorem provisioned_of_passed {jobs : List BootJob} {w : Infra}
    (hsame : ∀ job ∈ jobs, ∀ key ∈ job.directories cm, key ∈ dirs) {inputs inputs' : RunInputs}
    (hall : ∀ key ∈ dirs, key ∈ inputs.directories cm)
    (hlanding : (.ingestLandingPreflight inputs, .ok ()) ∈
      (runAll (BootJob.run cm network cfg) jobs w).1)
    (hstaging : (.stagingPreflight inputs', .ok ()) ∈
      (runAll (BootJob.run cm network cfg) jobs w).1) {last : BootJob} (hchecks : last.Checks)
    (hlast : (runAll (BootJob.run cm network cfg) jobs w).1.getLast? = some (last, .ok ())) :
    (runAll (BootJob.run cm network cfg) jobs w).2.storage = w.storage.provisioned cfg dirs := by
  have hmoves : ∀ job ∈ jobs, Touches cfg dirs (job.run cm network cfg) :=
    fun job hjob => touches_run (hsame job hjob)
  have hready := stays_of_passed hmoves
    (stable_landingReady dirs fun key hkey => ne_testKey_of_mem_directories hkey)
    (leaves_ingestLandingPreflight inputs) hlanding
  have htables := stays_of_passed hmoves (stable_tablesReady dirs) (leaves_stagingPreflight inputs')
    hstaging
  have hcheck := leaves_of_getLast (leaves_check hchecks) hlast
  have hframed := (stable_framed w.storage).run (moves_runAll hmoves w) (framed_refl _)
  rw [← hframed.provisioned_eq]
  exact (provisioned_eq_self hready.landing hready.lakehouse
    (fun key hkey => hready.directories key (hall key hkey)) htables.tableBucket
    htables.icebergNamespace hcheck).symm

/-- The names of the shipped configuration. -/
def shippedInfra : InfraConfig :=
  ⟨"landing-zone".toList, "lakehouse".toList, "lakehouse-tables".toList, "staging".toList⟩

/-- The schema with the path of one current publication. -/
def onePathSchema : List Str := ["iop/TP_export/Load/Load_r3".toList]

/-- A run that reads the checklist of one publication. -/
def readyInputs : RunInputs where
  checklist := .ok twoRootChecklist
  schemaFolders := .ok onePathSchema
  activeEnv := .ok "IOP".toList
  fmsReadiness _ := .ok ()
  dbReadiness := .ok ()

/-- A storage without buckets. -/
def emptyInfra : Infra := ⟨⟨fun _ => none, ∅, ∅⟩, 0⟩

/-- A network that loses the answer to the third call, which was carried out. -/
def droppingNetwork (n : ℕ) : Delivery := if n = 2 then .lost true else .answered

/-- A landing check that breaks off, the initialisation of the buckets, and the two checks. -/
def interruptedJobs : List BootJob :=
  [.ingestLandingPreflight readyInputs, .createBuckets, .ingestLandingPreflight readyInputs,
    .stagingPreflight readyInputs]

/-- The first check creates the bucket and the directory, and breaks off. -/
theorem provisioned_of_passed_interrupted :
    (runAll (BootJob.run .ascii droppingNetwork shippedInfra) interruptedJobs
      emptyInfra).2.storage =
      emptyInfra.storage.provisioned shippedInfra ["iop/TP_export/Load/Load_r3/".toList] := by
  have hdirs : readyInputs.directories .ascii = ["iop/TP_export/Load/Load_r3/".toList] := by
    decide +kernel
  have houtcomes : (runAll (BootJob.run .ascii droppingNetwork shippedInfra) interruptedJobs
      emptyInfra).1 = [(.ingestLandingPreflight readyInputs, .error (.entsoeConnectionError
        "Failed to create directory path iop/TP_export/Load/Load_r3/ in S3: ".toList
          .connectionLost)), (.createBuckets, .ok ()),
            (.ingestLandingPreflight readyInputs, .ok ()),
              (.stagingPreflight readyInputs, .ok ())] := by
    rfl
  have hread : ∀ key ∈ readyInputs.directories .ascii,
      key ∈ ["iop/TP_export/Load/Load_r3/".toList] := hdirs ▸ fun _ hkey => hkey
  have hlanding : (.ingestLandingPreflight readyInputs, .ok ()) ∈
      (runAll (BootJob.run .ascii droppingNetwork shippedInfra) interruptedJobs emptyInfra).1 :=
    houtcomes ▸ .tail _ (.tail _ (.head _))
  have hstaging : (.stagingPreflight readyInputs, .ok ()) ∈
      (runAll (BootJob.run .ascii droppingNetwork shippedInfra) interruptedJobs emptyInfra).1 :=
    houtcomes ▸ .tail _ (.tail _ (.tail _ (.head _)))
  have hlast : (runAll (BootJob.run .ascii droppingNetwork shippedInfra) interruptedJobs
      emptyInfra).1.getLast? = some (.stagingPreflight readyInputs, .ok ()) := houtcomes ▸ rfl
  have hchecks : (BootJob.stagingPreflight readyInputs).Checks := trivial
  refine provisioned_of_passed ?_ (fun key hkey => hdirs ▸ hkey) hlanding hstaging hchecks hlast
  rw [interruptedJobs, List.forall_mem_cons, List.forall_mem_cons, List.forall_mem_cons,
    List.forall_mem_singleton]
  exact ⟨hread, fun _ hkey => absurd hkey List.not_mem_nil, hread,
    fun _ hkey => absurd hkey List.not_mem_nil⟩

end Complete

/-! ## When jobs pass -/

section Progress

variable {cm : CaseMap} {network : ℕ → Delivery} {cfg : InfraConfig}

/-- What the initialisation of the buckets leaves. -/
structure Storage.Created (cfg : InfraConfig) (s : Storage) : Prop where
  tableBucket : s.HasTableBucket cfg
  landing : s.HasBucket cfg.s3LandingBucket
  lakehouse : s.HasBucket cfg.s3LakehouseBucket

/-- Buckets that were created stay. -/
lemma stable_created (dirs : List Str) : Stable (Touch cfg dirs) (Storage.Created cfg) :=
  fun _ _ htouch h => ⟨stable_hasTableBucket _ _ htouch h.tableBucket,
    stable_hasBucket _ _ _ htouch h.landing, stable_hasBucket _ _ _ htouch h.lakehouse⟩

/-- Everything that a run reads is there, and the services behind it are ready. -/
structure RunInputs.Ready (inputs : RunInputs) : Prop where
  checklist : ∃ checklist, inputs.checklist = .ok checklist
  schemaFolders : ∃ schemaFolders, inputs.schemaFolders = .ok schemaFolders
  services : ∃ envName, inputs.activeEnv = .ok envName ∧ inputs.fmsReadiness envName = .ok ()
  database : inputs.dbReadiness = .ok ()

/-- The inputs of a job are ready. -/
def BootJob.Ready : BootJob → Prop
  | .createBuckets => True
  | .generateTree inputs | .ingestLandingPreflight inputs | .stagingPreflight inputs => inputs.Ready

section Calm

variable {I : Storage → Prop} (hcalm : ∀ n, network n = .answered)

include hcalm

/-- The look at a bucket that is there succeeds. -/
lemma returns_headBucket {bucketName : Str} (h : ∀ s, I s → s.HasBucket bucketName) :
    Returns (fun w => I w.storage) (headBucket network bucketName) := by
  refine returns_serve hcalm fun s hs => ?_
  obtain ⟨objects, hobjects⟩ := Option.isSome_iff_exists.mp (h s hs)
  rw [hobjects]
  exact ⟨(), rfl⟩

/-- An object can be put into a bucket that is there. -/
lemma returns_putObject {bucketName : Str} (key body : Str)
    (h : ∀ s, I s → s.HasBucket bucketName) :
    Returns (fun w => I w.storage) (putObject network bucketName key body) := by
  refine returns_serve hcalm fun s hs => ?_
  obtain ⟨objects, hobjects⟩ := Option.isSome_iff_exists.mp (h s hs)
  rw [hobjects]
  exact ⟨(), rfl⟩

/-- An object can be deleted from a bucket that is there. -/
lemma returns_deleteObject {bucketName : Str} (key : Str)
    (h : ∀ s, I s → s.HasBucket bucketName) :
    Returns (fun w => I w.storage) (deleteObject network bucketName key) := by
  refine returns_serve hcalm fun s hs => ?_
  obtain ⟨objects, hobjects⟩ := Option.isSome_iff_exists.mp (h s hs)
  rw [hobjects]
  exact ⟨(), rfl⟩

/-- Directories can be created in a bucket that is there. -/
lemma returns_createDirectories (folders : List Str) :
    Returns (fun run => run.world.storage.Created cfg)
      (createDirectories (treeCallees network cfg) folders) := by
  induction folders with
  | nil => exact returns_pure ()
  | cons folder folders ih =>
    have hput : Returns (fun w => w.storage.Created cfg)
        (putDirectory network cfg.s3LandingBucket (directoryKey folder)) :=
      (returns_putObject hcalm _ _ fun s (hs : s.Created cfg) => hs.landing).tryCatch _
    refine Returns.seq (fun run : EventLog.Run Infra Str => run.world.storage)
      (fun run hrun => hput run.world hrun)
      (fun run => touches_putDirectory (List.mem_singleton_self _) run.world)
      (stable_created [directoryKey folder]) fun _ => ?_
    exact Returns.bind (fun run _ => ⟨(), rfl⟩) (fun run hrun a run' hresult =>
      (Prod.mk.inj hresult).2 ▸ hrun) fun _ => ih

/-- The directory tree can be generated when the inputs are ready. -/
lemma returns_generateTree {inputs : RunInputs} (h : inputs.Ready) :
    Returns (fun w => w.storage.Created cfg) (generateTree cm network cfg inputs) := by
  obtain ⟨checklist, hchecklist⟩ := h.checklist
  obtain ⟨schemaFolders, hschema⟩ := h.schemaFolders
  refine returns_ofExcept_bind hchecklist (returns_ofExcept_bind hschema (returns_unlogged ?_))
  have hbucket : Returns (fun w => w.storage.Created cfg)
      (ensureBucketExists network cfg.s3LandingBucket) :=
    (returns_headBucket hcalm fun s (hs : s.Created cfg) => hs.landing).tryCatch _
  exact Returns.seq (fun run : EventLog.Run Infra Str => run.world.storage)
    (fun run hrun => hbucket run.world hrun)
    (fun run => touches_ensureBucketExists (Or.inl rfl) run.world) (stable_created [])
    fun _ => returns_createDirectories hcalm _

/-- The object of the check as it is written. -/
def Storage.Checked (cfg : InfraConfig) (s : Storage) : Prop :=
  s.HasBucket cfg.s3LandingBucket ∧ s.object cfg.s3LandingBucket testKey = some testData

omit hcalm in
/-- In the middle of a check the test object is there with its data. -/
lemma getObject_of_checked {s : Storage} (h : s.Checked cfg) :
    ∃ objects, s.buckets cfg.s3LandingBucket = some objects ∧ objects testKey = some testData := by
  obtain ⟨objects, hobjects⟩ := Option.isSome_iff_exists.mp h.1
  exact ⟨objects, hobjects, (Storage.object_of_bucket hobjects testKey).symm.trans h.2⟩

/-- The check reads what it wrote. -/
lemma returns_verifyS3Readiness :
    Returns (fun w => w.storage.Created cfg) (verifyS3Readiness network cfg.s3LandingBucket) := by
  have hput := (@leaves_putObject network cfg.s3LandingBucket testKey testData).gain
    (@touches_check network cfg [] (some testData) _ fun s => by
      cases s.buckets cfg.s3LandingBucket <;> rfl) (stable_created [])
  have hget : Leaves (fun w => w.storage.Checked cfg)
      (getObject network cfg.s3LandingBucket testKey)
      fun retrievedData w => w.storage.Checked cfg ∧ retrievedData = testData := by
    refine leaves_serve (Q := fun retrievedData s => s.Checked cfg ∧ retrievedData = testData)
      fun s hs a hok => ?_
    obtain ⟨objects, hobjects, hobject⟩ := getObject_of_checked hs
    rw [hobjects] at hok ⊢
    simp only [hobject, Except.ok.injEq] at hok ⊢
    exact ⟨hs, hok.symm⟩
  refine (returns_putObject hcalm _ _ fun s (hs : s.Created cfg) => hs.landing).bind
    (hput.mono fun _ w hw => (⟨hw.1.landing, hw.2⟩ : w.storage.Checked cfg)) fun _ => ?_
  refine Returns.bind (returns_serve (P := Storage.Checked cfg) hcalm fun s hs => ?_) hget
    fun retrievedData => ?_
  · obtain ⟨objects, hobjects, hobject⟩ := getObject_of_checked hs
    rw [hobjects]
    simp only [hobject]
    exact ⟨testData, rfl⟩
  · refine Returns.bind (Q := fun _ _ => retrievedData = testData)
      (returns_deleteObject (I := fun s => s.Checked cfg ∧ retrievedData = testData) hcalm _
        fun s hs => hs.1.1) (fun w hw _ _ _ => hw.2) fun _ w hw => ?_
    rw [if_pos hw]
    exact ⟨(), rfl⟩

/-- The table bucket can be ensured. -/
lemma returns_ensureS3TableBucketExists :
    Returns (fun w => I w.storage) (ensureS3TableBucketExists network cfg) := by
  refine returns_tryCatch_serve hcalm fun s _ => ?_
  by_cases hbucket : cfg.s3TableBucket ∈ s.tableBuckets
  · rw [if_pos hbucket]
    exact Or.inr ⟨_, rfl, returns_pure ()⟩
  · rw [if_neg hbucket]
    exact Or.inl ⟨(), rfl⟩

/-- The namespace can be ensured when the table bucket is there. -/
lemma returns_ensureIcebergNamespaceExists (h : ∀ s, I s → s.HasTableBucket cfg) :
    Returns (fun w => I w.storage) (ensureIcebergNamespaceExists network cfg) := by
  refine returns_tryCatch_serve hcalm fun s hs => ?_
  have hbucket : cfg.s3TableBucket ∈ s.tableBuckets := h s hs
  rw [if_neg (not_not.mpr hbucket)]
  by_cases hnamespace : (cfg.s3TableBucket, cfg.staging) ∈ s.namespaces
  · rw [if_pos hnamespace]
    exact Or.inr ⟨_, rfl, returns_pure ()⟩
  · rw [if_neg hnamespace]
    exact Or.inl ⟨(), rfl⟩

/-- A bucket that is missing can be created. -/
lemma returns_createMissingBucket (bucketName : Str) :
    Returns (fun w => I w.storage) (createMissingBucket network bucketName) := by
  refine returns_tryCatch_serve hcalm fun s _ => ?_
  cases hbucket : s.buckets bucketName with
  | some objects => exact Or.inl ⟨(), rfl⟩
  | none =>
    refine Or.inr ⟨_, rfl, ?_⟩
    refine returns_serve (P := fun s' => s' = s) hcalm fun s' hs' => ?_
    rw [hs', hbucket]
    exact ⟨(), rfl⟩

/-- The initialisation of the buckets passes on every storage. -/
lemma returns_createBuckets :
    Returns (fun _ => True) (BootJob.createBuckets.run cm network cfg) := by
  have hmissing : ∀ {name}, name = cfg.s3LandingBucket ∨ name = cfg.s3LakehouseBucket →
      Touches cfg [] (createMissingBucket network name) := touches_createMissingBucket
  have htable : Stable (Touch cfg []) (Storage.HasTableBucket cfg) := stable_hasTableBucket
  refine Returns.bind (returns_ensureS3TableBucketExists (I := fun _ => True) hcalm)
    leaves_ensureS3TableBucketExists fun _ => ?_
  refine Returns.seq Infra.storage ?_ ((hmissing (Or.inl rfl)).bind fun _ =>
    hmissing (Or.inr rfl)) htable fun _ =>
      returns_ensureIcebergNamespaceExists hcalm fun _ hs => hs
  exact Returns.seq Infra.storage (returns_createMissingBucket hcalm _) (hmissing (Or.inl rfl))
    htable fun _ => returns_createMissingBucket hcalm _

/-- Behind the initialisation of the buckets a job with ready inputs passes. -/
lemma returns_run {job : BootJob} (h : job.Ready) :
    Returns (fun w => w.storage.Created cfg) (job.run cm network cfg) := by
  have htable : ∀ s : Storage, s.Created cfg → s.HasTableBucket cfg := fun _ hs => hs.tableBucket
  have hlanding := (returns_headBucket hcalm fun s (hs : s.Created cfg) => hs.landing).tryCatch
  have hlakehouse := (returns_headBucket hcalm fun s (hs : s.Created cfg) => hs.lakehouse).tryCatch
  have hverify := (@returns_verifyS3Readiness network cfg hcalm).tryCatch
  have hdone : ∀ {result : Except BootError Unit}, result = .ok () →
      Returns (fun w => w.storage.Created cfg) (exitOnException (ofExcept result)) :=
    fun hresult => (returns_ofExcept hresult).tryCatch _
  have hstable := @stable_created cfg []
  cases job with
  | createBuckets => exact fun w _ => returns_createBuckets hcalm w trivial
  | generateTree inputs => exact returns_generateTree hcalm h
  | ingestLandingPreflight inputs =>
    obtain ⟨envName, henv, hfms⟩ := h.services
    refine Returns.seq Infra.storage (returns_generateTree hcalm h)
      (touches_generateTree fun _ hkey => hkey) (stable_created _) fun _ => ?_
    refine Returns.seq Infra.storage (hlanding _) (moves_exitOnClientError (touches_headBucket _))
      hstable fun _ => ?_
    refine Returns.seq Infra.storage (hlakehouse _)
      (moves_exitOnClientError (touches_headBucket _)) hstable fun _ => ?_
    refine Returns.seq Infra.storage (hverify _) (moves_exitOnException touches_verifyS3Readiness)
      hstable fun _ => returns_ofExcept_bind henv ?_
    exact Returns.seq Infra.storage (hdone hfms) (moves_exitOnException (moves_ofExcept _)) hstable
      fun _ => hdone h.database
  | stagingPreflight inputs =>
    obtain ⟨envName, henv, hfms⟩ := h.services
    refine Returns.seq Infra.storage (returns_ensureS3TableBucketExists hcalm)
      touches_ensureS3TableBucketExists hstable fun _ => ?_
    refine Returns.seq Infra.storage (returns_ensureIcebergNamespaceExists hcalm htable)
      touches_ensureIcebergNamespaceExists hstable fun _ => ?_
    refine Returns.seq Infra.storage (hlakehouse _)
      (moves_exitOnClientError (touches_headBucket _)) hstable fun _ => ?_
    refine Returns.seq Infra.storage (hlanding _) (moves_exitOnClientError (touches_headBucket _))
      hstable fun _ => ?_
    refine Returns.seq Infra.storage (hverify _) (moves_exitOnException touches_verifyS3Readiness)
      hstable fun _ => ?_
    refine Returns.seq Infra.storage (hdone h.database) (moves_exitOnException (moves_ofExcept _))
      hstable fun _ => ?_
    exact returns_ofExcept_bind henv (hdone hfms)

end Calm

/-- The bucket is there when it was created or had been there. -/
lemma leaves_createMissingBucket (bucketName : Str) :
    Leaves (fun _ => True) (createMissingBucket network bucketName)
      fun _ w => w.storage.HasBucket bucketName := by
  refine (leaves_headBucket bucketName).tryCatch fun e => ?_
  cases e with
  | clientError errorCode =>
    refine leaves_serve (P := fun _ => True) (Q := fun _ s => s.HasBucket bucketName)
      fun s _ a hok => ?_
    cases hbucket : s.buckets bucketName with
    | none => exact congrArg Option.isSome (Storage.buckets_setBucket_self ..)
    | some objects =>
      rw [hbucket] at hok
      cases hok
  | _ => exact leaves_throw _

/-- The initialisation leaves all configured buckets. -/
lemma leaves_createBuckets :
    Leaves (fun _ => True) (BootJob.createBuckets.run cm network cfg)
      fun _ w => w.storage.Created cfg := by
  have hstable := @stable_created cfg []
  have htable : Stable (Touch cfg []) (Storage.HasTableBucket cfg) := stable_hasTableBucket
  have hmissing : ∀ {name}, name = cfg.s3LandingBucket ∨ name = cfg.s3LakehouseBucket →
      Touches cfg [] (createMissingBucket network name) := touches_createMissingBucket
  have hbuckets : Leaves (fun _ => True) (ensureAllBucketsExist network cfg) fun _ w =>
      w.storage.HasBucket cfg.s3LandingBucket ∧ w.storage.HasBucket cfg.s3LakehouseBucket :=
    (leaves_createMissingBucket _).bind fun _ => (leaves_createMissingBucket _).gain
      (hmissing (Or.inr rfl)) (stable_hasBucket _)
  refine leaves_ensureS3TableBucketExists.bind fun _ => ?_
  refine Leaves.seq ((hbuckets.gain ((hmissing (Or.inl rfl)).bind fun _ => hmissing (Or.inr rfl))
    htable).mono fun _ w hw => Storage.Created.mk hw.1 hw.2.1 hw.2.2) hstable fun _ => ?_
  exact touches_ensureIcebergNamespaceExists

/-- **Progress.** On a network without disturbances the initialisation of the buckets passes on
every storage, whatever earlier runs left there, and behind it every job whose inputs are ready
passes, in every order and any number of times.

**Proof sketch.** What the initialisation leaves is kept by all jobs, and it is all that they
need. -/
theorem passed_of_created (hcalm : ∀ n, network n = .answered) (cm : CaseMap) (cfg : InfraConfig)
    {jobs : List BootJob} (hready : ∀ job ∈ jobs, job.Ready) (w : Infra) :
    ∀ outcome ∈ (runAll (BootJob.run cm network cfg) (.createBuckets :: jobs) w).1,
      outcome.2.toBool = true := by
  set dirs := jobs.flatMap (BootJob.directories cm) with hdirs
  obtain ⟨a, hok⟩ := returns_createBuckets hcalm w trivial
  rw [runAll, hok, List.forall_mem_cons]
  refine ⟨rfl, passed_of_returns (fun job hjob => touches_run fun key hkey => ?_)
    (stable_created dirs) (fun job hjob => returns_run hcalm (hready job hjob)) ?_⟩
  · exact List.mem_flatMap.mpr ⟨job, hjob, hkey⟩
  · exact leaves_createBuckets w trivial a _ (Prod.ext hok rfl)

/-- Two rounds of checks pass behind the initialisation. -/
theorem passed_of_created_again :
    (runAll (BootJob.run .ascii (fun _ => .answered) shippedInfra)
      (.createBuckets :: (interruptedJobs ++ interruptedJobs)) emptyInfra).1.all
        (fun outcome => outcome.2.toBool) = true := by
  have hready : readyInputs.Ready := ⟨⟨_, rfl⟩, ⟨_, rfl⟩, ⟨_, rfl, rfl⟩, rfl⟩
  have hjobs : ∀ job ∈ interruptedJobs, job.Ready := by
    rw [interruptedJobs, List.forall_mem_cons, List.forall_mem_cons, List.forall_mem_cons,
      List.forall_mem_singleton]
    exact ⟨hready, trivial, hready, hready⟩
  rw [List.all_eq_true]
  refine passed_of_created (fun _ => rfl) .ascii shippedInfra (fun job hjob => ?_) emptyInfra
  exact (List.mem_append.mp hjob).elim (hjobs job) (hjobs job)

end Progress

end EntsoePipeline
