import EntsoePipeline.Landing.RegisteredVersions
import EntsoePipeline.Staging.Ingestion

set_option relaxedAutoImplicit false
set_option autoImplicit false

/-!
# No landing update is lost

The synchronisation and the staging job run side by side: a version may be uploaded and registered
between any two steps of the job. A registered file that the job does not fetch any more has
nevertheless been integrated: the bytes of its registered version, or of a later upload, were read
and written to the table of its contract after they were uploaded.

## Main definitions

* `EntsoePipeline.Integrated` — a version was uploaded, then it or a later upload of its key was
  read, and then written to a table.
* `EntsoePipeline.LastRegistered` — the version that was registered last.
* `EntsoePipeline.SyncTrace`, `EntsoePipeline.StagingTrace` — the invariants of the two components,
  which relate their states to the trace.

## Main results

* `EntsoePipeline.syncTrace_step`, `EntsoePipeline.stagingTrace_step` — each component keeps its
  invariant.
* `EntsoePipeline.lastRegistered_iff` — the last registration by positions and as the last write.
* `EntsoePipeline.integrated_of_not_fetched` — no landing update is lost.

## Implementation notes

That the attempts of a key have increasing times is not needed: every successful attempt was made
after its version was read, whichever of the attempts is ranked first.
-/

namespace EntsoePipeline

open Py Transition

variable {β : Type*}

/-! ## Events of a key -/

/-- A version of a key was uploaded. -/
def Uploads (trace : List (Event β)) (s3Key : Str) (version : FileVersion) : Prop :=
  ∃ i object, At trace i (.uploaded s3Key version object)

/-- At position `j` the object of a key was read; it is the upload of the given version or a later
one. -/
def ReadAfterUpload (trace : List (Event β)) (s3Key : Str) (version : FileVersion)
    (object : Download β) (j : ℕ) : Prop :=
  At trace j (.read s3Key object) ∧ ∃ i first i' version',
    At trace i (.uploaded s3Key version first) ∧ i ≤ i' ∧
      At trace i' (.uploaded s3Key version' object) ∧ i' < j

/-- A version of a key was uploaded, then its object or a later one was read, and then that object
was written to the table of a contract. -/
def Integrated (trace : List (Event β)) (s3Key : Str) (version : FileVersion) (fmsName : Str) :
    Prop :=
  ∃ object j, ReadAfterUpload trace s3Key version object j ∧ ∃ l objects, j < l ∧
    At trace l (.wrote fmsName objects) ∧ (s3Key, object) ∈ objects

/-- The version of a key that was registered last. -/
def LastRegistered (trace : List (Event β)) (s3Key : Str) (version : FileVersion) : Prop :=
  ∃ i, At trace i (.registered s3Key version) ∧
    ∀ j version', At trace j (.registered s3Key version') → j ≤ i

section Append

variable {trace : List (Event β)} {s3Key : Str} {version : FileVersion}

/-- An upload stays one in a longer trace. -/
lemma Uploads.append (h : Uploads trace s3Key version) (events : List (Event β)) :
    Uploads (trace ++ events) s3Key version := by
  obtain ⟨i, object, hat⟩ := h
  exact ⟨i, object, hat.append events⟩

/-- A read after an upload stays one in a longer trace. -/
lemma ReadAfterUpload.append {object : Download β} {j : ℕ}
    (h : ReadAfterUpload trace s3Key version object j) (events : List (Event β)) :
    ReadAfterUpload (trace ++ events) s3Key version object j := by
  obtain ⟨hread, i, first, i', version', hi, hle, hi', hlt⟩ := h
  exact ⟨hread.append events, i, first, i', version', hi.append events, hle, hi'.append events, hlt⟩

/-- An integrated version stays one in a longer trace. -/
lemma Integrated.append {fmsName : Str} (h : Integrated trace s3Key version fmsName)
    (events : List (Event β)) : Integrated (trace ++ events) s3Key version fmsName := by
  obtain ⟨object, j, hread, l, objects, hlt, hwrote, hmem⟩ := h
  exact ⟨object, j, hread.append events, l, objects, hlt, hwrote.append events, hmem⟩

/-- A read after an upload comes after an upload. -/
lemma ReadAfterUpload.uploads {object : Download β} {j : ℕ}
    (h : ReadAfterUpload trace s3Key version object j) : Uploads trace s3Key version := by
  obtain ⟨-, i, first, -, -, hi, -⟩ := h
  exact ⟨i, first, hi⟩

end Append

/-! ## The keys of the synchronisation -/

/-- The reader asks for a key that begins with a non-empty stripped path as it is. -/
lemma readKey_eq_self {path name : Str} (h : strip '/' path ≠ []) :
    readKey (strip '/' path ++ '/' :: name) = strip '/' path ++ '/' :: name := by
  have hhead : (strip '/' path).head? ≠ some '/' := head?_strip_ne
  unfold readKey
  cases hpath : strip '/' path with
  | nil => exact absurd hpath h
  | cons x s =>
    rw [hpath] at hhead
    rw [List.cons_append, List.dropWhile_cons_of_neg]
    simpa using hhead

/-- The mapping of a path has that path, which begins with the environment. -/
lemma split_of_resolvePath {cm : CaseMap} {env : Str} {active : Dict Str EntryValue} {path : Str}
    {mapping : Mapping} (h : resolvePath cm env active path = .ok (some mapping)) :
    ∃ rest, split '/' mapping.schemaPath = cm.lower env :: rest := by
  unfold resolvePath at h
  cases hsplit : split '/' path with
  | nil =>
    rw [hsplit] at h
    cases h
  | cons segment rest =>
    rw [hsplit] at h
    dsimp only at h
    split_ifs at h with henv
    · cases h
    · split at h
      · cases h
      · split at h
        · cases h
        · cases h
          rw [not_not] at henv
          exact ⟨_, henv ▸ hsplit⟩

/-- A mapping belongs to a landing path of its environment. -/
lemma split_of_mem_resolveTargetMappings {cm : CaseMap} {env : Str} {active : Dict Str EntryValue}
    {paths : List Str} {mappings : List Mapping}
    (h : resolveTargetMappings cm env active paths = .ok mappings) {mapping : Mapping}
    (hmem : mapping ∈ mappings) :
    ∃ rest, split '/' mapping.schemaPath = cm.lower env :: rest := by
  induction paths generalizing mappings with
  | nil =>
    cases h
    cases hmem
  | cons path paths ih =>
    unfold resolveTargetMappings at h
    cases hpath : resolvePath cm env active path with
    | error e =>
      rw [hpath] at h
      cases h
    | ok first =>
      cases hrest : resolveTargetMappings cm env active paths with
      | error e =>
        rw [hpath, hrest] at h
        cases h
      | ok others =>
        rw [hpath, hrest] at h
        cases h
        rcases List.mem_append.mp hmem with hfirst | hothers
        · obtain rfl : first = some mapping := by simpa using hfirst
          exact split_of_resolvePath hpath
        · exact ih hrest hothers

/-- The landing path of a folder that a run synchronises is not empty. -/
lemma strip_schemaPath_ne_nil {cfg : SyncConfig β} {env : Environment} {mappings : List Mapping}
    (h : cfg.targetMappings env = .ok mappings) {mapping : Mapping} (hmem : mapping ∈ mappings) :
    strip '/' mapping.schemaPath ≠ [] := by
  unfold SyncConfig.targetMappings at h
  split_ifs at h with hactive
  · cases h
    cases hmem
  · obtain ⟨rest, hsplit⟩ := split_of_mem_resolveTargetMappings h hmem
    have hlower : ∃ x ∈ cfg.cm.lower env.name, x ≠ '/' := by
      rw [cfg.cm.lower_ascii _ (by cases env <;> decide)]
      cases env with
      | iop => exact ⟨'i', by decide, by decide⟩
      | prod => exact ⟨'p', by decide, by decide⟩
    obtain ⟨x, hx, hne⟩ := hlower
    have hpath : mapping.schemaPath = join ['/'] (cfg.cm.lower env.name :: rest) := by
      rw [← hsplit, join_split]
    exact strip_ne_nil (hpath ▸ mem_join List.mem_cons_self hx) hne

/-! ## The invariant of the synchronisation -/

section Sync

variable (cfg : SyncConfig β)

/-- The file in hand was uploaded before it is registered. -/
def UploadedInHand (trace : List (Event β)) : SyncPc β → Prop
  | .file .clean job => Uploads trace job.s3Key job.version
  | .file .register job => Uploads trace job.s3Key job.version
  | _ => True

/-- The synchronisation and the trace: stored objects are the last uploads of their keys, and the
last registered version of a key was uploaded before. -/
structure SyncTrace (trace : List (Event β)) (zone : LandingZone β) (st : SyncState β) : Prop where
  /-- The stored objects. -/
  objects : ∀ s3Key object, zone.objects.get? s3Key = some object → ∃ i version,
    At trace i (.uploaded s3Key version object) ∧
      ∀ j version' object', At trace j (.uploaded s3Key version' object') → j ≤ i
  /-- The registered versions. -/
  registry : ∀ s3Key row, zone.registry.get? s3Key = some row → ∃ version,
    LastRegistered trace s3Key version ∧ version.hash cfg.xxh = row.xxhash ∧
      Uploads trace s3Key version
  /-- The uploads. -/
  uploads : ∀ s3Key version, Uploads trace s3Key version →
    cfg.Occurs version ∧ readKey s3Key = s3Key
  /-- The place in the run. -/
  along : st.pc.Along cfg (fun _ mapping => strip '/' mapping.schemaPath ≠ []) zone.now
  /-- The file in hand. -/
  inHand : UploadedInHand trace st.pc

variable {cfg}

/-- A registration is the last event of its key. -/
lemma LastRegistered.concat (trace : List (Event β)) (s3Key : Str) (version : FileVersion) :
    LastRegistered (trace ++ [.registered s3Key version]) s3Key version := by
  refine ⟨trace.length, at_concat _ _, fun j version' hj => ?_⟩
  have hlt := hj.lt
  simp only [List.length_append, List.length_singleton] at hlt
  omega

/-- Events that register no version of a key keep its last registration. -/
lemma LastRegistered.append {trace : List (Event β)} {s3Key : Str} {version : FileVersion}
    (h : LastRegistered trace s3Key version) {events : List (Event β)}
    (hother : ∀ version', Event.registered s3Key version' ∉ events) :
    LastRegistered (trace ++ events) s3Key version := by
  obtain ⟨i, hi, hlast⟩ := h
  refine ⟨i, hi.append events, fun j version' hj => ?_⟩
  rcases hj.of_append with hj | ⟨-, hmem⟩
  · exact hlast j version' hj
  · exact absurd hmem (hother version')

/-- A key has one version that was registered last. -/
lemma LastRegistered.unique {trace : List (Event β)} {s3Key : Str} {version version' : FileVersion}
    (h : LastRegistered trace s3Key version) (h' : LastRegistered trace s3Key version') :
    version = version' := by
  obtain ⟨i, hi, hlast⟩ := h
  obtain ⟨i', hi', hlast'⟩ := h'
  obtain rfl : i = i' := le_antisymm (hlast' i version hi) (hlast i' version' hi')
  have hevent := Option.some.inj (hi.symm.trans hi')
  exact (Event.registered.inj hevent).2

/-- The version that was registered last, by positions and as the last write of the trace. -/
lemma lastRegistered_iff {trace : List (Event β)} {s3Key : Str} {version : FileVersion} :
    LastRegistered trace s3Key version ↔ registeredVersion trace s3Key = some version := by
  have hsome : ∀ version, registeredVersion trace s3Key = some version →
      LastRegistered trace s3Key version := by
    induction trace using List.reverseRecOn with
    | nil =>
      intro version h
      cases h
    | append_singleton trace e ih =>
      intro version h
      rw [registeredVersion, LastWrite.lastWrite_concat] at h
      cases hwrite : registration s3Key e with
      | some version' =>
        rw [hwrite] at h
        obtain rfl : version' = version := Option.some.inj h
        rw [registration_eq_some_iff.mp hwrite]
        exact .concat _ _ _
      | none =>
        rw [hwrite] at h
        refine (ih version h).append fun version' hmem => ?_
        rw [← List.mem_singleton.mp hmem, registration_eq_some_iff.mpr rfl] at hwrite
        cases hwrite
  refine ⟨fun h => ?_, hsome version⟩
  cases hlast : registeredVersion trace s3Key with
  | none =>
    obtain ⟨i, hi, -⟩ := h
    have hnone := LastWrite.lastWrite_eq_none_iff.mp hlast _ (List.mem_of_getElem? hi)
    rw [registration_eq_some_iff.mpr rfl] at hnone
    cases hnone
  | some version' => rw [h.unique (hsome version' hlast)]

/-- An upload in a continued run was there before or is one of the new events. -/
lemma Uploads.of_append {trace events : List (Event β)} {s3Key : Str} {version : FileVersion}
    (h : Uploads (trace ++ events) s3Key version) :
    Uploads trace s3Key version ∨ ∃ object, Event.uploaded s3Key version object ∈ events := by
  obtain ⟨i, object, hi⟩ := h
  rcases hi.of_append with hi | ⟨-, hmem⟩
  · exact Or.inl ⟨i, object, hi⟩
  · exact Or.inr ⟨object, hmem⟩

/-- A move that uploads and registers nothing keeps the invariant. -/
lemma SyncTrace.quiet {trace events : List (Event β)} {zone zone' : LandingZone β}
    {st st' : SyncState β} (h : SyncTrace cfg trace zone st)
    (hup : ∀ s3Key version object, Event.uploaded s3Key version object ∉ events)
    (hreg : ∀ s3Key version, Event.registered s3Key version ∉ events)
    (hobjects : ∀ s3Key object, zone'.objects.get? s3Key = some object →
      zone.objects.get? s3Key = some object)
    (hregistry : zone'.registry = zone.registry)
    (halong : st'.pc.Along cfg (fun _ mapping => strip '/' mapping.schemaPath ≠ []) zone'.now)
    (hinHand : UploadedInHand (trace ++ events) st'.pc) :
    SyncTrace cfg (trace ++ events) zone' st' where
  objects s3Key object hget := by
    obtain ⟨i, version, hi, hlast⟩ := h.objects s3Key object (hobjects _ _ hget)
    refine ⟨i, version, hi.append events, fun j version' object' hj => ?_⟩
    rcases hj.of_append with hj | ⟨-, hmem⟩
    · exact hlast j version' object' hj
    · exact absurd hmem (hup _ _ _)
  registry s3Key row hrow := by
    rw [hregistry] at hrow
    obtain ⟨version, hlast, hhash, huploads⟩ := h.registry s3Key row hrow
    exact ⟨version, hlast.append fun version' => hreg s3Key version', hhash, huploads.append events⟩
  uploads s3Key version huploads := by
    rcases huploads.of_append with hold | ⟨object, hmem⟩
    · exact h.uploads s3Key version hold
    · exact absurd hmem (hup _ _ _)
  along := halong
  inHand := hinHand

/-- An upload keeps the invariant. -/
lemma syncTrace_upload {trace : List (Event β)} {zone : LandingZone β}
    {tmp : Dict Str (Download β)} {job : Job} {csvData object : Download β}
    (h : SyncTrace cfg trace zone ⟨tmp, .file (.upload csvData) job⟩) {pc : SyncPc β}
    (halong : pc.Along cfg (fun _ mapping => strip '/' mapping.schemaPath ≠ []) zone.now)
    (hinHand : UploadedInHand (trace ++ [.uploaded job.s3Key job.version object]) pc) :
    SyncTrace cfg (trace ++ [.uploaded job.s3Key job.version object])
      (uploadFileToS3 zone job.s3Key object) ⟨tmp, pc⟩ where
  objects s3Key object' hget := by
    rw [objects_uploadFileToS3] at hget
    by_cases hkey : s3Key = job.s3Key
    · subst hkey
      rw [Dict.get?_set_self, Option.some.injEq] at hget
      subst hget
      refine ⟨trace.length, job.version, at_concat _ _, fun j version' object' hj => ?_⟩
      have hlt := hj.lt
      simp only [List.length_append, List.length_singleton] at hlt
      omega
    · rw [Dict.get?_set_of_ne _ _ hkey] at hget
      obtain ⟨i, version, hi, hlast⟩ := h.objects s3Key object' hget
      refine ⟨i, version, hi.append _, fun j version' object'' hj => ?_⟩
      rcases hj.of_append with hj | ⟨-, hmem⟩
      · exact hlast j version' object'' hj
      · rw [List.mem_singleton, Event.uploaded.injEq] at hmem
        exact absurd hmem.1 hkey
  registry s3Key row hrow := by
    obtain ⟨version, hlast, hhash, huploads⟩ := h.registry s3Key row hrow
    exact ⟨version, hlast.append (by simp), hhash, huploads.append _⟩
  uploads s3Key version huploads := by
    rcases huploads.of_append with hold | ⟨object', hmem⟩
    · exact h.uploads s3Key version hold
    · rw [List.mem_singleton, Event.uploaded.injEq] at hmem
      obtain ⟨rfl, rfl, -⟩ := hmem
      obtain ⟨t, -, hversion⟩ := h.along.listed
      exact ⟨⟨t, _, _, hversion⟩, readKey_eq_self h.along.1⟩
  along := halong
  inHand := hinHand

/-- A registration keeps the invariant. -/
lemma syncTrace_register {trace : List (Event β)} {zone : LandingZone β}
    {tmp : Dict Str (Download β)} {job : Job}
    (h : SyncTrace cfg trace zone ⟨tmp, .file .register job⟩) {pc : SyncPc β}
    (halong : pc.Along cfg (fun _ mapping => strip '/' mapping.schemaPath ≠ []) zone.now)
    (hinHand : UploadedInHand (trace ++ [.registered job.s3Key job.version]) pc) :
    SyncTrace cfg (trace ++ [.registered job.s3Key job.version])
      (registerDownloadedFile zone job.s3Key (job.registryRow cfg.xxh)) ⟨tmp, pc⟩ where
  objects s3Key object hget := by
    obtain ⟨i, version, hi, hlast⟩ := h.objects s3Key object hget
    refine ⟨i, version, hi.append _, fun j version' object' hj => ?_⟩
    rcases hj.of_append with hj | ⟨-, hmem⟩
    · exact hlast j version' object' hj
    · simp at hmem
  registry s3Key row hrow := by
    rw [registry_registerDownloadedFile] at hrow
    by_cases hkey : s3Key = job.s3Key
    · subst hkey
      rw [Dict.get?_set_self, Option.some.injEq] at hrow
      subst hrow
      have huploads : Uploads trace job.s3Key job.version := h.inHand
      exact ⟨job.version, LastRegistered.concat _ _ _, rfl, huploads.append _⟩
    · rw [Dict.get?_set_of_ne _ _ hkey] at hrow
      obtain ⟨version, hlast, hhash, huploads⟩ := h.registry s3Key row hrow
      refine ⟨version, hlast.append fun version' hmem => ?_, hhash, huploads.append _⟩
      rw [List.mem_singleton, Event.registered.injEq] at hmem
      exact hkey hmem.1
  uploads s3Key version huploads := by
    rcases huploads.of_append with hold | ⟨object', hmem⟩
    · exact h.uploads s3Key version hold
    · simp at hmem
  along := halong
  inHand := hinHand

/-- **The synchronisation keeps its invariant.** -/
lemma syncTrace_step {trace events : List (Event β)} {zone zone' : LandingZone β}
    {st st' : SyncState β} (h : SyncTrace cfg trace zone st)
    (hstep : SyncStep cfg zone st events zone' st') : SyncTrace cfg
      (trace ++ events) zone' st' := by
  have halong := hstep.along
    (fun env mappings hmappings mapping hmem => strip_schemaPath_ne_nil hmappings hmem) h.along
  cases hstep with
  | tick =>
    have hinHand : UploadedInHand (trace ++ []) st.pc := by
      rw [List.append_nil]
      exact h.inHand
    exact h.quiet (by simp) (by simp) (fun _ _ hget => hget) rfl halong hinHand
  | evict _ s3Key =>
    have hinHand : UploadedInHand (trace ++ []) st.pc := by
      rw [List.append_nil]
      exact h.inHand
    refine h.quiet (by simp) (by simp) (fun s3Key' object hget => ?_) rfl halong hinHand
    rw [Dict.get?_filter, Option.filter_eq_some_iff] at hget
    exact hget.1
  | upload => exact syncTrace_upload h halong ⟨_, _, at_concat _ _⟩
  | uploadUnconfirmed => exact syncTrace_upload h halong trivial
  | clean =>
    have huploads : Uploads trace _ _ := h.inHand
    exact h.quiet (by simp) (by simp) (fun _ _ hget => hget) rfl halong (huploads.append _)
  | register => exact syncTrace_register h halong trivial
  | registerUnconfirmed => exact syncTrace_register h halong trivial
  | _ => exact h.quiet (by simp) (by simp) (fun _ _ hget => hget) rfl halong trivial

end Sync

/-! ## The invariant of the staging job -/

section Staging

variable (cfg : SyncConfig β) (config : ClassifierConfig)

/-- A fetched file: its key has the contract, and a version with its digest was uploaded. -/
def FileOk (trace : List (Event β)) (fmsName : Str) (file : IngestibleFile) : Prop :=
  contractOf config file.s3Key = some fmsName ∧
    ∃ version, version.hash cfg.xxh = file.xxhash ∧ Uploads trace file.s3Key version

/-- A file whose object is among those read. -/
def HasRead (trace : List (Event β)) (objects : List (Str × Download β)) (file : IngestibleFile) :
    Prop :=
  ∃ version object j, version.hash cfg.xxh = file.xxhash ∧
    ReadAfterUpload trace file.s3Key version object j ∧ (file.s3Key, object) ∈ objects

/-- A version with the digest was integrated into the table of the key's contract. -/
def HasWritten (trace : List (Event β)) (s3Key xxhash : Str) : Prop :=
  ∃ fmsName version, contractOf config s3Key = some fmsName ∧ version.hash cfg.xxh = xxhash ∧
    Integrated trace s3Key version fmsName

/-- The contracts in the hands of the job consist of fetched files. -/
def ContractsOk (trace : List (Event β)) (pending : List (Str × List IngestibleFile)) : Prop :=
  ∀ contract ∈ pending, ∀ file ∈ contract.2, FileOk cfg config trace contract.1 file

/-- What is known of the files in the hands of the job. -/
def StagingPcOk (trace : List (Event β)) : StagingPc β → Prop
  | .idle => True
  | .contracts pending => ContractsOk cfg config trace pending
  | .reading batch objects files =>
      ContractsOk cfg config trace ((batch.fmsName, batch.files) :: batch.rest) ∧
        ∃ done, batch.files = done ++ files ∧ ∀ file ∈ done, HasRead cfg trace objects file
  | .writing batch objects =>
      ContractsOk cfg config trace ((batch.fmsName, batch.files) :: batch.rest) ∧
        ∀ file ∈ batch.files, HasRead cfg trace objects file
  | .committing batch .success => ContractsOk cfg config trace batch.rest ∧
      ∀ file ∈ batch.files, HasWritten cfg config trace file.s3Key file.xxhash
  | .committing batch .failed => ContractsOk cfg config trace batch.rest

/-- The staging job and the trace: a successful attempt was made after a version with its digest
was integrated. -/
structure StagingTrace (trace : List (Event β)) (st : StagingState β) : Prop where
  /-- The ledger. -/
  ledger : ∀ row ∈ st.ledger, row.status = .success →
    HasWritten cfg config trace row.s3Key row.xxhash
  /-- The place in the job. -/
  pc : StagingPcOk cfg config trace st.pc

variable {cfg config}

/-- What was read stays read in a longer trace. -/
lemma HasRead.append {trace : List (Event β)} {objects : List (Str × Download β)}
    {file : IngestibleFile} (h : HasRead cfg trace objects file) (events : List (Event β)) :
    HasRead cfg (trace ++ events) objects file := by
  obtain ⟨version, object, j, hhash, hread, hmem⟩ := h
  exact ⟨version, object, j, hhash, hread.append events, hmem⟩

/-- What was written stays written in a longer trace. -/
lemma HasWritten.append {trace : List (Event β)} {s3Key xxhash : Str}
    (h : HasWritten cfg config trace s3Key xxhash) (events : List (Event β)) :
    HasWritten cfg config (trace ++ events) s3Key xxhash := by
  obtain ⟨fmsName, version, hcontract, hhash, hdone⟩ := h
  exact ⟨fmsName, version, hcontract, hhash, hdone.append events⟩

/-- The contracts stay as they are in a longer trace. -/
lemma ContractsOk.append {trace : List (Event β)} {pending : List (Str × List IngestibleFile)}
    (h : ContractsOk cfg config trace pending) (events : List (Event β)) :
    ContractsOk cfg config (trace ++ events) pending := by
  intro contract hcontract file hfile
  obtain ⟨hkey, version, hhash, huploads⟩ := h contract hcontract file hfile
  exact ⟨hkey, version, hhash, huploads.append events⟩

/-- What is known of the staging job stays true when the run goes on. -/
lemma StagingTrace.append {trace : List (Event β)} {st : StagingState β}
    (h : StagingTrace cfg config trace st) (events : List (Event β)) :
    StagingTrace cfg config (trace ++ events) st where
  ledger row hrow hstatus := (h.ledger row hrow hstatus).append events
  pc := by
    have hpc := h.pc
    cases hst : st.pc with
    | idle => trivial
    | contracts pending =>
      rw [hst] at hpc
      exact ContractsOk.append hpc events
    | reading batch objects files =>
      rw [hst] at hpc
      obtain ⟨hcontracts, done, hsplit, hdone⟩ := hpc
      exact ⟨hcontracts.append events, done, hsplit, fun file hfile =>
        (hdone file hfile).append events⟩
    | writing batch objects =>
      rw [hst] at hpc
      obtain ⟨hcontracts, hdone⟩ := hpc
      exact ⟨hcontracts.append events, fun file hfile => (hdone file hfile).append events⟩
    | committing batch status =>
      rw [hst] at hpc
      cases status with
      | success =>
        obtain ⟨hcontracts, hdone⟩ := hpc
        exact ⟨hcontracts.append events, fun file hfile => (hdone file hfile).append events⟩
      | failed => exact ContractsOk.append hpc events

/-- The fetched files are uploaded ones, grouped by their contracts. -/
lemma contractsOk_fetch {trace : List (Event β)} {zone : LandingZone β} {sync : SyncState β}
    (hsync : SyncTrace cfg trace zone sync) {latest : Str → Option AttemptRow}
    {dbRows : List PendingRow}
    (hrows : dbRows.Perm (fetchIncrementalFilesFromDb zone.registry latest)) :
    ContractsOk cfg config trace (getIncrementalFilesToIngest config dbRows).items := by
  intro contract hcontract file hfile
  obtain ⟨⟨row, hrow, hgate⟩, hname⟩ := mem_getIncrementalFilesToIngest.mp
    ⟨contract.2, Dict.mem_items_iff.mp hcontract, hfile⟩
  obtain ⟨hkey, hhash, hcontractOf⟩ := contractOf_of_gateRow hgate
  obtain ⟨s3Key, registered, hget, -, rfl⟩ :=
    mem_fetchIncrementalFilesFromDb.mp (hrows.mem_iff.mp hrow)
  obtain ⟨version, -, hversion, huploads⟩ := hsync.registry s3Key registered hget
  refine ⟨?_, version, hversion.trans hhash.symm, ?_⟩
  · rw [hkey, hcontractOf, hname]
  · rw [hkey]
    exact huploads

/-- Reading the object of a fetched file reads the upload of its version or a later one. -/
lemma hasRead_read {trace : List (Event β)} {zone : LandingZone β} {sync : SyncState β}
    (hsync : SyncTrace cfg trace zone sync) {fmsName : Str} {file : IngestibleFile}
    (hfile : FileOk cfg config trace fmsName file) {object : Download β}
    (hget : zone.objects.get? (readKey file.s3Key) = some object)
    (objects : List (Str × Download β)) :
    HasRead cfg (trace ++ [.read (readKey file.s3Key) object])
      (objects ++ [(readKey file.s3Key, object)]) file := by
  obtain ⟨-, version, hhash, huploads⟩ := hfile
  obtain ⟨-, hkey⟩ := hsync.uploads file.s3Key version huploads
  rw [hkey] at hget ⊢
  obtain ⟨i, first, hi⟩ := huploads
  obtain ⟨i', version', hi', hlast⟩ := hsync.objects file.s3Key object hget
  exact ⟨version, object, trace.length, hhash,
    ⟨at_concat _ _, i, first, i', version', hi.append _, hlast i version first hi,
      hi'.append _, hi'.lt⟩,
    List.mem_append_right _ (List.mem_singleton_self _)⟩

/-- Writing the objects that were read integrates the versions of their files. -/
lemma hasWritten_write {trace : List (Event β)} {fmsName : Str} {file : IngestibleFile}
    (hfile : FileOk cfg config trace fmsName file) {objects : List (Str × Download β)}
    (hread : HasRead cfg trace objects file) :
    HasWritten cfg config (trace ++ [.wrote fmsName objects]) file.s3Key file.xxhash := by
  obtain ⟨version, object, j, hhash, hread, hmem⟩ := hread
  exact ⟨fmsName, version, hfile.1, hhash, object, j, hread.append _, trace.length, objects,
    hread.1.lt, at_concat _ _, hmem⟩

/-- The attempts at a batch can be added to the ledger: those of a success are at written files. -/
lemma hasWritten_attempts {trace : List (Event β)} {ledger : List AttemptRow} {batch : Batch}
    {status : AttemptStatus}
    (hledger : ∀ row ∈ ledger, row.status = .success →
      HasWritten cfg config trace row.s3Key row.xxhash)
    (hfiles : status = .success → ∀ file ∈ batch.files,
      HasWritten cfg config trace file.s3Key file.xxhash) :
    ∀ row ∈ ledger ++ batch.attempts status, row.status = .success →
      HasWritten cfg config trace row.s3Key row.xxhash := by
  intro row hrow hstatus
  rcases List.mem_append.mp hrow with hrow | hrow
  · exact hledger row hrow hstatus
  · obtain ⟨file, hfile, rfl⟩ := List.mem_map.mp hrow
    exact hfiles hstatus file hfile

/-- **The staging job keeps its invariant**, relying on that of the synchronisation. -/
lemma stagingTrace_step {trace events : List (Event β)} {zone zone' : LandingZone β}
    {sync : SyncState β} (hsync : SyncTrace cfg trace zone sync) {st st' : StagingState β}
    (h : StagingTrace cfg config trace st)
    (hstep : StagingStep config zone st events zone' st') :
    StagingTrace cfg config (trace ++ events) st' := by
  have hledger := (h.append events).ledger
  have hpc := (h.append events).pc
  cases hstep with
  | fetch hlatest hrows => exact ⟨hledger, (contractsOk_fetch hsync hrows).append _⟩
  | finish => exact ⟨hledger, trivial⟩
  | crash => exact ⟨hledger, trivial⟩
  | begin => exact ⟨hledger, hpc, [], rfl, by simp⟩
  | read hget =>
    rename_i batch objects file files object
    obtain ⟨hcontracts, done, hsplit, hdone⟩ := hpc
    obtain ⟨hcontracts', -⟩ := h.pc
    have hfile : FileOk cfg config trace batch.fmsName file := by
      refine hcontracts' _ List.mem_cons_self file ?_
      show file ∈ batch.files
      rw [hsplit]
      simp
    refine ⟨hledger, hcontracts, done ++ [file], by simpa using hsplit, fun other hother => ?_⟩
    rcases List.mem_append.mp hother with hother | hother
    · obtain ⟨version, object', j, hhash, hread, hmem⟩ := hdone other hother
      exact ⟨version, object', j, hhash, hread, List.mem_append_left _ hmem⟩
    · obtain rfl : other = file := List.mem_singleton.mp hother
      exact hasRead_read hsync hfile hget objects
  | loaded =>
    obtain ⟨hcontracts, done, hsplit, hdone⟩ := hpc
    rw [List.append_nil] at hsplit
    exact ⟨hledger, hcontracts, fun file hfile => hdone file (hsplit ▸ hfile)⟩
  | write =>
    obtain ⟨hcontracts, hdone⟩ := h.pc
    obtain ⟨-, hrest⟩ := List.forall_mem_cons.mp hpc.1
    exact ⟨hledger, hrest, fun file hfile =>
      hasWritten_write (hcontracts _ List.mem_cons_self file hfile) (hdone file hfile)⟩
  | writeUnconfirmed => exact ⟨hledger, (List.forall_mem_cons.mp hpc.1).2⟩
  | readFails => exact ⟨hledger, (List.forall_mem_cons.mp hpc.1).2⟩
  | writeFails => exact ⟨hledger, (List.forall_mem_cons.mp hpc.1).2⟩
  | commit =>
    rename_i batch status
    cases status with
    | success => exact ⟨hasWritten_attempts hledger fun _ => hpc.2, hpc.1⟩
    | failed => exact ⟨hasWritten_attempts hledger AttemptStatus.noConfusion, hpc⟩
  | commitFails => exact ⟨hledger, hpc.1⟩
  | commitUnconfirmed => exact ⟨hasWritten_attempts hledger fun _ => hpc.2, hpc.1⟩
  | commitLost => exact ⟨hasWritten_attempts hledger AttemptStatus.noConfusion, trivial⟩

/-- The staging job leaves the landing zone alone, and uploads and registers nothing. -/
lemma syncTrace_of_staging {trace events : List (Event β)} {zone zone' : LandingZone β}
    {sync : SyncState β} (hsync : SyncTrace cfg trace zone sync) {st st' : StagingState β}
    (hstep : StagingStep config zone st events zone' st') :
    SyncTrace cfg (trace ++ events) zone' sync := by
  have hinHand : UploadedInHand (trace ++ events) sync.pc := by
    have h := hsync.inHand
    unfold UploadedInHand at h ⊢
    split at h
    · exact h.append events
    · exact h.append events
    · trivial
  cases hstep <;>
    exact hsync.quiet (by simp) (by simp) (fun _ _ hget => hget) rfl hsync.along hinHand

end Staging

/-! ## No lost update -/

/-- Different versions have different digests. -/
def SyncConfig.DistinctHashes (cfg : SyncConfig β) : Prop :=
  ∀ a b : FileVersion, cfg.Occurs a → cfg.Occurs b → a.hash cfg.xxh = b.hash cfg.xxh → a = b

variable {cfg : SyncConfig β} {config : ClassifierConfig}

/-- A digest without collisions keeps versions apart. -/
lemma SyncConfig.Digests.distinctHashes {xxh3 : List UInt8 → Str} (h : cfg.Digests xxh3) :
    cfg.DistinctHashes := fun _ _ ha hb hhash => (h.hash_eq_iff ha hb).mp hhash

/-- Both invariants hold in every state that the two components reach together. -/
lemma traces_of_reach {trace : List (Event β)} {zone : LandingZone β} {sync : SyncState β}
    {st : StagingState β} (hrun : (pipeline config cfg).Reach trace (zone, sync, st)) :
    SyncTrace cfg trace zone sync ∧ StagingTrace cfg config trace st := by
  refine @Component.interleave_invariant _ _ _ _ (syncComponent cfg) (stagingComponent config)
    LandingZone.IsEmpty (SyncTrace cfg) (fun trace _ st => StagingTrace cfg config trace st)
    ?_ ?_ (fun _ _ _ _ _ _ => syncTrace_step)
    (fun _ _ _ _ _ _ _ hsync hstep => syncTrace_of_staging hsync hstep)
    (fun _ _ _ _ _ _ _ hsync hst hstep => stagingTrace_step hsync hst hstep)
    (fun _ events _ _ _ _ _ hst _ => hst.append events) _ _ hrun
  · rintro zone sync ⟨hobjects, hregistry⟩ hinit
    have hnone : ∀ i (e : Event β), ¬ At [] i e := by simp [At]
    rw [show sync = ⟨∅, .idle⟩ from hinit]
    refine ⟨fun s3Key object hget => ?_, fun s3Key row hrow => ?_, fun s3Key version hup => ?_,
      trivial, trivial⟩
    · rw [hobjects, Dict.get?_empty] at hget
      cases hget
    · rw [hregistry, Dict.get?_empty] at hrow
      cases hrow
    · obtain ⟨i, object, hi⟩ := hup
      exact absurd hi (hnone i _)
  · intro zone st _ hinit
    rw [show st = ⟨[], .idle⟩ from hinit]
    exact ⟨fun row hrow => absurd hrow List.not_mem_nil, trivial⟩

/-- **No landing update is lost.** In every state that the synchronisation and the staging job
reach together, under every ranking of the attempts, a registered key with a contract that the job
would not fetch has been integrated: after its last registered version was uploaded, the object of
that upload or of a later one was read and written to the table of the contract.

**Proof sketch.** A key that is not fetched has a successful attempt with the registered digest. A
successful attempt is only made after a version with its digest was integrated (`StagingTrace`),
and different versions have different digests. -/
theorem integrated_of_not_fetched (hcfg : cfg.DistinctHashes) {trace : List (Event β)}
    {zone : LandingZone β} {sync : SyncState β} {st : StagingState β}
    (hrun : (pipeline config cfg).Reach trace (zone, sync, st))
    {latest : Str → Option AttemptRow} (hlatest : Ranks st.ledger latest)
    {s3Key : Str} {row : RegistryRow} (hrow : zone.registry.get? s3Key = some row)
    {fmsName : Str} (hcontract : contractOf config s3Key = some fmsName)
    (hnot : ∀ r ∈ fetchIncrementalFilesFromDb zone.registry latest, r.s3Key ≠ s3Key) :
    ∃ version, LastRegistered trace s3Key version ∧ Integrated trace s3Key version fmsName := by
  obtain ⟨hsync, hst⟩ := traces_of_reach hrun
  obtain ⟨li, hli, rfl, hhash, hstatus⟩ := exists_success_of_not_fetched hlatest hrow hnot
  obtain ⟨version, hlast, hversion, huploads⟩ := hsync.registry li.s3Key row hrow
  obtain ⟨fmsName', version', hcontract', hversion', hdone⟩ := hst.ledger li hli hstatus
  have hname : fmsName' = fmsName := by
    rw [hcontract, Option.some.injEq] at hcontract'
    exact hcontract'.symm
  have hsame : version' = version := by
    have huploads' : Uploads trace li.s3Key version' := by
      obtain ⟨object, j, hread, -⟩ := id hdone
      exact hread.uploads
    exact hcfg _ _ (hsync.uploads _ _ huploads').1 (hsync.uploads _ _ huploads).1
      (hversion'.trans (hhash.trans hversion.symm))
  exact ⟨version, hlast, hname ▸ hsame ▸ hdone⟩

/-! ## A run that ingests a file -/

/-- A classifier with one publication. -/
def oneContract : ClassifierConfig := .ofYaml (Dict.ofList [("Load".toList,
  Dict.ofList [("ActualTotalLoad".toList, ⟨"Load_r3".toList⟩)])]) []

/-- The attempts after the file was ingested. -/
def oneAttempt : AttemptRow := ⟨oneJob.s3Key, oneJob.version.hash id, 5, .success⟩

/-- The ranking of a ledger with the one attempt. -/
def oneLatest (s3Key : Str) : Option AttemptRow :=
  if s3Key = oneJob.s3Key then some oneAttempt else none

/-- The one version has one digest. -/
lemma oneFileSync_distinctHashes : oneFileSync.DistinctHashes := by
  have honly : ∀ a : FileVersion, oneFileSync.Occurs a →
      a = ⟨"a.csv".toList, 9, "noon".toList⟩ := by
    intro a ⟨t, env, path, file, hfile, hsize, htime⟩
    unfold oneFileSync at hfile
    dsimp only at hfile
    split_ifs at hfile with hname
    cases hfile
    exact FileVersion.eq_iff.mpr ⟨hname.2.2, hsize.symm, htime.symm⟩
  intro a b ha hb _
  rw [honly a ha, honly b hb]

/-- The one attempt is the latest one. -/
lemma ranks_oneLatest : Ranks [oneAttempt] oneLatest := by
  intro s3Key
  unfold oneLatest
  by_cases hkey : s3Key = oneJob.s3Key
  · rw [if_pos hkey]
    exact ⟨List.mem_singleton_self _, hkey.symm, fun row hrow _ => by simp_all⟩
  · rw [if_neg hkey]
    intro row hrow
    obtain rfl := List.mem_singleton.mp hrow
    exact Ne.symm hkey

/-- The file is synchronised and then ingested. -/
lemma reach_oneAttempt : ∃ trace sync, (pipeline oneContract oneFileSync).Reach trace
    (oneZone, sync, ⟨[oneAttempt], .idle⟩) := by
  obtain ⟨trace, tmp, hsync⟩ := reach_oneZone
  have hstart : (pipeline oneContract oneFileSync).Reach trace (oneZone, _, ⟨[], .idle⟩) :=
    Component.reach_interleave_of_alone hsync rfl
  have hnone : Ranks [] fun _ => none := fun _ row hrow => absurd hrow List.not_mem_nil
  have hitems : (getIncrementalFilesToIngest oneContract
      (fetchIncrementalFilesFromDb oneZone.registry fun _ => none)).items =
        [("Load_r3".toList, [⟨oneJob.s3Key, oneJob.version.hash id, 9, "Load".toList,
          "Load_r3".toList⟩])] := by
    decide
  have hkey : readKey oneJob.s3Key = oneJob.s3Key := by decide
  have hobject : oneZone.objects.get? (readKey oneJob.s3Key) = some ⟨1, 0⟩ := by
    rw [hkey]
    exact Dict.get?_set_self _ _ _
  have hfetched := Component.reach_interleave_right hstart
    (StagingStep.fetch hnone (List.Perm.refl _))
  rw [hitems] at hfetched
  have hreading := Component.reach_interleave_right hfetched (StagingStep.begin 5)
  have hread := Component.reach_interleave_right hreading (StagingStep.read hobject)
  have hwriting := Component.reach_interleave_right hread StagingStep.loaded
  have hcommitting := Component.reach_interleave_right hwriting StagingStep.write
  have hcommitted := Component.reach_interleave_right hcommitting StagingStep.commit
  exact ⟨_, _, Component.reach_interleave_right hcommitted StagingStep.finish⟩

/-- The synchronised and ingested file has been integrated. -/
theorem integrated_of_not_fetched_sample : ∃ trace sync version,
    (pipeline oneContract oneFileSync).Reach trace (oneZone, sync, ⟨[oneAttempt], .idle⟩) ∧
      LastRegistered trace oneJob.s3Key version ∧
        Integrated trace oneJob.s3Key version "Load_r3".toList := by
  obtain ⟨trace, sync, hrun⟩ := reach_oneAttempt
  have hrow : oneZone.registry.get? oneJob.s3Key = some (oneJob.registryRow id) :=
    Dict.get?_set_self _ _ _
  have hfetch : fetchIncrementalFilesFromDb oneZone.registry oneLatest = [] := by decide
  obtain ⟨version, hlast, hdone⟩ := integrated_of_not_fetched oneFileSync_distinctHashes hrun
    ranks_oneLatest hrow
      (show contractOf oneContract oneJob.s3Key = some "Load_r3".toList by decide)
    (by simp [hfetch])
  exact ⟨trace, sync, version, hrun, hlast, hdone⟩

end EntsoePipeline
