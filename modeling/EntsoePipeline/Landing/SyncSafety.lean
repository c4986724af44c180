import EntsoePipeline.Landing.Sync

set_option relaxedAutoImplicit false
set_option autoImplicit false

/-!
# The registry never runs ahead of the bucket

A file is skipped as synced when the registry has the digest of its listed version and the object
exists. In every reachable state the object then holds bytes that were downloaded when the file had
the listed version, or later.

## Main definitions

* `EntsoePipeline.SyncConfig.Assumed` — the assumptions on configuration, server and digest.
* `EntsoePipeline.SyncConfig.SourceOf` — the remote file behind an object key.
* `EntsoePipeline.SyncInv` — the invariant that couples bucket, registry and the file in hand.

## Main results

* `EntsoePipeline.SyncConfig.sourceOf_unique` — a key has one remote file behind it.
* `EntsoePipeline.syncInv_step` — every move keeps the invariant.
* `EntsoePipeline.SyncInv.current` — an object with a listed version registered is not older than
  it.
* `EntsoePipeline.skipped_isSynced` — what a skip guarantees.
-/

namespace EntsoePipeline

open Py Transition

variable {β : Type*}

/-! ## Keys and their remote files -/

namespace SyncConfig

variable (cfg : SyncConfig β)

/-- The assumptions: the landing schema has paths of four segments, the names of remote files are
segments, and the digest does not collide on the versions that occur. -/
structure Assumed : Prop where
  /-- The landing schema. -/
  paths : ∃ paths : List LandingPath, cfg.schemaFolders = paths.map LandingPath.text
  /-- The remote names. -/
  names : ∀ t env path name file, cfg.remote t env path name = some file → name ≠ [] ∧ '/' ∉ name
  /-- The digest. -/
  collisionFree : ∀ a b : FileVersion, cfg.Occurs a → cfg.Occurs b →
    a.hash cfg.xxh = b.hash cfg.xxh → idempotencyText a.name a.sizeBytes a.lastUpdated =
      idempotencyText b.name b.sizeBytes b.lastUpdated

/-- The mapping of a landing path in an environment. -/
def IsTarget (env : Environment) (mapping : Mapping) : Prop :=
  ∃ path : LandingPath, path.mapping cfg.cm env.name (cfg.activeFolders env) = some mapping

/-- The remote file `name` in the directory `path` is stored under the key. -/
def SourceOf (s3Key : Str) (env : Environment) (path name : Str) : Prop :=
  ∃ mapping, cfg.IsTarget env mapping ∧ path = (listingOf mapping).path ∧
    s3Key = strip '/' mapping.schemaPath ++ '/' :: name ∧ name ≠ [] ∧ '/' ∉ name

end SyncConfig

/-- The key of a file below a landing path is a path of five segments. -/
lemma LandingPath.text_append (path : LandingPath) (name : Segment '/') :
    path.text ++ '/' :: name.text =
      renderPath [path.env, path.root, path.domain, path.folder, name] := by
  have h := @join_concat '/' ([path.env, path.root, path.domain, path.folder].map Segment.text)
    (by simp) name.text
  rw [text, renderPath, ← h]
  rfl

/-- The first segment of a path of an environment determines the environment. -/
lemma Environment.name_injective (cm : CaseMap) {env env' : Environment}
    (h : cm.lower env.name = cm.lower env'.name) : env = env' := by
  rw [cm.lower_ascii _ (by cases env <;> decide), cm.lower_ascii _ (by cases env' <;> decide)] at h
  cases env <;> cases env' <;> first | rfl | exact absurd h (by decide)

namespace SyncConfig

variable {cfg : SyncConfig β}

/-- A key determines the remote file that is stored under it. -/
lemma sourceOf_unique {s3Key : Str} {env env' : Environment} {path path' name name' : Str}
    (h : cfg.SourceOf s3Key env path name) (h' : cfg.SourceOf s3Key env' path' name') :
    env = env' ∧ path = path' ∧ name = name' := by
  obtain ⟨m, ⟨landing, hm⟩, rfl, hkey, hne, hslash⟩ := h
  obtain ⟨m', ⟨landing', hm'⟩, rfl, hkey', hne', hslash'⟩ := h'
  obtain ⟨henv, hschema, -⟩ := LandingPath.mapping_eq_some hm
  obtain ⟨henv', hschema', -⟩ := LandingPath.mapping_eq_some hm'
  rw [hschema, LandingPath.text, strip_renderPath] at hkey
  rw [hschema', LandingPath.text, strip_renderPath] at hkey'
  have hsegs := renderPath_injective (by simp) (by simp)
    ((landing.text_append ⟨name, hne, hslash⟩).symm.trans
      ((hkey.symm.trans hkey').trans (landing'.text_append ⟨name', hne', hslash'⟩)))
  simp only [List.cons.injEq, Segment.mk.injEq, and_true] at hsegs
  obtain ⟨h₁, h₂, h₃, h₄, rfl⟩ := hsegs
  obtain rfl : landing = landing' := by
    cases landing
    cases landing'
    simp_all
  obtain rfl : env = env' := Environment.name_injective cfg.cm (henv.symm.trans henv')
  obtain rfl : m = m' := Option.some.inj (hm.symm.trans hm')
  exact ⟨rfl, rfl, rfl⟩

/-- The folders that a run synchronises are mappings of landing paths. -/
lemma isTarget_of_mem (hcfg : cfg.Assumed) {env : Environment} {mappings : List Mapping}
    (h : cfg.targetMappings env = .ok mappings) {mapping : Mapping} (hmem : mapping ∈ mappings) :
    cfg.IsTarget env mapping := by
  obtain ⟨paths, hpaths⟩ := hcfg.paths
  exact exists_landingPath_of_mem hpaths h hmem

end SyncConfig

/-- The remote folder of a landing path is a path of segments. -/
lemma exists_remoteFolder_eq {cm : CaseMap} {env : Str} {active : Dict Str EntryValue}
    {path : LandingPath} {mapping : Mapping} (h : path.mapping cm env active = some mapping) :
    ∃ segs : List (Segment '/'), segs ≠ [] ∧ remoteFolder mapping = renderPath segs := by
  obtain ⟨-, -, -, hrel, hactive⟩ := LandingPath.mapping_eq_some h
  unfold remoteFolder
  split_ifs with htop
  · have hone : ∀ a : Segment '/', a.text = renderPath [a] := fun a => (join_singleton _ _).symm
    simp only [LandingPath.segments, List.mem_cons, List.not_mem_nil, or_false] at hactive
    rcases hactive with h | h | h | h <;> exact ⟨_, by simp, h.trans (hone _)⟩
  · exact ⟨_, by simp, hrel⟩

/-- A file is downloaded from the directory it was listed in. -/
lemma downloadFolder_eq {cm : CaseMap} {env : Str} {active : Dict Str EntryValue}
    {path : LandingPath} {mapping : Mapping} (h : path.mapping cm env active = some mapping) :
    downloadFolder mapping.topLevelFolder (listFolder mapping) = (listingOf mapping).path := by
  obtain ⟨-, -, htop, -, -⟩ := LandingPath.mapping_eq_some h
  obtain ⟨segs, hsegs, hremote⟩ := exists_remoteFolder_eq h
  unfold downloadFolder listingOf listFolder
  rw [htop]
  by_cases hext : endsWithAny (remoteFolder mapping) fmsExtensions = true
  · have hsqueeze : squeeze '/' ('/' :: (path.root.text ++ ['/'])) = '/' ::
        (path.root.text ++ ['/']) :=
      squeeze_cons_segment path.root ['/']
    have hends : endsWith ('/' :: (path.root.text ++ ['/'])) ['/'] = true :=
      endsWith_iff.mpr ⟨'/' :: path.root.text, rfl⟩
    rw [if_pos hext]
    dsimp only
    rw [hsqueeze, if_pos hends]
    rfl
  · have hnocsv : ¬ endsWith (remoteFolder mapping) ".csv".toList = true := fun hcsv =>
      hext (endsWithAny_iff.mpr ⟨_, List.mem_cons_self, endsWith_iff.mp hcsv⟩)
    have hcons : path.root.text ++ '/' :: renderPath segs = renderPath (path.root :: segs) :=
      (renderPath_cons hsegs).symm
    have hends : ¬ endsWith ('/' :: renderPath (path.root :: segs)) ['/'] = true := by
      intro hends
      obtain ⟨s, hs⟩ := endsWith_iff.mp hends
      have hlast := congrArg List.getLast? hs
      rw [List.getLast?_cons_of_ne_nil (renderPath_ne_nil (by simp))] at hlast
      exact renderPath_getLast? (hlast.symm.trans (by simp))
    rw [hremote] at hnocsv
    rw [if_neg hext]
    dsimp only
    rw [hremote, hcons, squeeze_renderPath, if_neg hends, listFolderPath,
      if_neg (renderPath_ne_nil hsegs), if_neg hnocsv, ← hcons]
    simp

/-! ## The invariant -/

section Invariant

variable (cfg : SyncConfig β)

/-- Bytes that the server had for a file when they were downloaded. -/
def SyncConfig.Downloaded (now : ℕ) (env : Environment) (path name : Str) (object : Download β) :
    Prop :=
  object.downloadedAt ≤ now ∧
    ∃ file, cfg.remote object.downloadedAt env path name = some file ∧ file.bytes = object.bytes

/-- The bytes in hand for a key that are not uploaded yet. -/
def InFlight (pc : SyncPc β) (s3Key : Str) (object : Download β) : Prop :=
  match pc with
  | .file (.write csvData) job => job.s3Key = s3Key ∧ object = csvData
  | .file (.upload csvData) job => job.s3Key = s3Key ∧ object = csvData
  | _ => False

/-- The bytes stored or in hand for a key. -/
def Held (zone : LandingZone β) (st : SyncState β) (s3Key : Str) (object : Download β) : Prop :=
  zone.objects.get? s3Key = some object ∨ InFlight st.pc s3Key object

/-- The file in hand had its version at a time. -/
def ListedAt (t : ℕ) (job : Job) : Prop :=
  cfg.HasVersion t job.env (listingOf job.mapping).path job.version

/-- What is known of the file in hand: once it is downloaded, its bytes are not older than its
version. -/
def PhaseOk (zone : LandingZone β) (tmp : Dict Str (Download β)) (job : Job) : Phase β → Prop
  | .check => True
  | .transfer => True
  | .write csvData => ∃ t ≤ csvData.downloadedAt, ListedAt cfg t job
  | .upload csvData => tmp.get? job.tmpName = some csvData ∧
      ∃ t ≤ csvData.downloadedAt, ListedAt cfg t job
  | .clean => ∃ t ≤ zone.now, ListedAt cfg t job ∧
      ∀ object, zone.objects.get? job.s3Key = some object → t ≤ object.downloadedAt
  | .register => ∃ t ≤ zone.now, ListedAt cfg t job ∧
      ∀ object, zone.objects.get? job.s3Key = some object → t ≤ object.downloadedAt

/-- What is known of the file in hand, if there is one. -/
def InHandOk (zone : LandingZone β) (tmp : Dict Str (Download β)) : SyncPc β → Prop
  | .file phase job => PhaseOk cfg zone tmp job phase
  | _ => True

/-- The invariant of the synchronisation: held bytes stem from the remote file of their key, and
they are not older than the registered version. -/
structure SyncInv (zone : LandingZone β) (st : SyncState β) : Prop where
  /-- The bytes stored or in hand. -/
  held : ∀ s3Key object, Held zone st s3Key object → ∃ env path name,
    cfg.SourceOf s3Key env path name ∧ cfg.Downloaded zone.now env path name object
  /-- The registered versions. -/
  registry : ∀ s3Key row, zone.registry.get? s3Key = some row → ∃ env path version t,
    cfg.SourceOf s3Key env path version.name ∧ t ≤ zone.now ∧ cfg.HasVersion t env path version ∧
      version.hash cfg.xxh = row.xxhash ∧
        ∀ object, Held zone st s3Key object → t ≤ object.downloadedAt
  /-- The place in the run. -/
  along : st.pc.Along cfg cfg.IsTarget zone.now
  /-- The file in hand. -/
  inHand : InHandOk cfg zone st.tmp st.pc

end Invariant

section Steps

variable {cfg : SyncConfig β}

/-- What is known of the file in hand still holds when time passes and objects are removed. -/
lemma InHandOk.mono {zone zone' : LandingZone β} {tmp : Dict Str (Download β)} {pc : SyncPc β}
    (h : InHandOk cfg zone tmp pc) (hnow : zone.now ≤ zone'.now)
    (hobjects : ∀ s3Key object, zone'.objects.get? s3Key = some object →
      zone.objects.get? s3Key = some object) : InHandOk cfg zone' tmp pc := by
  have hlater : ∀ job : Job, (∃ t ≤ zone.now, ListedAt cfg t job ∧
      ∀ object, zone.objects.get? job.s3Key = some object → t ≤ object.downloadedAt) →
        ∃ t ≤ zone'.now, ListedAt cfg t job ∧
          ∀ object, zone'.objects.get? job.s3Key = some object → t ≤ object.downloadedAt := by
    intro job ⟨t, ht, hlisted, hlater⟩
    exact ⟨t, ht.trans hnow, hlisted, fun object hget => hlater object (hobjects _ _ hget)⟩
  cases pc with
  | file phase job =>
    cases phase with
    | clean => exact hlater job h
    | register => exact hlater job h
    | _ => exact h
  | _ => trivial

/-- A move that registers nothing and holds no new bytes keeps the invariant, when the new place in
the run is known to be right. -/
lemma SyncInv.mono {zone zone' : LandingZone β} {st st' : SyncState β} (h : SyncInv cfg zone st)
    (hnow : zone.now ≤ zone'.now) (hregistry : zone'.registry = zone.registry)
    (hheld : ∀ s3Key object, Held zone' st' s3Key object → Held zone st s3Key object)
    (halong : st'.pc.Along cfg cfg.IsTarget zone'.now)
    (hinHand : InHandOk cfg zone' st'.tmp st'.pc) : SyncInv cfg zone' st' where
  held s3Key object hobject := by
    obtain ⟨env, path, name, hsource, hle, hfile⟩ := h.held s3Key object (hheld _ _ hobject)
    exact ⟨env, path, name, hsource, hle.trans hnow, hfile⟩
  registry s3Key row hrow := by
    rw [hregistry] at hrow
    obtain ⟨env, path, version, t, hsource, ht, hversion, hhash, hlater⟩ :=
      h.registry s3Key row hrow
    exact ⟨env, path, version, t, hsource, ht.trans hnow, hversion, hhash,
      fun object hobject => hlater object (hheld _ _ hobject)⟩
  along := halong
  inHand := hinHand

/-- A move that changes the place in the run only, to one with no bytes in hand. -/
lemma SyncInv.goto {zone : LandingZone β} {st st' : SyncState β} (h : SyncInv cfg zone st)
    (halong : st'.pc.Along cfg cfg.IsTarget zone.now)
    (hfree : ∀ s3Key object, ¬ InFlight st'.pc s3Key object)
    (hinHand : InHandOk cfg zone st'.tmp st'.pc) : SyncInv cfg zone st' :=
  h.mono le_rfl rfl (fun s3Key object hheld => hheld.elim Or.inl fun hin =>
    absurd hin (hfree s3Key object)) halong hinHand

/-- The remote file behind the key of a listed file. -/
lemma sourceOf_job (hcfg : cfg.Assumed) {job : Job} (htarget : cfg.IsTarget job.env job.mapping)
    {t : ℕ} (hlisted : ListedAt cfg t job) :
    cfg.SourceOf job.s3Key job.env (listingOf job.mapping).path job.version.name := by
  obtain ⟨file, hfile, -, -⟩ := hlisted
  obtain ⟨hne, hslash⟩ := hcfg.names _ _ _ _ _ hfile
  exact ⟨job.mapping, htarget, rfl, rfl, hne, hslash⟩

/-- A download brings bytes that are not older than any registered version. -/
lemma syncInv_download (hcfg : cfg.Assumed) {zone : LandingZone β} {tmp : Dict Str (Download β)}
    {job : Job} (h : SyncInv cfg zone ⟨tmp, .file .transfer job⟩) {file : RemoteFile β}
    (hfile : cfg.remote zone.now job.env
      (downloadFolder job.mapping.topLevelFolder (listFolder job.mapping)) job.file.itemName =
        some file) :
    SyncInv cfg zone ⟨tmp, .file (.write ⟨file.bytes, zone.now⟩) job⟩ := by
  obtain ⟨t, ht, hlisted⟩ := h.along.listed
  obtain ⟨landing, hlanding⟩ := h.along.1
  rw [downloadFolder_eq hlanding] at hfile
  refine ⟨fun s3Key object hobject => ?_, fun s3Key row hrow => ?_, h.along, t, ht, hlisted⟩
  · rcases hobject with hstored | ⟨rfl, rfl⟩
    · exact h.held s3Key object (Or.inl hstored)
    · exact ⟨_, _, _, sourceOf_job hcfg h.along.1 hlisted, le_rfl, file, hfile, rfl⟩
  · obtain ⟨env, path, version, t', hsource', ht', hversion, hhash, hlater⟩ :=
      h.registry s3Key row hrow
    refine ⟨env, path, version, t', hsource', ht', hversion, hhash, fun object hobject => ?_⟩
    rcases hobject with hstored | ⟨-, rfl⟩
    · exact hlater object (Or.inl hstored)
    · exact ht'

/-- After an upload the object of the key is the one that was in hand. -/
lemma held_of_upload {zone : LandingZone β} {tmp : Dict Str (Download β)} {job : Job}
    {csvData : Download β} {pc : SyncPc β} (hfree : ∀ s3Key object, ¬ InFlight pc s3Key object)
    {s3Key : Str} {object : Download β}
    (h : Held (uploadFileToS3 zone job.s3Key csvData) ⟨tmp, pc⟩ s3Key object) :
    Held zone ⟨tmp, .file (.upload csvData) job⟩ s3Key object := by
  rcases h with hstored | hin
  · rw [objects_uploadFileToS3] at hstored
    by_cases hkey : s3Key = job.s3Key
    · subst hkey
      rw [Dict.get?_set_self, Option.some.injEq] at hstored
      exact Or.inr ⟨rfl, hstored.symm⟩
    · rw [Dict.get?_set_of_ne _ _ hkey] at hstored
      exact Or.inl hstored
  · exact absurd hin (hfree s3Key object)

/-- An upload keeps the invariant, whatever place without bytes in hand comes next. -/
lemma syncInv_upload {zone : LandingZone β} {tmp : Dict Str (Download β)} {job : Job}
    {csvData object : Download β} (h : SyncInv cfg zone ⟨tmp, .file (.upload csvData) job⟩)
    (hobject : tmp.get? job.tmpName = some object) {pc : SyncPc β}
    (hfree : ∀ s3Key object, ¬ InFlight pc s3Key object)
    (halong : pc.Along cfg cfg.IsTarget zone.now)
    (hinHand : object = csvData → csvData.downloadedAt ≤ zone.now →
      InHandOk cfg (uploadFileToS3 zone job.s3Key object) tmp pc) :
    SyncInv cfg (uploadFileToS3 zone job.s3Key object) ⟨tmp, pc⟩ := by
  obtain rfl : object = csvData := Option.some.inj (hobject.symm.trans h.inHand.1)
  obtain ⟨-, -, -, -, hle, -⟩ := h.held job.s3Key object (Or.inr ⟨rfl, rfl⟩)
  exact h.mono le_rfl rfl (fun s3Key object hheld => held_of_upload hfree hheld) halong
    (hinHand rfl hle)

/-- A registration keeps the invariant, whatever place without bytes in hand comes next. -/
lemma syncInv_register (hcfg : cfg.Assumed) {zone : LandingZone β} {tmp : Dict Str (Download β)}
    {job : Job} (h : SyncInv cfg zone ⟨tmp, .file .register job⟩) {pc : SyncPc β}
    (hfree : ∀ s3Key object, ¬ InFlight pc s3Key object)
    (halong : pc.Along cfg cfg.IsTarget zone.now) (hinHand : InHandOk cfg zone tmp pc) :
    SyncInv cfg (registerDownloadedFile zone job.s3Key (job.registryRow cfg.xxh)) ⟨tmp, pc⟩ := by
  obtain ⟨t, ht, hlisted, hlater⟩ := h.inHand
  have hstored : ∀ s3Key object,
      Held (registerDownloadedFile zone job.s3Key (job.registryRow cfg.xxh))
        ⟨tmp, pc⟩ s3Key object → zone.objects.get? s3Key = some object := by
    intro s3Key object hheld
    exact hheld.elim id fun hin => absurd hin (hfree s3Key object)
  refine ⟨fun s3Key object hobject => h.held s3Key object (Or.inl (hstored _ _ hobject)),
    fun s3Key row hrow => ?_, halong, hinHand.mono le_rfl fun _ _ hget => hget⟩
  rw [registry_registerDownloadedFile] at hrow
  by_cases hkey : s3Key = job.s3Key
  · subst hkey
    rw [Dict.get?_set_self, Option.some.injEq] at hrow
    subst hrow
    exact ⟨_, _, job.version, t, sourceOf_job hcfg h.along.1 hlisted, ht, hlisted, rfl,
      fun object hobject => hlater object (hstored _ _ hobject)⟩
  · rw [Dict.get?_set_of_ne _ _ hkey] at hrow
    obtain ⟨env, path, version, t', hsource, ht', hversion, hhash, hlater'⟩ :=
      h.registry s3Key row hrow
    exact ⟨env, path, version, t', hsource, ht', hversion, hhash,
      fun object hobject => hlater' object (Or.inl (hstored _ _ hobject))⟩

/-- **The step lemma.** Every move of the synchronisation, of the clock or of the bucket keeps the
invariant. -/
lemma syncInv_step (hcfg : cfg.Assumed) {zone zone' : LandingZone β} {st st' : SyncState β}
    {events : List (Event β)} (h : SyncInv cfg zone st)
    (hstep : SyncStep cfg zone st events zone' st') : SyncInv cfg zone' st' := by
  have halong : st'.pc.Along cfg cfg.IsTarget zone'.now := hstep.along
    (fun env mappings hmappings mapping hmem => SyncConfig.isTarget_of_mem hcfg hmappings hmem)
    h.along
  cases hstep with
  | tick =>
    have hle : zone.now ≤ zone.now + 1 := Nat.le_succ _
    exact h.mono hle rfl (fun _ _ hheld => hheld) halong (h.inHand.mono hle fun _ _ hget => hget)
  | evict _ s3Key =>
    have hkept : ∀ s3Key' object, (zone.objects.filter fun key _ => key ≠ s3Key).get? s3Key' =
        some object → zone.objects.get? s3Key' = some object := by
      intro s3Key' object hget
      rw [Dict.get?_filter, Option.filter_eq_some_iff] at hget
      exact hget.1
    exact h.mono le_rfl rfl (fun s3Key' object hheld => hheld.imp_left (hkept s3Key' object)) halong
      (h.inHand.mono le_rfl hkept)
  | start => exact h.goto halong (fun _ _ hin => hin) trivial
  | finish => exact h.goto halong (fun _ _ hin => hin) trivial
  | crash => exact h.goto halong (fun _ _ hin => hin) trivial
  | list => exact h.goto halong (fun _ _ hin => hin) trivial
  | listFails => exact h.goto halong (fun _ _ hin => hin) trivial
  | nextFolder => exact h.goto halong (fun _ _ hin => hin) trivial
  | skipEmpty => exact h.goto halong (fun _ _ hin => hin) trivial
  | verifyDisk => exact h.goto halong (fun _ _ hin => hin) trivial
  | diskFull => exact h.goto halong (fun _ _ hin => hin) trivial
  | skip => exact h.goto halong (fun _ _ hin => hin) trivial
  | needed => exact h.goto halong (fun _ _ hin => hin) trivial
  | download hfile => exact syncInv_download hcfg h hfile
  | write =>
    exact h.mono le_rfl rfl (fun _ _ hheld => hheld) halong ⟨Dict.get?_set_self _ _ _, h.inHand⟩
  | writeFails => exact h.goto halong (fun _ _ hin => hin) trivial
  | upload hobject =>
    obtain ⟨-, t, ht, hlisted⟩ := h.inHand
    refine syncInv_upload h hobject (fun _ _ hin => hin) halong fun heq hle =>
      ⟨t, ht.trans hle, hlisted, fun object' hget => ?_⟩
    rw [objects_uploadFileToS3, Dict.get?_set_self, Option.some.injEq] at hget
    rw [← hget, heq]
    exact ht
  | uploadUnconfirmed hobject =>
    exact syncInv_upload h hobject (fun _ _ hin => hin) halong fun _ _ => trivial
  | clean => exact h.goto halong (fun _ _ hin => hin) h.inHand
  | register => exact syncInv_register hcfg h (fun _ _ hin => hin) halong trivial
  | registerUnconfirmed => exact syncInv_register hcfg h (fun _ _ hin => hin) halong trivial
  | fail => exact h.goto halong (fun _ _ hin => hin) trivial

/-- The invariant holds in every reachable state. -/
lemma syncInv_of_reach (hcfg : cfg.Assumed) {trace : List (Event β)}
    {s : LandingZone β × SyncState β} (hrun : (syncSystem cfg).Reach trace s) :
    SyncInv cfg s.1 s.2 := by
  refine @System.Reach.invariant _ _ (syncSystem cfg) (fun _ s => SyncInv cfg s.1 s.2)
    ?_ ?_ _ _ hrun
  · intro s hinit
    obtain ⟨⟨hobjects, hregistry⟩, hst⟩ := hinit
    rw [show s.2 = ⟨∅, .idle⟩ from hst]
    refine ⟨fun s3Key object hheld => ?_, fun s3Key row hrow => ?_, trivial, trivial⟩
    · rcases hheld with hstored | hin
      · rw [hobjects, Dict.get?_empty] at hstored
        cases hstored
      · exact hin.elim
    · rw [hregistry, Dict.get?_empty] at hrow
      cases hrow
  · intro trace events s s' hinv hstep
    exact syncInv_step hcfg hinv hstep

/-- A stored object whose registered version is a listed one is not older than it.

**Proof sketch.** The registered digest is that of a version of the remote file behind the key, and
the stored bytes are not older than it (`SyncInv`). A key has one remote file behind it and the
digest does not collide, so that version is the listed one. -/
lemma SyncInv.current (hcfg : cfg.Assumed) {zone : LandingZone β} {st : SyncState β}
    (h : SyncInv cfg zone st) {job : Job} (htarget : cfg.IsTarget job.env job.mapping) {u : ℕ}
    (hlisted : ListedAt cfg u job) {row : RegistryRow}
    (hrow : zone.registry.get? job.s3Key = some row)
    (hhash : row.xxhash = job.version.hash cfg.xxh) {object : Download β}
    (hobject : zone.objects.get? job.s3Key = some object) :
    cfg.Downloaded zone.now job.env (listingOf job.mapping).path job.version.name object ∧
      ∃ t ≤ object.downloadedAt, ListedAt cfg t job := by
  have hsource := sourceOf_job hcfg htarget hlisted
  obtain ⟨env, path, version, t, hsource', -, hversion, hhash', hlater⟩ :=
    h.registry job.s3Key row hrow
  obtain ⟨rfl, rfl, hname⟩ := SyncConfig.sourceOf_unique hsource' hsource
  obtain ⟨env', path', name', hsource'', hdownloaded⟩ := h.held job.s3Key object (Or.inl hobject)
  obtain ⟨rfl, rfl, rfl⟩ := SyncConfig.sourceOf_unique hsource'' hsource
  have hsame : version = job.version := by
    have htext := hcfg.collisionFree version job.version ⟨_, _, _, hversion⟩ ⟨_, _, _, hlisted⟩
      (hhash'.trans hhash)
    rw [hname] at htext
    exact FileVersion.eq_iff.mpr ⟨hname, idempotencyText_injective htext⟩
  rw [hsame] at hversion
  exact ⟨hdownloaded, t, hlater object (Or.inl hobject), hversion⟩

/-- **The registry never runs ahead of the bucket.** When a run skips a file as synced, the object
of its key holds the bytes that the server had for the file when they were downloaded, and this
was not before the file had the listed version.

**Proof sketch.** The invariant holds in every reachable state, the file in hand was listed, and a
skip compares the registered digest with that of the listed version (`SyncInv.current`). -/
theorem skipped_isSynced (hcfg : cfg.Assumed) {trace : List (Event β)}
    {zone zone' : LandingZone β} {st st' : SyncState β}
    (hrun : (syncSystem cfg).Reach trace (zone, st)) {events : List (Event β)}
    (hstep : SyncStep cfg zone st events zone' st') {s3Key : Str} {version : FileVersion}
    (hskip : Event.skipped s3Key version ∈ events) :
    ∃ env path object t, cfg.SourceOf s3Key env path version.name ∧
      zone.objects.get? s3Key = some object ∧
      cfg.Downloaded zone.now env path version.name object ∧
      cfg.HasVersion t env path version ∧ t ≤ object.downloadedAt := by
  have hinv := syncInv_of_reach hcfg hrun
  cases hstep with
  | skip hexists hcheck =>
    rename_i tmp job s3ObjectExists
    obtain ⟨rfl, rfl⟩ : s3Key = job.s3Key ∧ version = job.version := by simpa using hskip
    obtain ⟨htrue, row, hrow, hhash⟩ := checkIdempotency_eq_true_iff.mp hcheck
    obtain ⟨object, hobject⟩ := hexists htrue
    obtain ⟨u, -, hlisted⟩ := hinv.along.listed
    obtain ⟨hdownloaded, t, ht, hversion⟩ :=
      hinv.current hcfg hinv.along.1 hlisted hrow hhash hobject
    exact ⟨_, _, object, t, sourceOf_job hcfg hinv.along.1 hlisted, hobject, hdownloaded, hversion,
      ht⟩
  | _ => simp at hskip

end Steps

/-! ## A run that skips a synced file -/

/-- A configuration with one folder and a server with one file. -/
def oneFileSync : SyncConfig ℕ where
  cm := CaseMap.ascii
  xxh := id
  checklist := Dict.ofList [("IOP".toList, [⟨"TP_export".toList,
    Dict.ofList [("Load".toList, Dict.ofList [("Load_r3".toList, .bool true)])], ∅⟩])]
  schemaFolders := ["iop/TP_export/Load/Load_r3".toList]
  remote _ env path name :=
    if env = .iop ∧ path = "/TP_export/Load_r3/".toList ∧ name = "a.csv".toList then
      some ⟨9, "noon".toList, 1⟩
    else none

/-- The mapping of the folder. -/
def oneMapping : Mapping where
  schemaPath := "iop/TP_export/Load/Load_r3".toList
  activeFolder := "Load_r3".toList
  topLevelFolder := "TP_export".toList
  remoteFolderPath := "Load/Load_r3".toList
  val := .bool true

/-- The listing entry of the file. -/
def oneItem : RawItem :=
  ⟨some "File".toList, some "a.csv".toList, some 9, some 4, some "noon".toList, some "7".toList⟩

/-- The file in the hands of a run. -/
def oneJob : Job := ⟨.iop, oneMapping, oneItem, [], []⟩

/-- The landing zone after the file was synchronised. -/
def oneZone : LandingZone ℕ :=
  registerDownloadedFile (uploadFileToS3 ⟨0, ∅, ∅⟩ oneJob.s3Key ⟨1, 0⟩) oneJob.s3Key
    (oneJob.registryRow id)

/-- The assumptions hold of the one file. -/
lemma oneFileSync_assumed : oneFileSync.Assumed where
  paths := ⟨[⟨⟨"iop".toList, by decide, by decide⟩, ⟨"TP_export".toList, by decide, by decide⟩,
    ⟨"Load".toList, by decide, by decide⟩, ⟨"Load_r3".toList, by decide, by decide⟩⟩], by decide⟩
  names t env path name file h := by
    unfold oneFileSync at h
    dsimp only at h
    split_ifs at h with hfile
    rw [hfile.2.2]
    decide
  collisionFree a b _ _ h := h

/-- The server has always shown the one file. -/
lemma oneFileSync_shows (now : ℕ) :
    oneFileSync.Shows now .iop (listingOf oneMapping).path [oneItem] := by
  intro item hitem _
  rw [List.mem_singleton] at hitem
  subst hitem
  exact ⟨now, le_rfl, ⟨9, "noon".toList, 1⟩, rfl, rfl, rfl⟩

/-- A first run synchronises the file and a second one comes to it again. -/
lemma reach_oneZone : ∃ trace tmp, (syncSystem oneFileSync).Reach trace
    (oneZone, ⟨tmp, .file .check oneJob⟩) := by
  have htargets : oneFileSync.targetMappings .iop = .ok [oneMapping] := by decide
  have hselect : selectFilesToSync RawItem.itemName (fun _ => .ok [oneItem]) oneMapping =
      .ok [oneItem] := by decide
  have hneeded : checkIdempotency (∅ : Dict Str RegistryRow) oneJob.s3Key
      (oneJob.version.hash oneFileSync.xxh) false = false := by decide
  have hfile : oneFileSync.remote 0 oneJob.env
      (downloadFolder oneMapping.topLevelFolder (listFolder oneMapping)) oneItem.itemName =
        some ⟨9, "noon".toList, 1⟩ := rfl
  have hempty : (syncSystem oneFileSync).Reach [] (⟨0, ∅, ∅⟩, ⟨∅, .idle⟩) :=
    .start ⟨⟨rfl, rfl⟩, rfl⟩
  obtain ⟨trace, hcheck⟩ := @reach_check _ _ _ _ _ oneJob hempty _ htargets (oneFileSync_shows 0)
    hselect (by decide)
  obtain ⟨trace', tmp, hidle⟩ := reach_stored hcheck ⟨rfl, rfl⟩ hneeded hfile
  obtain ⟨trace'', hagain⟩ := @reach_check _ _ _ _ _ oneJob hidle _ htargets (oneFileSync_shows 0)
    hselect (by decide)
  exact ⟨trace'', tmp, hagain⟩

/-- The skip of the second run. -/
theorem skipped_isSynced_second : ∃ env path object t,
    oneFileSync.SourceOf oneJob.s3Key env path "a.csv".toList ∧
      oneZone.objects.get? oneJob.s3Key = some object ∧
      oneFileSync.Downloaded 0 env path "a.csv".toList object ∧
      oneFileSync.HasVersion t env path oneJob.version ∧ t ≤ object.downloadedAt := by
  obtain ⟨trace, tmp, hrun⟩ := reach_oneZone
  have hcheck : checkIdempotency oneZone.registry oneJob.s3Key
      (oneJob.version.hash oneFileSync.xxh) true = true := by decide
  exact skipped_isSynced oneFileSync_assumed hrun
    (SyncStep.skip (fun _ => ⟨⟨1, 0⟩, Dict.get?_set_self _ _ _⟩) hcheck) (List.mem_singleton_self _)

end EntsoePipeline
