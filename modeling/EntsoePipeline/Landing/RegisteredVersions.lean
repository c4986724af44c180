import EntsoePipeline.Landing.SyncSafety
import EntsoePipeline.Lib.LastWrite

set_option relaxedAutoImplicit false
set_option autoImplicit false

/-!
# The registry as a map of versions

The landing registry keeps a digest under each key, and the synchronisation compares digests. In
every reachable state the registry describes, under each key, the version that was registered last,
and the comparison of the digests is the comparison of name, size and time.

## Main definitions

* `EntsoePipeline.registeredVersion` — the version of a key that a run registered last.
* `EntsoePipeline.RegistryRow.Describes` — a row is that of a version.
* `EntsoePipeline.RegistersVersions` — the invariant: the registry is the map of these versions.
* `EntsoePipeline.SyncConfig.Digests` — the assumptions on the digest and the times.

## Main results

* `EntsoePipeline.registersVersions_step` — every move keeps the invariant.
* `EntsoePipeline.SyncConfig.Digests.hash_eq_iff` — the digests of two versions are the same exactly
  when the versions are.
* `EntsoePipeline.idempotencyHash_determines_version` — what a comparison with the registry decides.

## Implementation notes

A digest of fixed length has collisions, so that its freedom of collisions is only assumed on the
encoded texts of the versions that occur on the server.
-/

namespace EntsoePipeline

open Py Transition LastWrite

variable {β : Type*}

/-! ## The versions of a run -/

/-- The version that an event registers under a key. -/
def registration (s3Key : Str) : Event β → Option FileVersion
  | .registered key version => if key = s3Key then some version else none
  | _ => none

/-- The version of a key that a run registered last. -/
def registeredVersion (trace : List (Event β)) (s3Key : Str) : Option FileVersion :=
  lastWrite (registration s3Key) trace

/-- An event registers a version under its key. -/
lemma registration_eq_some_iff {s3Key : Str} {e : Event β} {version : FileVersion} :
    registration s3Key e = some version ↔ e = .registered s3Key version := by
  cases e with
  | registered key version' =>
    by_cases hkey : key = s3Key
    · simp [registration, hkey]
    · simp [registration, hkey]
  | _ => simp [registration]

/-- Events that register nothing keep the registered versions. -/
lemma registeredVersion_append {trace events : List (Event β)} {s3Key : Str}
    (h : ∀ version, Event.registered s3Key version ∉ events) :
    registeredVersion (trace ++ events) s3Key = registeredVersion trace s3Key := by
  have hnone : lastWrite (registration s3Key) events = none := by
    rw [lastWrite_eq_none_iff]
    intro e he
    cases hwrite : registration s3Key e with
    | none => rfl
    | some version =>
      rw [registration_eq_some_iff] at hwrite
      exact absurd (hwrite ▸ he) (h version)
  rw [registeredVersion, lastWrite_append, hnone, Option.none_or, registeredVersion]

/-- A registration changes the registered version of its key only. -/
lemma registeredVersion_concat (trace : List (Event β)) (key s3Key : Str) (version : FileVersion) :
    registeredVersion (trace ++ [.registered key version]) s3Key =
      if key = s3Key then some version else registeredVersion trace s3Key := by
  rw [registeredVersion, lastWrite_concat, registration]
  split_ifs with hkey
  · rfl
  · rfl

/-! ## The registry -/

/-- A row is that of a version. -/
structure RegistryRow.Describes (xxh : Str → Str) (row : RegistryRow) (version : FileVersion) :
    Prop where
  /-- The file name. -/
  fileName : row.fileName = version.name
  /-- The uncompressed size. -/
  fileSizeBytes : row.fileSizeBytes = version.sizeBytes
  /-- The digest. -/
  xxhash : row.xxhash = version.hash xxh

/-- The row that is registered for a file is that of its listed version. -/
lemma Job.describes_registryRow (job : Job) (xxh : Str → Str) :
    (job.registryRow xxh).Describes xxh job.version :=
  ⟨rfl, rfl, rfl⟩

/-- The invariant: the registry describes the versions that were registered last, and these are
versions of files on the server. -/
structure RegistersVersions (cfg : SyncConfig β) (trace : List (Event β)) (zone : LandingZone β)
    (st : SyncState β) : Prop where
  /-- The rows. -/
  registry : ∀ s3Key, Option.Rel (RegistryRow.Describes cfg.xxh) (zone.registry.get? s3Key)
    (registeredVersion trace s3Key)
  /-- The registered versions. -/
  occurs : ∀ s3Key version, registeredVersion trace s3Key = some version → cfg.Occurs version
  /-- The place in the run. -/
  along : st.pc.Along cfg (fun _ _ => True) zone.now

section Steps

variable {cfg : SyncConfig β} {trace events : List (Event β)} {zone zone' : LandingZone β}
  {st st' : SyncState β}

/-- What a move does to the registry: it registers the file in hand, or nothing. -/
lemma SyncStep.registry_cases (hstep : SyncStep cfg zone st events zone' st') :
    (∃ job, st.pc = .file .register job ∧ events = [.registered job.s3Key job.version] ∧
      zone'.registry = zone.registry.set job.s3Key (job.registryRow cfg.xxh)) ∨
    ((∀ s3Key version, Event.registered s3Key version ∉ events) ∧
      zone'.registry = zone.registry) := by
  cases hstep with
  | register => exact Or.inl ⟨_, rfl, rfl, rfl⟩
  | registerUnconfirmed => exact Or.inl ⟨_, rfl, rfl, rfl⟩
  | skip => exact Or.inr ⟨by simp, rfl⟩
  | upload => exact Or.inr ⟨by simp, rfl⟩
  | uploadUnconfirmed => exact Or.inr ⟨by simp, rfl⟩
  | _ => exact Or.inr ⟨fun _ _ => List.not_mem_nil, rfl⟩

/-- **The moves keep the registry.** Every move keeps the invariant. -/
lemma registersVersions_step (h : RegistersVersions cfg trace zone st)
    (hstep : SyncStep cfg zone st events zone' st') :
    RegistersVersions cfg (trace ++ events) zone' st' := by
  have halong := hstep.along (fun _ _ _ _ _ => trivial) h.along
  rcases hstep.registry_cases with ⟨job, hpc, rfl, hregistry⟩ | ⟨hevents, hregistry⟩
  · refine ⟨fun s3Key => ?_, fun s3Key version hlast => ?_, halong⟩
    · rw [hregistry, registeredVersion_concat]
      split_ifs with hkey
      · rw [← hkey, Dict.get?_set_self]
        exact .some (job.describes_registryRow cfg.xxh)
      · rw [Dict.get?_set_of_ne _ _ (Ne.symm hkey)]
        exact h.registry s3Key
    · rw [registeredVersion_concat] at hlast
      split_ifs at hlast with hkey
      · -- the registered version is that of the file in hand, which was listed
        obtain rfl : job.version = version := Option.some.inj hlast
        have hinHand := h.along
        rw [hpc] at hinHand
        obtain ⟨t, -, hversion⟩ := hinHand.listed
        exact ⟨t, _, _, hversion⟩
      · exact h.occurs s3Key version hlast
  · refine ⟨fun s3Key => ?_, fun s3Key version hlast => ?_, halong⟩
    · rw [hregistry, registeredVersion_append (hevents s3Key)]
      exact h.registry s3Key
    · rw [registeredVersion_append (hevents s3Key)] at hlast
      exact h.occurs s3Key version hlast

/-- The invariant holds in every reachable state. -/
lemma registersVersions_of_reach (hrun : (syncSystem cfg).Reach trace (zone, st)) :
    RegistersVersions cfg trace zone st := by
  refine @System.Reach.invariant _ _ (syncSystem cfg)
    (fun trace s => RegistersVersions cfg trace s.1 s.2) ?_ ?_ trace (zone, st) hrun
  · intro s hinit
    obtain ⟨⟨-, hregistry⟩, hst⟩ := hinit
    rw [show s.2 = ⟨∅, .idle⟩ from hst]
    refine ⟨fun s3Key => ?_, fun s3Key version hlast => ?_, trivial⟩
    · rw [hregistry, Dict.get?_empty]
      exact .none
    · cases hlast
  · intro trace events s s' hinv hstep
    exact registersVersions_step hinv hstep

/-- A row describes the version that was registered last under its key. -/
lemma RegistersVersions.exists_registered (h : RegistersVersions cfg trace zone st) {s3Key : Str}
    {row : RegistryRow} (hrow : zone.registry.get? s3Key = some row) :
    ∃ registered, registeredVersion trace s3Key = some registered ∧
      row.Describes cfg.xxh registered := by
  have hrel := h.registry s3Key
  rw [hrow] at hrel
  cases hlast : registeredVersion trace s3Key with
  | none =>
    rw [hlast] at hrel
    cases hrel
  | some registered =>
    rw [hlast] at hrel
    cases hrel with
    | some hdescribes => exact ⟨registered, rfl, hdescribes⟩

/-- A key under which a version was registered has a row. -/
lemma RegistersVersions.exists_row (h : RegistersVersions cfg trace zone st) {s3Key : Str}
    {registered : FileVersion} (hlast : registeredVersion trace s3Key = some registered) :
    ∃ row, zone.registry.get? s3Key = some row ∧ row.Describes cfg.xxh registered := by
  have hrel := h.registry s3Key
  rw [hlast] at hrel
  cases hrow : zone.registry.get? s3Key with
  | none =>
    rw [hrow] at hrel
    cases hrel
  | some row =>
    rw [hrow] at hrel
    cases hrel with
    | some hdescribes => exact ⟨row, rfl, hdescribes⟩

end Steps

/-! ## The digest -/

/-- The digests of two versions are the same exactly when the versions are, when the digest does not
collide on their encoded texts and their times have no underscore. -/
lemma calculateIdempotencyHash_eq_iff {xxh3 : List UInt8 → Str} {name name' : Str} {a b : ℤ}
    {t u : Str} (hxxh3 : Set.InjOn xxh3
      {encodeUtf8 (idempotencyText name a t), encodeUtf8 (idempotencyText name' b u)})
    (ht : '_' ∉ t) (hu : '_' ∉ u) :
    calculateIdempotencyHash (textDigest xxh3) name a t =
        calculateIdempotencyHash (textDigest xxh3) name' b u ↔ name = name' ∧ a = b ∧ t = u := by
  unfold calculateIdempotencyHash textDigest
  rw [hxxh3.eq_iff (by simp) (by simp), encodeUtf8_injective.eq_iff, idempotencyText_eq_iff ht hu]

namespace SyncConfig

/-- The encoded texts of the versions that occur on the server. -/
def digestedBytes (cfg : SyncConfig β) : Set (List UInt8) :=
  {bytes | ∃ version, cfg.Occurs version ∧
    bytes = encodeUtf8 (idempotencyText version.name version.sizeBytes version.lastUpdated)}

/-- The assumptions on digest and times: the texts are encoded and then digested, the digest does
not collide on the versions that occur, and their times have no underscore. -/
structure Digests (cfg : SyncConfig β) (xxh3 : List UInt8 → Str) : Prop where
  /-- The digest of a text. -/
  xxh : cfg.xxh = textDigest xxh3
  /-- The digest of bytes. -/
  collisionFree : Set.InjOn xxh3 cfg.digestedBytes
  /-- The times. -/
  times : ∀ version, cfg.Occurs version → '_' ∉ version.lastUpdated

/-- Versions that occur have the same digest exactly when they are the same. -/
lemma Digests.hash_eq_iff {cfg : SyncConfig β} {xxh3 : List UInt8 → Str} (h : cfg.Digests xxh3)
    {a b : FileVersion} (ha : cfg.Occurs a) (hb : cfg.Occurs b) :
    a.hash cfg.xxh = b.hash cfg.xxh ↔ a = b := by
  have hpair : Set.InjOn xxh3 {encodeUtf8 (idempotencyText a.name a.sizeBytes a.lastUpdated),
      encodeUtf8 (idempotencyText b.name b.sizeBytes b.lastUpdated)} := by
    refine h.collisionFree.mono ?_
    rintro bytes (rfl | rfl)
    · exact ⟨a, ha, rfl⟩
    · exact ⟨b, hb, rfl⟩
  rw [h.xxh, FileVersion.eq_iff]
  exact calculateIdempotencyHash_eq_iff hpair (h.times a ha) (h.times b hb)

end SyncConfig

/-! ## The comparison with the registry -/

section Comparison

variable {cfg : SyncConfig β} {xxh3 : List UInt8 → Str} {trace : List (Event β)}
  {zone : LandingZone β} {tmp : Dict Str (Download β)} {phase : Phase β} {job : Job}

/-- The digest of a registered row is the expected one exactly when the version that was registered
last is the listed one. -/
lemma RegistersVersions.hash_eq_iff (h : RegistersVersions cfg trace zone ⟨tmp, .file phase job⟩)
    (hcfg : cfg.Digests xxh3) {row : RegistryRow}
    (hrow : zone.registry.get? job.s3Key = some row) :
    ∃ registered, registeredVersion trace job.s3Key = some registered ∧
      row.Describes cfg.xxh registered ∧
        (job.version.hash cfg.xxh = row.xxhash ↔ job.version = registered) := by
  obtain ⟨registered, hlast, hdescribes⟩ := h.exists_registered hrow
  obtain ⟨t, -, hlisted⟩ := h.along.listed
  refine ⟨registered, hlast, hdescribes, ?_⟩
  rw [hdescribes.xxhash]
  exact hcfg.hash_eq_iff ⟨t, _, _, hlisted⟩ (h.occurs _ _ hlast)

/-- A file is found synced exactly when its object exists and its listed version is the one that was
registered last. -/
lemma RegistersVersions.checkIdempotency_iff
    (h : RegistersVersions cfg trace zone ⟨tmp, .file phase job⟩) (hcfg : cfg.Digests xxh3)
    (s3ObjectExists : Bool) :
    checkIdempotency zone.registry job.s3Key (job.version.hash cfg.xxh) s3ObjectExists = true ↔
      s3ObjectExists = true ∧ registeredVersion trace job.s3Key = some job.version := by
  rw [checkIdempotency_eq_true_iff]
  refine and_congr_right fun _ => ?_
  constructor
  · rintro ⟨row, hrow, hhash⟩
    obtain ⟨registered, hlast, -, hiff⟩ := h.hash_eq_iff hcfg hrow
    rw [hlast, hiff.mp hhash.symm]
  · intro hlast
    obtain ⟨row, hrow, hdescribes⟩ := h.exists_row hlast
    exact ⟨row, hrow, hdescribes.xxhash⟩

end Comparison

/-- **The digest determines the version.** The digested text determines the name, the size and the
time, whatever the name is, when the time has no underscore. In every state of a run that has a file
in hand, a row under its key is that of the version that was registered last, and its digest is the
expected one exactly when name, size and time are the same; the file is found synced exactly when
its object exists and its listed version is the one that was registered last.

**Proof sketch.** The last underscore of the text is the one in front of the time and the last one
of the rest is the one in front of the size. Every move keeps the registry a map of registered
versions (`registersVersions_step`), which occur on the server as the listed one does. -/
theorem idempotencyHash_determines_version :
    (∀ (name name' : Str) (sizeBytes sizeBytes' : ℤ) (lastUpdated lastUpdated' : Str),
      '_' ∉ lastUpdated → '_' ∉ lastUpdated' →
        (idempotencyText name sizeBytes lastUpdated =
            idempotencyText name' sizeBytes' lastUpdated' ↔
          name = name' ∧ sizeBytes = sizeBytes' ∧ lastUpdated = lastUpdated')) ∧
    ∀ (xxh3 : List UInt8 → Str) (cfg : SyncConfig β), cfg.Digests xxh3 →
      ∀ trace zone tmp phase job,
        (syncSystem cfg).Reach trace (zone, ⟨tmp, .file phase job⟩) →
          (∀ row, zone.registry.get? job.s3Key = some row → ∃ registered,
            registeredVersion trace job.s3Key = some registered ∧
              row.Describes cfg.xxh registered ∧
                (job.version.hash cfg.xxh = row.xxhash ↔ job.version.name = registered.name ∧
                  job.version.sizeBytes = registered.sizeBytes ∧
                    job.version.lastUpdated = registered.lastUpdated)) ∧
          ∀ s3ObjectExists,
            checkIdempotency zone.registry job.s3Key (job.version.hash cfg.xxh) s3ObjectExists =
                true ↔
              s3ObjectExists = true ∧ registeredVersion trace job.s3Key = some job.version := by
  refine ⟨fun name name' sizeBytes sizeBytes' lastUpdated lastUpdated' htime htime' =>
    idempotencyText_eq_iff htime htime', fun xxh3 cfg hcfg trace zone tmp phase job hrun => ?_⟩
  have hinv := registersVersions_of_reach hrun
  refine ⟨fun row hrow => ?_, hinv.checkIdempotency_iff hcfg⟩
  obtain ⟨registered, hlast, hdescribes, hiff⟩ := hinv.hash_eq_iff hcfg hrow
  exact ⟨registered, hlast, hdescribes, hiff.trans FileVersion.eq_iff⟩

/-! ### A file that changes -/

/-- A listing entry of the file. -/
def changingItem (size : ℤ) (lastUpdated : String) : RawItem :=
  ⟨some "File".toList, some "a_1.csv".toList, some size, some 4, some lastUpdated.toList,
    some "7".toList⟩

/-- The file before the change. -/
def firstItem : RawItem := changingItem 9 "2026-04-15T12:00:00Z"

/-- The file after the change. -/
def secondItem : RawItem := changingItem 12 "2026-04-16T12:00:00Z"

/-- The digests of the two versions. -/
def changingDigest (bytes : List UInt8) : Str :=
  if bytes = encodeUtf8 "a_1.csv_9_2026-04-15T12:00:00Z".toList then
    "821b91860d8dbc4d865367ccf5b0f0e6".toList
  else "85aa029aaab8c4a1964396a9f0d3eb2a".toList

/-- A configuration with one folder, whose file changes after the first moment. -/
def changingSync : SyncConfig ℕ where
  cm := CaseMap.ascii
  xxh := textDigest changingDigest
  checklist := oneFileSync.checklist
  schemaFolders := oneFileSync.schemaFolders
  remote t env path name :=
    if env = .iop ∧ path = "/TP_export/Load_r3/".toList ∧ name = "a_1.csv".toList then
      if t = 0 then some ⟨9, "2026-04-15T12:00:00Z".toList, 1⟩
      else some ⟨12, "2026-04-16T12:00:00Z".toList, 2⟩
    else none

/-- The file in the hands of the first run. -/
def firstJob : Job := ⟨.iop, oneMapping, firstItem, [], []⟩

/-- The file in the hands of the second run. -/
def secondJob : Job := ⟨.iop, oneMapping, secondItem, [], []⟩

/-- The landing zone after the first run, when the file has changed. -/
def changedZone : LandingZone ℕ :=
  { registerDownloadedFile (uploadFileToS3 ⟨0, ∅, ∅⟩ firstJob.s3Key ⟨1, 0⟩) firstJob.s3Key
      (firstJob.registryRow changingSync.xxh) with now := 1 }

/-- The file has two versions. -/
lemma changingSync_occurs {version : FileVersion} (h : changingSync.Occurs version) :
    version = itemVersion firstItem ∨ version = itemVersion secondItem := by
  obtain ⟨t, env, path, file, hfile, hsize, htime⟩ := h
  unfold changingSync at hfile
  dsimp only at hfile
  split_ifs at hfile with hname hfirst
  · cases hfile
    exact Or.inl (FileVersion.eq_iff.mpr ⟨hname.2.2, hsize.symm, htime.symm⟩)
  · cases hfile
    exact Or.inr (FileVersion.eq_iff.mpr ⟨hname.2.2, hsize.symm, htime.symm⟩)

/-- The two versions have different digests. -/
lemma changingSync_digests : changingSync.Digests changingDigest where
  xxh := rfl
  collisionFree := by
    rintro - ⟨a, ha, rfl⟩ - ⟨b, hb, rfl⟩ h
    rcases changingSync_occurs ha with rfl | rfl
    · rcases changingSync_occurs hb with rfl | rfl
      · rfl
      · exact absurd h (by decide +kernel)
    · rcases changingSync_occurs hb with rfl | rfl
      · exact absurd h (by decide +kernel)
      · rfl
  times version h := by
    rcases changingSync_occurs h with rfl | rfl
    · decide
    · decide

/-- A first run synchronises the file, and a second one comes to it after it has changed. -/
lemma reach_changedZone : ∃ trace tmp, (syncSystem changingSync).Reach trace
    (changedZone, ⟨tmp, .file .check secondJob⟩) := by
  have htargets : changingSync.targetMappings .iop = .ok [oneMapping] := by decide
  have hselect : ∀ item, item = firstItem ∨ item = secondItem →
      selectFilesToSync RawItem.itemName (fun _ => .ok [item]) oneMapping = .ok [item] := by
    rintro item (rfl | rfl)
    · decide
    · decide
  have hfirst : changingSync.Shows 0 .iop (listingOf oneMapping).path [firstItem] := by
    intro item hitem _
    obtain rfl := List.mem_singleton.mp hitem
    exact ⟨0, le_rfl, ⟨9, "2026-04-15T12:00:00Z".toList, 1⟩, rfl, rfl, rfl⟩
  have hsecond : changingSync.Shows 1 .iop (listingOf oneMapping).path [secondItem] := by
    intro item hitem _
    obtain rfl := List.mem_singleton.mp hitem
    exact ⟨1, le_rfl, ⟨12, "2026-04-16T12:00:00Z".toList, 2⟩, rfl, rfl, rfl⟩
  have hneeded : checkIdempotency (∅ : Dict Str RegistryRow) firstJob.s3Key
      (firstJob.version.hash changingSync.xxh) false = false := rfl
  have hfile : changingSync.remote 0 firstJob.env
      (downloadFolder oneMapping.topLevelFolder (listFolder oneMapping)) firstItem.itemName =
        some ⟨9, "2026-04-15T12:00:00Z".toList, 1⟩ := rfl
  have hempty : (syncSystem changingSync).Reach [] (⟨0, ∅, ∅⟩, ⟨∅, .idle⟩) :=
    .start ⟨⟨rfl, rfl⟩, rfl⟩
  obtain ⟨trace, hcheck⟩ := @reach_check _ _ _ _ _ firstJob hempty _ htargets hfirst
    (hselect _ (Or.inl rfl)) (by decide)
  obtain ⟨trace', tmp, hidle⟩ := reach_stored hcheck ⟨rfl, rfl⟩ hneeded hfile
  have htick := Component.reach_alone_next hidle (SyncStep.tick _ _)
  obtain ⟨trace'', hagain⟩ := @reach_check _ _ _ _ _ secondJob htick _ htargets hsecond
    (hselect _ (Or.inr rfl)) (by decide)
  exact ⟨trace'', tmp, hagain⟩

/-- The changed file has another digest than the registered one, so that it is a new version. -/
theorem idempotencyHash_determines_version_changed :
    idempotencyText "a_1".toList 9 "noon".toList ≠ idempotencyText "a".toList 19 "noon".toList ∧
      ∃ trace tmp registered, (syncSystem changingSync).Reach trace
          (changedZone, ⟨tmp, .file .check secondJob⟩) ∧
        registeredVersion trace secondJob.s3Key = some registered ∧
          ¬ (secondJob.version.name = registered.name ∧
            secondJob.version.sizeBytes = registered.sizeBytes ∧
              secondJob.version.lastUpdated = registered.lastUpdated) ∧
          checkIdempotency changedZone.registry secondJob.s3Key
            (secondJob.version.hash changingSync.xxh) true = false := by
  obtain ⟨htext, hruns⟩ := @idempotencyHash_determines_version ℕ
  obtain ⟨trace, tmp, hrun⟩ := reach_changedZone
  obtain ⟨hrows, hcheck⟩ := hruns changingDigest changingSync changingSync_digests trace changedZone
    tmp .check secondJob hrun
  have hrow : changedZone.registry.get? secondJob.s3Key =
      some (firstJob.registryRow changingSync.xxh) := Dict.get?_set_self _ _ _
  obtain ⟨registered, hlast, -, hiff⟩ := hrows _ hrow
  have hhash : secondJob.version.hash changingSync.xxh ≠
      (firstJob.registryRow changingSync.xxh).xxhash := by
    decide +kernel
  have hsame := hiff.not.mp hhash
  refine ⟨fun h => ?_, trace, tmp, registered, hrun, hlast, hsame, ?_⟩
  · have hname := ((htext _ _ _ _ _ _ (by decide) (by decide)).mp h).1
    exact absurd hname (by decide)
  · rw [Bool.eq_false_iff]
    intro htrue
    have hversion := ((hcheck true).mp htrue).2
    rw [hlast, Option.some.injEq] at hversion
    exact hsame (FileVersion.eq_iff.mp hversion.symm)

end EntsoePipeline
