import EntsoePipeline.Landing.SyncIdempotence

set_option relaxedAutoImplicit false
set_option autoImplicit false

/-!
# What one failing file does to the others

An exception at a file ends the loop over the files of its folder. The other folders are not
affected; in the folder itself the files before the failing one are synced and the files behind it
are not visited. A file whose time cannot be read fails in every run, so the files behind it are
never synced.

## Main definitions

* `EntsoePipeline.Served` — a file had its turn and was found synced, or uploaded and registered.
* `EntsoePipeline.NoneRaises` — no call raises at files that are visited one after the other.
* `EntsoePipeline.syncRuns` — the landing zone after several runs.

## Main results

* `EntsoePipeline.served_iff` — which files a run serves.
* `EntsoePipeline.untouched_behind_unparsable` — the files behind one whose time cannot be read.
-/

namespace EntsoePipeline

open Py

variable {β : Type*}

/-! ## One run -/

section OneRun

variable {xxh : Str → Str} {reader : IsoReader}

/-- The file at a position had its turn, and was found synced or was uploaded and registered. -/
def Served (ends : List FileEnd) (position : ℕ) : Prop :=
  ends[position]? = some .alreadySynced ∨ ends[position]? = some .downloaded

variable (xxh reader) in
/-- No call raises at these files when they are visited one after the other. -/
def NoneRaises (visits : List (Visit β)) (zone : LandingZone β) : Prop :=
  ∀ before bad after, visits = before ++ bad :: after →
    ¬ Raises xxh reader bad (Failstop.turn (syncFile xxh reader) before zone)

/-- No file raises exactly when the loop is clean. -/
lemma noneRaises_iff_clean {visits : List (Visit β)} {zone : LandingZone β} :
    NoneRaises xxh reader visits zone ↔
      Failstop.Clean (syncFile xxh reader) FileEnd.isFailed visits zone := by
  unfold NoneRaises Failstop.Clean
  simp only [← isFailed_syncFile_iff, Bool.not_eq_true]

/-- The loop over the files of a folder serves a file at which every call succeeds exactly when no
call raises at the files before it. -/
lemma served_syncFiles_iff (before : List (Visit β)) {good : Visit β} (after : List (Visit β))
    (zone : LandingZone β) (hgood : Healthy reader good) :
    Served (syncFiles xxh reader (before ++ good :: after) zone).1 before.length ↔
      NoneRaises xxh reader before zone := by
  rw [noneRaises_iff_clean, syncFiles, Served]
  rcases @Failstop.getElem?_run _ _ _ (syncFile xxh reader) FileEnd.isFailed before good after
    zone with ⟨hclean, hsome⟩ | ⟨hnot, hnone⟩
  · rw [hsome, Option.some.injEq, Option.some.injEq]
    exact iff_of_true (syncFile_of_healthy hgood _) hclean
  · rw [hnone]
    exact iff_of_false (by simp) hnot

/-- A file at which every call succeeds is synced behind its turn. -/
lemma synced_turn_of_healthy (before : List (Visit β)) {good : Visit β}
    (hgood : Healthy reader good) (zone : LandingZone β) :
    Synced xxh good.mapping good.file
      (Failstop.turn (syncFile xxh reader) (before ++ [good]) zone) := by
  rw [Failstop.turn_append, Failstop.turn_cons, Failstop.turn_nil]
  refine synced_syncFile hgood.fileId ?_
  rcases @syncFile_of_healthy _ xxh reader _ hgood
    (Failstop.turn (syncFile xxh reader) before zone) with hend | hend
  · rw [hend]
    rfl
  · rw [hend]
    rfl

variable {cfg : SyncConfig β} {answers : RunAnswers β}

/-- The folders are left one after the other. -/
lemma syncMappings_append (index : ℕ) (before after : List Mapping) (zone : LandingZone β) :
    syncMappings cfg reader answers index (before ++ after) zone =
      ⟨(syncMappings cfg reader answers index before zone).folders ++
        (syncMappings cfg reader answers (index + before.length) after
          (syncMappings cfg reader answers index before zone).zone).folders,
        (syncMappings cfg reader answers (index + before.length) after
          (syncMappings cfg reader answers index before zone).zone).zone⟩ := by
  induction before generalizing index zone with
  | nil => rfl
  | cons mapping before ih =>
    have hindex : index + (before.length + 1) = index + 1 + before.length := by omega
    simp only [List.cons_append, syncMappings, ih, List.length_cons, hindex]

/-- Every mapping has its result. -/
lemma length_folders_syncMappings (index : ℕ) (mappings : List Mapping) (zone : LandingZone β) :
    (syncMappings cfg reader answers index mappings zone).folders.length = mappings.length := by
  induction mappings generalizing index zone with
  | nil => rfl
  | cons mapping mappings ih => simp only [syncMappings, List.length_cons, ih]

variable (reader cfg answers) in
/-- The landing zone when a run has left these folders. -/
def zoneBehind (before : List Mapping) (zone : LandingZone β) : LandingZone β :=
  (syncMappings cfg reader answers 0 before zone).zone

/-- **Which files a run serves.** A run comes to every folder. Of a folder that can be listed, it
serves a file at which every call succeeds if and only if no call raises at the files of the same
folder before it; the file is then registered in its version, and its object is stored.

**Proof sketch.** A folder that fails does not end the loop over the folders, and a file that fails
ends the loop over the files. -/
theorem served_iff {env : Environment} {zone : LandingZone β} {result : SyncResult β}
    {before after : List Mapping} {mapping : Mapping} {files : List RawItem}
    (hrun : syncActiveDomains cfg reader answers env zone = .ok result)
    (htargets : cfg.targetMappings env = .ok (before ++ mapping :: after))
    (hselect : selectFilesToSync RawItem.itemName (answers.listing before.length) mapping =
      .ok files) :
    ∃ ends, result.folders[before.length]? = some (.ok ends) ∧
      ∀ front good behind,
        visitsOf mapping (answers.files before.length) files = front ++ good :: behind →
        Healthy reader good →
        (Served ends front.length ↔
          NoneRaises cfg.xxh reader front (zoneBehind reader cfg answers before zone)) ∧
        Synced cfg.xxh good.mapping good.file (Failstop.turn (syncFile cfg.xxh reader)
          (front ++ [good]) (zoneBehind reader cfg answers before zone)) := by
  obtain ⟨mappings, hmappings, rfl⟩ := syncActiveDomains_eq_ok_iff.mp hrun
  cases htargets.symm.trans hmappings
  refine ⟨(syncFiles cfg.xxh reader (visitsOf mapping (answers.files before.length) files)
    (zoneBehind reader cfg answers before zone)).1, ?_, ?_⟩
  · rw [syncMappings_append, List.getElem?_append_right (by rw [length_folders_syncMappings]),
      length_folders_syncMappings, Nat.sub_self]
    simp only [syncMappings, syncFolder, Nat.zero_add, hselect, List.getElem?_cons_zero]
    rfl
  · intro front good behind hvisits hgood
    rw [hvisits]
    exact ⟨served_syncFiles_iff front behind _ hgood, synced_turn_of_healthy front hgood _⟩

end OneRun

/-- The mapping of the folder of `loadSync`. -/
def loadMapping : Mapping :=
  ⟨"iop/TP_export/Load/Load_r3".toList, "Load_r3".toList, "TP_export".toList,
    "Load/Load_r3".toList, .bool true⟩

/-- A file whose time can be read. -/
def timedItem : RawItem := loadItem "b.csv" "2026-04-15T12:00:00Z" "8"

/-- A file without a time. -/
def untimedItem : RawItem := loadItem "a.csv" "" "7"

/-- A file with a time is healthy. -/
lemma healthy_timedItem : Healthy noonReader (⟨loadMapping, timedItem, calmFile⟩ : Visit ℕ) where
  fileId := by decide
  disk := by decide
  registryAnswers := rfl
  transfers := ⟨rfl, rfl, rfl, rfl, by decide +kernel, rfl⟩

/-- A file that stands before one without a time is served. -/
theorem served_beforeUntimed : ∃ result ends,
    syncActiveDomains loadSync noonReader (calmAnswers [timedItem, untimedItem]) .iop ⟨0, ∅, ∅⟩ =
      .ok result ∧ result.folders[0]? = some (.ok ends) ∧ Served ends 0 := by
  obtain ⟨ends, hends, hiff⟩ := @served_iff _ noonReader loadSync
    (calmAnswers [timedItem, untimedItem]) .iop ⟨0, ∅, ∅⟩ _ [] [] loadMapping
    [timedItem, untimedItem] rfl (by decide +kernel) (by decide +kernel)
  refine ⟨_, ends, rfl, hends, (hiff [] _ _ rfl healthy_timedItem).1.mpr ?_⟩
  exact noneRaises_iff_clean.mpr (Failstop.clean_nil _)

/-! ## Many runs -/

section ManyRuns

variable (cfg : SyncConfig β) (reader : IsoReader)

/-- The landing zone after runs for an environment, one after the other. -/
def syncRuns (env : Environment) (runs : List (RunAnswers β)) (zone : LandingZone β) :
    LandingZone β :=
  runs.foldl (fun zone answers =>
    match syncActiveDomains cfg reader answers env zone with
    | .error _ => zone
    | .ok result => result.zone) zone

variable {cfg reader} {xxh : Str → Str}

/-- What every folder keeps under the answers for its position, a run keeps. -/
lemma syncMappings_preserves {I : LandingZone β → Prop} {answers : RunAnswers β} {index : ℕ}
    {mappings : List Mapping}
    (h : ∀ position mapping, mappings[position]? = some mapping → ∀ zone, I zone →
      I (syncFolder cfg.xxh reader mapping (answers.listing (index + position))
        (answers.files (index + position)) zone).2)
    {zone : LandingZone β} (hzone : I zone) :
    I (syncMappings cfg reader answers index mappings zone).zone := by
  induction mappings generalizing index zone with
  | nil => exact hzone
  | cons mapping mappings ih =>
    refine ih (fun position next hnext => ?_) (h 0 mapping rfl zone hzone)
    rw [show index + 1 + position = index + (position + 1) by omega]
    exact h (position + 1) next hnext

/-- A file whose time cannot be read is not registered when it is stored. -/
lemma registry_storeFile_of_unparsable {visit : Visit β}
    (htime : parseIsoDatetime reader (itemVersion visit.file).lastUpdated = none) (csvData : β)
    (zone : LandingZone β) :
    (storeFile xxh reader visit csvData zone).2.registry = zone.registry := by
  unfold storeFile
  dsimp only
  cases visit.answers.upload with
  | failed => rfl
  | unconfirmed => rfl
  | done =>
    rw [htime]
    dsimp only
    split_ifs
    · rfl
    · rfl

/-- A file whose time cannot be read is not registered when it is transferred. -/
lemma registry_transferFile_of_unparsable {visit : Visit β}
    (htime : parseIsoDatetime reader (itemVersion visit.file).lastUpdated = none)
    (zone : LandingZone β) : (transferFile xxh reader visit zone).2.registry = zone.registry := by
  unfold transferFile
  cases visit.answers.csvData with
  | none => rfl
  | some csvData =>
    dsimp only
    split_ifs
    · rfl
    · exact registry_storeFile_of_unparsable htime csvData zone

/-- A file whose time cannot be read is never registered. -/
lemma registry_syncFile_of_unparsable {visit : Visit β}
    (htime : parseIsoDatetime reader (itemVersion visit.file).lastUpdated = none)
    (zone : LandingZone β) : (syncFile xxh reader visit zone).2.registry = zone.registry := by
  unfold syncFile
  dsimp only
  split_ifs
  · rfl
  · rfl
  · rfl
  · rfl
  · exact registry_transferFile_of_unparsable htime zone

/-- The pass over a file whose time cannot be read and that is not registered fails. -/
lemma isFailed_syncFile_of_unparsable {visit : Visit β} {zone : LandingZone β}
    (hid : visit.file.itemId ≠ [])
    (htime : parseIsoDatetime reader (itemVersion visit.file).lastUpdated = none)
    (hrow : ∀ row, zone.registry.get? (s3KeyOf visit.mapping visit.file) = some row →
      row.xxhash ≠ (itemVersion visit.file).hash xxh) :
    (syncFile xxh reader visit zone).1.isFailed = true := by
  refine isFailed_syncFile_iff.mpr ⟨hid, Or.inr (Or.inr ⟨?_, ?_⟩)⟩
  · rintro ⟨-, ⟨row, hget, hhash⟩, -⟩
    exact hrow row hget hhash
  · intro htransfers
    have hsome := htransfers.time
    rw [htime] at hsome
    cases hsome

variable (xxh) in
/-- A file is not registered, and what is stored for a second file is as in `zone₀`. -/
structure Untouched (zone₀ : LandingZone β) (mapping : Mapping) (bad good : RawItem)
    (zone : LandingZone β) : Prop where
  /-- The first file is not registered. -/
  bad : ∀ row, zone.registry.get? (s3KeyOf mapping bad) = some row →
    row.xxhash ≠ (itemVersion bad).hash xxh
  /-- The row of the second file. -/
  registry : zone.registry.get? (s3KeyOf mapping good) =
    zone₀.registry.get? (s3KeyOf mapping good)
  /-- The object of the second file. -/
  objects : zone.objects.get? (s3KeyOf mapping good) = zone₀.objects.get? (s3KeyOf mapping good)

/-- The pass over another file touches neither of the two. -/
lemma Untouched.syncFile_of_ne {zone₀ zone : LandingZone β} {mapping : Mapping}
    {bad good : RawItem} (h : Untouched xxh zone₀ mapping bad good zone) {visit : Visit β}
    (hbad : visit.file.itemId ≠ [] → s3KeyOf mapping bad ≠ s3KeyOf visit.mapping visit.file)
    (hgood : visit.file.itemId ≠ [] → s3KeyOf mapping good ≠ s3KeyOf visit.mapping visit.file) :
    Untouched xxh zone₀ mapping bad good (syncFile xxh reader visit zone).2 := by
  by_cases hid : visit.file.itemId = []
  · rw [syncFile_of_no_id hid]
    exact h
  · have hframe := @onlyAt_syncFile _ xxh reader visit zone
    refine ⟨?_, ?_, ?_⟩
    · rw [hframe.registry _ (hbad hid)]
      exact h.bad
    · rw [hframe.registry _ (hgood hid), h.registry]
    · rw [hframe.objects _ (hgood hid), h.objects]

/-- The pass over the first file does not touch the second one. -/
lemma Untouched.syncFile_bad {zone₀ zone : LandingZone β} {mapping : Mapping}
    {bad good : RawItem} (h : Untouched xxh zone₀ mapping bad good zone) {visit : Visit β}
    (hsource : visit.source = (mapping, bad))
    (htime : parseIsoDatetime reader (itemVersion bad).lastUpdated = none)
    (hne : s3KeyOf mapping good ≠ s3KeyOf mapping bad) :
    Untouched xxh zone₀ mapping bad good (syncFile xxh reader visit zone).2 := by
  obtain ⟨rfl, rfl⟩ := Prod.mk.inj hsource
  have hregistry := @registry_syncFile_of_unparsable _ _ xxh _ htime zone
  refine ⟨?_, ?_, ?_⟩
  · rw [hregistry]
    exact h.bad
  · rw [hregistry, h.registry]
  · rw [(onlyAt_syncFile visit zone).objects _ hne, h.objects]

/-- A folder whose files have other keys touches neither of the two. -/
lemma Untouched.syncFolder_of_ne {zone₀ zone : LandingZone β} {mapping mapping' : Mapping}
    {bad good : RawItem} {server : Str → Except PyError (List RawItem)}
    (h : Untouched xxh zone₀ mapping bad good zone)
    (hbad : ∀ file ∈ selectedFiles server mapping', file.itemId ≠ [] →
      s3KeyOf mapping bad ≠ s3KeyOf mapping' file)
    (hgood : ∀ file ∈ selectedFiles server mapping', file.itemId ≠ [] →
      s3KeyOf mapping good ≠ s3KeyOf mapping' file) (answers : ℕ → FileAnswers β) :
    Untouched xxh zone₀ mapping bad good
      (syncFolder xxh reader mapping' server answers zone).2 := by
  unfold syncFolder
  unfold selectedFiles at hbad hgood
  cases hselect : selectFilesToSync RawItem.itemName server mapping' with
  | error e => exact h
  | ok files =>
    rw [hselect] at hbad hgood
    refine Failstop.run_preserves (fun visit hvisit zone hzone => ?_) h
    have hmem : visit.source ∈ (visitsOf mapping' answers files).map Visit.source :=
      List.mem_map_of_mem hvisit
    rw [map_source_visitsOf] at hmem
    obtain ⟨file, hfile, heq⟩ := List.mem_map.mp hmem
    obtain ⟨hmapping, rfl⟩ := Prod.mk.inj heq
    refine hzone.syncFile_of_ne (fun hid => ?_) (fun hid => ?_)
    · rw [← hmapping]
      exact hbad _ hfile hid
    · rw [← hmapping]
      exact hgood _ hfile hid

/-- The folder of the two does not touch them, when the second one stands behind the first. -/
lemma Untouched.syncFolder_self {zone₀ zone : LandingZone β} {mapping : Mapping}
    {path : LandingPath} {bad good : RawItem} {pre post : List RawItem}
    {server : Str → Except PyError (List RawItem)}
    (h : Untouched xxh zone₀ mapping bad good zone) (hpath : mapping.schemaPath = path.text)
    (hselect : selectFilesToSync RawItem.itemName server mapping = .ok (pre ++ bad :: post))
    (hunique : UniqueNames (pre ++ bad :: post)) (hbad : bad.itemId ≠ [])
    (htime : parseIsoDatetime reader (itemVersion bad).lastUpdated = none) (hgood : good ∈ post)
    (hgoodId : good.itemId ≠ []) (answers : ℕ → FileAnswers β) :
    Untouched xxh zone₀ mapping bad good
      (syncFolder xxh reader mapping server answers zone).2 := by
  obtain ⟨hslash, hnames⟩ := hunique
  have hbadMem : bad ∈ pre ++ bad :: post := by simp
  have hgoodMem : good ∈ pre ++ bad :: post := by simp [hgood]
  obtain ⟨-, hrest, hfront⟩ := List.pairwise_append.mp hnames
  have hbadGood : bad.itemName ≠ good.itemName :=
    (List.pairwise_cons.mp hrest).1 good hgood hbad hgoodId
  -- different names are different keys
  have hkey : ∀ file ∈ pre ++ bad :: post, ∀ file' ∈ pre ++ bad :: post, file.itemId ≠ [] →
      file'.itemId ≠ [] → file.itemName ≠ file'.itemName →
      s3KeyOf mapping file ≠ s3KeyOf mapping file' :=
        fun file hfile file' hfile' hid hid' hne heq =>
    hne (s3KeyOf_inj hpath hpath (hslash file hfile hid) (hslash file' hfile' hid') heq).2
  have hsources := map_source_visitsOf mapping answers (pre ++ bad :: post)
  rw [List.map_append, List.map_cons] at hsources
  obtain ⟨before, rest, hvisits, hbefore, hrestSource⟩ := List.map_eq_append_iff.mp hsources
  obtain ⟨visit, behind, rfl, hvisit, -⟩ := List.map_eq_cons_iff.mp hrestSource
  simp only [syncFolder, hselect, syncFiles, hvisits]
  refine Failstop.run_preserves_of_fails ?_ ?_ behind h
  · intro visit' hvisit' zone hzone
    have hmem : visit'.source ∈ before.map Visit.source := List.mem_map_of_mem hvisit'
    rw [hbefore] at hmem
    obtain ⟨file, hfile, heq⟩ := List.mem_map.mp hmem
    obtain ⟨hmapping, rfl⟩ := Prod.mk.inj heq
    have hfileMem : visit'.file ∈ pre ++ bad :: post := List.mem_append_left _ hfile
    refine hzone.syncFile_of_ne (fun hid => ?_) (fun hid => ?_)
    · rw [← hmapping]
      exact hkey bad hbadMem _ hfileMem hbad hid
        (hfront _ hfile bad List.mem_cons_self hid hbad).symm
    · rw [← hmapping]
      exact hkey good hgoodMem _ hfileMem hgoodId hid
        (hfront _ hfile good (List.mem_cons_of_mem _ hgood) hid hgoodId).symm
  · intro zone hzone
    refine ⟨?_, hzone.syncFile_bad hvisit htime
      (hkey good hgoodMem bad hbadMem hgoodId hbad hbadGood.symm)⟩
    obtain ⟨rfl, rfl⟩ := Prod.mk.inj hvisit
    exact isFailed_syncFile_of_unparsable hbad htime hzone.bad

/-- **Behind an unreadable time.** A file that stands in its folder behind one whose time cannot be
read is not touched in any number of runs, as long as the listings stay and that file was not
registered before.

**Proof sketch.** Only the pass over a file touches its object and its row. The pass over the first
file uploads it and fails before it is registered, so the next run comes to it again and fails
again. -/
theorem untouched_behind_unparsable {env : Environment} {paths : List LandingPath}
    {server : Str → Except PyError (List RawItem)}
    (hpaths : cfg.schemaFolders = paths.map LandingPath.text)
    (hnames : ∀ path items, server path = .ok items → UniqueNames items)
    {mappings : List Mapping} (htargets : cfg.targetMappings env = .ok mappings)
    {mapping : Mapping} (hmapping : mapping ∈ mappings) {bad good : RawItem}
    {pre post : List RawItem}
    (hselect : selectFilesToSync RawItem.itemName server mapping = .ok (pre ++ bad :: post))
    (hbad : bad.itemId ≠ [])
    (htime : parseIsoDatetime reader (itemVersion bad).lastUpdated = none) (hgood : good ∈ post)
    (hgoodId : good.itemId ≠ []) {runs : List (RunAnswers β)}
    (hlisting : ∀ answers ∈ runs, ∀ index, answers.listing index = server)
    {zone : LandingZone β}
    (hrow : ∀ row, zone.registry.get? (s3KeyOf mapping bad) = some row →
      row.xxhash ≠ (itemVersion bad).hash cfg.xxh) :
    Untouched cfg.xxh zone mapping bad good (syncRuns cfg reader env runs zone) := by
  obtain ⟨path, hpath⟩ := SyncConfig.exists_landingPath_of_mem hpaths htargets hmapping
  obtain ⟨-, hschema, -⟩ := LandingPath.mapping_eq_some hpath
  have hunique := uniqueNames_selectedFiles hnames mapping
  simp only [selectedFiles, hselect] at hunique
  -- one run
  have hone : ∀ answers : RunAnswers β, (∀ index, answers.listing index = server) →
      ∀ zone', Untouched cfg.xxh zone mapping bad good zone' →
      Untouched cfg.xxh zone mapping bad good
        (syncMappings cfg reader answers 0 mappings zone').zone := by
    intro answers hserver zone' hzone'
    refine syncMappings_preserves (fun position mapping' hget zone'' hzone'' => ?_) hzone'
    rw [hserver]
    by_cases hsame : mapping' = mapping
    · subst hsame
      exact hzone''.syncFolder_self hschema hselect hunique hbad htime hgood hgoodId _
    · obtain ⟨path', hpath'⟩ :=
        SyncConfig.exists_landingPath_of_mem hpaths htargets (List.mem_of_getElem? hget)
      obtain ⟨-, hschema', -⟩ := LandingPath.mapping_eq_some hpath'
      have hother : ∀ file ∈ pre ++ bad :: post, file.itemId ≠ [] →
          ∀ file' ∈ selectedFiles server mapping', file'.itemId ≠ [] →
          s3KeyOf mapping file ≠ s3KeyOf mapping' file' := by
        intro file hfile hid file' hfile' hid' hkey
        obtain ⟨rfl, -⟩ := s3KeyOf_inj hschema hschema' (hunique.1 file hfile hid)
          ((uniqueNames_selectedFiles hnames mapping').1 file' hfile' hid') hkey
        exact hsame (Option.some.inj (hpath'.symm.trans hpath))
      exact hzone''.syncFolder_of_ne (hother bad (by simp) hbad)
        (hother good (by simp [hgood]) hgoodId) _
  -- and all of them, one after the other
  suffices hall : ∀ zone', Untouched cfg.xxh zone mapping bad good zone' →
      Untouched cfg.xxh zone mapping bad good (syncRuns cfg reader env runs zone') from
    hall zone ⟨hrow, rfl, rfl⟩
  induction runs with
  | nil => exact fun zone' hzone' => hzone'
  | cons answers runs ih =>
    obtain ⟨hserver, hrest⟩ := List.forall_mem_cons.mp hlisting
    intro zone' hzone'
    refine ih hrest _ ?_
    simp only [syncActiveDomains, htargets]
    exact hone answers hserver zone' hzone'

end ManyRuns

/-- **A file that is never synced.** At the second file every call succeeds, in every run, and it is
never synced: the first file has no time. -/
theorem not_synced_behindUntimed :
    loadSync.targetMappings .iop = .ok [loadMapping] ∧
    selectFilesToSync RawItem.itemName (loadServer [untimedItem, timedItem]) loadMapping =
      .ok [untimedItem, timedItem] ∧
    Healthy noonReader (⟨loadMapping, timedItem, calmFile⟩ : Visit ℕ) ∧
    ∀ n, ¬ Synced id loadMapping timedItem (syncRuns loadSync noonReader .iop
      (List.replicate n (calmAnswers [untimedItem, timedItem])) ⟨0, ∅, ∅⟩) := by
  have htargets : loadSync.targetMappings .iop = .ok [loadMapping] := by decide +kernel
  have hselect : selectFilesToSync RawItem.itemName (loadServer [untimedItem, timedItem])
      loadMapping = .ok ([] ++ untimedItem :: [timedItem]) := by decide +kernel
  have hnames : ∀ path items, loadServer [untimedItem, timedItem] path = .ok items →
      UniqueNames items := by
    intro path items h
    cases h
    split_ifs
    · exact ⟨by decide, by decide⟩
    · exact ⟨by simp, .nil⟩
  refine ⟨htargets, hselect, healthy_timedItem, fun n => ?_⟩
  have hlisting : ∀ answers ∈ List.replicate n (calmAnswers [untimedItem, timedItem]),
      ∀ index, answers.listing index = loadServer [untimedItem, timedItem] := by
    intro answers hmem index
    rw [List.eq_of_mem_replicate hmem]
    rfl
  obtain ⟨path, hpath⟩ := exists_loadPath
  have huntouched := @untouched_behind_unparsable _ loadSync noonReader .iop [path] _
    hpath hnames _ htargets _ List.mem_cons_self _ _ _ _ hselect (by decide)
    (by decide +kernel) List.mem_cons_self (by decide) _ hlisting ⟨0, ∅, ∅⟩
    (fun row hrow => by cases hrow)
  rintro ⟨⟨row, hget, -⟩, -⟩
  rw [huntouched.registry] at hget
  cases hget

end EntsoePipeline
