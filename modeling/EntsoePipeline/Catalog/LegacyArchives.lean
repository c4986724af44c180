import EntsoePipeline.Catalog.Crawler
import EntsoePipeline.Delta.Scope
import EntsoePipeline.Lib.EventLog

set_option relaxedAutoImplicit false
set_option autoImplicit false

/-!
# The crawl of the legacy archives

Three archives are crawled one after the other. Two of them claim the legacy folders whose names
match their patterns. The third one claims those that match its own patterns and those that match no
pattern of the other two, so that every legacy folder is claimed, and is attempted once for each
archive that claims it.

## Main definitions

* `EntsoePipeline.LegacyCallees` — what the crawl of an archive calls.
* `EntsoePipeline.LegacyEvent` — the calls that are recorded.
* `EntsoePipeline.ingestLegacyArchive`, `EntsoePipeline.ingestAllLegacyArchives` — the crawl of one
  archive and of all three.
* `EntsoePipeline.claimedFolders` — the folders of an archive.

## Main results

* `EntsoePipeline.mem_claimedFolders_iff` — what an archive claims.
* `EntsoePipeline.legacyArchives_cover` — every legacy folder is claimed, by one archive when no two
  of them have a pattern for it, and the crawl attempts what is claimed in the order of the
  archives.

## Implementation notes

What the crawl calls may read and change the world in any way and may raise. A client that cannot be
created and a listing that fails are caught; an exception of the database ends the crawl. The events
are the calls themselves: the call that lists or saves a folder is what records it.
-/

namespace EntsoePipeline

open Py EventLog

/-! ## The code -/

/-- The calls of a crawl that are recorded, each with whether it returned. -/
inductive LegacyEvent
  /-- `create_fms_client` for an archive. -/
  | client (archive : Str) (created : Bool)
  /-- `crawl_metadata_folder` on a folder of an archive. -/
  | listing (archive folder : Str) (listed : Bool)
  /-- `save_crawled_folder_metadata` on a folder of an archive. -/
  | saving (archive folder : Str) (saved : Bool)
  deriving DecidableEq

/-- What the crawl of an archive calls, on a world that each of them may read and change. -/
structure LegacyCallees (W ε : Type) where
  /-- The client of the file server. -/
  createFmsClient : (env : Str) → W → Except ε Unit × W
  /-- The connection to the database. -/
  createEngine : W → Except ε Unit × W
  /-- The listing of the root directory, whose failure is caught. -/
  fetchRootFilesMapping : (env : Str) → W → Except ε Unit × W
  /-- The listing of a folder. -/
  crawlMetadataFolder : (env folder : Str) → W → Except ε (List FileMeta) × W
  /-- The transaction of a folder. -/
  saveCrawledFolderMetadata : (env archive folder : Str) → (files : List FileMeta) → W →
    Except ε Unit × W
  /-- The report on all files of the archive. -/
  finalizeCrawlSession : (env archive : Str) → (files : List FileMeta) → W → Except ε Unit × W

section Crawl

variable {W ε : Type} (cm : CaseMap) (config : ClassifierConfig) (overview : Overview)
  (callees : LegacyCallees W ε)

/-- One pass of the loop over the folders of an archive. A folder whose listing fails is skipped. -/
def crawlLegacyFolder (env archiveName folder : Str) (allEnvFileDetails : List FileMeta) :
    Program W LegacyEvent ε (List FileMeta) := do
  match ← attemptAs (.listing archiveName folder) (callees.crawlMetadataFolder env folder) with
  | .error _ => pure allEnvFileDetails
  | .ok files => do
    callAs (.saving archiveName folder)
      (callees.saveCrawledFolderMetadata env archiveName folder files)
    pure (allEnvFileDetails ++ files)

/-- The loop over the folders of an archive. -/
def crawlLegacyFolders (env archiveName : Str) :
    List Str → List FileMeta → Program W LegacyEvent ε (List FileMeta)
  | [], allEnvFileDetails => pure allEnvFileDetails
  | folder :: folders, allEnvFileDetails => do
    let allEnvFileDetails ← crawlLegacyFolder callees env archiveName folder allEnvFileDetails
    crawlLegacyFolders env archiveName folders allEnvFileDetails

/-- The crawl of an archive; `activeEnv` is the environment that is resolved when none is given, and
all folders of the archive are crawled when no folders are given. -/
def ingestLegacyArchive (activeEnv archiveName : Str) (env : Option Str)
    (folders : Option (List Str)) : Program W LegacyEvent ε Unit :=
  match config.legacyRules.find? fun rule => cm.lower rule.archive = cm.lower archiveName with
  | none => pure ()
  | some _ =>
    let env := env.getD activeEnv
    match getLegacyArchiveFolders cm overview config env archiveName with
    | .error _ => pure ()
    | .ok archiveFolders =>
      let folders := match folders with
        | none => archiveFolders
        | some folders => folders.filter fun f => f ∈ archiveFolders
      if folders = [] then pure ()
      else do
        match ← attemptAs (.client archiveName) (callees.createFmsClient env) with
        | .error _ => pure ()
        | .ok _ => do
          call callees.createEngine
          let _ ← attempt (callees.fetchRootFilesMapping env)
          let allEnvFileDetails ← crawlLegacyFolders callees env archiveName folders []
          call (callees.finalizeCrawlSession env archiveName allEnvFileDetails)

/-- The crawl of all three archives. -/
def ingestAllLegacyArchives (activeEnv : Str) (env : Option Str) (folders : Option (List Str)) :
    Program W LegacyEvent ε Unit := do
  ingestLegacyArchive cm config overview callees activeEnv "R3_Archives".toList env folders
  ingestLegacyArchive cm config overview callees activeEnv "R2_Archives".toList env folders
  ingestLegacyArchive cm config overview callees activeEnv "R1_Archives_CSV_XML".toList env folders

end Crawl

/-! ## What is attempted -/

/-- The folders whose listing is called, each with its archive. -/
def crawledFolders (events : List LegacyEvent) : List (Str × Str) :=
  events.filterMap fun event =>
    match event with
    | .listing archive folder _ => some (archive, folder)
    | _ => none

/-- The folders whose listing returned. -/
def listedFolders (events : List LegacyEvent) : List (Str × Str) :=
  events.filterMap fun event =>
    match event with
    | .listing archive folder true => some (archive, folder)
    | _ => none

/-- The folders whose save is called. -/
def savedFolders (events : List LegacyEvent) : List (Str × Str) :=
  events.filterMap fun event =>
    match event with
    | .saving archive folder _ => some (archive, folder)
    | _ => none

/-- A program lists no more than the expected folders, in their order, and exactly these when it
returns and every client was created; and it saves what it listed. -/
structure Attempts {ε α : Type} (expected : List (Str × Str)) (r : Except ε α)
    (new : List LegacyEvent) : Prop where
  /-- Nothing else is listed. -/
  sublist : (crawledFolders new).Sublist expected
  /-- Everything is listed. -/
  complete : (∃ a, r = .ok a) → (∀ archive, LegacyEvent.client archive false ∉ new) →
    crawledFolders new = expected
  /-- What was listed is saved. -/
  saved : savedFolders new = listedFolders new

section Attempts

variable {W ε α β : Type} {expected expected' : List (Str × Str)}

/-- A program without calls attempts nothing. -/
lemma attempts_nil (r : Except ε α) : Attempts [] r [] := ⟨List.Sublist.refl _, fun _ _ => rfl, rfl⟩

/-- The attempts of two programs in sequence. -/
lemma emits_attempts_bind {p : Program W LegacyEvent ε α} {f : α → Program W LegacyEvent ε β}
    (hp : Emits p (Attempts expected)) (hf : ∀ a, Emits (f a) (Attempts expected')) :
    Emits (p >>= f) (Attempts (expected ++ expected')) := by
  refine (hp.bind hf).mono ?_
  rintro r new (⟨e, rfl, hnew⟩ | ⟨a, front, back, rfl, hfront, hback⟩)
  · refine ⟨hnew.sublist.trans (List.sublist_append_left _ _), ?_, hnew.saved⟩
    rintro ⟨b, hb⟩
    cases hb
  · have happend : crawledFolders (front ++ back) = crawledFolders front ++ crawledFolders back :=
      List.filterMap_append
    refine ⟨?_, fun hok hclients => ?_, ?_⟩
    · rw [happend]
      exact hfront.sublist.append hback.sublist
    · rw [happend,
        hfront.complete ⟨a, rfl⟩ fun archive hmem => hclients archive (List.mem_append_left _ hmem),
        hback.complete hok fun archive hmem => hclients archive (List.mem_append_right _ hmem)]
    · have hfrontSaved := hfront.saved
      have hbackSaved := hback.saved
      unfold savedFolders listedFolders at *
      rw [List.filterMap_append, List.filterMap_append, hfrontSaved, hbackSaved]

/-- A step that lists nothing does not change what is attempted. -/
lemma emits_attempts_bind_nil {p : Program W LegacyEvent ε α} {f : α → Program W LegacyEvent ε β}
    (hp : Emits p (Attempts [])) (hf : ∀ a, Emits (f a) (Attempts expected)) :
    Emits (p >>= f) (Attempts expected) := emits_attempts_bind hp hf

variable (callees : LegacyCallees W ε)

/-- A pass of the loop lists its folder, and saves it when the listing returns. -/
lemma emits_crawlLegacyFolder (env archiveName folder : Str) (allEnvFileDetails : List FileMeta) :
    Emits (crawlLegacyFolder callees env archiveName folder allEnvFileDetails)
      (Attempts [(archiveName, folder)]) := by
  have hlisting : Emits (attemptAs (.listing archiveName folder)
      (callees.crawlMetadataFolder env folder) : Program W LegacyEvent ε _) fun r new =>
        ∃ listing : Except ε (List FileMeta), r = .ok listing ∧
          new = [.listing archiveName folder listing.toBool] :=
    emits_attemptAs fun listing => ⟨listing, rfl, rfl⟩
  -- behind the listing there is one save, or none when it failed
  have hrest : ∀ listing : Except ε (List FileMeta), Emits (match listing with
      | .error _ => pure allEnvFileDetails
      | .ok files => do
        callAs (.saving archiveName folder)
          (callees.saveCrawledFolderMetadata env archiveName folder files)
        pure (allEnvFileDetails ++ files) : Program W LegacyEvent ε (List FileMeta)) fun _ new =>
        crawledFolders new = [] ∧ listedFolders new = [] ∧
          savedFolders new = if listing.toBool then [(archiveName, folder)] else [] := by
    rintro (e | files)
    · exact emits_pure ⟨rfl, rfl, rfl⟩
    · have hsave : Emits (callAs (.saving archiveName folder)
          (callees.saveCrawledFolderMetadata env archiveName folder files) :
            Program W LegacyEvent ε Unit) fun _ new =>
              ∃ saved, new = [.saving archiveName folder saved] :=
        emits_callAs fun r => ⟨r.toBool, rfl⟩
      refine (hsave.bind (Q := fun _ _ new => new = []) fun _ => emits_pure rfl).mono ?_
      rintro r new (⟨e, rfl, saved, rfl⟩ | ⟨a, front, back, rfl, ⟨saved, rfl⟩, rfl⟩)
      · exact ⟨rfl, rfl, rfl⟩
      · exact ⟨rfl, rfl, rfl⟩
  refine (hlisting.bind hrest).mono ?_
  rintro r new (⟨e, rfl, listing, hlisting, -⟩ |
    ⟨listing, front, back, rfl, ⟨_, hlisting, rfl⟩, hcrawled, hlisted, hsaved⟩)
  · cases hlisting
  · cases hlisting
    have hone : crawledFolders ([.listing archiveName folder listing.toBool] ++ back) =
        [(archiveName, folder)] := congrArg (List.cons _) hcrawled
    refine ⟨by rw [hone], fun _ _ => hone, ?_⟩
    cases listing with
    | error e => exact hsaved.trans hlisted.symm
    | ok files => exact hsaved.trans (congrArg (List.cons _) hlisted.symm)

/-- The crawl of an archive behind its client: nothing is attempted when the client cannot be
created. -/
lemma emits_attempts_client {archiveName : Str} {createFmsClient : W → Except ε Unit × W}
    {p : Program W LegacyEvent ε Unit} (hp : Emits p (Attempts expected)) :
    Emits (do
      match ← attemptAs (.client archiveName) createFmsClient with
      | .error _ => pure ()
      | .ok _ => p) (Attempts expected) := by
  have hclient : Emits (attemptAs (.client archiveName) createFmsClient :
      Program W LegacyEvent ε _) fun r new => ∃ client : Except ε Unit, r = .ok client ∧
        new = [.client archiveName client.toBool] :=
    emits_attemptAs fun client => ⟨client, rfl, rfl⟩
  have hrest : ∀ client : Except ε Unit, Emits (match client with
      | .error _ => pure ()
      | .ok _ => p) fun r new => if client.toBool then Attempts expected r new else new = [] := by
    rintro (e | _)
    · exact emits_pure rfl
    · exact hp
  refine (hclient.bind hrest).mono ?_
  rintro r new (⟨e, rfl, client, hclient, -⟩ | ⟨client, front, back, rfl, ⟨_, hclient, rfl⟩, hback⟩)
  · cases hclient
  · cases hclient
    cases client with
    | error e =>
      obtain rfl : back = [] := hback
      refine ⟨List.nil_sublist _, fun _ hclients => ?_, rfl⟩
      exact absurd (List.mem_singleton_self _) (hclients archiveName)
    | ok _ =>
      obtain ⟨hsub, hcomplete, hsaved⟩ : Attempts expected r back := hback
      exact ⟨hsub, fun hok hclients => hcomplete hok fun archive hmem =>
        hclients archive (List.mem_append_right _ hmem), hsaved⟩

/-- The loop attempts every folder. -/
lemma emits_crawlLegacyFolders (env archiveName : Str) (folders : List Str)
    (allEnvFileDetails : List FileMeta) :
    Emits (crawlLegacyFolders callees env archiveName folders allEnvFileDetails)
      (Attempts (folders.map fun folder => (archiveName, folder))) := by
  induction folders generalizing allEnvFileDetails with
  | nil => exact emits_pure (attempts_nil _)
  | cons folder folders ih =>
    rw [crawlLegacyFolders, List.map_cons, ← List.singleton_append]
    exact emits_attempts_bind (emits_crawlLegacyFolder callees env archiveName folder _) fun _ =>
      ih _

end Attempts

/-! ## What the archives claim -/

/-- The classifier has the three archives, and no two rules for archives of the same name up to
case. -/
structure HasLegacyArchives (cm : CaseMap) (config : ClassifierConfig) : Prop where
  /-- The names of the archives are distinct up to case. -/
  distinct : (config.legacyRules.map fun rule => cm.lower rule.archive).Nodup
  /-- The three archives have rules. -/
  present : ∀ archive ∈ legacyArchives, ∃ rule ∈ config.legacyRules, rule.archive = archive

/-- The folders of an archive; none when the overview cannot be read. -/
def claimedFolders (cm : CaseMap) (config : ClassifierConfig) (overview : Overview)
    (env archive : Str) : List Str :=
  match getLegacyArchiveFolders cm overview config env archive with
  | .ok folders => folders
  | .error _ => []

/-- The name of a folder matches the patterns of an archive. -/
def MatchesArchive (cm : CaseMap) (config : ClassifierConfig) (archive folder : Str) : Prop :=
  matchesPatterns cm (archivePatterns config archive) folder = true

section Claims

variable {cm : CaseMap} {config : ClassifierConfig} {overview : Overview} {env : Str}
  {root : OverviewRoot}

/-- A rule is found by the name of its archive, in lower case or as it is. -/
lemma HasLegacyArchives.find?_eq (h : HasLegacyArchives cm config) {rule : LegacyRule}
    (hrule : rule ∈ config.legacyRules) :
    (config.legacyRules.find? fun r => cm.lower r.archive = cm.lower rule.archive) = some rule ∧
      (config.legacyRules.find? fun r => r.archive = rule.archive) = some rule := by
  have hunique : ∀ p : LegacyRule → Bool, p rule = true →
      (∀ r, p r = true → cm.lower r.archive = cm.lower rule.archive) →
        config.legacyRules.find? p = some rule := by
    intro p hp hlower
    cases hfind : config.legacyRules.find? p with
    | none => exact absurd hp (List.find?_eq_none.mp hfind rule hrule)
    | some r =>
      have hmem := List.mem_of_find?_eq_some hfind
      exact congrArg some (List.inj_on_of_nodup_map h.distinct hmem hrule
        (hlower r (List.find?_some hfind)))
  constructor
  · exact hunique _ (decide_eq_true rfl) fun r hr => of_decide_eq_true hr
  · exact hunique _ (decide_eq_true rfl) fun r hr => congrArg cm.lower (of_decide_eq_true hr)

/-- A loop that adds the new folders that it does not skip. -/
lemma mem_foldl_unless (skip : Str → Bool) {folders matched : List Str} {folder : Str} :
    folder ∈ folders.foldl (fun matched f =>
        if f ∈ matched then matched else if skip f then matched else matched ++ [f]) matched ↔
      folder ∈ matched ∨ (folder ∈ folders ∧ skip folder = false) := by
  induction folders generalizing matched with
  | nil => exact ⟨Or.inl, fun h => h.elim id fun h => absurd h.1 List.not_mem_nil⟩
  | cons f folders ih =>
    rw [List.foldl_cons, ih, List.mem_cons, or_and_right]
    split_ifs with hmatched hskip
    · have hold : folder = f ∧ skip folder = false → folder ∈ matched := fun h => h.1 ▸ hmatched
      rw [← or_assoc, or_iff_left_of_imp hold]
    · have hskipped : ¬ (folder = f ∧ skip folder = false) := by
        rintro ⟨rfl, hnot⟩
        rw [hskip] at hnot
        cases hnot
      rw [or_iff_right hskipped]
    · have hadded : folder = f → skip folder = false := by
        rintro rfl
        exact Bool.eq_false_iff.mpr hskip
      rw [List.mem_append, List.mem_singleton, or_assoc, and_iff_left_of_imp hadded]

/-- The folders that the loop adds are those that match no pattern of the two other archives. -/
lemma mem_addUnmatched {folders matched : List Str} {folder : Str} :
    folder ∈ addUnmatched cm config folders matched ↔ folder ∈ matched ∨ (folder ∈ folders ∧
      ¬ MatchesArchive cm config "R2_Archives".toList folder ∧
        ¬ MatchesArchive cm config "R3_Archives".toList folder) := by
  unfold addUnmatched MatchesArchive
  rw [mem_foldl_unless, Bool.or_eq_false_iff, Bool.not_eq_true, Bool.not_eq_true]

/-- An archive claims the legacy folders that match its patterns, and the one for the first release
also those that match no pattern of the others. -/
lemma mem_claimedFolders_iff (hrules : HasLegacyArchives cm config)
    (hroot : overviewRoot cm overview "TP_Legacy_Publications".toList env = .ok root)
    {archive : Str} (harchive : archive ∈ legacyArchives) {folder : Str} :
    folder ∈ claimedFolders cm config overview env archive ↔ folder ∈ root.folders ∧
      (MatchesArchive cm config archive folder ∨ (archive = "R1_Archives_CSV_XML".toList ∧
        ¬ MatchesArchive cm config "R2_Archives".toList folder ∧
          ¬ MatchesArchive cm config "R3_Archives".toList folder)) := by
  obtain ⟨rule, hrule, rfl⟩ := hrules.present archive harchive
  obtain ⟨hlower, hexact⟩ := hrules.find?_eq hrule
  have hpatterns : archivePatterns config rule.archive = rule.patterns := by
    rw [archivePatterns, hexact]
  unfold claimedFolders getLegacyArchiveFolders
  rw [hroot, MatchesArchive, hpatterns]
  dsimp only [Except.map]
  rw [hlower]
  dsimp only
  rw [sortedSet, List.mem_insertionSort, List.mem_dedup]
  split_ifs with hfallback
  · rw [mem_addUnmatched, List.mem_filter, and_or_left, and_iff_right hfallback]
  · rw [List.mem_filter, or_iff_left fun h => hfallback h.1]

end Claims

/-! ## Coverage -/

section Coverage

variable {cm : CaseMap} {config : ClassifierConfig} {overview : Overview} {env : Str}
  {root : OverviewRoot}

/-- Every legacy folder is claimed. -/
lemma exists_claims (hrules : HasLegacyArchives cm config)
    (hroot : overviewRoot cm overview "TP_Legacy_Publications".toList env = .ok root) {folder : Str}
    (hfolder : folder ∈ root.folders) :
    ∃ archive ∈ legacyArchives, folder ∈ claimedFolders cm config overview env archive := by
  have hclaims : ∀ archive (harchive : archive ∈ legacyArchives), _ := fun archive harchive =>
    @mem_claimedFolders_iff cm config overview env root hrules hroot archive harchive folder
  by_cases hr3 : MatchesArchive cm config "R3_Archives".toList folder
  · exact ⟨_, by decide, (hclaims _ (by decide)).mpr ⟨hfolder, Or.inl hr3⟩⟩
  · by_cases hr2 : MatchesArchive cm config "R2_Archives".toList folder
    · exact ⟨_, by decide, (hclaims _ (by decide)).mpr ⟨hfolder, Or.inl hr2⟩⟩
    · exact ⟨_, by decide, (hclaims _ (by decide)).mpr ⟨hfolder, Or.inr ⟨rfl, hr2, hr3⟩⟩⟩

/-- A folder that matches the patterns of no two archives is claimed by one only. -/
lemma eq_of_claims (hrules : HasLegacyArchives cm config)
    (hroot : overviewRoot cm overview "TP_Legacy_Publications".toList env = .ok root) {folder : Str}
    (hone : ∀ a ∈ legacyArchives, ∀ b ∈ legacyArchives, MatchesArchive cm config a folder →
      MatchesArchive cm config b folder → a = b) {a b : Str} (ha : a ∈ legacyArchives)
    (hb : b ∈ legacyArchives) (haclaims : folder ∈ claimedFolders cm config overview env a)
    (hbclaims : folder ∈ claimedFolders cm config overview env b) : a = b := by
  have hothers : ∀ c ∈ legacyArchives, c = "R1_Archives_CSV_XML".toList ∨
      c = "R2_Archives".toList ∨ c = "R3_Archives".toList := by decide
  -- an archive with a pattern for the folder is the first one when no other has a pattern
  have hfirst : ∀ c ∈ legacyArchives, MatchesArchive cm config c folder →
      ¬ MatchesArchive cm config "R2_Archives".toList folder →
        ¬ MatchesArchive cm config "R3_Archives".toList folder →
          c = "R1_Archives_CSV_XML".toList := by
    intro c hc hmatches hr2 hr3
    rcases hothers c hc with hc | rfl | rfl
    · exact hc
    · exact absurd hmatches hr2
    · exact absurd hmatches hr3
  obtain ⟨-, haclaims⟩ := (mem_claimedFolders_iff hrules hroot ha).mp haclaims
  obtain ⟨-, hbclaims⟩ := (mem_claimedFolders_iff hrules hroot hb).mp hbclaims
  rcases haclaims with hamatches | ⟨rfl, hr2, hr3⟩
  · rcases hbclaims with hbmatches | ⟨rfl, hr2, hr3⟩
    · exact hone a ha b hb hamatches hbmatches
    · exact hfirst a ha hamatches hr2 hr3
  · rcases hbclaims with hbmatches | ⟨rfl, -, -⟩
    · exact (hfirst b hb hbmatches hr2 hr3).symm
    · rfl

variable (cm config overview env)

/-- The folders that are to be crawled, each with its archive, in the order of the archives. -/
def expectedCrawls (folders : List Str) : List (Str × Str) :=
  legacyArchives.flatMap fun archive =>
    (folders.filter fun folder => folder ∈ claimedFolders cm config overview env archive).map
      fun folder => (archive, folder)

variable {cm config overview env}

/-- A folder is expected under an archive when it is requested and the archive claims it. -/
lemma mem_expectedCrawls_iff {folders : List Str} {archive folder : Str} :
    (archive, folder) ∈ expectedCrawls cm config overview env folders ↔ archive ∈ legacyArchives ∧
      folder ∈ folders ∧ folder ∈ claimedFolders cm config overview env archive := by
  simp only [expectedCrawls, List.mem_flatMap, List.mem_map, List.mem_filter, decide_eq_true_eq,
    Prod.mk.injEq]
  constructor
  · rintro ⟨archive, harchive, folder, hfolder, rfl, rfl⟩
    exact ⟨harchive, hfolder⟩
  · rintro ⟨harchive, hfolder⟩
    exact ⟨archive, harchive, folder, hfolder, rfl, rfl⟩

/-- Distinct folders are to be crawled once for each archive. -/
lemma nodup_expectedCrawls {folders : List Str} (hnodup : folders.Nodup) :
    (expectedCrawls cm config overview env folders).Nodup := by
  have harchives : legacyArchives.Pairwise (· ≠ ·) := by decide
  unfold expectedCrawls
  rw [List.nodup_flatMap]
  constructor
  · intro archive _
    exact (hnodup.filter _).map fun _ _ h => (Prod.mk.inj h).2
  · refine harchives.imp fun {a b} hne => ?_
    intro crawl hcrawl hcrawl'
    obtain ⟨_, -, rfl⟩ := List.mem_map.mp hcrawl
    obtain ⟨_, -, heq⟩ := List.mem_map.mp hcrawl'
    exact hne (Prod.mk.inj heq).1.symm

/-- The crawl of an archive attempts the given folders that it claims. -/
lemma emits_ingestLegacyArchive {W ε : Type} (callees : LegacyCallees W ε)
    (hrules : HasLegacyArchives cm config) {activeEnv : Str} {given : Option Str}
    (hroot : overviewRoot cm overview "TP_Legacy_Publications".toList (given.getD activeEnv) =
      .ok root) {archive : Str} (harchive : archive ∈ legacyArchives) (folders : List Str) :
    Emits (ingestLegacyArchive cm config overview callees activeEnv archive given (some folders))
      (Attempts ((folders.filter fun folder =>
        folder ∈ claimedFolders cm config overview (given.getD activeEnv) archive).map fun folder =>
          (archive, folder))) := by
  obtain ⟨rule, hrule, rfl⟩ := hrules.present archive harchive
  unfold ingestLegacyArchive claimedFolders
  rw [(hrules.find?_eq hrule).1]
  dsimp only
  cases hfolders : getLegacyArchiveFolders cm overview config (given.getD activeEnv)
      rule.archive with
  | error e =>
    rw [getLegacyArchiveFolders, hroot] at hfolders
    cases hfolders
  | ok archiveFolders =>
    dsimp only
    split_ifs with hempty
    · rw [hempty]
      exact emits_pure (attempts_nil _)
    · refine emits_attempts_client (emits_attempts_bind_nil (emits_call attempts_nil) fun _ =>
        emits_attempts_bind_nil (emits_attempt fun _ => attempts_nil _) fun _ => ?_)
      rw [← List.append_nil (List.map _ _)]
      exact emits_attempts_bind (emits_crawlLegacyFolders callees _ _ _ _) fun _ =>
        emits_call attempts_nil

/-- **The legacy archives.** Every legacy folder is claimed by one of the three archives, and by one
only when no two of them have a pattern for it. Given distinct legacy folders, the crawl of all
archives calls the listing of each of them once for each archive that claims it, in the order of the
archives, and of nothing else, and saves for the archive each folder whose listing returns; an
exception of the database and a client that cannot be created cut this short.

**Proof sketch.** The third archive claims what the other two do not match. A pass of the loop lists
its folder, and every other step of the crawl of an archive lists nothing. -/
theorem legacyArchives_cover (hrules : HasLegacyArchives cm config) {activeEnv : Str}
    {given : Option Str}
    (hroot : overviewRoot cm overview "TP_Legacy_Publications".toList (given.getD activeEnv) =
      .ok root) :
    (∀ folder ∈ root.folders, ∃ archive ∈ legacyArchives,
      folder ∈ claimedFolders cm config overview (given.getD activeEnv) archive) ∧
    (∀ folder ∈ root.folders,
      (∀ a ∈ legacyArchives, ∀ b ∈ legacyArchives, MatchesArchive cm config a folder →
        MatchesArchive cm config b folder → a = b) →
      ∃! archive, archive ∈ legacyArchives ∧
        folder ∈ claimedFolders cm config overview (given.getD activeEnv) archive) ∧
    ∀ folders : List Str, folders.Nodup →
      (expectedCrawls cm config overview (given.getD activeEnv) folders).Nodup ∧
      (∀ archive folder,
        (archive, folder) ∈ expectedCrawls cm config overview (given.getD activeEnv) folders ↔
          archive ∈ legacyArchives ∧ folder ∈ folders ∧
            folder ∈ claimedFolders cm config overview (given.getD activeEnv) archive) ∧
      ∀ (W ε : Type) (callees : LegacyCallees W ε) (world : W),
        let run := (ingestAllLegacyArchives cm config overview callees activeEnv given
          (some folders)).start world
        (crawledFolders run.2.events).Sublist
            (expectedCrawls cm config overview (given.getD activeEnv) folders) ∧
          (run.1 = .ok () → (∀ archive, LegacyEvent.client archive false ∉ run.2.events) →
            crawledFolders run.2.events =
              expectedCrawls cm config overview (given.getD activeEnv) folders) ∧
          savedFolders run.2.events = listedFolders run.2.events := by
  refine ⟨fun folder hfolder => exists_claims hrules hroot hfolder, fun folder hfolder hone => ?_,
    fun folders hnodup => ⟨nodup_expectedCrawls hnodup, fun _ _ => mem_expectedCrawls_iff,
      fun W ε callees world => ?_⟩⟩
  · obtain ⟨archive, harchive, hclaims⟩ := exists_claims hrules hroot hfolder
    exact ⟨archive, ⟨harchive, hclaims⟩, fun other hother =>
      eq_of_claims hrules hroot hone hother.1 harchive hother.2 hclaims⟩
  · have harchive : ∀ archive ∈ legacyArchives, _ := fun archive harchive =>
      emits_ingestLegacyArchive callees hrules hroot harchive folders
    have hall : Emits (ingestAllLegacyArchives cm config overview callees activeEnv given
        (some folders)) (Attempts (expectedCrawls cm config overview (given.getD activeEnv)
          folders)) := by
      unfold expectedCrawls legacyArchives
      rw [List.flatMap_cons, List.flatMap_cons, List.flatMap_cons, List.flatMap_nil,
        List.append_nil]
      exact emits_attempts_bind (harchive _ (by decide)) fun _ =>
        emits_attempts_bind (harchive _ (by decide)) fun _ => harchive _ (by decide)
    obtain ⟨hsub, hcomplete, hsaved⟩ := hall.start world
    exact ⟨hsub, fun hok => hcomplete ⟨(), hok⟩, hsaved⟩

end Coverage

/-! ## Three folders -/

/-- A classifier with the three archives. -/
def archivesConfig : ClassifierConfig :=
  .ofYaml ∅ [⟨"R3_Archives".toList, ["FlowBasedCapacityAllocationArchives_11.1.B_r3".toList]⟩,
    ⟨"R2_Archives".toList, ["AcceptedAggregatedOffers_17.1.D_r2".toList]⟩,
    ⟨"R1_Archives_CSV_XML".toList, ["_r1".toList, "_r2".toList]⟩]

/-- A folder for the third release, one for both others and one that has no pattern. -/
def archivedFolders : List Str :=
  ["RandomFolder_without_suffix".toList, "FlowBasedCapacityAllocationArchives_11.1.B_r3".toList,
    "AcceptedAggregatedOffers_17.1.D_r2".toList]

/-- An overview with these folders. -/
def archivesOverview : Overview :=
  Dict.ofList [("IOP".toList, [⟨"TP_Legacy_Publications".toList, ∅, archivedFolders⟩])]

/-- A file server that does not list the folder of the third release; the world is the folders that
were asked for. -/
def flakyCallees : LegacyCallees (List Str) Unit where
  createFmsClient _ world := (.ok (), world)
  createEngine world := (.ok (), world)
  fetchRootFilesMapping _ world := (.ok (), world)
  crawlMetadataFolder _ folder world :=
    (if folder = "FlowBasedCapacityAllocationArchives_11.1.B_r3".toList then .error () else .ok [],
      world ++ [folder])
  saveCrawledFolderMetadata _ _ _ _ world := (.ok (), world)
  finalizeCrawlSession _ _ _ world := (.ok (), world)

/-- The crawl of these folders. -/
def archivesRun : Except Unit Unit × Run (List Str) LegacyEvent :=
  (ingestAllLegacyArchives .ascii archivesConfig archivesOverview flakyCallees "IOP".toList none
    (some archivedFolders)).start []

/-- Each folder is attempted for every archive that claims it, and all but the first are saved. -/
theorem legacyArchives_cover_threeFolders :
    crawledFolders archivesRun.2.events =
      expectedCrawls .ascii archivesConfig archivesOverview "IOP".toList archivedFolders ∧
    savedFolders archivesRun.2.events = listedFolders archivesRun.2.events ∧
    listedFolders archivesRun.2.events =
      [("R2_Archives".toList, "AcceptedAggregatedOffers_17.1.D_r2".toList),
        ("R1_Archives_CSV_XML".toList, "RandomFolder_without_suffix".toList),
        ("R1_Archives_CSV_XML".toList, "AcceptedAggregatedOffers_17.1.D_r2".toList)] ∧
    archivesRun.2.world = ["FlowBasedCapacityAllocationArchives_11.1.B_r3".toList,
      "AcceptedAggregatedOffers_17.1.D_r2".toList, "RandomFolder_without_suffix".toList,
      "AcceptedAggregatedOffers_17.1.D_r2".toList] := by
  have hrules : HasLegacyArchives .ascii archivesConfig := ⟨by decide +kernel, by decide +kernel⟩
  have hcover := (@legacyArchives_cover .ascii archivesConfig archivesOverview _ hrules "IOP".toList
    none rfl).2.2 archivedFolders (by decide +kernel)
  have hclients : ∀ archive, LegacyEvent.client archive false ∉ archivesRun.2.events := by
    have hcreated : archivesRun.2.events.all fun event =>
        match event with
        | .client _ created => created
        | _ => true := by decide +kernel
    intro archive hmem
    cases List.all_eq_true.mp hcreated _ hmem
  have hreturns : archivesRun.1 = .ok () := by decide +kernel
  obtain ⟨-, hcomplete, hsaved⟩ := hcover.2.2 (List Str) Unit flakyCallees []
  refine ⟨?_, ?_, ?_, ?_⟩
  · unfold archivesRun at *
    exact hcomplete hreturns hclients
  · unfold archivesRun
    exact hsaved
  · decide +kernel
  · decide +kernel

end EntsoePipeline
