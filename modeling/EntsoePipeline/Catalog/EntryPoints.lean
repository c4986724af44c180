import EntsoePipeline.Delta.Scope

set_option relaxedAutoImplicit false
set_option autoImplicit false

/-!
# The two entry points of the full crawls

The full crawls are started by the ingestion of a domain and by the refresh of an environment. Both
take a domain, the test mode and the force flag, read which folders are stale, and crawl these. The
ingestion has a branch for each kind of target. The refresh filters the list of domains, and has one
phase for the domains and one for the legacy archives.

## Main definitions

* `EntsoePipeline.Callees` — what both call: the freshness filter and the crawls.
* `EntsoePipeline.EntryPoint` — programs that call these and may raise.
* `EntsoePipeline.ingestMetadata`, `EntsoePipeline.refreshEnvironmentMetadata` — the entry points.
* `EntsoePipeline.Accepts` — the ingestion does not reject the domain.

## Main results

* `EntsoePipeline.ingestMetadata_eq_refreshEnvironmentMetadata` — on an accepted domain the two are
  the same program.
* `EntsoePipeline.sameCrawls` — they make the same crawls.

## Implementation notes

The freshness filter and the crawls are parameters. Each of them may read and change the world in
any way and may raise, so a crawl may decide which folders are fresh later in the run. The texts of
the errors are left out.
-/

namespace EntsoePipeline

open Py

/-! ## The code -/

/-- A crawl that an entry point starts. -/
inductive CrawlCall
  /-- `ingest_domain_metadata`. -/
  | domain (domainName env : Str) (folders : List Str)
  /-- `ingest_all_legacy_metadata`. -/
  | allLegacy (env : Str) (folders : List Str)
  deriving DecidableEq

/-- What the entry points call, on a world that each of them may read and change. -/
structure Callees (W ε : Type) where
  /-- The stale folders of a domain. -/
  getStaleDomainFolders : (domainName env : Str) → (isForce : Bool) → W → Except ε (List Str) × W
  /-- The stale folders of a legacy archive. -/
  getStaleLegacyFolders : (archiveName env : Str) → (isForce : Bool) → W → Except ε (List Str) × W
  /-- The crawl of folders of a domain. -/
  ingestDomainMetadata : (domainName env : Str) → (folders : List Str) → W → Except ε Unit × W
  /-- The crawl of folders of the legacy archives. -/
  ingestAllLegacyMetadata : (env : Str) → (folders : List Str) → W → Except ε Unit × W

/-- What an entry point raises. -/
inductive IngestError (ε : Type)
  /-- The domain is not configured. -/
  | unknownDomain (domain : Str) (activeDomains : List Str)
  /-- The domain is not crawled in the test mode. -/
  | heavyDomain (domain : Str)
  /-- A callee raised. -/
  | callee (e : ε)

/-- The error is a `ValueError` of the entry point itself. -/
def IngestError.IsRejection {ε : Type} : IngestError ε → Prop
  | .callee _ => False
  | _ => True

/-- The state of a run: the world, and the crawls that were started. -/
structure CrawlRun (W : Type) where
  /-- The world. -/
  world : W
  /-- The crawls, in order. -/
  calls : List CrawlCall

/-- Programs that call the callees and may raise. -/
abbrev EntryPoint (W ε : Type) := ExceptT (IngestError ε) (StateM (CrawlRun W))

namespace EntryPoint

variable {W ε : Type}

/-- A call of the freshness filter. -/
def read {α : Type} (callee : W → Except ε α × W) : EntryPoint W ε α :=
  ExceptT.mk fun run =>
    let result := callee run.world
    (result.1.mapError .callee, { run with world := result.2 })

/-- A call of a crawl. -/
def crawl (call : CrawlCall) (callee : W → Except ε Unit × W) : EntryPoint W ε Unit :=
  ExceptT.mk fun run =>
    let result := callee run.world
    (result.1.mapError .callee, ⟨result.2, run.calls ++ [call]⟩)

/-- The outcome and the state behind a program that starts in a world. -/
def start (program : EntryPoint W ε Unit) (world : W) :
    Except (IngestError ε) Unit × CrawlRun W :=
  program.run ⟨world, []⟩

end EntryPoint

section EntryPoints

variable {W ε : Type} (cm : CaseMap) (config : ClassifierConfig) (callees : Callees W ε)

/-- The block for a domain that both entry points have: its stale folders are read, and crawled if
there are any. -/
def crawlStaleDomain (env : Str) (isForce : Bool) (domainName : Str) : EntryPoint W ε Unit := do
  let staleFolders ← EntryPoint.read (callees.getStaleDomainFolders domainName env isForce)
  if staleFolders = [] then pure ()
  else
    EntryPoint.crawl (.domain domainName env staleFolders)
      (callees.ingestDomainMetadata domainName env staleFolders)

/-- `stale_legacy_folders.extend(...)` for each archive. -/
def staleLegacyFolders (env : Str) (isForce : Bool) : EntryPoint W ε (List Str) :=
  legacyArchives.foldlM (fun staleFolders archive => do
    let folders ← EntryPoint.read (callees.getStaleLegacyFolders archive env isForce)
    return staleFolders ++ folders) []

/-- The block for the legacy archives that both entry points have. -/
def crawlStaleLegacy (env : Str) (isForce : Bool) : EntryPoint W ε Unit := do
  let staleFolders ← staleLegacyFolders callees env isForce
  if staleFolders = [] then pure ()
  else
    EntryPoint.crawl (.allLegacy env staleFolders)
      (callees.ingestAllLegacyMetadata env staleFolders)

/-- The ingestion; `activeEnv` is the environment that is resolved when none is given. -/
def ingestMetadata (activeEnv domain : Str) (env : Option Str) (isTest isForce : Bool) :
    EntryPoint W ε Unit :=
  let targetEnv := cm.upper (env.getD activeEnv)
  let target := stripSpaces domain
  if cm.lower target = "all".toList then do
    config.domainOrder.forM fun dom =>
      if isTest ∧ dom ∉ lightDomains then pure ()
      else crawlStaleDomain callees targetEnv isForce dom
    if ¬ isTest then crawlStaleLegacy callees targetEnv isForce
  else if cm.lower target = "legacy".toList then
    if isTest then pure () else crawlStaleLegacy callees targetEnv isForce
  else
    match config.domainOrder.find? fun d => cm.lower d = cm.lower target with
    | none => throw (.unknownDomain domain config.domainOrder)
    | some matched =>
      if matched = [] then throw (.unknownDomain domain config.domainOrder)
      else if isTest ∧ matched ∉ lightDomains then throw (.heavyDomain matched)
      else crawlStaleDomain callees targetEnv isForce matched

/-- The refresh. -/
def refreshEnvironmentMetadata (env : Str) (isTest isForce : Bool) (domainName : Option Str) :
    EntryPoint W ε Unit := do
  let target := scopeTarget cm domainName
  if target ≠ "legacy".toList then
    (scopeDomains cm config isTest domainName).forM (crawlStaleDomain callees env isForce)
  if target ∈ ["all".toList, "legacy".toList] then
    if ¬ isTest then crawlStaleLegacy callees env isForce

/-- The ingestion does not reject the domain with a `ValueError` of its own. -/
def Accepts (activeEnv domain : Str) (env : Option Str) (isTest isForce : Bool) (world : W) :
    Prop :=
  ∀ e, ((ingestMetadata cm config callees activeEnv domain env isTest isForce).start world).1 =
    .error e → ¬ e.IsRejection

end EntryPoints

/-! ## Loops -/

section Loops

variable {m : Type → Type} [Monad m] [LawfulMonad m] {α : Type}

/-- A loop that skips items is a loop over the others. -/
lemma forM_filter_eq {p : α → Prop} [DecidablePred p] {body : α → m Unit} (l : List α) :
    (l.filter fun a => p a).forM body = l.forM fun a => if p a then body a else pure () := by
  induction l with
  | nil => rfl
  | cons a l ih =>
    have hcons : (a :: l).forM (fun a => if p a then body a else pure ()) =
        (if p a then body a else pure ()) >>= fun _ =>
          l.forM fun a => if p a then body a else pure () := rfl
    rw [hcons, ← ih]
    by_cases ha : p a
    · rw [List.filter_cons_of_pos (by simpa using ha), if_pos ha]
      rfl
    · rw [List.filter_cons_of_neg (by simpa using ha), if_neg ha, pure_bind]

/-- A loop over one item is its pass. -/
lemma forM_singleton_eq (body : α → m Unit) (a : α) : [a].forM body = body a := by
  have hcons : [a].forM body = body a >>= fun _ => pure () := rfl
  rw [hcons]
  exact bind_pure_unit

end Loops

/-! ## The selected domains -/

section Selection

variable {cm : CaseMap} {config : ClassifierConfig} {domain target d : Str} {isTest : Bool}

/-- With domain names that are distinct up to case, a domain is selected by its name alone. -/
lemma filter_eq_singleton_of_find? (hdistinct : (config.domainOrder.map cm.lower).Nodup)
    (hfind : (config.domainOrder.find? fun d => cm.lower d = target) = some d) :
    (config.domainOrder.filter fun d => cm.lower d = target) = [d] := by
  have hd : cm.lower d = target := by simpa using List.find?_some hfind
  have hmem := List.mem_of_find?_eq_some hfind
  have hnodup : config.domainOrder.Nodup := hdistinct.of_map _
  have hfilter : (config.domainOrder.filter fun d => cm.lower d = target) =
      config.domainOrder.filter fun d' => d' = d := by
    apply List.filter_congr
    intro d' hd'
    rw [decide_eq_decide, ← hd]
    exact ⟨fun h => List.inj_on_of_nodup_map hdistinct hd' hmem h, fun h => by rw [h]⟩
  rw [hfilter, List.filter_eq, List.count_eq_one_of_mem hnodup hmem, List.replicate_one]

/-- The selected domains of a refresh of a single domain that the test mode does not exclude. -/
lemma scopeDomains_eq_singleton (hdistinct : (config.domainOrder.map cm.lower).Nodup)
    {domainName : Option Str}
    (htarget : scopeTarget cm domainName ∉ ["all".toList, "legacy".toList])
    (hfind : (config.domainOrder.find? fun d => cm.lower d = scopeTarget cm domainName) = some d)
    (hlight : ¬ (isTest ∧ d ∉ lightDomains)) : scopeDomains cm config isTest domainName = [d] := by
  have hsingle := filter_eq_singleton_of_find? hdistinct hfind
  unfold scopeDomains
  dsimp only
  rw [if_neg htarget]
  cases isTest with
  | false => exact hsingle
  | true =>
    have hd : d ∈ lightDomains := by simpa using hlight
    rw [if_pos rfl, List.filter_comm, hsingle, List.filter_singleton]
    simp [hd]

/-- The selected domains of a refresh of everything. -/
lemma scopeDomains_of_all {domainName : Option Str}
    (htarget : scopeTarget cm domainName = "all".toList) :
    scopeDomains cm config isTest domainName =
      config.domainOrder.filter fun d => ¬ (isTest ∧ d ∉ lightDomains) := by
  unfold scopeDomains
  dsimp only
  rw [if_pos (by simp [htarget])]
  cases isTest with
  | false => simp
  | true => simp

end Selection

/-! ## The two programs -/

section Equality

variable {W ε : Type} {cm : CaseMap} {config : ClassifierConfig} {callees : Callees W ε}
  {activeEnv domain env : Str} {isTest isForce : Bool} {world : W}

/-- A program that raises a `ValueError` of its own rejects the domain. -/
lemma not_accepts_of_throw {e : IngestError ε}
    (h : ingestMetadata cm config callees activeEnv domain (some env) isTest isForce = throw e)
    (he : e.IsRejection) :
    ¬ Accepts cm config callees activeEnv domain (some env) isTest isForce world := by
  intro haccepts
  refine haccepts e ?_ he
  rw [h]
  rfl

/-- An accepted domain is not empty. -/
lemma ne_nil_of_accepts (hlower : ∀ s, cm.lower s = [] → s = [])
    (haccepts : Accepts cm config callees activeEnv domain (some env) isTest isForce world) :
    domain ≠ [] := by
  rintro rfl
  have hempty : cm.lower (stripSpaces []) = [] := by
    rw [cm.lower_ascii _ (by intro ch hch; cases hch)]
    rfl
  have hrejects : ingestMetadata cm config callees activeEnv [] (some env) isTest isForce =
      throw (.unknownDomain [] config.domainOrder) := by
    unfold ingestMetadata
    dsimp only
    rw [hempty, if_neg (by decide), if_neg (by decide)]
    cases hfind : config.domainOrder.find? fun d => cm.lower d = [] with
    | none => rfl
    | some d =>
      have hd : cm.lower d = [] := by simpa using List.find?_some hfind
      exact if_pos (hlower d hd)
  exact not_accepts_of_throw hrejects trivial haccepts

/-- The ingestion of a single domain that is accepted: the first domain of its name is crawled, and
the test mode does not exclude it. -/
lemma exists_matched_of_accepts (hall : cm.lower (stripSpaces domain) ≠ "all".toList)
    (hlegacy : cm.lower (stripSpaces domain) ≠ "legacy".toList)
    (haccepts : Accepts cm config callees activeEnv domain (some env) isTest isForce world) :
    ∃ d, (config.domainOrder.find? fun d => cm.lower d = cm.lower (stripSpaces domain)) = some d ∧
      ¬ (isTest ∧ d ∉ lightDomains) ∧
        ingestMetadata cm config callees activeEnv domain (some env) isTest isForce =
          crawlStaleDomain callees (cm.upper env) isForce d := by
  have hmatch : ingestMetadata cm config callees activeEnv domain (some env) isTest isForce =
      match config.domainOrder.find? fun d => cm.lower d = cm.lower (stripSpaces domain) with
      | none => throw (.unknownDomain domain config.domainOrder)
      | some matched =>
        if matched = [] then throw (.unknownDomain domain config.domainOrder)
        else if isTest ∧ matched ∉ lightDomains then throw (.heavyDomain matched)
        else crawlStaleDomain callees (cm.upper env) isForce matched := by
    unfold ingestMetadata
    dsimp only
    rw [if_neg hall, if_neg hlegacy, Option.getD_some]
  cases hfind : config.domainOrder.find? fun d =>
      cm.lower d = cm.lower (stripSpaces domain) with
  | none =>
    rw [hfind] at hmatch
    exact absurd haccepts (not_accepts_of_throw hmatch trivial)
  | some d =>
    rw [hfind] at hmatch
    dsimp only at hmatch
    by_cases hempty : d = []
    · rw [if_pos hempty] at hmatch
      exact absurd haccepts (not_accepts_of_throw hmatch trivial)
    · by_cases hheavy : isTest ∧ d ∉ lightDomains
      · rw [if_neg hempty, if_pos hheavy] at hmatch
        exact absurd haccepts (not_accepts_of_throw hmatch trivial)
      · rw [if_neg hempty, if_neg hheavy] at hmatch
        exact ⟨d, rfl, hheavy, hmatch⟩

/-- The refresh of everything. -/
lemma refreshEnvironmentMetadata_of_all {domainName : Option Str}
    (htarget : scopeTarget cm domainName = "all".toList) :
    refreshEnvironmentMetadata cm config callees env isTest isForce domainName = (do
      config.domainOrder.forM fun dom =>
        if isTest ∧ dom ∉ lightDomains then pure () else crawlStaleDomain callees env isForce dom
      if ¬ isTest then crawlStaleLegacy callees env isForce) := by
  have hloop : (scopeDomains cm config isTest domainName).forM
      (crawlStaleDomain callees env isForce) = config.domainOrder.forM fun dom =>
        if isTest ∧ dom ∉ lightDomains then pure () else
          crawlStaleDomain callees env isForce dom := by
    rw [scopeDomains_of_all htarget, forM_filter_eq]
    simp only [ite_not]
  unfold refreshEnvironmentMetadata
  dsimp only
  rw [htarget, if_pos (by decide), if_pos (by decide), hloop]

/-- The refresh of the legacy archives. -/
lemma refreshEnvironmentMetadata_of_legacy {domainName : Option Str}
    (htarget : scopeTarget cm domainName = "legacy".toList) :
    refreshEnvironmentMetadata cm config callees env isTest isForce domainName =
      if isTest then pure () else crawlStaleLegacy callees env isForce := by
  unfold refreshEnvironmentMetadata
  dsimp only
  rw [htarget, if_neg (by simp), if_pos (by decide)]
  cases isTest with
  | false => rfl
  | true => rfl

/-- The refresh of a single domain. -/
lemma refreshEnvironmentMetadata_of_single {domainName : Option Str} {d : Str}
    (htarget : scopeTarget cm domainName ∉ ["all".toList, "legacy".toList])
    (hdomains : scopeDomains cm config isTest domainName = [d]) :
    refreshEnvironmentMetadata cm config callees env isTest isForce domainName =
      crawlStaleDomain callees env isForce d := by
  have hlegacy : scopeTarget cm domainName ≠ "legacy".toList := by
    intro h
    rw [h] at htarget
    exact htarget (by decide)
  unfold refreshEnvironmentMetadata
  dsimp only
  rw [if_pos hlegacy, if_neg htarget, hdomains, forM_singleton_eq]
  exact bind_pure_unit

/-- **The two programs.** On a domain that the ingestion accepts, it is the same program as the
refresh: with the same outcome, the same crawls and the same world behind them.

**Proof sketch.** The target in lower case is the same on both sides. When everything is asked for,
the loop that skips domains is the loop over the selected ones. A single domain is accepted when the
first domain of its name is not excluded by the test mode, and no other domain has its name up to
case, so it is the only selected one. -/
theorem ingestMetadata_eq_refreshEnvironmentMetadata
    (hdistinct : (config.domainOrder.map cm.lower).Nodup) (henv : cm.upper env = env)
    (hlower : ∀ s, cm.lower s = [] → s = [])
    (haccepts : Accepts cm config callees activeEnv domain (some env) isTest isForce world) :
    ingestMetadata cm config callees activeEnv domain (some env) isTest isForce =
      refreshEnvironmentMetadata cm config callees env isTest isForce (some domain) := by
  have htarget : scopeTarget cm (some domain) = cm.lower (stripSpaces domain) := by
    rw [scopeTarget, targetDomain, if_neg (ne_nil_of_accepts hlower haccepts)]
  by_cases hall : cm.lower (stripSpaces domain) = "all".toList
  · rw [refreshEnvironmentMetadata_of_all (htarget.trans hall)]
    unfold ingestMetadata
    dsimp only
    rw [if_pos hall, Option.getD_some, henv]
  · by_cases hlegacy : cm.lower (stripSpaces domain) = "legacy".toList
    · rw [refreshEnvironmentMetadata_of_legacy (htarget.trans hlegacy)]
      unfold ingestMetadata
      dsimp only
      rw [if_neg hall, if_pos hlegacy, Option.getD_some, henv]
    · obtain ⟨d, hfind, hlight, hprogram⟩ := exists_matched_of_accepts hall hlegacy haccepts
      have hsingle : scopeTarget cm (some domain) ∉ ["all".toList, "legacy".toList] := by
        rw [htarget, List.mem_cons, List.mem_singleton]
        exact not_or.mpr ⟨hall, hlegacy⟩
      rw [← htarget] at hfind
      rw [hprogram, henv, refreshEnvironmentMetadata_of_single hsingle
        (scopeDomains_eq_singleton hdistinct hsingle hfind hlight)]

/-- **The same crawls.** On a domain that the ingestion accepts, both entry points start the same
crawls in the same order, from every world, whatever the crawls do to it. -/
theorem sameCrawls (hdistinct : (config.domainOrder.map cm.lower).Nodup)
    (henv : cm.upper env = env) (hlower : ∀ s, cm.lower s = [] → s = [])
    (haccepts : Accepts cm config callees activeEnv domain (some env) isTest isForce world) :
    ((ingestMetadata cm config callees activeEnv domain (some env) isTest isForce).start
      world).2.calls =
        ((refreshEnvironmentMetadata cm config callees env isTest isForce (some domain)).start
          world).2.calls := by
  rw [ingestMetadata_eq_refreshEnvironmentMetadata hdistinct henv hlower haccepts]

end Equality

/-! ## Two domains that share a folder -/

/-- Two domains. -/
def prefixedDomains : ClassifierConfig where
  domainOrder := ["Load".toList, "Generation".toList]
  fallbackDomain := "OtherMarketInformation".toList
  domains := ∅
  legacyRules := []

/-- The folders of a domain. -/
def sharedFolders (domainName : Str) : List Str :=
  if domainName = "Load".toList then ["ActualTotalLoad_r3".toList, "Shared_r3".toList]
  else ["Shared_r3".toList]

/-- A world of fresh folders: a crawl makes its folders fresh. -/
def sharedCallees : Callees (List Str) Unit where
  getStaleDomainFolders domainName _ isForce fresh :=
    (.ok (if isForce then sharedFolders domainName
      else (sharedFolders domainName).filter fun folder => folder ∉ fresh), fresh)
  getStaleLegacyFolders _ _ _ fresh := (.ok [], fresh)
  ingestDomainMetadata _ _ folders fresh := (.ok (), fresh ++ folders)
  ingestAllLegacyMetadata _ folders fresh := (.ok (), fresh ++ folders)

/-- The crawl of the first domain makes the folder of the second one fresh, so both entry points
start one crawl. -/
theorem sameCrawls_shared :
    ((ingestMetadata CaseMap.ascii prefixedDomains sharedCallees "IOP".toList " all ".toList
      (some "IOP".toList) false false).start []).2.calls =
        ((refreshEnvironmentMetadata CaseMap.ascii prefixedDomains sharedCallees "IOP".toList
          false false (some " all ".toList)).start []).2.calls ∧
    ((refreshEnvironmentMetadata CaseMap.ascii prefixedDomains sharedCallees "IOP".toList
      false false (some " all ".toList)).start []).2.calls =
        [.domain "Load".toList "IOP".toList
          ["ActualTotalLoad_r3".toList, "Shared_r3".toList]] := by
  have hlower : ∀ s, CaseMap.ascii.lower s = [] → s = [] := fun s h => List.map_eq_nil_iff.mp h
  have haccepts : Accepts CaseMap.ascii prefixedDomains sharedCallees "IOP".toList " all ".toList
      (some "IOP".toList) false false [] := by
    have hok : ((ingestMetadata CaseMap.ascii prefixedDomains sharedCallees "IOP".toList
        " all ".toList (some "IOP".toList) false false).start []).1 = .ok () := by rfl
    intro e he
    rw [hok] at he
    cases he
  exact ⟨sameCrawls (by decide) (by decide) hlower haccepts, by decide⟩

end EntsoePipeline
