import EntsoePipeline.Config.Classifier
import EntsoePipeline.Landing.Layout

set_option relaxedAutoImplicit false
set_option autoImplicit false

/-!
# The contract gateway of the lakehouse

The gateway reads the pending rows of the landing registry, resolves the folder of each key to a
contract of the classifier and groups the files by contract. A key is resolved by three rules,
tried in order: the folder segment is a contract of the domain segment's group, the folder
segment starts with one, or the domain segment itself is the key of a publication.

## Main definitions

* `EntsoePipeline.resolveFmsName` — the three rules as the code tries them.
* `EntsoePipeline.getIncrementalFilesToIngest` — the grouping of the pending rows.
* `EntsoePipeline.Resolves` — the rules as a relation, one constructor for each rule.
* `EntsoePipeline.GatewaySound` — every ingested file lies in the folder of its contract or of a
  minor revision of it, and every other file is rejected.

## Main results

* `EntsoePipeline.resolveFmsName_iff` — the code computes the relation.
* `EntsoePipeline.gatewaySound_iff` — the gateway is sound on a list of rows exactly when no key
  reaches the prefix rule or the flat rule with a foreign folder.
* `EntsoePipeline.not_gatewaySound_fallback` — an unvetted folder that the classifier parked in
  the fallback domain is ingested under the contract of that domain's own publication.
-/

namespace EntsoePipeline

open Py

/-! ## The code -/

/-- A pending file: a row of `fetch_incremental_files_from_db`. -/
structure PendingRow where
  /-- The object key. -/
  s3Key : Str
  /-- The digest of the registered version. -/
  xxhash : Str
  /-- The size of the file. -/
  fileSizeBytes : ℤ
  deriving DecidableEq

/-- A file with the contract it is ingested under. -/
structure IngestibleFile where
  /-- The object key. -/
  s3Key : Str
  /-- The digest of the registered version. -/
  xxhash : Str
  /-- The size of the file. -/
  fileSizeBytes : ℤ
  /-- The domain segment of the key. -/
  logicalDomain : Str
  /-- The contract. -/
  fmsName : Str
  deriving DecidableEq

/-- The contract that is bypassed because of its size. -/
def giantBypassDomainContract : Str :=
  "OfferedTransferCapacitiesContinuousEvolution_11.1_r3".toList

/-- `bool(name)` for `name: str | None`. -/
def truthy (name : Option Str) : Bool := name.any fun n => n ≠ []

/-- `if not name: name = other` where a rule without a hit leaves `name` as it is. -/
def retryFalsy (name other : Option Str) : Option Str :=
  if truthy name then name else other.or name

/-- The first rule: an item whose contract is the folder. -/
def exactMatch (items : DomainGroup) (itemCandidate : Str) : Option Str :=
  (items.values.find? fun item => item.fmsName = itemCandidate).map ClassifierItem.fmsName

/-- The second rule: the first item whose contract is a prefix of the folder. -/
def prefixMatch (items : DomainGroup) (itemCandidate : Str) : Option Str :=
  (items.values.find? fun item => startsWith itemCandidate item.fmsName).map
    ClassifierItem.fmsName

/-- The third rule: the publication with the domain segment as its key, in the first group that
has one. -/
def flatMatch (domains : Dict Str DomainGroup) (logicalDomain : Str) : Option Str :=
  domains.values.findSome? fun group => (group.get? logicalDomain).map ClassifierItem.fmsName

/-- The first two rules, which apply when the domain segment names a group. -/
def hierarchicalMatch (config : ClassifierConfig) (logicalDomain itemCandidate : Str) :
    Option Str :=
  match config.domains.get? logicalDomain with
  | some items =>
    if itemCandidate = [] then none
    else retryFalsy (exactMatch items itemCandidate) (prefixMatch items itemCandidate)
  | none => none

/-- The contract of a domain segment and a folder segment. -/
def resolveFmsName (config : ClassifierConfig) (logicalDomain itemCandidate : Str) :
    Option Str :=
  retryFalsy (hierarchicalMatch config logicalDomain itemCandidate)
    (flatMatch config.domains logicalDomain)

/-- One pass of the loop: the file a row becomes, `none` when it is skipped. -/
def gateRow (config : ClassifierConfig) (row : PendingRow) : Option IngestibleFile :=
  match split '/' (strip '/' row.s3Key) with
  | _ :: _ :: logicalDomain :: itemCandidate :: _ =>
    match resolveFmsName config logicalDomain itemCandidate with
    | some fmsName =>
      if fmsName = [] then none
      else if fmsName = giantBypassDomainContract then none
      else some ⟨row.s3Key, row.xxhash, row.fileSizeBytes, logicalDomain, fmsName⟩
    | none => none
  | _ => none

/-- The files to ingest, grouped by contract. -/
def getIncrementalFilesToIngest (config : ClassifierConfig) (dbRows : List PendingRow) :
    Dict Str (List IngestibleFile) :=
  dbRows.foldl (fun byContract row =>
    match gateRow config row with
    | some file => byContract.alter file.fmsName fun o => o.getD [] ++ [file]
    | none => byContract) ∅

/-! ## Soundness of the gateway -/

/-- The folder segment of a landing key. -/
def folderSegment (s3Key : Str) : Option Str := (split '/' (strip '/' s3Key))[3]?

/-- `folder` is a minor revision of the contract `n`: it continues `n` by `.` and digits. -/
def MinorRevision (n folder : Str) : Prop :=
  ∃ digits : Str, digits ≠ [] ∧ (∀ ch ∈ digits, ch.isDigit) ∧ folder = n ++ '.' :: digits

/-- `folder` is the folder of the contract `n` or of a minor revision of it. -/
def Vetted (n folder : Str) : Prop := folder = n ∨ MinorRevision n folder

/-- The gateway admits the folders of its contracts and nothing else. -/
structure GatewaySound (config : ClassifierConfig) (dbRows : List PendingRow) : Prop where
  /-- A file is put under a contract only from a folder of that contract. -/
  vetted : ∀ n files, (getIncrementalFilesToIngest config dbRows).get? n = some files →
    ∀ file ∈ files, ∃ folder, folderSegment file.s3Key = some folder ∧ Vetted n folder
  /-- A file whose folder belongs to no contract is rejected. -/
  rejected : ∀ row ∈ dbRows, ∀ folder, folderSegment row.s3Key = some folder →
    (∀ n, config.IsContract n → ¬ Vetted n folder) →
    ∀ n files, (getIncrementalFilesToIngest config dbRows).get? n = some files →
      ∀ file ∈ files, file.s3Key ≠ row.s3Key

/-- A contract that the gateway does not discard. -/
def Admissible (n : Str) : Prop := n ≠ [] ∧ n ≠ giantBypassDomainContract

instance (n : Str) : Decidable (Admissible n) := inferInstanceAs (Decidable (_ ∧ _))

/-- The domain segment's group has a contract for the folder that is exactly it. -/
def HasExact (config : ClassifierConfig) (d folder : Str) : Prop :=
  folder ≠ [] ∧ ∃ items, config.domains.get? d = some items ∧
    ∃ item ∈ items.values, item.fmsName = folder

/-- `n` is the contract of the first item of the domain segment's group that prefixes the
folder. -/
def FirstPrefix (config : ClassifierConfig) (d folder n : Str) : Prop :=
  folder ≠ [] ∧ ∃ items, config.domains.get? d = some items ∧
    ∃ item, items.values.find? (fun item => startsWith folder item.fmsName) = some item ∧
      item.fmsName = n

/-- `n` is the contract of the first publication that has the domain segment as its key. -/
def FirstKeyed (config : ClassifierConfig) (d n : Str) : Prop :=
  ∃ item, (config.domains.values.findSome? fun group => group.get? d) = some item ∧
    item.fmsName = n

/-- The rules of the gateway: what a domain and a folder segment resolve to. -/
inductive Resolves (config : ClassifierConfig) (d folder : Str) : Str → Prop
  | exact (h : HasExact config d folder) : Resolves config d folder folder
  | prefixed {n : Str} (hexact : ¬ HasExact config d folder) (h : FirstPrefix config d folder n)
      (hn : n ≠ []) : Resolves config d folder n
  | flat {n : Str} (hexact : ¬ HasExact config d folder)
      (hfirst : ∀ n, FirstPrefix config d folder n → n = [])
      (h : FirstKeyed config d n) (hn : n ≠ []) : Resolves config d folder n

/-! ### What the helpers return -/

/-- The second lookup counts when the first one found nothing or an empty name. -/
lemma retryFalsy_eq_some_iff {name other : Option Str} {n : Str} (hn : n ≠ []) :
    retryFalsy name other = some n ↔
      name = some n ∨ ((∀ m, name = some m → m = []) ∧ other = some n) := by
  unfold retryFalsy truthy
  cases name with
  | none => simp
  | some m =>
    by_cases hm : m = []
    · subst hm
      cases other with
      | none => simp [Ne.symm hn]
      | some k => simp [Ne.symm hn]
    · simp [hm]

/-- The exact lookup finds the folder itself. -/
lemma exactMatch_eq_some_iff {items : DomainGroup} {folder n : Str} :
    exactMatch items folder = some n ↔ n = folder ∧ ∃ item ∈ items.values,
      item.fmsName = folder := by
  unfold exactMatch
  constructor
  · intro h
    obtain ⟨item, hfind, rfl⟩ := Option.map_eq_some_iff.mp h
    have hname : item.fmsName = folder := by simpa using List.find?_some hfind
    exact ⟨hname, item, List.mem_of_find?_eq_some hfind, hname⟩
  · rintro ⟨rfl, item, hmem, hname⟩
    cases hfind : items.values.find? (fun item => item.fmsName = n) with
    | none => exact absurd hname (by simpa using List.find?_eq_none.mp hfind item hmem)
    | some item' =>
      have hname' : item'.fmsName = n := by simpa using List.find?_some hfind
      rw [Option.map_some, hname']

/-- The second rule gives the contract of the first item with the prefix. -/
lemma prefixMatch_eq_some_iff {items : DomainGroup} {folder n : Str} :
    prefixMatch items folder = some n ↔
      ∃ item, items.values.find? (fun item => startsWith folder item.fmsName) = some item ∧
        item.fmsName = n :=
  Option.map_eq_some_iff

/-- The third rule gives the contract of the first publication with the key. -/
lemma flatMatch_eq_some_iff {config : ClassifierConfig} {d n : Str} :
    flatMatch config.domains d = some n ↔ FirstKeyed config d n := by
  have hmap : flatMatch config.domains d =
      (config.domains.values.findSome? fun group => group.get? d).map ClassifierItem.fmsName :=
    List.map_findSome?.symm
  rw [hmap, Option.map_eq_some_iff, FirstKeyed]

/-- The first prefix of a folder is a contract of the group. -/
lemma FirstPrefix.exists_mem {config : ClassifierConfig} {d folder n : Str}
    (h : FirstPrefix config d folder n) :
    ∃ items, config.domains.get? d = some items ∧ ∃ item ∈ items.values, item.fmsName = n := by
  obtain ⟨-, items, hget, item, hfind, hname⟩ := h
  exact ⟨items, hget, item, List.mem_of_find?_eq_some hfind, hname⟩

/-- The first two rules give the folder itself, when it is a contract of the group, and the first
prefixing contract otherwise. -/
lemma hierarchicalMatch_eq_some_iff {config : ClassifierConfig} {d folder n : Str} (hn : n ≠ []) :
    hierarchicalMatch config d folder = some n ↔
      (n = folder ∧ HasExact config d folder) ∨
        (¬ HasExact config d folder ∧ FirstPrefix config d folder n) := by
  unfold hierarchicalMatch HasExact FirstPrefix
  cases hd : config.domains.get? d with
  | none => simp
  | some items =>
    by_cases hf : folder = []
    · simp [hf]
    · have hfalsy : (∀ k, exactMatch items folder = some k → k = []) ↔
          ¬ ∃ item ∈ items.values, item.fmsName = folder := by
        constructor
        · intro h hex
          exact hf (h folder (exactMatch_eq_some_iff.mpr ⟨rfl, hex⟩))
        · intro h k hk
          exact absurd (exactMatch_eq_some_iff.mp hk).2 h
      dsimp only
      rw [if_neg hf, retryFalsy_eq_some_iff hn, exactMatch_eq_some_iff, hfalsy,
        prefixMatch_eq_some_iff]
      simp [hf]

/-- **The code computes the rules.** A non-empty name is resolved exactly when one of the three
rules gives it.

**Proof sketch.** The first two rules are read off `hierarchicalMatch_eq_some_iff`. The flat rule
is tried when they give no name or an empty one, that is, when there is no exact match and every
first prefix is empty. -/
theorem resolveFmsName_iff {config : ClassifierConfig} {d folder n : Str} (hn : n ≠ []) :
    resolveFmsName config d folder = some n ↔ Resolves config d folder n := by
  have hfalsy : (∀ m, hierarchicalMatch config d folder = some m → m = []) ↔
      ¬ HasExact config d folder ∧ ∀ m, FirstPrefix config d folder m → m = [] := by
    constructor
    · intro h
      have hex : ¬ HasExact config d folder := fun hex =>
        hex.1 (h folder ((hierarchicalMatch_eq_some_iff hex.1).mpr (Or.inl ⟨rfl, hex⟩)))
      refine ⟨hex, fun m hm => ?_⟩
      by_contra hne
      exact hne (h m ((hierarchicalMatch_eq_some_iff hne).mpr (Or.inr ⟨hex, hm⟩)))
    · rintro ⟨hex, hpre⟩ m hm
      by_contra hne
      rcases (hierarchicalMatch_eq_some_iff hne).mp hm with ⟨-, h⟩ | ⟨-, h⟩
      · exact hex h
      · exact hne (hpre m h)
  unfold resolveFmsName
  rw [retryFalsy_eq_some_iff hn, hierarchicalMatch_eq_some_iff hn, hfalsy, flatMatch_eq_some_iff]
  constructor
  · rintro ((⟨rfl, h⟩ | ⟨hex, h⟩) | ⟨⟨hex, hpre⟩, h⟩)
    · exact .exact h
    · exact .prefixed hex h hn
    · exact .flat hex hpre h hn
  · rintro (h | ⟨hex, h, -⟩ | ⟨hex, hpre, h, -⟩)
    · exact Or.inl (Or.inl ⟨rfl, h⟩)
    · exact Or.inl (Or.inr ⟨hex, h⟩)
    · exact Or.inr ⟨⟨hex, hpre⟩, h⟩

/-- What the rules give is a contract of the configuration. -/
lemma Resolves.isContract {config : ClassifierConfig} {d folder n : Str}
    (h : Resolves config d folder n) : config.IsContract n := by
  cases h with
  | exact h =>
    obtain ⟨-, items, hget, item, hmem, hname⟩ := h
    exact ⟨items, Dict.mem_values_iff.mpr ⟨d, hget⟩, item, hmem, hname⟩
  | prefixed hexact h hn =>
    obtain ⟨items, hget, hitem⟩ := h.exists_mem
    exact ⟨items, Dict.mem_values_iff.mpr ⟨d, hget⟩, hitem⟩
  | flat hexact hfirst h hn =>
    obtain ⟨item, hfind, hname⟩ := h
    obtain ⟨items, hmem, hget⟩ := List.exists_of_findSome?_eq_some hfind
    exact ⟨items, hmem, item, Dict.mem_values_iff.mpr ⟨d, hget⟩, hname⟩

/-- What one pass of the loop admits: a resolved, admissible contract. -/
lemma gateRow_eq_some_iff {config : ClassifierConfig} {row : PendingRow} {file : IngestibleFile} :
    gateRow config row = some file ↔ ∃ a b d folder rest n,
      split '/' (strip '/' row.s3Key) = a :: b :: d :: folder :: rest ∧
        Resolves config d folder n ∧ Admissible n ∧
          file = ⟨row.s3Key, row.xxhash, row.fileSizeBytes, d, n⟩ := by
  unfold gateRow
  constructor
  · intro h
    split at h
    · rename_i a b d folder rest hsplit
      split at h
      · rename_i n hres
        split_ifs at h with hnil hgiant
        rw [Option.some.injEq] at h
        exact ⟨a, b, d, folder, rest, n, hsplit, (resolveFmsName_iff hnil).mp hres,
          ⟨hnil, hgiant⟩, h.symm⟩
      · cases h
    · cases h
  · rintro ⟨a, b, d, folder, rest, n, hsplit, hres, ⟨hnil, hgiant⟩, rfl⟩
    rw [hsplit]
    dsimp only
    rw [(resolveFmsName_iff hnil).mpr hres]
    dsimp only
    rw [if_neg hnil, if_neg hgiant]

/-- The loop gathers the admitted files under their contracts. -/
lemma getIncrementalFilesToIngest_eq (config : ClassifierConfig) (dbRows : List PendingRow) :
    getIncrementalFilesToIngest config dbRows =
      Dict.gather IngestibleFile.fmsName (fun o x => o.getD [] ++ [x]) ∅
        (dbRows.filterMap (gateRow config)) := by
  unfold getIncrementalFilesToIngest Dict.gather
  rw [List.foldl_filterMap]
  congr 1
  funext byContract row
  cases gateRow config row <;> rfl

/-- The loop groups the admitted files by contract. -/
lemma mem_getIncrementalFilesToIngest {config : ClassifierConfig} {dbRows : List PendingRow}
    {n : Str} {file : IngestibleFile} :
    (∃ files, (getIncrementalFilesToIngest config dbRows).get? n = some files ∧ file ∈ files) ↔
      (∃ row ∈ dbRows, gateRow config row = some file) ∧ file.fmsName = n := by
  rw [getIncrementalFilesToIngest_eq, Dict.mem_gather_append, List.mem_filterMap]

/-- The files of all contracts together are the admitted ones, each once. -/
lemma flatMap_getIncrementalFilesToIngest (config : ClassifierConfig) (dbRows : List PendingRow) :
    ((getIncrementalFilesToIngest config dbRows).items.flatMap Prod.snd).Perm
      (dbRows.filterMap (gateRow config)) := by
  rw [getIncrementalFilesToIngest_eq]
  exact Dict.flatMap_gather_append _ _

/-- The files of a contract carry its name. -/
lemma fmsName_of_mem_getIncrementalFilesToIngest {config : ClassifierConfig}
    {dbRows : List PendingRow} {n : Str} {files : List IngestibleFile}
    (h : (n, files) ∈ (getIncrementalFilesToIngest config dbRows).items) {file : IngestibleFile}
    (hfile : file ∈ files) : file.fmsName = n :=
  (mem_getIncrementalFilesToIngest.mp ⟨files, Dict.mem_items_iff.mp h, hfile⟩).2

/-! ### When the gateway is sound -/

/-- The key does not reach the prefix rule with a foreign folder: if its group has no exact
match and the first prefixing contract is admissible, the folder is a minor revision of it. -/
def PrefixSafe (config : ClassifierConfig) (d folder : Str) : Prop :=
  ¬ HasExact config d folder → ∀ n, FirstPrefix config d folder n → Admissible n →
    MinorRevision n folder

/-- The key does not reach the flat rule with a foreign folder: if its group has neither an exact
match nor a non-empty prefixing contract and the domain segment is itself the key of a
publication with an admissible contract, the folder belongs to that contract. -/
def FlatSafe (config : ClassifierConfig) (d folder : Str) : Prop :=
  ¬ HasExact config d folder → (∀ n, FirstPrefix config d folder n → n = []) →
    ∀ n, FirstKeyed config d n → Admissible n → Vetted n folder

/-- The domain and folder segments of a key, if it has at least four, are safe for both rules. -/
def KeySafe (config : ClassifierConfig) (s3Key : Str) : Prop :=
  ∀ a b d folder rest, split '/' (strip '/' s3Key) = a :: b :: d :: folder :: rest →
    PrefixSafe config d folder ∧ FlatSafe config d folder

/-- The folder of a key is its fourth segment. -/
lemma folderSegment_of_split {s3Key a b d folder : Str} {rest : List Str}
    (h : split '/' (strip '/' s3Key) = a :: b :: d :: folder :: rest) :
    folderSegment s3Key = some folder := by
  rw [folderSegment, h]
  rfl

/-- **The gateway is sound exactly on safe keys.** The files of a list of pending rows are put
under their own contracts, and all others rejected, if and only if no key reaches the prefix
rule or the flat rule with a folder that is foreign to the contract found there.

**Proof sketch.** A file is admitted through one of the three rules. The exact rule is always
right, and the other two are right by the safety of the key. Conversely the soundness of the
gateway, applied to the file that a rule admits, is the safety of the key for that rule. -/
theorem gatewaySound_iff (config : ClassifierConfig) (dbRows : List PendingRow) :
    GatewaySound config dbRows ↔ ∀ row ∈ dbRows, KeySafe config row.s3Key := by
  constructor
  · intro hsound row hrow a b d folder rest hsplit
    have hvetted : ∀ n, Resolves config d folder n → Admissible n → Vetted n folder := by
      intro n hres hadm
      have hgate := gateRow_eq_some_iff.mpr
        ⟨a, b, d, folder, rest, n, hsplit, hres, hadm, rfl⟩
      obtain ⟨files, hfiles, hmem⟩ :=
        mem_getIncrementalFilesToIngest.mpr ⟨⟨row, hrow, hgate⟩, rfl⟩
      obtain ⟨folder', hfolder', hv⟩ := hsound.vetted _ files hfiles _ hmem
      rw [folderSegment_of_split hsplit, Option.some.injEq] at hfolder'
      rwa [hfolder']
    refine ⟨fun hexact n hpre hadm => ?_, fun hexact hfirst n hflat hadm => ?_⟩
    · rcases hvetted n (.prefixed hexact hpre hadm.1) hadm with hn | hminor
      · obtain ⟨items, hget, item, hitem, hname⟩ := hpre.exists_mem
        exact absurd ⟨hpre.1, items, hget, item, hitem, hname.trans hn.symm⟩ hexact
      · exact hminor
    · exact hvetted n (.flat hexact hfirst hflat hadm.1) hadm
  · intro hsafe
    have hvetted : ∀ n files, (getIncrementalFilesToIngest config dbRows).get? n = some files →
        ∀ file ∈ files, config.IsContract n ∧
          ∃ folder, folderSegment file.s3Key = some folder ∧ Vetted n folder := by
      intro n files hfiles file hfile
      obtain ⟨⟨row, hrow, hgate⟩, rfl⟩ :=
        mem_getIncrementalFilesToIngest.mp ⟨files, hfiles, hfile⟩
      obtain ⟨a, b, d, folder, rest, n, hsplit, hres, hadm, rfl⟩ := gateRow_eq_some_iff.mp hgate
      obtain ⟨hfirst, hflat⟩ := hsafe row hrow a b d folder rest hsplit
      refine ⟨hres.isContract, folder, folderSegment_of_split hsplit, ?_⟩
      cases hres with
      | exact h => exact Or.inl rfl
      | prefixed hexact h hn => exact Or.inr (hfirst hexact n h hadm)
      | flat hexact hpre h hn => exact hflat hexact hpre n h hadm
    refine ⟨fun n files hfiles file hfile => (hvetted n files hfiles file hfile).2, ?_⟩
    rintro row hrow folder hfolder hnone n files hfiles file hfile heq
    obtain ⟨hcontract, folder', hfolder', hv⟩ := hvetted n files hfiles file hfile
    rw [heq, hfolder, Option.some.injEq] at hfolder'
    exact hnone n hcontract (hfolder' ▸ hv)

/-! ### A parked folder is ingested -/

/-- Two groups of the shipped classifier, shortened. -/
def shippedGroups : Dict Str DomainGroup :=
  Dict.ofList [
    ("Load".toList, Dict.ofList
      [("ActualTotalLoad_6.1.A".toList, ⟨"ActualTotalLoad_6.1.A_r3".toList⟩)]),
    ("OtherMarketInformation".toList, Dict.ofList
      [("OtherMarketInformation".toList, ⟨"OtherMarketInformation_r3".toList⟩)])]

/-- The classifier built from `shippedGroups`. -/
def shippedClassifier : ClassifierConfig := .ofYaml shippedGroups []

/-- The catalog after the undocumented folder `SomethingNew_r4` was crawled in the domain the
classifier gave it. -/
def parkedCatalog : Catalog where
  folders := Dict.ofList [(⟨"iop".toList, folderPath "TP_export".toList "SomethingNew_r4".toList⟩,
    ⟨classifyFolder CaseMap.ascii shippedClassifier "SomethingNew_r4".toList, 1, 9, 9, none⟩)]
  files := ∅

/-- The pending rows of the files under the landing folders of `parkedCatalog`. -/
def parkedRows : List PendingRow :=
  (buildLandingBucketSchema CaseMap.ascii parkedCatalog ∅).keys.map fun path =>
    ⟨path ++ "/2026_04.csv".toList, "h".toList, 9⟩

/-- The parked folder reaches the flat rule and its file is ingested as
`OtherMarketInformation_r3`. -/
theorem not_gatewaySound_fallback : ¬ GatewaySound shippedClassifier parkedRows := by
  intro hsound
  have hfiles : (getIncrementalFilesToIngest shippedClassifier parkedRows).get?
      "OtherMarketInformation_r3".toList = some
        [⟨"iop/TP_export/OtherMarketInformation/SomethingNew_r4/2026_04.csv".toList, "h".toList, 9,
          "OtherMarketInformation".toList, "OtherMarketInformation_r3".toList⟩] := by decide
  obtain ⟨folder, hfolder, hv⟩ := hsound.vetted _ _ hfiles _ List.mem_cons_self
  have hname : folder = "SomethingNew_r4".toList := by
    have : folderSegment
        "iop/TP_export/OtherMarketInformation/SomethingNew_r4/2026_04.csv".toList =
          some "SomethingNew_r4".toList := by decide
    rw [this, Option.some.injEq] at hfolder
    exact hfolder.symm
  have hpre : "OtherMarketInformation_r3".toList <+: "SomethingNew_r4".toList := by
    rcases hv with h | ⟨digits, -, -, h⟩
    · exact ⟨[], by rw [List.append_nil, ← hname, h]⟩
    · exact ⟨'.' :: digits, by rw [← hname, h]⟩
  exact absurd hpre (by decide)

end EntsoePipeline
