import EntsoePipeline.Delta.Scope
import EntsoePipeline.Landing.Gateway

set_option relaxedAutoImplicit false
set_option autoImplicit false

/-!
# Which classified files the gateway admits

The classifier assigns a folder of the active root to the first domain with a contract name that
prefixes it up to letter case, and the legacy rules assign a folder of the legacy root to an
archive. The domain or the archive becomes the third segment of the keys of the folder's files. The
gateway looks a contract up in the group of that segment, letter for letter.

## Main definitions

* `EntsoePipeline.Covered` — the keys of the files whose folders the classifier has assigned.
* `EntsoePipeline.GatewayComplete` — every such file is ingested, or its contract is bypassed.
* `EntsoePipeline.KeyMatched` — the condition on a key.

## Main results

* `EntsoePipeline.gatewayComplete_iff` — when the gateway is complete.
* `EntsoePipeline.keyMatched_active`, `EntsoePipeline.not_keyMatched_legacy` — the condition for
  folders of the two roots.
* `EntsoePipeline.not_gatewayComplete_case` — a folder in another letter case is never ingested.
-/

namespace EntsoePipeline

open Py

/-! ## The files that the classifier has assigned -/

/-- The key of a landed file: the landing path of the folder's row and the file name. -/
def landedKey (cm : CaseMap) (env root domain folder name : Str) : Option Str :=
  (layoutFolder cm env domain (folderPath root folder)).map fun row =>
    strip '/' row.1 ++ '/' :: name

section Coverage

variable (cm : CaseMap) (config : ClassifierConfig) (overview : Overview)

/-- The keys of the files in folders that the classifier has assigned to a publication or that a
legacy rule has assigned to an archive. -/
inductive Covered : Str → Prop
  /-- A folder of the active root with the prefix of a contract, up to letter case. -/
  | active {env folder name n key : Str} (hn : config.IsContract n)
      (hnamed : cm.lower n <+: cm.lower folder)
      (hkey : landedKey cm env "TP_export".toList (classifyFolder cm config folder) folder name =
        some key) : Covered key
  /-- A folder of an archive, where the folder or the file has the prefix of a contract. -/
  | legacy {env archive folder name n key : Str} {folders : List Str} (hn : config.IsContract n)
      (hfolders : getLegacyArchiveFolders cm overview config env archive = .ok folders)
      (hmem : folder ∈ folders) (hnamed : n <+: folder ∨ n <+: name)
      (hkey : landedKey cm env "TP_Legacy_Publications".toList archive folder name = some key) :
      Covered key

/-- The third and the fourth segment of a key, if it has as many. -/
def keySegments (s3Key : Str) : Option (Str × Str) :=
  match split '/' (strip '/' s3Key) with
  | _ :: _ :: d :: folder :: _ => some (d, folder)
  | _ => none

/-- The contract of the key is the bypassed one. -/
def Bypassed (s3Key : Str) : Prop :=
  ∃ d folder, keySegments s3Key = some (d, folder) ∧
    resolveFmsName config d folder = some giantBypassDomainContract

/-- Every file whose folder the classifier has assigned is ingested, or its contract is the bypassed
one. -/
def GatewayComplete (dbRows : List PendingRow) : Prop :=
  ∀ row ∈ dbRows, Covered cm config overview row.s3Key →
    (∃ n files, (getIncrementalFilesToIngest config dbRows).get? n = some files ∧
      ∃ file ∈ files, file.s3Key = row.s3Key) ∨ Bypassed config row.s3Key

/-- The group `d` has a publication named exactly like the folder, or the first of its publications
whose name prefixes the folder has a name at all, or `d` is itself the key of a publication, the
first of which has a name. Letter case matters throughout. -/
def Matched (d folder : Str) : Prop :=
  (folder ≠ [] ∧ ∃ items, config.domains.get? d = some items ∧
    ((∃ item ∈ items.values, item.fmsName = folder) ∨
      ∃ item, items.values.find? (fun item => startsWith folder item.fmsName) = some item ∧
        item.fmsName ≠ [])) ∨
  ∃ item, (config.domains.values.findSome? fun group => group.get? d) = some item ∧
    item.fmsName ≠ []

/-- The third segment of the key names a group, or a publication, that matches. -/
def KeyMatched (s3Key : Str) : Prop :=
  ∃ d folder, keySegments s3Key = some (d, folder) ∧ Matched config d folder

end Coverage

/-! ## When the gateway is complete -/

section Complete

variable {cm : CaseMap} {config : ClassifierConfig} {overview : Overview}

/-- The domain and the folder of a key are its third and fourth segment. -/
lemma keySegments_eq_some_iff {s3Key d folder : Str} :
    keySegments s3Key = some (d, folder) ↔
      ∃ a b rest, split '/' (strip '/' s3Key) = a :: b :: d :: folder :: rest := by
  unfold keySegments
  constructor
  · intro h
    split at h
    · rename_i a b d' folder' rest hsplit
      cases h
      exact ⟨a, b, rest, hsplit⟩
    · cases h
  · rintro ⟨a, b, rest, hsplit⟩
    rw [hsplit]

/-- Some rule of the gateway gives a contract with a name exactly when the segments match. -/
lemma exists_resolves_iff {d folder : Str} :
    (∃ n, n ≠ [] ∧ Resolves config d folder n) ↔ Matched config d folder := by
  have hmatched : Matched config d folder ↔
      (HasExact config d folder ∨ ∃ n, n ≠ [] ∧ FirstPrefix config d folder n) ∨
        ∃ n, n ≠ [] ∧ FirstKeyed config d n := by
    unfold Matched HasExact FirstPrefix FirstKeyed
    grind
  rw [hmatched]
  constructor
  · rintro ⟨n, hn, hres⟩
    cases hres with
    | exact h => exact Or.inl (Or.inl h)
    | prefixed hexact h _ => exact Or.inl (Or.inr ⟨n, hn, h⟩)
    | flat hexact hfirst h _ => exact Or.inr ⟨n, hn, h⟩
  · intro h
    by_cases hexact : HasExact config d folder
    · exact ⟨folder, hexact.1, .exact hexact⟩
    · by_cases hfirst : ∃ n, n ≠ [] ∧ FirstPrefix config d folder n
      · obtain ⟨n, hn, hpre⟩ := hfirst
        exact ⟨n, hn, .prefixed hexact hpre hn⟩
      · obtain ⟨n, hn, hflat⟩ := h.resolve_left fun h => h.elim hexact hfirst
        refine ⟨n, hn, .flat hexact (fun m hm => ?_) hflat hn⟩
        by_contra hne
        exact hfirst ⟨m, hne, hm⟩

/-- A row is ingested, or its contract is bypassed, exactly when its key matches. -/
lemma keyMatched_iff {row : PendingRow} :
    KeyMatched config row.s3Key ↔
      (∃ file, gateRow config row = some file) ∨ Bypassed config row.s3Key := by
  unfold KeyMatched Bypassed
  simp only [← exists_resolves_iff, keySegments_eq_some_iff]
  constructor
  · rintro ⟨d, folder, ⟨a, b, rest, hsplit⟩, n, hn, hres⟩
    by_cases hgiant : n = giantBypassDomainContract
    · subst hgiant
      exact Or.inr ⟨d, folder, ⟨a, b, rest, hsplit⟩, (resolveFmsName_iff hn).mpr hres⟩
    · exact Or.inl ⟨_, gateRow_eq_some_iff.mpr
        ⟨a, b, d, folder, rest, n, hsplit, hres, ⟨hn, hgiant⟩, rfl⟩⟩
  · rintro (⟨file, hfile⟩ | ⟨d, folder, hsplit, hres⟩)
    · obtain ⟨a, b, d, folder, rest, n, hsplit, hres, hadm, -⟩ := gateRow_eq_some_iff.mp hfile
      exact ⟨d, folder, ⟨a, b, rest, hsplit⟩, n, hadm.1, hres⟩
    · have hn : giantBypassDomainContract ≠ [] := by decide
      exact ⟨d, folder, hsplit, _, hn, (resolveFmsName_iff hn).mp hres⟩

/-- **When the gateway is complete.** Every file whose folder the classifier has assigned is
ingested, or bypassed, if and only if the key of each of them matches.

**Proof sketch.** The gateway decides by the key alone (`keyMatched_iff`), and the loop keeps every
row it admits. -/
theorem gatewayComplete_iff (cm : CaseMap) (config : ClassifierConfig) (overview : Overview)
    (dbRows : List PendingRow) :
    GatewayComplete cm config overview dbRows ↔
      ∀ row ∈ dbRows, Covered cm config overview row.s3Key → KeyMatched config row.s3Key := by
  refine forall₃_congr fun row hrow _ => ?_
  rw [keyMatched_iff]
  refine or_congr ⟨?_, ?_⟩ Iff.rfl
  · rintro ⟨n, files, hfiles, file, hfile, hkey⟩
    obtain ⟨⟨row', -, hgate⟩, -⟩ := mem_getIncrementalFilesToIngest.mp ⟨files, hfiles, hfile⟩
    -- the file stems from a row with the same key, and the decision depends on the key only
    obtain ⟨a, b, d, folder, rest, n', hsplit, hres, hadm, rfl⟩ := gateRow_eq_some_iff.mp hgate
    rw [show row'.s3Key = row.s3Key from hkey] at hsplit
    exact ⟨_, gateRow_eq_some_iff.mpr ⟨a, b, d, folder, rest, n', hsplit, hres, hadm, rfl⟩⟩
  · rintro ⟨file, hgate⟩
    obtain ⟨files, hfiles, hfile⟩ := mem_getIncrementalFilesToIngest.mpr ⟨⟨row, hrow, hgate⟩, rfl⟩
    obtain ⟨a, b, d, folder, rest, n, -, -, -, rfl⟩ := gateRow_eq_some_iff.mp hgate
    exact ⟨_, files, hfiles, _, hfile, rfl⟩

/-! ### The two roots -/

/-- The third and the fourth segment of a landed key are the domain, or the archive, and the
folder. -/
lemma keySegments_landedKey {env : Str} {envSeg root domain folder name : Segment '/'} {key : Str}
    (henv : cm.lower env = envSeg.text)
    (hkey : landedKey cm env root.text domain.text folder.text name.text = some key) :
    keySegments key = some (domain.text, folder.text) := by
  have hjoin : join ['/'] [envSeg.text, root.text, domain.text, folder.text] ++ '/' :: name.text =
      renderPath [envSeg, root, domain, folder, name] :=
    (@join_concat '/' [envSeg.text, root.text, domain.text, folder.text] (by simp) name.text).symm
  have hstrip : strip '/' (join ['/'] [envSeg.text, root.text, domain.text, folder.text]) =
      join ['/'] [envSeg.text, root.text, domain.text, folder.text] :=
    @strip_renderPath _ [envSeg, root, domain, folder]
  rw [landedKey, layoutFolder_folderPath, Option.map_some, Option.some.injEq, henv] at hkey
  dsimp only at hkey
  rw [hstrip, hjoin] at hkey
  subst hkey
  rw [keySegments, strip_renderPath, split_renderPath (by simp)]
  rfl

/-- A folder matches when a publication of its own domain prefixes it letter for letter and every
publication of the domain has a name. -/
lemma matched_of_prefix {d folder : Str} {items : DomainGroup}
    (hitems : config.domains.get? d = some items)
    (hnames : ∀ item ∈ items.values, item.fmsName ≠ [])
    {item : ClassifierItem} (hitem : item ∈ items.values) (hnamed : item.fmsName <+: folder) :
    Matched config d folder := by
  have hfolder : folder ≠ [] := by
    rintro rfl
    exact hnames item hitem (List.prefix_nil.mp hnamed)
  obtain ⟨first, hfirst⟩ : ∃ first,
      items.values.find? (fun item => startsWith folder item.fmsName) = some first := by
    rw [← Option.isSome_iff_exists, List.find?_isSome]
    exact ⟨item, hitem, startsWith_iff.mpr hnamed⟩
  exact Or.inl ⟨hfolder, items, hitems,
    Or.inr ⟨first, hfirst, hnames first (List.mem_of_find?_eq_some hfirst)⟩⟩

/-- A segment that is neither a domain nor the key of a publication matches no folder. -/
lemma not_matched_of_unknown {d : Str} (hdomain : d ∉ config.domains.keys)
    (hpublication : ∀ group ∈ config.domains.values, d ∉ group.keys) (folder : Str) :
    ¬ Matched config d folder := by
  rintro (⟨-, items, hitems, -⟩ | ⟨item, hitem, -⟩)
  · exact hdomain (Dict.mem_keys_iff.mpr ⟨items, hitems⟩)
  · obtain ⟨group, hgroup, hget⟩ := List.exists_of_findSome?_eq_some hitem
    exact hpublication group hgroup (Dict.mem_keys_iff.mpr ⟨item, hget⟩)

/-- **Folders of the active root.** A file of a folder is admitted or bypassed when a publication of
the folder's domain has a letter-for-letter prefix of it as its name. -/
lemma keyMatched_active {env : Str} {envSeg root domain folder name : Segment '/'} {key : Str}
    (henv : cm.lower env = envSeg.text)
    (hdomain : classifyFolder cm config folder.text = domain.text)
    (hkey : landedKey cm env root.text (classifyFolder cm config folder.text)
      folder.text name.text = some key)
    {items : DomainGroup} (hitems : config.domains.get? domain.text = some items)
    (hnames : ∀ item ∈ items.values, item.fmsName ≠ []) {item : ClassifierItem}
    (hitem : item ∈ items.values) (hnamed : item.fmsName <+: folder.text) :
    KeyMatched config key := by
  rw [hdomain] at hkey
  exact ⟨domain.text, folder.text, keySegments_landedKey henv hkey,
    matched_of_prefix hitems hnames hitem hnamed⟩

/-- **Folders of the legacy root.** No file of an archive is admitted or bypassed when the archive
is neither a domain nor the key of a publication. -/
lemma not_keyMatched_legacy {env : Str} {envSeg archive folder name : Segment '/'} {key : Str}
    (henv : cm.lower env = envSeg.text)
    (hkey : landedKey cm env "TP_Legacy_Publications".toList archive.text folder.text name.text =
      some key)
    (hdomain : archive.text ∉ config.domains.keys)
    (hpublication : ∀ group ∈ config.domains.values, archive.text ∉ group.keys) :
    ¬ KeyMatched config key := by
  rintro ⟨d, folder', hsegments, hmatched⟩
  rw [@keySegments_landedKey cm env envSeg ⟨"TP_Legacy_Publications".toList, by decide, by decide⟩
    archive folder name key henv hkey, Option.some.injEq, Prod.mk.injEq] at hsegments
  obtain ⟨rfl, rfl⟩ := hsegments
  exact not_matched_of_unknown hdomain hpublication folder.text hmatched

end Complete

/-! ### A folder in another letter case -/

/-- A file of a folder of the domain `Load` that the server spells in lower case. -/
def lowerCaseRow : PendingRow :=
  ⟨"iop/TP_export/Load/actualtotalload_6.1.a_r3/2026_04.csv".toList, "h".toList, 9⟩

/-- The classifier assigns the folder to its publication, and the gateway does not admit its
file. -/
theorem not_gatewayComplete_case :
    classifyFolder .ascii shippedClassifier "actualtotalload_6.1.a_r3".toList = "Load".toList ∧
      (getIncrementalFilesToIngest shippedClassifier [lowerCaseRow]).items = [] ∧
      ¬ GatewayComplete .ascii shippedClassifier ∅ [lowerCaseRow] := by
  have hcovered : Covered .ascii shippedClassifier ∅ lowerCaseRow.s3Key := by
    refine @Covered.active _ _ _ "IOP".toList "actualtotalload_6.1.a_r3".toList
      "2026_04.csv".toList "ActualTotalLoad_6.1.A_r3".toList _ ?_ (by decide) (by decide)
    exact ⟨_, List.mem_cons_self, _, List.mem_cons_self, rfl⟩
  have hfiles : (getIncrementalFilesToIngest shippedClassifier [lowerCaseRow]).items = [] := by
    decide
  refine ⟨by decide, hfiles, fun hcomplete => ?_⟩
  rcases hcomplete lowerCaseRow (List.mem_singleton_self _) hcovered with
    ⟨n, files, hget, -⟩ | ⟨d, folder, hsegments, hres⟩
  · rw [← Dict.mem_items_iff, hfiles] at hget
    cases hget
  · have hnone : keySegments lowerCaseRow.s3Key =
        some ("Load".toList, "actualtotalload_6.1.a_r3".toList) := by decide
    rw [hnone, Option.some.injEq, Prod.mk.injEq] at hsegments
    obtain ⟨rfl, rfl⟩ := hsegments
    exact absurd hres (by decide)

end EntsoePipeline
