import EntsoePipeline.Py.Str
import EntsoePipeline.Py.Dict

set_option relaxedAutoImplicit false
set_option autoImplicit false

/-!
# The folder classifier

The classification rules of the repository (`entsoe_domains_classifier.yml` and
`entsoe_legacy_classifier.yml` as `ClassifierConfig` holds them) and the assignment of a remote
folder name to its domain.

## Main definitions

* `EntsoePipeline.ClassifierConfig` — the domain groups in file order, the fallback domain and
  the legacy archive rules.
* `EntsoePipeline.ClassifierConfig.ofYaml` — the configuration the loader builds.
* `EntsoePipeline.classifyFolder` — the domain of a folder name.

## Main results

* `EntsoePipeline.classifyFolder_eq_fallback` — a folder that no contract name prefixes is
  parked in the fallback domain.
* `EntsoePipeline.classifyFolder_mem` — every other folder gets a configured domain.
-/

namespace EntsoePipeline

open Py

/-- A publication of a domain group. -/
structure ClassifierItem where
  /-- The contract name: the remote folder name with its revision suffix. -/
  fmsName : Str
  deriving DecidableEq

/-- The publications of one domain, by their key. -/
abbrev DomainGroup := Dict Str ClassifierItem

/-- A rule that maps legacy folders to an archive. -/
structure LegacyRule where
  /-- The archive the folders belong to. -/
  archive : Str
  /-- The texts one of which a folder name of the archive contains. -/
  patterns : List Str
  deriving DecidableEq

/-- The classification rules. -/
structure ClassifierConfig where
  /-- The domains in their canonical order. -/
  domainOrder : List Str
  /-- The domain of the folders that no rule matches. -/
  fallbackDomain : Str
  /-- The domain groups, in file order. -/
  domains : Dict Str DomainGroup
  /-- The rules of the legacy archives, in file order. -/
  legacyRules : List LegacyRule

namespace ClassifierConfig

/-- The configuration the loader builds from the two files. -/
def ofYaml (domains : Dict Str DomainGroup) (legacyRules : List LegacyRule) :
    ClassifierConfig where
  domainOrder := domains.keys
  fallbackDomain := "OtherMarketInformation".toList
  domains := domains
  legacyRules := legacyRules

/-- `n` is the contract name of some publication. -/
def IsContract (config : ClassifierConfig) (n : Str) : Prop :=
  ∃ items ∈ config.domains.values, ∃ item ∈ items.values, item.fmsName = n

end ClassifierConfig

/-- Assign a folder name to its domain: the first domain with a publication whose contract name
is a prefix of the folder name, up to letter case. -/
def classifyFolder (cm : CaseMap) (config : ClassifierConfig) (folderName : Str) : Str :=
  let matchesDomain (items : DomainGroup) : Bool :=
    items.values.any fun item => startsWith (cm.lower folderName) (cm.lower item.fmsName)
  match config.domains.items.find? fun group => matchesDomain group.2 with
  | some (domain, _) => domain
  | none => config.fallbackDomain

/-- A folder that no contract name prefixes is parked in the fallback domain. -/
lemma classifyFolder_eq_fallback {cm : CaseMap} {config : ClassifierConfig} {folderName : Str}
    (h : ∀ n, config.IsContract n → ¬ cm.lower n <+: cm.lower folderName) :
    classifyFolder cm config folderName = config.fallbackDomain := by
  have hnone : config.domains.items.find? (fun group => group.2.values.any fun item =>
      startsWith (cm.lower folderName) (cm.lower item.fmsName)) = none := by
    rw [List.find?_eq_none]
    rintro ⟨domain, items⟩ hmem hany
    obtain ⟨item, hitem, hpre⟩ := List.any_eq_true.mp hany
    have hgroup : items ∈ config.domains.values := List.mem_map.mpr ⟨_, hmem, rfl⟩
    exact h item.fmsName ⟨items, hgroup, item, hitem, rfl⟩ (startsWith_iff.mp hpre)
  simp only [classifyFolder, hnone]

/-- A folder is assigned to a configured domain or to the fallback domain. -/
lemma classifyFolder_mem (cm : CaseMap) (config : ClassifierConfig) (folderName : Str) :
    classifyFolder cm config folderName ∈ config.domains.keys ∨
      classifyFolder cm config folderName = config.fallbackDomain := by
  unfold classifyFolder
  dsimp only
  split
  · rename_i domain items hfind
    exact Or.inl (List.mem_map.mpr ⟨(domain, items), List.mem_of_find?_eq_some hfind, rfl⟩)
  · exact Or.inr rfl

end EntsoePipeline
