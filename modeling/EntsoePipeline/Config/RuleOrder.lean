import EntsoePipeline.Delta.Scope
import EntsoePipeline.Landing.Gateway
import EntsoePipeline.Lib.FirstMatch

set_option relaxedAutoImplicit false
set_option autoImplicit false

/-!
# The order of the classification rules

Three loops take the first rule that matches a folder: the classifier and the drift detection
compare the names in lower case, and the gateway compares them as they are, inside one domain. When
no contract name in lower case is a prefix of another one, at most one rule matches, and the
classifier and the drift detection do not depend on the order of the domains and of their
publications. For the gateway the names must not be prefixes of one another as they are, and a name
that is a prefix of another one may cease to be one in lower case: a capital sigma at the end of a
text becomes another letter than one inside it.

## Main definitions

* `EntsoePipeline.ClassifierConfig.rules` — the publications in the order of the loops.
* `EntsoePipeline.matchedFmsName`, `EntsoePipeline.detectDrift` — the drift detection.
* `EntsoePipeline.domainPrefixMatch` — the prefix rule of the gateway inside a domain.
* `EntsoePipeline.ClassifierConfig.Reorders` — the same rules in another order.

## Main results

* `EntsoePipeline.classifyFolder_eq_find?`, `EntsoePipeline.matchedFmsName_eq_find?` — the loops
  look for the first rule that matches.
* `EntsoePipeline.ruleOrder_irrelevant` — none of the three loops depends on the order.

## Implementation notes

The publications that are reported as unseen are listed in the order of the rules, so that their
list is the same up to its order.
-/

namespace EntsoePipeline

open Py FirstMatch

/-! ## The code -/

/-- A publication with its domain and its key. -/
structure ClassifierRule where
  /-- The domain. -/
  domain : Str
  /-- The key of the publication. -/
  key : Str
  /-- The contract name. -/
  fmsName : Str
  deriving DecidableEq

/-- The rules of a domain group. -/
def groupRules (group : Str × DomainGroup) : List ClassifierRule :=
  group.2.items.map fun item => ⟨group.1, item.1, item.2.fmsName⟩

/-- The publications in the order of the loops. -/
def ClassifierConfig.rules (config : ClassifierConfig) : List ClassifierRule :=
  config.domains.items.flatMap groupRules

/-- The contract of the first publication, in the first domain that has one, whose name is a prefix
of the folder name up to letter case. -/
def matchedFmsName (cm : CaseMap) (config : ClassifierConfig) (folder : Str) : Option Str :=
  config.domains.items.findSome? fun group =>
    (group.2.values.find? fun item => startsWith (cm.lower folder) (cm.lower item.fmsName)).map
      ClassifierItem.fmsName

/-- The reports of the drift detection. -/
structure DriftReport where
  /-- The folders without a publication. -/
  undocumentedFolders : List Str
  /-- The publications without a folder. -/
  unseenPublications : List ClassifierRule

/-- The drift detection over the active folders of both platforms. -/
def detectDrift (cm : CaseMap) (config : ClassifierConfig) (allActiveFolders : List Str) :
    DriftReport :=
  let folders := sortedSet allActiveFolders
  let matchedFmsNames := folders.filterMap (matchedFmsName cm config)
  ⟨folders.filter fun folder => matchedFmsName cm config folder = none,
    config.rules.filter fun rule => rule.fmsName ∉ matchedFmsNames⟩

/-- The prefix rule of the gateway inside a domain. -/
def domainPrefixMatch (config : ClassifierConfig) (domain itemCandidate : Str) : Option Str :=
  (config.domains.get? domain).bind fun items => prefixMatch items itemCandidate

/-! ## The loops -/

/-- The name of the rule in lower case. -/
def ClassifierRule.lowerName (cm : CaseMap) (rule : ClassifierRule) : Str := cm.lower rule.fmsName

section Loops

variable (cm : CaseMap) (config : ClassifierConfig) (folder : Str)

/-- The first rule that matches a folder up to letter case. -/
def firstRule : Option ClassifierRule :=
  config.rules.find? fun rule => (rule.lowerName cm).isPrefixOf (cm.lower folder)

/-- The drift detection looks for the first rule that matches. -/
lemma matchedFmsName_eq_find? :
    matchedFmsName cm config folder = (firstRule cm config folder).map ClassifierRule.fmsName := by
  unfold matchedFmsName firstRule ClassifierConfig.rules
  rw [List.find?_flatMap, List.map_findSome?]
  congr 1
  funext group
  rw [Function.comp_apply, groupRules, Dict.values, List.find?_map, List.find?_map, Option.map_map,
    Option.map_map]
  rfl

/-- A domain matches when one of its rules does, and the rule is then one of the domain. -/
lemma find?_groupRules (group : Str × DomainGroup) :
    ((groupRules group).find? fun rule => (rule.lowerName cm).isPrefixOf (cm.lower folder)).map
        ClassifierRule.domain =
      if group.2.values.any fun item => startsWith (cm.lower folder) (cm.lower item.fmsName)
        then some group.1 else none := by
  have hany : (group.2.values.any fun item => startsWith (cm.lower folder)
      (cm.lower item.fmsName)) =
      group.2.items.any fun item => startsWith (cm.lower folder) (cm.lower item.2.fmsName) := by
    rw [Dict.values, List.any_map]
    rfl
  rw [groupRules, List.find?_map, Option.map_map, hany, ← List.isSome_find?]
  cases hfind : group.2.items.find? fun item =>
      startsWith (cm.lower folder) (cm.lower item.2.fmsName) with
  | none => exact congrArg _ hfind
  | some item => exact congrArg _ hfind

/-- The classifier looks for the domain of the first rule that matches. -/
lemma classifyFolder_eq_find? : classifyFolder cm config folder =
    ((firstRule cm config folder).map ClassifierRule.domain).getD config.fallbackDomain := by
  have hgroups : ∀ groups : List (Str × DomainGroup),
      (groups.find? fun group => group.2.values.any fun item =>
        startsWith (cm.lower folder) (cm.lower item.fmsName)).map Prod.fst =
      ((groups.flatMap groupRules).find? fun rule =>
        (rule.lowerName cm).isPrefixOf (cm.lower folder)).map ClassifierRule.domain := by
    intro groups
    rw [List.find?_flatMap, List.map_findSome?, List.find?_eq_findSome?_guard, List.map_findSome?]
    congr 1
    funext group
    rw [Function.comp_apply, Function.comp_apply, find?_groupRules, Option.guard]
    split_ifs
    · rfl
    · rfl
  unfold classifyFolder firstRule ClassifierConfig.rules
  rw [← hgroups]
  dsimp only
  cases config.domains.items.find? _ with
  | none => rfl
  | some group => rfl

end Loops

/-! ## Reorderings -/

namespace ClassifierConfig

/-- The domains and the publications of each domain are the same, in another order. -/
structure Reorders (config config' : ClassifierConfig) : Prop where
  /-- The domains. -/
  domains : ∃ groups, config.domains.items.Perm groups ∧
    List.Forall₂ (fun group group' => group.1 = group'.1 ∧ group.2.items.Perm group'.2.items) groups
      config'.domains.items
  /-- The fallback domain. -/
  fallback : config'.fallbackDomain = config.fallbackDomain

/-- No contract name in lower case is a prefix of another one. -/
def LowerPrefixFree (cm : CaseMap) (config : ClassifierConfig) : Prop :=
  PrefixFree (ClassifierRule.lowerName cm) config.rules

instance (cm : CaseMap) (config : ClassifierConfig) : Decidable (config.LowerPrefixFree cm) :=
  inferInstanceAs (Decidable (PrefixFree _ _))

/-- A contract name of the domain that is a prefix of another one is so in lower case. -/
def KeepsPrefixes (cm : CaseMap) (config : ClassifierConfig) (domain : Str) : Prop :=
  ∀ a ∈ config.rules, ∀ b ∈ config.rules, a.domain = domain → b.domain = domain →
    a.fmsName <+: b.fmsName → cm.lower a.fmsName <+: cm.lower b.fmsName

section Reorderings

variable {config config' : ClassifierConfig}

/-- Domains with the same rules have the same rules together. -/
lemma perm_flatMap_of_forall₂ {γ : Type*} {R : γ → γ → Prop} {f : γ → List ClassifierRule}
    {groups groups' : List γ} (h : List.Forall₂ R groups groups')
    (hf : ∀ group group', R group group' → (f group).Perm (f group')) :
    (groups.flatMap f).Perm (groups'.flatMap f) := by
  induction h with
  | nil => exact List.Perm.nil
  | cons hgroup _ ih =>
    rw [List.flatMap_cons, List.flatMap_cons]
    exact (hf _ _ hgroup).append ih

/-- The rules of a reordering are the same, in another order. -/
lemma Reorders.perm_rules (h : config.Reorders config') : config.rules.Perm config'.rules := by
  obtain ⟨groups, hperm, hgroups⟩ := h.domains
  refine (hperm.flatMap_right groupRules).trans (perm_flatMap_of_forall₂ hgroups ?_)
  rintro ⟨domain, items⟩ ⟨domain', items'⟩ ⟨hdomain, hitems⟩
  cases hdomain
  exact hitems.map _

/-- A reordering has the same domains. -/
lemma Reorders.perm_keys (h : config.Reorders config') :
    config.domains.keys.Perm config'.domains.keys := by
  obtain ⟨groups, hperm, hgroups⟩ := h.domains
  have hkeys : groups.map Prod.fst = config'.domains.keys := by
    rw [← List.forall₂_eq_eq_eq, Dict.keys, List.forall₂_map_left_iff, List.forall₂_map_right_iff]
    exact hgroups.imp fun _ _ hgroup => hgroup.1
  exact hkeys ▸ hperm.map Prod.fst

/-- A member of one list has its counterpart in the other. -/
lemma exists_mem_of_forall₂ {γ : Type*} {R : γ → γ → Prop} {groups groups' : List γ}
    (h : List.Forall₂ R groups groups') {group : γ} (hmem : group ∈ groups) :
    ∃ group' ∈ groups', R group group' := by
  induction h with
  | nil => exact absurd hmem List.not_mem_nil
  | cons hgroup _ ih =>
    rcases List.mem_cons.mp hmem with rfl | hmem
    · exact ⟨_, List.mem_cons_self, hgroup⟩
    · obtain ⟨group', hmem', hrel⟩ := ih hmem
      exact ⟨group', List.mem_cons_of_mem _ hmem', hrel⟩

/-- The domain groups of a reordering have the same publications, in another order. -/
lemma Reorders.get?_domains (h : config.Reorders config') {domain : Str} {items : DomainGroup}
    (hget : config.domains.get? domain = some items) :
    ∃ items', config'.domains.get? domain = some items' ∧ items.items.Perm items'.items := by
  obtain ⟨groups, hperm, hgroups⟩ := h.domains
  have hmem : (domain, items) ∈ groups := hperm.subset (Dict.mem_items_iff.mpr hget)
  obtain ⟨⟨domain', items'⟩, hmem', hdomain, hitems⟩ := exists_mem_of_forall₂ hgroups hmem
  cases hdomain
  exact ⟨items', Dict.mem_items_iff.mp hmem', hitems⟩

/-- The names of a domain group are apart as they are when they are so in lower case. -/
lemma prefixFree_values {cm : CaseMap} {domain : Str} {items : DomainGroup}
    (hfree : config.LowerPrefixFree cm) (hkeeps : config.KeepsPrefixes cm domain)
    (hget : config.domains.get? domain = some items) :
    PrefixFree ClassifierItem.fmsName items.values := by
  have hsub : (groupRules (domain, items)).Sublist config.rules := by
    rw [rules, List.flatMap_def]
    exact List.sublist_flatten_of_mem (List.mem_map_of_mem (Dict.mem_items_iff.mpr hget))
  have hdomain : ∀ rule ∈ groupRules (domain, items), rule.domain = domain := by
    intro rule hrule
    obtain ⟨item, -, rfl⟩ := List.mem_map.mp hrule
    rfl
  have hgroup : PrefixFree ClassifierRule.fmsName (groupRules (domain, items)) :=
    (hfree.sublist hsub).congr fun a ha b hb =>
      hkeeps a (hsub.subset ha) b (hsub.subset hb) (hdomain a ha) (hdomain b hb)
  unfold PrefixFree groupRules at hgroup
  rw [List.pairwise_map] at hgroup
  exact List.pairwise_map.mpr hgroup

/-- Names in ASCII keep their prefixes in lower case. -/
lemma keepsPrefixes_of_isAscii {cm : CaseMap} {domain : Str}
    (hascii : ∀ rule ∈ config.rules, rule.domain = domain → IsAscii rule.fmsName) :
    config.KeepsPrefixes cm domain := by
  intro a ha b hb hadomain hbdomain hpre
  rw [cm.lower_ascii _ (hascii a ha hadomain), cm.lower_ascii _ (hascii b hb hbdomain)]
  exact hpre.map _

end Reorderings

end ClassifierConfig

/-! ## The three loops -/

section Order

variable {cm : CaseMap} {config config' : ClassifierConfig}

/-- The first rule that matches a folder is the same in every order. -/
lemma firstRule_reorders (hfree : config.LowerPrefixFree cm) (horder : config.Reorders config')
    (folder : Str) : firstRule cm config' folder = firstRule cm config folder :=
  (hfree.find?_eq_of_perm horder.perm_rules _).symm

/-- The drift detection matches the same rules in every order. -/
lemma matchedFmsName_reorders (hfree : config.LowerPrefixFree cm)
    (horder : config.Reorders config') (folder : Str) :
    matchedFmsName cm config' folder = matchedFmsName cm config folder := by
  rw [matchedFmsName_eq_find?, matchedFmsName_eq_find?, firstRule_reorders hfree horder]

/-- The prefix rule of the gateway gives the same name in every order. -/
lemma domainPrefixMatch_reorders {domain : Str} (hfree : config.LowerPrefixFree cm)
    (horder : config.Reorders config') (hkeeps : config.KeepsPrefixes cm domain)
    (itemCandidate : Str) :
    domainPrefixMatch config' domain itemCandidate =
      domainPrefixMatch config domain itemCandidate := by
  unfold domainPrefixMatch
  cases hget : config.domains.get? domain with
  | none =>
    have hget' : config'.domains.get? domain = none := by
      by_contra hsome
      obtain ⟨items', hitems'⟩ := Option.ne_none_iff_exists'.mp hsome
      have hmem := horder.perm_keys.symm.subset (Dict.mem_keys_iff.mpr ⟨items', hitems'⟩)
      obtain ⟨items, hitems⟩ := Dict.mem_keys_iff.mp hmem
      rw [hget] at hitems
      cases hitems
    rw [hget']
  | some items =>
    obtain ⟨items', hget', hperm⟩ := horder.get?_domains hget
    have hfirst := (ClassifierConfig.prefixFree_values hfree hkeeps hget).find?_eq_of_perm
      (hperm.map Prod.snd) itemCandidate
    rw [hget', Option.bind_some, Option.bind_some]
    exact congrArg (Option.map ClassifierItem.fmsName) hfirst.symm

/-- **The order of the rules.** When no contract name in lower case is a prefix of another one, at
most one rule matches a folder, and neither the classifier nor the drift detection depends on the
order of the domains and of their publications. The prefix rule of the gateway does not depend on it
in a domain whose names keep their prefixes in lower case.

**Proof sketch.** The loops look for the first rule that matches. Two rules that match the same
folder have names one of which is a prefix of the other. -/
theorem ruleOrder_irrelevant (hfree : config.LowerPrefixFree cm)
    (horder : config.Reorders config') (folder : Str) :
    (config.rules.filter fun rule => startsWith (cm.lower folder) (cm.lower rule.fmsName)).length ≤
      1 ∧ classifyFolder cm config' folder = classifyFolder cm config folder ∧
      matchedFmsName cm config' folder = matchedFmsName cm config folder ∧
      (∀ allActiveFolders,
        (detectDrift cm config' allActiveFolders).undocumentedFolders =
            (detectDrift cm config allActiveFolders).undocumentedFolders ∧
          (detectDrift cm config' allActiveFolders).unseenPublications.Perm
            (detectDrift cm config allActiveFolders).unseenPublications) ∧
      ∀ domain, config.KeepsPrefixes cm domain →
        domainPrefixMatch config' domain folder = domainPrefixMatch config domain folder := by
  have hmatched : matchedFmsName cm config' = matchedFmsName cm config :=
    funext (matchedFmsName_reorders hfree horder)
  refine ⟨hfree.length_filter_le_one _, ?_, by rw [hmatched], fun allActiveFolders => ?_,
    fun domain hkeeps => domainPrefixMatch_reorders hfree horder hkeeps folder⟩
  · rw [classifyFolder_eq_find?, classifyFolder_eq_find?, firstRule_reorders hfree horder,
      horder.fallback]
  · unfold detectDrift
    rw [hmatched]
    exact ⟨rfl, (horder.perm_rules.filter _).symm⟩

end Order

/-! ## Two orders of one file -/

/-- A classifier file with one domain and two publications, in one of the two orders. -/
def twoRules (first second : Str) : ClassifierConfig :=
  .ofYaml (Dict.ofList [("Load".toList,
    Dict.ofList [(first, ⟨first⟩), (second, ⟨second⟩)])]) []

/-- Two rules in both orders. -/
lemma reorders_twoRules {first second : Str} (hne : first ≠ second) :
    (twoRules first second).Reorders (twoRules second first) := by
  have hitems : ∀ {a b : Str}, a ≠ b →
      (Dict.ofList [(a, (⟨a⟩ : ClassifierItem)), (b, ⟨b⟩)]).items = [(a, ⟨a⟩), (b, ⟨b⟩)] := by
    intro a b hab
    simp [Dict.ofList, Dict.setAll, Dict.set, Dict.alter, Dict.alterItems, hab]
  refine ⟨⟨_, List.Perm.refl _, List.Forall₂.cons ⟨rfl, ?_⟩ List.Forall₂.nil⟩, rfl⟩
  dsimp only
  rw [hitems hne, hitems hne.symm]
  exact List.Perm.swap _ _ _

/-- The two publications of the total load may be listed in either order. -/
theorem ruleOrder_irrelevant_load :
    classifyFolder .ascii (twoRules "DayAheadTotalLoadForecast_6.1.B_r3".toList
        "ActualTotalLoad_6.1.A_r3".toList) "ActualTotalLoad_6.1.A_r3.1".toList =
      classifyFolder .ascii (twoRules "ActualTotalLoad_6.1.A_r3".toList
        "DayAheadTotalLoadForecast_6.1.B_r3".toList) "ActualTotalLoad_6.1.A_r3.1".toList :=
  (ruleOrder_irrelevant (by decide +kernel : (twoRules "ActualTotalLoad_6.1.A_r3".toList
      "DayAheadTotalLoadForecast_6.1.B_r3".toList).LowerPrefixFree .ascii)
    (reorders_twoRules (by decide)) "ActualTotalLoad_6.1.A_r3.1".toList).2.1

/-- The lower case of a text in which a sigma that ends the text is a final one, and the other
letters beyond ASCII are left as they are. -/
def lowerFinalSigma : Str → Str
  | [] => []
  | ch :: s => (if ch = 'Σ' then if s = [] then 'ς' else 'σ' else ch.toLower) :: lowerFinalSigma s

/-- Without a capital sigma every letter is converted on its own. -/
lemma lowerFinalSigma_of_not_mem {s : Str} (h : 'Σ' ∉ s) :
    lowerFinalSigma s = s.map Char.toLower := by
  induction s with
  | nil => rfl
  | cons ch s ih =>
    rw [List.mem_cons, not_or] at h
    rw [lowerFinalSigma, if_neg (Ne.symm h.1), ih h.2, List.map_cons]

/-- A text in lower case has small letters only. -/
lemma mem_lowerFinalSigma {s : Str} : ∀ ch ∈ lowerFinalSigma s, ch.toLower = ch ∧ ch ≠ 'Σ' := by
  have hsmall : ∀ ch : Char, ch ≠ 'Σ' → ch.toLower ≠ 'Σ' := by
    intro ch hne h
    unfold Char.toLower at h
    split_ifs at h with hupper
    · have hval : ch.val + ('a'.val - 'A'.val) = 'Σ'.val := congrArg Char.val h
      rw [eq_sub_of_add_eq hval] at hupper
      exact absurd hupper.2 (by decide)
    · exact hne h
  induction s with
  | nil => exact fun ch hch => absurd hch List.not_mem_nil
  | cons ch s ih =>
    rw [lowerFinalSigma, List.forall_mem_cons]
    refine ⟨?_, ih⟩
    split_ifs with hsigma hlast
    · decide
    · decide
    · exact ⟨by simp, hsmall ch hsigma⟩

/-- An ASCII text has no capital sigma. -/
lemma sigma_not_mem_of_isAscii {s : Str} (hs : IsAscii s) : 'Σ' ∉ s := fun hmem =>
  absurd (hs 'Σ' hmem) (by decide)

/-- A converted text is not changed by another conversion. -/
lemma lowerFinalSigma_lowerFinalSigma (s : Str) :
    lowerFinalSigma (lowerFinalSigma s) = lowerFinalSigma s := by
  rw [lowerFinalSigma_of_not_mem fun hmem => (mem_lowerFinalSigma _ hmem).2 rfl]
  exact (List.map_congr_left fun ch hch => (mem_lowerFinalSigma ch hch).1).trans (List.map_id _)

/-- The conversion of ASCII letters and of the capital sigma. -/
def finalSigma : CaseMap where
  lower := lowerFinalSigma
  upper := CaseMap.ascii.upper
  digit := CaseMap.ascii.digit
  lower_ascii _ hs := lowerFinalSigma_of_not_mem (sigma_not_mem_of_isAscii hs)
  upper_ascii := CaseMap.ascii.upper_ascii
  digit_ascii := CaseMap.ascii.digit_ascii
  lower_lower := lowerFinalSigma_lowerFinalSigma

/-- The gateway resolves a folder to the first of two contracts, which are apart in lower case. -/
theorem not_ruleOrder_irrelevant_sigma :
    (twoRules "AΣ".toList "AΣB".toList).LowerPrefixFree finalSigma ∧
      (twoRules "AΣ".toList "AΣB".toList).Reorders (twoRules "AΣB".toList "AΣ".toList) ∧
      domainPrefixMatch (twoRules "AΣ".toList "AΣB".toList) "Load".toList "AΣB_r3".toList =
        some "AΣ".toList ∧
      domainPrefixMatch (twoRules "AΣB".toList "AΣ".toList) "Load".toList "AΣB_r3".toList =
        some "AΣB".toList :=
  ⟨by decide +kernel, reorders_twoRules (by decide), by decide +kernel, by decide +kernel⟩

end EntsoePipeline
