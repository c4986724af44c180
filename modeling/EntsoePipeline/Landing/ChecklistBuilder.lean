import EntsoePipeline.Delta.Scope

set_option relaxedAutoImplicit false
set_option autoImplicit false

/-!
# How the checklist is built

The user's template is either a whole checklist, which is taken over as it is, or a short form that
is expanded with the overview: a list of popular folders, a selection of domains with values of the
user's own, or lists of enabled domains and legacy folders.

## Main definitions

* `EntsoePipeline.Yaml`, `EntsoePipeline.Node` — the values of a checklist.
* `EntsoePipeline.YamlChecklist` — a checklist whose values are any YAML values.
* `EntsoePipeline.Template` — the template forms.
* `EntsoePipeline.buildDomainsChecklist` — the checklist of a template.

## Implementation notes

The keys of a mapping are texts. A missing `domains` or `folders` is an empty mapping, which is what
every reader takes it for.
-/

namespace EntsoePipeline

open Py

/-! ## Checklists -/

/-- A YAML value. -/
inductive Yaml
  | null
  | bool (b : Bool)
  | int (n : ℤ)
  | str (s : Str)
  | list (items : List Yaml)
  | map (entries : List (Str × Yaml))

/-- A place where a mapping is expected, and what stands there. -/
inductive Node (ν : Type)
  /-- A mapping. -/
  | map (entries : Dict Str ν)
  /-- Another value. -/
  | other (value : Yaml)

/-- A root directory of a checklist. -/
structure ChecklistRoot where
  /-- The name of the root directory. -/
  name : Str
  /-- The folders by domain. -/
  domains : Node (Node Yaml)
  /-- The folders that are listed without a domain. -/
  folders : Node Yaml

/-- The root directories of each environment. -/
abbrev YamlChecklist := Dict Str (List ChecklistRoot)

/-- Why a checklist cannot be built or read. -/
inductive ChecklistError
  /-- A short form cannot be expanded without the overview. -/
  | overviewRequired
  /-- The template has none of the forms. -/
  | invalidFormat
  /-- An `AttributeError`: what should be a mapping is none. -/
  | attributeError
  deriving DecidableEq

/-- The message of the `ValueError`. -/
def ChecklistError.message : ChecklistError → Option Str
  | .overviewRequired => some ("overview_data is required to dynamically construct high-level " ++
      "domains checklists.").toList
  | .invalidFormat => some ("Invalid checklist template configuration format. " ++
      "Must define one of: 'environments', 'popular_domains', " ++
      "'selected_domains', 'enabled_domains', or 'enabled_legacy_folders'.").toList
  | .attributeError => none

/-! ## Templates -/

/-- A template. -/
inductive Template
  /-- A whole checklist. -/
  | environments (checklist : YamlChecklist)
  /-- The popular folders of each domain, for one environment or all. -/
  | popularDomains (popular : Dict Str (List Str)) (environment : Option Str)
  /-- A selection of domains, for one environment or all. -/
  | selectedDomains (selected : Yaml) (environment : Option Str)
  /-- The enabled domains and legacy folders, for one environment or all. -/
  | enabled (domains legacyFolders : List Str) (environment : Option Str)
  /-- None of the forms. -/
  | invalid

section Builder

variable (cm : CaseMap) (overview : Overview)

/-- `target_env is None or env_name.upper() == target_env`. -/
def isEnvEnabled (target : Option Str) (env : Str) : Bool :=
  match target with
  | none => true
  | some name => decide (name = [] ∨ cm.upper env = cm.upper name)

/-- The checklist of an overview, with a value for each folder of a domain and for each folder
without one. The first argument of a value tells whether the environment is enabled. -/
def buildDomainsConfig (target : Option Str) (domainValue : Bool → Str → Str → Yaml)
    (folderValue : Bool → Str → Yaml) : YamlChecklist :=
  Dict.ofList (overview.items.map fun env =>
    (env.1, env.2.map fun root =>
      { name := root.name
        domains := .map (Dict.ofList (root.domains.items.map fun domain =>
          (domain.1, .map (Dict.ofList (domain.2.map fun folder =>
            (folder, domainValue (isEnvEnabled cm target env.1) domain.1 folder))))))
        folders := .map (Dict.ofList (root.folders.map fun folder =>
          (folder, folderValue (isEnvEnabled cm target env.1) folder))) }))

/-- The checklist of the popular folders. -/
def buildDefaultDomainsConfig (popular : Dict Str (List Str)) (target : Option Str) :
    YamlChecklist :=
  buildDomainsConfig cm overview target
    (fun envEnabled domain folder =>
      .bool (envEnabled && decide (folder ∈ (popular.get? domain).getD [])))
    fun _ _ => .bool false

/-- The value of the first key that is the name up to letter case. -/
def lookupName (name : Str) (entries : List (Str × Yaml)) : Option Yaml :=
  (entries.find? fun entry => cm.lower entry.1 = cm.lower name).map Prod.snd

/-- The value of a domain in a list of names and mappings. -/
def domainInList (domain : Str) : List Yaml → Yaml
  | [] => .bool false
  | .str s :: rest => if cm.lower s = cm.lower domain then .bool true else domainInList domain rest
  | .map entries :: rest => (lookupName cm domain entries).getD (domainInList domain rest)
  | _ :: rest => domainInList domain rest

/-- The value of a domain in the selection. -/
def getDomainConfig (selected : Yaml) (domain : Str) : Yaml :=
  match selected with
  | .map entries => (lookupName cm domain entries).getD (.bool false)
  | .list items => domainInList cm domain items
  | _ => .bool false

/-- The value of a folder in the list of its domain. A name ends the search; a mapping overwrites
the value, and the search goes on. -/
def folderConfig (folder : Str) : List Yaml → Yaml → Yaml
  | [], value => value
  | .str s :: rest, value =>
    if cm.lower s = cm.lower folder then .bool true else folderConfig folder rest value
  | .map entries :: rest, value =>
    folderConfig folder rest ((lookupName cm folder entries).getD value)
  | _ :: rest, value => folderConfig folder rest value

/-- The checklist of a selection. The values of the user are passed on. -/
def buildCustomDomainsConfig (selected : Yaml) (target : Option Str) : YamlChecklist :=
  buildDomainsConfig cm overview target
    (fun envEnabled domain folder =>
      if envEnabled then
        match getDomainConfig cm selected domain with
        | .bool true => .bool true
        | .list items => folderConfig cm folder items (.bool false)
        | _ => .bool false
      else .bool false)
    fun _ _ => .bool false

/-- The checklist of the enabled domains and legacy folders. -/
def buildExtendedDomainsConfig (domains legacyFolders : List Str) (target : Option Str) :
    YamlChecklist :=
  buildDomainsConfig cm overview target
    (fun envEnabled domain _ => .bool (envEnabled && decide (domain ∈ domains)))
    fun envEnabled folder => .bool (envEnabled && decide (folder ∈ legacyFolders))

end Builder

/-- The checklist of a template. The short forms need the overview, which is `none` when it is
missing or has no content. -/
def buildDomainsChecklist (cm : CaseMap) (template : Template) (overviewData : Option Overview) :
    Except ChecklistError YamlChecklist :=
  match template with
  | .environments checklist => .ok checklist
  | template =>
    match overviewData with
    | none => .error .overviewRequired
    | some overview =>
      match template with
      | .environments checklist => .ok checklist
      | .popularDomains popular target => .ok (buildDefaultDomainsConfig cm overview popular target)
      | .selectedDomains selected target =>
        .ok (buildCustomDomainsConfig cm overview selected target)
      | .enabled domains legacyFolders target =>
        .ok (buildExtendedDomainsConfig cm overview domains legacyFolders target)
      | .invalid => .error .invalidFormat

end EntsoePipeline
