/-
The published catalog of components: what a declaration has to be, and the
orders and profiles it admits.
-/
import WebOvpn.Lib.Json
import WebOvpn.Lib.Schedule

namespace WebOvpn.Workflow

open Text Schedule

/-- `value[name]`.  `none` is a `KeyError` or a `TypeError`. -/
def item (value : JVal) (name : String) : Option JVal :=
  match value with
  | .obj members => members.lookup (text name)
  | _ => none

def hasItem (value : JVal) (name : String) : Bool := (item value name).isSome

def asText : JVal → Option Text
  | .str s => some s
  | _ => none

def asTexts : JVal → Option (List Text)
  | .arr items => items.mapM asText
  | _ => none

def isBool : JVal → Bool
  | .bool _ => true
  | _ => false

def require (condition : Bool) : Option Unit := if condition then some () else none

def hasKeys (value : JVal) (required optional : List String) : Bool :=
  match value with
  | .obj members =>
    required.all (fun name => (members.lookup (text name)).isSome) &&
      members.all fun member => member.1 ∈ (required ++ optional).map text
  | _ => false

def isIntIn (low high : Int) : JVal → Bool
  | .int n => low ≤ n && n ≤ high
  | _ => false

def isVersion (value : JVal) : Bool := isIntIn 1 2147483647 value

def isText (pattern : Text → Bool) : JVal → Bool
  | .str s =>
    s ≠ [] && s.length ≤ 256 && strip s = s && s.all (fun c => 32 ≤ c.val) && !contains "\x7b\x7b" s &&
      !contains "\x7b%" s && pattern s
  | _ => false

def anyText (_ : Text) : Bool := true

def isIdSeparator (c : CodePoint) : Bool := c = 46 || c = 95 || c = 45

/-- The rest of an identifier; `inner` says whether a separator stands before it. -/
def isIdTail (inner : Bool) : Text → Bool
  | [] => !inner
  | c :: rest =>
    if c.isLower || c.isDigit then isIdTail false rest
    else !inner && isIdSeparator c && isIdTail true rest

def isId : Text → Bool
  | [] => false
  | c :: rest => c.isLower && isIdTail false rest

def isRole : Text → Bool
  | [] => false
  | c :: rest => c.isLower && rest.all (fun c => c.isLower || c.isDigit || c = 95) && rest.length ≤ 95

def isName (signs : String) : Text → Bool
  | [] => false
  | c :: rest => c.isAlnum && rest.all (fun c => c.isAlnum || c ∈ text signs) && rest.length ≤ 127

def isPackage : Text → Bool := isName "+_.-"

def isEvr : Text → Bool := isName "+_.:~%-"

def isOneOf (names : List String) : JVal → Bool
  | .str s => s ∈ names.map text
  | _ => false

def isIds (allowEmpty : Bool) : JVal → Bool
  | .arr items =>
    items.length ≤ 256 && (allowEmpty || !items.isEmpty) && items.all (isText isId) && decide items.Nodup
  | _ => false

def isAbsolute (value : JVal) : Bool :=
  isText (fun s => s.head? = some 47 && !contains "//" s && 92 ∉ s &&
    ((s.splitOn 47).drop 1).all fun part => part ≠ "." && part ≠ "..") value

def optionally (value : JVal) (name : String) (condition : JVal → Bool) : Bool :=
  (item value name).all condition

def isArchitecture : JVal → Bool := isOneOf ["x86_64", "noarch"]

def isArchivePackage (package : JVal) : Bool :=
  hasKeys package ["filename", "package_name", "package_evr", "architecture"] ["package_epoch"] &&
    (item package "filename").any (isText isPackage) && (item package "package_name").any (isText isPackage) &&
    (item package "package_evr").any (isText isEvr) && (item package "architecture").any isArchitecture &&
    optionally package "package_epoch" fun
      | .int n => 0 ≤ n
      | _ => false

def isPackages (repository : Bool) : Option JVal → Bool
  | some (.arr packages) =>
    0 < packages.length && packages.length ≤ 64 &&
      if repository then packages.all (isText isPackage) && decide packages.Nodup
      else packages.all isArchivePackage &&
        decide (packages.map fun package => item package "package_name").Nodup
  | _ => false

def isArtifact (entry : JVal) : Bool :=
  let source := (item entry "source").getD .null
  hasKeys entry ["enabled", "source", "executable"]
      ["artifact_path", "sha256", "package_name", "package_evr", "architecture", "package_epoch", "packages",
        "installer_filename", "payload_filename", "download_size_bytes", "installed_size_bytes",
          "desktop_entry"] &&
    item entry "enabled" = some (.bool true) && isOneOf ["rpm", "alt-repository", "archive", "zip"] source &&
    (item entry "executable").any isAbsolute &&
    optionally entry "desktop_entry" (fun path =>
      source = .str "rpm" && isAbsolute path &&
        match path with
        | .str s => (text "/usr/share/applications/").isPrefixOf s && (text ".desktop").isSuffixOf s
        | _ => false) &&
    (!(hasItem entry "download_size_bytes" || hasItem entry "installed_size_bytes") ||
      (source = .str "rpm" && (item entry "download_size_bytes").any (isIntIn 1 (2 ^ 50)) &&
        (item entry "installed_size_bytes").any (isIntIn 1 (2 ^ 50)))) &&
    (source = .str "alt-repository" ||
      ((item entry "artifact_path").any isAbsolute && ((item entry "sha256").bind asText).any isSha256 &&
        (item entry "package_evr").any (isText isEvr))) &&
    optionally entry "package_epoch" (isIntIn 0 2147483647) &&
    (!isOneOf ["rpm", "zip"] source ||
      ((item entry "package_name").any (isText isPackage) && (item entry "architecture").any isArchitecture)) &&
    (!isOneOf ["archive", "alt-repository"] source ||
      isPackages (source = .str "alt-repository") (item entry "packages")) &&
    optionally entry "installer_filename" (isText isPackage) &&
      optionally entry "payload_filename" (isText isPackage)

def supportedOs : List String := ["alt-kworkstation-11"]

def protectedRoles : List String :=
  ["domain_join", "domain_verify", "alt_group_policy_client", "alt_group_policy_prerequisites",
    "domain_login_baseline", "prejoin_upgrade", "workstation_identity", "workstation_network", "local_employee",
    "provision_verify", "lightdm_accounts", "standard_software", "preflight", "manual_preflight",
    "alt_group_policy_compat"]

def recipes : List String :=
  ["package", "system_base", "domain", "plasma", "government_ca", "shortcuts", "krfb", "vnc_policy",
    "kwallet", "final_dns"]

def preflights : List String :=
  ["artifact", "system", "identity", "government_ca", "user_home", "krfb", "vnc_policy", "kwallet", "final_dns"]

/-- Whether `roles/<role>/tasks/main.yml` of the project passes `_regular`. -/
abbrev RoleFiles := Text → Bool

variable (roleFiles : RoleFiles)

def isExecution (id : JVal) (execution : JVal) : Bool :=
  let domain := decide (id = .str "domain.ready")
  hasKeys execution ["operation", "scope", "requires_domain", "requires_user_home",
    "requires_reboot", "retry_policy"]
      ["role", "adapter"] &&
    (hasItem execution "role" != hasItem execution "adapter") && domain = hasItem execution "adapter" &&
    (item execution "operation").any (isOneOf ["configure", "software", "protected_critical"]) &&
    (item execution "scope").any (isOneOf ["system", "user", "system_and_user"]) &&
    (item execution "retry_policy").any (isOneOf ["read_only", "idempotent", "guarded", "non_replayable"]) &&
    (item execution "requires_domain").any isBool && (item execution "requires_user_home").any isBool &&
    (item execution "requires_reboot").any isBool &&
    (item execution "requires_user_home" = some (.bool false) ||
      item execution "scope" ≠ some (.str "system")) &&
    match item execution "role" with
    | some role =>
      isText isRole role && !isOneOf protectedRoles role &&
        item execution "operation" ≠ some (.str "protected_critical") && (asText role).any roleFiles
    | none =>
      domain && item execution "adapter" = some (.str "legacy_domain_critical") &&
        item execution "operation" = some (.str "protected_critical") &&
        item execution "retry_policy" = some (.str "non_replayable")

def isPreflight (artifacts : Members) (preflight : JVal) : Bool :=
  hasKeys preflight ["recipe"] ["artifact_key"] && (item preflight "recipe").any (isOneOf preflights) &&
    optionally preflight "artifact_key" fun key => (asText key).any fun key => (artifacts.lookup key).isSome

def isVerification (verification : JVal) : Bool :=
  hasKeys verification ["recipe", "functional_verification_required"] ["services"] &&
    (item verification "recipe").any (isOneOf recipes) &&
    (item verification "functional_verification_required").any isBool &&
      optionally verification "services" (isIds true)

def isComponent (artifacts : Members) (component : JVal) : Bool :=
  let execution := (item component "execution").getD .null
  let preflight := (item component "preflight").getD .null
  let verification := (item component "verification").getD .null
  hasKeys component ["id", "version", "name", "category", "supported_os", "dependencies",
    "execution", "preflight",
      "verification"] [] &&
    (item component "id").any (isText isId) && (item component "version").any isVersion &&
    (item component "name").any (isText anyText) &&
    (item component "category").any
      (isOneOf ["system", "domain", "desktop", "certificates", "applications", "remote_access"]) &&
    (item component "supported_os").any (isIds false) &&
    ((item component "supported_os").bind asTexts).any (fun names => names.all (· ∈ supportedOs.map text)) &&
    (item component "dependencies").any (isIds true) &&
      isExecution roleFiles ((item component "id").getD .null) execution &&
    isPreflight artifacts preflight && isVerification verification &&
    if item execution "operation" = some (.str "software") then
      item preflight "recipe" = some (.str "artifact") && hasItem preflight "artifact_key" &&
        item verification "recipe" = some (.str "package")
    else item verification "recipe" ≠ some (.str "package")

def idOf (component : JVal) : Option Text := (item component "id").bind asText

def dependenciesOf (component : JVal) : Option (List Text) :=
  (item component "dependencies").bind asTexts

/-- `self._components` of the declarations: identifiers with their components. -/
def declare (isDeclared : JVal → Bool) (done : List (Text × JVal)) (declaration : JVal) :
    Option (List (Text × JVal)) :=
  if isDeclared declaration then
    match idOf declaration with
    | none => none
    | some id => if id ∈ done.map Prod.fst then none else some (done ++ [(id, declaration)])
  else none

/-- What a component depends on; `none` for an unknown one. -/
def known (components : List (Text × JVal)) (id : Text) : Option (List Text) :=
  (components.lookup id).bind dependenciesOf

def orderedIds (components : List (Text × JVal)) (ids : List Text) : Option (List Text) :=
  Schedule.closure (known components) (components.length + 1) ids

def hasClosure (components : List (Text × JVal)) (entry : Text × JVal) : Bool :=
  (orderedIds components [entry.1]).any fun closure =>
    ((item entry.2 "execution").bind fun execution => item execution "requires_domain") ≠ some (.bool true) ||
      text "domain.ready" ∈ closure.dropLast

def fullProfile : Text := "workstation-full-v1"

def marker : Text := "complete_workstation_v1"

def isProfile (components : List (Text × JVal)) (profile : JVal) : Bool :=
  let names := ((item profile "components").bind asTexts).getD []
  let optional := ((item profile "optional_components").bind asTexts).getD []
  hasKeys profile ["id", "version", "name", "components", "optional_components",
    "confirmation_policy"] ["workflow"] &&
    (item profile "id").any (isText isId) && (item profile "name").any (isText anyText) &&
    (item profile "version").any isVersion &&
    (!(item profile "id" = some (.str fullProfile) || hasItem profile "workflow") ||
      (item profile "id" = some (.str fullProfile) && item profile "workflow" = some (.str marker) &&
        item profile "version" = some (.int 1) && item profile "optional_components" = some (.arr []))) &&
    (item profile "components").any (isIds false) && (item profile "optional_components").any (isIds true) &&
    item profile "confirmation_policy" = some (.str "sha256") && names.all (· ∉ optional) &&
    orderedIds components names = some names &&
    optional.all fun id => (orderedIds components [id]).any fun closure => closure.dropLast.all (· ∈ names)

/-- A catalog whose document was accepted. -/
structure Catalog where
  components : List (Text × JVal)
  profiles : List (Text × JVal)

def artifactsOf (document : JVal) : Option Members :=
  match item document "software_catalog" with
  | some (.obj artifacts) =>
    if 0 < artifacts.length ∧ artifacts.length ≤ 256 ∧
        artifacts.all (fun entry => isText isRole (.str entry.1) && isArtifact entry.2) then
      some artifacts
    else none
  | _ => none

def declarations (catalog : JVal) (name : String) (limit : Nat) : Option (List JVal) :=
  match item catalog name with
  | some (.arr items) => if 0 < items.length ∧ items.length ≤ limit then some items else none
  | _ => none

/-- `ComponentCatalog(project, document)`; `none` is a refusal. -/
def Catalog.load (document : JVal) : Option Catalog := do
  require (hasKeys document ["software_catalog", "setup_catalog"] [])
  let artifacts ← artifactsOf document
  let catalog ← item document "setup_catalog"
  require (hasKeys catalog ["schema_version", "version", "components", "profiles"] [])
  require (item catalog "schema_version" = some (.int 1))
  require ((item catalog "version").any isVersion)
  let components ← (← declarations catalog "components" 256).foldlM
    (declare (isComponent roleFiles artifacts)) []
  require (components.all (hasClosure components))
  let profiles ← (← declarations catalog "profiles" 128).foldlM (declare (isProfile components)) []
  return ⟨components, profiles⟩

/-- The access to a registry that the builder of plans uses. -/
structure Registry where
  profile : Text → Option JVal
  components : List JVal
  component : Text → Option JVal
  ordered : JVal → Text → Option (List JVal)

/-- `os_id in value`. -/
def isIn (name : Text) : JVal → Option Bool
  | .arr items => some (items.contains (.str name))
  | .str s => some (contains name s)
  | .obj members => some (members.lookup name).isSome
  | _ => none

namespace Catalog

variable (catalog : Catalog)

def ordered (names : JVal) (os : Text) : Option (List JVal) := do
  require (isIds true names)
  let ids ← orderedIds catalog.components (← asTexts names)
  let result ← ids.mapM fun id => catalog.components.lookup id
  if result.all fun component =>
    ((item component "supported_os").bind (isIn os)).getD false then some result else none

def registry : Registry where
  profile := fun name => catalog.profiles.lookup name
  components := catalog.components.map Prod.snd
  component := fun name => catalog.components.lookup name
  ordered := catalog.ordered

def ids : List Text := catalog.components.map Prod.fst

def dependencies (id : Text) : List Text := depsOf (known catalog.components) id

end Catalog

end WebOvpn.Workflow
