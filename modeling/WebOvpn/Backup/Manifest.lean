/-
The metadata of a backup: the manifest and the evidence of its verification and of
its rehearsal, as they are written and as they are read.
-/
import WebOvpn.Lib.Calendar
import WebOvpn.Lib.JsonCanonical
import WebOvpn.Lib.Lines

namespace WebOvpn.Backup

/-- The message of a `BackupError` with the code `backup_manifest_invalid`. -/
abbrev Checked := Except String

def require (condition : Bool) (message : String) : Checked Unit :=
  if condition then .ok () else .error message

def maximumBytes : Nat := 16 * 1024 * 1024

def pairsDialect : Dialect LoadsError := { floatDialect with object := strictObject }

/-- `_json_bytes`: a text with a surrogate cannot be encoded, and an integer with too
many digits cannot be printed. -/
def jsonBytes (payload : JVal) : Option Bytes :=
  if payload.isPrintable && payload.isEncodable then
    some (utf8Chars (render escapeChar Layout.indented 0 payload ++ ['\n']))
  else none

def decode (raw : Bytes) : Checked JVal := do
  let _ ← require (decide (raw.length ≤ maximumBytes)) "Backup JSON exceeds the size limit"
  match decodeUtf8 raw with
  | none => .error "Backup JSON is invalid"
  | some input =>
    match parseDocument pairsDialect input with
    | .error _ => .error "Backup JSON is invalid"
    | .ok (.obj members) => .ok (.obj members)
    | .ok _ => .error "Backup JSON must be an object"

def exactObject (value : JVal) (keys : List Text) (context : String) : Checked (List (Text × JVal)) :=
  match value with
  | .obj members =>
    if (∀ key ∈ keys, key ∈ members.map Prod.fst) ∧ (∀ key ∈ members.map Prod.fst, key ∈ keys) then .ok members
    else .error (context ++ " keys are invalid")
  | _ => .error (context ++ " keys are invalid")

def item (payload : List (Text × JVal)) (key : String) : JVal := (payload.lookup (text key)).getD .null

def string (value : JVal) (context : String) (maximum : Nat) : Checked Text :=
  match value with
  | .str s => do
      let _ ← require (decide (s ≠ [] ∧ s.length ≤ maximum)) (context ++ " is invalid")
      return s
  | _ => .error (context ++ " must be a string")

def optionalString (value : JVal) (context : String) (maximum : Nat) : Checked (Option Text) :=
  match value with
  | .null => .ok none
  | value => (string value context maximum).map some

def integer (value : JVal) (context : String) (minimum : Int) (maximum : Option Int) : Checked Int :=
  match value with
  | .int n => do
      let _ ← require (decide (minimum ≤ n)) (context ++ " must be an integer")
      let _ ← require (decide (∀ most ∈ maximum, n ≤ most)) (context ++ " is outside the allowed range")
      return n
  | _ => .error (context ++ " must be an integer")

def boolean (value : JVal) (context : String) : Checked Bool :=
  match value with
  | .bool b => .ok b
  | _ => .error (context ++ " must be boolean")

def withOffset (value : Text) : Text :=
  value.flatMap fun c => if c = CodePoint.ofChar 'Z' then "+00:00" else [c]

def utcTimestamp (value : JVal) (context : String) : Checked Text := do
  let s ← string value context 100
  match fromisoformat (withOffset s) with
  | none => .error (context ++ " is not an ISO timestamp")
  | some parsed => do
      let _ ← require (decide (parsed.offset = some 0)) (context ++ " must be UTC")
      return s

def matched (matches_ : Text → Bool) (value : JVal) (context : String) (maximum : Nat)
    (message : String) : Checked Text := do
  let s ← string value context maximum
  let _ ← require (matches_ s) message
  return s

def isSha256 : Text → Bool := Text.fullmatch (List.replicate 64 CodePoint.isLowerHex)

def sha256Of (value : JVal) (context : String) : Checked Text :=
  matched isSha256 value context 64 (context ++ " is not a SHA-256 value")

/-- `[0-9]+`, and what follows it. -/
def afterDigits (s : Text) : Option Text :=
  if s.takeWhile CodePoint.isDigit = [] then none else some (s.dropWhile CodePoint.isDigit)

def afterPoint : Text → Option Text
  | c :: rest => if c = '.' then some rest else none
  | [] => none

def isVersion (s : Text) : Bool :=
  ((((afterDigits s).bind afterPoint).bind afterDigits).bind afterPoint).bind afterDigits == some []

def version (value : JVal) (context : String) : Checked Text :=
  matched isVersion value context 32 (context ++ " is invalid")

/-- The character itself. -/
def exactly (c : Char) : CodePoint → Bool := fun d => d == CodePoint.ofChar c

/-- `BACKUP_ID_RE`; `\d` takes the decimal digits of every script. -/
def isBackupId : Text → Bool :=
  Text.fullmatch ("backup-".toList.map exactly ++ List.replicate 8 CodePoint.isDecimal ++ [exactly 'T'] ++
    List.replicate 6 CodePoint.isDecimal ++ [exactly 'Z', exactly '-'] ++ List.replicate 8 CodePoint.isLowerHex)

def backupId (value : JVal) : Checked Text :=
  matched isBackupId value "backup_id" 64 "Backup identifier is invalid"

def pathParts : Text → List Text
  | [] => [[]]
  | c :: rest =>
    if c = '/' then [] :: pathParts rest
    else
      match pathParts rest with
      | [] => [[c]]
      | part :: more => (c :: part) :: more

def isSafeAbsolute (s : Text) : Bool := startsWith '/' s && !(pathParts s).contains ".."

def absolutePath (value : JVal) (context : String) : Checked Text :=
  matched isSafeAbsolute value context 4096 (context ++ " is not a safe absolute path")

/-- Between one and so many characters of a class. -/
def isWord (cls : CodePoint → Bool) (most : Nat) (s : Text) : Bool :=
  s ≠ [] && s.length ≤ most && s.all cls

/-- One of the characters. -/
def among (chars : String) (c : CodePoint) : Bool := (text chars).any (· == c)

def isSafeAccount : Text → Bool := isWord (fun c => c.isAlnum || among "_.-" c) 64

def safeAccount (value : JVal) (context : String) : Checked Text :=
  matched isSafeAccount value context 64 (context ++ " is invalid")

def isSafeName : Text → Bool := isWord (fun c => c.isAlnum || among "_.@:-" c) 255

def isSafeCheck : Text → Bool
  | [] => false
  | c :: rest => c.isLower && decide (rest.length ≤ 99) && rest.all fun d =>
    d.isLower || d.isDigit || among "_.-" d

def isSshFingerprint (s : Text) : Bool :=
  (text "ssh-public-fingerprint:SHA256:").isPrefixOf s &&
    isWord (fun c => c.isAlnum || among "+/=_-" c) 200 (s.drop (text "ssh-public-fingerprint:SHA256:").length)

def parseEach {α : Type} (parse : Nat → JVal → Checked α) (index : Nat) : List JVal → Checked (List α)
  | [] => .ok []
  | value :: rest => do
      let first ← parse index value
      let more ← parseEach parse (index + 1) rest
      return first :: more

def listOf {α : Type} (parse : Nat → JVal → Checked α) (admitted : Nat → Bool) (message : String)
    (value : JVal) :
    Checked (List α) :=
  match value with
  | .arr items => do
      let _ ← require (admitted items.length) message
      parseEach parse 0 items
  | _ => .error message

def safeChecks (value : JVal) (context : String) : Checked (List Text) := do
  let checks ← listOf
    (fun _ item => matched isSafeCheck item context 100 (context ++ " contains an invalid check"))
    (· ≠ 0)
    (context ++ " must be a non-empty list") value
  let _ ← require (checks.length ≤ 100 ∧ checks.Nodup) (context ++ " contains duplicates or too many values")
  return checks

structure PathRecord where
  absolutePath : Text
  present : Bool
  uid : Option Int
  gid : Option Int
  owner : Option Text
  group : Option Text
  mode : Option Int
  kind : Text

structure ComponentRecord where
  name : Text
  filename : Text
  namespace_ : Text
  sizeBytes : Int
  sha256 : Text
  paths : List PathRecord
  archiveFormat : Text

structure ControllerRecord where
  hostname : Text
  machineId : Option Text
  osId : Text
  osVersionId : Text
  osPrettyName : Text
  repositoryCommit : Option Text

structure PreflightRecord where
  activeJobsEmpty : Bool
  transientUnitsEmpty : Bool
  pendingRegistrationEmpty : Bool
  processorInactive : Bool
  secretsValid : Bool
  sourcesSafe : Bool
  diskSpaceSufficient : Bool

structure UnitState where
  name : Text
  loadState : Text
  enabledState : Text
  activeState : Text
  subState : Text
  failed : Bool

structure SecretIdentity where
  path : Text
  kind : Text
  uid : Int
  gid : Int
  owner : Text
  group : Text
  mode : Int
  size : Int
  identity : Text

structure BackupManifest where
  schemaVersion : Int
  utilityVersion : Text
  backupId : Text
  createdAt : Text
  controller : ControllerRecord
  components : List ComponentRecord
  systemdUnits : List UnitState
  secretIdentities : List SecretIdentity
  preflight : PreflightRecord
  restoreOrder : List Text

structure VerificationEvidence where
  schemaVersion : Int
  utilityVersion : Text
  backupId : Text
  completedAt : Text
  manifestSha256 : Text
  componentHashes : List (Text × Text)
  secretIdentities : List SecretIdentity
  passedChecks : List Text
  status : Text

structure RehearsalEvidence where
  schemaVersion : Int
  utilityVersion : Text
  backupId : Text
  completedAt : Text
  manifestSha256 : Text
  verificationSha256 : Text
  secretIdentities : List SecretIdentity
  passedChecks : List Text
  status : Text

def optStr : Option Text → JVal
  | none => .null
  | some s => .str s

/-- An integer or `None`. -/
def optInt : Option Int → JVal
  | none => .null
  | some n => .int n

def strings (items : List Text) : JVal := .arr (items.map JVal.str)

/-- A dictionary of the source, in the order of its keys. -/
def dict (fields : List (String × JVal)) : JVal :=
  .obj (fields.map fun field => (text field.1, field.2))

def PathRecord.toDict (path : PathRecord) : JVal := dict
  [("absolute_path", .str path.absolutePath), ("present", .bool path.present), ("uid", optInt path.uid),
    ("gid", optInt path.gid), ("owner", optStr path.owner), ("group", optStr path.group),
      ("mode", optInt path.mode),
    ("kind", .str path.kind)]

def ComponentRecord.toDict (component : ComponentRecord) : JVal := dict
  [("name", .str component.name), ("filename", .str component.filename),
    ("namespace", .str component.namespace_),
    ("size_bytes", .int component.sizeBytes), ("sha256", .str component.sha256),
    ("paths", .arr (component.paths.map PathRecord.toDict)), ("archive_format", .str component.archiveFormat)]

def ControllerRecord.toDict (controller : ControllerRecord) : JVal := dict
  [("hostname", .str controller.hostname), ("machine_id", optStr controller.machineId),
    ("os_id", .str controller.osId),
    ("os_version_id", .str controller.osVersionId), ("os_pretty_name", .str controller.osPrettyName),
    ("repository_commit", optStr controller.repositoryCommit)]

def PreflightRecord.toDict (preflight : PreflightRecord) : JVal := dict
  [("active_jobs_empty", .bool preflight.activeJobsEmpty),
    ("transient_units_empty", .bool preflight.transientUnitsEmpty),
    ("pending_registration_empty", .bool preflight.pendingRegistrationEmpty),
    ("processor_inactive", .bool preflight.processorInactive), ("secrets_valid", .bool preflight.secretsValid),
    ("sources_safe", .bool preflight.sourcesSafe),
      ("disk_space_sufficient", .bool preflight.diskSpaceSufficient)]

def UnitState.toDict (unit : UnitState) : JVal := dict
  [("name", .str unit.name), ("load_state", .str unit.loadState), ("enabled_state", .str unit.enabledState),
    ("active_state", .str unit.activeState), ("sub_state", .str unit.subState), ("failed", .bool unit.failed)]

def SecretIdentity.toDict (secret : SecretIdentity) : JVal := dict
  [("path", .str secret.path), ("kind", .str secret.kind), ("uid", .int secret.uid), ("gid", .int secret.gid),
    ("owner", .str secret.owner), ("group", .str secret.group), ("mode", .int secret.mode),
      ("size", .int secret.size),
    ("identity", .str secret.identity)]

def BackupManifest.toDict (manifest : BackupManifest) : JVal := dict
  [("schema_version", .int manifest.schemaVersion), ("utility_version", .str manifest.utilityVersion),
    ("backup_id", .str manifest.backupId), ("created_at", .str manifest.createdAt),
    ("controller", manifest.controller.toDict),
      ("components", .arr (manifest.components.map ComponentRecord.toDict)),
    ("systemd_units", .arr (manifest.systemdUnits.map UnitState.toDict)),
    ("secret_identities", .arr (manifest.secretIdentities.map SecretIdentity.toDict)),
    ("preflight", manifest.preflight.toDict), ("restore_order", strings manifest.restoreOrder)]

def VerificationEvidence.toDict (evidence : VerificationEvidence) : JVal := dict
  [("schema_version", .int evidence.schemaVersion), ("utility_version", .str evidence.utilityVersion),
    ("backup_id", .str evidence.backupId), ("completed_at", .str evidence.completedAt),
    ("manifest_sha256", .str evidence.manifestSha256),
    ("component_hashes", .obj (evidence.componentHashes.map fun entry => (entry.1, .str entry.2))),
    ("secret_identities", .arr (evidence.secretIdentities.map SecretIdentity.toDict)),
    ("passed_checks", strings evidence.passedChecks), ("status", .str evidence.status)]

def RehearsalEvidence.toDict (evidence : RehearsalEvidence) : JVal := dict
  [("schema_version", .int evidence.schemaVersion), ("utility_version", .str evidence.utilityVersion),
    ("backup_id", .str evidence.backupId), ("completed_at", .str evidence.completedAt),
    ("manifest_sha256", .str evidence.manifestSha256),
      ("verification_sha256", .str evidence.verificationSha256),
    ("secret_identities", .arr (evidence.secretIdentities.map SecretIdentity.toDict)),
    ("passed_checks", strings evidence.passedChecks), ("status", .str evidence.status)]

def BackupManifest.toBytes (manifest : BackupManifest) : Option Bytes := jsonBytes manifest.toDict

def VerificationEvidence.toBytes (evidence : VerificationEvidence) : Option Bytes :=
  jsonBytes evidence.toDict

def RehearsalEvidence.toBytes (evidence : RehearsalEvidence) : Option Bytes := jsonBytes evidence.toDict

def texts (names : List String) : List Text := names.map text

def schemaVersion : Int := 1

def manifestKeys : List Text :=
  texts ["schema_version", "utility_version", "backup_id", "created_at", "controller",
  "components", "systemd_units", "secret_identities", "preflight", "restore_order"]

def controllerKeys : List Text :=
  texts ["hostname", "machine_id", "os_id", "os_version_id", "os_pretty_name",
  "repository_commit"]

def componentKeys : List Text :=
  texts ["name", "filename", "namespace", "size_bytes", "sha256", "paths", "archive_format"]

def pathKeys : List Text :=
  texts ["absolute_path", "present", "uid", "gid", "owner", "group", "mode", "kind"]

def unitKeys : List Text :=
  texts ["name", "load_state", "enabled_state", "active_state", "sub_state", "failed"]

def secretKeys : List Text :=
  texts ["path", "kind", "uid", "gid", "owner", "group", "mode", "size", "identity"]

def preflightKeys : List Text :=
  texts ["active_jobs_empty", "transient_units_empty", "pending_registration_empty",
  "processor_inactive", "secrets_valid", "sources_safe", "disk_space_sufficient"]

def verificationKeys : List Text :=
  texts ["schema_version", "utility_version", "backup_id", "completed_at",
  "manifest_sha256", "component_hashes", "secret_identities", "passed_checks", "status"]

def rehearsalKeys : List Text :=
  texts ["schema_version", "utility_version", "backup_id", "completed_at",
  "manifest_sha256", "verification_sha256", "secret_identities", "passed_checks", "status"]

def componentNames : List Text :=
  texts ["runtime", "systemd", "ansible", "controller_state", "registration_state",
  "deployment_assets"]

def filenames : List String := ["runtime.tar.zst", "systemd.tar.zst", "ansible.tar.zst",
  "controller-state.tar.zst", "registration-state.tar.zst", "deployment-assets.tar.zst"]

def componentFilenames : List Text := texts filenames

def componentNamespaces : List Text :=
  texts ["runtime", "systemd", "ansible", "controller-state", "registration-state",
  "deployment-assets"]

def managedUnits : List Text :=
  texts ["alt-deploy-http.service", "alt-deploy-register.service", "alt-deploy-process.path",
  "alt-deploy-process.service", "alt-setup-worker.service"]

def secretOrder : List Text := texts ["vault", "vault_password", "ssh_private_key"]

def secretPaths : List Text :=
  texts ["/home/altserver/ansible/group_vars/vault.yml", "/home/altserver/.ansible-vault-pass",
  "/home/altserver/.ssh/id_ed25519"]

def allowedPathKinds : List Text := texts ["directory", "regular", "symlink", "absent"]

def allowedLoadStates : List Text := texts ["loaded", "not-found"]

def allowedEnabledStates : List Text :=
  texts ["enabled", "enabled-runtime", "disabled", "static", "indirect", "generated",
  "transient", "alias", "not-found"]

def allowedActiveStates : List Text :=
  texts ["active", "inactive", "failed", "activating", "deactivating", "reloading",
  "maintenance"]

/-- `0o7777`. -/
def maximumMode : Int := 4095

def parsePath (value : JVal) : Checked PathRecord := do
  let payload ← exactObject value pathKeys "component path"
  let path ← absolutePath (item payload "absolute_path") "component absolute_path"
  let present ← boolean (item payload "present") "component present"
  let kind ← string (item payload "kind") "component kind" 32
  let _ ← require (kind ∈ allowedPathKinds) "Component path kind is invalid"
  if present then do
    let _ ← require (kind ≠ "absent") "Present component path cannot be absent"
    let uid ← integer (item payload "uid") "component uid" 0 none
    let gid ← integer (item payload "gid") "component gid" 0 none
    let owner ← safeAccount (item payload "owner") "component owner"
    let group ← safeAccount (item payload "group") "component group"
    let mode ← integer (item payload "mode") "component mode" 0 (some maximumMode)
    return ⟨path, present, some uid, some gid, some owner, some group, some mode, kind⟩
  else do
    let _ ← require (kind = "absent" ∧ ∀ key ∈ ["uid", "gid", "owner", "group", "mode"],
      item payload key = .null)
      "Absent component path metadata is invalid"
    return ⟨path, present, none, none, none, none, none, kind⟩

def parseComponent (index : Nat) (value : JVal) : Checked ComponentRecord := do
  let payload ← exactObject value componentKeys "component"
  let name ← string (item payload "name") "component name" 64
  let filename ← string (item payload "filename") "component filename" 128
  let namespace_ ← string (item payload "namespace") "component namespace" 128
  let _ ← require (componentNames[index]? = some name ∧ componentFilenames[index]? = some filename ∧
    componentNamespaces[index]? = some namespace_) "Component identity or order is invalid"
  let sizeBytes ← integer (item payload "size_bytes") "component size" 0 none
  let digest ← sha256Of (item payload "sha256") "component sha256"
  let _ ← require (item payload "archive_format" = .str "tar.zst") "Component archive format is invalid"
  let paths ← listOf (fun _ => parsePath) (· ≠ 0) "Component paths are invalid" (item payload "paths")
  let _ ← require (paths.map PathRecord.absolutePath).Nodup "Component paths contain duplicates"
  return ⟨name, filename, namespace_, sizeBytes, digest, paths, "tar.zst"⟩

def parseController (value : JVal) : Checked ControllerRecord := do
  let payload ← exactObject value controllerKeys "controller"
  let hostname ← matched isSafeName
    (item payload "hostname") "controller hostname" 253 "Controller hostname is invalid"
  let machineId ← optionalString (item payload "machine_id") "controller machine_id" 256
  let osId ← string (item payload "os_id") "controller os_id" 100
  let osVersionId ← string (item payload "os_version_id") "controller os_version_id" 100
  let osPrettyName ← string (item payload "os_pretty_name") "controller os_pretty_name" 500
  let repositoryCommit ← optionalString (item payload "repository_commit") "controller repository_commit" 256
  return ⟨hostname, machineId, osId, osVersionId, osPrettyName, repositoryCommit⟩

def parseUnit (index : Nat) (value : JVal) : Checked UnitState := do
  let payload ← exactObject value unitKeys "systemd unit"
  let name ← string (item payload "name") "systemd unit name" 200
  let _ ← require (managedUnits[index]? = some name) "Systemd unit order is invalid"
  let loadState ← string (item payload "load_state") "systemd load state" 32
  let enabledState ← string (item payload "enabled_state") "systemd enabled state" 32
  let activeState ← string (item payload "active_state") "systemd active state" 32
  let subState ← string (item payload "sub_state") "systemd sub state" 100
  let failed ← boolean (item payload "failed") "systemd failed"
  let _ ← require (loadState ∈ allowedLoadStates ∧ enabledState ∈ allowedEnabledStates ∧
    activeState ∈ allowedActiveStates ∧
    isSafeName subState ∧ failed = decide (activeState = "failed")) "Systemd unit values are invalid"
  let _ ← require
    (loadState = "not-found" → enabledState = "not-found")
    "Missing systemd unit enablement is invalid"
  return ⟨name, loadState, enabledState, activeState, subState, failed⟩

def isIdentity (kind identity : Text) : Bool :=
  if kind = "vault" then
    (text "sha256:").isPrefixOf identity && isSha256 (identity.drop (text "sha256:").length)
  else if kind = "vault_password" then
    (text "hmac-sha256:").isPrefixOf identity && isSha256 (identity.drop (text "hmac-sha256:").length)
  else isSshFingerprint identity

def identityMessage (kind : Text) : String :=
  if kind = "vault" then "Vault identity is invalid"
  else if kind = "vault_password" then "Vault password identity is invalid"
  else "SSH identity is invalid"

def parseSecret (index : Nat) (value : JVal) : Checked SecretIdentity := do
  let payload ← exactObject value secretKeys "secret identity"
  let kind ← string (item payload "kind") "secret kind" 64
  let _ ← require (secretOrder[index]? = some kind) "Secret identity order is invalid"
  let path ← absolutePath (item payload "path") "secret path"
  let _ ← require (secretPaths[index]? = some path) "Secret identity path is invalid"
  let uid ← integer (item payload "uid") "secret uid" 0 none
  let gid ← integer (item payload "gid") "secret gid" 0 none
  let owner ← safeAccount (item payload "owner") "secret owner"
  let group ← safeAccount (item payload "group") "secret group"
  let mode ← integer (item payload "mode") "secret mode" 0 (some maximumMode)
  let size ← integer (item payload "size") "secret size" 0 none
  let identity ← string (item payload "identity") "secret identity" 500
  let _ ← require (isIdentity kind identity) (identityMessage kind)
  return ⟨path, kind, uid, gid, owner, group, mode, size, identity⟩

def parseSecrets : JVal → Checked (List SecretIdentity) :=
  listOf parseSecret (· = secretOrder.length) "Secret identity set is invalid"

/-- `_parse_preflight`; the source goes through its keys in no fixed order. -/
def parsePreflight (value : JVal) : Checked PreflightRecord := do
  let payload ← exactObject value preflightKeys "preflight"
  let activeJobsEmpty ← boolean (item payload "active_jobs_empty") "preflight active_jobs_empty"
  let transientUnitsEmpty ← boolean (item payload "transient_units_empty") "preflight transient_units_empty"
  let pendingRegistrationEmpty ← boolean
    (item payload "pending_registration_empty") "preflight pending_registration_empty"
  let processorInactive ← boolean (item payload "processor_inactive") "preflight processor_inactive"
  let secretsValid ← boolean (item payload "secrets_valid") "preflight secrets_valid"
  let sourcesSafe ← boolean (item payload "sources_safe") "preflight sources_safe"
  let diskSpaceSufficient ← boolean (item payload "disk_space_sufficient") "preflight disk_space_sufficient"
  let _ ← require (activeJobsEmpty && transientUnitsEmpty && pendingRegistrationEmpty &&
    processorInactive && secretsValid &&
    sourcesSafe && diskSpaceSufficient) "Published manifest preflight is not successful"
  return ⟨activeJobsEmpty, transientUnitsEmpty, pendingRegistrationEmpty, processorInactive,
    secretsValid, sourcesSafe,
    diskSpaceSufficient⟩

def manifestOf (document : JVal) : Checked BackupManifest := do
  let payload ← exactObject document manifestKeys "manifest"
  let schema ← integer (item payload "schema_version") "schema_version" 1 none
  let _ ← require (schema = schemaVersion) "Manifest schema version is unsupported"
  let utilityVersion ← version (item payload "utility_version") "utility_version"
  let id ← backupId (item payload "backup_id")
  let createdAt ← utcTimestamp (item payload "created_at") "created_at"
  let controller ← parseController (item payload "controller")
  let components ← listOf parseComponent (· = componentNames.length) "Manifest component count is invalid"
    (item payload "components")
  let units ← listOf parseUnit (· ∈ [4, managedUnits.length]) "Manifest systemd unit count is invalid"
    (item payload "systemd_units")
  let secrets ← parseSecrets (item payload "secret_identities")
  let preflight ← parsePreflight (item payload "preflight")
  let _ ← require (item payload "restore_order" = strings componentNames) "Manifest restore order is invalid"
  return ⟨schema, utilityVersion, id, createdAt, controller, components, units, secrets, preflight,
    componentNames⟩

def parseManifest (raw : Bytes) : Checked BackupManifest := do
  let document ← decode raw
  manifestOf document

/-- The comprehension of `_component_hashes`. -/
def hashesOf (members : List (Text × JVal)) : List String → Checked (List (Text × Text))
  | [] => .ok []
  | filename :: rest => do
      let digest ← sha256Of (item members filename) ("component hash " ++ filename)
      let more ← hashesOf members rest
      return (text filename, digest) :: more

def componentHashes (value : JVal) : Checked (List (Text × Text)) :=
  match value with
  | .obj members =>
    if (∀ key ∈ componentFilenames, key ∈ members.map Prod.fst) ∧
      (∀ key ∈ members.map Prod.fst, key ∈ componentFilenames)
    then hashesOf members filenames
    else .error "Evidence component hash set is invalid"
  | _ => .error "Evidence component hash set is invalid"

def verificationOf (document : JVal) : Checked VerificationEvidence := do
  let payload ← exactObject document verificationKeys "verification evidence"
  let schema ← integer (item payload "schema_version") "verification schema_version" 1 none
  let _ ← require (schema = schemaVersion) "Verification schema version is unsupported"
  let status ← string (item payload "status") "verification status" 16
  let _ ← require (status = "ok") "Verification status is invalid"
  let utilityVersion ← version (item payload "utility_version") "verification utility_version"
  let id ← backupId (item payload "backup_id")
  let completedAt ← utcTimestamp (item payload "completed_at") "verification completed_at"
  let manifestSha256 ← sha256Of (item payload "manifest_sha256") "verification manifest_sha256"
  let hashes ← componentHashes (item payload "component_hashes")
  let secrets ← parseSecrets (item payload "secret_identities")
  let checks ← safeChecks (item payload "passed_checks") "verification passed_checks"
  return ⟨schema, utilityVersion, id, completedAt, manifestSha256, hashes, secrets, checks, status⟩

def parseVerificationEvidence (raw : Bytes) : Checked VerificationEvidence := do
  let document ← decode raw
  verificationOf document

def rehearsalOf (document : JVal) : Checked RehearsalEvidence := do
  let payload ← exactObject document rehearsalKeys "rehearsal evidence"
  let schema ← integer (item payload "schema_version") "rehearsal schema_version" 1 none
  let _ ← require (schema = schemaVersion) "Rehearsal schema version is unsupported"
  let status ← string (item payload "status") "rehearsal status" 16
  let _ ← require (status = "ok") "Rehearsal status is invalid"
  let utilityVersion ← version (item payload "utility_version") "rehearsal utility_version"
  let id ← backupId (item payload "backup_id")
  let completedAt ← utcTimestamp (item payload "completed_at") "rehearsal completed_at"
  let manifestSha256 ← sha256Of (item payload "manifest_sha256") "rehearsal manifest_sha256"
  let verificationSha256 ← sha256Of (item payload "verification_sha256") "rehearsal verification_sha256"
  let secrets ← parseSecrets (item payload "secret_identities")
  let checks ← safeChecks (item payload "passed_checks") "rehearsal passed_checks"
  return ⟨schema, utilityVersion, id, completedAt, manifestSha256, verificationSha256, secrets, checks, status⟩

def parseRehearsalEvidence (raw : Bytes) : Checked RehearsalEvidence := do
  let document ← decode raw
  rehearsalOf document

end WebOvpn.Backup
