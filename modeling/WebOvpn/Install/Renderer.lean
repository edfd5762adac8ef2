/-
The execution renderer: reading back a published plan, and filling the
installer templates from it.
-/
import WebOvpn.Install.Plan
import WebOvpn.Lib.JsonText

namespace WebOvpn

structure RendererSecrets where
  rootYescryptHash : Text
  adminYescryptHash : Text

namespace Renderer

def planInvalid : Exc := .value "plan_invalid" "execution plan is invalid"

/-- `^alt-install-[a-z0-9-]{1,63}$`. -/
def isHostname : Text → Bool := Plan.isHostname

/-- `^[A-Za-z0-9_.:-]{1,64}$`. -/
def isInterface (s : Text) : Bool :=
  1 ≤ s.length && s.length ≤ 64 &&
    s.all fun c => c.isAlnum || decide (c ∈ text "_.:-")

/-- `^(?:[0-9a-f]{2}:){5}[0-9a-f]{2}$`. -/
def isMac (s : Text) : Bool :=
  Text.fullmatch
    ((List.replicate 5
      ([CodePoint.isLowerHex, CodePoint.isLowerHex] ++ Text.literal ":")).flatten ++
      [CodePoint.isLowerHex, CodePoint.isLowerHex]) s

def planString (value : JVal) (pattern : Text → Bool) (maximum : Nat) : Except Exc Text :=
  match value with
  | .str s =>
    if (1 ≤ s.length ∧ s.length ≤ maximum) ∧ pattern s then .ok s
    else .error planInvalid
  | _ => .error planInvalid

def anyText : Text → Bool := fun _ => true

def planTimestamp (value : JVal) : Except Exc (Text × Int) := do
  let s ← planString value anyText 64
  match fromisoformat s with
  | none => .error planInvalid
  | some d =>
    match d.offset with
    | none => .error planInvalid
    | some offset => .ok (s, d.utcMicros offset)

def planInt (value : JVal) (least : Int) : Except Exc Int :=
  match value with
  | .int n => if n < least then .error planInvalid else .ok n
  | _ => .error planInvalid

/-- `None`, or a string of at most 128 characters. -/
def planOptional (value : JVal) : Except Exc (Option Text) :=
  match value with
  | .null => .ok none
  | .str s => if 128 < s.length then .error planInvalid else .ok (some s)
  | _ => .error planInvalid

def planMapping (value : JVal) (expected : List String) : Except Exc Members :=
  match value with
  | .obj members =>
    if (∀ m ∈ members, m.1 ∈ expected.map text) ∧
        ∀ key ∈ expected, memberOf members key ≠ none then .ok members
    else .error planInvalid
  | _ => .error planInvalid

def planFields : List String :=
  ["schema_version", "session_id", "revision", "inventory_sha256", "profile_id",
    "profile_version", "iso_id", "iso_sha256", "firmware", "target_disk",
    "network_interface", "disk_layout", "package_set", "temporary_hostname",
    "approved_at", "expires_at"]

def targetFields : List String :=
  ["path", "size_bytes", "model", "serial", "wwn", "fingerprint"]

def layoutFields : List String :=
  ["wipe_mode", "swap_mib", "filesystem", "btrfs_minimum_mib", "grow", "subvolumes"]

def planBool (value : JVal) : Except Exc Bool :=
  match value with
  | .bool b => .ok b
  | _ => .error planInvalid

/-- The plan of a decoded document.  Every failure is the same error, so the
order of the checks is that of the fields read. -/
def planOfPayload (payload : JVal) : Except Exc InstallPlan := do
  let root ← planMapping payload planFields
  let target ← planMapping (root.field "target_disk") targetFields
  let network ← planMapping (root.field "network_interface") ["name", "mac"]
  let layout ← planMapping (root.field "disk_layout") layoutFields
  let subvolumes ← planMapping (layout.field "subvolumes") ["@", "@home"]
  raiseWhen (subvolumes.field "@" ≠ .str "/" ∨
    subvolumes.field "@home" ≠ .str "/home") planInvalid
  raiseWhen (root.field "schema_version" ≠ .int 1 ∨ root.field "revision" ≠ .int 1) planInvalid
  let profileVersion ← planInt (root.field "profile_version") 1
  let sizeBytes ← planInt (target.field "size_bytes") 1
  let swapMib ← planInt (layout.field "swap_mib") 0
  let btrfsMinimumMib ← planInt (layout.field "btrfs_minimum_mib") 1
  let grow ← planBool (layout.field "grow")
  raiseWhen (layout.field "wipe_mode" ≠ .str "whole_disk" ∨
    layout.field "filesystem" ≠ .str "btrfs" ∨
    root.field "firmware" ≠ .str "uefi") planInvalid
  let serial ← planOptional (target.field "serial")
  let wwn ← planOptional (target.field "wwn")
  let (approvedAt, approved) ← planTimestamp (root.field "approved_at")
  let (expiresAt, expires) ← planTimestamp (root.field "expires_at")
  raiseWhen (expires ≤ approved) planInvalid
  let sessionId ← planString (root.field "session_id") Text.isSessionId 256
  let inventorySha256 ←
    planString (root.field "inventory_sha256") Text.isSha256 256
  let profileId ← planString (root.field "profile_id") Text.isIdentifier 256
  let isoId ← planString (root.field "iso_id") Text.isIdentifier 256
  let isoSha256 ← planString (root.field "iso_sha256") Text.isSha256 256
  let path ← planString (target.field "path") Text.isDevice 256
  let model ← planString (target.field "model") anyText 128
  let fingerprint ← planString (target.field "fingerprint") Text.isFingerprint 256
  let name ← planString (network.field "name") isInterface 256
  let mac ← planString (network.field "mac") isMac 256
  let packageSet ← planString (root.field "package_set") Text.isIdentifier 256
  let temporaryHostname ←
    planString (root.field "temporary_hostname") isHostname 256
  return {
    schemaVersion := 1, sessionId, revision := 1, inventorySha256, profileId
    profileVersion, isoId, isoSha256, firmware := "uefi"
    targetDisk := { path, sizeBytes, model, serial, wwn, fingerprint }
    networkInterface := { name, mac }
    diskLayout := {
      wipeMode := "whole_disk", swapMib, filesystem := "btrfs"
      btrfsMinimumMib, grow, subvolumes := Policy.standardSubvolumes }
    packageSet, temporaryHostname, approvedAt, expiresAt }

def maxPlanBytes : Nat := 1024 * 1024

end Renderer

open Renderer in
def parseExecutionPlanBytes (raw : Bytes) : Except Exc InstallPlan := do
  raiseWhen (raw.length < 1 ∨ maxPlanBytes < raw.length) planInvalid
  match strictLoads raw with
  | .error _ => .error planInvalid
  | .ok payload => do
      let plan ← planOfPayload payload
      raiseWhen (canonicalPlanBytes plan ≠ raw)
        (.value "plan_invalid" "execution plan is not canonical")
      return plan

namespace Renderer

/-- `\$y\$[A-Za-z0-9./$=+-]{12,256}`. -/
def isSecret : Text → Bool :=
  Text.isTagged "$y$" (fun c => c.isAlnum || decide (c ∈ text "./$=+-")) 12 256

def validateSecret (value : Text) : Except Exc Unit :=
  raiseWhen (isSecret value = false)
    (.value "secret_invalid" "yescrypt secret has invalid format")

/-- A piece of a `string.Template`. -/
inductive Piece where
  | text (content : Text)
  | name (identifier : Text)
  | invalid

/-- `[_a-zA-Z]`. -/
def isIdentifierStart (c : CodePoint) : Bool :=
  c.isLower || c.isUpper || c == '_'

def isIdentifierChar (c : CodePoint) : Bool := isIdentifierStart c || c.isDigit

/-- The pieces of a template: `$$`, `$name`, `${name}` and plain text.  Fuel is
the length of the source. -/
def pieces : Nat → Text → List Piece
  | 0, _ => []
  | _ + 1, [] => []
  | fuel + 1, c :: rest =>
    if c ≠ '$' then .text [c] :: pieces fuel rest
    else
      match rest with
      | [] => [.invalid]
      | d :: after =>
        if d = '$' then .text [d] :: pieces fuel after
        else if isIdentifierStart d then
          .name (rest.takeWhile isIdentifierChar) ::
            pieces fuel (rest.dropWhile isIdentifierChar)
        else if d = '{' ∧ after.head?.any isIdentifierStart ∧
            (after.dropWhile isIdentifierChar).head? = some (CodePoint.ofChar '}') then
          .name (after.takeWhile isIdentifierChar) ::
            pieces fuel (after.dropWhile isIdentifierChar).tail
        else .invalid :: pieces fuel rest

def identifiers (source : Text) : List Text :=
  (pieces source.length source).filterMap fun
    | .name identifier => some identifier
    | _ => none

def substitute (values : List (Text × Text)) : List Piece → Except Exc Text
  | [] => .ok []
  | .text content :: rest => (substitute values rest).map (content ++ ·)
  | .name identifier :: rest =>
    match values.lookup identifier with
    | none => .error .key
    | some value => (substitute values rest).map (value ++ ·)
  | .invalid :: _ => .error (.value "ValueError" "Invalid placeholder in string")

structure TemplateFile where
  name : String
  source : Option Text

def renderTemplate (file : TemplateFile) (values : List (Text × Text))
    (expected : List String) : Except Exc Text :=
  match file.source with
  | none => .error (.value "template_missing" ("template " ++ file.name ++ " is unavailable"))
  | some source =>
    if (∃ i ∈ identifiers source, i ∉ expected.map text) ∨ ∃ i ∈ expected, text i ∉ identifiers source then
      .error (.value "template_invalid"
        ("template " ++ file.name ++ " has unexpected placeholders"))
    else
      match substitute values (pieces source.length source) with
      | .error _ =>
        .error (.value "template_invalid" ("template " ++ file.name ++ " is invalid"))
      | .ok rendered =>
        if rendered.getLast? = some (CodePoint.ofChar '\n') then .ok rendered
        else .ok (rendered ++ "\n")

/-- `value.replace("\\", "\\\\").replace('"', '\\"')`. -/
def schemeString (value : Text) : Text :=
  value.flatMap fun c =>
    if c = CodePoint.ofChar '\\' then "\\\\"
    else if c = CodePoint.ofChar '"' then "\\\""
    else [c]

/-- `str` of an integer. -/
def decimal (n : Int) : Text := (encodeInt n).map CodePoint.ofChar

def substitutions (plan : InstallPlan) (secrets : RendererSecrets) : List (Text × Text) :=
  [("network_name", schemeString plan.networkInterface.name),
    ("temporary_hostname", schemeString plan.temporaryHostname),
    ("root_yescrypt_hash", schemeString secrets.rootYescryptHash),
    ("admin_yescrypt_hash", schemeString secrets.adminYescryptHash),
    ("swap_kib", decimal (plan.diskLayout.swapMib * 1024)),
    ("btrfs_minimum_kib", decimal (plan.diskLayout.btrfsMinimumMib * 1024))]

def encodeUtf8 (s : Text) : Except Exc Bytes :=
  if s.any CodePoint.isSurrogate then
    .error (.value "ValueError" "surrogates not allowed")
  else .ok (s.flatMap utf8Of)

end Renderer

open Renderer in
/-- `render_install_bundle`: `autoinstall.scm` and `vm-profile.scm`.  Its
checksum file is left out, since authorization does not use it. -/
def renderInstallBundle (autoinstall vmProfile : TemplateFile) (plan : InstallPlan)
    (secrets : RendererSecrets) : Except Exc (Bytes × Bytes) := do
  validateSecret secrets.rootYescryptHash
  validateSecret secrets.adminYescryptHash
  let values := substitutions plan secrets
  let first ← renderTemplate autoinstall values
    ["admin_yescrypt_hash", "network_name", "root_yescrypt_hash", "temporary_hostname"]
  let autoinstallBytes ← encodeUtf8 first
  let second ← renderTemplate vmProfile values ["btrfs_minimum_kib", "swap_kib"]
  let vmProfileBytes ← encodeUtf8 second
  return (autoinstallBytes, vmProfileBytes)

end WebOvpn
