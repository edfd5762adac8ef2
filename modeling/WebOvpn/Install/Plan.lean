/-
The release profile and its policy, and the install plan: what an approval fixes, its checks
and its canonical bytes.
-/
import WebOvpn.Install.Inventory

namespace WebOvpn

structure InstallProfile where
  profileId : Text
  profileVersion : Int
  targetRelease : Text
  isoId : Text
  isoSha256 : Text
  firmware : Text
  architecture : Text
  network : Text
  minimumDiskBytes : Int
  wipeMode : Text
  filesystem : Text
  swapMib : Int
  btrfsMinimumMib : Int
  grow : Bool
  subvolumes : List (Text × Text)
  packageSet : Text

structure PolicyEvaluation where
  profile : InstallProfile
  eligibleDisk : DiskInventory
  routeInterface : InterfaceInventory

structure ProfileFile where
  name : String
  content : Option Bytes

namespace Policy

def profileInvalid (message : String) : Exc := .value "profile_invalid" message

def object (value : JVal) (name : String) : Except Exc Members :=
  match value with
  | .obj members => .ok members
  | _ => .error (profileInvalid (name ++ " must be an object"))

def requireFields (members : Members) (expected : List String) : Except Exc Unit :=
  raiseWhen ((∃ m ∈ members, m.1 ∉ expected.map text) ∨ ∃ key ∈ expected, memberOf members key = none)
    (profileInvalid "profile fields are invalid")

def string (value : JVal) (name : String) : Except Exc Text :=
  match value with
  | .str s =>
    if s = [] ∨ 256 < s.length then
      .error (profileInvalid (name ++ " must be a bounded string"))
    else .ok s
  | _ => .error (profileInvalid (name ++ " must be a bounded string"))

def positiveInt (value : JVal) (name : String) : Except Exc Int :=
  match value with
  | .int n =>
    if n ≤ 0 then .error (profileInvalid (name ++ " must be a positive integer"))
    else .ok n
  | _ => .error (profileInvalid (name ++ " must be a positive integer"))

def boolean (value : JVal) (name : String) : Except Exc Bool :=
  match value with
  | .bool b => .ok b
  | _ => .error (profileInvalid (name ++ " must be boolean"))

def standardSubvolumes : List (Text × Text) :=
  [("@", "/"), ("@home", "/home")]

def isStandardOffice (profile : InstallProfile) (disk layout : Members) : Bool :=
  profile.profileId == "standard-office" && profile.profileVersion == 1 &&
    profile.targetRelease == "ALT KWorkstation 11.4" &&
    profile.firmware == "uefi" && profile.architecture == "x86_64" &&
    profile.network == "dhcp" &&
    disk.field "mode" == .str "exactly_one_eligible_internal" &&
    profile.minimumDiskBytes == 53687091200 &&
    profile.wipeMode == "whole_disk" && profile.filesystem == "btrfs" &&
    profile.swapMib == 4096 && profile.btrfsMinimumMib == 40960 && profile.grow &&
    layout.field "encryption" == .str "none" &&
    layout.field "raid" == .str "none" &&
    layout.field "lvm" == .str "none" &&
    profile.packageSet == "standard-office-v1"

/-- `dict(subvolumes) != {"@": "/", "@home": "/home"}`. -/
def hasStandardSubvolumes (subvolumes : Members) : Bool :=
  subvolumes.all (fun m => decide (m.1 ∈ [text "@", text "@home"])) &&
    memberOf subvolumes "@" == some (.str "/") &&
    memberOf subvolumes "@home" == some (.str "/home")

def profileFields : List String :=
  ["profile_id", "profile_version", "target_release", "iso", "firmware",
    "architecture", "network", "disk", "layout", "package_set"]

def layoutFields : List String :=
  ["filesystem", "swap_mib", "btrfs_minimum_mib", "grow", "subvolumes", "encryption", "raid", "lvm"]

def readProfile (file : ProfileFile) : Except Exc JVal :=
  match file.content with
  | none => .error (profileInvalid ("cannot read profile " ++ file.name))
  | some raw =>
    match loads raw with
    | .ok v => .ok v
    | .error .malformed =>
      .error (profileInvalid ("cannot read profile " ++ file.name))
    | .error _ => .error (.value "ValueError" "profile document cannot be decoded")

def parseProfile (file : ProfileFile) : Except Exc InstallProfile := do
  let document ← readProfile file
  let raw ← object document "profile"
  requireFields raw profileFields
  let iso ← object (raw.field "iso") "iso"
  let disk ← object (raw.field "disk") "disk"
  let layout ← object (raw.field "layout") "layout"
  requireFields iso ["id", "sha256"]
  requireFields disk ["mode", "minimum_bytes", "wipe_mode"]
  requireFields layout layoutFields
  let subvolumes ← object (layout.field "subvolumes") "subvolumes"
  raiseWhen (hasStandardSubvolumes subvolumes = false)
    (profileInvalid "profile subvolumes are invalid")
  let isoSha256 ← string (iso.field "sha256") "iso.sha256"
  raiseWhen (isoSha256.isSha256 = false)
    (profileInvalid "profile ISO hash is invalid")
  let profileId ← string (raw.field "profile_id") "profile_id"
  let profileVersion ← positiveInt (raw.field "profile_version") "profile_version"
  let targetRelease ← string (raw.field "target_release") "target_release"
  let isoId ← string (iso.field "id") "iso.id"
  let firmware ← string (raw.field "firmware") "firmware"
  let architecture ← string (raw.field "architecture") "architecture"
  let network ← string (raw.field "network") "network"
  let minimumDiskBytes ←
    positiveInt (disk.field "minimum_bytes") "disk.minimum_bytes"
  let wipeMode ← string (disk.field "wipe_mode") "disk.wipe_mode"
  let filesystem ← string (layout.field "filesystem") "layout.filesystem"
  let swapMib ← positiveInt (layout.field "swap_mib") "layout.swap_mib"
  let btrfsMinimumMib ←
    positiveInt (layout.field "btrfs_minimum_mib") "layout.btrfs_minimum_mib"
  let grow ← boolean (layout.field "grow") "layout.grow"
  let packageSet ← string (raw.field "package_set") "package_set"
  let profile : InstallProfile :=
    { profileId, profileVersion, targetRelease, isoId, isoSha256, firmware,
      architecture, network, minimumDiskBytes, wipeMode, filesystem, swapMib,
      btrfsMinimumMib, grow, subvolumes := standardSubvolumes, packageSet }
  raiseWhen (isStandardOffice profile disk layout = false)
    (profileInvalid "profile differs from standard-office-v1")
  return profile

def parseProfiles : List ProfileFile → Except Exc (List InstallProfile)
  | [] => .ok []
  | file :: rest => do
      let profile ← parseProfile file
      let profiles ← parseProfiles rest
      return profile :: profiles

/-- The one disk that is internal, is not the installation medium and is large
enough; every physical disk must pass the first two checks. -/
def eligibleDisk (inventory : InstallInventory)
    (profile : InstallProfile) : Except Exc DiskInventory := do
  let physicalDisks := inventory.disks.filter fun d => d.type == text "disk"
  raiseWhen (physicalDisks = [])
    (.value "disk_missing" "no internal disk was reported")
  checkPhysical physicalDisks
  let large := physicalDisks.filter fun d => profile.minimumDiskBytes ≤ d.sizeBytes
  match large with
  | [] => .error (.value "disk_too_small" "disk is smaller than policy minimum")
  | [disk] => .ok disk
  | _ => .error (.value "disk_ambiguous" "exactly one eligible disk is required")
where
  checkPhysical : List DiskInventory → Except Exc Unit
    | [] => .ok ()
    | disk :: rest => do
        raiseWhen (disk.path = inventory.bootMedia.path)
          (.value "disk_is_boot_media" "installation medium cannot be selected")
        raiseWhen (disk.removable = true)
          (.value "disk_removable" "removable disk cannot be selected")
        checkPhysical rest

def routeInterface (inventory : InstallInventory) : Except Exc InterfaceInventory :=
  match inventory.interfaces.filter InterfaceInventory.routeToController with
  | [] =>
    .error (.value "network_missing"
      "no route-to-controller interface was reported")
  | [interface] => .ok interface
  | _ =>
    .error (.value "network_ambiguous"
      "exactly one route-to-controller interface is required")

end Policy

open Policy in
def loadProfile (files : List ProfileFile) (profileId : Text) (profileVersion : Int) :
    Except Exc InstallProfile := do
  let profiles ← parseProfiles files
  let matching := profiles.filter fun p => p.profileId == profileId
  raiseWhen (matching = [])
    (.value "unknown_profile" "profile identifier is not available")
  match matching.find? fun p => p.profileVersion == profileVersion with
  | some profile => .ok profile
  | none =>
    .error (.value "unsupported_profile_version" "profile version is not available")

open Policy in
def evaluatePolicy (inventory : InstallInventory) (profile : InstallProfile) :
    Except Exc PolicyEvaluation := do
  raiseWhen (inventory.agent.isoId ≠ profile.isoId)
    (.value "iso_id_mismatch" "inventory ISO identifier differs from policy")
  raiseWhen (inventory.agent.isoSha256 ≠ profile.isoSha256)
    (.value "iso_sha256_mismatch" "inventory ISO hash differs from policy")
  raiseWhen (inventory.machine.firmware ≠ profile.firmware)
    (.value "unsupported_firmware" "policy requires UEFI firmware")
  raiseWhen (inventory.machine.cpuArch ≠ profile.architecture)
    (.value "unsupported_architecture" "policy requires x86_64")
  let disk ← eligibleDisk inventory profile
  let interface ← routeInterface inventory
  return { profile, eligibleDisk := disk, routeInterface := interface }

structure OperatorSelection where
  diskPath : Text
  diskFingerprint : Text
  interfaceName : Text
  interfaceMac : Text

structure PlanRequest where
  sessionId : Text
  revision : Int
  temporaryHostname : Text
  approvedAt : Text
  expiresAt : Text

structure TargetDisk where
  path : Text
  sizeBytes : Int
  model : Text
  serial : Option Text
  wwn : Option Text
  fingerprint : Text

structure NetworkInterface where
  name : Text
  mac : Text

structure DiskLayout where
  wipeMode : Text
  swapMib : Int
  filesystem : Text
  btrfsMinimumMib : Int
  grow : Bool
  subvolumes : List (Text × Text)

structure InstallPlan where
  schemaVersion : Int
  sessionId : Text
  revision : Int
  inventorySha256 : Text
  profileId : Text
  profileVersion : Int
  isoId : Text
  isoSha256 : Text
  firmware : Text
  targetDisk : TargetDisk
  networkInterface : NetworkInterface
  diskLayout : DiskLayout
  packageSet : Text
  temporaryHostname : Text
  approvedAt : Text
  expiresAt : Text

def TargetDisk.toDict (d : TargetDisk) : JVal :=
  .obj [("path", .str d.path), ("size_bytes", .int d.sizeBytes),
    ("model", .str d.model), ("serial", optionalText d.serial),
    ("wwn", optionalText d.wwn), ("fingerprint", .str d.fingerprint)]

def NetworkInterface.toDict (n : NetworkInterface) : JVal :=
  .obj [("name", .str n.name), ("mac", .str n.mac)]

def DiskLayout.toDict (l : DiskLayout) : JVal :=
  .obj [("wipe_mode", .str l.wipeMode), ("swap_mib", .int l.swapMib),
    ("filesystem", .str l.filesystem),
    ("btrfs_minimum_mib", .int l.btrfsMinimumMib), ("grow", .bool l.grow),
    ("subvolumes", .obj (l.subvolumes.map fun (k, v) => (k, .str v)))]

def InstallPlan.toDict (p : InstallPlan) : JVal :=
  .obj [("schema_version", .int p.schemaVersion),
    ("session_id", .str p.sessionId), ("revision", .int p.revision),
    ("inventory_sha256", .str p.inventorySha256),
    ("profile_id", .str p.profileId),
    ("profile_version", .int p.profileVersion), ("iso_id", .str p.isoId),
    ("iso_sha256", .str p.isoSha256), ("firmware", .str p.firmware),
    ("target_disk", p.targetDisk.toDict),
    ("network_interface", p.networkInterface.toDict),
    ("disk_layout", p.diskLayout.toDict),
    ("package_set", .str p.packageSet),
    ("temporary_hostname", .str p.temporaryHostname),
    ("approved_at", .str p.approvedAt), ("expires_at", .str p.expiresAt)]

def canonicalPlanBytes (p : InstallPlan) : Bytes :=
  asciiBytes (dumps compact p.toDict)

namespace Plan

/-- `install-[A-Za-z0-9-]{4,64}`. -/
def isSession : Text → Bool :=
  Text.isTagged "install-" (fun c => c.isAlnum || c == '-') 4 64

/-- `alt-install-[a-z0-9-]{1,63}`. -/
def isHostname : Text → Bool :=
  Text.isTagged "alt-install-"
    (fun c => c.isDigit || c.isLower || c == '-') 1 63

/-- `_timestamp`: an aware time, as microseconds in UTC. -/
def timestamp (value : Text) : Except Exc Int :=
  match fromisoformat value with
  | none => .error (.value "plan_timestamp_invalid" "timestamp must be ISO-8601")
  | some d =>
    match d.offset with
    | none => .error (.value "plan_timestamp_invalid" "timestamp must include timezone")
    | some offset => .ok (d.utcMicros offset)

def validateRequest (request : PlanRequest) : Except Exc Unit := do
  raiseWhen (isSession request.sessionId = false)
    (.value "plan_value_invalid" "session identifier is invalid")
  raiseWhen (request.revision ≤ 0)
    (.value "plan_value_invalid" "revision must be positive")
  raiseWhen (isHostname request.temporaryHostname = false)
    (.value "plan_value_invalid" "temporary hostname is invalid")
  let approvedAt ← timestamp request.approvedAt
  let expiresAt ← timestamp request.expiresAt
  raiseWhen (expiresAt ≤ approvedAt)
    (.value "plan_expiry_invalid" "expiry must be later than approval")

def validateSelection (sha256 : Bytes → Sha256Hex) (evaluation : PolicyEvaluation)
    (selection : OperatorSelection) : Except Exc Unit := do
  raiseWhen (selection.diskPath ≠ evaluation.eligibleDisk.path ∨
      selection.diskFingerprint ≠ diskFingerprint sha256 evaluation.eligibleDisk)
    (.value "selection_disk_mismatch" "selected disk differs from policy candidate")
  raiseWhen (selection.interfaceName ≠ evaluation.routeInterface.name ∨
      selection.interfaceMac ≠ evaluation.routeInterface.mac)
    (.value "selection_interface_mismatch"
      "selected interface differs from policy candidate")

end Plan

open Plan in
def buildInstallPlan (sha256 : Bytes → Sha256Hex) (inventory : InstallInventory)
    (profile : InstallProfile) (evaluation : PolicyEvaluation)
    (selection : OperatorSelection) (request : PlanRequest) : Except Exc InstallPlan := do
  validateRequest request
  validateSelection sha256 evaluation selection
  let disk := evaluation.eligibleDisk
  return {
    schemaVersion := 1
    sessionId := request.sessionId
    revision := request.revision
    inventorySha256 := inventorySha256 sha256 inventory
    profileId := profile.profileId
    profileVersion := profile.profileVersion
    isoId := profile.isoId
    isoSha256 := profile.isoSha256
    firmware := profile.firmware
    targetDisk := {
      path := disk.path, sizeBytes := disk.sizeBytes, model := disk.model,
      serial := disk.serial, wwn := disk.wwn,
      fingerprint := diskFingerprint sha256 disk }
    networkInterface := {
      name := evaluation.routeInterface.name, mac := evaluation.routeInterface.mac }
    diskLayout := {
      wipeMode := profile.wipeMode, swapMib := profile.swapMib,
      filesystem := profile.filesystem, btrfsMinimumMib := profile.btrfsMinimumMib,
      grow := profile.grow, subvolumes := profile.subvolumes }
    packageSet := profile.packageSet
    temporaryHostname := request.temporaryHostname
    approvedAt := request.approvedAt
    expiresAt := request.expiresAt }

end WebOvpn
