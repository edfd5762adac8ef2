/-
The hardware inventory a booted agent reports: parsing with its limits, the
canonical encoding and the digests taken from it.
-/
import WebOvpn.Install.Common
import WebOvpn.Lib.JsonParse

namespace WebOvpn

def maxCollectionItems : Nat := 16

def maxStringLength : Nat := 256

namespace Text

/-- `[0-9A-Fa-f]{2}(?::[0-9A-Fa-f]{2}){5}`. -/
def isMac (s : Text) : Bool :=
  fullmatch ([CodePoint.isHex, CodePoint.isHex] ++
    (List.replicate 5 (literal ":" ++ [CodePoint.isHex, CodePoint.isHex])).flatten) s

/-- One or more characters of a class after a literal. -/
def isTaggedRun (tag : String) (cls : CodePoint → Bool) (s : Text) : Bool :=
  (text tag).isPrefixOf s && !(s.drop tag.length).isEmpty &&
    (s.drop tag.length).all cls

/-- `/dev/nvme[0-9]+n[0-9]+`. -/
def isNvmePath (s : Text) : Bool :=
  let controller := (s.drop 9).takeWhile CodePoint.isDigit
  let rest := (s.drop 9).dropWhile CodePoint.isDigit
  (text "/dev/nvme").isPrefixOf s && !controller.isEmpty &&
    isTaggedRun "n" CodePoint.isDigit rest

/-- `/dev/(?:sd[a-z]+|vd[a-z]+|nvme[0-9]+n[0-9]+|xvd[a-z]+)`. -/
def isDiskPath (s : Text) : Bool :=
  isTaggedRun "/dev/sd" CodePoint.isLower s ||
    isTaggedRun "/dev/vd" CodePoint.isLower s || isNvmePath s ||
    isTaggedRun "/dev/xvd" CodePoint.isLower s

/-- `/dev/[A-Za-z0-9._-]+`. -/
def isBootMediaPath (s : Text) : Bool :=
  isTaggedRun "/dev/" (fun c => c.isAlnum || decide (c ∈ text "._-")) s

end Text

structure AgentInventory where
  version : Text
  bootId : Text
  buildId : Text
  isoId : Text
  isoSha256 : Text

structure MachineInventory where
  dmiUuid : Text
  manufacturer : Text
  productName : Text
  serialNumber : Text
  firmware : Text
  memoryBytes : Int
  cpuArch : Text

structure InterfaceInventory where
  name : Text
  mac : Text
  addresses : List Text
  routeToController : Bool

structure DiskInventory where
  type : Text
  path : Text
  removable : Bool
  sizeBytes : Int
  model : Text
  serial : Option Text
  wwn : Option Text
  filesystemSignatures : List Text

structure BootMediaInventory where
  path : Text
  model : Text
  serial : Option Text
  wwn : Option Text

structure InstallInventory where
  schemaVersion : Int
  agent : AgentInventory
  machine : MachineInventory
  interfaces : List InterfaceInventory
  disks : List DiskInventory
  bootMedia : BootMediaInventory

/-- `None` or a string. -/
def optionalText : Option Text → JVal
  | none => .null
  | some s => .str s

def texts (items : List Text) : JVal := .arr (items.map .str)

def AgentInventory.toDict (a : AgentInventory) : JVal :=
  .obj [("version", .str a.version), ("boot_id", .str a.bootId),
    ("build_id", .str a.buildId), ("iso_id", .str a.isoId),
    ("iso_sha256", .str a.isoSha256)]

def MachineInventory.toDict (m : MachineInventory) : JVal :=
  .obj [("dmi_uuid", .str m.dmiUuid), ("manufacturer", .str m.manufacturer),
    ("product_name", .str m.productName),
    ("serial_number", .str m.serialNumber),
    ("firmware", .str m.firmware), ("memory_bytes", .int m.memoryBytes),
    ("cpu_arch", .str m.cpuArch)]

def InterfaceInventory.toDict (i : InterfaceInventory) : JVal :=
  .obj [("name", .str i.name), ("mac", .str i.mac), ("addresses", texts i.addresses),
    ("route_to_controller", .bool i.routeToController)]

def DiskInventory.toDict (d : DiskInventory) : JVal :=
  .obj [("type", .str d.type), ("path", .str d.path),
    ("removable", .bool d.removable), ("size_bytes", .int d.sizeBytes),
    ("model", .str d.model), ("serial", optionalText d.serial),
    ("wwn", optionalText d.wwn),
    ("filesystem_signatures", texts d.filesystemSignatures)]

def BootMediaInventory.toDict (b : BootMediaInventory) : JVal :=
  .obj [("path", .str b.path), ("model", .str b.model),
    ("serial", optionalText b.serial), ("wwn", optionalText b.wwn)]

def InstallInventory.toDict (i : InstallInventory) : JVal :=
  .obj [("schema_version", .int i.schemaVersion),
    ("agent", i.agent.toDict), ("machine", i.machine.toDict),
    ("interfaces", .arr (i.interfaces.map InterfaceInventory.toDict)),
    ("disks", .arr (i.disks.map DiskInventory.toDict)),
    ("boot_media", i.bootMedia.toDict)]

def canonicalInventoryBytes (i : InstallInventory) : Bytes :=
  asciiBytes (dumps compact i.toDict)

def DiskInventory.identity (d : DiskInventory) : JVal :=
  .obj [("model", .str d.model), ("path", .str d.path),
    ("serial", optionalText d.serial), ("size_bytes", .int d.sizeBytes),
    ("wwn", optionalText d.wwn)]

def inventorySha256 (sha256 : Bytes → Sha256Hex) (i : InstallInventory) : Text :=
  (sha256 (canonicalInventoryBytes i)).val

def diskFingerprint (sha256 : Bytes → Sha256Hex) (d : DiskInventory) : Text :=
  text "sha256:" ++ (sha256 (asciiBytes (dumps compact d.identity))).val

namespace Inventory

def mapping (value : JVal) (name : String) : Except Exc Members :=
  match value with
  | .obj members => .ok members
  | _ => .error (.value "inventory_type_invalid" (name ++ " must be an object"))

def requireFields (members : Members) (expected : List String) (name : String) : Except Exc Unit := do
  raiseWhen (∃ m ∈ members, m.1 ∉ expected.map text)
    (.value "inventory_unknown_field" (name ++ " has unknown fields"))
  raiseWhen (∃ key ∈ expected, memberOf members key = none)
    (.value "inventory_missing_field" (name ++ " has missing fields"))

def boundedList (value : JVal) (name : String) : Except Exc (List JVal) :=
  match value with
  | .arr items =>
    if maxCollectionItems < items.length then
      .error (.value "inventory_limit_exceeded" (name ++ " has too many values"))
    else .ok items
  | _ => .error (.value "inventory_type_invalid" (name ++ " must be an array"))

def string (value : JVal) (name : String) : Except Exc Text :=
  match value with
  | .str s =>
    if s = [] ∨ maxStringLength < s.length then
      .error (.value "inventory_value_invalid" (name ++ " has invalid length"))
    else .ok s
  | _ => .error (.value "inventory_type_invalid" (name ++ " must be a string"))

def optionalString (value : JVal) (name : String) : Except Exc (Option Text) :=
  match value with
  | .null => .ok none
  | value => (string value name).map some

def positiveInt (value : JVal) (name : String) : Except Exc Int :=
  match value with
  | .int n =>
    if n ≤ 0 ∨ 2 ^ 63 - 1 < n then
      .error (.value "inventory_value_invalid" (name ++ " is out of range"))
    else .ok n
  | _ => .error (.value "inventory_type_invalid" (name ++ " must be an integer"))

def boolean (value : JVal) (name : String) : Except Exc Bool :=
  match value with
  | .bool b => .ok b
  | _ => .error (.value "inventory_type_invalid" (name ++ " must be boolean"))

/-- The comprehension `tuple(parse(value) for value in values)`. -/
def each {α : Type} (parse : JVal → Except Exc α) : List JVal → Except Exc (List α)
  | [] => .ok []
  | v :: rest => do
      let a ← parse v
      let as ← each parse rest
      return a :: as

def agentFields : List String :=
  ["version", "boot_id", "build_id", "iso_id", "iso_sha256"]

def parseAgent (value : JVal) : Except Exc AgentInventory := do
  let raw ← mapping value "agent"
  requireFields raw agentFields "agent"
  let isoSha256 ← string (raw.field "iso_sha256") "agent.iso_sha256"
  raiseWhen (isoSha256.isSha256 = false)
    (.value "inventory_value_invalid" "agent.iso_sha256 must be SHA-256")
  let version ← string (raw.field "version") "agent.version"
  let bootId ← string (raw.field "boot_id") "agent.boot_id"
  let buildId ← string (raw.field "build_id") "agent.build_id"
  let isoId ← string (raw.field "iso_id") "agent.iso_id"
  return { version, bootId, buildId, isoId, isoSha256 }

def machineFields : List String :=
  ["dmi_uuid", "manufacturer", "product_name", "serial_number", "firmware", "memory_bytes", "cpu_arch"]

def parseMachine (value : JVal) : Except Exc MachineInventory := do
  let raw ← mapping value "machine"
  requireFields raw machineFields "machine"
  let firmware ← string (raw.field "firmware") "machine.firmware"
  raiseWhen (firmware ≠ "uefi" ∧ firmware ≠ "bios")
    (.value "inventory_value_invalid" "machine.firmware is invalid")
  let dmiUuid ← string (raw.field "dmi_uuid") "machine.dmi_uuid"
  let manufacturer ← string (raw.field "manufacturer") "machine.manufacturer"
  let productName ← string (raw.field "product_name") "machine.product_name"
  let serialNumber ← string (raw.field "serial_number") "machine.serial_number"
  let memoryBytes ← positiveInt (raw.field "memory_bytes") "machine.memory_bytes"
  let cpuArch ← string (raw.field "cpu_arch") "machine.cpu_arch"
  return { dmiUuid, manufacturer, productName, serialNumber, firmware, memoryBytes, cpuArch }

def interfaceFields : List String :=
  ["name", "mac", "addresses", "route_to_controller"]

def parseInterface (value : JVal) : Except Exc InterfaceInventory := do
  let raw ← mapping value "interface"
  requireFields raw interfaceFields "interface"
  let mac ← string (raw.field "mac") "interface.mac"
  raiseWhen (mac.isMac = false)
    (.value "inventory_value_invalid" "interface.mac is invalid")
  let routeToController ←
    boolean (raw.field "route_to_controller") "interface.route_to_controller"
  let name ← string (raw.field "name") "interface.name"
  let items ← boundedList (raw.field "addresses") "interface.addresses"
  let addresses ← each (string · "interface.addresses[]") items
  return { name, mac := mac.lower, addresses, routeToController }

def diskFields : List String :=
  ["type", "path", "removable", "size_bytes", "model", "serial", "wwn", "filesystem_signatures"]

def parseDisk (value : JVal) : Except Exc DiskInventory := do
  let raw ← mapping value "disk"
  requireFields raw diskFields "disk"
  let path ← string (raw.field "path") "disk.path"
  raiseWhen (path.isDiskPath = false)
    (.value "inventory_value_invalid" "disk.path is unsafe")
  let removable ← boolean (raw.field "removable") "disk.removable"
  let type ← string (raw.field "type") "disk.type"
  let sizeBytes ← positiveInt (raw.field "size_bytes") "disk.size_bytes"
  let model ← string (raw.field "model") "disk.model"
  let serial ← optionalString (raw.field "serial") "disk.serial"
  let wwn ← optionalString (raw.field "wwn") "disk.wwn"
  let items ← boundedList (raw.field "filesystem_signatures")
    "disk.filesystem_signatures"
  let filesystemSignatures ← each (string · "disk.filesystem_signatures[]") items
  return { type, path, removable, sizeBytes, model, serial, wwn, filesystemSignatures }

def bootMediaFields : List String := ["path", "model", "serial", "wwn"]

def parseBootMedia (value : JVal) : Except Exc BootMediaInventory := do
  let raw ← mapping value "boot_media"
  requireFields raw bootMediaFields "boot_media"
  let path ← string (raw.field "path") "boot_media.path"
  raiseWhen (path.isBootMediaPath = false)
    (.value "inventory_value_invalid" "boot_media.path is invalid")
  let model ← string (raw.field "model") "boot_media.model"
  let serial ← optionalString (raw.field "serial") "boot_media.serial"
  let wwn ← optionalString (raw.field "wwn") "boot_media.wwn"
  return { path, model, serial, wwn }

def rootFields : List String :=
  ["schema_version", "agent", "machine", "interfaces", "disks", "boot_media"]

end Inventory

open Inventory in
def parseInventory (payload : JVal) : Except Exc InstallInventory := do
  let root ← mapping payload "inventory"
  raiseWhen (memberOf root "schema_version" = none)
    (.value "inventory_missing_field" "schema_version is required")
  let version ← positiveInt (root.field "schema_version") "schema_version"
  raiseWhen (version ≠ 1)
    (.value "inventory_schema_unsupported" "schema_version must be 1")
  requireFields root rootFields "inventory"
  let agent ← parseAgent (root.field "agent")
  let machine ← parseMachine (root.field "machine")
  let interfaceItems ← boundedList (root.field "interfaces") "interfaces"
  let interfaces ← each parseInterface interfaceItems
  let diskItems ← boundedList (root.field "disks") "disks"
  let disks ← each parseDisk diskItems
  let bootMedia ← parseBootMedia (root.field "boot_media")
  return { schemaVersion := version, agent, machine, interfaces, disks, bootMedia }

end WebOvpn
