/-
The signed execution manifest: building it from a plan, its canonical bytes,
its strict reader and the detached signature document.
-/
import WebOvpn.Install.Renderer
import WebOvpn.Lib.Codes

namespace WebOvpn

/-- The cryptographic primitives of the two programs. -/
structure Crypto where
  sha256 : Bytes → Sha256Hex
  publicKey : Bytes → Bytes
  sign : Bytes → Bytes → Bytes
  verify : Bytes → Bytes → Bytes → Bool

def Crypto.keyId (c : Crypto) (publicKey : Bytes) : Text :=
  text "sha256:" ++ (c.sha256 publicKey).val

def valueError (message : String) : Exc := .value "ValueError" message

structure ArtifactMetadata where
  sha256 : Text
  sizeBytes : Int

structure ArtifactSet (α : Type) where
  autoinstall : α
  vmProfile : α
  pkgGroups : α
  installScripts : α
deriving DecidableEq

structure ExecutionManifest where
  schemaVersion : Int
  sessionId : Text
  planSha256 : Text
  inventorySha256 : Text
  profileId : Text
  profileVersion : Int
  isoId : Text
  isoSha256 : Text
  targetDisk : Text
  diskFingerprint : Text
  authorizedAt : Text
  expiresAt : Text
  artifacts : ArtifactSet ArtifactMetadata

def artifactNames : List String :=
  ["autoinstall.scm", "vm-profile.scm", "pkg-groups.tar", "install-scripts.tar"]

def ArtifactMetadata.toDict (m : ArtifactMetadata) : JVal :=
  .obj [("sha256", .str m.sha256), ("size_bytes", .int m.sizeBytes)]

def ExecutionManifest.toMembers (m : ExecutionManifest) : Members :=
  [("schema_version", .int m.schemaVersion), ("session_id", .str m.sessionId),
    ("plan_sha256", .str m.planSha256),
    ("inventory_sha256", .str m.inventorySha256),
    ("profile_id", .str m.profileId),
    ("profile_version", .int m.profileVersion), ("iso_id", .str m.isoId),
    ("iso_sha256", .str m.isoSha256),
    ("target_disk", .obj [("path", .str m.targetDisk),
      ("fingerprint", .str m.diskFingerprint)]),
    ("authorized_at", .str m.authorizedAt),
    ("expires_at", .str m.expiresAt),
    ("artifacts", .obj [("autoinstall.scm", m.artifacts.autoinstall.toDict),
      ("vm-profile.scm", m.artifacts.vmProfile.toDict),
      ("pkg-groups.tar", m.artifacts.pkgGroups.toDict),
      ("install-scripts.tar", m.artifacts.installScripts.toDict)])]

namespace Manifest

def manifestInvalid : Exc := valueError "Execution manifest is invalid"

def maxArtifactBytes : Nat := 64 * 1024 * 1024

def maxManifestBytes : Nat := 1024 * 1024

/-- `_timestamp`; the text it returns is `trimmed` of the moment. -/
def timestamp (value : JVal) (description : String) : Except Exc Instant :=
  awareTimestamp (valueError ("Execution " ++ description ++ " is invalid")) value

def string (value : JVal) (description : String) (pattern : Text → Bool) : Except Exc Text :=
  match value with
  | .str s =>
    if (s ≠ [] ∧ s.length ≤ 256) ∧ pattern s then .ok s
    else .error (valueError ("Execution " ++ description ++ " is invalid"))
  | _ => .error (valueError ("Execution " ++ description ++ " is invalid"))

/-- `except (KeyError, TypeError, ValueError)` around a block. -/
def guarded {α : Type} (block : Except Exc α) : Except Exc α :=
  match block with
  | .error (.value _ _) | .error .type | .error .key => .error manifestInvalid
  | result => result

def exactMapping (value : JVal) (expected : List String) (e : Exc) : Except Exc Members :=
  match value with
  | .obj members =>
    if (∀ m ∈ members, m.1 ∈ expected.map text) ∧
        ∀ key ∈ expected, memberOf members key ≠ none then .ok members
    else .error e
  | _ => .error e

def positiveInt (value : JVal) (e : Exc) : Except Exc Int :=
  match value with
  | .int n => if n < 1 then .error e else .ok n
  | _ => .error e

def manifestFields : List String :=
  ["schema_version", "session_id", "plan_sha256", "inventory_sha256",
    "profile_id", "profile_version", "iso_id", "iso_sha256", "target_disk",
    "authorized_at", "expires_at", "artifacts"]

def artifactMetadata (value : JVal) : Except Exc ArtifactMetadata := do
  let raw ← exactMapping value ["sha256", "size_bytes"] manifestInvalid
  match raw.field "sha256", raw.field "size_bytes" with
  | .str digest, .int size =>
    if digest.isSha256 ∧ 1 ≤ size ∧ size ≤ maxArtifactBytes then
      .ok ⟨digest, size⟩
    else .error manifestInvalid
  | _, _ => .error manifestInvalid

/-- The scalar fields of a manifest; the artifacts are read after them. -/
structure Head where
  sessionId : Text
  planSha256 : Text
  inventorySha256 : Text
  profileId : Text
  profileVersion : Int
  isoId : Text
  isoSha256 : Text
  targetDisk : Text
  diskFingerprint : Text
  authorizedAt : Text
  expiresAt : Text

def head (m : Members) : Except Exc Head := do
  let sessionId ← string (m.field "session_id") "manifest session ID" Text.isSessionId
  let planSha256 ←
    string (m.field "plan_sha256") "manifest plan SHA-256" Text.isSha256
  let inventorySha256 ←
    string (m.field "inventory_sha256") "manifest inventory SHA-256" Text.isSha256
  let profileId ←
    string (m.field "profile_id") "manifest profile ID" Text.isIdentifier
  let profileVersion ← positiveInt (m.field "profile_version")
    (valueError "Execution manifest profile version is invalid")
  let isoId ← string (m.field "iso_id") "manifest ISO ID" Text.isIdentifier
  let isoSha256 ← string (m.field "iso_sha256") "manifest ISO SHA-256" Text.isSha256
  let target ← exactMapping (m.field "target_disk") ["path", "fingerprint"]
    (valueError "Execution manifest target disk is invalid")
  let targetDisk ← string (target.field "path") "manifest target disk" Text.isDevice
  let diskFingerprint ←
    string (target.field "fingerprint") "manifest disk fingerprint" Text.isFingerprint
  let authorized ←
    timestamp (m.field "authorized_at") "manifest authorization timestamp"
  let expires ← timestamp (m.field "expires_at") "manifest expiry timestamp"
  raiseWhen (.str authorized.trimmed ≠ m.field "authorized_at" ∨
      .str expires.trimmed ≠ m.field "expires_at" ∨ expires ≤ authorized)
    (valueError "Execution manifest expiry is invalid")
  return { sessionId, planSha256, inventorySha256, profileId, profileVersion, isoId,
           isoSha256, targetDisk, diskFingerprint, authorizedAt := authorized.trimmed,
           expiresAt := expires.trimmed }

def ofMembers (m : Members) : Except Exc ExecutionManifest := do
  let _ ← exactMapping (.obj m) manifestFields manifestInvalid
  raiseWhen (m.field "schema_version" ≠ .int 1) manifestInvalid
  let h ← guarded (head m)
  let artifacts ← exactMapping (m.field "artifacts") artifactNames manifestInvalid
  let autoinstall ← artifactMetadata (artifacts.field "autoinstall.scm")
  let vmProfile ← artifactMetadata (artifacts.field "vm-profile.scm")
  let pkgGroups ← artifactMetadata (artifacts.field "pkg-groups.tar")
  let installScripts ← artifactMetadata (artifacts.field "install-scripts.tar")
  return { schemaVersion := 1, sessionId := h.sessionId, planSha256 := h.planSha256
           inventorySha256 := h.inventorySha256, profileId := h.profileId
           profileVersion := h.profileVersion, isoId := h.isoId
           isoSha256 := h.isoSha256, targetDisk := h.targetDisk
           diskFingerprint := h.diskFingerprint, authorizedAt := h.authorizedAt
           expiresAt := h.expiresAt
           artifacts := { autoinstall, vmProfile, pkgGroups, installScripts } }

end Manifest

open Manifest in
/-- `canonical_execution_manifest_bytes`.  An integer of more than 4300 digits
cannot be written. -/
def canonicalExecutionManifestBytes (m : ExecutionManifest) : Except Exc Bytes := do
  let validated ← ofMembers m.toMembers
  raiseWhen ((10 : Int) ^ maxStrDigits ≤ validated.profileVersion)
    (valueError "Exceeds the limit for integer string conversion")
  return asciiBytes (dumps compact (.obj validated.toMembers)) ++ [0x0a]

open Manifest in
def parseExecutionManifestBytes (raw : Bytes) : Except Exc ExecutionManifest := do
  raiseWhen (raw.length < 1 ∨ maxManifestBytes < raw.length) manifestInvalid
  match strictLoads raw with
  | .ok (.obj members) => do
      let manifest ← ofMembers members
      let canonical ← canonicalExecutionManifestBytes manifest
      raiseWhen (canonical ≠ raw) manifestInvalid
      return manifest
  | _ => .error manifestInvalid

namespace Manifest

def requiredPlanValue (plan : Members) (name : String) : Except Exc JVal :=
  match memberOf plan name with
  | none | some .null => .error (valueError "Execution plan binding is invalid")
  | some v => .ok v

/-- `isinstance(target, Mapping)`. -/
def planTarget (value : JVal) : Except Exc Members :=
  match value with
  | .obj target => .ok target
  | _ => .error (valueError "Execution target disk is invalid")

def anyText : Text → Bool := fun _ => true

def measure (sha256 : Bytes → Sha256Hex) (artifacts : List (Text × Bytes))
    (name : String) : Except Exc JVal :=
  match artifacts.lookup (text name) with
  | none => .error .key
  | some content =>
    if content.length < 1 ∨ maxArtifactBytes < content.length then
      .error (valueError "Execution artifact content is invalid")
    else
      .ok (ArtifactMetadata.toDict ⟨(sha256 content).val, content.length⟩)

end Manifest

open Manifest in
def buildExecutionManifest (sha256 : Bytes → Sha256Hex) (plan : JVal)
    (planSha256 authorizedAt expiresAt : JVal) (artifacts : List (Text × Bytes)) :
    Except Exc ExecutionManifest :=
  match plan with
  | .obj plan => do
      let value ← requiredPlanValue plan "session_id"
      let sessionId ← string value "session ID" Text.isSessionId
      let value ← requiredPlanValue plan "inventory_sha256"
      let inventorySha256 ← string value "inventory SHA-256" Text.isSha256
      let value ← requiredPlanValue plan "profile_id"
      let profileId ← string value "profile ID" anyText
      let value ← requiredPlanValue plan "profile_version"
      let profileVersion ← positiveInt value
        (valueError "Execution profile version is invalid")
      let value ← requiredPlanValue plan "iso_id"
      let isoId ← string value "ISO ID" anyText
      let value ← requiredPlanValue plan "iso_sha256"
      let isoSha256 ← string value "ISO SHA-256" Text.isSha256
      let value ← requiredPlanValue plan "target_disk"
      let target ← planTarget value
      let path ← string (target.field "path") "target disk path" anyText
      let fingerprint ←
        string (target.field "fingerprint") "disk fingerprint" Text.isFingerprint
      let digest ← string planSha256 "plan SHA-256" Text.isSha256
      let approved ← timestamp authorizedAt "authorization timestamp"
      let expiry ← timestamp expiresAt "expiry timestamp"
      raiseWhen (expiry ≤ approved) (valueError "Execution expiry is invalid")
      raiseWhen ((∃ a ∈ artifacts, a.1 ∉ artifactNames.map text) ∨
          ∃ name ∈ artifactNames, artifacts.lookup (text name) = none)
        (valueError "Execution artifact names are invalid")
      let autoinstall ← measure sha256 artifacts "autoinstall.scm"
      let vmProfile ← measure sha256 artifacts "vm-profile.scm"
      let pkgGroups ← measure sha256 artifacts "pkg-groups.tar"
      let installScripts ← measure sha256 artifacts "install-scripts.tar"
      ofMembers [("schema_version", .int 1), ("session_id", .str sessionId),
        ("plan_sha256", .str digest),
        ("inventory_sha256", .str inventorySha256),
        ("profile_id", .str profileId),
        ("profile_version", .int profileVersion), ("iso_id", .str isoId),
        ("iso_sha256", .str isoSha256),
        ("target_disk", .obj [("path", .str path), ("fingerprint", .str fingerprint)]),
        ("authorized_at", .str approved.trimmed),
        ("expires_at", .str expiry.trimmed),
        ("artifacts", .obj [("autoinstall.scm", autoinstall),
          ("vm-profile.scm", vmProfile), ("pkg-groups.tar", pkgGroups),
          ("install-scripts.tar", installScripts)])]
  | _ => .error (valueError "Execution plan binding is invalid")

structure ManifestSignature where
  keyId : Text
  manifestSha256 : Text
  signatureB64 : Text

def ManifestSignature.toMembers (s : ManifestSignature) : Members :=
  [("schema_version", .int 1), ("algorithm", .str "ed25519"), ("key_id", .str s.keyId),
    ("signed_file", .str "execution-manifest.json"),
    ("manifest_sha256", .str s.manifestSha256),
    ("signature_b64", .str s.signatureB64)]

namespace Manifest

def signatureInvalid : Exc := valueError "Execution manifest signature is invalid"

def signatureFields : List String :=
  ["schema_version", "algorithm", "key_id", "signed_file", "manifest_sha256", "signature_b64"]

def rawSignature (encoded : Text) : Option Bytes :=
  match Base64.decode Base64.standard encoded with
  | some raw =>
    if raw.length = 64 ∧ Base64.encode Base64.standard raw = encoded then some raw
    else none
  | none => none

def validateSignature (signature : JVal) : Except Exc ManifestSignature := do
  let raw ← exactMapping signature signatureFields signatureInvalid
  raiseWhen (raw.field "schema_version" ≠ .int 1 ∨ raw.field "algorithm" ≠ .str "ed25519" ∨
    raw.field "signed_file" ≠ .str "execution-manifest.json") signatureInvalid
  match raw.field "key_id", raw.field "manifest_sha256", raw.field "signature_b64" with
  | .str keyId, .str digest, .str encoded =>
    if keyId.isFingerprint ∧ digest.isSha256 ∧ (rawSignature encoded).isSome then
      .ok ⟨keyId, digest, encoded⟩
    else .error signatureInvalid
  | _, _, _ => .error signatureInvalid

end Manifest

open Manifest in
def signExecutionManifest (c : Crypto) (key manifestBytes : Bytes) : Except Exc ManifestSignature := do
  let _ ← parseExecutionManifestBytes manifestBytes
  return { keyId := c.keyId (c.publicKey key)
           manifestSha256 := (c.sha256 manifestBytes).val
           signatureB64 := Base64.encode Base64.standard (c.sign key manifestBytes) }

open Manifest in
def canonicalExecutionSignatureBytes (s : ManifestSignature) : Except Exc Bytes := do
  let validated ← validateSignature (.obj s.toMembers)
  return asciiBytes (dumps compact (.obj validated.toMembers)) ++ [0x0a]

open Manifest in
def parseExecutionSignatureBytes (raw : Bytes) : Except Exc ManifestSignature := do
  raiseWhen (raw.length < 1 ∨ 16 * 1024 < raw.length) signatureInvalid
  match strictLoads raw with
  | .ok (.obj members) => do
      let validated ← validateSignature (.obj members)
      let canonical ← canonicalExecutionSignatureBytes validated
      raiseWhen (canonical ≠ raw) signatureInvalid
      return validated
  | _ => .error signatureInvalid

open Manifest in
def verifyExecutionManifestSignature (c : Crypto) (publicKey manifestBytes : Bytes)
    (s : ManifestSignature) : Bool :=
  match validateSignature (.obj s.toMembers), parseExecutionManifestBytes manifestBytes,
    rawSignature s.signatureB64 with
  | .ok _, .ok _, some raw =>
    s.keyId == c.keyId publicKey &&
      s.manifestSha256 == (c.sha256 manifestBytes).val &&
      c.verify publicKey manifestBytes raw
  | _, _, _ => false

end WebOvpn
