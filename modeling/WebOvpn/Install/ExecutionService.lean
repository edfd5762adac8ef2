/-
The execution service: authorization of one destructive installation, its
cancellation and the stages the agent reports.  The operations are written
once over the storage interface.
-/
import WebOvpn.Install.Repository

namespace WebOvpn

/-- What an operation reads besides the sessions: keys, profiles, templates,
password material and release archives, each possibly unusable. -/
structure Env where
  crypto : Crypto
  euid : Nat
  profiles : List ProfileFile
  autoinstallTemplate : Renderer.TemplateFile
  vmProfileTemplate : Renderer.TemplateFile
  signingPrivateKey : Option Bytes
  signingPublicKey : Option Bytes
  secrets : Option RendererSecrets
  /-- Results of `_read_release_archive` for the two archives. -/
  releaseArchives : Option (Except Exc Bytes × Except Exc Bytes)
  /-- The sessions whose directory cannot be synchronized once a status is in place. -/
  unsynced : Text → Bool

def Execution.set (e : Execution) (updates : List (ExecutionField × JVal)) : Execution :=
  fun f => (updates.lookup f).getD (e f)

namespace ExecutionService

def error (code message : String) : Exc := .control ⟨code, message, 4⟩

def authorizationTtl : Nat := 15 * microsPerMinute

def boundedText (value : JVal) (code description : String) : Except Exc Text :=
  match value with
  | .str s =>
    if (Text.strip s).isBounded ∧ (text "$y$").contains s = false then
      .ok (Text.strip s)
    else .error (error code description)
  | _ => .error (error code description)

def timestamp (value : JVal) : Except Exc Instant :=
  awareTimestamp (error "execution_plan_invalid" "Published execution plan is invalid")
    value

/-- `except (ControlError, KeyError, TypeError, ValueError): raise e`. -/
def translate (e : Exc) : Exc → Exc
  | .control _ | .value _ _ | .type | .key => e
  | other => other

def guarded {α : Type} (e : Exc) (block : Except Exc α) : Except Exc α :=
  block.mapError (translate e)

def signatureFields : List String :=
  ["schema_version", "algorithm", "key_id", "signed_file", "plan_sha256", "signature_b64", "created_at"]

def verifyPlanSignature (c : Crypto) (publicKey plan signature : Bytes) (keyId : JVal) : Bool :=
  keyId == .str (c.keyId publicKey) && c.verify publicKey plan signature

/-- The `try` block of `_verify_published_plan_signature`. -/
def checkPlanSignature (env : Env) (signatureRaw plan : Bytes)
    (expectedSha256 expectedCreatedAt : Text) : Except Exc Unit := do
  raiseWhen (signatureRaw.length < 1 ∨ 16 * 1024 < signatureRaw.length)
    (valueError "plan signature size")
  match strictLoads signatureRaw with
  | .error _ => .error (valueError "plan signature document")
  | .ok document => do
      let signature ← Manifest.exactMapping document signatureFields
        (valueError "plan signature fields")
      match signature.field "signature_b64", signature.field "created_at" with
      | .str encoded, .str createdAt => do
          raiseWhen (Base64.decode Base64.standard encoded = none)
            (valueError "plan signature encoding")
          raiseWhen (createdAt ≠ expectedCreatedAt) (valueError "plan signature time")
          let created ← timestamp (.str createdAt)
          raiseWhen (created.isoformat ≠ createdAt) (valueError "plan signature time")
          raiseWhen (asciiBytes (dumps spaced document) ++ [0x0a] ≠ signatureRaw)
            (valueError "plan signature is not canonical")
          match Manifest.rawSignature encoded, env.signingPublicKey with
          | some raw, some publicKey =>
            raiseWhen (signature.field "schema_version" ≠ .int 1 ∨
                signature.field "algorithm" ≠ .str "ed25519" ∨
                signature.field "signed_file" ≠ .str "plan.json" ∨
                signature.field "plan_sha256" ≠ .str expectedSha256 ∨
                verifyPlanSignature env.crypto publicKey plan raw
                  (signature.field "key_id") = false)
              (valueError "plan signature is invalid")
          | _, _ => .error (valueError "plan signature or key")
      | _, _ => .error (valueError "plan signature fields")

def matchesProfile (plan : InstallPlan) (profile : InstallProfile) : Bool :=
  plan.isoId == profile.isoId && plan.isoSha256 == profile.isoSha256 &&
    plan.firmware == profile.firmware && plan.packageSet == profile.packageSet &&
    plan.diskLayout.wipeMode == profile.wipeMode &&
    plan.diskLayout.swapMib == profile.swapMib &&
    plan.diskLayout.filesystem == profile.filesystem &&
    plan.diskLayout.btrfsMinimumMib == profile.btrfsMinimumMib &&
    plan.diskLayout.grow == profile.grow &&
    plan.diskLayout.subvolumes == profile.subvolumes

structure AuthorizeRequest where
  planSha256 : JVal
  inventorySha256 : JVal
  diskFingerprint : JVal
  confirmTarget : JVal
  reason : JVal

/-- The shape checks at the head of `_load_bound_plan`. -/
def checkRequest (request : AuthorizeRequest) : Except Exc Unit := do
  raiseWhen (request.planSha256.matches Text.isSha256 = false)
    (error "execution_plan_sha256_invalid" "Execution plan SHA-256 is invalid")
  raiseWhen (request.inventorySha256.matches Text.isSha256 = false)
    (error "execution_inventory_sha256_invalid" "Execution inventory SHA-256 is invalid")
  raiseWhen (request.diskFingerprint.matches Text.isFingerprint = false)
    (error "execution_disk_fingerprint_invalid" "Execution disk fingerprint is invalid")
  raiseWhen (request.confirmTarget.matches Text.isDevice = false)
    (error "execution_target_invalid" "Execution target acknowledgement is invalid")

def planInvalid : Exc :=
  error "execution_plan_invalid" "Published execution plan is invalid"

def planSignatureInvalid : Exc :=
  error "execution_plan_signature_invalid" "Published execution plan signature is invalid"

def checkBoundPlan (env : Env) (request : AuthorizeRequest) (plan : InstallPlan)
    (now : Instant) : Except Exc Instant := do
  raiseWhen (.str plan.inventorySha256 ≠ request.inventorySha256 ∨
      .str plan.targetDisk.fingerprint ≠ request.diskFingerprint ∨
      .str plan.targetDisk.path ≠ request.confirmTarget)
    (error "execution_plan_mismatch" "Execution authorization differs from plan")
  let expiry ← timestamp (.str plan.expiresAt)
  raiseWhen (expiry ≤ now)
    (error "execution_plan_expired" "Published execution plan is expired")
  let profile ← guarded
    (error "execution_profile_invalid" "Execution release profile is invalid")
    (loadProfile env.profiles plan.profileId plan.profileVersion)
  raiseWhen (matchesProfile plan profile = false)
    (error "execution_profile_mismatch" "Execution plan differs from its release profile")
  return expiry

/-- `_validate_preflight`: a heartbeat of the right boot, not older than five
minutes and not older than the approval. -/
def validatePreflight (status : SessionStatus) (planApprovedAt : Text) (now : Instant) :
    Except Exc Unit :=
  match status.agentStatus with
  | none =>
    .error (error "execution_preflight_required" "Execution requires current preflight")
  | some agent => do
      let sentAt ← timestamp (.str agent.sentAt)
      let stale := error "execution_preflight_stale" "Execution preflight is stale"
      raiseWhen (agent.reportedStage ≠ .preflightReady ∨
        agent.bootId ≠ status.agentBootId ∨ agent.sequence < 0) stale
      let approvedAt ← timestamp (.str planApprovedAt)
      raiseWhen (sentAt < approvedAt ∨ now < sentAt ∨ 5 * microsPerMinute < now.val - sentAt.val) stale

def bundleArtifacts (env : Env) (plan : InstallPlan) : Except Exc (ArtifactSet Bytes) :=
  match env.releaseArchives with
  | none =>
    .error (error "execution_inputs_unavailable" "Execution release inputs are unavailable")
  | some (pkgGroups, installScripts) =>
    match env.secrets with
    | none =>
      .error (error "execution_secrets_invalid" "Execution password material is invalid")
    | some secrets => do
        raiseWhen (secrets.rootYescryptHash = secrets.adminYescryptHash)
          (error "execution_secrets_invalid" "Execution password material is invalid")
        let (autoinstall, vmProfile) ← guarded
          (error "execution_render_failed" "Execution artifacts cannot be rendered")
          (renderInstallBundle env.autoinstallTemplate env.vmProfileTemplate plan secrets)
        let pkgGroups ← pkgGroups
        let installScripts ← installScripts
        return { autoinstall, vmProfile, pkgGroups, installScripts }

def artifactMatches (sha256 : Bytes → Sha256Hex) (content : Bytes)
    (metadata : ArtifactMetadata) : Bool :=
  (content.length : Int) == metadata.sizeBytes && (sha256 content).val == metadata.sha256

def verifySignedFiles (env : Env) (files : Bundle) : Except Exc ExecutionManifest := do
  let manifest ← parseExecutionManifestBytes files.manifest
  let signature ← parseExecutionSignatureBytes files.manifestSignature
  match env.signingPublicKey with
  | none => .error (valueError "Install signing public key value is invalid")
  | some publicKey => do
      raiseWhen (verifyExecutionManifestSignature env.crypto publicKey files.manifest
          signature = false)
        (valueError "Execution bundle signature is invalid")
      let sha256 := env.crypto.sha256
      raiseWhen ((artifactMatches sha256 files.artifacts.autoinstall
            manifest.artifacts.autoinstall &&
          artifactMatches sha256 files.artifacts.vmProfile manifest.artifacts.vmProfile &&
          artifactMatches sha256 files.artifacts.pkgGroups manifest.artifacts.pkgGroups &&
          artifactMatches sha256 files.artifacts.installScripts
            manifest.artifacts.installScripts) = false)
        (valueError "Execution artifact binding is invalid")
      return manifest

def signBundle (env : Env) (manifestBytes : Bytes) (artifacts : ArtifactSet Bytes) :
    Except Exc Bundle :=
  guarded (error "execution_signing_key_invalid" "Execution signing key material is invalid")
    (match env.signingPrivateKey, env.signingPublicKey with
    | some key, some publicKey => do
        raiseWhen (env.crypto.publicKey key ≠ publicKey) (valueError "signing keys differ")
        let signature ← signExecutionManifest env.crypto key manifestBytes
        let signatureBytes ← canonicalExecutionSignatureBytes signature
        return ⟨manifestBytes, signatureBytes, artifacts⟩
    | _, _ => .error (valueError "Install signing key cannot be opened safely"))

def namedArtifacts (artifacts : ArtifactSet Bytes) : List (Text × Bytes) :=
  [("autoinstall.scm", artifacts.autoinstall), ("vm-profile.scm", artifacts.vmProfile),
    ("pkg-groups.tar", artifacts.pkgGroups),
    ("install-scripts.tar", artifacts.installScripts)]

section

variable {σ : Type} (storage : ExecutionStorage σ) (env : Env)

/-- Run `m` and translate the errors a Python `except` clause catches. -/
def catching {α : Type} (e : Exc) (m : Op σ Exc α) : Op σ Exc α :=
  Op.onError m fun exc => Op.raise (translate e exc)

def verifyPublishedPlanSignature (sessionId : Text) (plan : Bytes)
    (expectedSha256 expectedCreatedAt : Text) : Op σ Exc Unit :=
  catching planSignatureInvalid do
    let signatureRaw ← storage.readPlanSignature sessionId
    Op.lift (checkPlanSignature env signatureRaw plan expectedSha256 expectedCreatedAt)

/-- Read `plan.json` and parse it. -/
def loadPlan (sessionId : Text) : Op σ Exc (Bytes × InstallPlan) :=
  catching planInvalid do
    let raw ← storage.readPlan sessionId
    let plan ← Op.lift (parseExecutionPlanBytes raw)
    return (raw, plan)

def loadBoundPlan (sessionId : Text) (request : AuthorizeRequest) (now : Instant) :
    Op σ Exc (InstallPlan × Instant) := do
  Op.lift (checkRequest request)
  let (raw, plan) ← loadPlan storage sessionId
  Op.raiseIf (.str (env.crypto.sha256 raw).val ≠ request.planSha256)
    (error "execution_plan_mismatch" "Execution plan digest differs")
  Op.raiseIf (plan.sessionId ≠ sessionId)
    (error "execution_plan_mismatch" "Execution plan identity differs")
  verifyPublishedPlanSignature storage env sessionId raw (env.crypto.sha256 raw).val
    plan.approvedAt
  let expiry ← Op.lift (checkBoundPlan env request plan now)
  return (plan, expiry)

def orphanInvalid : Exc :=
  error "execution_orphan_invalid" "Install execution orphan is invalid"

/-- The binding an orphaned bundle must have to be removed. -/
def checkOrphan (status : SessionStatus) (planDigest : Text) (plan : InstallPlan)
    (manifest : ExecutionManifest) : Except Exc Unit :=
  raiseWhen (manifest.sessionId ≠ status.sessionId ∨ manifest.planSha256 ≠ planDigest ∨
      manifest.inventorySha256 ≠ status.inventorySha256 ∨
      manifest.inventorySha256 ≠ plan.inventorySha256 ∨
      manifest.targetDisk ≠ plan.targetDisk.path ∨
      manifest.diskFingerprint ≠ plan.targetDisk.fingerprint ∨
      manifest.profileId ≠ plan.profileId ∨
      manifest.profileVersion ≠ plan.profileVersion ∨
      manifest.isoId ≠ plan.isoId ∨ manifest.isoSha256 ≠ plan.isoSha256)
    (valueError "Execution orphan binding is invalid")

/-- The `try` block of `_reconcile_execution_orphan`. -/
def removeOrphan (status : SessionStatus) : Op σ Exc Unit := do
  let files ← storage.readExecution status.sessionId
  let manifest ← Op.lift (verifySignedFiles env files)
  let raw ← storage.readPlan status.sessionId
  let plan ← Op.lift (parseExecutionPlanBytes raw)
  verifyPublishedPlanSignature storage env status.sessionId raw
    (env.crypto.sha256 raw).val plan.approvedAt
  Op.lift (checkOrphan status (env.crypto.sha256 raw).val plan manifest)
  storage.discardExecution status.sessionId files

def reconcileOrphan (status : SessionStatus) : Op σ Exc Unit := do
  let present ← storage.hasExecution status.sessionId
  if present then catching orphanInvalid (removeOrphan storage env status)
  else return ()

/-- The record that an authorization stores. -/
def authorizedExecution (request : AuthorizeRequest) (reason : Text)
    (plan : InstallPlan) (manifest : ExecutionManifest) (manifestSha256 : Text) : Execution
  | .schemaVersion => .int 1
  | .revision => .int 1
  | .state => .str "authorized"
  | .authorizedAt => .str manifest.authorizedAt
  | .expiresAt => .str manifest.expiresAt
  | .planSha256 => request.planSha256
  | .inventorySha256 => request.inventorySha256
  | .diskFingerprint => request.diskFingerprint
  | .targetDisk => request.confirmTarget
  | .reason => .str reason
  | .profileId => .str plan.profileId
  | .profileVersion => .int plan.profileVersion
  | .isoId => .str plan.isoId
  | .isoSha256 => .str plan.isoSha256
  | .manifestSha256 => .str manifestSha256
  | .claimedAt => .null
  | .handoffStartedAt => .null
  | .installerStartedAt => .null
  | .installedAt => .null
  | .failedAt => .null
  | .failureCode => .null
  | .cancelledAt => .null
  | .cancelReason => .null
  | .expiredAt => .null

def withExecution (status : SessionStatus) (e : Execution) (now : Instant) : SessionStatus :=
  { status with execution := some e, updatedAt := now }

def commitUncertain : String := "install_session_status_commit_uncertain"

/-- The last `try` block of `authorize`: the bundle first, then the status that
refers to it.  A bundle is taken back unless the status may have been stored. -/
def publishThenStore (sessionId : Text) (bundle : Bundle)
    (updated : SessionStatus) : Op σ Exc Unit := do
  storage.publishExecution sessionId bundle
  Op.onError (storage.replaceStatus sessionId updated) fun exc =>
    match exc with
    | .control e =>
      if e.code = commitUncertain then Op.raise (.control e)
      else do
        storage.discardExecution sessionId bundle
        Op.raise (.control e)
    | other => Op.raise other

def authorizationEnd (now : Instant) : Except Exc Instant :=
  match now.add? authorizationTtl with
  | none => .error .overflow
  | some t => .ok t

def prepareAuthorization (request : AuthorizeRequest) (reason : Text)
    (plan : InstallPlan) (planExpiry now : Instant) :
    Except Exc (ExecutionManifest × Bundle × Execution) := do
  let artifacts ← bundleArtifacts env plan
  let limit ← authorizationEnd now
  let manifest ← buildExecutionManifest env.crypto.sha256 plan.toDict request.planSha256
    (.str now.isoformat) (.str (min planExpiry limit).isoformat)
    (namedArtifacts artifacts)
  let manifestBytes ← canonicalExecutionManifestBytes manifest
  let bundle ← signBundle env manifestBytes artifacts
  return (manifest, bundle, authorizedExecution request reason plan manifest
    (env.crypto.sha256 manifestBytes).val)

def sessionTerminal : Exc :=
  error "execution_session_terminal" "Execution session is terminal"

def planUnavailable : Exc :=
  error "execution_plan_unavailable" "Execution plan is not published"

def authorize (now : Instant) (sessionId : Text) (request : AuthorizeRequest) :
    Op σ Exc (ExecutionManifest × SessionStatus) := do
  Op.raiseIf (env.euid ≠ 0)
    (error "execution_root_required" "Execution authorization requires root")
  let reason ← Op.lift (boundedText request.reason "execution_reason_invalid"
    "Execution authorization reason is invalid")
  let status ← storage.loadStatus sessionId
  Op.raiseIf (status.state.isTerminal = true) sessionTerminal
  Op.raiseIf (status.state ≠ .planPublished) planUnavailable
  Op.raiseIf (status.execution.isSome = true)
    (error "execution_already_authorized" "Install execution is already authorized")
  let (plan, planExpiry) ← loadBoundPlan storage env sessionId request now
  Op.lift (validatePreflight status plan.approvedAt now)
  reconcileOrphan storage env status
  let (manifest, bundle, execution) ←
    Op.lift (prepareAuthorization env request reason plan planExpiry now)
  publishThenStore storage sessionId bundle (withExecution status execution now)
  return (manifest, withExecution status execution now)

def cancelledBeforeAuthorization (now reason : Text) : Execution
  | .schemaVersion => .int 1
  | .revision => .int 1
  | .state => .str "cancelled"
  | .cancelledAt => .str now
  | .cancelReason => .str reason
  | _ => .null

def canExpire (s : Option ExecutionState) : Bool :=
  s = some .authorized || s = some .claimed || s = some .handoffStarted

/-- `_expire_execution`: whether the execution was found expired and stored as
such. -/
def expireExecution (sessionId : Text) (status : SessionStatus) (now : Instant) : Op σ Exc Bool :=
  match status.execution with
  | none => return false
  | some e =>
    if canExpire e.stateOf then do
      let expiresAt ← Op.lift (timestamp (e .expiresAt))
      if now < expiresAt then return false
      else do
        storage.replaceStatus sessionId (withExecution status
          (e.set [(.state, .str "expired"), (.expiredAt, .str now.isoformat)])
          now)
        return true
    else return false

def executionExpired : Exc :=
  error "execution_expired" "Execution authorization expired"

def refuseExpired (sessionId : Text) (status : SessionStatus) (now : Instant) : Op σ Exc Unit := do
  let expired ← expireExecution storage sessionId status now
  Op.raiseIf (expired = true) executionExpired

def store (sessionId : Text) (status : SessionStatus) (e : Execution) (now : Instant) :
    Op σ Exc SessionStatus := do
  storage.replaceStatus sessionId (withExecution status e now)
  return withExecution status e now

def cancelExecution (now : Instant) (sessionId : Text) (status : SessionStatus)
    (e : Execution) (reason : Text) : Op σ Exc SessionStatus := do
  Op.lift e.validate
  if e.stateOf = some .cancelled then
    if e .cancelReason = .str reason then return status
    else Op.raise (error "execution_cancel_conflict"
      "Execution was cancelled with another reason")
  else do
    Op.raiseIf (e.stateOf ∈ [some .expired, some .installerStarted, some .installed, some .failed])
      (error "execution_terminal" "Execution is terminal")
    refuseExpired storage sessionId status now
    store storage sessionId status
      (e.set [(.state, .str "cancelled"), (.cancelledAt, .str now.isoformat),
        (.cancelReason, .str reason)]) now

def cancel (now : Instant) (sessionId : Text) (reason : JVal) : Op σ Exc SessionStatus := do
  Op.raiseIf (env.euid ≠ 0)
    (error "execution_root_required" "Execution cancellation requires root")
  let reason ← Op.lift (boundedText reason "execution_reason_invalid"
    "Execution cancellation reason is invalid")
  let status ← storage.loadStatus sessionId
  Op.raiseIf (status.state.isTerminal = true) sessionTerminal
  match status.execution with
  | some e => cancelExecution storage now sessionId status e reason
  | none => do
      reconcileOrphan storage env status
      store storage sessionId status
        (cancelledBeforeAuthorization now.isoformat reason) now

def bundleInvalid : Exc :=
  error "execution_bundle_invalid" "Execution bundle is invalid"

def checkClaim (env : Env) (status : SessionStatus) (e : Execution)
    (files : Bundle) : Except Exc Unit := do
  let manifest ← verifySignedFiles env files
  raiseWhen (manifest.sessionId ≠ status.sessionId ∨ .str manifest.planSha256 ≠ e .planSha256 ∨
      .str manifest.inventorySha256 ≠ e .inventorySha256 ∨
      .str manifest.targetDisk ≠ e .targetDisk ∨
      .str manifest.diskFingerprint ≠ e .diskFingerprint ∨
      .str manifest.profileId ≠ e .profileId ∨
      .int manifest.profileVersion ≠ e .profileVersion ∨
      .str manifest.isoId ≠ e .isoId ∨ .str manifest.isoSha256 ≠ e .isoSha256 ∨
      .str manifest.authorizedAt ≠ e .authorizedAt ∨
      .str manifest.expiresAt ≠ e .expiresAt ∨
      .str (env.crypto.sha256 files.manifest).val ≠ e .manifestSha256)
    (valueError "Execution bundle binding is invalid")

def verifyClaimBundle (status : SessionStatus) (e : Execution) : Op σ Exc Unit :=
  catching bundleInvalid do
    let files ← storage.readExecution status.sessionId
    Op.lift (checkClaim env status e files)

/-- `status.get("execution")` where a stage of it is to be recorded. -/
def requireExecution (status : SessionStatus) (missing : Exc) (s : ExecutionState)
    (conflict : Exc) : Except Exc Execution :=
  match status.execution with
  | none => .error missing
  | some e => do
      e.validate
      raiseWhen (e.stateOf ≠ some s) conflict
      return e

def notAuthorized : Exc :=
  error "execution_not_authorized" "Execution is not authorized"

def claim (now : Instant) (sessionId : Text) : Op σ Exc SessionStatus := do
  let status ← storage.loadStatus sessionId
  Op.raiseIf (status.state.isTerminal = true) sessionTerminal
  Op.raiseIf (status.state ≠ .planPublished) planUnavailable
  let e ← Op.lift (requireExecution status notAuthorized .authorized
    (error "execution_claim_conflict" "Install execution cannot be claimed"))
  refuseExpired storage sessionId status now
  let (_, plan) ← loadPlan storage sessionId
  Op.lift (validatePreflight status plan.approvedAt now)
  verifyClaimBundle storage env status e
  store storage sessionId status
    (e.set [(.state, .str "claimed"), (.claimedAt, .str now.isoformat)]) now

def handoffStarted (now : Instant) (sessionId : Text) : Op σ Exc SessionStatus := do
  let status ← storage.loadStatus sessionId
  Op.raiseIf (status.state.isTerminal = true) sessionTerminal
  Op.raiseIf (status.state ≠ .planPublished) planUnavailable
  let e ← Op.lift (requireExecution status notAuthorized .claimed
    (error "execution_handoff_conflict" "Install execution handoff cannot be recorded"))
  refuseExpired storage sessionId status now
  verifyClaimBundle storage env status e
  store storage sessionId status
    (e.set [(.state, .str "handoff_started"), (.handoffStartedAt, .str now.isoformat)]) now

def installerStarted (now : Instant) (sessionId : Text) : Op σ Exc SessionStatus := do
  let conflict := error "execution_installer_conflict"
    "Install execution installer cannot be recorded"
  let status ← storage.loadStatus sessionId
  Op.raiseIf (status.state ≠ .planPublished) conflict
  let e ← Op.lift (requireExecution status conflict .handoffStarted conflict)
  verifyClaimBundle storage env status e
  store storage sessionId status
    (e.set [(.state, .str "installer_started"), (.installerStartedAt, .str now.isoformat)]) now

def postflightInstalled (now : Instant) (sessionId : Text) : Op σ Exc SessionStatus := do
  let conflict := error "execution_postflight_conflict"
    "Install execution postflight cannot be recorded"
  let status ← storage.loadStatus sessionId
  Op.raiseIf (status.state ≠ .planPublished) conflict
  let e ← Op.lift (requireExecution status conflict .installerStarted conflict)
  store storage sessionId status
    (e.set [(.state, .str "installed"), (.installedAt, .str now.isoformat)]) now

end

end ExecutionService

end WebOvpn
