/-
Creation of install sessions, their approval and cancellation, and the
session API with its heartbeats and expiry.
-/
import WebOvpn.Install.ExecutionService

namespace WebOvpn

namespace SessionAuth

def isAscii (s : Text) : Bool := s.all fun c => c.val < 0x80

def asciiOf (s : Text) : Bytes := s.map fun c => UInt8.ofNat c.val

def credentialSha256 (sha256 : Bytes → Sha256Hex) (credential : Text) : Except Exc Text := do
  raiseWhen (credential = [] ∨ isAscii credential = false)
    (valueError "Install session credential is invalid")
  return (sha256 (asciiOf credential)).val

def createNonceSha256 (sha256 : Bytes → Sha256Hex) (nonce : JVal) : Except Exc Text :=
  let invalid := valueError "Install session create nonce is invalid"
  match nonce with
  | .str nonce => do
      raiseWhen (nonce.length ≠ 43) invalid
      match Base64.decode Base64.urlsafe (nonce ++ "=") with
      | none => .error invalid
      | some raw => do
          raiseWhen (raw.length ≠ 32 ∨ Base64.encode Base64.urlsafe raw ≠ nonce ++ "=") invalid
          return (sha256 (asciiOf nonce)).val
  | _ => .error invalid

def verifyCredential (sha256 : Bytes → Sha256Hex) (credential expected : Text) : Bool :=
  expected.length == 64 &&
    match credentialSha256 sha256 credential with
    | .ok actual => actual == expected
    | .error _ => false

end SessionAuth

namespace SessionService

def controlError (code message : String) : Exc := .control ⟨code, message, 4⟩

/-- A decimal octet without leading zeros. -/
def octet (s : Text) : Option Nat :=
  if s ≠ [] ∧ s.length ≤ 3 ∧ s.all CodePoint.isDigit ∧
      (s.length = 1 ∨ s.head? ≠ some (CodePoint.ofChar '0')) ∧ digitsValue s ≤ 255 then
    some (digitsValue s)
  else none

def ipv4 (s : Text) : Option (List Nat) :=
  ((s.splitOn (CodePoint.ofChar '.')).map octet).mapM id

/-- `_allowed_source`: 127.0.0.0/8 or 192.168.100.0/23.  An IPv6 address is in
neither network. -/
def allowedSource (sourceIp : Text) : Bool :=
  match ipv4 sourceIp with
  | some [127, _, _, _] => true
  | some [192, 168, c, _] => c == 100 || c == 101
  | _ => false

def maxActiveSessions : Nat := 100

def maxSessionsPerDmiUuid : Nat := 5

/-- `now + timedelta(minutes=30)`. -/
def sessionEnd (now : Instant) : Except Exc Instant :=
  match now.add? (30 * microsPerMinute) with
  | none => .error .overflow
  | some t => .ok t

structure CreateRequest where
  inventory : JVal
  sourceIp : Text
  createNonce : JVal
  /-- What `session_id_factory` returns. -/
  sessionId : Text

structure CreatedInstallSession where
  sessionId : Text
  state : SessionState
  pollAfterSeconds : Nat

/-- The checks of `create` before the lock is taken. -/
def admission (env : Env) (request : CreateRequest) : Except Exc (Text × InstallInventory) := do
  raiseWhen (allowedSource request.sourceIp = false)
    (controlError "install_session_source_forbidden"
      "Install session source address is forbidden")
  let nonceSha256 ← (SessionAuth.createNonceSha256 env.crypto.sha256
    request.createNonce).mapError fun _ =>
      controlError "install_session_create_nonce_invalid"
        "Install session create nonce is invalid"
  let inventory ← parseInventory request.inventory
  let profile ← loadProfile env.profiles "standard-office" 1
  let _ ← evaluatePolicy inventory profile
  return (nonceSha256, inventory)

/-- `_expire_if_needed` of the service: whether the session is out of use. -/
def expireIfNeeded (unsynced : Text → Bool) (now : Instant) (status : SessionStatus) :
    Op Store Exc Bool :=
  if status.state.isTerminal then return true
  else if now < status.expiresAt then return false
  else do
    Repository.replaceStatus unsynced true false status.sessionId (status.expire now)
    return true

def initialStatus (env : Env) (request : CreateRequest) (inventory : InstallInventory)
    (now expiresAt : Instant) : SessionStatus where
  sessionId := request.sessionId
  state := .awaitingApproval
  stage := .awaitingApproval
  stageHistory := [⟨.sessionCreated, now⟩, ⟨.inventoryValidated, now⟩, ⟨.awaitingApproval, now⟩]
  inventorySha256 := inventorySha256 env.crypto.sha256 inventory
  machineUuid := inventory.machine.dmiUuid
  agentBootId := inventory.agent.bootId
  sourceIp := request.sourceIp
  createdAt := now
  updatedAt := now
  lastSeenAt := now
  expiresAt := expiresAt
  expiredAt := none
  planRevision := none
  cancelledAt := none
  cancelReason := none
  agentStatus := none
  execution := none

def checkQuota (inventory : InstallInventory) (active : List SessionStatus) : Except Exc Unit := do
  raiseWhen (maxActiveSessions ≤ active.length)
    (controlError "install_session_quota_exceeded"
      "Active install session quota is exhausted")
  raiseWhen (maxSessionsPerDmiUuid ≤
      (active.filter fun s => s.machineUuid == inventory.machine.dmiUuid).length)
    (controlError "install_session_machine_quota_exceeded"
      "Install session machine quota is exhausted")

/-- The credential of a new session is the nonce itself. -/
def nonceText : JVal → Text
  | .str s => s
  | _ => []

/-- The branch of `create` for a nonce that was not seen before: sweep, quotas,
new directory. -/
def createFresh (env : Env) (now : Instant) (request : CreateRequest)
    (nonceSha256 : Text) (inventory : InstallInventory) : Op Store Exc CreatedInstallSession := do
  let statuses ← Repository.listStatuses
  let expired ← Op.forEach (expireIfNeeded env.unsynced now) statuses
  let active := ((statuses.zip expired).filter fun p => !p.2).map Prod.fst
  Op.lift (checkQuota inventory active)
  let expiresAt ← Op.lift (sessionEnd now)
  let credential ← Op.lift
    (SessionAuth.credentialSha256 env.crypto.sha256 (nonceText request.createNonce))
  Repository.create request.sessionId (canonicalInventoryBytes inventory) credential
    nonceSha256 (initialStatus env request inventory now expiresAt)
  return ⟨request.sessionId, .awaitingApproval, 3⟩

def create (env : Env) (now : Instant)
    (request : CreateRequest) : Op Store Exc CreatedInstallSession := do
  let (nonceSha256, inventory) ← Op.lift (admission env request)
  let existing ← Repository.findStatusByCreateNonce nonceSha256
  match existing with
  | some status =>
    if status.inventorySha256 = inventorySha256 env.crypto.sha256 inventory then
      return ⟨status.sessionId, status.state, 3⟩
    else Op.raise (controlError "install_session_create_nonce_mismatch"
      "Install session create nonce is bound to another inventory")
  | none => createFresh env now request nonceSha256 inventory

end SessionService

namespace ApprovalService

open SessionService (controlError)

def reasonText (reason : JVal) (message : String) : Except Exc Text :=
  match reason with
  | .str s =>
    if (Text.strip s).isBounded then .ok (Text.strip s)
    else .error (controlError "install_session_reason_invalid" message)
  | _ => .error (controlError "install_session_reason_invalid" message)

structure ApproveRequest where
  inventorySha256 : JVal
  diskFingerprint : JVal
  reason : JVal

/-- `f"alt-install-{session_id[-12:].lower()}"`. -/
def temporaryHostname (sessionId : Text) : Text :=
  text "alt-install-" ++ Text.lower (sessionId.drop (sessionId.length - 12))

/-- The stored inventory.  It was written canonically, in ASCII. -/
def readInventory (raw : Bytes) : Except Exc InstallInventory :=
  let invalid := controlError "install_session_inventory_invalid"
    "Install session inventory is invalid"
  match loads raw with
  | .error _ => .error invalid
  | .ok payload => (parseInventory payload).mapError fun _ => invalid

def buildPlan (env : Env) (sessionId : Text) (status : SessionStatus)
    (request : ApproveRequest) (inventoryRaw : Bytes) (approvedAt : Instant) :
    Except Exc (InstallPlan × InstallProfile × Instant) := do
  let inventory ← readInventory inventoryRaw
  let sha256 := env.crypto.sha256
  raiseWhen (request.inventorySha256 ≠ .str status.inventorySha256 ∨
      request.inventorySha256 ≠ .str (inventorySha256 sha256 inventory))
    (controlError "install_session_inventory_mismatch"
      "Install approval inventory hash does not match")
  let profile ← loadProfile env.profiles "standard-office" 1
  let evaluation ← evaluatePolicy inventory profile
  let fingerprint := diskFingerprint sha256 evaluation.eligibleDisk
  raiseWhen (request.diskFingerprint ≠ .str fingerprint)
    (controlError "install_session_disk_mismatch"
      "Install approval disk fingerprint does not match")
  let expiresAt ← SessionService.sessionEnd approvedAt
  let plan ← buildInstallPlan sha256 inventory profile evaluation
    ⟨evaluation.eligibleDisk.path, fingerprint, evaluation.routeInterface.name, evaluation.routeInterface.mac⟩
    ⟨sessionId, 1, temporaryHostname sessionId, approvedAt.isoformat, expiresAt.isoformat⟩
  return (plan, profile, expiresAt)

def signatureDocument (c : Crypto) (key plan : Bytes) (createdAt : Instant) : JVal :=
  .obj [("schema_version", .int 1), ("algorithm", .str "ed25519"),
    ("key_id", .str (c.keyId (c.publicKey key))),
    ("signed_file", .str "plan.json"),
    ("plan_sha256", .str (c.sha256 plan).val),
    ("signature_b64", .str (Base64.encode Base64.standard (c.sign key plan))),
    ("created_at", .str createdAt.isoformat)]

def signRevision (env : Env) (plan : InstallPlan) (approvedAt : Instant) : Except Exc Revision :=
  let bytes := canonicalPlanBytes plan
  match env.signingPrivateKey, env.signingPublicKey with
  | some key, some publicKey => do
      raiseWhen (env.crypto.publicKey key ≠ publicKey)
        (controlError "install_signing_key_mismatch" "Install signing keys do not match")
      return { plan := bytes
               planSha256 := SessionAuth.asciiOf
                 ((env.crypto.sha256 bytes).val ++ "\n")
               planSignature := asciiBytes (dumps spaced
                 (signatureDocument env.crypto key bytes approvedAt)) ++ [0x0a] }
  | _, _ =>
    .error (controlError "install_signing_key_invalid"
      "Install signing key material is invalid")

def publishedStatus (clock : Nat → Instant) (status : SessionStatus)
    (approvedAt expiresAt : Instant) : Except Exc SessionStatus := do
  let built ← StageManager.advanceStatus (clock 1) status .planBuilt
  let signed ← StageManager.advanceStatus (clock 2) built .planSigned
  let published ← StageManager.advanceStatus (clock 3) signed .published
  let updated := { published with
    state := .planPublished
    planRevision := some 1
    updatedAt := approvedAt
    expiresAt := expiresAt
    expiredAt := none }
  StageManager.validateStatus updated
  return updated

/-- The last `try` block of `approve`. -/
def publish (unsynced : Text → Bool) (sessionId : Text) (revision : Revision) (approval : Approval)
    (updated : SessionStatus) : Op Store Exc Unit :=
  Op.onError
    (do
      Repository.publishRevision sessionId revision
      Repository.writeApproval sessionId approval
      Repository.replaceStatus unsynced true false sessionId updated)
    fun exc =>
      if exc.code = ExecutionService.commitUncertain then Op.raise exc
      else do
        Repository.discardPartialPublication sessionId
        Op.raise exc

/-- Remove what an approval that died half-way left behind. -/
def discardPartial (sessionId : Text) : Op Store Exc Unit := do
  let present ← Repository.hasPartialPublication sessionId
  if present then Repository.discardPartialPublication sessionId else return ()

/-- The branch of `approve` for a session that waits and has not expired. -/
def approveFresh (env : Env) (clock : Nat → Instant) (sessionId : Text)
    (status : SessionStatus) (request : ApproveRequest)
    (reason : Text) : Op Store Exc SessionStatus := do
  let approvedAt := clock 0
  discardPartial sessionId
  let inventoryRaw ← Repository.loadInventoryBytes sessionId
  let (plan, profile, expiresAt) ←
    Op.lift (buildPlan env sessionId status request inventoryRaw approvedAt)
  let revision ← Op.lift (signRevision env plan approvedAt)
  let updated ← Op.lift (publishedStatus clock status approvedAt expiresAt)
  publish env.unsynced sessionId revision
    { sessionId, revision := 1, operatorUid := env.euid, operatorName := "root"
      reason, inventorySha256 := plan.inventorySha256
      diskFingerprint := plan.targetDisk.fingerprint, profileId := profile.profileId
      profileVersion := profile.profileVersion, approvedAt, expiresAt }
    updated
  return updated

def approveAgain (sessionId : Text) (status : SessionStatus) (request : ApproveRequest)
    (reason : Text) : Op Store Exc SessionStatus := do
  let approval ← Repository.loadApproval sessionId
  if request.inventorySha256 = .str approval.inventorySha256 ∧
      request.diskFingerprint = .str approval.diskFingerprint ∧
      approval.reason = reason then return status
  else Op.raise (controlError "install_session_approval_conflict"
    "Install session is already approved")

def sessionExpired : Exc :=
  controlError "install_session_expired" "Install session is expired"

/-- The branch of `approve` for a session found past its expiry. -/
def approveExpired (unsynced : Text → Bool) (sessionId : Text) (status : SessionStatus)
    (now : Instant) :
    Op Store Exc SessionStatus := do
  Op.lift (StageManager.validateStatus (status.expire now))
  Repository.replaceStatus unsynced true false sessionId (status.expire now)
  Op.raise sessionExpired

def approve (env : Env) (clock : Nat → Instant) (sessionId : Text)
    (request : ApproveRequest) : Op Store Exc SessionStatus := do
  Op.raiseIf (env.euid ≠ 0)
    (controlError "install_session_root_required" "Install approval requires root")
  let reason ← Op.lift (reasonText request.reason "Install approval reason is invalid")
  let status ← Repository.loadStatus sessionId
  if status.state = .planPublished then approveAgain sessionId status request reason
  else do
    Op.raiseIf (status.state = .expired) sessionExpired
    Op.raiseIf (status.state ≠ .awaitingApproval)
      (controlError "install_session_approval_conflict"
        "Install session is not awaiting approval")
    if status.expiresAt ≤ clock 0 then approveExpired env.unsynced sessionId status (clock 0)
    else approveFresh env clock sessionId status request reason

def cancelledStatus (status : SessionStatus) (reason : Text) (now : Instant) : SessionStatus :=
  { status with
    state := .cancelled
    cancelledAt := some now
    cancelReason := some reason
    updatedAt := now }

/-- `cancel` of the approval service. -/
def cancel (env : Env) (now : Instant) (sessionId : Text)
    (reason : JVal) : Op Store Exc SessionStatus := do
  Op.raiseIf (env.euid ≠ 0)
    (controlError "install_session_root_required" "Install cancellation requires root")
  let reason ← Op.lift (reasonText reason "Install cancellation reason is invalid")
  let status ← Repository.loadStatus sessionId
  if status.state = .cancelled then
    if status.cancelReason = some reason then return status
    else Op.raise (controlError "install_session_cancel_conflict"
      "Install session was cancelled with another reason")
  else do
    Op.lift (StageManager.validateStatus status)
    Op.lift (StageManager.validateStatus (cancelledStatus status reason now))
    Repository.replaceStatus env.unsynced true false sessionId (cancelledStatus status reason now)
    return cancelledStatus status reason now

end ApprovalService

namespace SessionApi

def response (status : Nat) (code : String) : Exc := .control ⟨code, "HTTP", status⟩

/-- `_authorize`: the bearer token of a request, absent when malformed. -/
def authorize (env : Env) (sessionId : Text) (bearer : Option Text) : Op Store Exc Unit :=
  match bearer with
  | none => Op.raise (response 401 "authorization_required")
  | some credential => do
      let expected ← Repository.loadCredentialSha256 sessionId
      Op.raiseIf (SessionAuth.verifyCredential env.crypto.sha256 credential expected = false)
        (response 403 "credential_forbidden")

def expireIfNeeded (unsynced : Text → Bool) (clock : Nat → Instant) (force : Bool)
    (status : SessionStatus) :
    Op Store Exc SessionStatus :=
  if status.state.isTerminal then return status
  else if force = false ∧ clock 0 < status.expiresAt then return status
  else do
    Op.lift (StageManager.validateStatus (status.expire (clock 1)))
    Repository.replaceStatus unsynced true false status.sessionId (status.expire (clock 1))
    return status.expire (clock 1)

/-- Whether a decimal numeral is read as the double 1.0: it lies within half a
unit in the last place on either side. -/
def numeralIsOne (digits : List Char) (scale : Nat) : Bool :=
  let n := Nat.ofDigitChars 10 digits 0
  decide ((2 ^ 54 - 1) * 10 ^ scale ≤ n * 2 ^ 54 ∧ n * 2 ^ 53 ≤ (2 ^ 53 + 1) * 10 ^ scale)

/-- `value == 1` for a float literal. -/
def floatIsOne (token : List Char) : Bool :=
  match lexNumber token with
  | some (⟨false, digits, fraction, exponent⟩, []) =>
    let mantissa := digits ++ fraction.tail
    match exponent with
    | [] => numeralIsOne mantissa fraction.tail.length
    | _ :: '-' :: e =>
      numeralIsOne mantissa (fraction.tail.length + Nat.ofDigitChars 10 e 0)
    | _ :: e =>
      let power := Nat.ofDigitChars 10 (e.dropWhile (· == '+')) 0
      if power ≤ fraction.tail.length then
        numeralIsOne mantissa (fraction.tail.length - power)
      else false
  | _ => false

/-- `value == 1` in Python. -/
def equalsOne : JVal → Bool
  | .int n => n == 1
  | .bool b => b
  | .float token => floatIsOne token
  | _ => false

def reportedStage (s : Text) : Option ReportedStage :=
  if s = "agent_started" then some .agentStarted
  else if s = "inventory_validated" then some .inventoryValidated
  else if s = "waiting_for_approval" then some .waitingForApproval
  else if s = "plan_downloaded" then some .planDownloaded
  else if s = "preflight_ready" then some .preflightReady
  else none

def shortText (value : JVal) : Option Text :=
  match value with
  | .str s => if 1 ≤ s.length ∧ s.length ≤ 128 then some s else none
  | _ => none

def heartbeatFields : List String :=
  ["schema_version", "boot_id", "agent_version", "sequence", "reported_stage", "sent_at"]

def parseHeartbeat (body : JVal) : Except Exc AgentStatus :=
  let invalid := response 400 "heartbeat_invalid"
  match Manifest.exactMapping body heartbeatFields invalid with
  | .error e => .error e
  | .ok body =>
    match body.field "sequence", shortText (body.field "boot_id"),
      shortText (body.field "agent_version"), shortText (body.field "reported_stage"),
      shortText (body.field "sent_at") with
    | .int sequence, some bootId, some agentVersion, some stage, some sentAt =>
      match reportedStage stage, fromisoformat sentAt with
      | some reportedStage, some sent =>
        if equalsOne (body.field "schema_version") ∧ 0 ≤ sequence ∧ sent.offset.isSome then
          .ok { bootId, agentVersion, sequence, reportedStage, sentAt }
        else .error invalid
      | _, _ => .error invalid
    | _, _, _, _, _ => .error invalid

def heartbeatStatus (status : SessionStatus) (agent : AgentStatus) (now : Instant) : SessionStatus :=
  { status with agentStatus := some agent, lastSeenAt := now, updatedAt := now }

/-- A heartbeat must not go back in its sequence, nor repeat a number with
another content. -/
def heartbeatConflicts (previous : Option AgentStatus) (agent : AgentStatus) : Bool :=
  match previous with
  | none => false
  | some p => agent.sequence < p.sequence || (agent.sequence == p.sequence && p != agent)

def recordHeartbeat (unsynced : Text → Bool) (clock : Nat → Instant) (sessionId : Text)
    (agent : AgentStatus) :
    Op Store Exc Unit := do
  let stored ← Repository.loadStatus sessionId
  let status ← expireIfNeeded unsynced clock false stored
  Op.raiseIf (status.state = .expired) (response 409 "session_expired")
  Op.raiseIf (status.state = .cancelled) (response 409 "session_cancelled")
  Op.lift (StageManager.validateStatus status)
  Op.raiseIf (heartbeatConflicts status.agentStatus agent = true)
    (response 409 "heartbeat_conflict")
  if status.agentStatus = some agent then return ()
  else do
    Op.lift (StageManager.validateStatus (heartbeatStatus status agent (clock 2)))
    Repository.replaceStatus unsynced false false sessionId (heartbeatStatus status agent (clock 2))

def heartbeat (env : Env) (clock : Nat → Instant) (sessionId : Text)
    (bearer : Option Text) (body : JVal) : Op Store Exc Unit := do
  authorize env sessionId bearer
  let agent ← Op.lift (parseHeartbeat body)
  recordHeartbeat env.unsynced clock sessionId agent

/-- `GET .../status`, which is also the first part of the other `GET` requests. -/
def getStatus (env : Env) (clock : Nat → Instant) (sessionId : Text)
    (bearer : Option Text) : Op Store Exc SessionStatus := do
  authorize env sessionId bearer
  let stored ← Repository.loadStatus sessionId
  expireIfNeeded env.unsynced clock false stored

/-- `expires_at` of the published plan, as `GET .../plan` reads it. -/
def planExpiry (raw : Bytes) : Except Exc (Option Int) :=
  let invalid := response 500 "published_plan_invalid"
  match loads raw with
  | .ok (.obj plan) =>
    match memberOf plan "expires_at" with
    | some (.str s) =>
      match fromisoformat s with
      | some d => .ok (d.offset.map d.utcMicros)
      | none => .error invalid
    | _ => .error invalid
  | _ => .error invalid

/-- The second part of `GET .../plan`, on a status that the first part found
published: an expired plan ends the session under a lock of its own. -/
def getPlan (env : Env) (clock : Nat → Instant) (sessionId : Text) : Op Store Exc Bytes := do
  let raw ← Repository.readRevision Revision.plan sessionId
  let expiry ← Op.lift (planExpiry raw)
  match expiry with
  | none => Op.raise .type
  | some expiry =>
    if expiry ≤ (clock 0).val then do
      let stored ← Repository.loadStatus sessionId
      let _ ← expireIfNeeded env.unsynced (fun n => clock (n + 1)) true stored
      Op.raise (response 410 "plan_expired")
    else return raw

end SessionApi

end WebOvpn
