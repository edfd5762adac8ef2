/-
The session repository: one directory for each session, with the checks that
`replace_status` makes before a status is stored.  Here every operation takes
effect at once or not at all, but a status may be stored by a call that raises;
the storage of executions as file-system steps is a second instance of the
interface at the end.
-/
import WebOvpn.Install.ExecutionStatus
import WebOvpn.Install.Manifest
import WebOvpn.Lib.Effect

namespace WebOvpn

inductive SessionState where
  | awaitingApproval
  | approvalInProgress
  | planPublished
  | cancelled
  | expired
deriving DecidableEq

def SessionState.isTerminal : SessionState → Bool
  | .cancelled | .expired => true
  | _ => false

/-- `INSTALL_SESSION_STAGES`. -/
inductive Stage where
  | sessionCreated
  | inventoryValidated
  | awaitingApproval
  | planBuilt
  | planSigned
  | published
deriving DecidableEq

def Stage.index : Stage → Nat
  | .sessionCreated => 0
  | .inventoryValidated => 1
  | .awaitingApproval => 2
  | .planBuilt => 3
  | .planSigned => 4
  | .published => 5

def Stage.all : List Stage :=
  [.sessionCreated, .inventoryValidated, .awaitingApproval, .planBuilt, .planSigned, .published]

structure StageEntry where
  stage : Stage
  enteredAt : Instant
deriving DecidableEq

/-- `_REPORTED_STAGES` of the session API. -/
inductive ReportedStage where
  | agentStarted
  | inventoryValidated
  | waitingForApproval
  | planDownloaded
  | preflightReady
deriving DecidableEq

/-- The last heartbeat.  Its schema version is left out: the API admits only
values equal to one, and nothing else reads it. -/
structure AgentStatus where
  bootId : Text
  agentVersion : Text
  sequence : Int
  reportedStage : ReportedStage
  sentAt : Text
deriving DecidableEq

structure SessionStatus where
  sessionId : Text
  state : SessionState
  stage : Stage
  stageHistory : List StageEntry
  inventorySha256 : Text
  machineUuid : Text
  agentBootId : Text
  sourceIp : Text
  createdAt : Instant
  updatedAt : Instant
  lastSeenAt : Instant
  expiresAt : Instant
  expiredAt : Option Instant
  planRevision : Option Nat
  cancelledAt : Option Instant
  cancelReason : Option Text
  agentStatus : Option AgentStatus
  execution : Option Execution

namespace StageManager

def invalid (message : String) : Exc :=
  .control ⟨"install_session_stage_history_invalid", message, 4⟩

def validateHistory (previous : Option Instant) : List Stage → List StageEntry → Except Exc Unit
  | _, [] => .ok ()
  | [], _ :: _ => .error (invalid "Install session stage history is invalid")
  | stage :: stages, entry :: rest => do
      raiseWhen (entry.stage ≠ stage)
        (invalid "Install session stage history is not contiguous")
      raiseWhen (previous.any (fun p => entry.enteredAt < p) = true)
        (invalid "Install session stage timestamps move backwards")
      validateHistory (some entry.enteredAt) stages rest

def validateExecution : Option Execution → Except Exc Unit
  | none => .ok ()
  | some e => e.validate

def validateStatus (status : SessionStatus) : Except Exc Unit := do
  raiseWhen (status.stageHistory = [] ∨ Stage.all.length < status.stageHistory.length)
    (invalid "Install session stage history is invalid")
  validateHistory none Stage.all status.stageHistory
  raiseWhen ((status.stageHistory.getLast?.map StageEntry.stage) ≠ some status.stage)
    (invalid "Install session stage does not match history")
  raiseWhen (status.state = .awaitingApproval ∧ status.stage ≠ .awaitingApproval)
    (invalid "Awaiting approval state has an invalid stage")
  raiseWhen (status.state = .planPublished ∧ status.stage ≠ .published)
    (invalid "Published plan state has an invalid stage")
  raiseWhen (status.state = .approvalInProgress ∧ status.stage ∉ [Stage.planBuilt, .planSigned, .published])
    (invalid "Approval in progress state has an invalid stage")
  validateExecution status.execution

def enter (status : SessionStatus) (next : Stage) (enteredAt : Instant) : SessionStatus :=
  { status with
    stage := next
    state := if next = .planBuilt then .approvalInProgress else status.state
    stageHistory := status.stageHistory ++ [⟨next, enteredAt⟩]
    updatedAt := enteredAt }

def advanceStatus (now : Instant) (status : SessionStatus)
    (next : Stage) : Except Exc SessionStatus := do
  validateStatus status
  raiseWhen (status.state.isTerminal = true)
    (.control ⟨"install_session_stage_terminal", "Cancelled install session cannot change stage", 4⟩)
  if next = status.stage then return status
  else do
    raiseWhen (next.index ≠ status.stage.index + 1)
      (.control ⟨"invalid_install_session_stage_transition",
        "Install session stage is not the immediate next step", 4⟩)
    validateStatus (enter status next now)
    return enter status next now

end StageManager

def SessionStatus.origin (status : SessionStatus) : Text × Text × Text :=
  (status.sessionId, status.inventorySha256, status.machineUuid)

def SessionStatus.expire (status : SessionStatus) (now : Instant) : SessionStatus :=
  { status with state := .expired, expiredAt := some now, updatedAt := now }

/-- The files of `revision-0001`. -/
structure Revision where
  plan : Bytes
  planSha256 : Bytes
  planSignature : Bytes

structure Approval where
  sessionId : Text
  revision : Nat
  operatorUid : Nat
  operatorName : Text
  reason : Text
  inventorySha256 : Text
  diskFingerprint : Text
  profileId : Text
  profileVersion : Int
  approvedAt : Instant
  expiresAt : Instant

/-- `EXECUTION_BUNDLE_FILES`, the files of `execution-0001`. -/
structure Bundle where
  manifest : Bytes
  manifestSignature : Bytes
  artifacts : ArtifactSet Bytes
deriving DecidableEq

def Bundle.files (b : Bundle) : List Bytes :=
  [b.manifest, b.manifestSignature, b.artifacts.autoinstall, b.artifacts.vmProfile,
    b.artifacts.pkgGroups, b.artifacts.installScripts]

structure Session where
  inventory : Bytes
  credentialSha256 : Text
  createNonceSha256 : Text
  status : SessionStatus
  approval : Option Approval
  revision : Option Revision
  execution : Option Bundle

abbrev Store := List (Text × Session)

namespace Repository

def invalid (message : String) : Exc :=
  .control ⟨"install_session_invalid", message, 4⟩

def failed (message : String) : Exc :=
  .control ⟨"install_session_storage_failed", message, 6⟩

def notFound : Exc :=
  .control ⟨"install_session_not_found", "Install session does not exist", 4⟩

def validateSessionId (sessionId : Text) : Except Exc Text :=
  if (Text.strip sessionId).isSessionId then .ok (Text.strip sessionId)
  else .error (.control ⟨"install_session_id_invalid", "Install session ID is invalid", 4⟩)

/-- What `validate_execution_transition` says of a stored and a new execution. -/
def validateExecutionChange : Option Execution → Option Execution → Except Exc Unit
  | none, some after => after.validateInitial
  | some before, some after => before.validateTransition after
  | _, none => .error (executionInvalid "Install execution status is invalid")

def checkReplacement (allowLifecycle allowExecution : Bool)
    (current next : SessionStatus) : Except Exc Unit := do
  raiseWhen (allowLifecycle = false ∧ (next.state ≠ current.state ∨
      next.stage ≠ current.stage ∨ next.stageHistory ≠ current.stageHistory))
    (.control ⟨"install_session_lifecycle_update_forbidden",
      "Install session lifecycle requires stage manager", 4⟩)
  if current.execution = next.execution then .ok ()
  else do
    raiseWhen (allowExecution = false)
      (.control ⟨"install_execution_update_forbidden",
        "Install execution lifecycle requires execution service", 4⟩)
    validateExecutionChange current.execution next.execution

def maxExecutionFileBytes : Nat := 64 * 1024 * 1024

/-- The size check of `publish_execution`. -/
def checkBundle (b : Bundle) : Except Exc Unit :=
  raiseWhen (∃ f ∈ b.files, f.length < 1 ∨ maxExecutionFileBytes < f.length)
    (invalid "Install execution bundle is invalid")

def executionConflict : Exc :=
  .control ⟨"install_execution_conflict", "Install execution revision already exists", 4⟩

def find (store : Store) (sessionId : Text) : Except Exc (Text × Session) := do
  let id ← validateSessionId sessionId
  match store.lookup id with
  | none => .error notFound
  | some session => .ok (id, session)

/-- Change the directory of one name. -/
def put (store : Store) (id : Text) (session : Session) : Store :=
  store.map fun entry => if entry.1 = id then (id, session) else entry

def change (sessionId : Text) (f : Session → Except Exc Session) : Op Store Exc Unit := do
  let (id, session) ← Op.inspect fun store => do
    let (id, session) ← find store sessionId
    let session ← f session
    return (id, session)
  Op.update fun store => put store id session

def loadStatus (sessionId : Text) : Op Store Exc SessionStatus :=
  Op.inspect fun store => (find store sessionId).map fun entry => entry.2.status

def statusUncertain : Exc :=
  .control ⟨"install_session_status_commit_uncertain",
    "Install session status replacement is durable-uncertain", 6⟩

/-- The new status is in place when the directory is synchronized; where that
fails, the call raises all the same. -/
def replaceStatus (unsynced : Text → Bool) (allowLifecycle allowExecution : Bool) (sessionId : Text)
    (status : SessionStatus) : Op Store Exc Unit := do
  let _ ← Op.lift (validateSessionId sessionId)
  Op.raiseIf (status.sessionId ≠ sessionId)
    (invalid "Install session status identity is invalid")
  change sessionId fun session => do
    checkReplacement allowLifecycle allowExecution session.status status
    return { session with status }
  Op.raiseIf (unsynced sessionId = true) statusUncertain

def listStatuses : Op Store Exc (List SessionStatus) :=
  Op.inspect fun store =>
    .ok ((store.insertionSort fun a b => Text.le a.1 b.1 = true).map
      fun entry => entry.2.status)

def findStatusByCreateNonce (nonceSha256 : Text) : Op Store Exc (Option SessionStatus) :=
  Op.inspect fun store =>
    .ok (((store.insertionSort fun a b => Text.le a.1 b.1 = true).find?
      fun entry => entry.2.createNonceSha256 == nonceSha256).map
        fun entry => entry.2.status)

def create (sessionId : Text) (inventory : Bytes)
    (credentialSha256 createNonceSha256 : Text) (status : SessionStatus) : Op Store Exc Unit := do
  let id ← Op.inspect fun store => do
    let id ← validateSessionId sessionId
    raiseWhen (inventory = []) (invalid "Install inventory bytes are invalid")
    raiseWhen (credentialSha256.isSha256 = false)
      (invalid "Install credential hash is invalid")
    raiseWhen (createNonceSha256.isSha256 = false)
      (invalid "Install create nonce hash is invalid")
    raiseWhen (status.sessionId ≠ id)
      (invalid "Install session status identity is invalid")
    raiseWhen ((store.lookup id).isSome = true)
      (.control ⟨"install_session_conflict", "Install session already exists", 4⟩)
    return id
  Op.update fun store =>
    store ++ [(id, { inventory, credentialSha256, createNonceSha256, status
                     approval := none, revision := none, execution := none })]

def loadInventoryBytes (sessionId : Text) : Op Store Exc Bytes :=
  Op.inspect fun store => (find store sessionId).map fun entry => entry.2.inventory

def loadCredentialSha256 (sessionId : Text) : Op Store Exc Text :=
  Op.inspect fun store =>
    (find store sessionId).map fun entry => entry.2.credentialSha256

def fileMissing : Exc := invalid "Install session file cannot be inspected"

def loadApproval (sessionId : Text) : Op Store Exc Approval :=
  Op.inspect fun store => do
    let (_, session) ← find store sessionId
    match session.approval with
    | none => .error fileMissing
    | some approval => .ok approval

def readRevision (file : Revision → Bytes) (sessionId : Text) : Op Store Exc Bytes :=
  Op.inspect fun store => do
    let (_, session) ← find store sessionId
    match session.revision with
    | none => .error fileMissing
    | some revision => .ok (file revision)

def hasPartialPublication (sessionId : Text) : Op Store Exc Bool :=
  Op.inspect fun store => do
    let (_, session) ← find store sessionId
    return session.approval.isSome || session.revision.isSome

def discardPartialPublication (sessionId : Text) : Op Store Exc Unit :=
  change sessionId fun session =>
    .ok { session with approval := none, revision := none }

def publishRevision (sessionId : Text) (revision : Revision) : Op Store Exc Unit :=
  change sessionId fun session => do
    raiseWhen (session.revision.isSome = true)
      (.control ⟨"install_session_revision_conflict", "Install session revision already exists", 4⟩)
    return { session with revision := some revision }

def writeApproval (sessionId : Text) (approval : Approval) : Op Store Exc Unit :=
  change sessionId fun session => do
    raiseWhen (session.approval.isSome = true)
      (.control ⟨"install_session_approval_conflict", "Install session approval already exists", 4⟩)
    return { session with approval := some approval }

def bundleMissing : Exc :=
  invalid "Install execution revision cannot be inspected"

def hasExecution (sessionId : Text) : Op Store Exc Bool :=
  Op.inspect fun store => (find store sessionId).map fun entry => entry.2.execution.isSome

def readExecution (sessionId : Text) : Op Store Exc Bundle :=
  Op.inspect fun store => do
    let (_, session) ← find store sessionId
    match session.execution with
    | none => .error bundleMissing
    | some bundle => .ok bundle

def publishExecution (sessionId : Text) (bundle : Bundle) : Op Store Exc Unit :=
  change sessionId fun session => do
    checkBundle bundle
    raiseWhen (session.execution.isSome = true) executionConflict
    return { session with execution := some bundle }

def discardExecution (sessionId : Text) (expected : Bundle) : Op Store Exc Unit :=
  change sessionId fun session => do
    raiseWhen (session.execution = none)
      (failed "Incomplete install execution cannot be removed")
    raiseWhen (session.execution ≠ some expected)
      (invalid "Install execution revision changed before reconciliation")
    return { session with execution := none }

end Repository

/-- What the execution service needs of a repository over states `σ`. -/
structure ExecutionStorage (σ : Type) where
  loadStatus : Text → Op σ Exc SessionStatus
  /-- `replace_status(..., allow_execution=True)`. -/
  replaceStatus : Text → SessionStatus → Op σ Exc Unit
  readPlan : Text → Op σ Exc Bytes
  readPlanSignature : Text → Op σ Exc Bytes
  hasExecution : Text → Op σ Exc Bool
  readExecution : Text → Op σ Exc Bundle
  publishExecution : Text → Bundle → Op σ Exc Unit
  discardExecution : Text → Bundle → Op σ Exc Unit

def Repository.atomic (unsynced : Text → Bool) : ExecutionStorage Store where
  loadStatus := loadStatus
  replaceStatus := replaceStatus unsynced false true
  readPlan := readRevision Revision.plan
  readPlanSignature := readRevision Revision.planSignature
  hasExecution := hasExecution
  readExecution := readExecution
  publishExecution := publishExecution
  discardExecution := discardExecution

end WebOvpn
