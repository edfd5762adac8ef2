/-
Setup jobs: plans, requests and statuses as they are stored, and the checks
that every reader makes of them.
-/
import WebOvpn.Jobs.Storage

namespace WebOvpn.Setup

inductive State where
  | queued | preflight | running | verifying | waitingReboot | waitingFirstLogin
  | unknownRequiresReview | successful | degraded | failed
deriving DecidableEq

namespace State

def name : State → String
  | .queued => "queued"
  | .preflight => "preflight"
  | .running => "running"
  | .verifying => "verifying"
  | .waitingReboot => "waiting_reboot"
  | .waitingFirstLogin => "waiting_first_login"
  | .unknownRequiresReview => "unknown_requires_review"
  | .successful => "successful"
  | .degraded => "degraded"
  | .failed => "failed"

/-- `TERMINAL_SETUP_STATES`. -/
def isTerminal : State → Bool
  | .successful | .degraded | .failed => true
  | _ => false

/-- `ACTIVE_SETUP_STATES`. -/
def isActive (s : State) : Bool := !s.isTerminal

def transitions : State → List State
  | .queued => [.preflight, .failed, .unknownRequiresReview]
  | .preflight => [.running, .verifying, .failed, .unknownRequiresReview]
  | .running =>
    [.running, .waitingReboot, .waitingFirstLogin, .verifying, .failed, .unknownRequiresReview]
  | .verifying => [.successful, .degraded, .failed, .waitingReboot, .waitingFirstLogin,
      .unknownRequiresReview]
  -- a continuation may only observe again
  | .waitingReboot => [.verifying, .unknownRequiresReview]
  | .waitingFirstLogin => [.verifying, .unknownRequiresReview]
  | .unknownRequiresReview | .successful | .degraded | .failed => []

end State

/-- `^[a-z][a-z0-9_.-]{0,95}$`. -/
def isStage (s : Text) : Bool :=
  s.head?.any CodePoint.isLower && s.length ≤ 96 &&
    s.all fun c => c.isLower || c.isDigit || decide (c ∈ text "_.-")

/-- `^[0-9a-f]{8}-[0-9a-f]{4}-[0-9a-f]{4}-[0-9a-f]{4}-[0-9a-f]{12}$`. -/
def isUuid (s : Text) : Bool :=
  let hex (n : Nat) := List.replicate n CodePoint.isLowerHex
  Text.fullmatch (hex 8 ++ Text.literal "-" ++ hex 4 ++ Text.literal "-" ++ hex 4 ++
    Text.literal "-" ++ hex 4 ++ Text.literal "-" ++ hex 12) s

/-- `[a-zA-Z0-9][a-zA-Z0-9-]{0,62}`. -/
def isHostname (s : Text) : Bool :=
  s.head?.any CodePoint.isAlnum && s.length ≤ 63 &&
    s.all fun c => c.isAlnum || c == '-'

inductive Operation where
  | component
  | fullSetup
deriving DecidableEq

structure PlanBody where
  schemaVersion : Int
  createdAt : Text
  expiresAt : Text
  contentSha256 : Text
  payload : Members
  operation : Option Text
deriving DecidableEq

structure SetupPlan extends PlanBody where
  planId : Text
  sha256 : Text
deriving DecidableEq

structure Identities where
  uuid : Text
  hostname : Text
  computerGuid : Option Text
deriving DecidableEq

structure SetupRequest where
  operation : Operation
  jobId : Text
  machineUuid : Text
  identities : Identities
  plan : SetupPlan
  admissionSequence : Nat
deriving DecidableEq

structure ProcessIdentity where
  bootId : Text
  pid : Int
  startTicks : Int
deriving DecidableEq

inductive WorkPhase where
  | user
  | finalDns
deriving DecidableEq

def WorkPhase.name : WorkPhase → String
  | .user => "user"
  | .finalDns => "final_dns"

structure PhaseRef where
  ticketSha256 : Text
  claimSha256 : Option Text
  resultSha256 : Option Text
  admissionSequence : Nat
  processIdentity : Option ProcessIdentity
deriving DecidableEq

structure WorkflowStatus where
  currentPhase : WorkPhase
  user : Option PhaseRef
  finalDns : Option PhaseRef
  systemResultSha256 : Text
deriving DecidableEq

namespace WorkflowStatus

def ref (w : WorkflowStatus) : WorkPhase → Option PhaseRef
  | .user => w.user
  | .finalDns => w.finalDns

def setRef (w : WorkflowStatus) (phase : WorkPhase) (r : PhaseRef) : WorkflowStatus :=
  match phase with
  | .user => { w with user := some r }
  | .finalDns => { w with finalDns := some r }

end WorkflowStatus

structure StageEntry where
  state : State
  stage : Text
  time : Instant
deriving DecidableEq

structure SetupStatus where
  operation : Operation
  jobId : Text
  machineUuid : Text
  planId : Text
  planSha256 : Text
  requestSha256 : Text
  admissionSequence : Nat
  state : State
  stage : Text
  stageHistory : List StageEntry
  createdAt : Instant
  updatedAt : Instant
  claimed : Bool
  processIdentity : Option ProcessIdentity
  workflow : Option WorkflowStatus
deriving DecidableEq

inductive Document (α : Type) where
  | payload (members : Members)
  | body (plan : PlanBody)
  | request (request : SetupRequest)
  | status (status : SetupStatus)
  | artifact (value : α)
deriving DecidableEq

structure PhaseSpec where
  componentIds : List Text
  budgetSeconds : Int
deriving DecidableEq

structure WorkflowSpec where
  policySha256 : Text
  system : PhaseSpec
  user : PhaseSpec
  finalDns : PhaseSpec

/-- What the Setup repository takes from elsewhere: the runtime, the hash and
the length of a document's canonical encoding, `str.casefold`, the check of an
archived workflow against its own catalog, and the codes of a phase outcome. -/
structure Rules (α : Type) where
  runtime : Runtime
  digest : Document α → Sha256Hex
  size : Document α → Nat
  casefold : Text → Text
  archivedWorkflow : Members → Option WorkflowSpec
  isPhaseCode : Text → Bool

variable {α : Type} (rules : Rules α)

def timestamp (s : Text) : Option Int :=
  (fromisoformat s).bind fun d => d.offset.map d.utcMicros

def safePayload (operation : Operation) (payload : Members) : Members :=
  payload.map fun entry =>
    match operation, entry with
    | .fullSetup, (key, .obj prerequisites) =>
      if key = "prerequisites" then
        (key, .obj (prerequisites.filter fun item =>
          !((item.1 == "vault_ad_join_ready" || item.1 == "vault_krfb_ready") &&
            match item.2 with
            | .bool _ => true
            | _ => false)))
      else (key, .obj prerequisites)
    | _, entry => entry

def validPlan (plan : SetupPlan) (operation : Operation) : Bool :=
  let isPresent (key : String) := (memberOf plan.payload key).isSome
  let proofs := ["prejoin_retry", "recovery_resolution", "partial_local_resolution"].filter isPresent
  let isSuccessor := Members.field plan.payload "predecessor_job" != .null
  (match operation with
    | .component => plan.operation == some (text "component_plan") && plan.schemaVersion == 2 &&
        plan.planId == text "setup-component-" ++ plan.sha256
    | .fullSetup => plan.operation == none && plan.schemaVersion == 1 &&
        plan.planId == text "setup-" ++ plan.sha256) &&
  Text.isSha256 plan.sha256 &&
  (rules.digest (.body plan.toPlanBody)).val == plan.sha256 &&
  (rules.digest (.payload plan.payload)).val == plan.contentSha256 &&
  (match timestamp plan.expiresAt, timestamp plan.createdAt with
    | some expires, some created => expires - created == 30 * 60 * 1000000
    | _, _ => false) &&
  Jobs.isSafeMembers rules.runtime (safePayload operation plan.payload) &&
  (match operation with
    | .component => true
    | .fullSetup =>
      (!isPresent "workflow" || (rules.archivedWorkflow plan.payload).isSome) &&
      proofs.length ≤ 1 && (!isSuccessor || proofs.length == 1) &&
      (!isPresent "partial_local_resolution" || isSuccessor))

/-- The computer of a plan: `none` when it is malformed. -/
def computerGuid (computer : Members) : Option (Option Text) :=
  match memberOf computer "objects" with
  | none => some none
  | some (.arr []) => some none
  | some (.arr [.obj object]) =>
    match Members.field object "object_guid" with
    | .str guid => if isUuid (Text.lower guid) then some (some (Text.lower guid)) else none
    | _ => none
  | some _ => none

def identities (plan : SetupPlan) : Option Identities :=
  match Members.field plan.payload "machine", Members.field plan.payload "computer" with
  | .obj machine, .obj computer =>
    match Members.field machine "uuid", Members.field machine "hostname" with
    | .str uuid, .str hostname =>
      if isUuid uuid && isHostname hostname then
        (computerGuid computer).map fun guid => ⟨uuid, Text.lower hostname, guid⟩
      else none
    | _, _ => none
  | _, _ => none

def validProcess (p : ProcessIdentity) : Bool :=
  isUuid p.bootId && 0 < p.pid && 0 < p.startTicks

/-- The checks of `validate_workflow_status` on one reference. -/
def validRef (request : SetupRequest) (r : PhaseRef) : Bool :=
  Text.isSha256 r.ticketSha256 && request.admissionSequence < r.admissionSequence &&
  r.claimSha256.all Text.isSha256 && r.resultSha256.all Text.isSha256 &&
  (r.claimSha256.isNone == r.processIdentity.isNone) && r.processIdentity.all validProcess &&
  (r.resultSha256.isNone || r.claimSha256.isSome)

def validWorkflow (request : SetupRequest) (status : SetupStatus) (w : WorkflowStatus) : Bool :=
  (rules.archivedWorkflow request.plan.payload).isSome &&
  request.operation == .fullSetup && status.claimed && Text.isSha256 w.systemResultSha256 &&
  w.user.all (validRef request) && w.finalDns.all (validRef request) &&
  (w.finalDns.isNone || (w.user.bind (·.resultSha256)).isSome) &&
  (!(status.state == .successful || status.state == .degraded) ||
    (w.currentPhase == .finalDns && (w.user.bind (·.resultSha256)).isSome &&
      (w.finalDns.bind (·.resultSha256)).isSome))

inductive WorkStep where
  | queued | preflight | apply | verify | waiting | complete | outcomeUnverified
deriving DecidableEq

def WorkStep.name : WorkStep → String
  | .queued => "queued"
  | .preflight => "preflight"
  | .apply => "apply"
  | .verify => "verify"
  | .waiting => "waiting"
  | .complete => "complete"
  | .outcomeUnverified => "outcome_unverified"

def workStage (phase : WorkPhase) (step : WorkStep) : Text :=
  text "workflow." ++ text phase.name ++ text "." ++ text step.name

def workStages : List (WorkPhase × WorkStep) :=
  [WorkPhase.user, .finalDns].flatMap fun phase =>
    [WorkStep.queued, .preflight, .apply, .verify, .waiting, .complete, .outcomeUnverified].map
      fun step => (phase, step)

def parseWorkStage (stage : Text) : Option (WorkPhase × WorkStep) :=
  workStages.find? fun s => workStage s.1 s.2 == stage

def workflowTransitionAllowed (request : SetupRequest) (status : SetupStatus)
    (previous state : State) (stage : Text) : Bool :=
  match status.workflow with
  | none => false
  | some w =>
    validWorkflow rules request status w &&
    match parseWorkStage stage with
    | none => false
    | some (phase, step) =>
      if state = .queued ∧ (previous = .waitingReboot ∨ previous = .waitingFirstLogin ∨
          previous = .verifying ∨ previous = .queued) then
        step == .queued && (w.ref phase).isSome
      else if state = .preflight ∧ previous = .queued then
        step == .preflight && ((w.ref phase).bind (·.claimSha256)).isSome
      else if state = .waitingFirstLogin ∧ previous = .preflight ∧ phase = .finalDns ∧ step = .waiting then
        (w.user.bind (·.resultSha256)).isSome
      else false

/-- The loop of `validate_setup_record` over the history. -/
def validHistory (request : SetupRequest) (status : SetupStatus) (priorState : Option State)
    (priorDate : Instant) : List StageEntry → Bool
  | [] => true
  | entry :: rest =>
    isStage entry.stage && priorDate ≤ entry.time && entry.time ≤ status.updatedAt &&
    (match priorState with
      | none => entry.state == .queued && entry.time == status.createdAt
      | some prior => prior.transitions.contains entry.state ||
          workflowTransitionAllowed rules request status prior entry.state entry.stage) &&
    validHistory request status (some entry.state) entry.time rest

def maxHistory : Nat := 1024

def validRecord (jobId : Text) (request : SetupRequest) (status : SetupStatus) : Bool :=
  status.workflow.all (validWorkflow rules request status) &&
  request.jobId == jobId && status.jobId == jobId &&
  validPlan rules request.plan request.operation &&
  identities request.plan == some request.identities &&
  request.machineUuid == request.identities.uuid &&
  request.machineUuid == status.machineUuid && request.operation == status.operation &&
  request.admissionSequence == status.admissionSequence && 1 ≤ request.admissionSequence &&
  status.planId == request.plan.planId && status.planSha256 == request.plan.sha256 &&
  status.requestSha256 == (rules.digest (.request request)).val &&
  isStage status.stage &&
  (if status.claimed then status.processIdentity.any validProcess
    else status.processIdentity.isNone && status.state == .queued) &&
  status.createdAt ≤ status.updatedAt &&
  1 ≤ status.stageHistory.length && status.stageHistory.length ≤ maxHistory &&
  validHistory rules request status none status.createdAt status.stageHistory &&
  status.stageHistory.getLast?.any fun entry =>
    entry.state == status.state && entry.stage == status.stage

end WebOvpn.Setup
