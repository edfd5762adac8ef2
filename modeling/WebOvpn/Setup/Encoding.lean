/-
The documents of the Setup repository as JSON: what is hashed, and what is
written to a file.
-/
import WebOvpn.Lib.JsonSize
import WebOvpn.Lib.Sha256
import WebOvpn.Setup.Root

namespace WebOvpn.Setup

open List

def object (members : List (String × JVal)) : JVal :=
  .obj (members.map fun member => (text member.1, member.2))

def string (s : Text) : JVal := .str s

def label (s : String) : JVal := .str (text s)

def natural (n : Nat) : JVal := .int n

def date (t : Instant) : JVal := .str t.isoformat

/-- A value that may be `None`. -/
def nullable {α : Type} (f : α → JVal) : Option α → JVal
  | none => .null
  | some a => f a

def Operation.name : Operation → String
  | .component => "component"
  | .fullSetup => "full_setup"

def PlanBody.members (p : PlanBody) : List (String × JVal) :=
  [("schema_version", .int p.schemaVersion), ("created_at", .str p.createdAt),
    ("expires_at", .str p.expiresAt), ("content_sha256", .str p.contentSha256),
    ("payload", .obj p.payload)] ++
    match p.operation with
    | none => []
    | some operation => [("operation", .str operation)]

def SetupPlan.toJson (p : SetupPlan) : JVal :=
  object (p.toPlanBody.members ++ [("plan_id", .str p.planId), ("sha256", .str p.sha256)])

def Identities.toJson (i : Identities) : JVal :=
  object ([("uuid", .str i.uuid), ("hostname", .str i.hostname)] ++
    match i.computerGuid with
    | none => []
    | some guid => [("computer_guid", .str guid)])

def SetupRequest.toJson (r : SetupRequest) : JVal :=
  object [("schema_version", .int 2), ("kind", label "setup"), ("operation", label r.operation.name),
    ("job_id", .str r.jobId), ("machine_uuid", .str r.machineUuid),
    ("identities", r.identities.toJson), ("plan", r.plan.toJson),
    ("admission_sequence", natural r.admissionSequence)]

def ProcessIdentity.toJson (p : ProcessIdentity) : JVal :=
  object [("boot_id", .str p.bootId), ("pid", .int p.pid), ("start_ticks", .int p.startTicks)]

def PhaseRef.toJson (r : PhaseRef) : JVal :=
  object [("ticket_sha256", .str r.ticketSha256), ("claim_sha256", nullable string r.claimSha256),
    ("result_sha256", nullable string r.resultSha256),
    ("admission_sequence", natural r.admissionSequence),
    ("process_identity", nullable ProcessIdentity.toJson r.processIdentity)]

def WorkflowStatus.toJson (w : WorkflowStatus) : JVal :=
  let phase (name : String) : Option PhaseRef → List (String × JVal)
    | none => []
    | some ref => [(name, ref.toJson)]
  object [("schema_version", .int 1), ("kind", label "complete_workstation"),
    ("current_phase", label w.currentPhase.name),
    ("phases", object (phase "user" w.user ++ phase "final_dns" w.finalDns)),
    ("system_result_sha256", .str w.systemResultSha256)]

def StageEntry.toJson (e : StageEntry) : JVal :=
  object [("state", label e.state.name), ("stage", .str e.stage), ("at", date e.time)]

def SetupStatus.toJson (s : SetupStatus) : JVal :=
  object ([("schema_version", .int 2), ("kind", label "setup"), ("operation", label s.operation.name),
    ("job_id", .str s.jobId), ("machine_uuid", .str s.machineUuid), ("plan_id", .str s.planId),
    ("plan_sha256", .str s.planSha256), ("request_sha256", .str s.requestSha256),
    ("admission_sequence", natural s.admissionSequence), ("state", label s.state.name),
    ("stage", .str s.stage), ("stage_history", .arr (s.stageHistory.map StageEntry.toJson)),
    ("created_at", date s.createdAt), ("updated_at", date s.updatedAt),
    ("claimed", .bool s.claimed),
    ("process_identity", nullable ProcessIdentity.toJson s.processIdentity)] ++
    match s.workflow with
    | none => []
    | some workflow => [("workflow", workflow.toJson)])

def JobClaim.toJson (c : JobClaim) : JVal :=
  object [("schema_version", .int 2), ("job_id", .str c.jobId), ("plan_id", .str c.planId),
    ("plan_sha256", .str c.planSha256), ("request_sha256", .str c.requestSha256),
    ("identities", c.identities.toJson), ("admission_sequence", natural c.admissionSequence)]

def Review.toJson (r : Review) : JVal :=
  .obj ([(text "schema_version", .int 1)] ++ r.reference ++
    [(text "successor_job_id", .str r.successorJobId),
      (text "successor_plan_sha256", .str r.successorPlanSha256)])

def PhaseBase.members (b : PhaseBase) (kind phase : String) (createdAt : Instant) :
    List (String × JVal) :=
  [("schema_version", .int 1), ("kind", label ("workstation_phase_" ++ kind)),
    ("job_id", .str b.jobId), ("phase", label phase), ("machine_uuid", .str b.machineUuid),
    ("plan_sha256", .str b.planSha256), ("request_sha256", .str b.requestSha256),
    ("source_sha256", b.sourceSha256), ("catalog_sha256", b.catalogSha256),
    ("workflow_policy_sha256", .str b.policySha256),
    ("component_ids", .arr (b.spec.componentIds.map string)),
    ("budget_seconds", .int b.spec.budgetSeconds), ("created_at", date createdAt)]

def Ticket.toJson (t : Ticket) (phase : WorkPhase) : JVal :=
  object (t.base.members "ticket" phase.name t.createdAt ++
    [("admission_sequence", natural t.admissionSequence), ("readiness", .obj t.readiness),
      ("readiness_sha256", .str t.readinessSha256)])

def PhaseAdmission.toJson (a : PhaseAdmission) : JVal :=
  object [("schema_version", .int 1), ("job_id", .str a.jobId), ("phase", label a.phase.name),
    ("ticket_sha256", .str a.ticketSha256), ("review_sha256", .str a.reviewSha256),
    ("excluded_job_ids", .arr (a.excludedJobIds.map string)),
    ("excluded_lease_ids", .arr (a.excludedLeaseIds.map string))]

def PhaseClaim.toJson (c : PhaseClaim) (phase : WorkPhase) : JVal :=
  object (c.base.members "claim" phase.name c.createdAt ++
    [("ticket_sha256", .str c.ticketSha256), ("readiness", .obj c.readiness),
      ("readiness_sha256", .str c.readinessSha256),
      ("process_identity", c.processIdentity.toJson), ("admission", c.admission.toJson)])

def OutcomeStatus.name : OutcomeStatus → String
  | .appliedVerified => "applied_verified"
  | .rolledBackVerified => "rolled_back_verified"
  | .outcomeUnverified => "outcome_unverified"

def Outcome.members (o : Outcome) : List (String × JVal) :=
  [("status", label o.status.name), ("changed", nullable .bool o.changed),
    ("code", nullable string o.code), ("verification_sha256", nullable string o.verificationSha256),
    ("target_processes_absent", .bool o.targetProcessesAbsent)]

def PhaseResult.toJson (r : PhaseResult) (phase : WorkPhase) : JVal :=
  object (r.base.members "result" phase.name r.createdAt ++
    [("ticket_sha256", .str r.ticketSha256), ("claim_sha256", .str r.claimSha256),
      ("process_identity", r.processIdentity.toJson), ("result", object r.result.members)])

def Computer.toJson (c : Computer) : JVal :=
  object [("object_guid", .str c.objectGuid), ("object_sid", .str c.objectSid), ("dn", .str c.dn),
    ("dns_hostname", .str c.dnsHostname)]

def SystemResult.toJson (r : SystemResult) : JVal :=
  object (r.base.members "result" "system" r.createdAt ++
    [("ticket_sha256", .null), ("claim_sha256", .str r.claimSha256),
      ("process_identity", r.processIdentity.toJson),
      ("result", object (r.result.toOutcome.members ++
        [("computer", r.result.computer.toJson), ("original_boot_id", .str r.result.originalBootId),
          ("reboot_required", .bool r.result.rebootRequired)]))])

def Artifact.toJson : Artifact → JVal
  | .jobClaim c => c.toJson
  | .review r => r.toJson
  | .readiness ready => .obj ready
  | .ticket phase t => t.toJson phase
  | .phaseClaim phase c => c.toJson phase
  | .phaseResult phase r => r.toJson phase
  | .systemResult r => r.toJson

def Document.toJson : Document Artifact → JVal
  | .payload members => .obj members
  | .body plan => object plan.members
  | .request r => r.toJson
  | .status s => s.toJson
  | .artifact value => value.toJson

def canonical (value : JVal) : Bytes := asciiBytes (dumps compact value)

def digest (doc : Document Artifact) : Sha256Hex := Sha256.hexdigest (canonical doc.toJson)

/-- The length of what `private_create` writes: the encoding and a line end. -/
def fileSize (doc : Document Artifact) : Nat := (dumps compact doc.toJson).length + 1

def SetupStatus.blank (status : SetupStatus) : SetupStatus := { status with stageHistory := [] }

theorem fileSize_history (status : SetupStatus) :
    fileSize (.status status) = fileSize (.status status.blank) +
      (encodeItems compact (status.stageHistory.map StageEntry.toJson)).length := by
  unfold fileSize Document.toJson SetupStatus.toJson SetupStatus.blank object
  simp only [length_dumps, length_encode_obj, length_encode_arr, map_append, map_cons,
    map_nil, length_append, length_cons, length_map, sum_append,
    sum_cons, sum_nil, memberLength, encodeItems, length_nil]
  ring

end WebOvpn.Setup
