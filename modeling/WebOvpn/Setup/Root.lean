/-
The directories of the Setup repository: published jobs, their admission
claims and reservations, the artifacts of the workflow phases and the reviews
of closed jobs; and the functions that read them.
-/
import WebOvpn.Setup.Records

namespace WebOvpn.Setup

structure PhaseBase where
  jobId : Text
  machineUuid : Text
  planSha256 : Text
  requestSha256 : Text
  sourceSha256 : JVal
  catalogSha256 : JVal
  policySha256 : Text
  spec : PhaseSpec
deriving DecidableEq

structure Ticket where
  base : PhaseBase
  createdAt : Instant
  admissionSequence : Nat
  readiness : Members
  readinessSha256 : Text
  deriving DecidableEq

structure PhaseAdmission where
  jobId : Text
  phase : WorkPhase
  ticketSha256 : Text
  reviewSha256 : Text
  excludedJobIds : List Text
  excludedLeaseIds : List Text
deriving DecidableEq

structure PhaseClaim where
  base : PhaseBase
  createdAt : Instant
  ticketSha256 : Text
  readiness : Members
  readinessSha256 : Text
  processIdentity : ProcessIdentity
  admission : PhaseAdmission
deriving DecidableEq

inductive OutcomeStatus where
  | appliedVerified
  | rolledBackVerified
  | outcomeUnverified
deriving DecidableEq

structure Outcome where
  status : OutcomeStatus
  changed : Option Bool
  code : Option Text
  verificationSha256 : Option Text
  targetProcessesAbsent : Bool
deriving DecidableEq

structure PhaseResult where
  base : PhaseBase
  createdAt : Instant
  ticketSha256 : Text
  claimSha256 : Text
  processIdentity : ProcessIdentity
  result : Outcome
  deriving DecidableEq

structure Computer where
  objectGuid : Text
  objectSid : Text
  dn : Text
  dnsHostname : Text
  deriving DecidableEq

structure SystemOutcome extends Outcome where
  computer : Computer
  originalBootId : Text
  rebootRequired : Bool
  deriving DecidableEq

structure SystemResult where
  base : PhaseBase
  createdAt : Instant
  claimSha256 : Text
  processIdentity : ProcessIdentity
  result : SystemOutcome
  deriving DecidableEq

/-- A record of `setup-job-plan-claims`, and of `setup-job-reservations`. -/
structure JobClaim where
  jobId : Text
  planId : Text
  planSha256 : Text
  requestSha256 : Text
  identities : Identities
  admissionSequence : Nat
deriving DecidableEq

structure Review where
  reference : Members
  successorJobId : Text
  successorPlanSha256 : Text
  deriving DecidableEq

inductive Artifact where
  | jobClaim (claim : JobClaim)
  | review (review : Review)
  | readiness (ready : Members)
  | ticket (phase : WorkPhase) (ticket : Ticket)
  | phaseClaim (phase : WorkPhase) (claim : PhaseClaim)
  | phaseResult (phase : WorkPhase) (result : PhaseResult)
  | systemResult (result : SystemResult)
deriving DecidableEq

abbrev SetupRules := Rules Artifact

structure SetupJob where
  request : SetupRequest
  status : SetupStatus
deriving DecidableEq

abbrev PhaseKey := Text × WorkPhase

structure Root where
  jobs : List (Text × SetupJob)
  claims : List (Text × JobClaim)
  reservations : List (Text × JobClaim)
  systemResults : List (Text × SystemResult)
  tickets : List (PhaseKey × Ticket)
  phaseClaims : List (PhaseKey × PhaseClaim)
  results : List (PhaseKey × PhaseResult)
  /-- `setup-phase-admissions`, of which only the names matter here. -/
  admissions : List PhaseKey
  reviews : List (Text × Review)

def Root.empty : Root := ⟨[], [], [], [], [], [], [], [], []⟩

section

variable (rules : SetupRules) (root : Root)

def fail (code message : String) : Exc := .control ⟨code, message, 4⟩

def setupJobInvalid : Exc := fail "setup_job_invalid" "Setup job schema or integrity is invalid"

def jobNotFound : Exc := .control ⟨"job_not_found", "Job not found", 3⟩

def get (id : Text) : Except Exc SetupJob :=
  if Jobs.isJobId (Text.strip id) then
    match root.jobs.lookup (Text.strip id) with
    | none => .error jobNotFound
    | some job =>
      if validRecord rules (Text.strip id) job.request job.status then .ok job
      else .error setupJobInvalid
  else .error jobNotFound

def admissionRequiresReview (message : String) : Exc :=
  fail "setup_job_admission_requires_review" message

def claimOf (job : SetupJob) : JobClaim :=
  { jobId := job.status.jobId, planId := job.status.planId, planSha256 := job.status.planSha256
    requestSha256 := job.status.requestSha256, identities := job.request.identities
    admissionSequence := job.status.admissionSequence }

def checkClaim (job : SetupJob) (claim : JobClaim) : Except Exc Unit :=
  raiseWhen (claim ≠ claimOf job ∨ root.reservations.lookup job.status.jobId ≠ some claim)
    (admissionRequiresReview "Setup admission evidence differs or is missing")

def readClaim (job : SetupJob) : Except Exc JobClaim :=
  match root.claims.lookup job.status.planSha256 with
  | none => .error (fail "setup_state_invalid"
      "Protected setup state is missing, unsafe or invalid")
  | some claim => .ok claim

def phaseInvalid : Exc :=
  fail "setup_phase_invalid" "Original phase authority is missing, changed, consumed or unverified"

def denied (code : String) : Exc :=
  fail code "Original phase authority is missing, changed, consumed or unverified"

def phaseSpec (job : SetupJob) : Except Exc WorkflowSpec :=
  if job.request.operation = .fullSetup then
    match rules.archivedWorkflow job.request.plan.payload with
    | some spec => .ok spec
    | none => .error (fail "full_workflow_plan_invalid" "The retained complete workflow is invalid")
  else .error phaseInvalid

def WorkflowSpec.phase (w : WorkflowSpec) : WorkPhase → PhaseSpec
  | .user => w.user
  | .finalDns => w.finalDns

/-- `_base`, without its time. -/
def baseOf (job : SetupJob) (w : WorkflowSpec) (spec : PhaseSpec) : PhaseBase :=
  { jobId := job.status.jobId, machineUuid := job.status.machineUuid
    planSha256 := job.status.planSha256, requestSha256 := job.status.requestSha256
    sourceSha256 := Members.field job.request.plan.payload "source_sha256"
    catalogSha256 := Members.field job.request.plan.payload "catalog_sha256"
    policySha256 := w.policySha256, spec }

/-- `(job-[0-9]{8}T[0-9]{6}Z-[0-9a-f]{8})`. -/
def isPlainJobId (s : Text) : Bool :=
  Text.fullmatch (Text.literal "job-" ++ List.replicate 8 CodePoint.isDigit ++ Text.literal "T" ++
    List.replicate 6 CodePoint.isDigit ++ Text.literal "Z-" ++
    List.replicate 8 CodePoint.isLowerHex) s

def isSortedSet (items : List Text) : Bool :=
  (items.zip items.tail).all fun pair => Text.le pair.1 pair.2 && pair.1 != pair.2

def validAdmission (a : PhaseAdmission) (job : SetupJob) (phase : WorkPhase) (ticketSha : Text) : Bool :=
  a.jobId == job.status.jobId && a.phase == phase && a.ticketSha256 == ticketSha &&
  Text.isSha256 a.reviewSha256 && isSortedSet a.excludedJobIds && isSortedSet a.excludedLeaseIds &&
  a.excludedJobIds.all isPlainJobId &&
  a.excludedLeaseIds.all (Text.fullmatch (List.replicate 32 CodePoint.isLowerHex))

def isSha (value : JVal) : Bool :=
  match value with
  | .str s => Text.isSha256 s
  | _ => false

def isPositive (value : JVal) : Bool :=
  match value with
  | .int n => 0 < n
  | _ => false

def hasKeys (members : Members) (keys : List String) : Bool :=
  members.length == keys.length && keys.all fun key => (memberOf members key).isSome

def scopeFields : List String :=
  ["machine_uuid", "hostname", "ip", "registration_sha256", "ssh_binding", "login", "upn",
    "user_guid", "user_sid", "uid", "gid", "home_sha256", "computer_guid", "computer_sid",
    "ou_guid", "ou_dn", "connection_uuid", "interface", "backend"]

def observationFields : List String :=
  ["boot_id", "session_sha256", "wallet_sha256", "krfb_sha256", "dns_sha256",
    "certificates_sha256", "package_health_sha256", "helpers"]

def helperFields : List String := ["wallet", "krfb", "dns", "vnc_policy", "certificates"]

def subField (members : Members) (key sub : String) : Option JVal :=
  match memberOf members key with
  | some (.obj inner) => memberOf inner sub
  | _ => none

def expectedScope (job : SetupJob) (system : SystemResult) : List (String × Option JVal) :=
  let payload := job.request.plan.payload
  [("machine_uuid", some (.str job.status.machineUuid)), ("hostname", subField payload "machine" "hostname"),
    ("ip", subField payload "machine" "ip"),
    ("registration_sha256", subField payload "machine" "registration_sha256"),
    ("ssh_binding", memberOf payload "ssh_binding"),
    ("login", subField payload "user" "login"), ("upn", subField payload "user" "upn"),
    ("user_guid", subField payload "user" "object_guid"),
    ("user_sid", subField payload "user" "object_sid"),
    ("ou_guid", subField payload "ou_identity" "object_guid"),
    ("ou_dn", memberOf payload "computer_ou"),
    ("computer_guid", some (.str system.result.computer.objectGuid)),
    ("computer_sid", some (.str system.result.computer.objectSid))]

/-- `[A-Za-z0-9][A-Za-z0-9_.-]{0,14}`. -/
def isInterface (value : JVal) : Bool :=
  match value with
  | .str s => s.head?.any CodePoint.isAlnum && s.length ≤ 15 &&
      s.all fun c => c.isAlnum || decide (c ∈ text "_.-")
  | _ => false

def isUuidValue (value : JVal) : Bool :=
  match value with
  | .str s => isUuid s
  | _ => false

def validReady (job : SetupJob) (phase : WorkPhase) (ready : Members) (system : SystemResult) : Bool :=
  let payload := job.request.plan.payload
  match phaseSpec rules job, Members.field ready "scope", Members.field ready "observation" with
  | .ok workflow, .obj scope, .obj observed =>
    hasKeys ready ["schema_version", "status", "job_id", "phase", "source_sha256",
      "catalog_sha256", "workflow_policy_sha256", "scope", "observation"] &&
    Members.field ready "schema_version" == .int 1 &&
    Members.field ready "status" == .str "ready" &&
    Members.field ready "job_id" == .str job.status.jobId &&
    Members.field ready "phase" == .str (text phase.name) &&
    Members.field ready "source_sha256" == Members.field payload "source_sha256" &&
    Members.field ready "catalog_sha256" == Members.field payload "catalog_sha256" &&
    Members.field ready "workflow_policy_sha256" == .str workflow.policySha256 &&
    hasKeys scope scopeFields && hasKeys observed observationFields &&
    (expectedScope job system).all (fun pair => pair.2.isSome && memberOf scope pair.1 == pair.2) &&
    isPositive (Members.field scope "uid") && isPositive (Members.field scope "gid") &&
    isSha (Members.field scope "home_sha256") &&
    isUuidValue (Members.field observed "boot_id") &&
    !(system.result.rebootRequired &&
      Members.field observed "boot_id" == .str system.result.originalBootId) &&
    isInterface (Members.field scope "interface") &&
    ((Members.field scope "backend" == .str "etcnet" &&
        Members.field scope "connection_uuid" == .null) ||
      ((Members.field scope "backend" == .str "nm_etcnet" ||
          Members.field scope "backend" == .str "nm_keyfile") &&
        isUuidValue (Members.field scope "connection_uuid"))) &&
    (observationFields.all fun key =>
      key == "boot_id" || key == "helpers" || isSha (Members.field observed key)) &&
    (match Members.field observed "helpers" with
      | .obj helpers => hasKeys helpers helperFields && helpers.all fun entry => isSha entry.2
      | _ => false)
  | _, _, _ => false

/-- `S-1-[0-9]+(?:-[0-9]+){1,15}`: groups of digits after `S-1`. -/
def isSid (s : Text) : Bool :=
  let groups := (s.drop 4).splitOn (CodePoint.ofChar '-')
  (text "S-1-").isPrefixOf s && 2 ≤ groups.length && groups.length ≤ 16 &&
    groups.all fun group => !group.isEmpty && group.all CodePoint.isDigit

/-- The checks of `validate_result` that all phases share; only the last phase may
roll back. -/
def validOutcome (last : Bool) (o : Outcome) : Bool :=
  o.verificationSha256.all Text.isSha256 && o.code.all rules.isPhaseCode &&
  (o.status == .outcomeUnverified ||
    (o.targetProcessesAbsent && o.verificationSha256.isSome && o.changed.isSome)) &&
  (o.status != .rolledBackVerified || last) && ((o.status == .appliedVerified) == o.code.isNone)

/-- `validate_result` of the system phase. -/
def validSystemOutcome (job : SetupJob) (o : SystemOutcome) : Bool :=
  let payload := job.request.plan.payload
  validOutcome rules false o.toOutcome && o.status == .appliedVerified && isUuid o.originalBootId &&
  isUuid o.computer.objectGuid && isSid o.computer.objectSid &&
  (match subField payload "machine" "hostname", memberOf payload "computer_ou" with
    | some (.str hostname), some (.str ou) =>
      rules.casefold o.computer.dn ==
          rules.casefold (text "CN=" ++ hostname ++ text "," ++ ou) &&
        o.computer.dnsHostname == hostname ++ ".sosnadmin.local"
    | _, _ => false)

structure Row where
  ticket : Option Ticket
  claim : Option PhaseClaim
  result : Option PhaseResult

structure Rows where
  system : Option SystemResult
  user : Row
  finalDns : Row

def Rows.row (rows : Rows) : WorkPhase → Row
  | .user => rows.user
  | .finalDns => rows.finalDns

def rowOf (id : Text) (phase : WorkPhase) : Row :=
  ⟨root.tickets.lookup (id, phase), root.phaseClaims.lookup (id, phase), root.results.lookup (id, phase)⟩

def rowsOf (id : Text) : Rows :=
  ⟨root.systemResults.lookup id, rowOf root id .user, rowOf root id .finalDns⟩

def ticketSha (phase : WorkPhase) (t : Ticket) : Text :=
  (rules.digest (.artifact (.ticket phase t))).val

def claimSha (phase : WorkPhase) (c : PhaseClaim) : Text :=
  (rules.digest (.artifact (.phaseClaim phase c))).val

def resultSha (phase : WorkPhase) (r : PhaseResult) : Text :=
  (rules.digest (.artifact (.phaseResult phase r))).val

def systemSha (r : SystemResult) : Text := (rules.digest (.artifact (.systemResult r))).val

def jobClaimSha (c : JobClaim) : Text := (rules.digest (.artifact (.jobClaim c))).val

def readySha (ready : Members) : Text := (rules.digest (.artifact (.readiness ready))).val

def validTicket (job : SetupJob) (w : WorkflowSpec) (phase : WorkPhase) (t : Ticket) : Bool :=
  t.base == baseOf job w (w.phase phase) && job.status.admissionSequence < t.admissionSequence &&
  readySha rules t.readiness == t.readinessSha256

def validClaim (job : SetupJob) (w : WorkflowSpec) (phase : WorkPhase) (c : PhaseClaim) : Bool :=
  c.base == baseOf job w (w.phase phase) && Text.isSha256 c.ticketSha256 &&
  validProcess c.processIdentity && validAdmission c.admission job phase c.ticketSha256 &&
  readySha rules c.readiness == c.readinessSha256

def validResult (job : SetupJob) (w : WorkflowSpec) (phase : WorkPhase) (r : PhaseResult) : Bool :=
  r.base == baseOf job w (w.phase phase) && Text.isSha256 r.claimSha256 &&
  validProcess r.processIdentity && Text.isSha256 r.ticketSha256 &&
  validOutcome rules (phase == .finalDns) r.result

def validSystemResult (job : SetupJob) (w : WorkflowSpec) (r : SystemResult) : Bool :=
  r.base == baseOf job w w.system && Text.isSha256 r.claimSha256 &&
  validProcess r.processIdentity && validSystemOutcome rules job r.result

def validRow (job : SetupJob) (w : WorkflowSpec) (system : Option SystemResult)
    (phase : WorkPhase) (row : Row) : Bool :=
  row.ticket.all (fun t => validTicket rules job w phase t &&
    system.any (validReady rules job phase t.readiness)) &&
  row.claim.all (fun c => validClaim rules job w phase c &&
    (row.ticket.any fun t => c.ticketSha256 == ticketSha rules phase t &&
      Members.field c.readiness "scope" == Members.field t.readiness "scope") &&
    system.any (validReady rules job phase c.readiness)) &&
  row.result.all fun r => validResult rules job w phase r &&
    (row.claim.any fun c => r.claimSha256 == claimSha rules phase c &&
      r.processIdentity == c.processIdentity) &&
    row.ticket.any fun t => r.ticketSha256 == ticketSha rules phase t

/-- The checks of `records` on the reference that the status has to a phase. -/
def validReference (phase : WorkPhase) (row : Row) (r : PhaseRef) : Bool :=
  (row.ticket.any fun t => r.ticketSha256 == ticketSha rules phase t &&
    r.admissionSequence == t.admissionSequence) &&
  r.claimSha256.all (fun sha => row.claim.any fun c => sha == claimSha rules phase c) &&
  r.resultSha256.all (fun sha => row.result.any fun o => sha == resultSha rules phase o) &&
  r.processIdentity.all fun p => row.claim.any fun c => p == c.processIdentity

def records (job : SetupJob) : Except Exc Rows := do
  let w ← phaseSpec rules job
  let rows := rowsOf root job.status.jobId
  raiseWhen (rows.system.all (validSystemResult rules job w) = false) phaseInvalid
  raiseWhen (job.status.workflow.any (fun s =>
    !rows.system.any fun r => s.systemResultSha256 == systemSha rules r) = true) phaseInvalid
  raiseWhen ((rows.user.ticket.isSome ∨ rows.finalDns.ticket.isSome) ∧ rows.system.isNone)
    phaseInvalid
  let claim ← readClaim root job
  checkClaim root job claim
  raiseWhen (rows.system.any (fun r => r.claimSha256 != jobClaimSha rules claim ||
    some r.processIdentity != job.status.processIdentity) = true) phaseInvalid
  raiseWhen (validRow rules job w rows.system .user rows.user = false) phaseInvalid
  raiseWhen (validRow rules job w rows.system .finalDns rows.finalDns = false) phaseInvalid
  raiseWhen (rows.finalDns.ticket.isSome ∧
    rows.user.result.any (fun r => r.result.status == .appliedVerified) = false) phaseInvalid
  raiseWhen (job.status.workflow.any (fun s =>
    !(s.user.all (validReference rules .user rows.user) &&
      s.finalDns.all (validReference rules .finalDns rows.finalDns))) = true) phaseInvalid
  return rows

/-- What a call finds outside the state root: the clock, the evidence for the
predecessor of a plan, the immutable plan store, unfinished partial recoveries
and executions of the old interface, the fingerprints of the sources, and the
process itself. -/
structure Env where
  now : Instant
  evidence : SetupPlan → Bool
  pending : Bool
  planIntact : SetupPlan → Operation → Bool
  legacyBusy : Identities → Bool
  sourcesIntact : SetupPlan → Bool
  process : ProcessIdentity
  /-- The job identifier that is generated. -/
  newId : Jobs.JobId
  /-- What the probe sees of a workstation, if it can be reached. -/
  observe : Text → WorkPhase → Option Members
  /-- What the admission service grants, if it does. -/
  admission : Option (PhaseAdmission × Members)
  /-- The execution record and the events of the job can be read. -/
  executionReadable : Bool

variable (env : Env)

def predecessorOf (plan : SetupPlan) : Option Members :=
  match Members.field plan.payload "predecessor_job" with
  | .obj reference => some reference
  | _ => none

def retryNotPermitted : Exc :=
  fail "setup_retry_not_permitted" "Predecessor review reference is invalid"

def validatePredecessor (plan : SetupPlan) : Except Exc (Option Text) :=
  match predecessorOf plan with
  | none =>
    if Members.field plan.payload "predecessor_job" = .null then .ok none
    else .error retryNotPermitted
  | some reference =>
    match reference.field "job_id" with
    | .str id => do
        let job ← get rules root id
        raiseWhen (job.status.state ≠ .unknownRequiresReview ∨
            subField plan.payload "machine" "uuid" ≠ some (.str job.status.machineUuid) ∨
            reference.field "request_sha256" ≠
              .str (rules.digest (.request job.request)).val ∨
            reference.field "status_sha256" ≠
              .str (rules.digest (.status job.status)).val ∨
            env.evidence plan = false) retryNotPermitted
        return some id
    | _ => .error retryNotPermitted

/-- One round of `reviewed_jobs`. -/
def checkReview (entry : Text × Review) : Except Exc Text := do
  let successor ← get rules root entry.2.successorJobId
  let old ← validatePredecessor rules root env successor.request.plan
  raiseWhen (predecessorOf successor.request.plan ≠ some entry.2.reference ∨
      entry.2.successorJobId ≠ successor.status.jobId ∨
      entry.2.successorPlanSha256 ≠ successor.status.planSha256 ∨ old ≠ some entry.1)
    (admissionRequiresReview "Setup review evidence differs or is incomplete")
  return entry.1

def reviewedJobs : Except Exc (List Text) := root.reviews.mapM (checkReview rules root env)

def sequences : List Nat :=
  root.claims.map (fun entry => entry.2.admissionSequence) ++
    root.tickets.map fun entry => entry.2.admissionSequence

def nextAdmissionSequence : Nat := 1 + (sequences root).foldl max 0

def inconsistentAdmission : Exc :=
  admissionRequiresReview "Interrupted or inconsistent Setup admission requires review"

def checkJobClaim (entry : Text × JobClaim) : Except Exc Unit := do
  let job ← get rules root entry.2.jobId
  raiseWhen (entry.1 ≠ job.status.planSha256) inconsistentAdmission
  checkClaim root job entry.2

def checkReservation (entry : Text × JobClaim) : Except Exc Unit := do
  let job ← get rules root entry.2.jobId
  raiseWhen (entry.1 ≠ job.status.jobId ∨
    root.claims.lookup job.status.planSha256 ≠ some entry.2) inconsistentAdmission
  checkClaim root job entry.2

def artifactJobs : List Text :=
  root.tickets.map (fun entry => entry.1.1) ++ root.phaseClaims.map (fun entry => entry.1.1) ++
    root.results.map (fun entry => entry.1.1) ++ root.systemResults.map fun entry => entry.1

/-- The round of `validate_phase_artifacts` for one job. -/
def checkArtifacts (id : Text) : Except Exc Unit := do
  let job ← get rules root id
  let _ ← records rules root job
  return ()

def checkJob (reviewed : List Text) (entry : Text × SetupJob) : Except Exc Unit := do
  let job ← get rules root entry.1
  let claim ← readClaim root job
  checkClaim root job claim
  match predecessorOf job.request.plan with
  | none => return ()
  | some reference =>
    match reference.field "job_id" with
    | .str old => raiseWhen (old ∉ reviewed) inconsistentAdmission
    | _ => .error inconsistentAdmission

def checkAdmissions : Except Exc Unit := do
  let _ ← root.claims.mapM (checkJobClaim rules root)
  let _ ← root.reservations.mapM (checkReservation rules root)
  let _ ← (artifactJobs root).mapM (checkArtifacts rules root)
  raiseWhen (¬ (sequences root).Nodup) inconsistentAdmission
  let reviewed ← reviewedJobs rules root env
  let _ ← root.jobs.mapM (checkJob rules root reviewed)
  return ()

def effectiveIdentity (job : SetupJob) : Except Exc Identities :=
  if (memberOf job.request.plan.payload "workflow").isSome then do
    let rows ← records rules root job
    match rows.system with
    | none => return job.request.identities
    | some system =>
      return { job.request.identities with
        computerGuid := some system.result.computer.objectGuid }
  else .ok job.request.identities

def Identities.overlap (a b : Identities) : Bool :=
  a.uuid == b.uuid || a.hostname == b.hostname ||
    (a.computerGuid.isSome && a.computerGuid == b.computerGuid)

end

end WebOvpn.Setup
