/-
The operations of `SetupJobRepository` and `WorkflowPhaseStore`, publication by publication:
tickets, claims and results of the phases of a job.
-/
import WebOvpn.Setup.Root

namespace WebOvpn

open Op

namespace Setup

/-- The publications. -/
inductive SetupPoint where
  | planBurned (sha256 : Text)
  | reserved (id : Text)
  | jobPublished (id : Text)
  | reviewPublished (old : Text)
  | jobClaimed (id : Text)
  | transitioned (id : Text)
  | systemPublished (id : Text)
  | ticketPublished (id : Text) (phase : WorkPhase)
  | phaseAdmitted (id : Text) (phase : WorkPhase)
  | claimPublished (id : Text) (phase : WorkPhase)
  | resultPublished (id : Text) (phase : WorkPhase)
  /-- The status that follows a ticket, a claim or a result. -/
  | statusPublished (id : Text)
  /-- The status of a phase that is started. -/
  | started (id : Text) (phase : WorkPhase)
deriving DecidableEq

abbrev SetupOp := Op (History Root SetupPoint) Exc

variable (rules : SetupRules) (env : Env)

/-- `private_create`: nothing larger than a state file may be, and no file twice. -/
def publishNew (doc : Document Artifact) (isTaken : Root → Bool) (point : SetupPoint)
    (f : Root → Root) : SetupOp Unit := do
  raiseIf (maxStateBytes < rules.size doc)
    (fail "setup_state_invalid" "Setup state exceeds size limit")
  let taken ← look fun root => .ok (isTaken root)
  raiseIf (taken = true) .os
  step point f

def setStatus (id : Text) (status : SetupStatus) (root : Root) : Root :=
  { root with jobs := root.jobs.map fun entry =>
      if entry.1 = id then (id, { entry.2 with status }) else entry }

/-- `private_replace` of a status. -/
def publishStatusFile (id : Text) (status : SetupStatus) (point : SetupPoint) : SetupOp Unit := do
  raiseIf (maxStateBytes < rules.size (.status status))
    (fail "setup_state_invalid" "Setup state exceeds size limit")
  step point (setStatus id status)

def SetupStatus.moved (status : SetupStatus) (state : State) (stage : Text) (now : Instant) :
    SetupStatus :=
  { status with
    state, stage, updatedAt := now
    stageHistory := status.stageHistory ++ [⟨state, stage, now⟩] }

def stageOr (state : State) (stage : Text) : Text := if stage = [] then text state.name else stage

def moveJob (job : SetupJob) (status : SetupStatus) (state : State) (stage : Text)
    (point : SetupPoint) : SetupOp Unit := do
  raiseIf (state ∉ job.status.state.transitions)
    (fail "setup_job_transition_invalid" "Setup job transition is invalid")
  let stageId := stageOr state stage
  raiseIf (isStage stageId = false)
    (fail "setup_job_stage_invalid" "Setup job stage identifier is invalid")
  let moved := status.moved state stageId env.now
  raiseIf (validRecord rules job.status.jobId job.request moved = false) setupJobInvalid
  publishStatusFile rules job.status.jobId moved point

def transition (id : Text) (state : State) (stage : Text) : SetupOp SetupJob := do
  let job ← look fun root => get rules root id
  raiseIf (job.status.claimed = false)
    (fail "setup_job_not_claimed" "Setup transitions require the original worker claim")
  raiseIf (job.status.workflow.isSome ∧ state ≠ .unknownRequiresReview)
    (fail "setup_phase_authority_required"
      "Workflow transitions require their original durable phase authority")
  moveJob rules env job job.status state stage (.transitioned job.status.jobId)
  look fun root => get rules root id

def claimJob (id : Text) (process : ProcessIdentity) : SetupOp SetupJob := do
  raiseIf (validProcess process = false)
    (fail "setup_process_identity_invalid" "Worker process identity is invalid")
  look fun root => checkAdmissions rules root env
  let job ← look fun root => get rules root id
  raiseIf (job.status.state ≠ .queued ∨ job.status.claimed = true)
    (fail "setup_job_already_claimed" "A Setup job can only be claimed once")
  moveJob rules env job { job.status with claimed := true, processIdentity := some process }
    .preflight [] (.jobClaimed job.status.jobId)
  look fun root => get rules root id

/-- The request that `submit` stores. -/
def newRequest (plan : SetupPlan) (operation : Operation) (identity : Identities) (id : Text)
    (sequence : Nat) : SetupRequest :=
  { operation, jobId := id, machineUuid := identity.uuid, identities := identity, plan
    admissionSequence := sequence }

def newStatus (request : SetupRequest) (now : Instant) : SetupStatus :=
  { operation := request.operation, jobId := request.jobId, machineUuid := request.machineUuid
    planId := request.plan.planId, planSha256 := request.plan.sha256
    requestSha256 := (rules.digest (.request request)).val
    admissionSequence := request.admissionSequence
    state := .queued, stage := "created"
    stageHistory := [⟨.queued, "created", now⟩]
    createdAt := now, updatedAt := now, claimed := false, processIdentity := none
    workflow := none }

def consumedPlan (plan : SetupPlan) (operation : Operation) (root : Root) (claim : JobClaim) :
    Except Exc SetupJob :=
  match get rules root claim.jobId with
  | .error _ => .error (admissionRequiresReview
      "Consumed plan has incomplete or inconsistent admission evidence")
  | .ok old =>
    if checkClaim root old claim = .ok () ∧ old.request.plan = plan ∧
        old.request.operation = operation then .ok old
    else .error (admissionRequiresReview
      "Consumed plan has incomplete or inconsistent admission evidence")

/-- The round of `submit` for one reservation. -/
def checkReserved (identity : Identities) (free : List Text) (root : Root)
    (entry : Text × JobClaim) : Except Exc Unit := do
  let job ← get rules root entry.2.jobId
  checkClaim root job entry.2
  if job.status.jobId ∉ free ∧ job.status.state.isActive then do
    let effective ← effectiveIdentity rules root job
    raiseWhen (identity.overlap effective = true) (fail "setup_job_identity_reserved"
      "UUID, hostname or AD computer identity is already reserved")
  else .ok ()

/-- The checks of `submit` against everything that is stored: the predecessor. -/
def admissible (plan : SetupPlan) (operation : Operation) (identity : Identities) (root : Root) :
    Except Exc (Option Text) := do
  raiseWhen (env.planIntact plan operation = false)
    (fail "setup_plan_mismatch" "Published Setup plan differs")
  checkAdmissions rules root env
  let prior ← validatePredecessor rules root env plan
  let reviewed ← reviewedJobs rules root env
  raiseWhen (prior.any (fun old => reviewed.contains old) = true)
    (fail "setup_retry_already_reviewed" "This predecessor already has a confirmed successor")
  raiseWhen (env.legacyBusy identity = true)
    (fail "setup_active_job" "Machine has an unresolved legacy execution")
  let _ ← root.reservations.mapM (checkReserved rules identity (reviewed ++ prior.toList) root)
  return prior

def publishReview (job : SetupJob) : SetupOp Unit := do
  let old ← look fun root => validatePredecessor rules root env job.request.plan
  match old, predecessorOf job.request.plan with
  | some old, some reference =>
    publishNew rules (.artifact (.review ⟨reference, job.status.jobId, job.status.planSha256⟩))
      (fun root => (root.reviews.lookup old).isSome) (.reviewPublished old)
      (fun root => { root with reviews := root.reviews ++
        [(old, ⟨reference, job.status.jobId, job.status.planSha256⟩)] })
  | _, _ => pure ()

/-- The publications of `submit`. -/
def publishJob (plan : SetupPlan) (operation : Operation)
    (identity : Identities) : SetupOp SetupJob := do
  let sequence ← look fun root => .ok (nextAdmissionSequence root)
  let id := env.newId.val
  let request := newRequest plan operation identity id sequence
  let status := newStatus rules request env.now
  let claim := claimOf ⟨request, status⟩
  -- the first write burns the plan
  publishNew rules (.artifact (.jobClaim claim))
    (fun root => (root.claims.lookup plan.sha256).isSome) (.planBurned plan.sha256)
    (fun root => { root with claims := root.claims ++ [(plan.sha256, claim)] })
  publishNew rules (.artifact (.jobClaim claim))
    (fun root => (root.reservations.lookup id).isSome) (.reserved id)
    (fun root => { root with reservations := root.reservations ++ [(id, claim)] })
  raiseIf (maxStateBytes < rules.size (.status status))
    (fail "setup_state_invalid" "Setup state exceeds size limit")
  publishNew rules (.request request) (fun root => (root.jobs.lookup id).isSome) (.jobPublished id)
    (fun root => { root with jobs := root.jobs ++ [(id, ⟨request, status⟩)] })
  let job ← look fun root => get rules root id
  publishReview rules env job
  return job

def submit (plan : SetupPlan) (operation : Operation) : SetupOp SetupJob :=
  match validPlan rules plan operation, identities plan with
  | true, some identity => do
      raiseIf (env.pending = true) (fail "setup_partial_local_unresolved"
        "An entered partial-local recovery has no verified successful result")
      let consumed ← look fun root => .ok (root.claims.lookup plan.sha256)
      match consumed with
      | some claim => look fun root => consumedPlan rules plan operation root claim
      | none => do
          let _ ← look (admissible rules env plan operation identity)
          publishJob rules env plan operation identity
  | _, _ => raise (fail "setup_plan_invalid" "Setup job requires an intact supported plan")

variable (rules : SetupRules) (env : Env)

def actor (id : Text) (root : Root) : Except Exc SetupJob := do
  let job ← get rules root id
  raiseWhen (job.status.state = .unknownRequiresReview) (denied "setup_phase_consumed")
  let _ ← phaseSpec rules job
  raiseWhen (env.sourcesIntact job.request.plan = false) (denied "setup_phase_source_changed")
  return job

/-- The reference names exactly the artifacts of the phase. -/
def refMatches (phase : WorkPhase) (row : Row) (r : PhaseRef) : Bool :=
  row.ticket.map (ticketSha rules phase) == some r.ticketSha256 &&
  row.claim.map (claimSha rules phase) == r.claimSha256 &&
  row.result.map (resultSha rules phase) == r.resultSha256

def workflowMatches (rows : Rows) (w : WorkflowStatus) : Bool :=
  rows.system.map (systemSha rules) == some w.systemResultSha256 &&
  w.user.all (refMatches rules .user rows.user) &&
  w.finalDns.all (refMatches rules .finalDns rows.finalDns)

/-- `_publish_status`.  The execution record is written between the checks and
the status; nothing here reads it. -/
def publishStatus (job : SetupJob) (state : State) (stage : Text) (workflow : WorkflowStatus)
    (point : SetupPoint) : SetupOp Unit := do
  raiseIf (job.status.state = .unknownRequiresReview) phaseInvalid
  let rows ← look fun root => records rules root job
  raiseIf (workflowMatches rules rows workflow = false) phaseInvalid
  let status := { job.status with workflow := some workflow }.moved state stage env.now
  raiseIf (validRecord rules job.status.jobId job.request status = false) setupJobInvalid
  raiseIf (env.executionReadable = false) (denied "setup_phase_publication_unverified")
  publishStatusFile rules job.status.jobId status point

def enqueue (id : Text) (phase : WorkPhase) (ready : Members) : SetupOp Ticket := do
  let job ← look (actor rules env id)
  raiseIf (job.status.state ≠ .waitingReboot ∧ job.status.state ≠ .waitingFirstLogin ∧
    job.status.state ≠ .queued) phaseInvalid
  let rows ← look fun root => records rules root job
  match rows.system with
  | none => raise (denied "setup_phase_consumed")
  | some system => do
      raiseIf ((rows.row phase).ticket.isSome = true) (denied "setup_phase_consumed")
      raiseIf (phase = .finalDns ∧
        rows.user.result.any (fun r => r.result.status == .appliedVerified) = false) phaseInvalid
      raiseIf (validReady rules job phase ready system = false)
        (denied "setup_phase_readiness_unverified")
      look fun root => checkAdmissions rules root env
      let sequence ← look fun root => .ok (nextAdmissionSequence root)
      let w ← lift (phaseSpec rules job)
      let ticket : Ticket :=
        { base := baseOf job w (w.phase phase), createdAt := env.now, admissionSequence := sequence
          readiness := ready, readinessSha256 := readySha rules ready }
      raiseIf (validTicket rules job w phase ticket = false) phaseInvalid
      publishNew rules (.artifact (.ticket phase ticket))
        (fun root => (root.tickets.lookup (job.status.jobId, phase)).isSome)
        (.ticketPublished job.status.jobId phase)
        (fun root => { root with tickets := root.tickets ++ [((job.status.jobId, phase), ticket)] })
      let ref : PhaseRef := ⟨ticketSha rules phase ticket, none, none, sequence, none⟩
      match job.status.workflow with
      | none => raise (denied "setup_phase_publication_unverified")
      | some workflow => do
          publishStatus rules env job .queued (workStage phase .queued)
            ({ workflow with currentPhase := phase }.setRef phase ref)
            (.statusPublished job.status.jobId)
          return ticket

/-- The round of `eligible_candidates` for one job: its sequence number and what
it waits for. -/
def candidateOf (root : Root) (entry : Text × SetupJob) :
    Except Exc (Option (Nat × Text × Option WorkPhase)) := do
  let job ← get rules root entry.1
  if job.status.state = .queued then
    match job.status.claimed, job.status.workflow with
    | false, _ => return some (job.status.admissionSequence, job.status.jobId, none)
    | true, none => return none
    | true, some w => do
        let phase := w.currentPhase
        let rows ← records rules root job
        match (rows.row phase).ticket, (rows.row phase).claim, rows.system,
          env.observe job.status.jobId phase with
        | some ticket, none, some system, some ready =>
          if validReady rules job phase ready system &&
              ready.field "scope" == Members.field ticket.readiness "scope" then
            return some (ticket.admissionSequence, job.status.jobId, some phase)
          else return none
        | _, _, _, _ => return none
  else return none

def isQueueHead (id : Text) (phase : WorkPhase) (root : Root) : Except Exc Bool := do
  let found ← root.jobs.mapM (candidateOf rules env root)
  let candidates := found.filterMap fun candidate => candidate
  return candidates.any fun own => own.2 == (id, some phase) &&
    candidates.all fun other => own.1 ≤ other.1

def claimPhase (id : Text) (phase : WorkPhase) (identity : ProcessIdentity) : SetupOp PhaseClaim := do
  let job ← look (actor rules env id)
  let rows ← look fun root => records rules root job
  match (rows.row phase).ticket, rows.system with
  | some ticket, some system => do
      raiseIf (job.status.state ≠ .queued ∨ (rows.row phase).claim.isSome = true)
        (denied "setup_phase_consumed")
      raiseIf (identity ≠ env.process) (denied "setup_phase_worker_unverified")
      let scopeMatches (ready : Members) : Bool := validReady rules job phase ready system &&
        ready.field "scope" == Members.field ticket.readiness "scope"
      raiseIf ((env.observe job.status.jobId phase).any scopeMatches = false)
        (denied "setup_phase_readiness_unverified")
      let head ← look (isQueueHead rules env job.status.jobId phase)
      raiseIf (head = false) (denied "setup_phase_not_queue_head")
      match env.admission with
      | none => raise (denied "setup_phase_admission_unverified")
      | some (admission, ready) => do
          -- the admission service publishes its own record first
          let admitted ← look fun root =>
            .ok (root.admissions.contains (job.status.jobId, phase))
          raiseIf (admitted = true) (denied "setup_phase_admission_unverified")
          step (.phaseAdmitted job.status.jobId phase) fun root =>
            { root with admissions := root.admissions ++ [(job.status.jobId, phase)] }
          raiseIf (scopeMatches ready = false) (denied "setup_phase_readiness_unverified")
          raiseIf (validAdmission admission job phase (ticketSha rules phase ticket) = false)
            phaseInvalid
          look fun root => checkAdmissions rules root env
          let w ← lift (phaseSpec rules job)
          let claim : PhaseClaim :=
            { base := baseOf job w (w.phase phase), createdAt := env.now
              ticketSha256 := ticketSha rules phase ticket
              readiness := ready, readinessSha256 := readySha rules ready
              processIdentity := identity, admission }
          raiseIf (validClaim rules job w phase claim = false) phaseInvalid
          publishNew rules (.artifact (.phaseClaim phase claim))
            (fun root => (root.phaseClaims.lookup (job.status.jobId, phase)).isSome)
            (.claimPublished job.status.jobId phase)
            (fun root => { root with
              phaseClaims := root.phaseClaims ++ [((job.status.jobId, phase), claim)] })
          match job.status.workflow, job.status.workflow.bind (·.ref phase) with
          | some workflow, some ref => do
              publishStatus rules env job .preflight (workStage phase .preflight)
                (workflow.setRef phase { ref with
                  claimSha256 := some (claimSha rules phase claim)
                  processIdentity := some identity })
                (.statusPublished job.status.jobId)
              return claim
          | _, _ => raise (denied "setup_phase_publication_unverified")
  | _, _ => raise (denied "setup_phase_consumed")

def start (id : Text) (phase : WorkPhase) (claim : PhaseClaim) : SetupOp SetupJob := do
  let job ← look (actor rules env id)
  let rows ← look fun root => records rules root job
  raiseIf (job.status.state ≠ .preflight ∨ (rows.row phase).claim ≠ some claim ∨
    (rows.row phase).result.isSome = true ∨ claim.processIdentity ≠ env.process) phaseInvalid
  match job.status.workflow with
  | none => raise phaseInvalid
  | some workflow => do
      publishStatus rules env job .running (workStage phase .apply) workflow
        (.started job.status.jobId phase)
      look fun root => get rules root id

def completeSystem (id : Text) (outcome : SystemOutcome) : SetupOp SystemResult := do
  let job ← look (actor rules env id)
  raiseIf (validSystemOutcome rules job outcome = false) (denied "setup_phase_result_unverified")
  let rows ← look fun root => records rules root job
  raiseIf (rows.system.isSome = true) (denied "setup_phase_consumed")
  raiseIf ((job.status.state ≠ .running ∧ job.status.state ≠ .verifying) ∨
    job.status.processIdentity ≠ some env.process) phaseInvalid
  let claim ← look fun root => readClaim root job
  let w ← lift (phaseSpec rules job)
  let record : SystemResult :=
    { base := baseOf job w w.system, createdAt := env.now, claimSha256 := jobClaimSha rules claim
      processIdentity := env.process, result := outcome }
  raiseIf (validSystemResult rules job w record = false) phaseInvalid
  publishNew rules (.artifact (.systemResult record))
    (fun root => (root.systemResults.lookup job.status.jobId).isSome)
    (.systemPublished job.status.jobId)
    (fun root => { root with
      systemResults := root.systemResults ++ [(job.status.jobId, record)] })
  let state : State := if outcome.rebootRequired then .waitingReboot else .waitingFirstLogin
  publishStatus rules env job state (text state.name)
    ⟨.user, none, none, systemSha rules record⟩ (.statusPublished job.status.jobId)
  return record

def afterResult (phase : WorkPhase) (status : OutcomeStatus) (current : WorkPhase) :
    State × Text × WorkPhase :=
  if status = .outcomeUnverified then
    (.unknownRequiresReview, workStage phase .outcomeUnverified, current)
  else match phase with
    | .user => (.waitingFirstLogin, workStage .finalDns .waiting, .finalDns)
    | .finalDns => (.verifying, workStage .finalDns .verify, current)

def complete (id : Text) (phase : WorkPhase) (outcome : Outcome) : SetupOp PhaseResult := do
  let job ← look (actor rules env id)
  raiseIf (validOutcome rules (phase == .finalDns) outcome = false)
    (denied "setup_phase_result_unverified")
  let rows ← look fun root => records rules root job
  raiseIf ((rows.row phase).result.isSome = true) (denied "setup_phase_consumed")
  match (rows.row phase).ticket, (rows.row phase).claim, job.status.workflow with
  | some ticket, some claim, some workflow => do
      raiseIf (env.process ≠ claim.processIdentity ∨ (job.status.state ≠ .preflight ∧
        job.status.state ≠ .running ∧ job.status.state ≠ .verifying)) phaseInvalid
      let w ← lift (phaseSpec rules job)
      let record : PhaseResult :=
        { base := baseOf job w (w.phase phase), createdAt := env.now
          ticketSha256 := ticketSha rules phase ticket
          claimSha256 := claimSha rules phase claim
          processIdentity := env.process, result := outcome }
      raiseIf (validResult rules job w phase record = false) phaseInvalid
      publishNew rules (.artifact (.phaseResult phase record))
        (fun root => (root.results.lookup (job.status.jobId, phase)).isSome)
        (.resultPublished job.status.jobId phase)
        (fun root => { root with results := root.results ++ [((job.status.jobId, phase), record)] })
      let after := afterResult phase outcome.status workflow.currentPhase
      match workflow.ref phase with
      | none => raise (denied "setup_phase_publication_unverified")
      | some ref => do
          publishStatus rules env job after.1 after.2.1
            ({ workflow with currentPhase := after.2.2 }.setRef phase { ref with
              resultSha256 := some (resultSha rules phase record) })
            (.statusPublished job.status.jobId)
          return record
  | _, _, _ => raise phaseInvalid

/-- The artifact of a phase that is published and not referred to, or a claim
without a result, or an admission without a claim. -/
def isUncertain (phase : WorkPhase) (row : Row) (ref : Option PhaseRef) (admitted : Bool) : Bool :=
  row.ticket.map (ticketSha rules phase) != ref.map (·.ticketSha256) ||
  row.claim.map (claimSha rules phase) != ref.bind (·.claimSha256) ||
  row.result.map (resultSha rules phase) != ref.bind (·.resultSha256) ||
  (row.claim.isSome && row.result.isNone) || (admitted && row.claim.isNone)

/-- The verdict of `reconcile`. -/
def uncertain (root : Root) (job : SetupJob) (rows : Rows) : Bool :=
  let ref (phase : WorkPhase) := job.status.workflow.bind (·.ref phase)
  let admitted (phase : WorkPhase) := root.admissions.contains (job.status.jobId, phase)
  (rows.system.isSome && job.status.workflow.isNone) ||
  isUncertain rules .user rows.user (ref .user) (admitted .user) ||
  isUncertain rules .finalDns rows.finalDns (ref .finalDns) (admitted .finalDns)

def reconcile (id : Text) : SetupOp Bool := do
  let job ← look fun root => get rules root id
  let rows ← look fun root => records rules root job
  let verdict ← look fun root => .ok (uncertain rules root job rows)
  if verdict = true ∧ job.status.state ≠ .unknownRequiresReview then do
    let _ ← transition rules env id .unknownRequiresReview "workflow.publication_unverified"
    return verdict
  else return verdict

/-- What `finalize_workflow` finds beside the records: whether the execution record can be read, names
the components of the plan and already waits for the proof, and whether the proof is there. -/
structure FinalProof where
  readable : Bool
  complete : Bool
  waiting : Bool
  fresh : Bool

def FinalProof.state (proof : FinalProof) (status : OutcomeStatus) : State :=
  if proof.fresh = false then .waitingFirstLogin
  else if status = .rolledBackVerified then .degraded
  else .successful

def finalizeWorkflow (id : Text) (proof : FinalProof) : SetupOp Unit := do
  let job ← look (actor rules env id)
  let rows ← look fun root => records rules root job
  raiseIf (job.status.state ≠ .verifying ∧ job.status.state ≠ .waitingFirstLogin)
    (denied "setup_phase_consumed")
  match rows.system, rows.user.result, rows.finalDns.result, job.status.workflow with
  | some _, some user, some finalDns, some workflow => do
      raiseIf (user.result.status ≠ .appliedVerified ∨ finalDns.result.status = .outcomeUnverified)
        (denied "workflow_result_unverified")
      raiseIf (proof.readable = false) setupJobInvalid
      raiseIf (proof.complete = false) (denied "workflow_result_unverified")
      -- the record still says that it waits for the same proof
      if proof.fresh = false ∧ proof.waiting = true ∧ job.status.state = .waitingFirstLogin ∧
          job.status.stage = workStage .finalDns .waiting then return ()
      else
        publishStatus rules env job (proof.state finalDns.result.status)
          (workStage .finalDns (if proof.fresh then .complete else .waiting)) workflow
          (.statusPublished job.status.jobId)
  | _, _, _, _ => raise (denied "workflow_result_unverified")

end Setup

end WebOvpn
