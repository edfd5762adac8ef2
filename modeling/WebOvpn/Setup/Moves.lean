/-
What the readers of the Setup repository accept, what each of its publications does, and the
runs of calls that may each be cut off anywhere.
-/
import WebOvpn.Lib.Listing
import WebOvpn.Lib.Trail
import WebOvpn.Setup.Phases
import WebOvpn.Setup.Root

namespace WebOvpn.Setup

structure ValidRecord {α : Type} (rules : Rules α) (id : Text) (request : SetupRequest)
    (status : SetupStatus) : Prop where
  workflow : ∀ w, status.workflow = some w → validWorkflow rules request status w = true
  requestJob : request.jobId = id
  statusJob : status.jobId = id
  plan : validPlan rules request.plan request.operation = true
  identity : identities request.plan = some request.identities
  requestMachine : request.machineUuid = request.identities.uuid
  statusMachine : request.machineUuid = status.machineUuid
  operation : request.operation = status.operation
  sequence : request.admissionSequence = status.admissionSequence
  positive : 1 ≤ request.admissionSequence
  planId : status.planId = request.plan.planId
  planSha : status.planSha256 = request.plan.sha256
  requestSha : status.requestSha256 = (rules.digest (.request request)).val
  stage : isStage status.stage = true
  worker : (if status.claimed then status.processIdentity.any validProcess
    else status.processIdentity.isNone && status.state == .queued) = true
  dates : status.createdAt ≤ status.updatedAt
  nonempty : 1 ≤ status.stageHistory.length
  bounded : status.stageHistory.length ≤ maxHistory
  history : validHistory rules request status none status.createdAt status.stageHistory = true
  last : (status.stageHistory.getLast?.any fun entry =>
    entry.state == status.state && entry.stage == status.stage) = true

section

variable {α : Type} {rules : Rules α} {id : Text} {request : SetupRequest} {status : SetupStatus}

theorem validRecord_iff : validRecord rules id request status = true ↔
    ValidRecord rules id request status := by
  unfold validRecord
  simp only [Bool.and_eq_true, beq_iff_eq, decide_eq_true_eq, Option.all_eq_true, and_assoc]
  constructor
  · rintro ⟨h1, h2, h3, h4, h5, h6, h7, h8, h9, h10, h11, h12, h13, h14, h15, h16, h17, h18, h19, h20⟩
    exact ⟨h1, h2, h3, h4, h5, h6, h7, h8, h9, h10, h11, h12, h13, h14, h15, h16, h17, h18, h19, h20⟩
  · rintro ⟨h1, h2, h3, h4, h5, h6, h7, h8, h9, h10, h11, h12, h13, h14, h15, h16, h17, h18, h19, h20⟩
    exact ⟨h1, h2, h3, h4, h5, h6, h7, h8, h9, h10, h11, h12, h13, h14, h15, h16, h17, h18, h19, h20⟩

end

section

variable {rules : SetupRules} {root : Root} {id : Text} {job : SetupJob}

theorem strip_of_isJobId (h : Jobs.isJobId id = true) : Text.strip id = id := by
  apply Text.strip_of_forall
  apply Text.forall_of_fullmatch (q := fun c => c.isSpace = false) ?_ h
  intro p hp c hc
  simp only [List.mem_append] at hp
  have hlit : ∀ {s : String}, ((text s).all fun d => !d.isSpace) = true →
      p ∈ Text.literal s → c.isSpace = false := by
    intro s hs hmem
    obtain ⟨d, hd, rfl⟩ := List.mem_map.1 hmem
    rw [beq_iff_eq.1 hc]
    simpa using List.all_eq_true.1 hs d hd
  rcases hp with ((((hp | hp) | hp) | hp) | hp) | hp
  · exact hlit (by decide) hp
  · rw [List.eq_of_mem_replicate hp] at hc
    exact CodePoint.not_isSpace_of_isDecimal hc
  · exact hlit (by decide) hp
  · rw [List.eq_of_mem_replicate hp] at hc
    exact CodePoint.not_isSpace_of_isDecimal hc
  · exact hlit (by decide) hp
  · rw [List.eq_of_mem_replicate hp] at hc
    exact CodePoint.not_isSpace_of_isLowerHex hc

structure Root.Has (rules : SetupRules) (root : Root) (id : Text) (job : SetupJob) : Prop where
  stored : root.jobs.lookup id = some job
  valid : ValidRecord rules id job.request job.status

theorem get_eq_ok : get rules root id = .ok job ↔
    Jobs.isJobId (Text.strip id) = true ∧ root.Has rules (Text.strip id) job := by
  unfold get
  constructor
  · intro h
    split_ifs at h with hid
    cases hjob : root.jobs.lookup (Text.strip id) with
    | none =>
      rw [hjob] at h
      cases h
    | some stored =>
      rw [hjob] at h
      dsimp only at h
      split_ifs at h with hvl
      cases h
      exact ⟨hid, hjob, validRecord_iff.1 hvl⟩
  · rintro ⟨hid, hst, hvl⟩
    rw [if_pos hid, hst]
    dsimp only
    rw [if_pos (validRecord_iff.2 hvl)]

theorem get_of_has (hid : Jobs.isJobId id = true) (h : root.Has rules id job) :
    get rules root id = .ok job := by
  rw [get_eq_ok, strip_of_isJobId hid]
  exact ⟨hid, h⟩

theorem has_of_get (h : get rules root id = .ok job) :
    Text.strip id = job.status.jobId ∧ Jobs.isJobId job.status.jobId = true ∧
      root.Has rules job.status.jobId job := by
  obtain ⟨hid, hhs⟩ := get_eq_ok.1 h
  have hnm := hhs.valid.statusJob
  rw [hnm]
  exact ⟨rfl, hid, hhs⟩

theorem checkClaim_eq_ok {claim : JobClaim} {u : Unit} : checkClaim root job claim = .ok u ↔
    claim = claimOf job ∧ root.reservations.lookup job.status.jobId = some claim := by
  unfold checkClaim
  rw [raiseWhen_eq_ok, not_or, not_not, not_not]

theorem readClaim_eq_ok {claim : JobClaim} : readClaim root job = .ok claim ↔
    root.claims.lookup job.status.planSha256 = some claim := by
  unfold readClaim
  cases root.claims.lookup job.status.planSha256 with
  | _ => simp

theorem rowsOf_row (id : Text) (phase : WorkPhase) :
    (rowsOf root id).row phase = rowOf root id phase := by
  cases phase <;> rfl

structure Recorded (rules : SetupRules) (root : Root) (job : SetupJob) (w : WorkflowSpec) :
    Prop where
  spec : phaseSpec rules job = .ok w
  system : (rowsOf root job.status.jobId).system.all (validSystemResult rules job w) = true
  current : ∀ s, job.status.workflow = some s → (rowsOf root job.status.jobId).system.any
      (fun r => s.systemResultSha256 == systemSha rules r) = true
  founded : (rowOf root job.status.jobId .user).ticket.isSome ∨
    (rowOf root job.status.jobId .finalDns).ticket.isSome → (rowsOf root job.status.jobId).system.isSome
  claim : root.claims.lookup job.status.planSha256 = some (claimOf job)
  reservation : root.reservations.lookup job.status.jobId = some (claimOf job)
  origin : ∀ r, (rowsOf root job.status.jobId).system = some r →
    r.claimSha256 = jobClaimSha rules (claimOf job) ∧ job.status.processIdentity = some r.processIdentity
  row : ∀ phase, validRow rules job w (rowsOf root job.status.jobId).system phase
    (rowOf root job.status.jobId phase) = true
  order : (rowOf root job.status.jobId .finalDns).ticket.isSome →
    (rowOf root job.status.jobId .user).result.any
      (fun r => r.result.status == .appliedVerified) = true
  references : ∀ s phase r, job.status.workflow = some s → s.ref phase = some r →
    validReference rules phase (rowOf root job.status.jobId phase) r = true

theorem records_eq_ok {rows : Rows} : records rules root job = .ok rows ↔
    rows = rowsOf root job.status.jobId ∧ ∃ w, Recorded rules root job w := by
  unfold records
  simp only [bind_eq_ok, raiseWhen_eq_ok, exists_const, readClaim_eq_ok,
    checkClaim_eq_ok, Bool.not_eq_false, Bool.not_eq_true, Option.any_eq_false]
  constructor
  · rintro ⟨w, hsp, hsys, hcur, hfou, claim, hcl, ⟨rfl, hrs⟩, hor,
      huse, hfn, hord, href, hro⟩
    cases hro
    refine ⟨rfl, w, hsp, hsys, ?_, ?_, hcl, hrs, ?_, ?_, ?_, ?_⟩
    · intro s hs
      simpa using hcur s hs
    · intro htc
      by_contra hnn
      exact hfou ⟨htc, by simpa using hnn⟩
    · intro r hr
      have hsm := hor r hr
      simp only [Bool.or_eq_false_iff, bne_eq_false_iff_eq] at hsm
      exact ⟨hsm.1, hsm.2.symm⟩
    · intro phase
      cases phase with
      | user => exact huse
      | finalDns => exact hfn
    · intro hticket
      by_contra hnn
      apply hord ⟨hticket, ?_⟩
      rwa [Bool.not_eq_true, Option.any_eq_false] at hnn
    · intro s phase r hs hr
      have hbot := href s hs
      simp only [Bool.not_eq_false', Bool.and_eq_true, Option.all_eq_true] at hbot
      cases phase with
      | user => exact hbot.1 r hr
      | finalDns => exact hbot.2 r hr
  · rintro ⟨rfl, w, hw⟩
    refine ⟨w, hw.spec, hw.system, ?_, ?_, claimOf job, hw.claim, ⟨rfl, hw.reservation⟩, ?_,
      hw.row .user, hw.row .finalDns, ?_, ?_, rfl⟩
    · intro s hs
      simpa using hw.current s hs
    · rintro ⟨htc, hnn⟩
      have hso := hw.founded htc
      rw [Option.isNone_iff_eq_none.1 hnn] at hso
      cases hso
    · intro r hr
      obtain ⟨hcl, hpr⟩ := hw.origin r hr
      rw [hcl, hpr]
      simp
    · rintro ⟨hticket, hnn⟩
      obtain ⟨r, hr, hap⟩ := (Option.any_eq_true _ _).1 (hw.order hticket)
      rw [hnn r hr] at hap
      cases hap
    · intro s hs
      simp only [Bool.not_eq_false', Bool.and_eq_true, Option.all_eq_true]
      exact ⟨fun r hr => hw.references s .user r hs hr, fun r hr => hw.references s .finalDns r hs hr⟩

end

end WebOvpn.Setup

namespace WebOvpn

open Op

namespace Setup

def Root.addClaim (root : Root) (sha256 : Text) (claim : JobClaim) : Root :=
  { root with claims := root.claims ++ [(sha256, claim)] }

def Root.addReservation (root : Root) (id : Text) (claim : JobClaim) : Root :=
  { root with reservations := root.reservations ++ [(id, claim)] }

def Root.addJob (root : Root) (id : Text) (job : SetupJob) : Root :=
  { root with jobs := root.jobs ++ [(id, job)] }

def Root.addReview (root : Root) (old : Text) (review : Review) : Root :=
  { root with reviews := root.reviews ++ [(old, review)] }

def Root.addSystemResult (root : Root) (id : Text) (r : SystemResult) : Root :=
  { root with systemResults := root.systemResults ++ [(id, r)] }

def Root.addTicket (root : Root) (key : PhaseKey) (t : Ticket) : Root :=
  { root with tickets := root.tickets ++ [(key, t)] }

def Root.addPhaseClaim (root : Root) (key : PhaseKey) (c : PhaseClaim) : Root :=
  { root with phaseClaims := root.phaseClaims ++ [(key, c)] }

def Root.addResult (root : Root) (key : PhaseKey) (r : PhaseResult) : Root :=
  { root with results := root.results ++ [(key, r)] }

def Root.addAdmission (root : Root) (key : PhaseKey) : Root :=
  { root with admissions := root.admissions ++ [key] }

structure NewJob (rules : SetupRules) where
  plan : SetupPlan
  operation : Operation
  identity : Identities
  id : Jobs.JobId
  sequence : Nat
  now : Instant
  valid : validPlan rules plan operation = true
  identified : identities plan = some identity

namespace NewJob

variable {rules : SetupRules}

def request (new : NewJob rules) : SetupRequest :=
  newRequest new.plan new.operation new.identity new.id.val new.sequence

def job (new : NewJob rules) : SetupJob := ⟨new.request, newStatus rules new.request new.now⟩

def claim (new : NewJob rules) : JobClaim := claimOf new.job

end NewJob

structure Working (rules : SetupRules) (root : Root) (id : Text) (job : SetupJob)
    (w : WorkflowSpec) : Prop where
  has : root.Has rules id job
  known : job.status.state ≠ .unknownRequiresReview
  recorded : Recorded rules root job w

def SetupStatus.advanced (status : SetupStatus) (workflow : WorkflowStatus) (state : State)
    (stage : Text) (now : Instant) : SetupStatus :=
  { status with workflow := some workflow }.moved state stage now

/-- The reference to a ticket that has just been published. -/
def ticketRef (rules : SetupRules) (phase : WorkPhase) (ticket : Ticket) : PhaseRef :=
  ⟨ticketSha rules phase ticket, none, none, ticket.admissionSequence, none⟩

/-- The statuses that follow an artifact: the point, the state, the stage and the
workflow part, for a job with the given artifacts. -/
inductive PhaseStep (rules : SetupRules) (status : SetupStatus) (rows : Rows) :
    SetupPoint → State → Text → WorkflowStatus → Prop
  | system {record : SystemResult} {state : State}
      (hbefore : status.state = .running ∨ status.state = .verifying)
      (hnone : status.workflow = none) (hrecord : rows.system = some record)
      (hstate : state = .waitingReboot ∨ state = .waitingFirstLogin) :
      PhaseStep rules status rows (.statusPublished status.jobId) state (text state.name)
        ⟨.user, none, none, systemSha rules record⟩
  | enqueued {phase : WorkPhase} {workflow : WorkflowStatus} {ticket : Ticket}
      (hbefore : status.state = .waitingReboot ∨ status.state = .waitingFirstLogin ∨ status.state = .queued)
      (hworkflow : status.workflow = some workflow) (href : workflow.ref phase = none)
      (hticket : (rows.row phase).ticket = some ticket) :
      PhaseStep rules status rows (.statusPublished status.jobId) .queued (workStage phase .queued)
        ({ workflow with currentPhase := phase }.setRef phase (ticketRef rules phase ticket))
  | claimed {phase : WorkPhase} {workflow : WorkflowStatus} {ref : PhaseRef} {claim : PhaseClaim}
      (hbefore : status.state = .queued) (hworkflow : status.workflow = some workflow)
      (href : workflow.ref phase = some ref) (hclaim : (rows.row phase).claim = some claim)
      (hresult : (rows.row phase).result = none) :
      PhaseStep rules status rows (.statusPublished status.jobId) .preflight
        (workStage phase .preflight)
        (workflow.setRef phase { ref with
          claimSha256 := some (claimSha rules phase claim)
          processIdentity := some claim.processIdentity })
  | started {phase : WorkPhase} {workflow : WorkflowStatus}
      (hbefore : status.state = .preflight) (hworkflow : status.workflow = some workflow)
      (hclaim : (rows.row phase).claim.isSome) (hresult : (rows.row phase).result = none) :
      PhaseStep rules status rows (.started status.jobId phase) .running (workStage phase .apply)
        workflow
  | completed {phase : WorkPhase} {workflow : WorkflowStatus} {ref : PhaseRef}
      {record : PhaseResult} {outcome : OutcomeStatus}
      (hbefore : status.state = .preflight ∨ status.state = .running ∨ status.state = .verifying)
      (hworkflow : status.workflow = some workflow) (href : workflow.ref phase = some ref)
      (hnew : ref.resultSha256 = none) (hrecord : (rows.row phase).result = some record)
      (houtcome : record.result.status = outcome) :
      PhaseStep rules status rows (.statusPublished status.jobId)
        (afterResult phase outcome workflow.currentPhase).1
        (afterResult phase outcome workflow.currentPhase).2.1
        ({ workflow with
            currentPhase := (afterResult phase outcome workflow.currentPhase).2.2 }.setRef phase
          { ref with resultSha256 := some (resultSha rules phase record) })
  | finalized {workflow : WorkflowStatus} {state : State} {step : WorkStep}
      (hbefore : status.state = .verifying ∨ status.state = .waitingFirstLogin)
      (hworkflow : status.workflow = some workflow) (hresult : (rows.row .finalDns).result.isSome)
      (hstate : state = .waitingFirstLogin ∨ state = .degraded ∨ state = .successful) :
      PhaseStep rules status rows (.statusPublished status.jobId) state (workStage .finalDns step)
        workflow

/-- The publications with their guards. -/
inductive Move (rules : SetupRules) : Root → SetupPoint → Root → Prop
  | planBurned {root : Root} (new : NewJob rules) (env : Env) {prior : Option Text}
      (hfr : root.claims.lookup new.plan.sha256 = none)
      (hseq : new.sequence = nextAdmissionSequence root)
      (had : admissible rules env new.plan new.operation new.identity root = .ok prior) :
      Move rules root (.planBurned new.plan.sha256) (root.addClaim new.plan.sha256 new.claim)
  | reserved {root : Root} (new : NewJob rules)
      (hfr : root.reservations.lookup new.id.val = none) :
      Move rules (root.addClaim new.plan.sha256 new.claim) (.reserved new.id.val)
        ((root.addClaim new.plan.sha256 new.claim).addReservation new.id.val new.claim)
  | jobPublished {root : Root} (new : NewJob rules) (env : Env) {prior : Option Text}
      (hcl : root.claims.lookup new.plan.sha256 = none)
      (hrs : root.reservations.lookup new.id.val = none)
      (hfr : root.jobs.lookup new.id.val = none)
      (hseq : new.sequence = nextAdmissionSequence root)
      (had : admissible rules env new.plan new.operation new.identity root = .ok prior) :
      Move rules
        ((root.addClaim new.plan.sha256 new.claim).addReservation new.id.val new.claim)
        (.jobPublished new.id.val)
        (((root.addClaim new.plan.sha256 new.claim).addReservation new.id.val new.claim).addJob
          new.id.val new.job)
  | reviewPublished {root : Root} {env : Env} {id old : Text} {job : SetupJob} {reference : Members}
      (hjob : root.Has rules id job) (hfr : root.reviews.lookup old = none)
      (href : predecessorOf job.request.plan = some reference)
      (hpi : validatePredecessor rules root env job.request.plan = .ok (some old)) :
      Move rules root (.reviewPublished old)
        (root.addReview old ⟨reference, job.status.jobId, job.status.planSha256⟩)
  | jobClaimed {root : Root} {id : Text} {job : SetupJob} {process : ProcessIdentity} {now : Instant}
      (hjob : root.Has rules id job) (hque : job.status.state = .queued)
      (hunc : job.status.claimed = false)
      (hvl : ValidRecord rules id job.request
        ({ job.status with claimed := true, processIdentity := some process }.moved .preflight
          "preflight" now)) :
      Move rules root (.jobClaimed id)
        (setStatus id ({ job.status with claimed := true, processIdentity := some process }.moved
          .preflight "preflight" now) root)
  | transitioned {root : Root} {id stage : Text} {job : SetupJob} {state : State} {now : Instant}
      (hjob : root.Has rules id job) (hcd : job.status.claimed = true)
      (hworkf : job.status.workflow.isSome → state = .unknownRequiresReview)
      (hst : state ∈ job.status.state.transitions)
      (hvl : ValidRecord rules id job.request (job.status.moved state stage now)) :
      Move rules root (.transitioned id) (setStatus id (job.status.moved state stage now) root)
  | systemPublished {root : Root} {id : Text} {job : SetupJob} {w : WorkflowSpec}
      {record : SystemResult} (hwr : Working rules root id job w)
      (hfr : root.systemResults.lookup id = none)
      (hst : job.status.state = .running ∨ job.status.state = .verifying)
      (hpr : job.status.processIdentity = some record.processIdentity)
      (hsha : record.claimSha256 = jobClaimSha rules (claimOf job))
      (hvl : validSystemResult rules job w record = true) :
      Move rules root (.systemPublished id) (root.addSystemResult id record)
  | ticketPublished {root : Root} {id : Text} {phase : WorkPhase} {job : SetupJob}
      {w : WorkflowSpec} {system : SystemResult} {ticket : Ticket}
      (hwr : Working rules root id job w)
      (hsys : root.systemResults.lookup id = some system)
      (hfr : root.tickets.lookup (id, phase) = none)
      (huse : phase = .finalDns → (rowOf root id .user).result.any
        (fun r => r.result.status == .appliedVerified) = true)
      (hra : validReady rules job phase ticket.readiness system = true)
      (hseq : ticket.admissionSequence = nextAdmissionSequence root)
      (hvl : validTicket rules job w phase ticket = true) :
      Move rules root (.ticketPublished id phase) (root.addTicket (id, phase) ticket)
  | phaseAdmitted {root : Root} {id : Text} {phase : WorkPhase} {job : SetupJob}
      {w : WorkflowSpec} (hwr : Working rules root id job w)
      (hque : job.status.state = .queued) :
      Move rules root (.phaseAdmitted id phase) (root.addAdmission (id, phase))
  | claimPublished {root : Root} {id : Text} {phase : WorkPhase} {job : SetupJob}
      {w : WorkflowSpec} {system : SystemResult} {ticket : Ticket} {claim : PhaseClaim}
      (hwr : Working rules root id job w)
      (hsys : root.systemResults.lookup id = some system)
      (htc : root.tickets.lookup (id, phase) = some ticket)
      (hque : job.status.state = .queued) (hfr : root.phaseClaims.lookup (id, phase) = none)
      (hra : validReady rules job phase claim.readiness system = true)
      (hsc : Members.field claim.readiness "scope" = Members.field ticket.readiness "scope")
      (hsha : claim.ticketSha256 = ticketSha rules phase ticket)
      (hvl : validClaim rules job w phase claim = true) :
      Move rules root (.claimPublished id phase) (root.addPhaseClaim (id, phase) claim)
  | resultPublished {root : Root} {id : Text} {phase : WorkPhase} {job : SetupJob}
      {w : WorkflowSpec} {ticket : Ticket} {claim : PhaseClaim} {record : PhaseResult}
      (hwr : Working rules root id job w)
      (htc : root.tickets.lookup (id, phase) = some ticket)
      (hcl : root.phaseClaims.lookup (id, phase) = some claim)
      (hfr : root.results.lookup (id, phase) = none)
      (hticke : record.ticketSha256 = ticketSha rules phase ticket)
      (hca : record.claimSha256 = claimSha rules phase claim)
      (hpr : record.processIdentity = claim.processIdentity)
      (hvl : validResult rules job w phase record = true) :
      Move rules root (.resultPublished id phase) (root.addResult (id, phase) record)
  | advanced {root : Root} {id stage : Text} {job : SetupJob} {w : WorkflowSpec}
      {point : SetupPoint} {state : State} {workflow : WorkflowStatus} {now : Instant}
      (hwr : Working rules root id job w)
      (hse : PhaseStep rules job.status (rowsOf root id) point state stage workflow)
      (hmt : workflowMatches rules (rowsOf root id) workflow = true)
      (hvl : ValidRecord rules id job.request (job.status.advanced workflow state stage now)) :
      Move rules root point (setStatus id (job.status.advanced workflow state stage now) root)

end Setup

end WebOvpn
