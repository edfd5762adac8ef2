/-
Every stored job has a valid record, and when a claimed job can be closed for
review.
-/
import WebOvpn.Setup.Walks
import WebOvpn.Setup.Encoding

namespace WebOvpn

open Op List

namespace Setup

variable {rules : SetupRules} {env : Env} {root root' : Root} {id : Text} {job : SetupJob}
  {point : SetupPoint}

theorem lookup_setStatus (id : Text) (status : SetupStatus) (root : Root) (key : Text) :
    (setStatus id status root).jobs.lookup key =
      if key = id then (root.jobs.lookup id).map fun job => { job with status }
      else root.jobs.lookup key := by
  unfold setStatus
  dsimp only
  induction root.jobs with
  | nil => simp
  | cons entry rest ih =>
    obtain ⟨name, stored⟩ := entry
    rw [map_cons]
    by_cases hnm : name = id
    · rw [if_pos hnm, hnm]
      by_cases hkey : key = id
      · subst hkey
        rw [if_pos rfl, lookup_cons_self, lookup_cons_self]
        rfl
      · rw [if_neg hkey] at ih ⊢
        rw [lookup_cons_of_ne hkey, lookup_cons_of_ne hkey, ih]
    · rw [if_neg hnm]
      by_cases hkey : key = name
      · subst hkey
        rw [if_neg hnm, lookup_cons_self, lookup_cons_self]
      · rw [lookup_cons_of_ne hkey, ih]
        split_ifs with hid
        · subst hid
          rw [lookup_cons_of_ne hkey]
        · rw [lookup_cons_of_ne hkey]

theorem keys_setStatus (id : Text) (status : SetupStatus) (root : Root) :
    (setStatus id status root).jobs.map Prod.fst = root.jobs.map Prod.fst := by
  unfold setStatus
  rw [map_map]
  apply map_congr_left
  intro entry _
  dsimp only [Function.comp_apply]
  split_ifs with h
  · exact h.symm
  · rfl

theorem isStage_created : isStage "created" = true := by decide

theorem NewJob.validRecord (new : NewJob rules) (hseq : 1 ≤ new.sequence) :
    ValidRecord rules new.id.val new.job.request new.job.status where
  workflow := by
    intro w hw
    cases hw
  requestJob := rfl
  statusJob := rfl
  plan := new.valid
  identity := new.identified
  requestMachine := rfl
  statusMachine := rfl
  operation := rfl
  sequence := rfl
  positive := hseq
  planId := rfl
  planSha := rfl
  requestSha := rfl
  stage := isStage_created
  worker := rfl
  dates := le_refl _
  nonempty := le_refl _
  bounded := Nat.le_add_left 1 1023
  history := by
    change (isStage "created" && decide (new.now ≤ new.now) && decide (new.now ≤ new.now) &&
      (State.queued == State.queued && new.now == new.now) && true) = true
    simp [isStage_created]
  last := by
    change (State.queued == State.queued && "created" == "created") = true
    simp

theorem Move.jobs_cases (h : Move rules root point root') : root'.jobs = root.jobs ∨
    (∃ new : NewJob rules, 1 ≤ new.sequence ∧ root.jobs.lookup new.id.val = none ∧
      root'.jobs = root.jobs ++ [(new.id.val, new.job)]) ∨
    ∃ id job status, root.Has rules id job ∧ job.status.state.isActive = true ∧
      ValidRecord rules id job.request status ∧ root' = setStatus id status root := by
  cases h with
  | planBurned | reserved | reviewPublished | systemPublished | ticketPublished | phaseAdmitted
  | claimPublished | resultPublished => exact .inl rfl
  | jobPublished new env hcl hrs hfr hseq had =>
    refine .inr (.inl ⟨new, ?_, hfr, rfl⟩)
    rw [hseq, nextAdmissionSequence]
    exact Nat.le_add_right 1 _
  | jobClaimed hjob hque hunc hvl =>
    refine .inr (.inr ⟨_, _, _, hjob, ?_, hvl, rfl⟩)
    rw [hque]
    rfl
  | @transitioned root id stage job state now hjob hcd hworkf hst hvl =>
    refine .inr (.inr ⟨_, _, _, hjob, ?_, hvl, rfl⟩)
    cases hbf : job.status.state <;> rw [hbf] at hst <;>
      first | rfl | cases hst
  | advanced hwr hse hmt hvl =>
    refine .inr (.inr ⟨_, _, _, hwr.has, ?_, hvl, rfl⟩)
    cases hse with
    | system hbf => rcases hbf with h | h <;> rw [h] <;> rfl
    | enqueued hbf => rcases hbf with h | h | h <;> rw [h] <;> rfl
    | claimed hbf => rw [hbf]; rfl
    | started hbf => rw [hbf]; rfl
    | completed hbf => rcases hbf with h | h | h <;> rw [h] <;> rfl
    | finalized hbf => rcases hbf with h | h <;> rw [h] <;> rfl

structure Sound (rules : SetupRules) (root : Root) : Prop where
  distinct : (root.jobs.map Prod.fst).Nodup
  stored : ∀ id job, root.jobs.lookup id = some job →
    Jobs.isJobId id = true ∧ ValidRecord rules id job.request job.status

theorem sound_empty : Sound rules Root.empty := by
  constructor
  · exact nodup_nil
  · intro id job hjob
    cases hjob

theorem sound_kept : Kept rules fun _ root => Sound rules root := by
  intro points root point root' h hmv
  rcases hmv.jobs_cases with hjos | ⟨new, hseq, hfr, hjos⟩ |
    ⟨id, job, status, hhs, -, hvl, rfl⟩
  · constructor
    · rw [hjos]
      exact h.distinct
    · rw [hjos]
      exact h.stored
  · constructor
    · rw [hjos]
      exact nodup_concat h.distinct hfr
    · intro key job hkey
      rw [hjos] at hkey
      rcases lookup_concat_eq_some hfr hkey with ⟨rfl, rfl⟩ | ⟨-, hold⟩
      · exact ⟨new.id.property, new.validRecord hseq⟩
      · exact h.stored key job hold
  · constructor
    · rw [keys_setStatus]
      exact h.distinct
    · intro key stored hkey
      rw [lookup_setStatus] at hkey
      split_ifs at hkey with hid
      · subst hid
        rw [hhs.stored] at hkey
        cases hkey
        exact ⟨(h.stored key job hhs.stored).1, hvl⟩
      · exact h.stored key stored hkey

theorem sound_run (steps : List Attempt) : Sound rules (run (attempt rules) .empty steps).root :=
  sound_kept.run sound_empty steps

section

variable {request : SetupRequest} {status status' : SetupStatus}

def mayFollow (rules : SetupRules) (request : SetupRequest) (status : SetupStatus)
    (prior : Option State) (entry : StageEntry) : Bool :=
  match prior with
  | none => entry.state == .queued && entry.time == status.createdAt
  | some prior => prior.transitions.contains entry.state ||
      workflowTransitionAllowed rules request status prior entry.state entry.stage

variable {prior : Option State} {date now : Instant} {entry : StageEntry}
    {history : List StageEntry}

theorem validHistory_cons {rest : List StageEntry} :
    validHistory rules request status prior date (entry :: rest) = true ↔
      isStage entry.stage = true ∧ date ≤ entry.time ∧ entry.time ≤ status.updatedAt ∧
        mayFollow rules request status prior entry = true ∧
        validHistory rules request status (some entry.state) entry.time rest = true := by
  rw [validHistory.eq_def]
  simp only [Bool.and_eq_true, decide_eq_true_eq, and_assoc]
  rfl

theorem validHistory_later (h : validHistory rules request status prior date history = true)
    (hcr : status'.createdAt = status.createdAt) (hupd : status.updatedAt ≤ status'.updatedAt)
    (hall : ∀ previous state stage,
      workflowTransitionAllowed rules request status previous state stage = true →
        workflowTransitionAllowed rules request status' previous state stage = true) :
    validHistory rules request status' prior date history = true := by
  induction history generalizing prior date with
  | nil => rfl
  | cons entry rest ih =>
    rw [validHistory_cons] at h ⊢
    obtain ⟨hst, hdat, htm, hpr, hrs⟩ := h
    refine ⟨hst, hdat, htm.trans hupd, ?_, ih hrs⟩
    cases prior with
    | none =>
      rw [mayFollow] at hpr ⊢
      rw [hcr]
      exact hpr
    | some prior =>
      rw [mayFollow, Bool.or_eq_true] at hpr ⊢
      exact hpr.imp id (hall prior entry.state entry.stage)

theorem validHistory_concat
    {last : StageEntry} (h : validHistory rules request status prior date history = true)
    (hls : history.getLast? = some last) (hsg : isStage entry.stage = true)
    (hdat : last.time ≤ entry.time) (htm : entry.time ≤ status.updatedAt)
    (hst : entry.state ∈ last.state.transitions) :
    validHistory rules request status prior date (history ++ [entry]) = true := by
  induction history generalizing prior date with
  | nil => cases hls
  | cons first rest ih =>
    rw [cons_append, validHistory_cons]
    obtain ⟨hfs, hbf, haf, hpr, hrs⟩ := validHistory_cons.1 h
    refine ⟨hfs, hbf, haf, hpr, ?_⟩
    cases rest with
    | nil =>
      cases hls
      rw [nil_append, validHistory_cons, mayFollow, Bool.or_eq_true,
        contains_eq_mem, decide_eq_true_eq]
      exact ⟨hsg, hdat, htm, .inl hst, rfl⟩
    | cons second more =>
      rw [getLast?_cons_cons] at hls
      exact ih hrs hls

theorem time_le_of_validHistory (h : validHistory rules request status prior date history = true)
    (hen : entry ∈ history) : entry.time ≤ status.updatedAt := by
  induction history generalizing prior date with
  | nil => cases hen
  | cons first rest ih =>
    obtain ⟨-, -, htm, -, hrs⟩ := validHistory_cons.1 h
    rcases mem_cons.1 hen with rfl | hmem
    · exact htm
    · exact ih hrs hmem

theorem validWorkflow_moved {w : WorkflowStatus} {state : State} {stage : Text}
    (hend : (state == .successful || state == .degraded) = false)
    (h : validWorkflow rules request status w = true) :
    validWorkflow rules request (status.moved state stage now) w = true := by
  unfold validWorkflow at h ⊢
  simp only [Bool.and_eq_true] at h ⊢
  refine ⟨h.1, ?_⟩
  change (!(state == .successful || state == .degraded) || _) = true
  rw [hend]
  rfl

theorem workflowTransitionAllowed_moved {state previous next : State} {stage stage' : Text}
    (hend : (state == .successful || state == .degraded) = false)
    (h : workflowTransitionAllowed rules request status previous next stage = true) :
    workflowTransitionAllowed rules request (status.moved state stage' now) previous next stage =
      true := by
  unfold workflowTransitionAllowed at h ⊢
  rw [show (status.moved state stage' now).workflow = status.workflow from rfl]
  cases hw : status.workflow with
  | none =>
    rw [hw] at h
    cases h
  | some w =>
    rw [hw] at h
    simp only [Bool.and_eq_true] at h ⊢
    exact ⟨validWorkflow_moved hend h.1, h.2⟩

theorem ValidRecord.moved (h : ValidRecord rules id request status)
    (hcl : status.claimed = true) {state : State} {stage : Text}
    (hst : state ∈ status.state.transitions)
    (hend : (state == .successful || state == .degraded) = false)
    (hsg : isStage stage = true) (hnow : status.updatedAt ≤ now)
    (hro : status.stageHistory.length < maxHistory) :
    ValidRecord rules id request (status.moved state stage now) where
  workflow := fun w hw => validWorkflow_moved hend (h.workflow w hw)
  requestJob := h.requestJob
  statusJob := h.statusJob
  plan := h.plan
  identity := h.identity
  requestMachine := h.requestMachine
  statusMachine := h.statusMachine
  operation := h.operation
  sequence := h.sequence
  positive := h.positive
  planId := h.planId
  planSha := h.planSha
  requestSha := h.requestSha
  stage := hsg
  worker := by
    have hwr := h.worker
    rw [hcl] at hwr
    change (if status.claimed then status.processIdentity.any validProcess else _) = true
    rw [hcl]
    exact hwr
  dates := h.dates.trans hnow
  nonempty := by
    change 1 ≤ (status.stageHistory ++ [_]).length
    rw [length_append]
    exact Nat.le_add_left 1 _
  bounded := by
    change (status.stageHistory ++ [_]).length ≤ maxHistory
    rw [length_append]
    exact hro
  history := by
    obtain ⟨last, hls, hsm⟩ := (Option.any_eq_true _ _).1 h.last
    simp only [Bool.and_eq_true, beq_iff_eq] at hsm
    have htm := time_le_of_validHistory h.history (mem_of_getLast? hls)
    have hlt : validHistory rules request (status.moved state stage now) none
        status.createdAt status.stageHistory = true :=
      validHistory_later h.history rfl hnow fun _ _ _ => workflowTransitionAllowed_moved hend
    apply validHistory_concat hlt hls hsg (htm.trans hnow) (le_refl now)
    rw [hsm.1]
    exact hst
  last := by
    change ((status.stageHistory ++ [_]).getLast?.any _) = true
    rw [getLast?_concat]
    simp [SetupStatus.moved]

theorem ValidRecord.room {state : State} {stage : Text}
    (h : ValidRecord rules id request (status.moved state stage now)) :
    status.stageHistory.length < maxHistory := by
  have hbd := h.bounded
  change (status.stageHistory ++ [_]).length ≤ maxHistory at hbd
  rw [length_append] at hbd
  exact hbd

end

section

variable {state : State} {stage : Text}

theorem transition_publishes (hid : Jobs.isJobId id = true) (hhs : root.Has rules id job)
    (hcl : job.status.claimed = true)
    (hwr : job.status.workflow.isSome → state = .unknownRequiresReview)
    (hst : state ∈ job.status.state.transitions) (hvl : ValidRecord rules id job.request
      (job.status.moved state (stageOr state stage) env.now))
    (hsz : rules.size (.status (job.status.moved state (stageOr state stage) env.now)) ≤ maxStateBytes) :
    Steps (transition rules env id state stage) root (.transitioned id)
      (setStatus id (job.status.moved state (stageOr state stage) env.now) root)
      { job with status := job.status.moved state (stageOr state stage) env.now } := by
  have hnm := hhs.valid.statusJob
  unfold transition
  apply steps_look_bind
  · exact get_of_has hid hhs
  apply steps_raiseIf_bind (ne_false_of_eq_true hcl)
  apply steps_raiseIf_bind
  · rintro ⟨hsm, hne⟩
    exact hne (hwr hsm)
  unfold moveJob publishStatusFile
  simp only [bind_assoc]
  apply steps_raiseIf_bind (not_not.2 hst)
  apply steps_raiseIf_bind (ne_false_of_eq_true hvl.stage)
  rw [hnm]
  apply steps_raiseIf_bind (ne_false_of_eq_true (validRecord_iff.2 hvl))
  apply steps_raiseIf_bind (Nat.not_lt.2 hsz)
  apply steps_step_look
  apply get_of_has hid
  refine ⟨?_, hvl⟩
  rw [lookup_setStatus, if_pos rfl, hhs.stored]
  rfl

theorem transition_requires (hid : Jobs.isJobId id = true) (hhs : root.Has rules id job) :
    Follows (transition rules env id state stage) (fun _ _ _ => True) root fun r _ =>
      ∀ moved, r = .ok moved → state ∈ job.status.state.transitions ∧
        ValidRecord rules id job.request (job.status.moved state (stageOr state stage) env.now) ∧
        rules.size (.status (job.status.moved state (stageOr state stage) env.now)) ≤
          maxStateBytes := by
  have hnm := hhs.valid.statusJob
  have hras : ∀ (e : Exc) (moved : SetupJob), Except.error e = Except.ok moved →
      state ∈ job.status.state.transitions ∧
        ValidRecord rules id job.request (job.status.moved state (stageOr state stage) env.now) ∧
        rules.size (.status (job.status.moved state (stageOr state stage) env.now)) ≤
          maxStateBytes := by
    intro e moved h
    cases h
  unfold transition
  apply follows_look_bind
  · intro e _
    exact hras e
  intro stored hso
  rw [get_of_has hid hhs] at hso
  cases hso
  apply follows_raiseIf_bind fun _ => hras _
  intro _
  apply follows_raiseIf_bind fun _ => hras _
  intro _
  unfold moveJob publishStatusFile
  simp only [bind_assoc]
  apply follows_raiseIf_bind fun _ => hras _
  intro hst
  apply follows_raiseIf_bind fun _ => hras _
  intro _
  apply follows_raiseIf_bind fun _ => hras _
  intro hvl
  rw [hnm] at hvl
  apply follows_raiseIf_bind fun _ => hras _
  intro hsz
  apply follows_step_bind trivial
  apply follows_look
  intro moved _
  exact ⟨not_not.1 hst, validRecord_iff.1 (Bool.of_not_eq_false hvl), Nat.not_lt.1 hsz⟩

end

def ClosedFits (rules : SetupRules) (status : SetupStatus) (stage : Text) (now : Instant) : Prop :=
  rules.size (.status (status.moved .unknownRequiresReview
    (stageOr .unknownRequiresReview stage) now)) ≤ maxStateBytes

theorem mem_transitions_of_open {state : State} (hend : state.isTerminal = false)
    (hop : state ≠ .unknownRequiresReview) : State.unknownRequiresReview ∈ state.transitions := by
  cases state <;> first | decide | exact absurd rfl hop | cases hend

/-- A job that is stored can always be read again.  A claimed job that has not
ended can be closed for review exactly when it is not closed already, its history
has room for one more entry and the closed status fits into its file. -/
theorem setup_job_closes_iff (steps : List Attempt) :
    (∀ id job, (run (attempt rules) .empty steps).root.jobs.lookup id = some job →
      validRecord rules id job.request job.status = true ∧
        get rules (run (attempt rules) .empty steps).root id = .ok job) ∧
    ∀ env id job stage, (run (attempt rules) .empty steps).root.jobs.lookup id = some job →
      job.status.claimed = true → job.status.state.isTerminal = false →
      job.status.updatedAt ≤ env.now → (stage = [] ∨ isStage stage = true) →
      ((∃ closed, (finish (transition rules env id .unknownRequiresReview stage)
          (run (attempt rules) .empty steps).root).1 = .ok closed) ↔
        job.status.state ≠ .unknownRequiresReview ∧ job.status.stageHistory.length < maxHistory ∧
          ClosedFits rules job.status stage env.now) := by
  have hsn : Sound rules (run (attempt rules) .empty steps).root := sound_run steps
  constructor
  · intro id job hjob
    obtain ⟨hid, hvl⟩ := hsn.stored id job hjob
    exact ⟨validRecord_iff.2 hvl, get_of_has hid ⟨hjob, hvl⟩⟩
  · intro env id job stage hjob hcd hend hnow hsg
    obtain ⟨hid, hvl⟩ := hsn.stored id job hjob
    constructor
    · rintro ⟨closed, hcl⟩
      obtain ⟨hst, hmv, hsz⟩ :=
        (transition_requires hid ⟨hjob, hvl⟩).finish closed hcl
      refine ⟨?_, hmv.room, hsz⟩
      intro hun
      rw [hun] at hst
      cases hst
    · rintro ⟨hop, hro, hsz⟩
      have hst := mem_transitions_of_open hend hop
      have hid' : isStage (stageOr .unknownRequiresReview stage) = true := by
        unfold stageOr
        split_ifs with hem
        · decide
        · exact hsg.resolve_left hem
      have hcs := transition_publishes hid ⟨hjob, hvl⟩ hcd (fun _ => rfl) hst
        (hvl.moved hcd hst rfl hid' hnow hro) hsz
      exact ⟨_, congrArg Prod.fst hcs.finish⟩

def plainRuntime : Runtime where
  repr _ := []
  lower := Text.lower
  floatEquals _ _ := false
  validateSetupRecord _ _ _ := .ok ()
  reviewedJobs _ := .ok []

def componentRules : SetupRules where
  runtime := plainRuntime
  digest := digest
  size := fileSize
  casefold := Text.lower
  archivedWorkflow _ := none
  isPhaseCode _ := false

def componentSha : Text :=
  Sha256.hexDigits 64 0xff8c58b7333d7c647b8e0e0f2438fffff36502d12a9371c9a6db5fc032497696

def componentPlan : SetupPlan where
  schemaVersion := 2
  createdAt := "2025-03-01T09:30:00+00:00"
  expiresAt := "2025-03-01T10:00:00+00:00"
  contentSha256 :=
    Sha256.hexDigits 64 0x8f072c10212e01394f1fd5925f929ed60749538e0e452c99efff16b373d0b97e
  payload :=
    [("machine", object [("uuid", label "4c4c4544-0051-3510-8052-b9c04f4a3232"),
        ("hostname", label "ws-17")]),
      ("computer", object [])]
  operation := some "component_plan"
  planId := text "setup-component-" ++ componentSha
  sha256 := componentSha

def workerProcess : ProcessIdentity :=
  ⟨"0b7d9e52-6f3c-4f0e-9a66-0c5a6a1b2c3d", 4711, 90210⟩

def componentId : Jobs.JobId := ⟨"job-20250301T093000Z-0a1b2c3d", Jobs.isJobId_sample⟩

def quietEnv : Env where
  now := ⟨63876418200000000, second_lt⟩
  evidence _ := true
  pending := false
  planIntact _ _ := true
  legacyBusy _ := false
  sourcesIntact _ := true
  process := workerProcess
  newId := componentId
  observe _ _ := none
  admission := none
  executionReadable := true

/-- The job when its worker has claimed it and recorded `n` stages. -/
def componentJob (n : Nat) : SetupJob where
  request := newRequest componentPlan .component
    ⟨"4c4c4544-0051-3510-8052-b9c04f4a3232", "ws-17", none⟩ componentId.val 1
  status :=
    { operation := .component, jobId := componentId.val
      machineUuid := "4c4c4544-0051-3510-8052-b9c04f4a3232"
      planId := componentPlan.planId, planSha256 := componentSha
      requestSha256 :=
        Sha256.hexDigits 64 0x2b89d86fa9272fea605e21322f3464dd3ef68aef321425aa3d7be22771f7079e
      admissionSequence := 1
      state := if n = 0 then .preflight else .running
      stage := if n = 0 then "preflight" else "running"
      stageHistory := [⟨.queued, "created", quietEnv.now⟩,
        ⟨.preflight, "preflight", quietEnv.now⟩] ++
          List.replicate n ⟨.running, "running", quietEnv.now⟩
      createdAt := quietEnv.now, updatedAt := quietEnv.now, claimed := true
      processIdentity := some workerProcess, workflow := none }

def claimedRun : List Attempt :=
  [⟨quietEnv, .submit componentPlan .component, 4⟩, ⟨quietEnv, .claimJob componentId.val workerProcess, 1⟩]

/-- The worker claims the job and records `n` stages. -/
def componentRun (n : Nat) : List Attempt :=
  claimedRun ++ List.replicate n ⟨quietEnv, .transition componentId.val .running [], 1⟩

theorem claimedRun_job :
    (run (attempt componentRules) .empty claimedRun).root.jobs.lookup componentId.val =
      some (componentJob 0) := by
  decide +kernel

theorem componentJob_moved (n : Nat) :
    (componentJob n).status.moved .running (stageOr .running []) quietEnv.now =
      (componentJob (n + 1)).status := by
  unfold SetupStatus.moved componentJob
  simp only [append_assoc, replicate_succ', Nat.add_eq_zero_iff, one_ne_zero, and_false, if_false]
  rfl

theorem componentJob_size {n : Nat} (hn : n ≤ 1022) :
    fileSize (.status (componentJob n).status) ≤ maxStateBytes := by
  have hbas : fileSize (.status (componentJob n).status.blank) ≤ 1000 := by
    cases n with
    | zero => decide +kernel
    | succ n =>
      change fileSize (.status (componentJob 1).status.blank) ≤ 1000
      decide +kernel
  have hes : ∀ v ∈ (componentJob n).status.stageHistory.map StageEntry.toJson,
      (encode compact v).length ≤ 100 := by
    intro v hv
    obtain ⟨entry, hen, rfl⟩ := mem_map.1 hv
    rcases mem_append.1 hen with hen | hen
    · rcases mem_pair.1 hen with rfl | rfl <;> decide
    · rw [eq_of_mem_replicate hen]
      decide
  have hlen : ((componentJob n).status.stageHistory.map StageEntry.toJson).length = 2 + n := by
    rw [length_map, componentJob, length_append, length_replicate]
    rfl
  have hits := length_encodeItems_le hes
  rw [hlen] at hits
  rw [fileSize_history, maxStateBytes]
  omega

theorem componentRun_succ (n : Nat) : componentRun (n + 1) =
    componentRun n ++ [⟨quietEnv, .transition componentId.val .running [], 1⟩] := by
  unfold componentRun
  rw [replicate_succ', append_assoc]

/-- As long as the history has room, every stage is recorded. -/
theorem componentRun_job {n : Nat} (hn : n ≤ 1022) :
    (run (attempt componentRules) .empty (componentRun n)).root.jobs.lookup componentId.val =
      some (componentJob n) := by
  induction n with
  | zero => exact claimedRun_job
  | succ n ih =>
    have hjob := ih (by omega)
    have hvl := ((sound_run (componentRun n)).stored _ _ hjob).2
    have hst : State.running ∈ (componentJob n).status.state.transitions := by
      cases n with
      | zero => decide
      | succ n =>
        change State.running ∈ State.running.transitions
        decide
    have hro : (componentJob n).status.stageHistory.length < maxHistory := by
      rw [componentJob, length_append, length_replicate]
      change 2 + n < 1024
      omega
    have hmv : ValidRecord componentRules componentId.val (componentJob n).request
        ((componentJob n).status.moved .running (stageOr .running []) quietEnv.now) :=
      hvl.moved rfl hst rfl (by decide) (le_refl _) hro
    have hsz : fileSize (.status ((componentJob n).status.moved .running
        (stageOr .running []) quietEnv.now)) ≤ maxStateBytes := by
      rw [componentJob_moved]
      exact componentJob_size hn
    have hse := transition_publishes componentId.property ⟨hjob, hvl⟩ rfl
      (fun h => nomatch h) hst hmv hsz
    rw [componentRun_succ, run_append]
    change (Op.stopAfter (transition componentRules quietEnv componentId.val .running [])
      _ 1).2.jobs.lookup componentId.val = _
    rw [hse.stopAfter one_pos, lookup_setStatus, if_pos rfl, hjob, componentJob_moved]
    rfl

/-- A running component job is closed as unknown. -/
theorem setup_job_closes_running :
    get componentRules (run (attempt componentRules) .empty (componentRun 1)).root
      componentId.val = .ok (componentJob 1) ∧
    ∃ closed, (finish (transition componentRules quietEnv componentId.val
      .unknownRequiresReview []) (run (attempt componentRules) .empty (componentRun 1)).root).1 =
        .ok closed := by
  have hjob := componentRun_job (n := 1) (by decide)
  have hlaw := @setup_job_closes_iff componentRules (componentRun 1)
  refine ⟨(hlaw.1 _ _ hjob).2, ?_⟩
  apply (hlaw.2 quietEnv _ _ [] hjob rfl (by decide) (le_refl _) (.inl rfl)).2
  refine ⟨by decide, by decide, ?_⟩
  unfold ClosedFits
  decide +kernel

/-- After 1022 stages the job cannot be closed any more. -/
theorem setup_job_unclosable :
    (run (attempt componentRules) .empty (componentRun 1022)).root.jobs.lookup componentId.val =
      some (componentJob 1022) ∧ (componentJob 1022).status.claimed = true ∧
    (componentJob 1022).status.state = .running ∧ (componentJob 1022).status.updatedAt ≤ quietEnv.now ∧
    ∀ closed, (finish (transition componentRules quietEnv componentId.val
      .unknownRequiresReview []) (run (attempt componentRules) .empty (componentRun 1022)).root).1 ≠
        .ok closed := by
  have hjob := componentRun_job (le_refl 1022)
  have hvl := ((sound_run (componentRun 1022)).stored _ _ hjob).2
  refine ⟨hjob, rfl, rfl, le_refl _, ?_⟩
  intro closed hcl
  obtain ⟨-, hmv, -⟩ :=
    (transition_requires componentId.property ⟨hjob, hvl⟩).finish closed hcl
  have hro := hmv.room
  rw [componentJob, length_append, length_replicate] at hro
  exact absurd hro (lt_irrefl 1024)

end Setup

end WebOvpn
