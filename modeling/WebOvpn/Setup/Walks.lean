/-
Every publication of every call is a move, and runs of calls that may each be
cut off anywhere.
-/
import WebOvpn.Setup.Moves
import WebOvpn.Lib.Run

namespace WebOvpn

open Op

namespace Setup

variable {rules : SetupRules} {env : Env} {root : Root}

/-- Every publication of the operation from `root` is a move. -/
def Moving {α : Type} (rules : SetupRules) (m : SetupOp α) (root : Root) : Prop :=
  Follows m (fun point root root' => Move rules root point root') root fun _ _ => True

/-- An operation that is followed by one that publishes nothing. -/
theorem Moving.bind {α β : Type} {m : SetupOp α} {f : α → SetupOp β} (hm : Moving rules m root)
    (hf : ∀ a root', Moving rules (f a) root') : Moving rules (m >>= f) root :=
  Follows.walks_bind hm fun a root' _ => hf a root'

variable {point : SetupPoint} {id : Text} {job : SetupJob} {w : WorkflowSpec} {phase : WorkPhase}
    {I : List SetupPoint → Root → Prop}

theorem moving_publishNew {β : Type} {doc : Document Artifact} {isTaken : Root → Bool}
    {g : Root → Root} {f : Unit → SetupOp β}
    (hmv : isTaken root = false → Move rules root point (g root))
    (hf : isTaken root = false → Moving rules (f ()) (g root)) :
    Moving rules (publishNew rules doc isTaken point g >>= f) root := by
  unfold publishNew
  simp only [bind_assoc]
  apply walks_raiseIf_bind
  intro _
  apply walks_look_bind
  intro taken htk
  cases htk
  apply walks_raiseIf_bind
  intro hfr
  rw [Bool.not_eq_true] at hfr
  exact follows_step_bind (hmv hfr) (hf hfr)

theorem moving_publishStatusFile {status : SetupStatus}
    (hmv : Move rules root point (setStatus id status root)) :
    Moving rules (publishStatusFile rules id status point) root := by
  unfold publishStatusFile
  apply walks_raiseIf_bind
  intro _
  exact follows_step hmv trivial

theorem moving_moveJob {status : SetupStatus} {state : State} {stage : Text}
    (hmv : state ∈ job.status.state.transitions → ValidRecord rules job.status.jobId job.request
        (status.moved state (stageOr state stage) env.now) → Move rules root point
        (setStatus job.status.jobId (status.moved state (stageOr state stage) env.now) root)) :
    Moving rules (moveJob rules env job status state stage point) root := by
  unfold moveJob
  apply walks_raiseIf_bind
  intro hst
  apply walks_raiseIf_bind
  intro _
  apply walks_raiseIf_bind
  intro hvl
  apply moving_publishStatusFile
  exact hmv (not_not.1 hst) (validRecord_iff.1 (Bool.of_not_eq_false hvl))

theorem moving_publishStatus {state : State} {stage : Text} {workflow : WorkflowStatus}
    (hhs : root.Has rules job.status.jobId job)
    (hst : PhaseStep rules job.status (rowsOf root job.status.jobId) point state stage workflow) :
    Moving rules (publishStatus rules env job state stage workflow point) root := by
  unfold publishStatus
  apply walks_raiseIf_bind
  intro hkn
  apply walks_look_bind
  intro rows hrs
  obtain ⟨rfl, w, hrc⟩ := records_eq_ok.1 hrs
  apply walks_raiseIf_bind
  intro hmt
  apply walks_raiseIf_bind
  intro hvl
  apply walks_raiseIf_bind
  intro _
  apply moving_publishStatusFile
  exact .advanced ⟨hhs, hkn, hrc⟩ hst (by simpa using hmt)
    (validRecord_iff.1 (Bool.of_not_eq_false hvl))

theorem moving_transition (id : Text) (state : State) (stage : Text) :
    Moving rules (transition rules env id state stage) root := by
  unfold transition
  apply walks_look_bind
  intro job hjob
  obtain ⟨-, -, hhs⟩ := has_of_get hjob
  apply walks_raiseIf_bind
  intro hcl
  apply walks_raiseIf_bind
  intro hwr
  apply Moving.bind _ fun _ _ => walks_look
  apply moving_moveJob
  intro hst hvl
  refine .transitioned hhs (by simpa using hcl) ?_ hst hvl
  intro hsm
  by_contra hne
  exact hwr ⟨hsm, hne⟩

theorem moving_claimJob (id : Text) (process : ProcessIdentity) :
    Moving rules (claimJob rules env id process) root := by
  unfold claimJob
  apply walks_raiseIf_bind
  intro _
  apply walks_look_bind
  intro _ _
  apply walks_look_bind
  intro job hjob
  obtain ⟨-, -, hhs⟩ := has_of_get hjob
  apply walks_raiseIf_bind
  intro hfr
  rw [not_or, not_not, Bool.not_eq_true] at hfr
  apply Moving.bind _ fun _ _ => walks_look
  apply moving_moveJob
  intro _ hvl
  exact .jobClaimed hhs hfr.1 hfr.2 hvl

theorem moving_publishReview (hhs : root.Has rules id job) :
    Moving rules (publishReview rules env job) root := by
  unfold publishReview
  apply walks_look_bind
  intro old hold
  cases old with
  | none => exact walks_pure
  | some old =>
    cases href : predecessorOf job.request.plan with
    | none => exact walks_pure
    | some reference =>
      dsimp only
      rw [← bind_pure (publishNew _ _ _ _ _)]
      apply moving_publishNew
      · intro hfr
        exact .reviewPublished hhs (by simpa using hfr) href hold
      · intro _
        exact walks_pure

theorem moving_publishJob {plan : SetupPlan} {operation : Operation} {identity : Identities}
    {prior : Option Text} (hpl : validPlan rules plan operation = true)
    (hide : identities plan = some identity)
    (had : admissible rules env plan operation identity root = .ok prior) :
    Moving rules (publishJob rules env plan operation identity) root := by
  let new : NewJob rules :=
    ⟨plan, operation, identity, env.newId, nextAdmissionSequence root, env.now, hpl, hide⟩
  unfold publishJob
  apply walks_look_bind
  intro sequence hseq
  cases hseq
  apply moving_publishNew
  · intro hfr
    exact .planBurned new env (by simpa using hfr) rfl had
  intro hcl
  apply moving_publishNew
  · intro hfr
    exact .reserved new (by simpa using hfr)
  intro hrs
  apply walks_raiseIf_bind
  intro _
  apply moving_publishNew
  · intro hfr
    exact .jobPublished new env (by simpa using hcl) (by simpa using hrs)
      (by simpa using hfr) rfl had
  intro _
  apply walks_look_bind
  intro job hjob
  exact (moving_publishReview (has_of_get hjob).2.2).bind fun _ _ => walks_pure

theorem moving_submit (plan : SetupPlan) (operation : Operation) :
    Moving rules (submit rules env plan operation) root := by
  unfold submit
  split
  · next identity hpl hide =>
      apply walks_raiseIf_bind
      intro _
      apply walks_look_bind
      intro consumed hcos
      cases consumed with
      | some claim => exact walks_look
      | none =>
        apply walks_look_bind
        intro prior hpr
        exact moving_publishJob hpl hide hpr
  · exact walks_raise

theorem has_of_actor (h : actor rules env id root = .ok job) :
    root.Has rules job.status.jobId job ∧ job.status.state ≠ .unknownRequiresReview ∧
      ∃ w, phaseSpec rules job = .ok w := by
  unfold actor at h
  simp only [bind_eq_ok, raiseWhen_eq_ok, exists_const] at h
  obtain ⟨stored, hget, hkn, w, hsp, -, hjob⟩ := h
  cases hjob
  exact ⟨(has_of_get hget).2.2, hkn, w, hsp⟩

theorem Recorded.spec_unique {w' : WorkflowSpec}
    (h : Recorded rules root job w) (hsp : phaseSpec rules job = .ok w') : w' = w := by
  have hsm := hsp.symm.trans h.spec
  cases hsm
  rfl

theorem Recorded.ref_none (h : Recorded rules root job w)
    {s : WorkflowStatus} (hs : job.status.workflow = some s)
    (htc : (rowOf root job.status.jobId phase).ticket = none) : s.ref phase = none := by
  cases href : s.ref phase with
  | none => rfl
  | some r =>
    have hvl := h.references s phase r hs href
    unfold validReference at hvl
    rw [htc] at hvl
    simp at hvl

theorem Recorded.result_none (h : Recorded rules root job w)
    {s : WorkflowStatus} (hs : job.status.workflow = some s) {r : PhaseRef} (href : s.ref phase = some r)
    (hrs : (rowOf root job.status.jobId phase).result = none) : r.resultSha256 = none := by
  have hvl := h.references s phase r hs href
  unfold validReference at hvl
  rw [hrs] at hvl
  cases hsha : r.resultSha256 with
  | none => rfl
  | some sha =>
    rw [hsha] at hvl
    simp at hvl

theorem Recorded.result_none_of_claim (h : Recorded rules root job w)
    (hcl : root.phaseClaims.lookup (job.status.jobId, phase) = none) :
    root.results.lookup (job.status.jobId, phase) = none := by
  cases hrs : root.results.lookup (job.status.jobId, phase) with
  | none => rfl
  | some r =>
    have hrow := h.row phase
    unfold validRow rowOf at hrow
    rw [hcl, hrs] at hrow
    simp at hrow

/-- The admissions of the phases are not among the artifacts. -/
theorem Recorded.addAdmission {key : PhaseKey}
    (h : Recorded rules root job w) : Recorded rules (root.addAdmission key) job w :=
  ⟨h.spec, h.system, h.current, h.founded, h.claim, h.reservation, h.origin, h.row, h.order, h.references⟩

theorem moving_start (id : Text) (phase : WorkPhase) (claim : PhaseClaim) :
    Moving rules (start rules env id phase claim) root := by
  unfold start
  apply walks_look_bind
  intro job hjob
  obtain ⟨hhs, -, -⟩ := has_of_actor hjob
  apply walks_look_bind
  intro rows hrs
  obtain ⟨rfl, w, hrc⟩ := records_eq_ok.1 hrs
  apply walks_raiseIf_bind
  intro hga
  simp only [not_or, not_not] at hga
  obtain ⟨hst, hcl, hre, -⟩ := hga
  cases hwr : job.status.workflow with
  | none => exact walks_raise
  | some workflow =>
    apply Moving.bind _ fun _ _ => walks_look
    apply moving_publishStatus hhs
    exact .started hst hwr (by rw [hcl]; rfl) (by simpa using hre)

theorem moving_reconcile (id : Text) : Moving rules (reconcile rules env id) root := by
  unfold reconcile
  apply walks_look_bind
  intro job hjob
  apply walks_look_bind
  intro rows hrs
  apply walks_look_bind
  intro verdict hvr
  split_ifs
  · exact (moving_transition id .unknownRequiresReview _).bind fun _ _ => walks_pure
  · exact walks_pure

theorem moving_completeSystem (id : Text) (outcome : SystemOutcome) :
    Moving rules (completeSystem rules env id outcome) root := by
  unfold completeSystem
  apply walks_look_bind
  intro job hjob
  obtain ⟨hhs, hkn, -⟩ := has_of_actor hjob
  apply walks_raiseIf_bind
  intro _
  apply walks_look_bind
  intro rows hrs
  obtain ⟨rfl, w, hrc⟩ := records_eq_ok.1 hrs
  apply walks_raiseIf_bind
  intro hnn
  apply walks_raiseIf_bind
  intro hga
  simp only [not_or, not_and_or, not_not] at hga
  obtain ⟨hst, hpr⟩ := hga
  apply walks_look_bind
  intro claim hcl
  have hown := (readClaim_eq_ok.1 hcl).symm.trans hrc.claim
  cases hown
  apply walks_lift_bind
  intro w' hsp
  obtain rfl := hrc.spec_unique hsp
  apply walks_raiseIf_bind
  intro hvl
  -- without a system result the status has no workflow part yet
  have hwr : job.status.workflow = none := by
    cases hs : job.status.workflow with
    | none => rfl
    | some s =>
      have hcur := hrc.current s hs
      rw [Option.not_isSome_iff_eq_none.1 hnn] at hcur
      cases hcur
  apply moving_publishNew
  · intro hfr
    exact .systemPublished ⟨hhs, hkn, hrc⟩ (by simpa using hfr) hst hpr rfl
      (Bool.of_not_eq_false hvl)
  intro hfr
  apply Moving.bind _ fun _ _ => walks_pure
  apply moving_publishStatus
  · exact ⟨hhs.stored, hhs.valid⟩
  · apply PhaseStep.system hst hwr (lookup_concat_self (by simpa using hfr))
    split_ifs
    · exact .inl rfl
    · exact .inr rfl

theorem moving_enqueue (id : Text) (phase : WorkPhase) (ready : Members) :
    Moving rules (enqueue rules env id phase ready) root := by
  unfold enqueue
  apply walks_look_bind
  intro job hjob
  obtain ⟨hhs, hkn, -⟩ := has_of_actor hjob
  apply walks_raiseIf_bind
  intro hga
  simp only [not_and_or, not_not] at hga
  apply walks_look_bind
  intro rows hrs
  obtain ⟨rfl, w, hrc⟩ := records_eq_ok.1 hrs
  cases hsys : (rowsOf root job.status.jobId).system with
  | none => exact walks_raise
  | some system =>
    apply walks_raiseIf_bind
    intro _
    apply walks_raiseIf_bind
    intro huse
    apply walks_raiseIf_bind
    intro hra
    apply walks_look_bind
    intro _ _
    apply walks_look_bind
    intro sequence hseq
    cases hseq
    apply walks_lift_bind
    intro w' hsp
    obtain rfl := hrc.spec_unique hsp
    apply walks_raiseIf_bind
    intro hvl
    apply moving_publishNew
    · intro hfr
      refine .ticketPublished ⟨hhs, hkn, hrc⟩ hsys (by simpa using hfr) ?_
        (Bool.of_not_eq_false hra) rfl (Bool.of_not_eq_false hvl)
      intro hph
      by_contra hnn
      exact huse ⟨hph, Bool.eq_false_of_not_eq_true hnn⟩
    intro hfr
    have hnn : root.tickets.lookup (job.status.jobId, phase) = none := by simpa using hfr
    cases hwr : job.status.workflow with
    | none => exact walks_raise
    | some workflow =>
      apply Moving.bind _ fun _ _ => walks_pure
      apply moving_publishStatus
      · exact ⟨hhs.stored, hhs.valid⟩
      · apply PhaseStep.enqueued hga hwr (hrc.ref_none hwr hnn)
        rw [rowsOf_row]
        exact lookup_concat_self hnn

theorem moving_claimPhase (id : Text) (phase : WorkPhase) (identity : ProcessIdentity) :
    Moving rules (claimPhase rules env id phase identity) root := by
  unfold claimPhase
  apply walks_look_bind
  intro job hjob
  obtain ⟨hhs, hkn, -⟩ := has_of_actor hjob
  apply walks_look_bind
  intro rows hrs
  obtain ⟨rfl, w, hrc⟩ := records_eq_ok.1 hrs
  rw [rowsOf_row]
  split
  · next ticket system htc hsys =>
      apply walks_raiseIf_bind
      intro hga
      simp only [not_or, not_not] at hga
      obtain ⟨hque, -⟩ := hga
      apply walks_raiseIf_bind
      intro _
      apply walks_raiseIf_bind
      intro _
      apply walks_look_bind
      intro _ _
      apply walks_raiseIf_bind
      intro _
      split
      · exact walks_raise
      · next admission ready _ =>
          apply walks_look_bind
          intro _ _
          apply walks_raiseIf_bind
          intro _
          apply follows_step_bind (.phaseAdmitted ⟨hhs, hkn, hrc⟩ hque)
          have hwork : Working rules (root.addAdmission (job.status.jobId, phase))
              job.status.jobId job w := ⟨⟨hhs.stored, hhs.valid⟩, hkn, hrc.addAdmission⟩
          apply walks_raiseIf_bind
          intro hsc
          rw [Bool.not_eq_false, Bool.and_eq_true, beq_iff_eq] at hsc
          apply walks_raiseIf_bind
          intro _
          apply walks_look_bind
          intro _ _
          apply walks_lift_bind
          intro w' hsp
          obtain rfl := hrc.spec_unique hsp
          apply walks_raiseIf_bind
          intro hvl
          apply moving_publishNew
          · intro hfr
            exact .claimPublished hwork hsys htc hque (by simpa using hfr) hsc.1
              hsc.2 rfl (Bool.of_not_eq_false hvl)
          intro hfr
          have hnn : root.phaseClaims.lookup (job.status.jobId, phase) = none := by
            simpa using hfr
          split
          · next workflow ref hwr href =>
              apply Moving.bind _ fun _ _ => walks_pure
              apply moving_publishStatus
              · exact ⟨hhs.stored, hhs.valid⟩
              · rw [hwr] at href
                apply PhaseStep.claimed hque hwr href
                · rw [rowsOf_row]
                  exact lookup_concat_self hnn
                · rw [rowsOf_row]
                  exact hrc.result_none_of_claim hnn
          · exact walks_raise
  · exact walks_raise

theorem moving_complete (id : Text) (phase : WorkPhase) (outcome : Outcome) :
    Moving rules (complete rules env id phase outcome) root := by
  unfold complete
  apply walks_look_bind
  intro job hjob
  obtain ⟨hhs, hkn, -⟩ := has_of_actor hjob
  apply walks_raiseIf_bind
  intro _
  apply walks_look_bind
  intro rows hrs
  obtain ⟨rfl, w, hrc⟩ := records_eq_ok.1 hrs
  rw [rowsOf_row]
  apply walks_raiseIf_bind
  intro _
  split
  · next ticket claim workflow htc hcl hwr =>
      apply walks_raiseIf_bind
      intro hga
      simp only [not_or, not_and_or, not_not] at hga
      obtain ⟨hpr, hst⟩ := hga
      apply walks_lift_bind
      intro w' hsp
      obtain rfl := hrc.spec_unique hsp
      apply walks_raiseIf_bind
      intro hvl
      apply moving_publishNew
      · intro hfr
        exact .resultPublished ⟨hhs, hkn, hrc⟩ htc hcl (by simpa using hfr) rfl
          rfl hpr (Bool.of_not_eq_false hvl)
      intro hfr
      have hnn : root.results.lookup (job.status.jobId, phase) = none := by simpa using hfr
      cases href : workflow.ref phase with
      | none => exact walks_raise
      | some ref =>
        apply Moving.bind _ fun _ _ => walks_pure
        apply moving_publishStatus
        · exact ⟨hhs.stored, hhs.valid⟩
        · have hnew := hrc.result_none hwr href hnn
          apply PhaseStep.completed hst hwr href hnew
          · rw [rowsOf_row]
            exact lookup_concat_self hnn
          · rfl
  · exact walks_raise

theorem FinalProof.state_cases (proof : FinalProof) (status : OutcomeStatus) :
    proof.state status = .waitingFirstLogin ∨ proof.state status = .degraded ∨
      proof.state status = .successful := by
  unfold FinalProof.state
  split_ifs with hfresh hback
  · exact .inl rfl
  · exact .inr (.inl rfl)
  · exact .inr (.inr rfl)

theorem moving_finalizeWorkflow (id : Text) (proof : FinalProof) :
    Moving rules (finalizeWorkflow rules env id proof) root := by
  unfold finalizeWorkflow
  apply walks_look_bind
  intro job hjob
  obtain ⟨hhs, -, -⟩ := has_of_actor hjob
  apply walks_look_bind
  intro rows hrs
  obtain ⟨rfl, -, -⟩ := records_eq_ok.1 hrs
  apply walks_raiseIf_bind
  intro hga
  rw [not_and_or, not_not, not_not] at hga
  split
  · next finalDns workflow _ _ hre hwr =>
      apply walks_raiseIf_bind
      intro _
      apply walks_raiseIf_bind
      intro _
      apply walks_raiseIf_bind
      intro _
      split
      · exact walks_pure
      · apply moving_publishStatus ⟨hhs.stored, hhs.valid⟩
        exact .finalized hga hwr (Option.isSome_iff_exists.2 ⟨_, hre⟩) (proof.state_cases _)
  · exact walks_raise

inductive Call where
  | submit (plan : SetupPlan) (operation : Operation)
  | claimJob (id : Text) (process : ProcessIdentity)
  | transition (id : Text) (state : State) (stage : Text)
  | enqueue (id : Text) (phase : WorkPhase) (ready : Members)
  | claimPhase (id : Text) (phase : WorkPhase) (identity : ProcessIdentity)
  | start (id : Text) (phase : WorkPhase) (claim : PhaseClaim)
  | completeSystem (id : Text) (outcome : SystemOutcome)
  | complete (id : Text) (phase : WorkPhase) (outcome : Outcome)
  | reconcile (id : Text)
  | finalizeWorkflow (id : Text) (proof : FinalProof)

def Call.stopAfter (rules : SetupRules) (env : Env) (root : Root) (n : Nat) :
    Call → List SetupPoint × Root
  | .submit plan operation => Op.stopAfter (Setup.submit rules env plan operation) root n
  | .claimJob id process => Op.stopAfter (Setup.claimJob rules env id process) root n
  | .transition id state stage => Op.stopAfter (Setup.transition rules env id state stage) root n
  | .enqueue id phase ready => Op.stopAfter (Setup.enqueue rules env id phase ready) root n
  | .claimPhase id phase identity =>
    Op.stopAfter (Setup.claimPhase rules env id phase identity) root n
  | .start id phase claim => Op.stopAfter (Setup.start rules env id phase claim) root n
  | .completeSystem id outcome => Op.stopAfter (Setup.completeSystem rules env id outcome) root n
  | .complete id phase outcome => Op.stopAfter (Setup.complete rules env id phase outcome) root n
  | .reconcile id => Op.stopAfter (Setup.reconcile rules env id) root n
  | .finalizeWorkflow id proof => Op.stopAfter (Setup.finalizeWorkflow rules env id proof) root n

/-- A call in what it finds around it, cut off after some publications; a call that
is not cut off has a large number. -/
structure Attempt where
  env : Env
  call : Call
  publications : Nat

/-- A state root with all publications so far. -/
structure Journal where
  points : List SetupPoint
  root : Root

def Journal.empty : Journal := ⟨[], Root.empty⟩

def attempt (rules : SetupRules) (j : Journal) (a : Attempt) : Journal :=
  ⟨j.points ++ (a.call.stopAfter rules a.env j.root a.publications).1,
    (a.call.stopAfter rules a.env j.root a.publications).2⟩

theorem Call.stopAfter_trail (env : Env) (call : Call) (n : Nat) :
    ∃ passed, Trail (fun point root root' => Move rules root point root') root passed
      (call.stopAfter rules env root n).2 ∧
      (call.stopAfter rules env root n).1 = passed.map Prod.fst := by
  cases call with
  | submit plan operation => exact (moving_submit plan operation).stopAfter n
  | claimJob id process => exact (moving_claimJob id process).stopAfter n
  | transition id state stage => exact (moving_transition id state stage).stopAfter n
  | enqueue id phase ready => exact (moving_enqueue id phase ready).stopAfter n
  | claimPhase id phase identity => exact (moving_claimPhase id phase identity).stopAfter n
  | start id phase claim => exact (moving_start id phase claim).stopAfter n
  | completeSystem id outcome => exact (moving_completeSystem id outcome).stopAfter n
  | complete id phase outcome => exact (moving_complete id phase outcome).stopAfter n
  | reconcile id => exact (moving_reconcile id).stopAfter n
  | finalizeWorkflow id proof => exact (moving_finalizeWorkflow id proof).stopAfter n

/-- A property of journals that every move keeps. -/
def Kept (rules : SetupRules) (I : List SetupPoint → Root → Prop) : Prop :=
  ∀ points root point root', I points root → Move rules root point root' → I (points ++ [point]) root'

theorem Kept.attempt (hkp : Kept rules I) {j : Journal} (h : I j.points j.root) (a : Attempt) :
    I (Setup.attempt rules j a).points (Setup.attempt rules j a).root := by
  obtain ⟨passed, htr, hpt⟩ := a.call.stopAfter_trail a.env a.publications
  unfold Setup.attempt
  rw [hpt]
  exact htr.keeps h fun points point root root' h hmv => hkp points root point root' h hmv

/-- What every move keeps holds after every run. -/
theorem Kept.run (hkp : Kept rules I) (hem : I [] Root.empty) (steps : List Attempt) :
    I (run (Setup.attempt rules) .empty steps).points (run (Setup.attempt rules) .empty steps).root :=
  run_keeps (P := fun j : Journal => I j.points j.root) hem fun _ a h => hkp.attempt h a

end Setup

end WebOvpn
