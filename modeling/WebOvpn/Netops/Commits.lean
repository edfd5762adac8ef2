/-
The dispatches of the control service and the writes that they commit: one
relation says what every write needs and does, and every dispatch is a trail
of it.
-/
import WebOvpn.Lib.Json
import WebOvpn.Lib.Run
import WebOvpn.Lib.Sha256
import WebOvpn.Netops.Reconcile

namespace WebOvpn

open Op List Option

namespace Netops

open Text

def SubjectType.text : SubjectType → Text
  | .asset => WebOvpn.text "asset"
  | .user => WebOvpn.text "user"

def internetPolicyKey (subject : Subject) : Text :=
  text "policy-" ++ (Sha256.hexdigest (asciiBytes (dumps compact (.obj
    [("policy_type", .str "internet_access"), ("subject_type", .str subject.type.text),
      ("subject_key", .str subject.key),
      ("enforcement_scope", .str "all-sites")])))).val

inductive Dispatch where
  | create (input : PlanInput)
  | approve (plan : Text)
  | apply (plan : Text) (granted : Bool) (preflight : Preflight) (replies : List Reply)
  | verify (plan : Text) (finding : Finding)
  | rollback (plan : Text) (granted : Bool) (replies : List Reply) (probed : Bool)
  | reconcile (limit : Nat) (turn : Nat → Turn)

def dispatch (source : Text) : Dispatch → Action Unit
  | .create input => createPlan { input with policyKey := internetPolicyKey input.subject }
  | .approve key => approvePlan key
  | .apply key granted preflight replies => do
      let _ ← applyPlan source key granted preflight replies
      return ()
  | .verify key finding => do
      let _ ← dispatchVerify key finding
      return ()
  | .rollback key granted replies probed => do
      let _ ← rollbackPlan source key granted replies probed
      return ()
  | .reconcile limit turn => do
      let _ ← reconcileDesiredPolicies source limit turn
      return ()

def Dispatch.Passes : Dispatch → Point → Prop
  | .create input, k => k = .created input.key
  | .approve key, k => k ∈ [.transitioned key .validated, .transitioned key .approved]
  | .apply key _ _ _, k => k ∈ [.transitioned key .failed, .transitioned key .applying, .applied key,
      .stepMarked key, .transitioned key .applied]
  | .verify key _, k => k ∈ [.stepMarked key, .transitioned key .failed, .transitioned key .verified,
      .policyRecorded key]
  | .rollback key _ _ _, k => k ∈ [.transitioned key .rollingBack, .undone key, .stepMarked key,
      .transitioned key .rolledBack, .transitioned key .failed]
  | .reconcile _ _, k => ∃ policyKey address, k = .denyAdded policyKey address ∨
      k = .denyRemoved policyKey address

variable {source key : Text} {k : Point} {s t : Control} {plan : Plan} {target : PlanStatus}
  {E : Point → Prop}

def Control.status? (s : Control) (key : Text) : Option PlanStatus := (s.plan? key).map Plan.status

def Control.identity? (s : Control) (key : Text) : Option (Subject × Desired × Text) :=
  (s.plan? key).map Plan.identity

/-- What a write needs of the state and makes of it. -/
inductive Commit : Point → Control → Control → Prop where
  | created {s : Control} {plan : Plan} : s.plan? plan.key = none → plan.status = .draft →
      plan.policyKey = internetPolicyKey plan.subject →
      Commit (.created plan.key) s { s with plans := s.plans ++ [plan] }
  | stepAdded {s : Control} {key : Text} (request : Request) : s.status? key = some .draft →
      Commit (.created key) s (s.editPlan key (Plan.addStep request))
  | transitioned {s : Control} {key : Text} {old target : PlanStatus} : s.status? key = some old →
      target ∈ planTransitions old → target ≠ .cancelled →
      Commit (.transitioned key target) s (s.editPlan key (Plan.withStatus target))
  | stepMarked {s : Control} {key : Text} {old : PlanStatus} {f : Plan → Plan} :
      s.status? key = some old → old ∈ [.applying, .applied, .rollingBack] → Marks f →
      (∀ plan, (f plan).status = plan.status) → Commit (.stepMarked key) s (s.editPlan key f)
  | applied {s : Control} {key : Text} (list : AddressList) : s.status? key = some .applying →
      Commit (.applied key) s { s with router := list }
  | undone {s : Control} {key : Text} (list : AddressList) : s.status? key = some .rollingBack →
      Commit (.undone key) s { s with router := list }
  | policyRecorded {s : Control} {key : Text} {plan : Plan} : s.plan? key = some plan →
      plan.status = .verified →
      Commit (.policyRecorded key) s
        { s with policies := upsertPolicy ⟨plan.subject, plan.desired, key⟩ s.policies }
  | denyAdded {s : Control} (policyKey address : Text) (list : AddressList) :
      Commit (.denyAdded policyKey address) s { s with router := list }
  | denyRemoved {s : Control} (policyKey address : Text) (list : AddressList) :
      Commit (.denyRemoved policyKey address) s { s with router := list }

theorem Control.plan?_append_of_ne (hne : plan.key ≠ key) (s : Control) :
    ({ s with plans := s.plans ++ [plan] } : Control).plan? key = s.plan? key := by
  unfold Control.plan?
  rw [find?_append, find?_singleton, if_neg (by simpa using hne), or_none]

theorem Control.plan?_append_self (hnn : s.plan? plan.key = none) :
    ({ s with plans := s.plans ++ [plan] } : Control).plan? plan.key = some plan := by
  unfold Control.plan? at hnn ⊢
  rw [find?_append, hnn, find?_singleton, if_pos (by simp), none_or]

variable {β : Type} {replies : List Reply} {limit : Nat} {turn : Nat → Turn}

theorem map_plan?_editPlan {f : Plan → Plan} {g : Plan → β}
    (hkey : ∀ plan, (f plan).key = plan.key) (hg : ∀ plan, g (f plan) = g plan) (other : Text) :
    ((s.editPlan key f).plan? other).map g = (s.plan? other).map g := by
  rw [Control.plan?_editPlan_map hkey, Option.map_map]
  congr 1
  funext plan
  simp only [Function.comp_apply]
  split_ifs
  · exact hg plan
  · rfl

theorem Commit.status_after (h : Commit (.transitioned key target) s t) :
    t.status? key = some target := by
  cases h with
  | transitioned hold _ _ =>
    unfold Control.status? at hold ⊢
    rw [Control.plan?_editPlan (marks_withStatus target).key]
    cases hpl : s.plan? key with
    | none =>
      rw [hpl] at hold
      cases hold
    | some plan => rfl

theorem Commit.status? (h : Commit k s t) (key : Text) : t.status? key = s.status? key ∨
      (k = .created key ∧ s.status? key = none ∧ t.status? key = some .draft) ∨
      ∃ old target, k = .transitioned key target ∧ s.status? key = some old ∧
        target ∈ planTransitions old ∧ target ≠ .cancelled ∧ t.status? key = some target := by
  cases h with
  | @created _ plan hnn hst _ =>
    by_cases hkey : plan.key = key
    · subst hkey
      refine .inr (.inl ⟨rfl, ?_, ?_⟩)
      · unfold Control.status?
        rw [hnn]
        rfl
      · unfold Control.status?
        rw [Control.plan?_append_self hnn, map_some, hst]
    · left
      unfold Control.status?
      rw [Control.plan?_append_of_ne hkey]
  | stepAdded request _ =>
    left
    exact map_plan?_editPlan (f := Plan.addStep request) (fun _ => rfl) (fun _ => rfl) key
  | @transitioned _ key' old target hold htg hcn =>
    by_cases hkey : key = key'
    · subst hkey
      refine .inr (.inr ⟨old, target, rfl, hold, htg, hcn, ?_⟩)
      exact (Commit.transitioned hold htg hcn).status_after
    · left
      unfold Control.status?
      rw [Control.plan?_editPlan_of_ne (marks_withStatus target).key hkey]
  | stepMarked _ _ hf hst =>
    left
    exact map_plan?_editPlan hf.key hst key
  | _ => exact .inl rfl

theorem Commit.identity? (h : Commit k s t) (key : Text) : t.identity? key = s.identity? key ∨
      (s.identity? key = none ∧ ∃ subject desired,
        t.identity? key = some (subject, desired, internetPolicyKey subject)) := by
  cases h with
  | @created _ plan hnn _ hpl =>
    by_cases hkey : plan.key = key
    · subst hkey
      refine .inr ⟨?_, plan.subject, plan.desired, ?_⟩
      · unfold Control.identity?
        rw [hnn]
        rfl
      · unfold Control.identity?
        rw [Control.plan?_append_self hnn, map_some, Plan.identity, hpl]
    · left
      unfold Control.identity?
      rw [Control.plan?_append_of_ne hkey]
  | stepAdded request _ =>
    left
    exact map_plan?_editPlan (f := Plan.addStep request) (fun _ => rfl) (fun _ => rfl) key
  | @transitioned _ _ _ target =>
    left
    exact map_plan?_editPlan (f := Plan.withStatus target) (fun _ => rfl) (fun _ => rfl) key
  | stepMarked _ _ hf _ =>
    left
    exact map_plan?_editPlan hf.key hf.identity key
  | _ => exact .inl rfl

theorem Commit.policies (h : Commit k s t) : (t.policies = s.policies ∧ ∀ key, k ≠ .policyRecorded key) ∨
      ∃ key subject desired policyKey, k = .policyRecorded key ∧ s.status? key = some .verified ∧
        s.identity? key = some (subject, desired, policyKey) ∧
        t.policies = upsertPolicy ⟨subject, desired, key⟩ s.policies := by
  cases h with
  | @policyRecorded _ key plan hpl hst =>
    refine .inr ⟨key, plan.subject, plan.desired, plan.policyKey, rfl, ?_, ?_, rfl⟩
    · unfold Control.status?
      rw [hpl, map_some, hst]
    · unfold Control.identity?
      rw [hpl]
      rfl
  | _ => exact .inl ⟨rfl, nofun⟩

theorem Commit.status_before (h : Commit k s t) (key : Text) :
    (k = .applied key → s.status? key = some .applying) ∧
      (k = .undone key → s.status? key = some .rollingBack) ∧
      (k = .policyRecorded key → s.status? key = some .verified) ∧
      (k = .stepMarked key → ∃ old ∈ [PlanStatus.applying, .applied, .rollingBack],
        s.status? key = some old) := by
  cases h with
  | applied list hst => exact ⟨fun h => Point.applied.inj h ▸ hst, nofun, nofun, nofun⟩
  | undone list hst => exact ⟨nofun, fun h => Point.undone.inj h ▸ hst, nofun, nofun⟩
  | @policyRecorded _ key plan hpl hst =>
    refine ⟨nofun, nofun, fun h => ?_, nofun⟩
    rw [← Point.policyRecorded.inj h]
    unfold Control.status?
    rw [hpl, map_some, hst]
  | stepMarked hst hold _ _ =>
    exact ⟨nofun, nofun, nofun, fun h => ⟨_, hold, Point.stepMarked.inj h ▸ hst⟩⟩
  | _ => exact ⟨nofun, nofun, nofun, nofun⟩

def Step (E : Point → Prop) (k : Point) (s t : Control) : Prop := Commit k s t ∧ E k

theorem findPlan_eq_ok (h : findPlan key s = .ok plan) : s.plan? key = some plan := by
  unfold findPlan at h
  cases hpl : s.plan? key with
  | none =>
    rw [hpl] at h
    cases h
  | some found =>
    rw [hpl] at h
    cases h
    rfl

theorem status?_of_plan? (hpl : s.plan? key = some plan) : s.status? key = some plan.status := by
  unfold Control.status?
  rw [hpl]
  rfl

theorem status?_withStatus (hpl : s.plan? key = some plan) :
    (s.editPlan key (Plan.withStatus target)).status? key = some target := by
  unfold Control.status?
  rw [Control.plan?_editPlan (marks_withStatus target).key, hpl]
  rfl

theorem transitionPlan_follows (key : Text) (target : PlanStatus) (hE : E (.transitioned key target))
    (hcn : target ≠ .cancelled) : Follows (transitionPlan key target) (Step E) s
      (fun r t => r = .ok () → t.status? key = some target) := by
  apply follows_look_bind
  · intro e _ he
    cases he
  intro plan hfn
  have hpl := findPlan_eq_ok hfn
  apply follows_lift_bind
  · intro e _ he
    cases he
  intro _ hall
  have htg : target ∈ planTransitions plan.status := by
    by_contra hnot
    rw [if_pos hnot] at hall
    cases hall
  apply follows_step
  · exact ⟨.transitioned (status?_of_plan? hpl) htg hcn, hE⟩
  · intro _
    exact status?_withStatus hpl

theorem writeRouter_follows {point : Point}
    (hcm : ∀ list, Step E point s { s with router := list }) (written : Option AddressList) :
    Follows (writeRouter point written) (Step E) s
      (fun r t => r = .ok () ∧ ∃ list, t = { s with router := list }) := by
  cases written with
  | none => exact follows_pure ⟨rfl, s.router, rfl⟩
  | some list =>
    rw [writeRouter]
    apply follows_step
    · exact hcm list
    · exact ⟨rfl, list, rfl⟩

theorem callRequests_follows {point : Request → Point} {I : Control → Prop}
    {requests : List Request} (hI : ∀ s list, I s → I { s with router := list })
    (hcm : ∀ request s list, I s → Step E (point request) s { s with router := list }) (hs : I s) :
    Follows (callRequests source point replies requests) (Step E) s
      (fun r t => (∃ done, r = .ok done) ∧ I t) := by
  induction requests generalizing replies s with
  | nil => exact follows_pure ⟨⟨true, rfl⟩, hs⟩
  | cons request rest ih =>
    apply follows_look_bind
    · intro e he
      cases he
    intro outcome _
    apply (writeRouter_follows (fun list => hcm request s list hs) outcome.2).bind
    · rintro e t ⟨he, -⟩
      cases he
    rintro _ t ⟨-, list, rfl⟩
    cases outcome.1 with
    | error e => exact follows_pure ⟨⟨false, rfl⟩, hI s list hs⟩
    | ok _ => exact ih (hI s list hs)

theorem stepMarked_follows {f : Plan → Plan} {old : PlanStatus} {rest : Unit → Action β}
    {T : Except NetError β → Control → Prop} (hE : E (.stepMarked key))
    (hst : s.status? key = some old) (hold : old ∈ [PlanStatus.applying, .applied, .rollingBack])
    (hf : Marks f) (hke : ∀ plan, (f plan).status = plan.status)
    (hrs : (s.editPlan key f).status? key = some old → Follows (rest ()) (Step E) (s.editPlan key f) T) :
    Follows (step (.stepMarked key) (fun s => s.editPlan key f) >>= rest) (Step E) s T := by
  apply follows_step_bind
  · exact ⟨.stepMarked hst hold hf hke, hE⟩
  · apply hrs
    rw [← hst]
    exact map_plan?_editPlan hf.key hke key

theorem applySteps_follows {i : Nat} {steps : List PlanStep}
    (hap : E (.applied key)) (hmr : E (.stepMarked key)) (hs : s.status? key = some .applying) :
    Follows (applySteps source key replies i steps) (Step E) s
      (fun r t => (∃ done, r = .ok done) ∧ t.status? key = some .applying) := by
  induction steps generalizing replies i s with
  | nil => exact follows_pure ⟨⟨true, rfl⟩, hs⟩
  | cons planStep rest ih =>
    apply follows_look_bind
    · intro e he
      cases he
    intro outcome _
    apply (writeRouter_follows (fun list => ⟨.applied list hs, hap⟩) outcome.2).bind
    · rintro e t ⟨he, -⟩
      cases he
    rintro _ t ⟨-, list, rfl⟩
    have hwr : ({ s with router := list } : Control).status? key = some .applying := hs
    cases outcome.1 with
    | error e =>
      apply stepMarked_follows hmr hwr (by decide) (marks_markStep i .failed) fun _ => rfl
      intro hst
      exact follows_pure ⟨⟨false, rfl⟩, hst⟩
    | ok _ =>
      apply stepMarked_follows hmr hwr (by decide) (marks_markStep i .applied) fun _ => rfl
      intro hst
      exact ih hst

theorem lastTransition_follows (key : Text) (target : PlanStatus) (b : β)
    (hE : E (.transitioned key target)) (hcn : target ≠ .cancelled) :
    Follows (transitionPlan key target >>= fun _ => (pure b : Action β)) (Step E) s fun _ _ => True := by
  apply (transitionPlan_follows key target hE hcn).walks_bind
  intro _ t _
  exact walks_pure

theorem createPlan_follows {input : PlanInput}
    (hpl : input.policyKey = internetPolicyKey input.subject) :
    Follows (createPlan input) (Step fun k => k = .created input.key) s fun _ _ => True := by
  apply walks_look_bind
  intro taken htk
  simp only [Except.ok.injEq] at htk
  apply walks_lift_bind
  intro _ hall
  have hnn : s.plan? (draftPlan input).key = none := by
    change s.plan? input.key = none
    cases hpa : s.plan? input.key with
    | none => rfl
    | some plan =>
      rw [hpa] at htk
      rw [if_pos (.inr (.inr (.inr htk.symm)))] at hall
      cases hall
  apply follows_step_bind
  · exact ⟨.created hnn rfl hpl, rfl⟩
  have hdr : ({ s with plans := s.plans ++ [draftPlan input] } : Control).status? input.key =
      some .draft := status?_of_plan? (Control.plan?_append_self hnn)
  have hst : Follows (forEach (addPlanStep input.key)
      (input.targets.map (requestFor input.desired.operation input.policyKey input.assetKey)))
      (Step fun k => k = .created input.key) _ fun _ t => t.status? input.key = some .draft :=
    Follows.forEach hdr fun request _ t ht => ?_
  · apply hst.walks_bind
    intro _ t _
    exact walks_pure
  · apply follows_look_bind
    · intro e _
      exact ht
    intro plan _
    apply follows_lift_bind
    · intro e _
      exact ht
    intro _ _
    apply follows_step
    · exact ⟨.stepAdded request ht, rfl⟩
    · rw [← ht]
      exact map_plan?_editPlan (f := Plan.addStep request) (fun _ => rfl) (fun _ => rfl) input.key

theorem approvePlan_follows :
    Follows (approvePlan key) (Step (Dispatch.approve key).Passes) s fun _ _ => True := by
  apply (transitionPlan_follows key .validated (by simp [Dispatch.Passes]) (by decide)).walks_bind
  intro _ t _
  have hls : Follows (transitionPlan key .approved) (Step (Dispatch.approve key).Passes) t _ :=
    transitionPlan_follows key .approved (by simp [Dispatch.Passes]) (by decide)
  exact hls.mono (fun _ _ _ h => h) fun _ _ _ => trivial

theorem applyPlan_follows {granted : Bool} {preflight : Preflight} :
    Follows (applyPlan source key granted preflight replies)
      (Step (Dispatch.apply key granted preflight replies).Passes) s fun _ _ => True := by
  apply walks_look_bind
  intro plan _
  split_ifs
  · exact walks_pure
  apply walks_lift_bind
  intro _ _
  apply walks_lift_bind
  intro _ _
  apply walks_lift_bind
  intro _ _
  cases preflight with
  | raises => exact walks_raise
  | changed =>
    exact lastTransition_follows key .failed _ (by simp [Dispatch.Passes]) (by decide)
  | unchanged =>
    apply (transitionPlan_follows key .applying (by simp [Dispatch.Passes]) (by decide)).walks_bind
    intro _ t ht
    apply (applySteps_follows (by simp [Dispatch.Passes]) (by simp [Dispatch.Passes]) (ht rfl)).walks_bind
    intro done t _
    split_ifs
    · exact lastTransition_follows key .applied _ (by simp [Dispatch.Passes]) (by decide)
    · exact lastTransition_follows key .failed _ (by simp [Dispatch.Passes]) (by decide)

theorem verifyPlan_follows {finding : Finding} :
    Follows (verifyPlan key finding) (Step (Dispatch.verify key finding).Passes) s fun _ _ => True := by
  apply walks_look_bind
  intro plan hfn
  apply walks_lift_bind
  intro _ hall
  have hst : s.status? key = some .applied := by
    rw [status?_of_plan? (findPlan_eq_ok hfn)]
    by_contra hot
    rw [if_pos (.inl fun h => hot (congrArg some h))] at hall
    cases hall
  cases finding with
  | raises => exact walks_raise
  | anchorInvalid =>
    apply stepMarked_follows (by simp [Dispatch.Passes]) hst (by decide) (marks_markAll .failed)
      fun _ => rfl
    intro _
    exact lastTransition_follows key .failed _ (by simp [Dispatch.Passes]) (by decide)
  | fine =>
    apply walks_look_bind
    intro mismatch _
    cases mismatch with
    | some i =>
      apply stepMarked_follows (by simp [Dispatch.Passes]) hst (by decide)
        (marks_markStep i .failed) fun _ => rfl
      intro _
      exact lastTransition_follows key .failed _ (by simp [Dispatch.Passes]) (by decide)
    | none =>
      apply stepMarked_follows (by simp [Dispatch.Passes]) hst (by decide)
        (marks_markAll .verified) fun _ => rfl
      intro _
      exact lastTransition_follows key .verified _ (by simp [Dispatch.Passes]) (by decide)

theorem dispatchVerify_follows {finding : Finding} :
    Follows (dispatchVerify key finding) (Step (Dispatch.verify key finding).Passes) s fun _ _ =>
      True := by
  apply verifyPlan_follows.walks_bind
  intro result t _
  cases result with
  | failed => exact walks_pure
  | verified =>
    have hups : Follows (upsertDesiredPolicy key) (Step (Dispatch.verify key finding).Passes) t
        fun _ _ => True := by
      apply walks_look_bind
      intro plan hfn
      apply walks_lift_bind
      intro _ hall
      apply follows_step
      · refine ⟨.policyRecorded (findPlan_eq_ok hfn) ?_, by simp [Dispatch.Passes]⟩
        by_contra hot
        rw [if_pos hot] at hall
        cases hall
      · trivial
    apply hups.walks_bind
    intro _ u _
    exact walks_pure

theorem rollbackPlan_follows {granted probed : Bool} :
    Follows (rollbackPlan source key granted replies probed)
      (Step (Dispatch.rollback key granted replies probed).Passes) s fun _ _ => True := by
  apply walks_look_bind
  intro plan _
  split_ifs
  · exact walks_pure
  apply walks_lift_bind
  intro _ _
  apply walks_lift_bind
  intro _ _
  apply walks_lift_bind
  intro _ _
  apply (transitionPlan_follows key .rollingBack (by simp [Dispatch.Passes]) (by decide)).walks_bind
  intro _ t ht
  have hcl : Follows (rollbackSteps source key replies plan.rollback)
      (Step (Dispatch.rollback key granted replies probed).Passes) t _ :=
    callRequests_follows (I := fun t => t.status? key = some .rollingBack) (fun _ _ h => h)
      (fun _ _ list h => ⟨.undone list h, by simp [Dispatch.Passes]⟩) (ht rfl)
  apply hcl.walks_bind
  rintro done u ⟨-, hu⟩
  split_ifs
  · apply stepMarked_follows (by simp [Dispatch.Passes]) hu (by decide) (marks_markAll .rolledBack)
      fun _ => rfl
    intro _
    exact lastTransition_follows key .rolledBack _ (by simp [Dispatch.Passes]) (by decide)
  · exact lastTransition_follows key .failed _ (by simp [Dispatch.Passes]) (by decide)

theorem turnCalls_follows {point : Request → Point} {requests : List Request}
    (hpi : ∀ request s list, Step (Dispatch.reconcile limit turn).Passes (point request) s
      { s with router := list }) :
    Follows (callRequests source point replies requests) (Step (Dispatch.reconcile limit turn).Passes) s
      fun r _ => ∃ done, r = .ok done := by
  have hcl : Follows (callRequests source point replies requests)
      (Step (Dispatch.reconcile limit turn).Passes) s _ :=
    callRequests_follows (I := fun _ => True) (fun _ _ h => h)
      (fun request s list _ => hpi request s list) trivial
  exact hcl.mono (fun _ _ _ h => h) fun _ _ h => h.1

theorem replaceEntries_follows {policyKey assetKey : Text} {expected : List Text}
    {replies : PolicyReplies} :
    Follows (replaceEntries source policyKey assetKey expected replies)
      (Step (Dispatch.reconcile limit turn).Passes) s fun _ _ => True := by
  unfold replaceEntries
  cases ownershipComment policyKey assetKey with
  | error e => exact walks_pure
  | ok comment =>
    simp only
    split_ifs
    · exact walks_pure
    apply walks_look_bind
    intro existing _
    apply (turnCalls_follows fun request s list =>
      ⟨.denyAdded policyKey request.address list, policyKey, request.address, .inl rfl⟩).bind
    · intro e t _
      trivial
    intro added t _
    split_ifs
    · exact walks_pure
    apply walks_look_bind
    intro verified _
    split_ifs
    · have hrem : Follows (callRequests source
          (fun request => .denyRemoved policyKey request.address) replies.removes
          (policyRequests source policyKey assetKey .remove (sortedDifference existing expected)))
          (Step (Dispatch.reconcile limit turn).Passes) t _ :=
        turnCalls_follows fun request s list =>
          ⟨.denyRemoved policyKey request.address list, policyKey, request.address, .inr rfl⟩
      exact hrem.mono (fun _ _ _ h => h) fun _ _ _ => trivial
    · exact walks_pure

theorem reconcile_follows :
    Follows (reconcileDesiredPolicies source limit turn) (Step (Dispatch.reconcile limit turn).Passes) s
      fun _ _ => True := by
  apply walks_lift_bind
  intro _ _
  apply walks_look_bind
  intro policies _
  have hlo : Follows (forEach (fun item : (Policy × Text) × Nat =>
      reconcilePolicy source item.1.1 item.1.2 (turn item.2).resolution (turn item.2).granted
        (turn item.2).replies) policies.zipIdx) (Step (Dispatch.reconcile limit turn).Passes) s _ :=
    Follows.forEach (I := fun _ => True) trivial fun item _ t _ => ?_
  · exact hlo.mono (fun _ _ _ h => h) fun _ _ _ => trivial
  · unfold reconcilePolicy
    split_ifs
    · exact walks_pure
    cases (turn item.2).resolution with
    | raises => exact walks_raise
    | stale => exact walks_pure
    | resolved assetKey targets =>
      simp only
      split
      · apply walks_lift_bind
        intro _ _
        split_ifs
        · exact walks_pure
        apply replaceEntries_follows.walks_bind
        intro replaced u _
        exact walks_pure
      · exact walks_pure

theorem dispatch_follows (source : Text) (d : Dispatch) (s : Control) :
    Follows (dispatch source d) (Step d.Passes) s fun _ _ => True := by
  have hrt : ∀ {β : Type} {m : Action β}, Follows m (Step d.Passes) s (fun _ _ => True) →
      Follows (m >>= fun _ => (pure () : Action Unit)) (Step d.Passes) s fun _ _ => True := by
    intro β m hm
    apply hm.walks_bind
    intro _ t _
    exact walks_pure
  cases d with
  | create input => exact createPlan_follows rfl
  | approve key => exact approvePlan_follows
  | apply key granted preflight replies => exact hrt applyPlan_follows
  | verify key finding => exact hrt dispatchVerify_follows
  | rollback key granted replies probed => exact hrt rollbackPlan_follows
  | reconcile limit turn => exact hrt reconcile_follows

structure Attempt where
  dispatch : Dispatch
  dies : Option Nat

structure Journal where
  points : List Point
  state : Control

def Attempt.passed (source : Text) (attempt : Attempt) (s : Control) : List (Point × Control) :=
  let points := (exec (Netops.dispatch source attempt.dispatch) ⟨s, []⟩).2.points
  match attempt.dies with
  | none => points
  | some n => points.take n

def attempt (source : Text) (j : Journal) (a : Attempt) : Journal :=
  ⟨j.points ++ (a.passed source j.state).map Prod.fst, stateAfter j.state (a.passed source j.state)⟩

/-- The journal of a control service without plans and policies. -/
def emptyJournal (router : AddressList) : Journal := ⟨[], ⟨router, [], []⟩⟩

theorem Attempt.passed_trail (a : Attempt) (s : Control) :
    Trail (Step a.dispatch.Passes) s (a.passed source s) (stateAfter s (a.passed source s)) := by
  have htr := (dispatch_follows source a.dispatch s).trail
  unfold Attempt.passed
  cases a.dies with
  | none =>
    rw [htr.stateAfter_eq]
    exact htr
  | some n => exact htr.take n

/-- What every write keeps holds after every run. -/
theorem run_commits {I : List Point → Control → Prop} {j : Journal} (hj : I j.points j.state)
    (hke : ∀ points k s t, I points s → Commit k s t → I (points ++ [k]) t) (attempts : List Attempt) :
    I (run (attempt source) j attempts).points (run (attempt source) j attempts).state := by
  apply run_keeps (P := fun j : Journal => I j.points j.state) hj
  intro j a h
  exact (a.passed_trail j.state).keeps h fun points k s t hI hst => hke points k s t hI hst.1

end Netops

end WebOvpn
