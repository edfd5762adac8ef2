/-
The operations on a stored plan: what they leave of the plan and of the router.
-/
import WebOvpn.Netops.Calls
import WebOvpn.Netops.Plans

namespace WebOvpn

open Op List

namespace Netops

open Text

variable {source key : Text} {replies : List Reply} {requests : List Request}
  {plan : Plan} {status target : PlanStatus} {s : Control} {f : Plan → Plan}

theorem Control.key_of_plan? (hpl : s.plan? key = some plan) : plan.key = key := by
  have hfn := find?_some hpl
  simpa using hfn

theorem Control.plan?_editPlan_map (hkey : ∀ plan, (f plan).key = plan.key) (s : Control)
    (key other : Text) :
    (s.editPlan key f).plan? other =
      (s.plan? other).map fun plan => if plan.key = key then f plan else plan := by
  unfold Control.plan? Control.editPlan
  rw [find?_map]
  have hsm : ((fun plan : Plan => decide (plan.key = other)) ∘
      fun plan => if plan.key = key then f plan else plan) = fun plan => decide (plan.key = other) := by
    funext plan
    simp only [Function.comp_apply]
    split_ifs with h
    · rw [hkey]
    · rfl
  rw [hsm]

theorem Control.plan?_editPlan (hkey : ∀ plan, (f plan).key = plan.key) (s : Control) (key : Text) :
    (s.editPlan key f).plan? key = (s.plan? key).map f := by
  rw [Control.plan?_editPlan_map hkey]
  cases hpl : s.plan? key with
  | none => rfl
  | some plan => rw [Option.map_some, Option.map_some, if_pos (Control.key_of_plan? hpl)]

theorem Control.plan?_editPlan_of_ne {other : Text} (hkey : ∀ plan, (f plan).key = plan.key)
    (hne : other ≠ key) : (s.editPlan key f).plan? other = s.plan? other := by
  rw [Control.plan?_editPlan_map hkey]
  cases hpl : s.plan? other with
  | none => rfl
  | some plan =>
    rw [Option.map_some, if_neg]
    rw [Control.key_of_plan? hpl]
    exact hne

def Plan.contents (plan : Plan) : Plan := { plan with status := .draft, steps := [] }

def Plan.identity (plan : Plan) : Subject × Desired × Text :=
  (plan.subject, plan.desired, plan.policyKey)

/-- The plan is in the store with this status; what it does is as in `plan`. -/
def Stored (s : Control) (key : Text) (plan : Plan) (status : PlanStatus) : Prop :=
  ∃ stored, s.plan? key = some stored ∧ stored.status = status ∧ stored.rollback = plan.rollback ∧
    stored.steps.map PlanStep.request = plan.steps.map PlanStep.request

structure Marks (f : Plan → Plan) : Prop where
  key : ∀ plan, (f plan).key = plan.key
  contents : ∀ plan, (f plan).contents = plan.contents
  identity : ∀ plan, (f plan).identity = plan.identity
  rollback : ∀ plan, (f plan).rollback = plan.rollback
  requests : ∀ plan, (f plan).steps.map PlanStep.request = plan.steps.map PlanStep.request

theorem marks_withStatus (status : PlanStatus) : Marks (Plan.withStatus status) :=
  ⟨fun _ => rfl, fun _ => rfl, fun _ => rfl, fun _ => rfl, fun _ => rfl⟩

theorem marks_markStep (i : Nat) (status : StepStatus) : Marks (Plan.markStep i status) := by
  refine ⟨fun _ => rfl, fun _ => rfl, fun _ => rfl, fun _ => rfl, ?_⟩
  intro plan
  unfold Plan.markStep
  change (plan.steps.modify i fun step => { step with status := status }).map PlanStep.request = _
  apply ext_getElem
  · simp
  · intro j h h'
    simp only [getElem_map, getElem_modify]
    split_ifs <;> rfl

theorem marks_markAll (status : StepStatus) : Marks (Plan.markAll status) := by
  refine ⟨fun _ => rfl, fun _ => rfl, fun _ => rfl, fun _ => rfl, ?_⟩
  intro plan
  unfold Plan.markAll
  change (plan.steps.map fun step => { step with status := status }).map PlanStep.request = _
  rw [map_map]
  rfl

theorem Stored.edit {status' : PlanStatus} (h : Stored s key plan status) (hf : Marks f)
    (hst : ∀ plan, plan.status = status → (f plan).status = status') :
    Stored (s.editPlan key f) key plan status' := by
  obtain ⟨stored, hpl, hso, hrl, hse⟩ := h
  refine ⟨f stored, ?_, hst stored hso, ?_, ?_⟩
  · rw [Control.plan?_editPlan hf.key, hpl]
    rfl
  · rw [hf.rollback, hrl]
  · rw [hf.requests, hse]

theorem findPlan_of_plan? (hpl : s.plan? key = some plan) : findPlan key s = .ok plan := by
  unfold findPlan
  rw [hpl]

theorem transitionPlan_passes (h : Stored s key plan status) (htg : target ∈ planTransitions status) :
    Passes (transitionPlan key target) s (fun _ _ => True)
      (fun r d => r = .ok () ∧ d.router = s.router ∧ Stored d key plan target) := by
  have haf := h.edit (marks_withStatus target) fun _ _ => rfl
  obtain ⟨stored, hpl, hst, -, -⟩ := h
  refine passes_look_ok (findPlan_of_plan? hpl) ?_
  apply passes_lift_bind
  · intro e he
    rw [hst, if_neg (not_not.2 htg)] at he
    cases he
  intro _ _
  exact passes_step trivial ⟨rfl, rfl, haf⟩

theorem writeRouter_passes {point : Point} (h : Stored s key plan status)
    (written : Option AddressList) :
    Passes (writeRouter point written) s (fun _ _ => True)
      (fun r d => r = .ok () ∧ d.router = written.getD s.router ∧ Stored d key plan status) := by
  cases written with
  | none => exact passes_pure ⟨rfl, rfl, h⟩
  | some list =>
    rw [writeRouter]
    apply passes_step
    · trivial
    · exact ⟨rfl, rfl, h⟩

theorem applySteps_passes {i : Nat} {steps : List PlanStep} (h : Stored s key plan status) :
    Passes (applySteps source key replies i steps) s (fun _ _ => True) fun r d =>
      r = .ok (callAll source replies (steps.map PlanStep.request) s.router).1 ∧
        d.router = (callAll source replies (steps.map PlanStep.request) s.router).2 ∧
        Stored d key plan status := by
  induction steps generalizing replies i s with
  | nil => exact passes_pure ⟨rfl, rfl, h⟩
  | cons planStep rest ih =>
    apply passes_look_bind
    · intro e he
      cases he
    intro outcome hot
    simp only [Except.ok.injEq] at hot
    apply Passes.bind_ok (writeRouter_passes h outcome.2)
    rintro d ⟨hru, hd⟩
    have hmr : ∀ mark, Stored (d.editPlan key (Plan.markStep i mark)) key plan status := fun mark =>
      hd.edit (marks_markStep i mark) fun _ hst => hst
    rw [map_cons, callAll, hot]
    rcases outcome with ⟨_ | _, written⟩
    · apply passes_step_bind trivial
      apply passes_pure
      exact ⟨rfl, hru, hmr .failed⟩
    · apply passes_step_bind trivial
      have hrs : Passes (applySteps source key replies.tail (i + 1) rest) _ _ _ :=
        ih (hmr .applied)
      rw [show (d.editPlan key (Plan.markStep i .applied)).router = d.router from rfl, hru] at hrs
      exact hrs

theorem callRequests_passes {point : Request → Point} {P : AddressList → Prop}
    (hke : ∀ request ∈ requests, ∀ list comment written,
      checkRequest source request = .ok comment → P list →
      perform request.operation request.address comment list = .ok (some written) → P written)
    (hs : P s.router) : Passes (callRequests source point replies requests) s
      (fun k d => (∃ request ∈ requests, k = point request) ∧ P d.router ∧
        d = { s with router := d.router })
      (fun r d => r = .ok (callAll source replies requests s.router).1 ∧ P d.router ∧
        d = { s with router := (callAll source replies requests s.router).2 }) := by
  induction requests generalizing replies s with
  | nil => exact passes_pure ⟨rfl, hs, rfl⟩
  | cons request rest ih =>
    apply passes_look_bind
    · intro e he
      cases he
    intro outcome hot
    simp only [Except.ok.injEq] at hot
    have hP : P (outcome.2.getD s.router) := by
      cases hwrit : outcome.2 with
      | none => exact hs
      | some written =>
        obtain ⟨comment, hch, hpr⟩ := adapterCall_written (hot ▸ hwrit)
        exact hke request mem_cons_self _ _ _ hch hs hpr
    have hwr : Passes (writeRouter (point request) outcome.2) s
        (fun k d => k = point request ∧ d = { s with router := outcome.2.getD s.router })
        (fun r d => r = .ok () ∧ d = { s with router := outcome.2.getD s.router }) := by
      cases outcome.2 with
      | none => exact passes_pure ⟨rfl, rfl⟩
      | some written =>
        rw [writeRouter]
        apply passes_step
        · exact ⟨rfl, rfl⟩
        · exact ⟨rfl, rfl⟩
    apply Passes.bind_ok (hwr.mono _ fun _ _ h => h)
    · rintro _ rfl
      rw [callAll, hot]
      rcases outcome with ⟨_ | _, written⟩
      · exact passes_pure ⟨rfl, hP, rfl⟩
      · apply (ih (fun r hr => hke r (mem_cons_of_mem request hr)) hP).mono
        · rintro k d ⟨⟨r, hr, hk⟩, hd⟩
          exact ⟨⟨r, mem_cons_of_mem request hr, hk⟩, hd⟩
        · intro r d h
          exact h
    · rintro k d ⟨rfl, rfl⟩
      exact ⟨⟨request, mem_cons_self, rfl⟩, hP, rfl⟩

theorem rollbackSteps_passes (h : Stored s key plan status) :
    Passes (rollbackSteps source key replies requests) s (fun _ _ => True) fun r d =>
      r = .ok (callAll source replies requests s.router).1 ∧
        d.router = (callAll source replies requests s.router).2 ∧ Stored d key plan status := by
  unfold rollbackSteps
  have hcl : Passes (callRequests source (fun _ => .undone key) replies requests) s _ _ :=
    callRequests_passes (P := fun _ => True) (fun _ _ _ _ _ _ _ _ => trivial) trivial
  apply hcl.mono (fun _ _ _ => trivial)
  rintro r d ⟨hr, -, rfl⟩
  exact ⟨hr, rfl, h⟩

variable {granted probed : Bool} {preflight : Preflight}

def appliedList (source : Text) (plan : Plan) (preflight : Preflight) (replies : List Reply)
    (list : AddressList) : AddressList :=
  match preflight with
  | .unchanged => (callAll source replies (plan.steps.map PlanStep.request) list).2
  | _ => list

theorem stored_of_plan? (hpl : s.plan? key = some plan) : Stored s key plan plan.status :=
  ⟨plan, hpl, rfl, rfl, rfl⟩

/-- An approved plan is applied or failed when `apply_plan` returns; it raises
for an approved plan of one device, with the lock, only if the preflight does. -/
theorem applyPlan_passes (hpl : s.plan? key = some plan) (hst : plan.status = .approved) :
    Passes (applyPlan source key granted preflight replies) s (fun _ _ => True) fun r d =>
      match r with
      | .error _ => d = s ∧ (oneDevice plan.steps = true → granted = true → preflight = .raises)
      | .ok _ => preflight ≠ .raises ∧ (Stored d key plan .applied ∨ Stored d key plan .failed) ∧
          d.router = appliedList source plan preflight replies s.router := by
  have hso := stored_of_plan? hpl
  rw [hst] at hso
  refine passes_look_ok (findPlan_of_plan? hpl) ?_
  rw [if_neg (by rw [hst]; nofun)]
  apply passes_lift_bind
  · intro e he
    rw [if_neg (not_not.2 hst)] at he
    cases he
  intro _ _
  apply passes_lift_bind
  · intro e he
    refine ⟨rfl, fun hdv _ => ?_⟩
    rw [hdv] at he
    cases he
  intro _ _
  apply passes_lift_bind
  · intro e he
    refine ⟨rfl, fun _ hgra => ?_⟩
    rw [hgra] at he
    cases he
  intro _ _
  cases preflight with
  | raises => exact passes_raise ⟨rfl, fun _ _ => rfl⟩
  | changed =>
    apply Passes.bind_ok (transitionPlan_passes hso (by decide))
    rintro d ⟨hru, hd⟩
    exact passes_pure ⟨nofun, .inr hd, hru⟩
  | unchanged =>
    apply Passes.bind_ok (transitionPlan_passes hso (by decide))
    rintro d ⟨hru, hd⟩
    apply Passes.bind (applySteps_passes hd)
    · rintro e d' ⟨he, -⟩
      cases he
    rintro done d' ⟨hdn, hru', hd'⟩
    rw [hru] at hru'
    cases done with
    | true =>
      apply Passes.bind_ok (transitionPlan_passes hd' (by decide))
      rintro d'' ⟨hru'', hd''⟩
      exact passes_pure ⟨nofun, .inl hd'', hru''.trans hru'⟩
    | false =>
      apply Passes.bind_ok (transitionPlan_passes hd' (by decide))
      rintro d'' ⟨hru'', hd''⟩
      exact passes_pure ⟨nofun, .inr hd'', hru''.trans hru'⟩

theorem rollbackPlan_passes (h : Stored s key plan status) :
    Passes (rollbackPlan source key granted replies probed) s (fun _ _ => True) fun r d =>
      (status ∈ [.applied, .verified, .failed, .rolledBack] → r ≠ .error .status) ∧
      (r = .ok .rolledBack → (status = .applied ∨ status = .verified ∨ status = .failed) ∧
          (callAll source replies plan.rollback s.router).1 = true ∧
          d.router = (callAll source replies plan.rollback s.router).2) := by
  obtain ⟨stored, hpl, hst, hrl, hse⟩ := id h
  refine passes_look_ok (findPlan_of_plan? hpl) ?_
  by_cases hdn : stored.status = .rolledBack
  · rw [if_pos hdn]
    exact passes_pure ⟨nofun, nofun⟩
  rw [if_neg hdn]
  apply passes_lift_bind
  · intro e he
    refine ⟨fun hall => ?_, nofun⟩
    rw [hst] at he hdn
    split_ifs at he with hot
    simp only [mem_cons, not_mem_nil, or_false] at hall
    tauto
  intro _ hall
  have hset : status = .applied ∨ status = .verified ∨ status = .failed := by
    by_contra hot
    simp only [not_or] at hot
    rw [hst, if_pos hot] at hall
    cases hall
  apply passes_lift_bind
  · intro e he
    split_ifs at he
    cases he
    exact ⟨nofun, nofun⟩
  intro _ _
  apply passes_lift_bind
  · intro e he
    split_ifs at he
    cases he
    exact ⟨nofun, nofun⟩
  intro _ _
  have htg : PlanStatus.rollingBack ∈ planTransitions status := by
    rcases hset with rfl | rfl | rfl <;> decide
  apply Passes.bind_ok (transitionPlan_passes h htg)
  rintro d ⟨hru, hd⟩
  rw [hrl]
  apply Passes.bind (rollbackSteps_passes hd)
  · rintro e d' ⟨he, -⟩
    cases he
  rintro done d' ⟨hdn, hru', hd'⟩
  rw [hru] at hdn hru'
  simp only [Except.ok.injEq] at hdn
  split_ifs with hpr
  · rw [Bool.and_eq_true] at hpr
    apply passes_step_bind trivial
    have hmr : Stored (d'.editPlan key (Plan.markAll .rolledBack)) key plan .rollingBack :=
      hd'.edit (marks_markAll _) fun _ hs => hs
    apply Passes.bind_ok (transitionPlan_passes hmr (by decide))
    rintro d'' ⟨hru'', -⟩
    apply passes_pure
    refine ⟨nofun, fun _ => ?_⟩
    exact ⟨hset, hdn ▸ hpr.1, hru''.trans hru'⟩
  · apply Passes.bind_ok (transitionPlan_passes hd' (by decide))
    rintro d'' _
    exact passes_pure ⟨nofun, nofun⟩

end Netops

end WebOvpn
