/-
Rolling back what was applied: when the router holds again what it held.
-/
import WebOvpn.Netops.StoredPlans

namespace WebOvpn

open Op List

namespace Netops

open Text

variable {source key comment : Text} {operation : Operation} {replies : List Reply}

section

variable {plan : Plan} {s : Control} {preflight : Preflight}

structure Plan.Built (plan : Plan) : Prop where
  steps : plan.steps.map PlanStep.request =
    plan.targets.map (requestFor plan.desired.operation plan.policyKey plan.assetKey)
  rollback : plan.rollback =
    plan.targets.map (requestFor plan.desired.operation.opposite plan.policyKey plan.assetKey)

theorem checkRequest_requestFor (operation operation' : Operation) (policyKey assetKey : Text)
    (target : Target) : checkRequest source (requestFor operation policyKey assetKey target) =
      checkRequest source (requestFor operation' policyKey assetKey target) := rfl

theorem map_address_requestFor (operation : Operation) (policyKey assetKey : Text)
    (targets : List Target) :
    (targets.map (requestFor operation policyKey assetKey)).map Request.address =
      targets.map Target.address := by
  rw [map_map]
  rfl

/-- The addresses whose removal by `apply_plan` took effect. -/
def Plan.reached (plan : Plan) (preflight : Preflight) (replies : List Reply) : List Text :=
  match preflight with
  | .unchanged => Netops.reached replies (plan.targets.map Target.address)
  | _ => []

/-- The rows at the addresses of the plan are such that its rollback gives them
back: a deny plan finds none; an allow plan finds exactly the row that it would
add where it removed one, and some row where it did not come to remove. -/
def Plan.Undoable (plan : Plan) (preflight : Preflight) (replies : List Reply)
    (list : AddressList) : Prop :=
  ∀ address ∈ plan.targets.map Target.address, match plan.desired with
    | .deny => rowsAt address list = []
    | .allow =>
      if address ∈ plan.reached preflight replies then
        rowsAt address list = [newEntry address plan.comment]
      else rowsAt address list ≠ []

theorem reached_subset (replies : List Reply) (addresses : List Text) :
    reached replies addresses ⊆ addresses := by
  induction addresses generalizing replies with
  | nil => intro _ h; exact h
  | cons address rest ih =>
    unfold reached
    cases replies.headD .fine with
    | failsBefore => exact nil_subset _
    | failsAfter => simp
    | fine => exact cons_subset_cons _ (ih replies.tail)

theorem perm_iff_undoable {replies' : List Reply} (hbi : plan.Built)
    (hrl : (callAll source replies' plan.rollback
      (appliedList source plan preflight replies s.router)).1 = true) :
        (callAll source replies' plan.rollback
        (appliedList source plan preflight replies s.router)).2.Perm s.router ↔
      plan.Undoable preflight replies s.router := by
  have hch := checkRequest_of_callAll hrl
  have hun : ∀ operation, Uniform source operation plan.comment
      (plan.targets.map (requestFor operation plan.policyKey plan.assetKey)) := by
    intro operation request hrq
    obtain ⟨target, htg, rfl⟩ := mem_map.1 hrq
    refine ⟨rfl, ?_⟩
    have hmem : requestFor plan.desired.operation.opposite plan.policyKey plan.assetKey target ∈
        plan.rollback := by
      rw [hbi.rollback]
      exact mem_map.2 ⟨target, htg, rfl⟩
    obtain ⟨comment, hcm⟩ := hch _ hmem
    rw [checkRequest_requestFor operation plan.desired.operation.opposite, hcm,
      checkRequest_eq_ok hcm]
    rfl
  have hbc : Uniform source plan.desired.operation.opposite plan.comment plan.rollback := by
    rw [hbi.rollback]
    exact hun _
  obtain ⟨hown, hrs⟩ := rowsAt_of_callAll hbc hrl
  rw [hbi.rollback] at hown
  -- the rows after applying, address by address
  have hap : ∀ address, rowsAt address (appliedList source plan preflight replies s.router) =
      (performRows plan.desired.operation address plan.comment)^[
        (plan.reached preflight replies).count address] (rowsAt address s.router) := by
    intro address
    cases preflight with
    | unchanged =>
      have hfr : ∀ request ∈ plan.targets.map
          (requestFor plan.desired.operation plan.policyKey plan.assetKey),
          Owned plan.comment (rowsAt request.address (callAll source replies (plan.targets.map
            (requestFor plan.desired.operation plan.policyKey plan.assetKey)) s.router).2) := by
        intro request hrq
        obtain ⟨target, htg, rfl⟩ := mem_map.1 hrq
        have hfs := hown (requestFor plan.desired.operation.opposite plan.policyKey
          plan.assetKey target) (mem_map.2 ⟨target, htg, rfl⟩)
        unfold appliedList at hfs
        rw [hbi.steps] at hfs
        exact hfs
      have hcl := rowsAt_callAll (hun plan.desired.operation) hfr address
      rw [map_address_requestFor] at hcl
      unfold appliedList
      rw [hbi.steps]
      exact hcl
    | _ => rfl
  have hsus : plan.reached preflight replies ⊆ plan.targets.map Target.address := by
    cases preflight with
    | unchanged => exact reached_subset replies _
    | _ => exact nil_subset _
  have hcnt : plan.rollback.map Request.address = plan.targets.map Target.address := by
    rw [hbi.rollback, map_address_requestFor]
  rw [perm_iff_rowsAt]
  unfold Plan.Undoable
  constructor
  · intro h address hadd
    have hpr := h address
    have hpos : 0 < (plan.targets.map Target.address).count address := count_pos_iff.2 hadd
    rw [hrs address, hap address, hcnt] at hpr
    cases hds : plan.desired with
    | deny =>
      rw [hds] at hpr
      exact (undo_ensure_iff address plan.comment hpos _).1 hpr
    | allow =>
      rw [hds] at hpr
      have hiff := (undo_remove_iff address plan.comment hpos _).1 hpr
      simp only [count_eq_zero, ite_not] at hiff
      exact hiff
  · intro h address
    rw [hrs address, hap address, hcnt]
    by_cases hadd : address ∈ plan.targets.map Target.address
    · have hpos : 0 < (plan.targets.map Target.address).count address := count_pos_iff.2 hadd
      have hund := h address hadd
      cases hds : plan.desired with
      | deny =>
        rw [hds] at hund
        exact (undo_ensure_iff address plan.comment hpos _).2 hund
      | allow =>
        rw [hds] at hund
        apply (undo_remove_iff address plan.comment hpos _).2
        simp only [count_eq_zero, ite_not]
        exact hund
    · have hnn : address ∉ plan.reached preflight replies := fun hmem => hadd (hsus hmem)
      rw [count_eq_zero.2 hadd, count_eq_zero.2 hnn]
      exact Perm.refl _

/-- For an approved plan that is applied and then rolled back to the end, the
router holds the rows that it held before exactly when the plan is undoable. -/
theorem rollback_undoes_apply_iff {granted granted' probed : Bool} {replies' : List Reply}
    (hpl : s.plan? key = some plan) (hbi : plan.Built) (hsa : plan.status = .approved)
    (hrl : (finish (rollbackPlan source key granted' replies' probed)
      (finish (applyPlan source key granted preflight replies) s).2).1 = .ok .rolledBack) :
    (finish (rollbackPlan source key granted' replies' probed)
        (finish (applyPlan source key granted preflight replies) s).2).2.router.Perm s.router ↔
      plan.Undoable preflight replies s.router := by
  have hap : Passes (applyPlan source key granted preflight replies) s _ _ :=
    applyPlan_passes hpl hsa
  have hend := hap.finish
  cases hrs : (finish (applyPlan source key granted preflight replies) s).1 with
  | error e =>
    -- the plan is still approved, and the rollback is refused
    rw [hrs] at hend
    have hsm : (finish (applyPlan source key granted preflight replies) s).2 = s := hend.1
    rw [hsm] at hrl
    have href : Passes (rollbackPlan source key granted' replies' probed) s _ _ :=
      rollbackPlan_passes (stored_of_plan? hpl)
    obtain ⟨hset, -⟩ := href.finish.2 hrl
    rw [hsa] at hset
    rcases hset with h | h | h <;> cases h
  | ok result =>
    rw [hrs] at hend
    obtain ⟨-, hst, hru⟩ := hend
    obtain ⟨status, hst⟩ : ∃ status,
        Stored (finish (applyPlan source key granted preflight replies) s).2 key plan status := by
      rcases hst with h | h
      · exact ⟨_, h⟩
      · exact ⟨_, h⟩
    have hbc : Passes (rollbackPlan source key granted' replies' probed)
        (finish (applyPlan source key granted preflight replies) s).2 _ _ :=
      rollbackPlan_passes hst
    obtain ⟨-, hdn, hls⟩ := hbc.finish.2 hrl
    rw [hls, hru]
    rw [hru] at hdn
    exact perm_iff_undoable hbi hdn

end

def hostTarget : Target := ⟨"r1", "10.0.0.5", "hq"⟩

def hostPlan (desired : Desired) : Plan where
  key := "p1"
  subject := ⟨.asset, "pc"⟩
  desired := desired
  policyKey := "k1"
  assetKey := "pc"
  reason := "r"
  evidence := default
  targets := [hostTarget]
  rollback := [requestFor desired.operation.opposite "k1" "pc" hostTarget]
  status := .approved
  steps := [⟨requestFor desired.operation "k1" "pc" hostTarget, .pending⟩]

def hostControl (desired : Desired) (router : AddressList) : Control :=
  ⟨router, [hostPlan desired], []⟩

def foreignEntry : Entry := ⟨"10.0.0.9", "admin", "false"⟩

/-- The entry of another asset is what is left after a deny plan and its rollback. -/
theorem rollback_undoes_apply_deny : (finish (rollbackPlan "r1" "p1" true [] true)
      (finish (applyPlan "r1" "p1" true .unchanged [])
        (hostControl .deny [foreignEntry])).2).2.router.Perm [foreignEntry] := by
  apply (@rollback_undoes_apply_iff "r1" "p1" [] (hostPlan .deny)
    (hostControl .deny [foreignEntry]) .unchanged true true true [] (by decide)
    ⟨rfl, rfl⟩ rfl (by decide)).2
  intro address hadd
  rw [mem_singleton.1 hadd]
  change rowsAt "10.0.0.5" [foreignEntry] = []
  decide

/-- The entry that a deny plan for the same policy has left before. -/
def ownEntry : Entry := ⟨"10.0.0.5", (hostPlan .deny).comment, "false"⟩

/-- The deny plan finds the entry of its policy in place and adds nothing, but its rollback removes
the entry and unblocks the machine. -/
theorem rollback_frees_blocked_machine :
    (finish (applyPlan "r1" "p1" true .unchanged []) (hostControl .deny [ownEntry])).1 =
        .ok .applied ∧
      (finish (rollbackPlan "r1" "p1" true [] true)
        (finish (applyPlan "r1" "p1" true .unchanged [])
          (hostControl .deny [ownEntry])).2).1 = .ok .rolledBack ∧
      ¬ (finish (rollbackPlan "r1" "p1" true [] true)
        (finish (applyPlan "r1" "p1" true .unchanged [])
          (hostControl .deny [ownEntry])).2).2.router.Perm [ownEntry] := by
  refine ⟨by decide, by decide, ?_⟩
  intro h
  have hlen := h.length_eq
  revert hlen
  decide

end Netops

end WebOvpn
