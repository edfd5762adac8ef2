/-
Change plans for Internet access: how they are created from resolved targets,
applied, verified and rolled back.  Every committed write is a step after which
the process may die.
-/
import WebOvpn.Lib.Trail
import WebOvpn.Netops.Router

namespace WebOvpn

open Op

namespace Netops

open Text

inductive PlanStatus where
  | draft
  | validated
  | approved
  | applying
  | applied
  | verified
  | failed
  | rollingBack
  | rolledBack
  | cancelled
  deriving DecidableEq

def planTransitions : PlanStatus → List PlanStatus
  | .draft => [.validated, .cancelled]
  | .validated => [.approved, .cancelled]
  | .approved => [.applying, .failed, .cancelled]
  | .applying => [.applied, .failed, .rollingBack]
  | .applied => [.verified, .failed, .rollingBack]
  | .verified => [.rollingBack]
  | .failed => [.rollingBack, .cancelled]
  | .rollingBack => [.rolledBack, .failed]
  | .rolledBack => []
  | .cancelled => []

inductive StepStatus where
  | pending
  | applied
  | verified
  | failed
  | rolledBack
  deriving DecidableEq

inductive SubjectType where
  | asset
  | user
  deriving DecidableEq

structure Subject where
  type : SubjectType
  key : Text
  deriving DecidableEq

inductive Desired where
  | allow
  | deny
  deriving DecidableEq

structure Target where
  source : Text
  address : Text
  site : Text
  deriving DecidableEq

structure PlanStep where
  request : Request
  status : StepStatus
  deriving DecidableEq

/-- The columns of `change_plans` that only the digest reads. -/
structure Evidence where
  resolvedTargetsJson : Text
  contextEvidenceHash : Text
  precheckJson : Text
  planBasisJson : Text
  planBasisHash : Text
  planSchemaVersion : Int
  authorizationVersion : Int
  operationVersion : Int
  deriving DecidableEq, Inhabited

/-- A row of `change_plans` with its steps. -/
structure Plan where
  key : Text
  subject : Subject
  desired : Desired
  policyKey : Text
  assetKey : Text
  reason : Text
  evidence : Evidence
  targets : List Target
  rollback : List Request
  status : PlanStatus
  steps : List PlanStep
  deriving DecidableEq

def Plan.comment (plan : Plan) : Text := ownershipText plan.policyKey plan.assetKey

/-- An active row of `desired_network_policies`; there is one for a subject. -/
structure Policy where
  subject : Subject
  desired : Desired
  sourcePlan : Text

structure Control where
  router : AddressList
  plans : List Plan
  policies : List Policy

/-- The points passed: what was committed, or written to the router, and for
which plan or policy. -/
inductive Point where
  | created (plan : Text)
  | transitioned (plan : Text) (status : PlanStatus)
  | stepMarked (plan : Text)
  | applied (plan : Text)
  | undone (plan : Text)
  | policyRecorded (plan : Text)
  | denyAdded (policyKey address : Text)
  | denyRemoved (policyKey address : Text)
  deriving DecidableEq

abbrev Action := Op (History Control Point) NetError

def Control.plan? (s : Control) (key : Text) : Option Plan := s.plans.find? fun plan => plan.key = key

def findPlan (key : Text) (s : Control) : Except NetError Plan :=
  match s.plan? key with
  | none => .error .notFound
  | some plan => .ok plan

def Control.editPlan (s : Control) (key : Text) (f : Plan → Plan) : Control :=
  { s with plans := s.plans.map fun plan => if plan.key = key then f plan else plan }

def Plan.withStatus (status : PlanStatus) (plan : Plan) : Plan := { plan with status := status }

def transitionPlan (key : Text) (target : PlanStatus) : Action Unit := do
  let plan ← look (findPlan key)
  raiseIf (target ∉ planTransitions plan.status) .status
  step (.transitioned key target) fun s => s.editPlan key (Plan.withStatus target)

def Desired.operation : Desired → Operation
  | .deny => .ensure
  | .allow => .remove

def requestFor (operation : Operation) (policyKey assetKey : Text) (target : Target) : Request :=
  ⟨operation, target.source, target.address, policyKey, assetKey⟩

structure PlanInput where
  key : Text
  subject : Subject
  desired : Desired
  policyKey : Text
  assetKey : Text
  reason : Text
  evidence : Evidence
  targets : List Target

/-- The row that `create_change_plan` inserts. -/
def draftPlan (input : PlanInput) : Plan where
  key := input.key
  subject := input.subject
  desired := input.desired
  policyKey := input.policyKey
  assetKey := input.assetKey
  reason := input.reason
  evidence := input.evidence
  targets := input.targets
  rollback := input.targets.map (requestFor input.desired.operation.opposite input.policyKey input.assetKey)
  status := .draft
  steps := []

def Plan.addStep (request : Request) (plan : Plan) : Plan :=
  { plan with steps := plan.steps ++ [⟨request, .pending⟩] }

def addPlanStep (key : Text) (request : Request) : Action Unit := do
  let plan ← look (findPlan key)
  raiseIf (plan.status ≠ .draft ∧ plan.status ≠ .validated) .status
  step (.created key) fun s => s.editPlan key (Plan.addStep request)

/-- `create_asset_internet_access_plan` and `create_user_internet_access_plan`
once the targets are resolved; a key is stored once. -/
def createPlan (input : PlanInput) : Action Unit := do
  let taken ← look fun s => .ok (s.plan? input.key).isSome
  raiseIf (input.key = [] ∨ input.reason = [] ∨ input.subject.key = [] ∨ taken) .value
  step (.created input.key) fun s => { s with plans := s.plans ++ [draftPlan input] }
  let _ ← forEach (addPlanStep input.key)
    (input.targets.map (requestFor input.desired.operation input.policyKey input.assetKey))
  return ()

def updateDraftPlan (key reason : Text) : Action Unit := do
  let plan ← look (findPlan key)
  raiseIf (plan.status ≠ .draft ∧ plan.status ≠ .validated) .status
  raiseIf (reason = []) .value
  step (.created key) fun s => s.editPlan key fun plan => { plan with reason := reason }

def approvePlan (key : Text) : Action Unit := do
  transitionPlan key .validated
  transitionPlan key .approved

def oneDevice (steps : List PlanStep) : Bool :=
  match steps with
  | [] => false
  | first :: rest => rest.all fun step => step.request.target = first.request.target

def Plan.markStep (i : Nat) (status : StepStatus) (plan : Plan) : Plan :=
  { plan with steps := plan.steps.modify i fun step => { step with status := status } }

def writeRouter (point : Point) : Option AddressList → Action Unit
  | none => pure ()
  | some written => step point fun s => { s with router := written }

/-- The outcome of the preflight: it raises, it names changed preconditions, or
it names none. -/
inductive Preflight where
  | raises
  | changed
  | unchanged
  deriving DecidableEq

inductive ApplyResult where
  | alreadyApplied
  | stalePrecondition
  | applied
  | failed
  deriving DecidableEq

section

variable (source : Text)

/-- The loop of `apply_plan` from step `i` on; false when a call raised. -/
def applySteps (key : Text) : List Reply → Nat → List PlanStep → Action Bool
  | _, _, [] => pure true
  | replies, i, planStep :: rest => do
      let outcome ← look fun s =>
        .ok (adapterCall source (replies.headD .fine) planStep.request s.router)
      writeRouter (.applied key) outcome.2
      match outcome.1 with
      | .error _ =>
        step (.stepMarked key) fun s => s.editPlan key (Plan.markStep i .failed)
        return false
      | .ok _ =>
        step (.stepMarked key) fun s => s.editPlan key (Plan.markStep i .applied)
        applySteps key replies.tail (i + 1) rest

/-- `apply_plan`.  When the preflight raises, the handler looks at a step that
is not bound yet, and the plan keeps its status. -/
def applyPlan (key : Text) (granted : Bool) (preflight : Preflight) (replies : List Reply) :
    Action ApplyResult := do
  let plan ← look (findPlan key)
  if plan.status = .applied then return .alreadyApplied
  else
    raiseIf (plan.status ≠ .approved) .status
    raiseIf (oneDevice plan.steps = false) .devices
    raiseIf (granted = false) .locked
    match preflight with
    | .raises => raise .unbound
    | .changed =>
      transitionPlan key .failed
      return .stalePrecondition
    | .unchanged =>
      transitionPlan key .applying
      let done ← applySteps source key replies 0 plan.steps
      if done then
        transitionPlan key .applied
        return .applied
      else
        transitionPlan key .failed
        return .failed

inductive Finding where
  | fine
  | anchorInvalid
  | raises
  deriving DecidableEq

inductive VerifyResult where
  | verified
  | failed
  deriving DecidableEq

def isPresent (request : Request) (list : AddressList) : Except NetError Bool := do
  let comment ← ownershipComment request.policyKey request.assetKey
  return (managedEntries list).any fun row => row.address = request.address ∧ row.comment = comment

def firstMismatch (list : AddressList) : Nat → List PlanStep → Except NetError (Option Nat)
  | _, [] => .ok none
  | i, planStep :: rest => do
      let present ← isPresent planStep.request list
      if present = decide (planStep.request.operation = .ensure) then firstMismatch list (i + 1) rest
      else return some i

def Plan.markAll (status : StepStatus) (plan : Plan) : Plan :=
  { plan with steps := plan.steps.map fun step => { step with status := status } }

def verifyPlan (key : Text) (finding : Finding) : Action VerifyResult := do
  let plan ← look (findPlan key)
  raiseIf (plan.status ≠ .applied ∨ plan.steps.any fun step => step.status ≠ .applied) .status
  match finding with
  | .raises => raise .device
  | .anchorInvalid =>
    step (.stepMarked key) fun s => s.editPlan key (Plan.markAll .failed)
    transitionPlan key .failed
    return .failed
  | .fine =>
    let mismatch ← look fun s => firstMismatch s.router 0 plan.steps
    match mismatch with
    | some i =>
      step (.stepMarked key) fun s => s.editPlan key (Plan.markStep i .failed)
      transitionPlan key .failed
      return .failed
    | none =>
      step (.stepMarked key) fun s => s.editPlan key (Plan.markAll .verified)
      transitionPlan key .verified
      return .verified

/-- The row of the subject is inserted, or replaced where it is. -/
def upsertPolicy (policy : Policy) (policies : List Policy) : List Policy :=
  if policies.any fun other => other.subject = policy.subject then
    policies.map fun other => if other.subject = policy.subject then policy else other
  else policies ++ [policy]

def upsertDesiredPolicy (key : Text) : Action Unit := do
  let plan ← look (findPlan key)
  raiseIf (plan.status ≠ .verified) .status
  step (.policyRecorded key) fun s =>
    { s with policies := upsertPolicy ⟨plan.subject, plan.desired, key⟩ s.policies }

def dispatchVerify (key : Text) (finding : Finding) : Action VerifyResult := do
  let result ← verifyPlan key finding
  match result with
  | .failed => return .failed
  | .verified =>
    upsertDesiredPolicy key
    return .verified

inductive RollbackResult where
  | alreadyRolledBack
  | rolledBack
  | failed
  deriving DecidableEq

def callRequests (point : Request → Point) : List Reply → List Request → Action Bool
  | _, [] => pure true
  | replies, request :: rest => do
      let outcome ← look fun s => .ok (adapterCall source (replies.headD .fine) request s.router)
      writeRouter (point request) outcome.2
      match outcome.1 with
      | .error _ => return false
      | .ok _ => callRequests point replies.tail rest

/-- The loop of `rollback_plan`. -/
def rollbackSteps (key : Text) : List Reply → List Request → Action Bool :=
  callRequests source fun _ => .undone key

/-- `rollback_plan`; `probed` says whether the connectivity probe passes. -/
def rollbackPlan (key : Text) (granted : Bool) (replies : List Reply) (probed : Bool) :
    Action RollbackResult := do
  let plan ← look (findPlan key)
  if plan.status = .rolledBack then return .alreadyRolledBack
  else
    raiseIf (plan.status ≠ .applied ∧ plan.status ≠ .verified ∧ plan.status ≠ .failed) .status
    raiseIf (oneDevice plan.steps = false) .devices
    raiseIf (granted = false) .locked
    transitionPlan key .rollingBack
    let done ← rollbackSteps source key replies plan.rollback
    if done && probed then
      step (.stepMarked key) fun s => s.editPlan key (Plan.markAll .rolledBack)
      transitionPlan key .rolledBack
      return .rolledBack
    else
      transitionPlan key .failed
      return .failed

end

end Netops

end WebOvpn
