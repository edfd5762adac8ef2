/-
The execution sub-record of an install session: its fields, the validator of
a stored record and the validator of a change from one record to the next.
-/
import WebOvpn.Install.Common

namespace WebOvpn

inductive ExecutionState where
  | authorized
  | claimed
  | handoffStarted
  | installerStarted
  | installed
  | failed
  | cancelled
  | expired
deriving DecidableEq

namespace ExecutionState

def name : ExecutionState → String
  | authorized => "authorized"
  | claimed => "claimed"
  | handoffStarted => "handoff_started"
  | installerStarted => "installer_started"
  | installed => "installed"
  | failed => "failed"
  | cancelled => "cancelled"
  | expired => "expired"

def all : List ExecutionState :=
  [authorized, claimed, handoffStarted, installerStarted, installed, failed, cancelled, expired]

def next : ExecutionState → List ExecutionState
  | authorized => [claimed, cancelled, expired]
  | claimed => [handoffStarted, cancelled, expired]
  | handoffStarted => [installerStarted, cancelled, expired]
  | installerStarted => [installed, failed]
  | installed | failed | cancelled | expired => []

end ExecutionState

/-- The keys of an execution record, `EXECUTION_STATUS_KEYS`. -/
inductive ExecutionField where
  | schemaVersion
  | revision
  | state
  | authorizedAt
  | expiresAt
  | planSha256
  | inventorySha256
  | diskFingerprint
  | targetDisk
  | reason
  | profileId
  | profileVersion
  | isoId
  | isoSha256
  | manifestSha256
  | claimedAt
  | handoffStartedAt
  | installerStartedAt
  | installedAt
  | failedAt
  | failureCode
  | cancelledAt
  | cancelReason
  | expiredAt
deriving DecidableEq

namespace ExecutionField

def name : ExecutionField → String
  | schemaVersion => "schema_version"
  | revision => "revision"
  | state => "state"
  | authorizedAt => "authorized_at"
  | expiresAt => "expires_at"
  | planSha256 => "plan_sha256"
  | inventorySha256 => "inventory_sha256"
  | diskFingerprint => "disk_fingerprint"
  | targetDisk => "target_disk"
  | reason => "reason"
  | profileId => "profile_id"
  | profileVersion => "profile_version"
  | isoId => "iso_id"
  | isoSha256 => "iso_sha256"
  | manifestSha256 => "manifest_sha256"
  | claimedAt => "claimed_at"
  | handoffStartedAt => "handoff_started_at"
  | installerStartedAt => "installer_started_at"
  | installedAt => "installed_at"
  | failedAt => "failed_at"
  | failureCode => "failure_code"
  | cancelledAt => "cancelled_at"
  | cancelReason => "cancel_reason"
  | expiredAt => "expired_at"

def all : List ExecutionField :=
  [schemaVersion, revision, state, authorizedAt, expiresAt, planSha256,
    inventorySha256, diskFingerprint, targetDisk, reason, profileId,
    profileVersion, isoId, isoSha256, manifestSha256, claimedAt,
    handoffStartedAt, installerStartedAt, installedAt, failedAt, failureCode,
    cancelledAt, cancelReason, expiredAt]

theorem mem_all (f : ExecutionField) : f ∈ all := by
  cases f <;> decide

instance decidableForall (P : ExecutionField → Prop) [DecidablePred P] : Decidable (∀ f, P f) :=
  decidable_of_iff (∀ f ∈ all, P f) ⟨fun h f => h f (mem_all f), fun h f _ => h f⟩

instance decidableExists (P : ExecutionField → Prop) [DecidablePred P] : Decidable (∃ f, P f) :=
  decidable_of_iff (∃ f ∈ all, P f)
    ⟨fun ⟨f, _, h⟩ => ⟨f, h⟩, fun ⟨f, h⟩ => ⟨f, mem_all f, h⟩⟩

def binding : List ExecutionField :=
  [authorizedAt, expiresAt, planSha256, inventorySha256, diskFingerprint,
    targetDisk, reason, profileId, profileVersion, isoId, isoSha256,
    manifestSha256]

def ordered : List ExecutionField :=
  [claimedAt, handoffStartedAt, installerStartedAt, installedAt, failedAt, cancelledAt, expiredAt]

end ExecutionField

open ExecutionField in
def ExecutionState.timeField : ExecutionState → ExecutionField
  | authorized => authorizedAt
  | claimed => claimedAt
  | handoffStarted => handoffStartedAt
  | installerStarted => installerStartedAt
  | installed => installedAt
  | failed => failedAt
  | cancelled => cancelledAt
  | expired => expiredAt

open ExecutionField in
/-- `reached` of `validate_execution_status`: the timestamps a state allows. -/
def ExecutionState.reached : ExecutionState → List ExecutionField
  | authorized => []
  | claimed => [claimedAt]
  | handoffStarted => [claimedAt, handoffStartedAt]
  | installerStarted => [claimedAt, handoffStartedAt, installerStartedAt]
  | installed => [claimedAt, handoffStartedAt, installerStartedAt, installedAt]
  | failed => [claimedAt, handoffStartedAt, installerStartedAt, failedAt]
  | cancelled => [claimedAt, handoffStartedAt, cancelledAt]
  | expired => [claimedAt, handoffStartedAt, expiredAt]

open ExecutionField in
/-- `_EXECUTION_TRANSITION_FIELDS`; an edge outside the table frees nothing. -/
def ExecutionState.mutable : ExecutionState → ExecutionState → List ExecutionField
  | authorized, claimed => [state, claimedAt]
  | authorized, cancelled => [state, cancelledAt, cancelReason]
  | authorized, expired => [state, expiredAt]
  | claimed, handoffStarted => [state, handoffStartedAt]
  | claimed, cancelled => [state, cancelledAt, cancelReason]
  | claimed, expired => [state, expiredAt]
  | handoffStarted, installerStarted => [state, installerStartedAt]
  | handoffStarted, cancelled => [state, cancelledAt, cancelReason]
  | handoffStarted, expired => [state, expiredAt]
  | installerStarted, installed => [state, installedAt]
  | installerStarted, failed => [state, failedAt, failureCode]
  | _, _ => []

/-- An execution record: a value for every key. -/
abbrev Execution := ExecutionField → JVal

instance : DecidableEq Execution := fun a b =>
  decidable_of_iff (∀ f, a f = b f) funext_iff.symm

def executionInvalid (message : String) : Exc :=
  .control ⟨"install_execution_status_invalid", message, 4⟩

def executionTimestamp (value : JVal) : Except Exc Instant :=
  awareTimestamp (executionInvalid "Install execution timestamp is invalid") value

/-- `_SHA256_RE` and the like applied to a value that must be a string. -/
def JVal.matches (pattern : Text → Bool) : JVal → Bool
  | .str s => pattern s
  | _ => false

def Text.isBounded (s : Text) : Bool := 1 ≤ s.length && s.length ≤ 256

/-- `"$y$" in value`, the mark of a password hash. -/
def JVal.holdsSecret : JVal → Bool := JVal.matches (Text.contains "$y$")

/-- Lists and objects cannot be looked up in a set. -/
def JVal.isHashable : JVal → Bool
  | .arr _ | .obj _ => false
  | _ => true

namespace Execution

variable (e : Execution)

def stateOf : Option ExecutionState :=
  ExecutionState.all.find? fun s => e .state = .str (text s.name)

def bindingPresent : Bool := ExecutionField.binding.all fun f => e f != .null

def bindingAbsent : Bool := ExecutionField.binding.all fun f => e f == .null

/-- The binding values have the type and shape their keys ask for. -/
def bindingShaped : Bool :=
  (e .planSha256).matches Text.isSha256 &&
    (e .inventorySha256).matches Text.isSha256 &&
    (e .diskFingerprint).matches Text.isFingerprint &&
    (e .targetDisk).matches Text.isDevice &&
    (e .manifestSha256).matches Text.isSha256 &&
    (e .profileId).matches Text.isIdentifier &&
    (match e .profileVersion with | .int n => 1 ≤ n | _ => false) &&
    (e .isoId).matches Text.isIdentifier &&
    (e .isoSha256).matches Text.isSha256 &&
    (e .reason).matches Text.isBounded

/-- The checks under `if binding_present`; the result is the time of
authorization. -/
def validateBinding : Except Exc Instant := do
  raiseWhen (e.bindingShaped = false)
    (executionInvalid "Install execution binding is invalid")
  let authorized ← executionTimestamp (e .authorizedAt)
  let expires ← executionTimestamp (e .expiresAt)
  raiseWhen (expires ≤ authorized)
    (executionInvalid "Install execution expiry is invalid")
  return authorized

/-- `authorized`, which only a present binding defines. -/
def authorization : Except Exc (Option Instant) :=
  if e.bindingPresent then e.validateBinding.map some else .ok none

/-- The loop over `ordered_fields`: the timestamps present, in order. -/
def parseTimes (authorized : Option Instant) : List ExecutionField → Except Exc (List Instant)
  | [] => .ok []
  | f :: rest =>
    if e f = .null then parseTimes authorized rest
    else do
      let t ← executionTimestamp (e f)
      raiseWhen (authorized.any (fun a => t < a) = true)
        (executionInvalid "Install execution timestamps move backwards")
      let times ← parseTimes authorized rest
      return t :: times

/-- The checks of `validate_execution_status` that follow the binding. -/
def validateTimes (s : ExecutionState) (authorized : Option Instant) : Except Exc Unit := do
  let times ← e.parseTimes authorized ExecutionField.ordered
  raiseWhen (e s.timeField = .null)
    (executionInvalid "Install execution state timestamp is missing")
  raiseWhen (∃ f ∈ ExecutionField.ordered, f ∉ s.reached ∧ e f ≠ .null)
    (executionInvalid "Install execution state timestamps are invalid")
  raiseWhen (e .handoffStartedAt ≠ .null ∧ e .claimedAt = .null)
    (executionInvalid "Install execution state timestamps are invalid")
  raiseWhen (¬ times.IsChain (· ≤ ·))
    (executionInvalid "Install execution timestamps move backwards")
  raiseWhen (if s = .failed then (e .failureCode).matches Text.isIdentifier = false
      else e .failureCode ≠ .null)
    (executionInvalid "Install execution failure code is invalid")
  raiseWhen (if s = .cancelled then (e .cancelReason).matches Text.isBounded = false
      else e .cancelReason ≠ .null)
    (executionInvalid "Install execution cancellation reason is invalid")

/-- `validate_execution_status` on a record with the right keys.  Asking
whether an unhashable value is a known state is a type error. -/
def validate : Except Exc Unit := do
  raiseWhen (e .schemaVersion ≠ .int 1 ∨ e .revision ≠ .int 1)
    (executionInvalid "Install execution status is invalid")
  raiseWhen ((e .state).isHashable = false) .type
  match e.stateOf with
  | none => .error (executionInvalid "Install execution status is invalid")
  | some s => do
      raiseWhen (∃ f, (e f).holdsSecret = true)
        (executionInvalid "Install execution status is invalid")
      raiseWhen (s = .cancelled ∧ e.bindingPresent = false ∧ e.bindingAbsent = false)
        (executionInvalid "Install execution cancellation binding is invalid")
      raiseWhen (s ≠ .cancelled ∧ e.bindingPresent = false)
        (executionInvalid "Install execution binding is invalid")
      let authorized ← e.authorization
      e.validateTimes s authorized

/-- The record of a mapping whose key set is `EXECUTION_STATUS_KEYS`. -/
def ofMembers (members : List (Text × JVal)) : Option Execution :=
  if (∀ m ∈ members, ∃ f, m.1 = text (ExecutionField.name f)) ∧
      ∀ f, (memberOf members (ExecutionField.name f)).isSome then
    some fun f => (memberOf members f.name).getD .null
  else none

def toMembers : List (Text × JVal) :=
  ExecutionField.all.map fun f => (text f.name, e f)

end Execution

def validateExecutionStatus : JVal → Except Exc Unit
  | .obj members =>
    match Execution.ofMembers members with
    | some e => e.validate
    | none => .error (executionInvalid "Install execution status fields are invalid")
  | _ => .error (executionInvalid "Install execution status fields are invalid")

/-- `after_state in _EXECUTION_TRANSITIONS[before_state]` with every field
outside the edge's own left as it was. -/
def Execution.follows (before after : Execution) : Bool :=
  match before.stateOf, after.stateOf with
  | some s, some s' =>
    decide (s' ∈ s.next ∧ ∀ f, f ∉ s.mutable s' → before f = after f)
  | _, _ => false

def Execution.validateTransition (before after : Execution) : Except Exc Unit := do
  before.validate
  after.validate
  raiseWhen (before ≠ after ∧ before.follows after = false)
    (executionInvalid "Install execution transition is invalid")

def Execution.validateInitial (after : Execution) : Except Exc Unit := do
  after.validate
  raiseWhen (after.stateOf ≠ some .authorized ∧ after.stateOf ≠ some .cancelled)
    (executionInvalid "Install execution initial transition is invalid")

def validateExecutionTransition (before after : JVal) : Except Exc Unit :=
  match before, after with
  | .null, .obj members =>
    match Execution.ofMembers members with
    | some e => e.validateInitial
    | none => .error (executionInvalid "Install execution status fields are invalid")
  | .obj members, .obj members' =>
    match Execution.ofMembers members, Execution.ofMembers members' with
    | some e, some e' => e.validateTransition e'
    | some e, none => do
        e.validate
        .error (executionInvalid "Install execution status fields are invalid")
    | none, _ =>
      .error (executionInvalid "Install execution status fields are invalid")
  | _, _ => .error (executionInvalid "Install execution status is invalid")

end WebOvpn
