/-
The service of the workstations: requests and their rows, threads that start them, execute
them in the pool of the panel, and answer polls.
-/
import WebOvpn.Lib.Json
import WebOvpn.Panel.Ledger

namespace WebOvpn.Workstations

open Text

/-- `ACTIONS`. -/
inductive Action where
  | plansCreate
  | componentPlansCreate
  | plansApply
  | jobsCancel
  | jobsVerify
  | linksPreview
  | linksConfirm
  | linksEnd
  | reconcile
  | findingsAck
  deriving DecidableEq

def Action.name : Action → Text
  | .plansCreate => "plans.create"
  | .componentPlansCreate => "component_plans.create"
  | .plansApply => "plans.apply"
  | .jobsCancel => "jobs.cancel"
  | .jobsVerify => "jobs.verify"
  | .linksPreview => "links.preview"
  | .linksConfirm => "links.confirm"
  | .linksEnd => "links.end"
  | .reconcile => "reconcile"
  | .findingsAck => "findings.ack"

def Action.permission : Action → Text
  | .plansCreate => "workstations:plan"
  | .componentPlansCreate => "workstations:plan"
  | .plansApply => "workstations:apply"
  | .jobsCancel => "workstations:apply"
  | .jobsVerify => "workstations:diagnose"
  | .linksPreview => "workstations:link"
  | .linksConfirm => "workstations:link"
  | .linksEnd => "workstations:link"
  | .reconcile => "workstations:diagnose"
  | .findingsAck => "workstations:diagnose"

/-- The stage that `_execute` names after `registered`. -/
def Action.stage : Action → Text
  | .linksPreview => "comparison"
  | .linksConfirm => "comparison"
  | .linksEnd => "comparison"
  | .findingsAck => "comparison"
  | .reconcile => "comparison"
  | _ => "controller"

inductive RequestStatus where
  | registered
  | running
  | succeeded
  | failed
  | unknown
  | duplicate
  deriving DecidableEq

/-- `status not in ('registered', 'running')`. -/
def RequestStatus.isTerminal : RequestStatus → Bool
  | .registered => false
  | .running => false
  | _ => true

/-- A member of `phases_json`. -/
structure StageRecord where
  stage : Text
  status : RequestStatus
  timestamp : Option Instant
  code : Option Text
  deriving DecidableEq

/-- A row of `workstation_requests`. The operation of the panel is its place in
the ledger; `claimant` is the thread whose `_execute` claimed the row, which no
column holds. -/
structure Request where
  id : Text
  panelOperation : Option Nat
  actor : Text
  action : Action
  permission : Text
  intentSha256 : Text
  status : RequestStatus
  parameters : List (Text × JVal)
  data : Option JVal
  phases : List StageRecord
  errorCode : Option Text
  createdAt : Instant
  finishedAt : Option Instant
  claimant : Option Panel.Thread
  deriving DecidableEq

/-- A call of `start`, with the digest and the two keys that it computes. -/
structure Start where
  action : Action
  parameters : List (Text × JVal)
  actor : Text
  requestId : Text
  digest : Text
  fingerprint : Text
  intentHash : Text
  deriving DecidableEq

def validUuid (value : Text) : Bool :=
  let hex (n : Nat) := List.replicate n CodePoint.isLowerHex
  Text.fullmatch (hex 8 ++ Text.literal "-" ++ hex 4 ++ Text.literal "-" ++ hex 4 ++ Text.literal "-" ++ hex 4 ++
    Text.literal "-" ++ hex 12) value && value.any fun c => decide (c ∉ text "0-")

def Start.isValid (start : Start) : Bool :=
  validUuid start.requestId && 1 ≤ start.actor.length && start.actor.length ≤ 160

def Start.call (start : Start) : Panel.Call where
  owner := start.actor
  action := text "workstations." ++ start.action.name
  permission := start.action.permission
  fingerprint := start.fingerprint
  intentHash := start.intentHash

def Start.row (start : Start) (now : Instant) : Request where
  id := start.requestId
  panelOperation := none
  actor := start.actor
  action := start.action
  permission := start.action.permission
  intentSha256 := start.digest
  status := .registered
  parameters := start.parameters
  data := none
  phases := [⟨"registered", .running, some now, none⟩]
  errorCode := none
  createdAt := now
  finishedAt := none
  claimant := none

def Start.isConflict (start : Start) (row : Request) : Bool :=
  row.actor ≠ start.actor || row.intentSha256 ≠ start.digest

/-- What the call of the gateway, or the work on the links, the findings or the
comparison comes to: the data, as `public_payload` leaves them, or an exception
with its `code` and whether it is `uncertain`. -/
inductive Reply where
  | value (data : List (Text × JVal))
  | raised (code : Option Text) (uncertain : Bool)
  deriving DecidableEq

/-- `[a-z][a-z0-9_]{0,127}`. -/
def isCode (code : Text) : Bool :=
  code.head?.any CodePoint.isLower && code.length ≤ 128 &&
    code.all fun c => c.isLower || c.isDigit || c == '_'

def safeCode (code : Text) : Text :=
  if isCode code then code else "workstations_internal_error"

/-- A comparison that is not complete. -/
def Reply.isIncomplete (action : Action) (data : List (Text × JVal)) : Bool :=
  action = .reconcile && data.lookup (text "status") ≠ some (.str (text "success"))

def Reply.status (action : Action) : Reply → RequestStatus
  | .value data => if Reply.isIncomplete action data then .failed else .succeeded
  | .raised code uncertain =>
    if code = none ∧ (action = .plansApply ∨ action = .jobsCancel) then .unknown
    else if uncertain then .unknown
    else .failed

def Reply.data : Reply → Option JVal
  | .value data => some (.obj data)
  | .raised _ _ => none

def Reply.code (action : Action) : Reply → Option Text
  | .value data =>
    if Reply.isIncomplete action data then some "workstations_reconciliation_incomplete" else none
  | .raised code _ => some (safeCode (code.getD "workstations_operation_failed"))

/-- The answer of the gateway to `receipts.status`, with the data as
`public_payload` leaves them. -/
structure Receipt where
  requestId : Option Text
  state : Option Text
  data : List (Text × JVal)
  deriving DecidableEq

def Receipt.text? (receipt : Receipt) (key : String) : Option Text :=
  match receipt.data.lookup (text key) with
  | some (.str value) => some value
  | _ => none

/-- `job-[0-9]{8}T[0-9]{6}Z-[0-9a-f]{8}`. -/
def isJobId (value : Text) : Bool :=
  Text.fullmatch (Text.literal "job-" ++ List.replicate 8 CodePoint.isDigit ++ Text.literal "T" ++
    List.replicate 6 CodePoint.isDigit ++ Text.literal "Z-" ++ List.replicate 8 CodePoint.isLowerHex) value

/-- The checks of `_native_receipt` on the answer. -/
def Receipt.isProof (receipt : Receipt) (requestId : Text) : Bool :=
  receipt.requestId = some requestId && receipt.state = some (text "successful") &&
    (receipt.text? "job_id").any isJobId && (receipt.text? "machine_uuid").any validUuid

/-- `data.get('plan_id') == row.parameters_json['plan_id']` and the same for the
digest; the row may lack either. -/
def Receipt.isOfPlan (receipt : Receipt) (row : Request) : Bool :=
  match row.parameters.lookup (text "plan_id"), row.parameters.lookup (text "sha256") with
  | some planId, some sha256 =>
    (receipt.data.lookup (text "plan_id")).getD .null = planId &&
      (receipt.data.lookup (text "plan_sha256")).getD .null = sha256
  | _, _ => false

def Receipt.kept (receipt : Receipt) : List (Text × JVal) :=
  [text "job_id", "machine_uuid", "state", "plan_id", "plan_sha256"].filterMap fun key =>
    (receipt.data.lookup key).map fun value => (key, value)

def Request.claimed (row : Request) (who : Panel.Thread) : Request :=
  if row.status = .registered then { row with status := .running, claimant := some who } else row

def Request.noted (row : Request) (now : Instant) : Request :=
  { row with
    phases := [⟨"registered", .succeeded, none, none⟩, ⟨row.action.stage, .running, some now, none⟩] }

/-- The last write of `_execute`. -/
def Request.closed (row : Request) (reply : Reply) (now : Instant) : Request :=
  { row with
    status := reply.status row.action
    data := reply.data
    errorCode := reply.code row.action
    finishedAt := some now
    phases := [⟨"registered", .succeeded, none, none⟩,
      ⟨row.action.stage, reply.status row.action, some now, reply.code row.action⟩] }

/-- What `start` writes when the panel had an operation already. -/
def Request.duplicated (row : Request) (operationId : Text) (now : Instant) : Request :=
  { row with
    status := .duplicate
    data := some (.obj [("operation_id", .str operationId)])
    finishedAt := some now }

/-- What `start` writes when the panel did not take the operation. -/
def Request.recanted (row : Request) (now : Instant) : Request :=
  { row with
    status := .failed
    errorCode := some "workstations_executor_unavailable"
    finishedAt := some now }

/-- What `operation` writes when the lease has passed. -/
def Request.expired (row : Request) (now : Instant) : Request :=
  { row with
    status := .unknown
    errorCode := some "workstations_executor_outcome_unknown"
    finishedAt := some now }

/-- What `_native_receipt` writes over a row, of which it has read `reading`. -/
def Request.resolved (row reading : Request) (receipt : Receipt) (now : Instant) : Request :=
  { row with
    status := .succeeded
    data := some (.obj receipt.kept)
    errorCode := none
    phases := reading.phases ++ [⟨"native_receipt", .succeeded, some now, none⟩] }

open Panel (Thread)

structure Shared where
  requests : List Request
  panel : Panel.Shared

def Shared.setRequest (s : Shared) (id : Nat) (f : Request → Request) : Shared :=
  { s with requests := s.requests.modify id f }

/-- Where a caller is that starts a request or polls it. `reading` is the row as
the caller has read it. -/
inductive Caller where
  | idle
  | foreign
  | starting (start : Start)
  | creating (start : Start)
  | registering (id : Nat)
  | recording (id operation : Nat) (created : Bool)
  | failing (id : Nat)
  | recanting (id : Nat)
  | polling (key actor : Text)
  | checking (id : Nat) (reading : Request)
  | lookingUp (id : Nat) (reading : Request)
  | resolving (id : Nat) (reading : Request) (receipt : Receipt)
  | confirming (id : Nat) (reading row : Request) (receipt : Receipt)
  | answering (id : Nat) (reading : Request)
  | conflict
  | over
  deriving DecidableEq

inductive Body where
  | before
  | claiming
  | noting
  | acting
  | waiting
  | closing (reply : Reply)
  | done (outcome : Panel.Outcome)
  deriving DecidableEq

/-- The caller and, once it has added a request, the operation of the panel and
the execution of the request, which go on beside it. -/
structure Task where
  caller : Caller
  request : Option Nat
  panel : Panel.Phase
  body : Body

/-- The next step of the caller; `raise` is an exception of the database. -/
inductive CallerEvent where
  | start (start : Start)
  | foreign (call : Panel.Call)
  | poll (key actor : Text)
  | read
  | write (now : Instant)
  | proceed
  | check (now : Instant)
  | receipt (answer : Option Receipt)
  | answer
  | raise

/-- The next step of `_execute`. -/
inductive BodyEvent where
  | enter
  | claim
  | write (now : Instant)
  | issue
  | reply (reply : Reply)
  | raise

inductive Event where
  | caller (event : CallerEvent)
  | panel (event : Panel.Event)
  | body (event : BodyEvent)

/-- The operation that the pool has taken. -/
def submitted? : Panel.Phase → Option Nat
  | .queued id => some id
  | .refused id => some id
  | .calling id => some id
  | .writing id _ => some id
  | .ending id _ => some id
  | .over id _ => some id
  | _ => none

/-- `db.get(WorkstationRequest, request_id)` of `start`. -/
def lookUp (s : Shared) (start : Start) : Caller :=
  match s.requests.findIdx? fun row => row.id = start.requestId with
  | none => .creating start
  | some id =>
    match s.requests[id]? with
    | none => .creating start
    | some row => if start.isConflict row then .conflict else .answering id row

/-- The row is added, or `start` begins again when its identifier is taken. -/
def create (s : Shared) (start : Start) (now : Instant) (task : Task) : Shared × Task :=
  if s.requests.any fun row => row.id = start.requestId then (s, { task with caller := .starting start })
  else
    ({ s with requests := s.requests ++ [start.row now] }, { task with
        caller := .registering s.requests.length
        request := some s.requests.length
        panel := .recovering start.call })

/-- What `register` came to. -/
def proceed (id : Nat) (phase : Panel.Phase) : Caller :=
  match phase with
  | .answered (some operation) => .recording id operation false
  | .answered none => .failing id
  | phase =>
    match submitted? phase with
    | some operation => .recording id operation true
    | none => .registering id

/-- What `start` writes after `register`. -/
def recorded (operationId : Nat → Text) (operation : Nat) (created : Bool) (now : Instant)
    (row : Request) : Request :=
  if created then { row with panelOperation := some operation } else row.duplicated (operationId operation) now

/-- The rows that `record` selects. -/
def Request.answersTo (operationId : Nat → Text) (key : Text) (row : Request) : Bool :=
  row.panelOperation.map operationId = some key || row.id = key

/-- What `operation` does with a record that is not open. -/
def settle (id : Nat) (reading : Request) : Caller :=
  if reading.status = .unknown ∧ reading.action = .plansApply then .lookingUp id reading
    else .answering id reading

def readRecord (operationId : Nat → Text) (s : Shared) (key actor : Text) : Caller :=
  match s.requests.findIdxs fun row => row.answersTo operationId key with
  | [id] =>
    match s.requests[id]? with
    | none => .over
    | some row =>
      if row.actor ≠ actor then .over
      else if row.status.isTerminal then settle id row
      else .checking id row
  | _ => .over

/-- `LEASE_SECONDS` have passed since the request, or the lease of its operation has. -/
def leasePassed (s : Shared) (reading : Request) (now : Instant) : Bool :=
  match reading.panelOperation with
  | none => Panel.leaseMicros + reading.createdAt.val ≤ now.val
  | some operation => s.panel.rows[operation]?.all fun row => row.leaseUntil < now

/-- The writes of `operation` on an open request. -/
def check (s : Shared) (id : Nat) (reading : Request) (now : Instant) : Shared × Caller :=
  if leasePassed s reading now then
    match s.requests[id]? with
    | none => (s, .over)
    | some row => (s.setRequest id fun row => row.expired now, settle id (row.expired now))
  else (s, .answering id reading)

/-- The checks of `_native_receipt` on the row. -/
def resolve (s : Shared) (id : Nat) (reading : Request) (receipt : Receipt) : Caller :=
  match s.requests[id]? with
  | none => .answering id reading
  | some row =>
    if row.actor ≠ reading.actor ∨ row.action ≠ .plansApply ∨ row.status ≠ .unknown then .answering id row
    else if receipt.isOfPlan row then .confirming id reading row receipt
    else .answering id reading

def confirm (s : Shared) (id : Nat) (row : Request) (receipt : Receipt) (now : Instant) :
    Shared × Caller :=
  (s.setRequest id fun current => current.resolved row receipt now, .answering id (row.resolved row receipt now))

def answerStep (operationId : Nat → Text) (event : CallerEvent) (s : Shared) (caller : Caller) :
    Shared × Caller :=
  match caller, event with
  | .idle, .start start => (s, if start.isValid then .starting start else .over)
  | .idle, .poll key actor => (s, if validUuid key then .polling key actor else .over)
  | .starting start, .read => (s, lookUp s start)
  | .recording id operation created, .write now =>
    (s.setRequest id (recorded operationId operation created now), match s.requests[id]? with
      | none => .failing id
      | some row => .answering id (recorded operationId operation created now row))
  | .recording id _ _, .raise => (s, .failing id)
  | .failing id, .read =>
    (s, if s.requests[id]?.any fun row => row.status = .registered then .recanting id else .over)
  | .recanting id, .write now => (s.setRequest id fun row => row.recanted now, .over)
  | .polling key actor, .read => (s, readRecord operationId s key actor)
  | .checking id reading, .check now => check s id reading now
  | .lookingUp id reading, .receipt (some receipt) =>
    (s, if receipt.isProof reading.id then .resolving id reading receipt else .answering id reading)
  | .lookingUp id reading, .receipt none => (s, .answering id reading)
  | .resolving id reading receipt, .read => (s, resolve s id reading receipt)
  | .resolving id reading _, .raise => (s, .answering id reading)
  | .confirming id _ row receipt, .write now => confirm s id row receipt now
  | .confirming id reading _ _, .raise => (s, .answering id reading)
  | .answering _ _, .answer => (s, .over)
  | .starting _, .raise => (s, .over)
  | .creating _, .raise => (s, .over)
  | .failing _, .raise => (s, .over)
  | .recanting _, .raise => (s, .over)
  | .polling _ _, .raise => (s, .over)
  | .checking _ _, .raise => (s, .over)
  | caller, _ => (s, caller)

def callerStep (operationId : Nat → Text) (event : CallerEvent) (s : Shared) (task : Task) :
    Shared × Task :=
  match task.caller, event with
  | .idle, .foreign call => (s, { task with caller := .foreign, panel := .recovering call })
  | .creating start, .write now => create s start now task
  | .registering id, .proceed => (s, { task with caller := proceed id task.panel })
  | caller, event =>
    ((answerStep operationId event s caller).1,
      { task with caller := (answerStep operationId event s caller).2 })

/-- A step of the panel. The callable of a request ends when `_execute` does. -/
def panelStep (who : Thread) (event : Panel.Event) (s : Shared) (task : Task) : Shared × Task :=
  let stepped : Shared × Task :=
    ({ s with panel := (Panel.act who event s.panel task.panel).1 },
      { task with panel := (Panel.act who event s.panel task.panel).2 })
  match event with
  | .call _ => (s, task)
  | .finish outcome => if task.body = .done outcome ∨ task.caller = .foreign then stepped else (s, task)
  | _ => stepped

/-- A step of `_execute` on the request. -/
def bodyStep (who : Thread) (event : BodyEvent) (s : Shared) (id : Nat) (body : Body) : Shared × Body :=
  match body, event with
  | .claiming, .claim =>
    if s.requests[id]?.any fun row => row.status = .registered then
      (s.setRequest id fun row => row.claimed who, .noting)
    else (s, .done ⟨[], [], .response 200⟩)
  | .claiming, .raise => (s, .done ⟨[], [], .exception⟩)
  | .noting, .write now => (s.setRequest id fun row => row.noted now, .acting)
  | .noting, .raise => (s, .done ⟨[], [], .exception⟩)
  | .acting, .issue => (s, .waiting)
  | .waiting, .reply reply => (s, .closing reply)
  | .closing reply, .write now =>
    (s.setRequest id fun row => row.closed reply now, .done ⟨[⟨"workstations.result",
        match s.requests[id]?.map fun row => reply.status row.action with
        | some .succeeded => .succeeded
        | some .unknown => .unknown
        | _ => .failed⟩], [], .response 200⟩)
  | .closing _, .raise => (s, .done ⟨[], [], .exception⟩)
  | body, _ => (s, body)

/-- The pool calls `_execute` once. -/
def executeStep (who : Thread) (event : BodyEvent) (s : Shared) (task : Task) : Shared × Task :=
  match task.request, task.panel, task.body, event with
  | some _, .calling _, .before, .enter => (s, { task with body := .claiming })
  | some id, _, body, event =>
    ((bodyStep who event s id body).1, { task with body := (bodyStep who event s id body).2 })
  | none, _, _, _ => (s, task)

def act (operationId : Nat → Text) (who : Thread) (event : Event) (s : Shared) (task : Task) :
    Shared × Task :=
  if s.panel.lost who.process then (s, task)
  else
    match event with
    | .caller event => callerStep operationId event s task
    | .panel event => panelStep who event s task
    | .body event => executeStep who event s task

end WebOvpn.Workstations
