/-
Creation, log archiving and deletion of provision jobs in the steps in which
they reach the disk.
-/
import WebOvpn.Jobs.Records
import WebOvpn.Lib.Crash

namespace WebOvpn

open Op

/-- The steps of `JobRepository.create` and `JobRetentionManager.cleanup`. -/
inductive JobPoint where
  | jobsDirMade
  | jobDirMade (id : Text)
  | temporaryOpened (id : Text)
  | temporaryWritten (id : Text)
  | temporaryDropped (id : Text)
  | requestReplaced (id : Text)
  | statusReplaced (id : Text)
  | logMade (id : Text)
  | archiveOpened (id : Text)
  | archiveWritten (id : Text)
  | archiveReplaced (id : Text)
  | logRemoved (id : Text)
  | archiveDropped (id : Text)
  /-- A file of an expired job is unlinked; the names that are left. -/
  | fileRemoved (id : Text) (left : List Text)
  | jobRemoved (id : Text)

namespace Jobs

variable (rt : Runtime)

abbrev JobId := { id : Text // isJobId id = true }

def change (id : Text) (f : JobFiles → JobFiles) (jobs : JobsDir) : JobsDir :=
  jobs.map fun entries => entries.map fun entry =>
    match entry with
    | (name, .directory files) =>
      if name = id then (name, .directory (f files)) else (name, .directory files)
    | (name, .other) => (name, .other)

def put (name : Text) (file : JobFile) (files : JobFiles) : JobFiles :=
  files.filter (fun entry => entry.1 ≠ name) ++ [(name, file)]

def unlink (name : Text) (files : JobFiles) : JobFiles :=
  files.filter fun entry => entry.1 ≠ name

def replace (source target : Text) (file : JobFile) (files : JobFiles) : JobFiles :=
  put target file (unlink source files)

def filesOf (jobs : JobsDir) (id : Text) : JobFiles :=
  match entryOf jobs id with
  | some (.directory files) => files
  | _ => []

structure NewJob where
  request : Members
  /-- The identifiers that are generated, one for each attempt. -/
  ids : List JobId
  now : Instant
  pid : Text

def forbiddenKeyParts : List String := ["password", "secret", "token", "private_key", "vault"]

mutual

/-- `assert_safe_payload`: no key looks like that of a secret. -/
def isSafe : JVal → Bool
  | .arr items => isSafeItems items
  | .obj members => isSafeMembers members
  | _ => true

def isSafeItems : List JVal → Bool
  | [] => true
  | v :: rest => isSafe v && isSafeItems rest

def isSafeMembers : List (Text × JVal) → Bool
  | [] => true
  | (k, v) :: rest =>
    !(forbiddenKeyParts.any fun part => Text.contains (text part) (rt.lower k)) &&
      isSafe v && isSafeMembers rest

end

/-- The record that `create` stores, or why it refuses the request. -/
def jobRequest (new : NewJob) : Except Exc (Members × Text) := do
  raiseWhen (Members.field new.request "kind" = .str "setup" ∨
      rt.equalsInt (Members.field new.request "schema_version") 2 = true)
    (.control ⟨"setup_job_admission_required", "Setup jobs require typed single-use admission", 4⟩)
  raiseWhen (isSafeMembers rt new.request = false)
    (.control ⟨"unsafe_payload", "Payload contains a secret-like key", 4⟩)
  let machineUuid := rt.lower (Text.strip (rt.strOr (Members.field new.request "machine_uuid")))
  raiseWhen (machineUuid = [])
    (.control ⟨"invalid_job_request", "Job request has no machine UUID", 4⟩)
  return (dictInsert new.request "machine_uuid" (.str machineUuid), machineUuid)

def jobStatus (id machineUuid : Text) (now : Instant) : Members :=
  [("job_id", .str id), ("machine_uuid", .str machineUuid),
    ("state", .str "queued"), ("stage", .str "created"),
    ("stage_history", .arr [.obj [("stage", .str "created"),
      ("entered_at", .str now.isoformat)]]),
    ("created_at", .str now.isoformat), ("updated_at", .str now.isoformat)]

def temporaryName (file : String) (pid : Text) : Text :=
  text "." ++ text file ++ text "." ++ pid ++ ".tmp"

/-- `atomic_write_json` into a job's directory.  A text that cannot be encoded
stops it when the temporary file is already open. -/
def atomicWriteJson (id : Text) (file : String) (pid : Text) (members : Members)
    (replaced : JobPoint) : Op (History JobsDir JobPoint) Exc Unit := do
  let temporary := temporaryName file pid
  step (.temporaryOpened id) (change id (put temporary .torn))
  match documentSize members with
  | none => do
      step (.temporaryDropped id) (change id (unlink temporary))
      raise (.value "unicode" "surrogates not allowed")
  | some size => do
      step (.temporaryWritten id) (change id (put temporary (.document members size)))
      step replaced (change id (replace temporary (text file) (.document members size)))

def makeJobDir : List JobId → Op (History JobsDir JobPoint) Exc Text
  | [] => raise (.control ⟨"job_id_generation_failed", "Unable to allocate a unique job ID", 4⟩)
  | id :: rest => do
      let taken ← look fun jobs => .ok (entryOf jobs id.val).isSome
      if taken then makeJobDir rest
      else do
        step (.jobDirMade id.val) (Option.map fun entries => entries ++ [(id.val, .directory [])])
        return id.val

def create (new : NewJob) : Op (History JobsDir JobPoint) Exc JobRecord := do
  let (record, machineUuid) ← lift (jobRequest rt new)
  let present ← look fun jobs => .ok jobs.isSome
  if present then pure () else step .jobsDirMade fun _ => some []
  let id ← makeJobDir (new.ids.take 20)
  atomicWriteJson id "request.json" new.pid record (.requestReplaced id)
  atomicWriteJson id "status.json" new.pid (jobStatus id machineUuid new.now) (.statusReplaced id)
  step (.logMade id) (change id (put "ansible.log" .data))
  look fun jobs => get rt jobs id

/-- The arguments of `cleanup`, its clock and its process. -/
structure Cleanup where
  apply : Bool
  now : Instant
  retentionDays : Int
  archiveAfterDays : Int
  pid : Text

def invalidPolicy (message : String) : Exc :=
  .control ⟨"invalid_job_retention_policy", message, 4⟩

def validatePolicy (c : Cleanup) : Except Exc Unit := do
  raiseWhen (c.retentionDays < 1) (invalidPolicy "Job retention period must be positive")
  raiseWhen (c.archiveAfterDays < 1) (invalidPolicy "Log archive period must be positive")
  raiseWhen (c.retentionDays ≤ c.archiveAfterDays)
    (invalidPolicy "Log archive period must be shorter than job retention period")

/-- `_terminal_timestamp`: the first of the fields that holds a time with an offset. -/
def terminalTimestamp (status : Members) : List String → Except Exc Instant
  | [] => .error (.control ⟨"job_cleanup_invalid_timestamp",
      "Terminal job has no valid retention timestamp", 4⟩)
  | field :: rest =>
    match fromisoformat (Text.strip (rt.strOr (status.field field))) with
    | none => terminalTimestamp status rest
    | some d =>
      match d.offset with
      | none => terminalTimestamp status rest
      | some offset => d.astimezone offset

def retentionFields : List String := ["finished_at", "updated_at", "created_at"]

inductive JobAction where
  | archiveLog
  | deleteJob
deriving DecidableEq

/-- An entry of the report: what is done with a job, or why nothing is. -/
inductive Verdict where
  | act (jobId state : Text) (action : JobAction) (ageDays : Int)
  | skip (jobId state : Text) (reason : String)
deriving DecidableEq

namespace Verdict

def jobId : Verdict → Text
  | .act jobId _ _ _ => jobId
  | .skip jobId _ _ => jobId

def isAction : Verdict → Bool
  | .act _ _ _ _ => true
  | .skip _ _ _ => false

end Verdict

def classify (c : Cleanup) (job : JobRecord) (files : JobFiles) : Except Exc Verdict :=
  if Members.field job.status "kind" = .str "setup" then
    .ok (.skip job.jobId job.state "setup_evidence_retained")
  else if job.state = "queued" ∨ job.state = "running" then
    .ok (.skip job.jobId job.state "active_job")
  else if job.state ≠ "successful" ∧ job.state ≠ "failed" then
    .ok (.skip job.jobId job.state "unsupported_state")
  else do
    let terminalAt ← terminalTimestamp rt job.status retentionFields
    let ageDays : Int := max 0 (((c.now.val : Int) - terminalAt.val) / microsPerDay)
    if c.retentionDays ≤ ageDays then return .act job.jobId job.state .deleteJob ageDays
    else if c.archiveAfterDays ≤ ageDays ∧ (files.lookup (text "ansible.log")).isSome ∧
        (files.lookup (text "ansible.log.gz")).isNone then
      return .act job.jobId job.state .archiveLog ageDays
    else return .skip job.jobId job.state "retained"

def archiveTemporary (pid : Text) : Text := text ".ansible.log.gz." ++ pid ++ ".tmp"

def archiveLog (id pid : Text) : Op (History JobsDir JobPoint) Exc Unit := do
  let temporary := archiveTemporary pid
  let taken ← look fun jobs => .ok ((filesOf jobs id).lookup temporary).isSome
  if taken then do
    -- the `finally` block removes the file of another process, too
    step (.archiveDropped id) (change id (unlink temporary))
    raise (.control ⟨"job_log_archive_failed", "Unable to archive provision job log", 6⟩)
  else do
    step (.archiveOpened id) (change id (put temporary .torn))
    step (.archiveWritten id) (change id (put temporary .data))
    step (.archiveReplaced id) (change id (replace temporary "ansible.log.gz" .data))
    step (.logRemoved id) (change id (unlink "ansible.log"))

def removeFiles (id : Text) : JobFiles → Op (History JobsDir JobPoint) Exc Unit
  | [] => pure ()
  | (name, _) :: rest => do
      step (.fileRemoved id (rest.map Prod.fst)) (change id (unlink name))
      removeFiles id rest

def deleteJob (job : JobRecord) : Op (History JobsDir JobPoint) Exc Unit := do
  raiseIf (isJobId job.jobId = false ∨ job.directory ≠ job.jobId)
    (.control ⟨"job_cleanup_delete_unsafe", "Provision job path is outside the jobs root", 4⟩)
  let files ← look fun jobs => .ok (filesOf jobs job.directory)
  removeFiles job.directory files
  step (.jobRemoved job.directory)
    (Option.map fun entries => entries.filter fun entry => entry.1 ≠ job.directory)

/-- What the verdict calls for, under `apply`. -/
def carryOut (c : Cleanup) (job : JobRecord) : Verdict → Op (History JobsDir JobPoint) Exc Unit
  | .act _ _ .archiveLog _ => if c.apply then archiveLog job.directory c.pid else pure ()
  | .act _ _ .deleteJob _ => if c.apply then deleteJob job else pure ()
  | .skip _ _ _ => pure ()

def cleanupJob (c : Cleanup) (job : JobRecord) : Op (History JobsDir JobPoint) Exc Verdict := do
  let verdict ← look fun jobs => classify rt c job (filesOf jobs job.directory)
  carryOut c job verdict
  return verdict

def unsafeJobEntries (jobs : JobsDir) : List Verdict :=
  let names := (jobs.getD []).filterMap fun entry =>
    match entry with
    | (name, .other) => if isJobId name then some name else none
    | (_, .directory _) => none
  (names.insertionSort fun a b => Text.le a b = true).map fun name =>
    .skip name [] "unsafe_job_entry"

structure Report where
  dryRun : Bool
  retentionDays : Int
  archiveAfterDays : Int
  checked : Nat
  /-- The actions, each with the flag whether it was applied. -/
  actions : List (Verdict × Bool)
  skipped : List Verdict

def cleanup (c : Cleanup) : Op (History JobsDir JobPoint) Exc Report := do
  lift (validatePolicy c)
  let unsafeEntries ← look fun jobs => .ok (unsafeJobEntries jobs)
  let jobs ← look (list rt)
  let verdicts ← forEach (cleanupJob rt c) jobs
  return { dryRun := !c.apply
           retentionDays := c.retentionDays
           archiveAfterDays := c.archiveAfterDays
           checked := jobs.length
           actions := (verdicts.filter (·.isAction)).map fun v => (v, c.apply)
           skipped := unsafeEntries ++ verdicts.filter (!·.isAction) }

def Report.jobIds (r : Report) : List Text :=
  r.actions.map (fun a => a.1.jobId) ++ r.skipped.map (·.jobId)

end Jobs

end WebOvpn
