/-
Provision jobs: the directories of the job registry, what a stored job must
look like, and the functions that read the whole registry.
-/
import WebOvpn.Install.Common
import WebOvpn.Lib.CalendarRoundTrip
import WebOvpn.Lib.JsonParse
import WebOvpn.Lib.JsonText

namespace WebOvpn

/-- What the registry takes from elsewhere and nothing here depends on: how
Python prints and compares numbers and containers and maps letters to lower
case, which records the Setup repository accepts, and which jobs its reviews
have closed. -/
structure Runtime where
  repr : JVal → Text
  lower : Text → Text
  floatEquals : List Char → Int → Bool
  validateSetupRecord : Members → Members → Text → Except Exc Unit
  reviewedJobs : (Text → Option (Members × Members)) → Except Exc (List Text)

namespace Runtime

variable (rt : Runtime)

def equalsInt (value : JVal) (n : Int) : Bool :=
  match value with
  | .int m => m == n
  | .bool b => (if b then 1 else 0) == n
  | .float token => rt.floatEquals token n
  | _ => false

def isTrue (value : JVal) : Bool :=
  match value with
  | .null => false
  | .bool b => b
  | .int n => n != 0
  | .float token => !rt.floatEquals token 0
  | .str s => !s.isEmpty
  | .arr items => !items.isEmpty
  | .obj members => !members.isEmpty

def str (value : JVal) : Text :=
  match value with
  | .str s => s
  | value => rt.repr value

def strOr (value : JVal) : Text := if rt.isTrue value then rt.str value else []

end Runtime

def newline (level : Nat) : Text := text "\n" ++ List.replicate (2 * level) (CodePoint.ofChar ' ')

mutual

/-- `json.dumps(value, ensure_ascii=False, indent=2)`. -/
def pretty (level : Nat) : JVal → Text
  | .str s => plainString s
  | .arr [] => "[]"
  | .arr (v :: rest) =>
    text "[" ++ newline (level + 1) ++ pretty (level + 1) v ++ prettyItems (level + 1) rest ++
      newline level ++ "]"
  | .obj [] => [CodePoint.ofChar '{', CodePoint.ofChar '}']
  | .obj ((k, v) :: rest) =>
    [CodePoint.ofChar '{'] ++ newline (level + 1) ++ plainString k ++ text ": " ++
      pretty (level + 1) v ++ prettyMembers (level + 1) rest ++ newline level ++
      [CodePoint.ofChar '}']
  | .null => "null"
  | .bool b => if b then "true" else "false"
  | .int n => (encodeInt n).map CodePoint.ofChar
  | .float token => token.map CodePoint.ofChar

def prettyItems (level : Nat) : List JVal → Text
  | [] => []
  | v :: rest => text "," ++ newline level ++ pretty level v ++ prettyItems level rest

def prettyMembers (level : Nat) : List (Text × JVal) → Text
  | [] => []
  | (k, v) :: rest =>
    text "," ++ newline level ++ plainString k ++ text ": " ++ pretty level v ++
      prettyMembers level rest

end

/-- The bytes of `.encode("utf-8")`, which refuses surrogates. -/
def utf8Size : Text → Option Nat
  | [] => some 0
  | c :: rest =>
    if c.isSurrogate then none
    else (utf8Size rest).map fun size =>
      size + if c.val < 0x80 then 1 else if c.val < 0x800 then 2
        else if c.val < 0x10000 then 3 else 4

/-- The size of the file that `atomic_write_json` writes. -/
def documentSize (members : Members) : Option Nat :=
  utf8Size (pretty 0 (.obj members) ++ "\n")

def maxStateBytes : Nat := 524288

inductive JobFile where
  | torn
  | document (members : Members) (size : Nat)
  | data

abbrev JobFiles := List (Text × JobFile)

inductive JobEntry where
  | directory (files : JobFiles)
  | other

/-- The jobs directory, which the first creation makes. -/
abbrev JobsDir := Option (List (Text × JobEntry))

structure JobRecord where
  jobId : Text
  machineUuid : Text
  state : Text
  stage : Text
  createdAt : Text
  updatedAt : Text
  directory : Text
  request : Members
  status : Members

namespace Jobs

def jobInvalid : Exc := .control ⟨"job_invalid", "Invalid job record", 4⟩

def readState (files : JobFiles) (name : String) : Except Exc Members :=
  match files.lookup (text name) with
  | none => .error jobInvalid
  | some (.document members size) =>
    if maxStateBytes < size then .error jobInvalid else .ok members
  | some _ => .error (.control ⟨"setup_state_invalid",
      "Protected setup state is missing, unsafe or invalid", 4⟩)

inductive JobStage where
  | created | launching | validating | connecting | identity | employee | loginScreen
  | verifying | recording | complete
deriving DecidableEq

namespace JobStage

def canonical : List (JobStage × String) :=
  [(.created, "created"), (.launching, "launching"), (.validating, "validating"),
    (.connecting, "connecting"), (.identity, "identity"), (.employee, "employee"),
    (.loginScreen, "login_screen"), (.verifying, "verifying"), (.recording, "recording"),
    (.complete, "complete")]

def parse (s : Text) : Option JobStage :=
  (canonical.find? fun entry => text entry.2 == s).map Prod.fst

end JobStage

def stageInvalid (message : String) : Exc :=
  .control ⟨"job_stage_history_invalid", message, 4⟩

variable (rt : Runtime)

def parseTimestamp (value : JVal) : Except Exc Instant :=
  match fromisoformat (Text.strip (rt.strOr value)) with
  | none => .error (stageInvalid "Provision job stage timestamp is invalid")
  | some d =>
    match d.offset with
    | none => .error (stageInvalid "Provision job stage timestamp has no timezone")
    | some offset => d.astimezone offset

/-- The loop of `validate_job_stage_status` over the history, with the stages
that are still to come. -/
def checkHistory (previous : Option Instant) : List (JobStage × String) → List JVal → Except Exc Unit
  | _, [] => .ok ()
  | expected, .obj item :: rest => do
      raiseWhen (item.length ≠ 2 ∨ (memberOf item "stage").isNone ∨ (memberOf item "entered_at").isNone)
        (stageInvalid "Provision job stage history item is invalid")
      match expected with
      | [] => .error (stageInvalid "Provision job stage history is not contiguous")
      | (_, name) :: later => do
          raiseWhen (Text.strip (rt.strOr (Members.field item "stage")) ≠ text name)
            (stageInvalid "Provision job stage history is not contiguous")
          let enteredAt ← parseTimestamp rt (Members.field item "entered_at")
          raiseWhen (previous.any (fun t => enteredAt < t) = true)
            (stageInvalid "Provision job stage timestamps move backwards")
          checkHistory (some enteredAt) later rest
  | _, _ :: _ => .error (stageInvalid "Provision job stage history item is invalid")

def validateJobStageStatus (status : Members) : Except Exc Unit := do
  let state := Text.strip (rt.strOr (status.field "state"))
  let stageText := Text.strip (rt.strOr (status.field "stage"))
  match JobStage.parse stageText, status.field "stage_history" with
  | none, _ => .error (stageInvalid "Provision job stage is unknown")
  | some stage, .arr history => do
      raiseWhen (history = [])
        (stageInvalid "Provision job stage history is missing or empty")
      checkHistory rt none JobStage.canonical history
      -- the history is contiguous, so its length says what its last stage is
      raiseWhen ((JobStage.canonical.map Prod.fst)[history.length - 1]? ≠ some stage)
        (stageInvalid "Provision job stage does not match stage history")
      raiseWhen (state = "queued" ∧ stage ≠ .created ∧ stage ≠ .launching)
        (stageInvalid "Queued job has an invalid stage")
      raiseWhen (state = "running" ∧ (stage = .created ∨ stage = .launching ∨ stage = .complete))
        (stageInvalid "Running job has an invalid stage")
      raiseWhen (state = "successful" ∧ stage ≠ .complete)
        (stageInvalid "Successful job is not complete")
      raiseWhen (state = "failed" ∧ stage = .complete)
        (stageInvalid "Failed job cannot be complete")
      raiseWhen (state ∉ [text "queued", text "running", text "successful", text "failed"])
        (stageInvalid "Provision job state is unknown")
  | some _, _ => .error (stageInvalid "Provision job stage history is missing or empty")

def isSetupPayload (payload : Members) : Bool :=
  rt.equalsInt (payload.field "schema_version") 2 ||
    payload.field "kind" == .str "setup"

/-- The value of `a or b or c` printed. -/
def firstTrue : List JVal → Text
  | [] => []
  | v :: rest => if rt.isTrue v then rt.str v else firstTrue rest

def loadFromDir (name : Text) (files : JobFiles) : Except Exc JobRecord := do
  let request ← readState files "request.json"
  let status ← readState files "status.json"
  if isSetupPayload rt request || isSetupPayload rt status then
    rt.validateSetupRecord request status name
  else validateJobStageStatus rt status
  return { jobId := firstTrue rt [status.field "job_id", .str name]
           machineUuid := firstTrue rt [status.field "machine_uuid",
             request.field "machine_uuid"]
           state := rt.strOr (status.field "state")
           stage := rt.strOr (status.field "stage")
           createdAt := rt.strOr (status.field "created_at")
           updatedAt := rt.strOr (status.field "updated_at")
           directory := name
           request, status }

def isJobName (name : Text) : Bool := (text "job-").isPrefixOf name

def candidates (entries : List (Text × JobEntry)) : List (Text × JobFiles) :=
  entries.filterMap fun entry =>
    match entry with
    | (name, .directory files) => if isJobName name then some (name, files) else none
    | (_, .other) => none

/-- The reverse order of `(created_at, job_id)`. -/
def newerFirst (a b : JobRecord) : Bool :=
  if a.createdAt = b.createdAt then Text.le b.jobId a.jobId else Text.le b.createdAt a.createdAt

def list (jobs : JobsDir) : Except Exc (List JobRecord) :=
  match jobs with
  | none => .ok []
  | some entries => do
      let sorted := (candidates entries).insertionSort fun a b => Text.le a.1 b.1 = true
      let records ← sorted.mapM fun entry => loadFromDir rt entry.1 entry.2
      return records.insertionSort fun a b => newerFirst a b = true

/-- `^job-\d{8}T\d{6}Z-[0-9a-f]{8}$`. -/
def isJobId (s : Text) : Bool :=
  Text.fullmatch (Text.literal "job-" ++ List.replicate 8 CodePoint.isDecimal ++
    Text.literal "T" ++ List.replicate 6 CodePoint.isDecimal ++ Text.literal "Z-" ++
    List.replicate 8 CodePoint.isLowerHex) s

theorem isJobId_sample : isJobId "job-20250301T093000Z-0a1b2c3d" = true := by decide

def entryOf (jobs : JobsDir) (name : Text) : Option JobEntry :=
  jobs.bind fun entries => entries.lookup name

def get (jobs : JobsDir) (id : Text) : Except Exc JobRecord :=
  let notFound : Exc := .control ⟨"job_not_found", "Job not found", 3⟩
  if isJobId (Text.strip id) then
    match entryOf jobs (Text.strip id) with
    | some (.directory files) => loadFromDir rt (Text.strip id) files
    | _ => .error notFound
  else .error notFound

def setupRecord (jobs : JobsDir) (id : Text) : Option (Members × Members) :=
  match get rt jobs id with
  | .ok job =>
    if Members.field job.status "kind" = .str "setup" then some (job.request, job.status)
    else none
  | .error _ => none

def activeSetupStates : List String :=
  ["queued", "preflight", "running", "verifying", "waiting_reboot", "waiting_first_login",
    "unknown_requires_review"]

/-- `is_active_job`, with the registry that its review lookup reads. -/
def isActiveJob (jobs : JobsDir) (job : JobRecord) : Except Exc Bool :=
  if Members.field job.status "kind" = .str "setup" then
    if job.state = "unknown_requires_review" then do
      let reviewed ← rt.reviewedJobs (setupRecord rt jobs)
      return !reviewed.contains job.jobId
    else .ok (activeSetupStates.any fun state => text state == job.state)
  else .ok (job.state == "queued" || job.state == "running")

def firstActive (jobs : JobsDir) (machineUuid : Text) : List JobRecord → Except Exc (Option JobRecord)
  | [] => .ok none
  | job :: rest =>
    if rt.lower job.machineUuid = machineUuid then do
      let active ← isActiveJob rt jobs job
      if active then .ok (some job) else firstActive jobs machineUuid rest
    else firstActive jobs machineUuid rest

def activeForMachine (jobs : JobsDir) (machineUuid : Text) : Except Exc (Option JobRecord) := do
  let records ← list rt jobs
  firstActive rt jobs (rt.lower (Text.strip machineUuid)) records

end Jobs

end WebOvpn
