/-
The retirement of the old restriction of VNC: the snapshot that was approved is
observed again and backed up, the service and the table are removed, and a marker
says so.  Every command and every access to a file may fail.
-/
import WebOvpn.Lib.Turns
import WebOvpn.Vnc.Policy

namespace WebOvpn.Vnc

open Op

def privateFile (data : Bytes) : FileInfo := ⟨true, true, 0o600, 1, data⟩

abbrev Backup := List (Text × FileInfo)

inductive StateDir where
  | absent
  | symlink
  | unfit
  | dir (marker : PathState) (backups : List Backup)
  deriving DecidableEq

/-- The state of a workstation: what the commands print, and the files. -/
structure Machine where
  productUuid : Text
  bootId : Text
  hostname : Text
  ruleset : JVal
  serviceShow : Text
  listeners : Text
  unitFile : PathState
  helperFile : PathState
  lock : PathState
  stateDir : StateDir

/-- `prepared.json`. -/
def Machine.marker (m : Machine) : PathState :=
  match m.stateDir with
  | .dir marker _ => marker
  | _ => .absent

def Machine.backups (m : Machine) : List Backup :=
  match m.stateDir with
  | .dir _ backups => backups
  | _ => []

inductive Command where
  | disable
  | delete
  deriving DecidableEq

inductive Outcome where
  | success
  | nonzero
  | raised
  deriving DecidableEq

/-- How the next command ends, and what it leaves of the rules and the service
when it is one that changes them. -/
structure Answer where
  outcome : Outcome
  ruleset : JVal
  serviceShow : Text

structure Issue where
  command : Command
  machine : Machine

/-- The machine, the commands that were issued and the flag of `apply_policy`. -/
structure Progress where
  machine : Machine
  issued : List Issue
  mutated : Bool

structure State where
  now : Progress
  answer : Answer

def choose (s : State) (answer : Answer) : State := { s with answer := answer }

abbrev Step := Op (Scene State Answer) Exc

def pass : Step Unit := own choose .caught fun s => (.ok (), s)

def read {α : Type} (fault : Exc) (f : Machine → Except Exc α) : Step α :=
  own choose fault fun s => (f s.now.machine, s)

def setMachine (s : State) (m : Machine) : State := { s with now := { s.now with machine := m } }

def write (f : Machine → Except Exc Machine) : Step Unit :=
  own choose .caught fun s =>
    match f s.now.machine with
    | .ok m => (.ok (), setMachine s m)
    | .error e => (.error e, s)

/-- Run a command that prints something; the value says whether its code was not
zero. -/
def observe {α : Type} (f : Machine → α) : Step (Bool × α) :=
  own choose .caught fun s =>
    match s.answer.outcome with
    | .success => (.ok (false, f s.now.machine), s)
    | .nonzero => (.ok (true, f s.now.machine), s)
    | .raised => (.error .caught, s)

def afterIssue (command : Command) (s : State) : State :=
  { s with
    now :=
      { s.now with
        machine := { s.now.machine with ruleset := s.answer.ruleset, serviceShow := s.answer.serviceShow }
        issued := s.now.issued ++ [⟨command, s.now.machine⟩] } }

def issue (command : Command) : Step Bool :=
  own choose .caught fun s =>
    match s.answer.outcome with
    | .success => (.ok false, afterIssue command s)
    | .nonzero => (.ok true, afterIssue command s)
    | .raised => (.error .caught, afterIssue command s)

def setMutated (value : Bool) : Step Unit :=
  assign fun s => { s with now := { s.now with mutated := value } }

variable (rt : Runtime)

/-- The dictionary that `apply_policy` is called with. -/
structure Request where
  machineUuid : JVal
  hostname : JVal
  sourceSha256 : JVal
  expectedSnapshotSha256 : JVal
  listenerAuthenticated : Bool
  context : JVal

/-- `set(value) == names`. -/
def hasExactly (members : List (Text × JVal)) (names : List String) : Bool :=
  members.length = names.length && names.all fun name => (memberOf members name).isSome

/-- `job-[0-9]{8}T[0-9]{6}Z-[0-9a-f]{8}`. -/
def jobPattern : List (CodePoint → Bool) :=
  Text.literal "job-" ++ List.replicate 8 CodePoint.isDigit ++ Text.literal "T" ++
    List.replicate 6 CodePoint.isDigit ++
    Text.literal "Z-" ++ List.replicate 8 CodePoint.isLowerHex

def allHold : List (Except Exc Bool) → Except Exc Bool
  | [] => .ok true
  | test :: rest => do
      if ← test then allHold rest else return false

def contextIsValid (request context : List (Text × JVal)) : Except Exc Bool :=
  if hasExactly context ["schema_version", "kind", "phase", "job_id", "claim_sha256", "plan_sha256",
      "workflow_policy_sha256", "machine_uuid", "source_sha256", "policy_sha256"] ∧
      get context "schema_version" = .int 1 ∧ get context "kind" = .str "complete_workstation" ∧
      get context "phase" = .str "system" ∧
      pyEq rt (get context "machine_uuid") (get request "machine_uuid") ∧
      pyEq rt (get context "source_sha256") (get request "source_sha256") ∧
      get context "policy_sha256" = .str (policySha256 rt) then
    allHold [matchesText (Text.fullmatch jobPattern) (get context "job_id"),
      matchesText Text.isSha256 (get context "claim_sha256"),
        matchesText Text.isSha256 (get context "plan_sha256"),
      matchesText Text.isSha256 (get context "workflow_policy_sha256")]
  else .ok false

/-- The checks of `apply_policy` on its request. -/
def requestOf (value : JVal) : Except Exc Request :=
  match value with
  | .obj request =>
    if hasExactly request ["machine_uuid", "hostname", "source_sha256", "expected_snapshot_sha256",
        "listener_authenticated", "context"] then
      match get request "context" with
      | .obj context => do
          if ← contextIsValid rt request context then
            match get request "listener_authenticated" with
            | .bool authenticated =>
              return ⟨get request "machine_uuid", get request "hostname", get request "source_sha256",
                get request "expected_snapshot_sha256", authenticated, .obj context⟩
            | _ => throw invalid
          else throw invalid
      | _ => .error invalid
    else .error invalid
  | _ => .error invalid

/-- The arguments of `_collect` once they are checked. -/
structure Target where
  machineUuid : Text
  hostname : Text
  sourceSha256 : Text
  deriving DecidableEq

/-- `re.fullmatch('[a-z][a-z0-9-]{0,62}', hostname)`. -/
def isHostname : Text → Bool
  | [] => false
  | c :: rest => c.isLower && rest.length ≤ 62 && rest.all fun d => d.isLower || d.isDigit || d = '-'

/-- The checks of `_collect` on its arguments. -/
def targetOf (machineUuid hostname sourceSha256 : JVal) : Except Exc Target :=
  match machineUuid, hostname, sourceSha256 with
  | .str uuid, .str name, .str source =>
    if Text.fullmatch uuidPattern uuid ∧ isHostname name ∧ Text.isSha256 source then .ok ⟨uuid, name, source⟩
    else .error invalid
  | _, _, _ => .error invalid

/-- `safe` of `_collect`, without the constants and its own digest. -/
structure Safe where
  machineUuid : Text
  hostname : Text
  bootId : Text
  sourceSha256 : Text
  legacy : Legacy
  listenerPresent : Bool
  externalPolicySha256 : Text
  markerSha256 : Option Text
  ready : Bool
  deriving DecidableEq

def Legacy.json (legacy : Legacy) : JVal :=
  .obj [("owned_legacy", .bool legacy.ownedLegacy), ("legacy_table_present", .bool legacy.legacyTablePresent),
    ("retirement_required", .bool legacy.retirementRequired),
    ("service_disabled", .bool legacy.serviceDisabled),
    ("external_policy_clear", .bool legacy.externalPolicyClear)]

def Safe.members (safe : Safe) : List (Text × JVal) :=
  [("schema_version", .int 1), ("machine_uuid", .str safe.machineUuid), ("hostname", .str safe.hostname),
    ("boot_id", .str safe.bootId), ("source_sha256", .str safe.sourceSha256),
    ("policy_sha256", .str (policySha256 rt)), ("legacy", safe.legacy.json),
    ("listener_present", .bool safe.listenerPresent),
    ("external_policy_sha256", .str safe.externalPolicySha256),
    ("marker_sha256", safe.markerSha256.elim .null .str), ("ready", .bool safe.ready)]

def Safe.snapshotSha256 (safe : Safe) : Text := digest rt (.obj (safe.members rt))

/-- `safe` as `_collect` returns it. -/
def Safe.json (safe : Safe) : JVal :=
  .obj (safe.members rt ++ [(text "snapshot_sha256", .str (safe.snapshotSha256 rt))])

def Service.json (service : Service) : JVal :=
  .obj [("load_state", .str service.loadState), ("active_state", .str service.activeState),
    ("sub_state", .str service.subState), ("unit_file_state", .str service.unitFileState),
    ("main_pid", .int service.mainPid), ("drop_ins", .arr (service.dropIns.map .str)),
    ("fragment_path", .str service.fragmentPath)]

def checkMachine (target : Target) (productUuid bootId : Text) (failed : Bool) (hostname : Text) :
    Except Exc Text :=
  let boot := Text.strip bootId
  if failed ∨ Text.lower (Text.strip productUuid) ≠ target.machineUuid ∨ Text.strip hostname ≠ target.hostname ∨
      Text.fullmatch uuidPattern boot = false then
    .error (.policy .machineUnverified)
  else .ok boot

def readMarker (machineUuid : Text) (m : Machine) : Except Exc (Option Marker) :=
  match m.stateDir with
  | .absent => .ok none
  | .symlink => .error invalid
  | .unfit => .error invalid
  | .dir marker _ =>
    match marker with
    | .absent => .ok none
    | .symlink => .error invalid
    | .file info => do
        let data ← privateData info 65536
        let found ← markerOfData rt machineUuid data
        return some found

def isReady (target : Target) (legacy : Legacy) (marker : Option Marker) : Bool :=
  !legacy.retirementRequired && legacy.externalPolicyClear &&
    marker.any fun marker => marker.sourceSha256 = .str target.sourceSha256

/-- The dictionary that `_collect` builds. -/
def safeOf (target : Target) (boot : Text) (legacy : Legacy) (rows : List (List Text))
    (others : List JVal)
    (marker : Option Marker) : Safe :=
  ⟨target.machineUuid, target.hostname, boot, target.sourceSha256, legacy, rows ≠ [], digest rt (.arr others),
    marker.map Marker.digest, isReady target legacy marker⟩

structure Collected where
  safe : Safe
  document : JVal
  service : Service

def collect (request : Request) : Step Collected := do
  let target ← lift (targetOf request.machineUuid request.hostname request.sourceSha256)
  let productUuid ← read .caught fun m => .ok m.productUuid
  let bootId ← read .caught fun m => .ok m.bootId
  let hostname ← observe Machine.hostname
  let boot ← lift (checkMachine target productUuid bootId hostname.1 hostname.2)
  let ruleset ← observe Machine.ruleset
  raiseIf (ruleset.1 = true) (.policy .observationUnverified)
  let shown ← observe Machine.serviceShow
  let service ← lift (serviceOf shown.1 shown.2)
  let legacy ← read invalid fun m => inspectLegacy rt m.unitFile m.helperFile ruleset.2 service
  let listeners ← observe Machine.listeners
  let rows ← lift (listenerRows listeners.1 listeners.2)
  let others ← lift (othersOf rt ruleset.2)
  let marker ← read .caught (readMarker rt target.machineUuid)
  return ⟨safeOf rt target boot legacy rows others marker, ruleset.2, service⟩

def observePolicy (request : Request) : Step Safe :=
  onError (do
    let collected ← collect rt request
    return collected.safe)
    fun
    | .policy code => raise (.policy code)
    | .caught => raise (.policy .observationUnverified)

def createStateDir (m : Machine) : Except Exc Machine :=
  match m.stateDir with
  | .absent => .ok { m with stateDir := .dir .absent [] }
  | .symlink => .error invalid
  | .unfit => .error invalid
  | .dir _ _ => .ok m

def Machine.changeBackups (m : Machine) (f : List Backup → List Backup) : Except Exc Machine :=
  match m.stateDir with
  | .dir marker backups => .ok { m with stateDir := .dir marker (f backups) }
  | _ => .error .caught

/-- `directory.mkdir(mode=0o700)`. -/
def makeBackupDir (m : Machine) : Except Exc Machine := m.changeBackups (· ++ [[]])

def openPrivate (name : Text) (m : Machine) : Except Exc Machine :=
  m.changeBackups fun backups => backups.modifyLast fun files => files ++ [(name, privateFile [])]

def fillPrivate (name : Text) (data : Bytes) (m : Machine) : Except Exc Machine :=
  m.changeBackups fun backups => backups.modifyLast fun files => files.dropLast ++ [(name, privateFile data)]

def writePrivate (file : Text × Bytes) : Step Unit := do
  write (openPrivate file.1)
  write (fillPrivate file.1 file.2)

/-- `_private` of a file of the backup. -/
def readPrivate (name : Text) (limit : Nat) (m : Machine) : Except Exc Bytes :=
  match (m.backups.getLast?.getD []).lookup name with
  | none => .error .caught
  | some info => privateData info limit

def readBytes : PathState → Except Exc Bytes
  | .absent => .error .caught
  | .symlink => .error invalid
  | .file info => .ok info.data

def legacyContents (safe : Safe) : Step (List (Text × Bytes)) :=
  if safe.legacy.ownedLegacy then do
    let unit ← read .caught fun m => readBytes m.unitFile
    let helper ← read .caught fun m => readBytes m.helperFile
    return [("unit.service", unit), ("helper.sh", helper)]
  else return []

def readMarkerData (m : Machine) : Except Exc Bytes :=
  match m.marker with
  | .absent => .error .caught
  | .symlink => .error invalid
  | .file info => privateData info 65536

def markerContents (safe : Safe) : Step (List (Text × Bytes)) :=
  match safe.markerSha256 with
  | none => return []
  | some expected => do
      let data ← read .caught readMarkerData
      raiseIf (rt.sha256 data ≠ expected) (.policy .snapshotChanged)
      return [("marker-before.json", data)]

def baseContents (collected : Collected) : List (Text × Bytes) :=
  [(text "snapshot.json", jsonBytes (collected.safe.json rt)),
    (text "rules-before.json", jsonBytes collected.document),
    ("service-before.json", jsonBytes collected.service.json)]

def manifestOf (safe : Safe) (context : JVal) (contents : List (Text × Bytes)) : JVal :=
  .obj [("schema_version", .int 1), ("machine_uuid", .str safe.machineUuid), ("context", context),
    ("snapshot_sha256", .str (safe.snapshotSha256 rt)),
    ("files", .obj (contents.map fun file => (file.1, .str (rt.sha256 file.2))))]

def verifyFile (file : Text × Bytes) : Step Unit := do
  let data ← read .caught (readPrivate file.1 2097152)
  raiseIf (rt.sha256 data ≠ rt.sha256 file.2) (.policy .backupUnverified)

def writeBackup (manifest : Bytes) (contents : List (Text × Bytes)) : Step Unit := do
  let _ ← forEach writePrivate contents
  writePrivate ("manifest.json", manifest)
  let written ← read .caught (readPrivate "manifest.json" 65536)
  raiseIf (written ≠ manifest) (.policy .backupUnverified)
  let _ ← forEach (verifyFile rt) contents
  pass

def backup (collected : Collected) (context : JVal) : Step Unit := do
  write createStateDir
  write makeBackupDir
  let legacyFiles ← legacyContents collected.safe
  let markerFiles ← markerContents rt collected.safe
  writeBackup rt
    (jsonBytes (manifestOf rt collected.safe context (baseContents rt collected ++ legacyFiles ++ markerFiles)))
    (baseContents rt collected ++ legacyFiles ++ markerFiles)

def markerValue (before : Safe) : JVal :=
  .obj [("schema_version", .int 1), ("kind", .str "complete_workstation_direct_vnc"),
    ("machine_uuid", .str before.machineUuid), ("policy_sha256", .str (policySha256 rt)),
    ("source_sha256", .str before.sourceSha256), ("applied_boot_id", .str before.bootId)]

/-- `os.replace(temporary, directory/'prepared.json')`. -/
def replaceMarker (data : Bytes) (m : Machine) : Except Exc Machine :=
  match m.stateDir with
  | .dir _ backups => .ok { m with stateDir := .dir (.file (privateFile data)) backups }
  | _ => .error .caught

/-- `_save_marker`; the temporary file is created, written and closed in the two
steps before it replaces the marker. -/
def saveMarker (before : Safe) : Step Unit := do
  let current ← read .caught (readMarker rt before.machineUuid)
  raiseIf (current.map Marker.digest ≠ before.markerSha256) (.policy .outcomeUnverified)
  write createStateDir
  pass
  pass
  write (replaceMarker (jsonBytes (markerValue rt before)))
  pass

def takeLock (m : Machine) : Except Exc Machine :=
  match m.lock with
  | .absent => .ok { m with lock := .file (privateFile []) }
  | .symlink => .error invalid
  | .file info =>
    if info.regular = false ∨ info.owned = false ∨ info.mode ≠ 0o600 ∨
      info.links ≠ 1 then .error invalid else .ok m

/-- The backup and the second observation, when there is something to keep. -/
def secure (request : Request) (collected : Collected) : Step Unit :=
  if collected.safe.legacy.retirementRequired ∨ collected.safe.markerSha256.isSome then do
    backup rt collected request.context
    let again ← collect rt request
    raiseIf (again.safe ≠ collected.safe) (.policy .snapshotChanged)
  else return ()

def issueMarked (command : Command) : Step Unit := do
  setMutated true
  let failed ← issue command
  raiseIf (failed = true) (.policy .outcomeUnverified)

def issueIf (condition : Bool) (command : Command) : Step Unit :=
  if condition then issueMarked command else return ()

def retire (safe : Safe) : Step Unit :=
  if safe.legacy.retirementRequired then do
    issueIf (!safe.legacy.serviceDisabled) .disable
    issueIf safe.legacy.legacyTablePresent .delete
  else return ()

/-- What comes after the commands: the check of what they did, the marker, and
the last observation. -/
def conclude (request : Request) (safe : Safe) : Step Bool := do
  let after ← collect rt request
  raiseIf (after.safe.bootId ≠ safe.bootId ∨ after.safe.legacy.retirementRequired = true ∨
    after.safe.legacy.externalPolicyClear = false ∨ after.safe.externalPolicySha256 ≠ safe.externalPolicySha256)
    (.policy .outcomeUnverified)
  setMutated true
  saveMarker rt safe
  let final ← observePolicy rt request
  raiseIf (final.ready = false ∨ final.bootId ≠ safe.bootId ∨
    final.externalPolicySha256 ≠ safe.externalPolicySha256)
    (.policy .outcomeUnverified)
  return true

def checkSnapshot (request : Request) (safe : Safe) : Step Unit := do
  raiseIf (request.expectedSnapshotSha256 ≠ .str (safe.snapshotSha256 rt)) (.policy .snapshotChanged)
  raiseIf (safe.legacy.externalPolicyClear = false) (.policy .externalBlocker)

/-- The work on a snapshot that is approved. -/
def proceed (request : Request) (collected : Collected) : Step Bool :=
  if collected.safe.ready then return false
  else do
    raiseIf (collected.safe.legacy.retirementRequired = true ∧ collected.safe.listenerPresent = true ∧
      request.listenerAuthenticated = false) (.policy .listenerAuthenticationUnverified)
    secure rt request collected
    retire collected.safe
    conclude rt request collected.safe

def applyBody (value : JVal) : Step Bool := do
  let request ← lift (requestOf rt value)
  write takeLock
  pass
  let collected ← collect rt request
  checkSnapshot rt request collected.safe
  proceed rt request collected

/-- The handlers of `apply_policy`. -/
def mapError (mutated : Bool) : Exc → PolicyCode
  | .policy code => if mutated then .outcomeUnverified else code
  | .caught => if mutated then .outcomeUnverified else .observationUnverified

/-- `apply_policy`; the result is `changed` of an answer that is ready. -/
def applyPolicy (value : JVal) : Step Bool := do
  setMutated false
  onError (applyBody rt value) fun e => do
    let mutated ← view fun s => .ok s.now.mutated
    raise (.policy (mapError mutated e))

def call (value : JVal) (m : Machine) (answer : Answer) (turns : List (Turn Answer)) :
    Except Exc Bool × Scene State Answer :=
  exec (applyPolicy rt value) ⟨⟨⟨m, [], false⟩, answer⟩, turns⟩

end WebOvpn.Vnc
