/-
Collections of switch snapshots: each call adds a run, collects outside of any
transaction, and then replaces what is known of its source in one transaction.
-/
import WebOvpn.Lib.Calendar
import WebOvpn.Lib.Run
import WebOvpn.Lib.Sorted

namespace WebOvpn.SwitchStore

inductive SnmpOutcome where
  | successWithRows
  | successEmpty
  | unsupportedNoSuchObject
  | timeout
  | authOrViewFailure
  | parseError
  deriving DecidableEq

/-- `_REPLACING_FDB_OUTCOMES`. -/
def SnmpOutcome.isReplacing : SnmpOutcome → Bool
  | .successWithRows | .successEmpty => true
  | _ => false

/-- `_OPTIONAL_HEALTHY_OUTCOMES`. -/
def SnmpOutcome.isHealthy : SnmpOutcome → Bool
  | .successWithRows | .successEmpty | .unsupportedNoSuchObject => true
  | _ => false

structure SwitchFdbEntry where
  fdbId : Option Int
  vlanKey : Text
  vlanId : Option Int
  mac : Text
  portKey : Text
  bridgePort : Option Int
  ifIndex : Option Int
  physicalPort : Option Int
  portName : Text
  status : Text
  deriving DecidableEq

/-- What an address is known by: a VLAN key and a MAC. -/
abbrev FdbKey := Text × Text

def SwitchFdbEntry.key (entry : SwitchFdbEntry) : FdbKey := (entry.vlanKey, entry.mac)

structure CapabilityResult where
  capability : Text
  outcome : SnmpOutcome

/-- A snapshot whose fields have the types that the store asks for; `details`
is all that only the other tables are written from. -/
structure SwitchSnapshot (δ : Type) where
  profileId : Text
  sysUptimeTicks : Option Int
  portKeys : List Text
  fdb : List SwitchFdbEntry
  capabilities : List CapabilityResult
  counterPortKeys : List Text
  details : δ

def validText (value : Text) : Bool := value.strip ≠ []

def validOptionalInt (minimum maximum : Int) (value : Option Int) : Bool :=
  value.all fun n => minimum ≤ n && n ≤ maximum

def isUpperHex (c : CodePoint) : Bool := c.isDigit || (65 ≤ c.val && c.val ≤ 70)

def validMac (value : Text) : Bool :=
  let pair := [isUpperHex, isUpperHex]
  let colon := Text.literal ":"
  Text.fullmatch
    (pair ++ colon ++ pair ++ colon ++ pair ++ colon ++ pair ++ colon ++ pair ++
    colon ++ pair) value

def fdbStatuses : List Text := ["other", "invalid", "learned", "self", "mgmt"]

inductive VlanKind where
  | vid
  | fid
  deriving DecidableEq

def matchVlanKey (value : Text) : Option (VlanKind × Text) :=
  match value.drop 4 with
  | [] => none
  | first :: rest =>
    if first.isDigit && first.val ≠ 48 && rest.all CodePoint.isDigit then
      if value.take 4 = "vid:" then some (.vid, first :: rest)
      else if value.take 4 = "fid:" then some (.fid, first :: rest)
      else none
    else none

def validFdbEntry (entry : SwitchFdbEntry) : Bool :=
  validOptionalInt 1 4294967295 entry.fdbId && validMac entry.mac && validText entry.portKey &&
    validOptionalInt 1 65535 entry.bridgePort && validOptionalInt 1 2147483647 entry.ifIndex &&
    validOptionalInt 1 65535 entry.physicalPort && fdbStatuses.contains entry.status &&
    if entry.vlanKey = "legacy:unknown" then entry.fdbId = none && entry.vlanId = none
    else
      match matchVlanKey entry.vlanKey with
      | none => false
      | some (kind, digits) =>
        if 10 < digits.length then false
        else
          let value : Int := digitsValue digits
          match kind with
          | .vid => validOptionalInt 1 4094 entry.vlanId && entry.vlanId = some value
          | .fid => entry.vlanId = none && entry.fdbId = some value

/-- What becomes of the other parts of a snapshot, and of the other tables: ports,
devices, capabilities, VLANs, neighbours, spanning tree, counters and telemetry. -/
structure Details (δ ρ : Type) where
  /-- The other parts of the snapshot are valid. -/
  isValid : SwitchSnapshot δ → Bool
  /-- Writes the other tables for a source, a run and a time; `none` is an exception. -/
  save : Nat → Nat → SwitchSnapshot δ → Text → ρ → Option ρ

def SwitchSnapshot.outcome? {δ : Type} (snapshot : SwitchSnapshot δ) (capability : Text) :
    Option SnmpOutcome :=
  (snapshot.capabilities.find? fun result => result.capability = capability).map CapabilityResult.outcome

def validCounters {δ : Type} (snapshot : SwitchSnapshot δ) : Bool :=
  match snapshot.outcome? "counter_samples" with
  | none => true
  | some outcome =>
    (outcome = .successWithRows ↔ snapshot.counterPortKeys ≠ []) && decide snapshot.counterPortKeys.Nodup &&
      snapshot.counterPortKeys.all snapshot.portKeys.contains

/-- The tests of `_validate_snapshot` on the rows of the forwarding database. -/
def validFdb {δ : Type} (snapshot : SwitchSnapshot δ) (outcome : SnmpOutcome) : Bool :=
  snapshot.fdb.all validFdbEntry && decide (snapshot.fdb.map SwitchFdbEntry.key).Nodup &&
    (outcome = .successWithRows ↔ snapshot.fdb ≠ []) &&
      ((snapshot.outcome? "qbridge_fdb_rejected_rows").isNone || outcome = .successWithRows)

/-- `_validate_snapshot` finds nothing wrong; its caller does not tell the codes
apart. The result is the outcome of the `fdb` capability. -/
def validate {δ ρ : Type} (d : Details δ ρ) (snapshot : SwitchSnapshot δ) : Option SnmpOutcome :=
  if d.isValid snapshot && snapshot.portKeys.all validText && decide snapshot.portKeys.Nodup &&
      snapshot.capabilities.all (fun result => validText result.capability) &&
      decide (snapshot.capabilities.map CapabilityResult.capability).Nodup && validCounters snapshot then
    match snapshot.outcome? "fdb" with
    | none => none
    | some outcome => if validFdb snapshot outcome then some outcome else none
  else none

def optionalCapabilities : List Text :=
  ["vlan_current_egress", "vlan_current_untagged", "pvid", "stp_protocol",
    "stp_topology_changes", "stp_designated_root", "stp_root_cost", "stp_root_port",
    "lldp_remote", "lldp_remote_chassis_id_subtype", "lldp_remote_port_id_subtype",
    "lldp_remote_port_description", "lldp_remote_system_description",
    "lldp_remote_system_capabilities", "lldp_remote_enabled_capabilities",
    "lldp_remote_management_address", "qbridge_fdb_rejected_rows", "counter_samples"]

def hasFailedOptionalCapability {δ : Type} (snapshot : SwitchSnapshot δ) : Bool :=
  snapshot.capabilities.any fun result =>
    optionalCapabilities.contains result.capability && !result.outcome.isHealthy

/-- `_parse_started_at`: a text with an offset, taken to UTC; `none` is an exception. -/
def parseStartedAt (value : Text) : Option Instant :=
  let normalized := if value.getLast? = some (CodePoint.ofChar 'Z') then value.dropLast ++ "+00:00" else value
  (fromisoformat normalized).bind fun parsed =>
    parsed.offset.bind fun offset =>
      if h : 0 ≤ parsed.utcMicros offset ∧ parsed.utcMicros offset < 315537897600000000 then
        some ⟨(parsed.utcMicros offset).toNat, parsed.toNat_utcMicros_lt offset h⟩
      else none

/-- The values of `status`; `partialSuccess` is the source's word for a run with a
failed optional capability. -/
inductive RunStatus where
  | running
  | success
  | partialSuccess
  | failed
  deriving DecidableEq

inductive ErrorClass where
  | collectionError
  | invalidSnapshot
  | fdbUnavailable
  | staleSnapshot
  | persistenceError
  deriving DecidableEq

structure Counts where
  ports : Nat
  fdbCurrent : Nat
  appeared : Nat
  moved : Nat
  disappeared : Nat

/-- A row of `switch_collection_runs`, whose id is its place. -/
structure Run where
  source : Nat
  startedAt : Text
  status : RunStatus
  finishedAt : Option Text
  errorClass : Option ErrorClass
  outcomes : List (Text × SnmpOutcome)
  counts : Option Counts
  profileId : Text
  sysUptimeTicks : Option Int
  /-- Not in the table: the entries that the run made current. -/
  published : List SwitchFdbEntry

def Run.isCompleted (run : Run) : Bool := run.status = .success || run.status = .partialSuccess

structure FdbRow where
  source : Nat
  entry : SwitchFdbEntry
  firstSeenAt : Text
  lastSeenAt : Text
  collectorRunId : Nat

def FdbRow.key (row : FdbRow) : FdbKey := row.entry.key

inductive FdbEventType where
  | appeared
  | moved
  | disappeared
  deriving DecidableEq

structure FdbEvent where
  source : Nat
  fdbId : Option Int
  vlanKey : Text
  vlanId : Option Int
  mac : Text
  eventType : FdbEventType
  oldPortKey : Text
  newPortKey : Text
  observedAt : Text
  collectorRunId : Nat

def FdbEvent.key (event : FdbEvent) : FdbKey := (event.vlanKey, event.mac)

structure Database (ρ : Type) where
  runs : List Run
  fdb : List FdbRow
  events : List FdbEvent
  /-- The other tables. -/
  others : ρ

namespace Database

variable {ρ : Type}

def fdbOf (db : Database ρ) (source : Nat) : List FdbRow := db.fdb.filter fun row => row.source = source

def eventsOf (db : Database ρ) (source : Nat) : List FdbEvent :=
  db.events.filter fun event => event.source = source

end Database

def keyLe (a b : FdbKey) : Bool := if a.1 = b.1 then Text.le a.2 b.2 else Text.le a.1 b.1

def sortByKey {α : Type} (key : α → FdbKey) (items : List α) : List α :=
  items.mergeSort fun a b => keyLe (key a) (key b)

def rowAt (rows : List FdbRow) (key : FdbKey) : Option FdbRow := rows.find? fun row => row.key = key

def fdbEvent (source run : Nat) (observedAt : Text) (entry : SwitchFdbEntry) (eventType : FdbEventType)
    (oldPortKey newPortKey : Text) : FdbEvent :=
  ⟨source, entry.fdbId, entry.vlanKey, entry.vlanId, entry.mac, eventType, oldPortKey, newPortKey,
    observedAt, run⟩

def appearedEvents (source run : Nat) (observedAt : Text) (old : List FdbRow)
    (entries : List SwitchFdbEntry) :
    List FdbEvent :=
  (sortByKey SwitchFdbEntry.key entries).filterMap fun entry =>
    match rowAt old entry.key with
    | none => some (fdbEvent source run observedAt entry .appeared [] entry.portKey)
    | some _ => none

def movedEvents (source run : Nat) (observedAt : Text) (old : List FdbRow)
    (entries : List SwitchFdbEntry) :
    List FdbEvent :=
  (sortByKey SwitchFdbEntry.key entries).filterMap fun entry =>
    match rowAt old entry.key with
    | none => none
    | some row =>
      if row.entry.portKey = entry.portKey then none
      else some (fdbEvent source run observedAt entry .moved row.entry.portKey entry.portKey)

def disappearedEvents (source run : Nat) (observedAt : Text) (old : List FdbRow)
    (entries : List SwitchFdbEntry) :
    List FdbEvent :=
  (sortByKey FdbRow.key old).filterMap fun row =>
    if row.key ∈ entries.map SwitchFdbEntry.key then none
    else some (fdbEvent source run observedAt row.entry .disappeared row.entry.portKey [])

def fdbRow (source run : Nat) (observedAt : Text) (old : List FdbRow)
    (entry : SwitchFdbEntry) : FdbRow :=
  ⟨source, entry, ((rowAt old entry.key).map FdbRow.firstSeenAt).getD observedAt, observedAt, run⟩

def replaceFdb {ρ : Type} (db : Database ρ) (source run : Nat) (entries : List SwitchFdbEntry)
    (observedAt : Text) :
    Database ρ × Counts :=
  let old := db.fdbOf source
  let appeared := appearedEvents source run observedAt old entries
  let moved := movedEvents source run observedAt old entries
  let disappeared := disappearedEvents source run observedAt old entries
  ({ db with
      events := db.events ++ (appeared ++ moved ++ disappeared),
      fdb := db.fdb.filter (fun row => row.source ≠ source) ++
        (sortByKey SwitchFdbEntry.key entries).map (fdbRow source run observedAt old) },
    ⟨0, entries.length, appeared.length, moved.length, disappeared.length⟩)

structure Call where
  source : Nat
  startedAt : Text
  startedTime : Instant
  isParsed : parseStartedAt startedAt = some startedTime

structure CollectResult where
  runId : Nat
  source : Nat
  status : RunStatus
  fdbOutcome : SnmpOutcome
  counts : Counts
  errorClass : Option ErrorClass

/-- A run that cannot be closed as it should is recorded as failed. -/
structure Failure where
  errorClass : ErrorClass
  outcomes : List (Text × SnmpOutcome)

inductive Phase (δ : Type) where
  | idle
  | collecting (run : Nat) (call : Call)
  | saving (run : Nat) (call : Call) (snapshot : SwitchSnapshot δ) (fdbOutcome : SnmpOutcome)
  | failing (run : Nat) (call : Call) (failure : Failure)
  /-- The call returned, or it raised `SwitchPersistenceError`. -/
  | returned (result : Option CollectResult)

/-- What a driver answers; objects that are no snapshot, or that have fields of
other types, are `foreign`. -/
inductive Collected (δ : Type) where
  | raised
  | foreign
  | snapshot (snapshot : SwitchSnapshot δ)

/-- What happens next to a call. `isPermitted` is what the tests of the source, of its options and of the
connection say, and a transaction that `fails` is rolled back. -/
inductive Event (δ : Type) where
  | start (source : Nat) (startedAt : Text) (isPermitted fails : Bool)
  | collect (collected : Collected δ)
  | commit (fails : Bool)
  | record (fails : Bool)
  /-- The process ends. -/
  | crash

section

variable {δ ρ : Type}

def createRun (db : Database ρ) (call : Call) : Database ρ :=
  { db with runs := db.runs ++ [⟨call.source, call.startedAt, .running, none, none, [], none, [], none, []⟩] }

/-- `_finish_run` with the row after it; `none` is its `ValueError`. -/
def finishRun (db : Database ρ) (id source : Nat) (finish : Run → Run) : Option (Database ρ) :=
  match db.runs[id]? with
  | none => none
  | some run =>
    if run.source = source ∧
      run.status = .running then some { db with runs := db.runs.modify id finish } else none

/-- `_has_newer_or_equal_completed` over the rows of the other runs; `none` is an
exception, which a row that is new enough comes before. -/
def hasNewerOrEqualCompleted (startedTime : Instant) : List Run → Option Bool
  | [] => some false
  | run :: rest =>
    match parseStartedAt run.startedAt with
    | none => none
    | some time => if startedTime ≤ time then some true else hasNewerOrEqualCompleted startedTime rest

def completedOthers (runs : List Run) (source id : Nat) : List Run :=
  (runs.eraseIdx id).filter fun run => run.source = source && run.isCompleted

def Run.refuse (snapshot : SwitchSnapshot δ) (call : Call) (errorClass : ErrorClass)
    (counts : Counts) (run : Run) : Run :=
  { run with
    finishedAt := some call.startedAt, status := .failed, errorClass := some errorClass,
    outcomes := snapshot.capabilities.map fun result => (result.capability, result.outcome),
    counts := some counts, profileId := snapshot.profileId, sysUptimeTicks := snapshot.sysUptimeTicks }

def Run.complete (snapshot : SwitchSnapshot δ) (call : Call) (counts : Counts) (run : Run) : Run :=
  { run with
    finishedAt := some call.startedAt,
    status := if hasFailedOptionalCapability snapshot then .partialSuccess else .success, errorClass := none,
    outcomes := snapshot.capabilities.map fun result => (result.capability, result.outcome),
    counts := some counts, profileId := snapshot.profileId, sysUptimeTicks := snapshot.sysUptimeTicks,
    published := snapshot.fdb }

def Run.fail (call : Call) (failure : Failure) (counts : Counts) (run : Run) : Run :=
  { run with
    finishedAt := some call.startedAt, status := .failed, errorClass := some failure.errorClass,
    outcomes := failure.outcomes, counts := some counts, profileId := [], sysUptimeTicks := none }

/-- `_EMPTY_COUNTS` with the number of current rows of the source. -/
def idleCounts (db : Database ρ) (source : Nat) : Counts := ⟨0, (db.fdbOf source).length, 0, 0, 0⟩

def refuseSnapshot (db : Database ρ) (run : Nat) (call : Call) (snapshot : SwitchSnapshot δ)
    (fdbOutcome : SnmpOutcome)
    (errorClass : ErrorClass) : Option (Database ρ × CollectResult) :=
  let counts := idleCounts db call.source
  (finishRun db run call.source (Run.refuse snapshot call errorClass counts)).map fun db =>
    (db, ⟨run, call.source, .failed, fdbOutcome, counts, some errorClass⟩)

def applySnapshot (d : Details δ ρ) (db : Database ρ) (run : Nat) (call : Call)
    (snapshot : SwitchSnapshot δ)
    (fdbOutcome : SnmpOutcome) : Option (Database ρ × CollectResult) :=
  match d.save call.source run snapshot call.startedAt db.others with
  | none => none
  | some others =>
    let replaced := replaceFdb { db with others := others } call.source run snapshot.fdb call.startedAt
    let counts := { replaced.2 with ports := snapshot.portKeys.length }
    let status := if hasFailedOptionalCapability snapshot then RunStatus.partialSuccess else .success
    (finishRun replaced.1 run call.source (Run.complete snapshot call counts)).map fun db =>
      (db, ⟨run, call.source, status, fdbOutcome, counts, none⟩)

/-- The transaction that closes a run with a valid snapshot; `none` is an exception. -/
def saveSnapshot (d : Details δ ρ) (db : Database ρ) (run : Nat) (call : Call)
    (snapshot : SwitchSnapshot δ)
    (fdbOutcome : SnmpOutcome) : Option (Database ρ × CollectResult) :=
  if fdbOutcome.isReplacing then
    match hasNewerOrEqualCompleted call.startedTime (completedOthers db.runs call.source run) with
    | none => none
    | some true => refuseSnapshot db run call snapshot fdbOutcome .staleSnapshot
    | some false => applySnapshot d db run call snapshot fdbOutcome
  else refuseSnapshot db run call snapshot fdbOutcome .fdbUnavailable

def recordFailedRun (db : Database ρ) (run : Nat) (call : Call) (failure : Failure) :
    Option (Database ρ × CollectResult) :=
  let counts := idleCounts db call.source
  (finishRun db run call.source (Run.fail call failure counts)).map fun db =>
    (db, ⟨run, call.source, .failed, .parseError, counts, some failure.errorClass⟩)

def unusable (errorClass : ErrorClass) : Failure := ⟨errorClass, [("fdb", .parseError)]⟩

/-- What the driver's answer leads to. -/
def judge (d : Details δ ρ) (run : Nat) (call : Call) : Collected δ → Phase δ
  | .raised => .failing run call (unusable .collectionError)
  | .foreign => .failing run call (unusable .invalidSnapshot)
  | .snapshot snapshot =>
    match validate d snapshot with
    | none => .failing run call (unusable .invalidSnapshot)
    | some fdbOutcome => .saving run call snapshot fdbOutcome

/-- `collect_and_save_switch` up to the end of `_create_run`. -/
def startCall (db : Database ρ) (source : Nat) (startedAt : Text) (isPermitted fails : Bool) :
    Database ρ × Phase δ :=
  match h : parseStartedAt startedAt with
  | none => (db, .returned none)
  | some startedTime =>
    if isPermitted && !fails then
      (createRun db ⟨source, startedAt, startedTime, h⟩,
        .collecting db.runs.length ⟨source, startedAt, startedTime, h⟩)
    else (db, .returned none)

def finishCall (db : Database ρ) (done : Option (Database ρ × CollectResult)) (fails : Bool)
    (otherwise : Phase δ) :
    Database ρ × Phase δ :=
  match done with
  | some (after, result) => if fails then (db, otherwise) else (after, .returned (some result))
  | none => (db, otherwise)

/-- `collect_and_save_switch`, one transaction or one use of the driver at a time. -/
def act (d : Details δ ρ) {κ : Type} (_who : κ) (event : Event δ) (db : Database ρ) (phase : Phase δ) :
    Database ρ × Phase δ :=
  match event, phase with
  | .crash, _ => (db, .idle)
  | .start source startedAt isPermitted fails, .idle => startCall db source startedAt isPermitted fails
  | .start source startedAt isPermitted fails, .returned _ => startCall db source startedAt isPermitted fails
  | .collect collected, .collecting run call => (db, judge d run call collected)
  | .commit fails, .saving run call snapshot fdbOutcome =>
    let failure : Failure := ⟨.persistenceError, [("fdb", fdbOutcome)]⟩
    finishCall db (saveSnapshot d db run call snapshot fdbOutcome) fails (.failing run call failure)
  | .record fails, .failing run call failure =>
    if failure.errorClass = .persistenceError then
      ((finishCall (δ := δ) db (recordFailedRun db run call failure) fails (.returned none)).1, .returned none)
    else finishCall db (recordFailedRun db run call failure) fails (.returned none)
  | _, _ => (db, phase)

end

end WebOvpn.SwitchStore
