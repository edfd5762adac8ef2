/-
The public status of hosts, from what was last probed and what was last seen of
them: one host at a time with a query for each question, and many at once from
evidence that is loaded before.
-/
import WebOvpn.Netctl.AvailabilityLaw
import WebOvpn.Lib.Chunks
import Mathlib.Data.Prod.Lex

namespace WebOvpn.HostProjection

open Availability (replaceZ)
open Chunks (newest)

/-- The columns of a row of `network_sources`. -/
structure Source where
  id : Nat
  enabled : Bool
  lastStatus : Option Text
  lastCollectAt : Option Text

structure ArpEntry where
  sourceId : Nat
  ip : Text
  mac : Option Text
  complete : Bool
  lastSeenAt : Option Text

structure DhcpLease where
  sourceId : Nat
  ip : Text
  mac : Option Text
  status : Option Text
  lastSeenAt : Option Text

structure BridgeHost where
  sourceId : Nat
  mac : Option Text
  lastSeenAt : Option Text

/-- A row of `current_switch_fdb`. -/
structure FdbEntry where
  sourceId : Nat
  mac : Text
  status : Text
  lastSeenAt : Text
  collectorRunId : Nat

structure CollectionRun where
  id : Nat
  sourceId : Nat
  status : Text

inductive ActiveState where
  | reachable
  | unreachable
  deriving DecidableEq

structure ManualResult where
  id : Nat
  segmentId : Text
  ip : Text
  activeState : ActiveState
  activeMethod : Text
  checkedAt : Text

inductive RunStatus where
  | success
  | failed
  deriving DecidableEq

/-- A row of `availability_runs`. -/
structure Run where
  id : Nat
  cidr : Text
  status : RunStatus
  finishedAt : Option Text

/-- A row of `availability_results`, whose key is the network and the address. -/
structure StoredResult where
  cidr : Text
  ip : Text
  runId : Nat
  activeState : ActiveState
  activeMethod : Text
  checkedAt : Text

structure ForceMonitor where
  ip : Text
  enabled : Bool
  enabledAt : Text
  updatedAt : Text

structure SegmentRule where
  segmentId : Text
  network : Ipv4Network
  availabilityIntervalMinutes : Nat

/-- The tables.  `rules` is what `load_active_availability_segments` answers from
the tables of the context and of the settings; `none` is its exception. -/
structure Database where
  sources : List Source
  arpEntries : List ArpEntry
  dhcpLeases : List DhcpLease
  bridgeHosts : List BridgeHost
  currentFdb : List FdbEntry
  collectionRuns : List CollectionRun
  rules : Option (List SegmentRule)
  manualResults : List ManualResult
  runs : List Run
  results : List StoredResult
  forceMonitors : List ForceMonitor
  /-- `PRIMARY KEY (cidr, ip)`. -/
  resultsUnique : results.Pairwise fun r s => ¬(r.cidr = s.cidr ∧ r.ip = s.ip)
  /-- `ip TEXT PRIMARY KEY`. -/
  forceMonitorsUnique : forceMonitors.Pairwise fun r s => r.ip ≠ s.ip

inductive Raised where
  /-- The `ValueError` of `force_monitor_state`. -/
  | address
  /-- An exception of `load_active_availability_segments`. -/
  | segments
  /-- `now must be a UTC timestamp`. -/
  | now
  /-- The `OverflowError` of `astimezone`. -/
  | overflow
  /-- The `UnicodeEncodeError` of a parameter of a query. -/
  | encoding
  deriving DecidableEq

/-- The type `str | datetime`. -/
inductive Moment where
  | text (value : Text)
  | datetime (value : Datetime)

def asUtc (value : Moment) : Except Raised (Option Int) :=
  let parsed :=
    match value with
    | .text value => fromisoformat (replaceZ value)
    | .datetime value => some value
  match parsed with
  | none => .ok none
  | some parsed =>
    match parsed.offset with
    | none => .ok none
    | some offset =>
      let utc := parsed.utcMicros offset
      if 0 ≤ utc ∧ utc < 315537897600000000 then .ok (some utc) else .error .overflow

def minutes (count : Nat) : Int := count * microsPerMinute

def passiveEvidenceFreshness : Int := minutes 5 * 2

def freshAt (value : Option Text) (now budget : Int) : Except Raised Bool := do
  let observed ← asUtc (.text (value.getD []))
  return observed.any fun observed => 0 ≤ now - observed ∧ now - observed ≤ budget

def upperDigit (c : CodePoint) : CodePoint := if c.isLower then Fin.ofNat _ (c.val - 32) else c

/-- `raw[index : index + 2] for index in range(0, 12, 2)`, with the colons between. -/
def joinPairs : Text → Text
  | a :: b :: c :: rest => a :: b :: CodePoint.ofChar ':' :: joinPairs (c :: rest)
  | rest => rest

def normalizeMac (value : Option Text) : Option Text :=
  value.bind fun value =>
    let raw := (value.filter CodePoint.isHex).map upperDigit
    if raw.length = 12 then some (joinPairs raw) else none

def SegmentRule.monitors (rule : SegmentRule) (address : Ipv4) : Bool :=
  rule.network.contains address &&
    (31 ≤ rule.network.prefixlen.val || (address ≠ rule.network.base && address ≠ rule.network.broadcast))

/-- The order of `sorted(matches, …)`. -/
def SegmentRule.comesFirst (rule other : SegmentRule) : Prop :=
  toLex (32 - rule.network.prefixlen.val, rule.segmentId) ≤
    toLex (32 - other.network.prefixlen.val, other.segmentId)

instance : DecidableRel SegmentRule.comesFirst := fun rule other => by
  unfold SegmentRule.comesFirst
  infer_instance

def monitoredRuleFromRules (rules : List SegmentRule) (ip : Text) : Option SegmentRule :=
  (Ipv4.ofText ip).bind fun address =>
    ((rules.filter (·.monitors address)).insertionSort SegmentRule.comesFirst).head?

/-- A row of a host; `rest` are the fields that the projection copies. -/
structure Host (α : Type) where
  ip : Text
  mac : Option Text
  openvpnConnected : Bool
  rest : α

inductive Evidence where
  | mikrotikArp
  | mikrotikDhcp
  | mikrotikBridge
  | snmpFdb
  deriving DecidableEq

inductive Status where
  | connected
  | online
  | seen
  | stale
  | offline
  | notMonitored
  deriving DecidableEq

inductive Reason where
  | openvpnManagement
  | notMonitored
  | missingRun
  | runFailed
  | runStale
  | missingResult
  | activeProbe
  | passiveEvidence
  | activeNegativeNoPassiveEvidence
  deriving DecidableEq

inductive Origin where
  | manual
  | scheduled
  deriving DecidableEq

/-- `_availability_payload` with the force monitor that is attached to it. -/
structure Availability where
  state : Status
  activeMethod : Option Text
  checkedAt : Option Text
  runStatus : Option RunStatus
  cidr : Option Text
  passiveEvidence : List Evidence
  reason : Reason
  checkOrigin : Option Origin
  forceMonitor : ForceMonitor

structure Projected (α : Type) where
  host : Host α
  status : Status
  availability : Option Availability

def healthyPassiveSource (source : Source) (now : Int) : Except Raised Bool :=
  if source.enabled ∧ (source.lastStatus = some (text "ok") ∨ source.lastStatus = some (text "success")) then
    freshAt source.lastCollectAt now passiveEvidenceFreshness
  else .ok false

def isRecent (rowMac : Option Text) (mac : Text) (source : Source)
    (lastSeenAt : Option Text) (now : Int) :
    Except Raised Bool := do
  if normalizeMac rowMac = some mac then
    if ← healthyPassiveSource source now then freshAt lastSeenAt now passiveEvidenceFreshness
    else return false
  else return false

def firstEvidence {ρ : Type} (label : Evidence) (isEvidence : ρ → Except Raised Bool) :
    List ρ → Except Raised (List Evidence)
  | [] => return []
  | row :: rows => do
      if ← isEvidence row then return [label] else firstEvidence label isEvidence rows

def arpIsEvidence (mac : Text) (now : Int) (row : ArpEntry × Source) : Except Raised Bool :=
  if row.1.complete then isRecent row.1.mac mac row.2 row.1.lastSeenAt now else .ok false

def dhcpIsEvidence (mac : Text) (now : Int) (row : DhcpLease × Source) : Except Raised Bool :=
  let status := Text.lower (row.1.status.getD [])
  if status = "bound" ∨ status = "online" then isRecent row.1.mac mac row.2 row.1.lastSeenAt now
  else .ok false

def bridgeIsEvidence (mac : Text) (now : Int) (row : BridgeHost × Source) : Except Raised Bool :=
  isRecent row.1.mac mac row.2 row.1.lastSeenAt now

def fdbIsEvidence (mac : Text) (now : Int) (row : FdbEntry × Source) : Except Raised Bool :=
  isRecent (some row.1.mac) mac row.2 (some row.1.lastSeenAt) now

/-- What a projection reads: each field is a query, or a dictionary. -/
structure Reads where
  forceMonitor : Text → Option ForceMonitor
  monitoredRule : Text → Except Raised (Option SegmentRule)
  arp : Text → List (ArpEntry × Source)
  dhcp : Text → List (DhcpLease × Source)
  bridge : Text → List (BridgeHost × Source)
  fdb : Text → List (FdbEntry × Source)
  manual : Text → Text → Option ManualResult
  run : Text → Option Run
  result : Text → Text → Nat → Option StoredResult

def Reads.forceMonitorState (reads : Reads) (ip : Text) : Except Raised ForceMonitor :=
  match Ipv4.ofText ip with
  | none => .error .address
  | some address => .ok ((reads.forceMonitor address.text).getD ⟨address.text, false, [], []⟩)

def Reads.passiveEvidence (reads : Reads) (ip : Text) (mac : Option Text) (now : Int) :
    Except Raised (List Evidence) :=
  match mac with
  | none => .ok []
  | some mac => do
      let arp ← firstEvidence .mikrotikArp (arpIsEvidence mac now) (reads.arp ip)
      let dhcp ← firstEvidence .mikrotikDhcp (dhcpIsEvidence mac now) (reads.dhcp ip)
      let bridge ← firstEvidence .mikrotikBridge (bridgeIsEvidence mac now) (reads.bridge mac)
      let fdb ← firstEvidence .snmpFdb (fdbIsEvidence mac now) (reads.fdb mac)
      return arp ++ dhcp ++ bridge ++ fdb

/-- The check that a projection rests on: a state with its method, why there is
none, what is said of the run and of the time, and where it comes from. -/
structure Check where
  result : Option (ActiveState × Text)
  reason : Option Reason
  runStatus : Option RunStatus
  checkedAt : Option Text
  origin : Origin

def strOf (value : Option Text) : Text := value.getD "None"

def Reads.scheduledCheck (reads : Reads) (cidr ip : Text) (now freshness : Int) : Except Raised Check :=
  match reads.run cidr with
  | none => .ok ⟨none, some .missingRun, none, none, .scheduled⟩
  | some run =>
    if run.status = .failed then
      .ok ⟨none, some .runFailed, some run.status, some (strOf run.finishedAt), .scheduled⟩
    else do
      if ← freshAt run.finishedAt now freshness then
        match reads.result cidr ip run.id with
        | none => return ⟨none, some .missingResult, some run.status, some (strOf run.finishedAt), .scheduled⟩
        | some result =>
          return ⟨some (result.activeState, result.activeMethod), none, some run.status,
            some result.checkedAt, .scheduled⟩
      else return ⟨none, some .runStale, some run.status, some (strOf run.finishedAt), .scheduled⟩

def Reads.check (reads : Reads) (rule : SegmentRule) (ip : Text) (now : Int) : Except Raised Check :=
  let cidr := rule.network.text
  let freshness := minutes (rule.availabilityIntervalMinutes * 2)
  match reads.manual rule.segmentId ip with
  | none => reads.scheduledCheck cidr ip now freshness
  | some manual => do
      if ← freshAt (some manual.checkedAt) now freshness then
        return ⟨some (manual.activeState, manual.activeMethod), none, some .success, some manual.checkedAt,
          .manual⟩
      else reads.scheduledCheck cidr ip now freshness

def monitored (cidr : Text) (check : Check) (evidence : List Evidence) (forceMonitor : ForceMonitor) :
    Status × Availability :=
  match check.result, check.reason with
  | some (.reachable, method), _ =>
    (.online, ⟨.online, if method = [] then none else some method, check.checkedAt, check.runStatus,
      some cidr, [], .activeProbe, some check.origin, forceMonitor⟩)
  | _, some reason =>
    (.stale, ⟨.stale, none, check.checkedAt, check.runStatus, some cidr, [], reason, some check.origin,
      forceMonitor⟩)
  | _, none =>
    if evidence = [] then
      (.offline, ⟨.offline, none, check.checkedAt, check.runStatus, some cidr, [],
        .activeNegativeNoPassiveEvidence, some check.origin, forceMonitor⟩)
    else
      (.seen, ⟨.seen, none, check.checkedAt, check.runStatus, some cidr, evidence, .passiveEvidence,
        some check.origin, forceMonitor⟩)

variable {α : Type}

/-- The projection of a host from what it reads: the body that
`project_host_availability` and `project_host_from_context` share. -/
def Reads.project (reads : Reads) (host : Host α) (now : Moment) : Except Raised (Projected α) := do
  let forceMonitor ← reads.forceMonitorState host.ip
  let rule ← reads.monitoredRule host.ip
  if host.openvpnConnected then
    return ⟨host, .connected, rule.map fun rule =>
      ⟨.connected, none, none, none, some rule.network.text, [], .openvpnManagement, none, forceMonitor⟩⟩
  else
    match ← asUtc now with
    | none => throw .now
    | some timestamp =>
      let evidence ← reads.passiveEvidence host.ip (normalizeMac host.mac) timestamp
      match rule with
      | none =>
        return ⟨host, if evidence = [] then .stale else .seen,
          some ⟨.notMonitored, none, none, none, none, evidence, .notMonitored, none, forceMonitor⟩⟩
      | some rule =>
        let check ← reads.check rule host.ip timestamp
        let told := monitored rule.network.text check evidence forceMonitor
        return ⟨host, told.1, some told.2⟩

def joinSource {ρ : Type} (sourceId : ρ → Nat) (rows : List ρ) (sources : List Source) :
    List (ρ × Source) :=
  rows.flatMap fun row => (sources.filter (·.id = sourceId row)).map fun source => (row, source)

namespace Database

variable (db : Database)

def arpRows : List (ArpEntry × Source) := joinSource ArpEntry.sourceId db.arpEntries db.sources

def dhcpRows : List (DhcpLease × Source) := joinSource DhcpLease.sourceId db.dhcpLeases db.sources

def bridgeRows : List (BridgeHost × Source) := joinSource BridgeHost.sourceId db.bridgeHosts db.sources

def fdbRows : List (FdbEntry × Source) :=
  joinSource FdbEntry.sourceId
    (db.currentFdb.filter fun entry =>
      (db.collectionRuns.any fun run =>
        run.id = entry.collectorRunId ∧ run.sourceId = entry.sourceId ∧ run.status = "success") &&
        (Text.lower entry.status ≠ "self" ∧ Text.lower entry.status ≠ "mgmt"))
    db.sources

end Database

def ManualResult.rank (result : ManualResult) : Text ×ₗ Nat := toLex (result.checkedAt, result.id)

/-- `ORDER BY finished_at DESC, id DESC`; a null comes last. -/
def Run.rank (run : Run) : WithBot Text ×ₗ Nat := toLex (run.finishedAt, run.id)

/-- The queries of `project_host_availability`. -/
def Database.queries (db : Database) : Reads where
  forceMonitor ip := db.forceMonitors.find? (·.ip = ip)
  monitoredRule ip :=
    match db.rules with
    | none => .error .segments
    | some rules => .ok (monitoredRuleFromRules rules ip)
  arp ip := db.arpRows.filter (·.1.ip = ip)
  dhcp ip := db.dhcpRows.filter (·.1.ip = ip)
  bridge _ := db.bridgeRows
  fdb _ := db.fdbRows
  manual segmentId ip :=
    newest ManualResult.rank (db.manualResults.filter fun row => (row.segmentId, row.ip) = (segmentId, ip))
  run cidr := newest Run.rank (db.runs.filter (·.cidr = cidr))
  result cidr ip runId := db.results.find? fun row => row.cidr = cidr ∧ row.ip = ip ∧ row.runId = runId

def projectHostAvailability (db : Database) (host : Host α) (now : Moment) :
    Except Raised (Projected α) :=
  db.queries.project host now

structure ProjectionContext where
  rules : List SegmentRule
  forceMonitors : Text → Option ForceMonitor
  arpByIp : Text → List (ArpEntry × Source)
  dhcpByIp : Text → List (DhcpLease × Source)
  bridgeByMac : Text → List (BridgeHost × Source)
  fdbByMac : Text → List (FdbEntry × Source)
  manualBySegmentIp : Text × Text → Option ManualResult
  runByCidr : Text → Option Run
  resultByCidrIpRun : Text × Text × Nat → Option StoredResult

def sqlInChunkSize : Nat := 400

def valueChunks {κ : Type} [LinearOrder κ] (values : List κ) : List (List κ) :=
  Chunks.chunksOf sqlInChunkSize (values.dedup.insertionSort (· ≤ ·))

def pairChunks {κ ι : Type} [LinearOrder κ] [LinearOrder ι] (first : List κ) (second : List ι) :
    List (κ × ι → Bool) :=
  (valueChunks first).flatMap fun values => (valueChunks second).map fun others =>
    fun key => key.1 ∈ values && key.2 ∈ others

def bridgeKey (row : BridgeHost × Source) : Option Text := normalizeMac row.1.mac

def fdbKey (row : FdbEntry × Source) : Option Text := normalizeMac (some row.1.mac)

namespace Database

variable (db : Database)

def runsOf (cidrs : List Text) : Text → Option Run :=
  Chunks.collect Run.cidr ((valueChunks cidrs).map fun values =>
    Chunks.heads Run.cidr Run.rank (db.runs.filter (·.cidr ∈ values)))

def manualsOf (segmentIds ips : List Text) : Text × Text → Option ManualResult :=
  Chunks.collect (fun row : ManualResult => (row.segmentId, row.ip))
    ((pairChunks segmentIds ips).map fun asked =>
      Chunks.heads (fun row : ManualResult => (row.segmentId, row.ip)) ManualResult.rank
        (db.manualResults.filter fun row => asked (row.segmentId, row.ip)))

def resultsOf (runIds : List Nat) (ips : List Text) : Text × Text × Nat → Option StoredResult :=
  Chunks.collect (fun row : StoredResult => (row.cidr, row.ip, row.runId))
    ((pairChunks runIds ips).map fun asked => db.results.filter fun row => asked (row.runId, row.ip))

def forceMonitorsOf (ips : List Text) : Text → Option ForceMonitor :=
  Chunks.collect ForceMonitor.ip ((valueChunks ips).map fun values => db.forceMonitors.filter (·.ip ∈ values))

end Database

def load (db : Database) (hosts : List (Host α)) : Except Raised ProjectionContext :=
  let ips := hosts.map Host.ip
  let macs := hosts.filterMap fun host => normalizeMac host.mac
  match db.rules with
  | none => .error .segments
  | some rules =>
    if ips.any (·.any CodePoint.isSurrogate) then .error .encoding
    else
      let chosen := ips.filterMap fun ip => monitoredRuleFromRules rules ip
      let cidrs := chosen.map (·.network.text)
      let runByCidr := db.runsOf cidrs
      .ok
        { rules := rules
          forceMonitors := db.forceMonitorsOf ips
          arpByIp := Chunks.gather (fun row => some row.1.ip) (valueChunks ips) db.arpRows
          dhcpByIp := Chunks.gather (fun row => some row.1.ip) (valueChunks ips) db.dhcpRows
          bridgeByMac := Chunks.gather bridgeKey (valueChunks macs) db.bridgeRows
          fdbByMac := Chunks.gather fdbKey (valueChunks macs) db.fdbRows
          manualBySegmentIp := db.manualsOf (chosen.map (·.segmentId)) ips
          runByCidr := runByCidr
          resultByCidrIpRun := db.resultsOf ((cidrs.filterMap runByCidr).map Run.id) ips }

def ProjectionContext.dictionaries (context : ProjectionContext) : Reads where
  forceMonitor := context.forceMonitors
  monitoredRule ip := .ok (monitoredRuleFromRules context.rules ip)
  arp := context.arpByIp
  dhcp := context.dhcpByIp
  bridge := context.bridgeByMac
  fdb := context.fdbByMac
  manual segmentId ip := context.manualBySegmentIp (segmentId, ip)
  run := context.runByCidr
  result cidr ip runId := context.resultByCidrIpRun (cidr, ip, runId)

def projectHostFromContext (host : Host α) (context : ProjectionContext) (now : Moment) :
    Except Raised (Projected α) :=
  context.dictionaries.project host now

def bulkProjectHostAvailability (db : Database) (hosts : List (Host α)) (now : Moment) :
    Except Raised (List (Projected α)) := do
  let context ← load db hosts
  hosts.mapM fun host => projectHostFromContext host context now

end WebOvpn.HostProjection
