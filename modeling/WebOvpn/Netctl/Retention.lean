/-
The driver options of a source, checked and completed; and the retention of the local
history: what the dry run of `netctl retention` reports, and what applying it deletes.
-/
import Mathlib.Data.Finset.Sort
import Mathlib.Data.List.MinMax
import WebOvpn.Lib.Calendar
import WebOvpn.Lib.FloatReader
import WebOvpn.Lib.Pruning
import WebOvpn.Lib.Sorted

namespace WebOvpn.DriverOptions

def decimalDigit (c : CodePoint) : Option Nat :=
  (CodePoint.decimalZeros.find? fun base => base ≤ c.val && c.val < base + 10).map fun base => c.val - base

/-- `int(text)` of a stripped text with digits after at most one sign; the digits of
`str.isdigit` that are not decimal ones are a `ValueError` of `int`. -/
def readInt (value : Text) : Option Int :=
  let stripped := Text.strip value
  let negative := startsWith '-'
  let digits := if startsWith '+' || negative then stripped.tail else stripped
  if digits = [] ∨ maxStrDigits < digits.length then none
  else (digits.mapM decimalDigit).map fun values =>
    let magnitude := values.foldl (fun n digit => 10 * n + digit) 0
    if negative then -(magnitude : Int) else magnitude
where
  startsWith (sign : Char) : Bool := (Text.strip value).head? == some (CodePoint.ofChar sign)

def integerOfFloat (token : List Char) : Option Int :=
  match lexNumber token with
  | some (number, []) =>
    number.toBinary64.bind fun x =>
      if x.ratio.1 % x.ratio.2 = 0 then
        some (if number.negative then -(x.ratio.1 / x.ratio.2 : Nat) else (x.ratio.1 / x.ratio.2 : Nat))
      else none
  | _ => none

def boundedInt (minimum maximum : Int) (value : JVal) : Option Int :=
  let number :=
    match value with
    | .int n => some n
    | .float token => integerOfFloat token
    | .str s => readInt s
    | _ => none
  number.bind fun n => if minimum ≤ n ∧ n ≤ maximum then some n else none

def snmpString : JVal → Option Text
  | .str s => some s
  | _ => none

def identityString : JVal → Option Text
  | .str s => if s ≠ [] ∧ Text.strip s = [] then none else some (Text.strip s)
  | _ => none

section Lower

variable (lower : Text → Text)

def snmpBool : JVal → Option Bool
  | .bool b => some b
  | .str s =>
    let normalized := lower (Text.strip s)
    if normalized ∈ ["1", "true", "yes", "on", "enabled"].map text then some true
    else if normalized ∈ ["0", "false", "no", "off", "disabled"].map text then some false
    else none
  | _ => none

/-- `value.strip().lower()` where it is one of the known words. -/
def knownWord (words : List String) : JVal → Option Text
  | .str s =>
    let normalized := lower (Text.strip s)
    if normalized ∈ words.map text then some normalized else none
  | _ => none

def topologyRoles : List String := ["core", "distribution", "access", "edge", "unknown"]

def topologyRole : JVal → Option Text := knownWord lower topologyRoles

def supportedSnmpProfileHints : List String := ["generic", "dgs", "snr", "tplink", "css326"]

def snmpDriverOptionKeys : List String :=
  ["snmp_version", "timeout_seconds", "retries", "max_repetitions", "profile_hint", "capability_ttl_hours",
    "raw_capture", "raw_retention_hours", "counter_retention_days", "event_retention_days",
    "access_port_mac_threshold", "low_speed_threshold_bps", "runtime_asset_key", "intent_context_id",
    "intent_stable_id", "topology_role"]

structure SnmpOptions where
  snmpVersion : Text
  timeoutSeconds : Int
  retries : Int
  maxRepetitions : Int
  capabilityTtlHours : Int
  rawCapture : Bool
  rawRetentionHours : Int
  counterRetentionDays : Int
  eventRetentionDays : Int
  accessPortMacThreshold : Int
  lowSpeedThresholdBps : Int
  runtimeAssetKey : Text
  intentContextId : Text
  intentStableId : Text
  topologyRole : Option Text
  profileHint : Option Text

/-- `normalize_snmp_driver_options`; `none` is a `ValueError`.  The source that it
passes on has no key but `driver_options`, so every option is looked up there. -/
def normalizeSnmpDriverOptions : JVal → Option SnmpOptions
  | .obj options => do
      if options.any fun member => decide (member.1 ∉ snmpDriverOptionKeys.map text) then none
      let option (key : String) (fallback : JVal) : JVal := (memberOf options key).getD fallback
      let snmpVersion ← snmpString (option "snmp_version" (.str "2c"))
      if snmpVersion ≠ "2c" then none
      let profileHint ←
        match option "profile_hint" .null with
        | .null => some none
        | value => (knownWord lower supportedSnmpProfileHints value).map some
      let topologyRole ←
        match memberOf options "topology_role" with
        | none => some none
        | some value => (topologyRole lower value).map some
      return {
        snmpVersion
        timeoutSeconds := ← boundedInt 1 60 (option "timeout_seconds" (.int 2))
        retries := ← boundedInt 0 10 (option "retries" (.int 1))
        maxRepetitions := ← boundedInt 1 100 (option "max_repetitions" (.int 25))
        capabilityTtlHours := ← boundedInt 1 8760 (option "capability_ttl_hours" (.int 168))
        rawCapture := ← snmpBool lower (option "raw_capture" (.bool false))
        rawRetentionHours := ← boundedInt 1 24 (option "raw_retention_hours" (.int 24))
        counterRetentionDays := ← boundedInt 1 3650 (option "counter_retention_days" (.int 14))
        eventRetentionDays := ← boundedInt 1 3650 (option "event_retention_days" (.int 180))
        accessPortMacThreshold := ← boundedInt 1 1000000 (option "access_port_mac_threshold" (.int 10))
        lowSpeedThresholdBps := ← boundedInt 1 (10 ^ 15) (option "low_speed_threshold_bps" (.int 100000000))
        runtimeAssetKey := ← identityString (option "runtime_asset_key" (.str []))
        intentContextId := ← identityString (option "intent_context_id" (.str []))
        intentStableId := ← identityString (option "intent_stable_id" (.str []))
        topologyRole
        profileHint }
  | _ => none

variable {lower : Text → Text} {options : SnmpOptions}

theorem boundedInt_mem {minimum maximum n : Int} {value : JVal}
    (h : boundedInt minimum maximum value = some n) :
    minimum ≤ n ∧ n ≤ maximum := by
  obtain ⟨number, -, hnum⟩ := Option.bind_eq_some_iff.1 h
  split at hnum
  · rename_i hrn
    cases hnum
    exact hrn
  · cases hnum

theorem defaults_pass : (normalizeSnmpDriverOptions lower (.obj [])).isSome := by
  rfl

end Lower

end WebOvpn.DriverOptions

namespace WebOvpn.Retention

open Pruning DriverOptions

/-- The tables that retention reads. -/
inductive Table where
  | switchPorts | currentSwitchFdb | currentSwitchVlanMemberships | currentSwitchLldpNeighbors
  | currentSwitchPortTelemetry | currentSwitchLinks | currentSwitchPortRoles
  | assetAttachmentCandidates | assetAttachmentResolutions
  | routerFilterRules | routerNatRules | routerMangleRules | routerRoutingRules
  | routerAddressListEntries | routerIpsecPolicies | availabilityResults
  | switchFdbEvents | switchLinkEvents | assetAttachmentEvents | hostObservations | networkEvents
  | availabilityResultEvents | switchPortCounterSamples
  | nmapFingerprintPorts | nmapFingerprintOsMatches | nmapFingerprintRuns
  | ipObservations | hostnameObservations
  | collectionRuns | switchCollectionRuns | networkCorrelationRuns | routerPathFactRuns | availabilityRuns
  deriving DecidableEq

inductive IntColumn where
  | sourceId | collectorRunId | correlationRunId | runId | assetId | isCurrent
  deriving DecidableEq

inductive TextColumn where
  | startedAt | finishedAt | status | observedAt | ts | lastSeenAt | runType | cidr | targetIp | profile | ip
  deriving DecidableEq

/-- A row with its key and the columns that retention reads; `none` is NULL. -/
structure Row where
  id : Int
  int : IntColumn → Option Int
  text : TextColumn → Option Text

namespace Row

def ended (row : Row) : Option Text := row.text .finishedAt <|> row.text .startedAt

end Row

/-- A row of `network_sources`. -/
structure NetworkSource where
  id : Int
  driver : Text
  driverOptionsJson : List Char

/-- What SQLite and the interpreter bring along: the most variables a statement may
have, and `str.lower`. -/
structure Platform where
  maxVariables : Nat
  lower : Text → Text

/-- `column REFERENCES parent(id) ON DELETE RESTRICT`. -/
def referring (column : IntColumn) (parent child : Table) : Reference Table Row :=
  ⟨child, parent, fun row target => row.int column = some target.id⟩

/-- `FOREIGN KEY(collector_run_id, source_id) REFERENCES switch_collection_runs(id, source_id)
ON DELETE RESTRICT`. -/
def referringWithSource (child : Table) : Reference Table Row :=
  ⟨child, .switchCollectionRuns, fun row target =>
    row.int .collectorRunId = some target.id && (row.int .sourceId).isSome &&
      row.int .sourceId = target.int .sourceId⟩

def switchCurrentTables : List Table :=
  [.switchPorts, .currentSwitchFdb, .currentSwitchVlanMemberships, .currentSwitchLldpNeighbors,
    .currentSwitchPortTelemetry]

/-- The tables that `protected_correlation_run_ids` reads. -/
def correlationCurrentTables : List Table :=
  [.currentSwitchLinks, .assetAttachmentCandidates, .assetAttachmentResolutions]

def pathCurrentTables : List Table :=
  [.routerFilterRules, .routerNatRules, .routerMangleRules, .routerRoutingRules, .routerAddressListEntries,
    .routerIpsecPolicies]

def protectingReferences : List (Reference Table Row) :=
  switchCurrentTables.map referringWithSource ++ [referringWithSource .switchPortCounterSamples] ++
    correlationCurrentTables.map (referring .correlationRunId .networkCorrelationRuns) ++
    pathCurrentTables.map (referring .collectorRunId .routerPathFactRuns) ++
    [referring .runId .availabilityRuns .availabilityResults,
      referring .runId .nmapFingerprintRuns .nmapFingerprintPorts,
      referring .runId .nmapFingerprintRuns .nmapFingerprintOsMatches]

def otherReferences : List (Reference Table Row) :=
  [referringWithSource .switchFdbEvents,
    referring .correlationRunId .networkCorrelationRuns .switchLinkEvents,
    referring .correlationRunId .networkCorrelationRuns .assetAttachmentEvents,
    referring .correlationRunId .networkCorrelationRuns .currentSwitchPortRoles,
    referring .runId .availabilityRuns .availabilityResultEvents]

/-- The foreign keys of the schema to tables that retention deletes from. -/
def references : List (Reference Table Row) := protectingReferences ++ otherReferences

/-- A database: keys are unique, and foreign keys are enforced. -/
structure Database where
  sources : List NetworkSource
  rows : Tables Table Row
  sourceIds : (sources.map (·.id)).Nodup
  ids : ∀ table, ((rows table).map (·.id)).Nodup
  sound : Sound references rows

/-- `value.replace("Z", "+00:00")`. -/
def withOffset (value : Text) : Text :=
  value.flatMap fun c => if c = CodePoint.ofChar 'Z' then "+00:00" else [c]

def validateCutoff (cutoff : Text) : Option Text :=
  (fromisoformat (withOffset cutoff)).bind fun parsed =>
    if parsed.offset = some 0 then some (parsed.wall.seconds ++ "Z") else none

def retentionReference (now : Instant) : Option Text → Option Text
  | none => some (now.seconds ++ "Z")
  | some value => validateCutoff value

/-- `reference - timedelta(days=days)` to the second; before the year 1 it overflows. -/
def daysBefore (reference : Instant) (days : Int) : Option Text :=
  let micros := (reference.val : Int) - days * microsPerDay
  if h : 0 ≤ micros ∧ micros < 315537897600000000 then
    some (Instant.seconds ⟨micros.toNat, by omega⟩ ++ "Z")
  else none

/-- The order of the pairs, in a form that can be computed. -/
instance : Preorder (WithBot Text ×ₗ Int) :=
  (@Prod.Lex.instLinearOrder (WithBot Text) Int _ Int.instLinearOrder).toPreorder

def order (time : Row → Option Text) (row : Row) : WithBot Text ×ₗ Int := toLex (time row, row.id)

def isLatest (time : Row → Option Text) (rows : List Row) (id : Int) : Bool :=
  (rows.argmax (order time)).map Row.id = some id

/-- `a = b` of two columns, of which none may be NULL. -/
def sqlEq {α : Type} [DecidableEq α] (a b : Option α) : Bool := a.isSome && a = b

inductive Column where
  | int (column : IntColumn)
  | text (column : TextColumn)

def Row.cell (row : Row) : Column → Option (Int ⊕ Text)
  | .int column => (row.int column).map .inl
  | .text column => (row.text column).map .inr

def latestRunIds (rows : Tables Table Row) (table : Table) (group : Column)
    (statuses : List String) : Finset Int :=
  let ended := (rows table).filter fun run => (run.text .status).any (· ∈ statuses.map text)
  ((ended.filter fun run =>
    isLatest Row.ended (ended.filter fun latest => latest.cell group = run.cell group) run.id).map
      Row.id).toFinset

def currentRunIds (rows : Tables Table Row) (tables : List Table) (column : IntColumn) : Finset Int :=
  (tables.flatMap fun table => (rows table).filterMap (·.int column)).toFinset

def protectedSwitchRunIds (rows : Tables Table Row) (excludedCounterSampleIds : Finset Int) :
    Finset Int :=
  let samples := (rows .switchPortCounterSamples).filter fun sample => sample.id ∉ excludedCounterSampleIds
  currentRunIds rows switchCurrentTables .collectorRunId ∪ (samples.filterMap (·.int .collectorRunId)).toFinset ∪
    latestRunIds rows .switchCollectionRuns (.int .sourceId) ["success", "partial"]

def protectedCorrelationRunIds (rows : Tables Table Row) : Finset Int :=
  currentRunIds rows correlationCurrentTables .correlationRunId ∪
    latestRunIds rows .networkCorrelationRuns (.text .runType) ["success", "partial"]

def protectedPathFactRunIds (rows : Tables Table Row) : Finset Int :=
  currentRunIds rows pathCurrentTables .collectorRunId ∪
    latestRunIds rows .routerPathFactRuns (.int .sourceId) ["success"]

def protectedAvailabilityRunIds (rows : Tables Table Row) : Finset Int :=
  currentRunIds rows [.availabilityResults] .runId ∪
    latestRunIds rows .availabilityRuns (.text .cidr) ["success"]

def isTargeted (rows : Tables Table Row) (run : Row) : Bool :=
  (rows .ipObservations).any fun ips =>
    sqlEq (ips.int .assetId) (run.int .assetId) && ips.int .isCurrent = some 1 &&
      sqlEq (ips.text .ip) (run.text .targetIp)

def latestCurrentNmapRunIds (rows : Tables Table Row) (status : Option String) : Finset Int :=
  let counts (run : Row) : Bool := status.all fun status => run.text .status = some (text status)
  let time (run : Row) : Option Text := if status = some "success" then run.ended else run.text .startedAt
  let runs := rows .nmapFingerprintRuns
  (((runs.filter fun run => isTargeted rows run && counts run).filter fun run =>
    isLatest time (runs.filter fun latest =>
      sqlEq (latest.int .assetId) (run.int .assetId) && sqlEq (latest.text .targetIp) (run.text .targetIp) &&
        sqlEq (latest.text .profile) (run.text .profile) && counts latest) run.id).map Row.id).toFinset

def runningNmapRunIds (rows : Tables Table Row) : Finset Int :=
  (((rows .nmapFingerprintRuns).filter fun run => run.text .status = some (text "running")).map Row.id).toFinset

def protectedNmapRunIds (rows : Tables Table Row) : Finset Int :=
  runningNmapRunIds rows ∪ latestCurrentNmapRunIds rows none ∪ latestCurrentNmapRunIds rows (some "success")

def older (cutoff : Text) (time : Option Text) : Bool := time.any (· < cutoff)

/-- `_old_ids`; `none` where the statement has too many variables. -/
def oldIds (p : Platform) (rows : Tables Table Row) (table : Table) (time : Row → Option Text)
    (cutoff : Text)
    (protectedIds : Finset Int) : Option (List Int) :=
  if protectedIds.card + 1 ≤ p.maxVariables then
    some (((rows table).filter fun row => older cutoff (time row) && row.id ∉ protectedIds).map Row.id)
  else none

def childIdsForRuns (p : Platform) (rows : Tables Table Row) (table : Table) (runIds : List Int) :
    Option (List Int) :=
  if runIds.length ≤ p.maxVariables then
    some (sortedBy id (((rows table).filter fun row => (row.int .runId).any (· ∈ runIds)).map Row.id))
  else none

/-- The cutoff of each SNMP source, from the days in its options; `none` is an
exception. -/
def sourceCutoffs (p : Platform) (sources : List NetworkSource) (referenceTime : Text) :
    Option (List (Int × Text)) := do
  let reference ← fromisoformat (withOffset referenceTime)
  (sortedBy (·.id) (sources.filter fun source => source.driver = text "snmp_switch")).mapM fun source => do
    let stored := if source.driverOptionsJson = [] then "{}".toList else source.driverOptionsJson
    let rawOptions ← (parseDocument floatDialect stored).toOption
    let options ← normalizeSnmpDriverOptions p.lower rawOptions
    let cutoff ← daysBefore reference.wall options.counterRetentionDays
    return (source.id, cutoff)

def expiredBy (cutoff : Int × Text) (sample : Row) : Bool :=
  sample.int .sourceId = some cutoff.1 && older cutoff.2 (sample.text .observedAt)

def counterSampleIds (p : Platform) (sources : List NetworkSource) (rows : Tables Table Row)
    (referenceTime : Text) :
    Option (List Int) := do
  let cutoffs ← sourceCutoffs p sources referenceTime
  let expired := cutoffs.flatMap fun cutoff =>
    ((rows .switchPortCounterSamples).filter (expiredBy cutoff)).map Row.id
  return sortedBy id expired

def eventTables : List (Table × TextColumn) :=
  [(.switchFdbEvents, .observedAt), (.switchLinkEvents, .observedAt), (.assetAttachmentEvents, .observedAt),
    (.hostObservations, .observedAt), (.networkEvents, .ts), (.availabilityResultEvents, .observedAt)]

def isStale (cutoff : Text) (observation : Row) : Bool :=
  observation.int .isCurrent = some 0 && older cutoff (observation.text .lastSeenAt)

/-- The counts under `keep`. -/
structure Keep where
  switchCollectionRunsCurrentReference : Nat
  switchCollectionRunsLastSuccess : Nat
  networkCorrelationRunsCurrentReference : Nat
  networkCorrelationRunsLastSuccess : Nat
  routerPathFactRunsCurrentReference : Nat
  routerPathFactRunsLastSuccess : Nat
  availabilityRunsCurrentReference : Nat
  availabilityRunsLastSuccess : Nat
  nmapFingerprintRunsCurrent : Nat
  nmapFingerprintRunsLastSuccess : Nat
  nmapFingerprintRunsRunning : Nat

structure RetentionReport where
  delete : List (Table × Nat)
  keep : Keep

def keepCounts (rows : Tables Table Row) : Keep where
  switchCollectionRunsCurrentReference := (currentRunIds rows switchCurrentTables .collectorRunId).card
  switchCollectionRunsLastSuccess :=
    (latestRunIds rows .switchCollectionRuns (.int .sourceId) ["success", "partial"]).card
  networkCorrelationRunsCurrentReference := (currentRunIds rows correlationCurrentTables .correlationRunId).card
  networkCorrelationRunsLastSuccess :=
    (latestRunIds rows .networkCorrelationRuns (.text .runType) ["success", "partial"]).card
  routerPathFactRunsCurrentReference := (currentRunIds rows pathCurrentTables .collectorRunId).card
  routerPathFactRunsLastSuccess := (latestRunIds rows .routerPathFactRuns (.int .sourceId) ["success"]).card
  availabilityRunsCurrentReference := (currentRunIds rows [.availabilityResults] .runId).card
  availabilityRunsLastSuccess := (latestRunIds rows .availabilityRuns (.text .cidr) ["success"]).card
  nmapFingerprintRunsCurrent := (latestCurrentNmapRunIds rows none).card
  nmapFingerprintRunsLastSuccess := (latestCurrentNmapRunIds rows (some "success")).card
  nmapFingerprintRunsRunning := (runningNmapRunIds rows).card

def latestCollectionRunIds (rows : Tables Table Row) : Finset Int :=
  latestRunIds rows .collectionRuns (.int .sourceId) ["ok"]

def retentionReport (p : Platform) (now : Instant) (cutoff : Text) (referenceTime : Option Text)
    (sources : List NetworkSource) (rows : Tables Table Row) : Option RetentionReport := do
  let cutoff ← validateCutoff cutoff
  let referenceTime ← retentionReference now referenceTime
  let sampleIds ← counterSampleIds p sources rows referenceTime
  let nmapRunIds ← oldIds p rows .nmapFingerprintRuns Row.ended cutoff (protectedNmapRunIds rows)
  let events ← eventTables.mapM fun (table, column) =>
    (oldIds p rows table (·.text column) cutoff ∅).map fun ids => (table, ids.length)
  let nmapPortIds ← childIdsForRuns p rows .nmapFingerprintPorts nmapRunIds
  let nmapOsMatchIds ← childIdsForRuns p rows .nmapFingerprintOsMatches nmapRunIds
  let collectionIds ← oldIds p rows .collectionRuns Row.ended cutoff (latestCollectionRunIds rows)
  let switchIds ←
    oldIds p rows .switchCollectionRuns Row.ended cutoff (protectedSwitchRunIds rows sampleIds.toFinset)
  let correlationIds ← oldIds p rows .networkCorrelationRuns Row.ended cutoff (protectedCorrelationRunIds rows)
  let pathIds ← oldIds p rows .routerPathFactRuns Row.ended cutoff (protectedPathFactRunIds rows)
  let availabilityIds ← oldIds p rows .availabilityRuns Row.ended cutoff (protectedAvailabilityRunIds rows)
  return {
    delete := events ++ [
      (.switchPortCounterSamples, sampleIds.length),
      (.nmapFingerprintPorts, nmapPortIds.length),
      (.nmapFingerprintOsMatches, nmapOsMatchIds.length),
      (.nmapFingerprintRuns, nmapRunIds.length),
      (.ipObservations, (rows .ipObservations).countP (isStale cutoff)),
      (.hostnameObservations, (rows .hostnameObservations).countP (isStale cutoff)),
      (.collectionRuns, collectionIds.length),
      (.switchCollectionRuns, switchIds.length),
      (.networkCorrelationRuns, correlationIds.length),
      (.routerPathFactRuns, pathIds.length),
      (.availabilityRuns, availabilityIds.length)]
    keep := keepCounts rows }

def deleteIds (p : Platform) (table : Table) (select : Tables Table Row → Option (List Int)) :
    Statement Table Row where
  table
  goes rows := do
    let ids ← select rows
    if ids.length ≤ p.maxVariables then some fun row => decide (row.id ∈ ids) else none

def deleteStale (table : Table) (cutoff : Text) : Statement Table Row where
  table
  goes _ := some (isStale cutoff)

/-- The result without the metrics of the pages of the file. -/
structure RetentionResult where
  deleted : List (Table × Nat)
  kept : Keep
  totalDeleted : Nat

/-- The deletions after those of the samples, of which the ones of nmap use the runs
selected before. -/
def deletions (p : Platform) (cutoff : Text) (nmapRunIds : List Int) : List (Statement Table Row) :=
  [deleteIds p .nmapFingerprintPorts fun rows => childIdsForRuns p rows .nmapFingerprintPorts nmapRunIds,
    deleteIds p .nmapFingerprintOsMatches fun rows =>
      childIdsForRuns p rows .nmapFingerprintOsMatches nmapRunIds,
    deleteIds p .nmapFingerprintRuns fun _ => some nmapRunIds] ++
  eventTables.map (fun (table, column) =>
    deleteIds p table fun rows => oldIds p rows table (·.text column) cutoff ∅) ++
  [deleteStale .ipObservations cutoff, deleteStale .hostnameObservations cutoff,
    deleteIds p .collectionRuns fun rows =>
      oldIds p rows .collectionRuns Row.ended cutoff (latestCollectionRunIds rows),
    deleteIds p .switchCollectionRuns fun rows =>
      oldIds p rows .switchCollectionRuns Row.ended cutoff (protectedSwitchRunIds rows ∅),
    deleteIds p .networkCorrelationRuns fun rows =>
      oldIds p rows .networkCorrelationRuns Row.ended cutoff (protectedCorrelationRunIds rows),
    deleteIds p .routerPathFactRuns fun rows =>
      oldIds p rows .routerPathFactRuns Row.ended cutoff (protectedPathFactRunIds rows),
    deleteIds p .availabilityRuns fun rows =>
      oldIds p rows .availabilityRuns Row.ended cutoff (protectedAvailabilityRunIds rows)]

/-- `apply_retention`: the result and the tables that it commits; `none` is an
exception, after which nothing is changed. -/
def applyRetention (p : Platform) (now : Instant) (cutoff : Text) (referenceTime : Option Text)
    (sources : List NetworkSource)
    (rows : Tables Table Row) : Option (RetentionResult × Tables Table Row) := do
  let cutoff ← validateCutoff cutoff
  let referenceTime ← retentionReference now referenceTime
  let report ← retentionReport p now cutoff (some referenceTime) sources rows
  let (samples, rows) ← sweep references
    [deleteIds p .switchPortCounterSamples fun rows => counterSampleIds p sources rows referenceTime] rows
  let nmapRunIds ← oldIds p rows .nmapFingerprintRuns Row.ended cutoff (protectedNmapRunIds rows)
  let (others, rows) ← sweep references (deletions p cutoff nmapRunIds) rows
  -- `_verify_database`
  if Sound references rows then
    let deleted := samples ++ others
    return (⟨deleted, report.keep, (deleted.map Prod.snd).sum⟩, rows)
  else none

def afterRetention (p : Platform) (now : Instant) (cutoff : Text) (referenceTime : Option Text)
    (sources : List NetworkSource) (rows : Tables Table Row) : Tables Table Row :=
  ((applyRetention p now cutoff referenceTime sources rows).map Prod.snd).getD rows

end WebOvpn.Retention
