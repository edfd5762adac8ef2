/-
The collection of a switch: required walks, the forwarding database, and the optional
groups, of which each that fails is reported and left out; and a snapshot as the store
sees it, with the checks of the store on its parts.
-/
import WebOvpn.Snmp.Fdb

namespace WebOvpn.Snmp

open Text

def max64 : Nat := 18446744073709551615

def counterEntry (base : Oid) (type : NumberType) (maximum : Nat) (row : VarBind) :
    Option (Option (Nat × Nat)) :=
  match suffixOf base row.oid with
  | some [index] =>
    if 0 < index ∧ index ≤ max31 then (integer row type 0 maximum).map fun n => some (index, n) else none
  | _ => none

abbrev CounterColumn := List (Nat × Nat)

def counterColumn (answer : Answer) (base : Oid) (type : NumberType) (maximum : Nat) :
    Option CounterColumn :=
  Dict.collect (counterEntry base type maximum) answer.rows

structure CounterSample where
  portKey : Text
  ifIndex : Option Nat
  sysUptimeTicks : Option Nat
  inErrors : Option Nat
  inDiscards : Option Nat
  outErrors : Option Nat
  outDiscards : Option Nat
  inOctets : Option Nat
  outOctets : Option Nat
  octetCounterBits : Nat

structure OctetColumns where
  inOctets : CounterColumn
  outOctets : CounterColumn
  fallbackIn : CounterColumn
  fallbackOut : CounterColumn

structure DetailColumns where
  inErrors : CounterColumn
  outErrors : CounterColumn
  inDiscards : CounterColumn
  outDiscards : CounterColumn

structure CounterAnswers where
  inOctets : Answer
  outOctets : Answer
  inErrors : Answer
  outErrors : Answer
  inDiscards : Answer
  outDiscards : Answer

def fallbackColumns : Option (Answer × Answer) → Option (CounterColumn × CounterColumn)
  | none => some ([], [])
  | some (inOctets, outOctets) => do
      let fallbackIn ← counterColumn inOctets ifInOctets .counter32 max32
      let fallbackOut ← counterColumn outOctets ifOutOctets .counter32 max32
      return (fallbackIn, fallbackOut)

def octetColumns (answers : CounterAnswers) (fallback : Option (Answer × Answer)) :
    Option OctetColumns := do
  let inOctets ← counterColumn answers.inOctets ifHcInOctets .counter64 max64
  let outOctets ← counterColumn answers.outOctets ifHcOutOctets .counter64 max64
  let (fallbackIn, fallbackOut) ← fallbackColumns fallback
  return ⟨inOctets, outOctets, fallbackIn, fallbackOut⟩

def detailColumns (answers : CounterAnswers) : Option DetailColumns := do
  let inErrors ← counterColumn answers.inErrors ifInErrors .counter32 max32
  let outErrors ← counterColumn answers.outErrors ifOutErrors .counter32 max32
  let inDiscards ← counterColumn answers.inDiscards ifInDiscards .counter32 max32
  let outDiscards ← counterColumn answers.outDiscards ifOutDiscards .counter32 max32
  return ⟨inErrors, outErrors, inDiscards, outDiscards⟩

namespace OctetColumns

variable (columns : OctetColumns) (index : Nat)

def isObserved : Bool :=
  ((columns.inOctets.lookup index).isSome && (columns.outOctets.lookup index).isSome) ||
    ((columns.fallbackIn.lookup index).isSome && (columns.fallbackOut.lookup index).isSome)

/-- The octets are taken from the counters of 32 bits. -/
def takesFallback : Bool :=
  ((columns.inOctets.lookup index).isNone || (columns.outOctets.lookup index).isNone) &&
    (columns.fallbackIn.lookup index).isSome && (columns.fallbackOut.lookup index).isSome

end OctetColumns

def counterSample (octets : OctetColumns) (details : DetailColumns) (sysUptimeTicks : Option Nat)
    (entry : Nat × SwitchPort) : CounterSample where
  portKey := entry.2.portKey
  ifIndex := some entry.1
  sysUptimeTicks := sysUptimeTicks
  inErrors := details.inErrors.lookup entry.1
  inDiscards := details.inDiscards.lookup entry.1
  outErrors := details.outErrors.lookup entry.1
  outDiscards := details.outDiscards.lookup entry.1
  inOctets :=
    if octets.takesFallback entry.1 then octets.fallbackIn.lookup entry.1 else octets.inOctets.lookup entry.1
  outOctets :=
    if octets.takesFallback entry.1 then octets.fallbackOut.lookup entry.1 else octets.outOctets.lookup entry.1
  octetCounterBits := if octets.takesFallback entry.1 then 32 else 64

def parseCounterSamples (answers : CounterAnswers) (fallback : Option (Answer × Answer))
    (ports : List SwitchPort)
    (sysUptimeTicks : Option Nat) : Option (List CounterSample) := do
  let octets ← octetColumns answers fallback
  let details ← detailColumns answers
  let observed := (portsByIfIndex ports).filter fun entry => octets.isObserved entry.1
  return (Dict.sortBy (fun i j => i ≤ j) observed).map (counterSample octets details sysUptimeTicks)

end WebOvpn.Snmp

namespace WebOvpn

namespace Snmp

open Text
open SwitchStore (SnmpOutcome SwitchFdbEntry)

/-- The outcome is one of `_USABLE_REQUIRED_OUTCOMES`. -/
def CapabilityResult.isUsable (result : CapabilityResult) : Bool :=
  result.outcome = .successWithRows || result.outcome = .successEmpty

def rowsOf (results : List CapabilityResult) : List VarBind := results.flatMap CapabilityResult.rows

def failureOf (results : List CapabilityResult) : Option CapabilityResult :=
  results.find? fun result => !result.isUsable

def groupResult (capability : Text) (outcome : SnmpOutcome) (count : Nat)
    (errorCode errorMessage : Text) :
    CapabilityResult where
  capability := capability
  outcome := outcome
  rows := []
  errorCode := errorCode
  errorMessage := errorMessage
  details := if count = 0 then [] else [("normalized_row_count", count)]

def parsedGroup {β : Type} (capability : Text) (rows : List β) : CapabilityResult :=
  groupResult capability (if rows.isEmpty then .successEmpty else .successWithRows) rows.length [] []

def propagate (capability : Text) (failure : CapabilityResult) : CapabilityResult :=
  groupResult capability failure.outcome 0 failure.errorCode failure.errorMessage

def parseErrorOf (capability errorCode errorMessage : Text) : CapabilityResult :=
  groupResult capability .parseError 0 errorCode errorMessage

def parseErrors (results : List CapabilityResult) (errorCode errorMessage : Text) :
    List CapabilityResult :=
  results.map fun result => parseErrorOf result.capability errorCode errorMessage

def requiredFailure (results : List CapabilityResult) : Option CapabilityResult :=
  (failureOf results).map fun failure =>
    groupResult "fdb" failure.outcome 0 "required_capability_failed"
      "Required SNMP collection was not successful"

namespace Transport

variable (t : Transport)

def getAs (oid : Oid) (capability : Text) : CapabilityResult := (t.get oid).result capability

def walkAs (oid : Oid) (capability : Text) : CapabilityResult := (t.walk oid).result capability

def systemResults : List CapabilityResult :=
  [t.getAs sysDescr "sys_descr", t.getAs sysObjectId "sys_object_id",
    t.getAs sysUptime "sys_uptime", t.getAs sysName "sys_name",
    t.getAs sysLocation "sys_location"]

/-- `_IF_TABLE_CAPABILITIES`. -/
def ifResults : List CapabilityResult :=
  [t.walkAs ifIndex "if_index", t.walkAs ifDescr "if_descr", t.walkAs ifSpeed "if_speed",
    t.walkAs ifPhysAddress "if_phys_address", t.walkAs ifAdminStatus "if_admin_status",
    t.walkAs ifOperStatus "if_oper_status"]

/-- `_IFX_TABLE_CAPABILITIES`. -/
def ifxResults : List CapabilityResult :=
  [t.walkAs ifName "if_name", t.walkAs ifHighSpeed "if_high_speed", t.walkAs ifAlias "if_alias"]

def bridgeResult : CapabilityResult := t.walkAs dot1dBasePortIfindex "bridge_port_ifindex"

/-- What must not fail for the forwarding database to count. -/
def required : List CapabilityResult := t.systemResults ++ t.ifResults ++ [t.bridgeResult]

end Transport

structure IfxState where
  accepted : List CapabilityResult
  reported : List CapabilityResult
  ports : List SwitchPort

/-- One turn of the loop. -/
def ifxStep (ifResults : List CapabilityResult) (bridgeToIfIndex : List (Nat × Nat)) (state : IfxState)
    (result : CapabilityResult) : IfxState :=
  if result.isUsable then
    match parseInterfaces (rowsOf ifResults) (rowsOf (state.accepted ++ [result])) bridgeToIfIndex with
    | none =>
      { state with
        reported := state.reported ++
          parseErrors [result] "malformed_ifx" "SNMP IFX rows are malformed" }
    | some enriched => ⟨state.accepted ++ [result], state.reported ++ [result], enriched⟩
  else { state with reported := state.reported ++ [result] }

def parseOptionalIfx (ifResults ifxResults : List CapabilityResult) (bridgeToIfIndex : List (Nat × Nat))
    (corePorts : List SwitchPort) : IfxState :=
  ifxResults.foldl (ifxStep ifResults bridgeToIfIndex) ⟨[], [], corePorts⟩

/-- What is known of the interfaces. -/
structure InterfacePart where
  bridgeToIfIndex : List (Nat × Nat)
  ports : List SwitchPort
  reported : List CapabilityResult

def corePorts (t : Transport) : Option (List (Nat × Nat) × List SwitchPort) := do
  let bridgeToIfIndex ← parseBridgePortMap t.bridgeResult.rows
  let ports ← parseInterfaces (rowsOf t.ifResults) [] bridgeToIfIndex
  return (bridgeToIfIndex, ports)

/-- The interfaces; bad rows are an error unless a required walk has failed. -/
def interfacePart (t : Transport) : Option InterfacePart :=
  match corePorts t with
  | none => if (requiredFailure t.required).isNone then none else some ⟨[], [], t.ifxResults⟩
  | some (bridgeToIfIndex, ports) =>
    let state := parseOptionalIfx t.ifResults t.ifxResults bridgeToIfIndex ports
    some ⟨bridgeToIfIndex, state.ports, state.reported⟩

/-- What is known of the forwarding database. -/
structure FdbPart where
  fdb : List SwitchFdbEntry
  final : CapabilityResult
  reported : List CapabilityResult
  rejected : Nat

def malformedFdb : CapabilityResult :=
  parseErrorOf "fdb" "malformed_fdb" "SNMP FDB rows are malformed"

def legacyResults (t : Transport) : List CapabilityResult :=
  [t.walkAs dot1dFdbAddress "legacy_address", t.walkAs dot1dFdbPort "legacy_port",
    t.walkAs dot1dFdbStatus "legacy_status"]

def collectLegacyFdb (t : Transport) (profile : PortProfile) (tables : PortTables)
    (emptyFallback : Option CapabilityResult) : FdbPart :=
  match failureOf (legacyResults t) with
  | some failure => ⟨[], emptyFallback.getD (propagate "fdb" failure), legacyResults t, 0⟩
  | none =>
    if (legacyResults t).all fun result => result.outcome = .successEmpty then
      ⟨[], emptyFallback.getD (groupResult "fdb" .successEmpty 0 [] []), legacyResults t, 0⟩
    else
      match parseLegacyFdb profile tables (t.walk dot1dFdbAddress) (t.walk dot1dFdbPort)
        (t.walk dot1dFdbStatus) with
      | none =>
        ⟨[], emptyFallback.getD malformedFdb, legacyResults t ++
            [parseErrorOf "legacy_fdb" "malformed_fdb" "Legacy SNMP FDB rows are malformed"], 0⟩
      | some [] => ⟨[], emptyFallback.getD (groupResult "fdb" .successEmpty 0 [] []), legacyResults t, 0⟩
      | some (entry :: entries) => ⟨entry :: entries, parsedGroup "fdb" (entry :: entries), legacyResults t, 0⟩

def qbridgePort (t : Transport) : CapabilityResult := t.walkAs dot1qFdbPort "qbridge_port"

def qbridgeStatus (t : Transport) : CapabilityResult := t.walkAs dot1qFdbStatus "qbridge_status"

def vlanFdbId (t : Transport) : CapabilityResult := t.walkAs dot1qVlanFdbId "vlan_fdb_id"

def Transport.qbridgeRows (t : Transport) : Option QbridgeRows :=
  Snmp.qbridgeRows (t.walk dot1qFdbPort) (t.walk dot1qFdbStatus) (t.walk dot1qVlanFdbId)

/-- The forwarding database when Q-BRIDGE has rows. -/
def collectQbridgeFdb (t : Transport) (profile : PortProfile) (tables : PortTables) : FdbPart :=
  if (qbridgeStatus t).isUsable then
    if (vlanFdbId t).isUsable || (vlanFdbId t).outcome = .unsupportedNoSuchObject then
      match t.qbridgeRows with
      | none => ⟨[], malformedFdb, [qbridgePort t, qbridgeStatus t, vlanFdbId t], 0⟩
      | some rows =>
        ⟨rows.entries profile tables, if (rows.entries profile tables).isEmpty then malformedFdb
          else parsedGroup "fdb" (rows.entries profile tables),
          [qbridgePort t, qbridgeStatus t, vlanFdbId t], rows.rejected profile tables⟩
    else ⟨[], propagate "fdb" (vlanFdbId t), [qbridgePort t, qbridgeStatus t, vlanFdbId t], 0⟩
  else ⟨[], propagate "fdb" (qbridgeStatus t), [qbridgePort t, qbridgeStatus t], 0⟩

def FdbPart.after (part : FdbPart) (result : CapabilityResult) : FdbPart :=
  { part with reported := result :: part.reported }

/-- The forwarding database, from Q-BRIDGE or from the older table. -/
def collectFdb (t : Transport) (profile : PortProfile) (tables : PortTables) : FdbPart :=
  match (qbridgePort t).outcome with
  | .successEmpty =>
    (collectLegacyFdb t profile tables (some (groupResult "fdb" .successEmpty 0 [] []))).after (qbridgePort t)
  | .successWithRows => collectQbridgeFdb t profile tables
  | .unsupportedNoSuchObject => (collectLegacyFdb t profile tables none).after (qbridgePort t)
  | _ => ⟨[], propagate "fdb" (qbridgePort t), [qbridgePort t], 0⟩

def rejectedRows (count : Nat) : CapabilityResult where
  capability := "qbridge_fdb_rejected_rows"
  outcome := .parseError
  rows := []
  errorCode := "invalid_fdb_rows_rejected"
  errorMessage := "Invalid SNMP FDB rows were rejected"
  details := [("rejected_row_count", count)]

/-- The forwarding database that counts, with its result last. -/
def settleFdb (required : Option CapabilityResult) (part : FdbPart) :
    List SwitchFdbEntry × List CapabilityResult :=
  match required with
  | some failure => ([], part.reported ++ [failure])
  | none =>
    if part.rejected ≠ 0 ∧ part.fdb ≠ [] ∧ part.final.outcome = .successWithRows then
      (part.fdb, part.reported ++ [rejectedRows part.rejected, part.final])
    else (part.fdb, part.reported ++ [part.final])

def vlanResults (t : Transport) : List CapabilityResult :=
  [t.walkAs dot1qVlanCurrentEgress "vlan_current_egress",
    t.walkAs dot1qVlanCurrentUntagged "vlan_current_untagged", t.walkAs dot1qPvid "pvid"]

def vlanPart (t : Transport) (profile : PortProfile) (tables : PortTables) :
    List VlanMembership × List CapabilityResult :=
  if profile ∈ [PortProfile.snr, .tplink, .css326] then
    if (vlanResults t).all CapabilityResult.isUsable then
      match parseVlanMemberships profile tables (t.walk dot1qVlanCurrentEgress) (t.walk dot1qVlanCurrentUntagged)
          (t.walk dot1qPvid) with
      | none => ([], parseErrors (vlanResults t) "malformed_vlan" "SNMP VLAN rows are malformed")
      | some memberships => (memberships, vlanResults t)
    else ([], vlanResults t)
  else ([], [])

def stpAnswers (t : Transport) : StpAnswers where
  protocol := t.get dot1dStpProtocol
  topologyChanges := t.get dot1dStpTopologyChanges
  designatedRoot := t.get dot1dStpDesignatedRoot
  rootCost := t.get dot1dStpRootCost
  rootPort := t.get dot1dStpRootPort

def stpResults (t : Transport) : List CapabilityResult :=
  [t.getAs dot1dStpProtocol "stp_protocol", t.getAs dot1dStpTopologyChanges "stp_topology_changes",
    t.getAs dot1dStpDesignatedRoot "stp_designated_root", t.getAs dot1dStpRootCost "stp_root_cost",
    t.getAs dot1dStpRootPort "stp_root_port"]

/-- The spanning tree, and what is reported of it. -/
def stpPart (t : Transport) (profile : PortProfile) (tables : PortTables) :
    Option StpState × List CapabilityResult :=
  if profile = .snr then
    if (stpResults t).all fun result => result.outcome = .successWithRows then
      match parseStp profile tables (stpAnswers t) with
      | none => (none, parseErrors (stpResults t) "malformed_stp" "SNMP STP rows are malformed")
      | some stp => (some stp, stpResults t)
    else (none, stpResults t)
  else (none, [])

def lldpAnswers (t : Transport) : LldpAnswers where
  chassisId := t.walk lldpRemChassisId
  portId := t.walk lldpRemPortId
  systemName := t.walk lldpRemSysName
  chassisIdSubtype := t.walk lldpRemChassisIdSubtype
  portIdSubtype := t.walk lldpRemPortIdSubtype
  portDescription := t.walk lldpRemPortDesc
  systemDescription := t.walk lldpRemSysDesc
  systemCapabilities := t.walk lldpRemSysCapSupported
  enabledCapabilities := t.walk lldpRemSysCapEnabled
  managementAddress := t.walk lldpRemManAddrIfSubtype

def lldpCoreResults (t : Transport) : List CapabilityResult :=
  [t.walkAs lldpRemChassisId "lldp_remote_chassis_id", t.walkAs lldpRemPortId "lldp_remote_port_id",
    t.walkAs lldpRemSysName "lldp_remote_system_name"]

def lldpEnrichmentResults (t : Transport) : List CapabilityResult :=
  [t.walkAs lldpRemChassisIdSubtype "lldp_remote_chassis_id_subtype",
    t.walkAs lldpRemPortIdSubtype "lldp_remote_port_id_subtype",
    t.walkAs lldpRemPortDesc "lldp_remote_port_description",
    t.walkAs lldpRemSysDesc "lldp_remote_system_description",
    t.walkAs lldpRemSysCapSupported "lldp_remote_system_capabilities",
    t.walkAs lldpRemSysCapEnabled "lldp_remote_enabled_capabilities",
    t.walkAs lldpRemManAddrIfSubtype "lldp_remote_management_address"]

/-- The neighbours, and what is reported of them. -/
def lldpPart (rt : Runtime) (t : Transport) (ports : List SwitchPort) :
    List LldpNeighbor × List CapabilityResult :=
  match failureOf (lldpCoreResults t) with
  | some failure => ([], lldpCoreResults t ++ lldpEnrichmentResults t ++ [propagate "lldp_remote" failure])
  | none =>
    match parseLldpNeighbors rt ports (lldpAnswers t) with
    | none =>
      ([], parseErrors (lldpCoreResults t) "malformed_lldp" (text "SNMP LLDP rows are malformed") ++
        lldpEnrichmentResults t ++
          [parseErrorOf "lldp_remote" "malformed_lldp" "SNMP LLDP rows are malformed"])
    | some neighbors =>
      (neighbors, lldpCoreResults t ++ lldpEnrichmentResults t ++ [parsedGroup "lldp_remote" neighbors])

def hcOctetResults (t : Transport) : List CapabilityResult :=
  [t.walkAs ifHcInOctets "if_hc_in_octets", t.walkAs ifHcOutOctets "if_hc_out_octets"]

def fallbackOctetResults (t : Transport) : List CapabilityResult :=
  [t.walkAs ifInOctets "if_in_octets", t.walkAs ifOutOctets "if_out_octets"]

def counterDetailResults (t : Transport) : List CapabilityResult :=
  [t.walkAs ifInErrors "if_in_errors", t.walkAs ifOutErrors "if_out_errors",
    t.walkAs ifInDiscards "if_in_discards", t.walkAs ifOutDiscards "if_out_discards"]

def counterAnswers (t : Transport) : CounterAnswers where
  inOctets := t.walk ifHcInOctets
  outOctets := t.walk ifHcOutOctets
  inErrors := t.walk ifInErrors
  outErrors := t.walk ifOutErrors
  inDiscards := t.walk ifInDiscards
  outDiscards := t.walk ifOutDiscards

def columnIfIndexes (answer : Answer) (base : Oid) : List Nat :=
  answer.rows.filterMap fun row =>
    match suffixOf base row.oid with
    | some [index] => if 0 < index then some index else none
    | _ => none

/-- The interfaces with both counters of 64 bits. -/
def hcPairIfIndexes (t : Transport) : List Nat :=
  (columnIfIndexes (t.walk ifHcInOctets) ifHcInOctets).filter
    (columnIfIndexes (t.walk ifHcOutOctets) ifHcOutOctets).contains

def asksFallback (t : Transport) (ports : List SwitchPort) : Bool :=
  ((hcOctetResults t).all fun result => result.isUsable || result.outcome = .unsupportedNoSuchObject) &&
    (((hcOctetResults t).any fun result => result.outcome = .unsupportedNoSuchObject) ||
      (ports.filterMap SwitchPort.ifIndex).any fun index => !(hcPairIfIndexes t).contains index)

def counterFailure (t : Transport) (ports : List SwitchPort) : Option CapabilityResult :=
  match failureOf (counterDetailResults t) with
  | some failure => some failure
  | none =>
    if asksFallback t ports then
      if (ports.filterMap SwitchPort.ifIndex).any (hcPairIfIndexes t).contains then none
      else failureOf (fallbackOctetResults t)
    else failureOf (hcOctetResults t)

def usableFallback (t : Transport) (ports : List SwitchPort) : Option (Answer × Answer) :=
  if asksFallback t ports && (failureOf (fallbackOctetResults t)).isNone then
    some (t.walk ifInOctets, t.walk ifOutOctets)
  else none

def counterResults (t : Transport) (ports : List SwitchPort) : List CapabilityResult :=
  hcOctetResults t ++ (if asksFallback t ports then fallbackOctetResults t else []) ++ counterDetailResults t

def counterPart (t : Transport) (ports : List SwitchPort) (sysUptimeTicks : Option Nat) :
    List CounterSample × List CapabilityResult :=
  match counterFailure t ports with
  | some failure => ([], counterResults t ports ++ [propagate "counter_samples" failure])
  | none =>
    match parseCounterSamples (counterAnswers t) (usableFallback t ports) ports sysUptimeTicks with
    | none =>
      ([], counterResults t ports ++
        [parseErrorOf "counter_samples" "malformed_counters" "SNMP counter rows are malformed"])
    | some samples => (samples, counterResults t ports ++ [parsedGroup "counter_samples" samples])

structure Snapshot where
  profileId : Text
  profileFingerprint : Text
  system : SwitchSystem
  ports : List SwitchPort
  fdb : List SwitchFdbEntry
  vlanMemberships : List VlanMembership
  stp : Option StpState
  lldpNeighbors : List LldpNeighbor
  counterSamples : List CounterSample
  capabilities : List CapabilityResult

/-- What a collection has read before the forwarding database: the system, the
interfaces, and the profile with its ports. -/
structure Groundwork where
  system : SwitchSystem
  interfaces : InterfacePart
  profile : PortProfile

def Groundwork.ports (ground : Groundwork) : List SwitchPort :=
  ground.profile.normalizePorts ground.interfaces.ports

def Groundwork.tables (ground : Groundwork) : PortTables :=
  ⟨ground.interfaces.bridgeToIfIndex, portsByIfIndex ground.ports⟩

/-- The first half of `collect_switch_snapshot`; `none` is a `ValueError`. -/
def groundwork (rt : Runtime) (t : Transport) (hint : ProfileHint) : Option Groundwork := do
  let system ← parseSystem (rowsOf t.systemResults)
  let interfaces ← interfacePart t
  let profile ← detectProfile rt system hint
  return ⟨system, interfaces, profile⟩

/-- The second half of `collect_switch_snapshot`, which does not fail. -/
def Groundwork.snapshot (ground : Groundwork) (rt : Runtime) (t : Transport) : Snapshot :=
  let fdb := settleFdb (requiredFailure t.required) (collectFdb t ground.profile ground.tables)
  let vlan := vlanPart t ground.profile ground.tables
  let stp := stpPart t ground.profile ground.tables
  let lldp := lldpPart rt t ground.ports
  let counters := counterPart t ground.ports ground.system.sysUptimeTicks
  { profileId := ground.profile.profileId
    profileFingerprint := ground.profile.profileFingerprint
    system := ground.system
    ports := ground.ports
    fdb := fdb.1
    vlanMemberships := vlan.1
    stp := stp.1
    lldpNeighbors := lldp.1
    counterSamples := counters.1
    capabilities :=
      t.systemResults ++ t.ifResults ++ ground.interfaces.reported ++ [t.bridgeResult] ++ fdb.2 ++
        vlan.2 ++ stp.2 ++
        lldp.2 ++ counters.2 }

def collectSwitchSnapshot (rt : Runtime) (t : Transport) (hint : ProfileHint) : Option Snapshot :=
  (groundwork rt t hint).map fun ground => ground.snapshot rt t

open Text
open SwitchStore (validText validOptionalInt validMac)

def sqliteIntegerMax : Nat := 9223372036854775807

def validOptional (minimum maximum : Nat) (value : Option Nat) : Bool :=
  validOptionalInt minimum maximum (value.map Int.ofNat)

def validSystem (system : SwitchSystem) : Bool := validOptional 0 sqliteIntegerMax system.sysUptimeTicks

def validPort (port : SwitchPort) : Bool :=
  validText port.portKey && validOptional 1 2147483647 port.ifIndex && validOptional 1 65535 port.bridgePort &&
    validOptional 1 65535 port.physicalPort && port.mac.all validMac && validText port.adminStatus &&
      validText port.operStatus && validOptional 0 sqliteIntegerMax port.speedBps

def validRejectedRows (result : CapabilityResult) : Bool :=
  result.outcome = .parseError && result.rows.isEmpty && result.errorCode = "invalid_fdb_rows_rejected" &&
    result.errorMessage = "Invalid SNMP FDB rows were rejected" &&
      match result.details with
      | [(key, count)] => key = "rejected_row_count" && 1 ≤ count && count ≤ sqliteIntegerMax
      | _ => false

def validCapability (result : CapabilityResult) : Bool :=
  validText result.capability &&
    (result.capability ≠ "qbridge_fdb_rejected_rows" || validRejectedRows result)

def validCounterSample (sample : CounterSample) : Bool :=
  validText sample.portKey && validOptional 1 2147483647 sample.ifIndex &&
    validOptional 0 sqliteIntegerMax sample.sysUptimeTicks &&
      ([sample.inErrors, sample.inDiscards, sample.outErrors, sample.outDiscards].all (validOptional 0 max32)) &&
        (sample.octetCounterBits = 32 || sample.octetCounterBits = 64) &&
          [sample.inOctets, sample.outOctets].all (validOptional 0 (2 ^ sample.octetCounterBits - 1))

/-- The checks of `_validate_snapshot` on what only the other tables are written from. -/
def validDetails (snapshot : Snapshot) : Bool :=
  validSystem snapshot.system && validText snapshot.profileId && validText snapshot.profileFingerprint &&
    snapshot.ports.all validPort && snapshot.capabilities.all validCapability &&
      snapshot.counterSamples.all validCounterSample

def CapabilityResult.stored (result : CapabilityResult) : SwitchStore.CapabilityResult :=
  ⟨result.capability, result.outcome⟩

def Snapshot.stored (snapshot : Snapshot) : SwitchStore.SwitchSnapshot Snapshot where
  profileId := snapshot.profileId
  sysUptimeTicks := snapshot.system.sysUptimeTicks.map Int.ofNat
  portKeys := snapshot.ports.map SwitchPort.portKey
  fdb := snapshot.fdb
  capabilities := snapshot.capabilities.map CapabilityResult.stored
  counterPortKeys := snapshot.counterSamples.map CounterSample.portKey
  details := snapshot

/-- The store, whatever it writes to its other tables. -/
def storeDetails {ρ : Type}
    (save : Nat → Nat → SwitchStore.SwitchSnapshot Snapshot → Text → ρ → Option ρ) :
    SwitchStore.Details Snapshot ρ where
  isValid stored := validDetails stored.details
  save := save

def IsAccepted (snapshot : Snapshot) : Prop :=
  ∀ (ρ : Type) (save : Nat → Nat → SwitchStore.SwitchSnapshot Snapshot → Text → ρ → Option ρ),
    (SwitchStore.validate (storeDetails save) snapshot.stored).isSome = true

end Snmp

end WebOvpn
