/-
The forwarding database from the rows of Q-BRIDGE, whose rows are rejected one by
one, and from the rows of the older table, of which one bad row spoils all; the VLAN
memberships, the scalars of the spanning tree and the LLDP neighbours.
-/
import WebOvpn.Lib.Ipv4
import WebOvpn.Snmp.Interfaces

namespace WebOvpn.Snmp

open Text

inductive PortProfile where
  | generic
  | dgs
  | snr
  | tplink
  | css326
  deriving DecidableEq

namespace PortProfile

def profileId : PortProfile → Text
  | generic => "generic"
  | dgs => "dgs"
  | snr => "snr"
  | tplink => "tplink"
  | css326 => "css326"

def profileFingerprint (profile : PortProfile) : Text := profile.profileId ++ ":v1"

end PortProfile

/-- `(?=$|[ /])`. -/
def endsWord (rest : Text) : Bool :=
  rest.isEmpty || rest = "\n" || rest.head?.any fun c => c = CodePoint.ofChar ' ' || c = CodePoint.ofChar '/'

/-- `\b` between two characters, either of which may be missing. -/
def isBoundary (rt : Runtime) (before after : Option CodePoint) : Bool :=
  before.any rt.isWord != after.any rt.isWord

/-- `re.search` of a pattern that starts with `\b`, by what matches from a place on. -/
def searchWord (rt : Runtime) (matchesAt : Text → Bool) (value : Text) : Bool :=
  (List.range (value.length + 1)).any fun place =>
    isBoundary rt (value.take place).getLast? (value.drop place).head? && matchesAt (value.drop place)

/-- `T1600G-[0-9]+[A-Z0-9-]*\b` from a place on. -/
def matchesT1600g (rt : Runtime) (rest : Text) : Bool :=
  (text "T1600G-").isPrefixOf rest &&
    match rest.drop 7 with
    | [] => false
    | first :: more =>
      first.isDigit &&
        (List.range ((more.takeWhile fun c => c.isUpper || c.isDigit ||
          c = CodePoint.ofChar '-').length + 1)).any
          fun length => isBoundary rt (first :: more.take length).getLast? (more.drop length).head?

/-- `CSS326-24G-2S\+?(?=$|[ /])` from a place on. -/
def matchesCss326 (rest : Text) : Bool :=
  (text "CSS326-24G-2S").isPrefixOf rest &&
    (endsWord (rest.drop 13) || ((rest.drop 13).head? = some (CodePoint.ofChar '+') && endsWord (rest.drop 14)))

def dgsMatches (system : SwitchSystem) : Bool :=
  (text "WS6-DGS-1210-52").isPrefixOf system.sysDescr && endsWord (system.sysDescr.drop 15) &&
    system.sysObjectId = "1.3.6.1.4.1.171.10.153.7.1"

def snrMatches (system : SwitchSystem) : Bool :=
  system.sysObjectId = "1.3.6.1.4.1.57206" || (text "1.3.6.1.4.1.57206.").isPrefixOf system.sysObjectId

def tplinkMatches (rt : Runtime) (system : SwitchSystem) : Bool :=
  searchWord rt (matchesT1600g rt) system.sysDescr ||
    (system.sysObjectId = "1.3.6.1.4.1.11863.5.29" &&
      system.sysDescr = "JetStream 48-Port Gigabit Smart Switch with 4 SFP Slots")

def css326Matches (rt : Runtime) (system : SwitchSystem) : Bool :=
  searchWord rt matchesCss326 system.sysDescr

def PortProfile.isMatch (rt : Runtime) (system : SwitchSystem) : PortProfile → Bool
  | .generic => true
  | .dgs => dgsMatches system
  | .snr => snrMatches system
  | .tplink => tplinkMatches rt system
  | .css326 => css326Matches rt system

inductive ProfileHint where
  | absent
  | hint (value : Text)
  | notText
  deriving DecidableEq

def detectProfile (rt : Runtime) (system : SwitchSystem) : ProfileHint → Option PortProfile
  | .notText => none
  | .absent =>
    some (([PortProfile.dgs, .snr, .tplink, .css326].find? (PortProfile.isMatch rt system)).getD
    .generic)
  | .hint value =>
    match [PortProfile.generic, .dgs, .snr, .tplink, .css326].find? fun profile =>
      profile.profileId = value with
    | none => none
    | some profile => if profile.isMatch rt system then some profile else none

structure PortResolution where
  portKey : Text
  ifIndex : Option Nat
  bridgePort : Option Nat
  physicalPort : Option Nat
  portName : Text

def portsByIfIndex (ports : List SwitchPort) : List (Nat × SwitchPort) :=
  Dict.ofList (ports.filterMap fun port => port.ifIndex.map fun index => (index, port))

structure PortTables where
  bridgeToIfIndex : List (Nat × Nat)
  ports : List (Nat × SwitchPort)

def physicalKey (physicalPort : Nat) : Text := text "physical:" ++ Decimal.render physicalPort

def baseResolveBridgePort (tables : PortTables) (bridgePort : Nat) : Option PortResolution := do
  let index ← tables.bridgeToIfIndex.lookup bridgePort
  let port ← tables.ports.lookup index
  return ⟨port.portKey, port.ifIndex, some bridgePort, port.physicalPort, port.name⟩

inductive FdbMode where
  | qbridge
  | legacy
  deriving DecidableEq

/-- The digits after a text, without a leading zero: `([1-9][0-9]*)\Z`. -/
def positiveDigits (digits : Text) : Bool :=
  match digits with
  | [] => false
  | first :: rest => first.isDigit && first.val ≠ 48 && rest.all CodePoint.isDigit

def frontPanelPort (port : SwitchPort) : Option Nat :=
  if (text "front-").isPrefixOf port.name && positiveDigits (port.name.drop 6) then
    let physicalPort := Decimal.value (port.name.drop 6)
    if 1 ≤ physicalPort ∧ physicalPort ≤ 52 then some physicalPort else none
  else none

/-- A port of the front panel whose bridge port is its number and which no other port names. -/
def isFrontPanel (ports : List SwitchPort) (port : SwitchPort) (physicalPort : Nat) : Bool :=
  port.bridgePort = some physicalPort &&
    ports.countP (fun candidate => frontPanelPort candidate = some physicalPort) = 1

def dgsNormalizePorts (ports : List SwitchPort) : List SwitchPort :=
  ports.map fun port =>
    match frontPanelPort port with
    | none => port
    | some physicalPort =>
      if isFrontPanel ports port physicalPort then
        { port with portKey := physicalKey physicalPort, physicalPort := some physicalPort }
      else port

def dgsResolveFdbPort (tables : PortTables) (raw : Nat) (mode : FdbMode) : Option PortResolution := do
  let resolution ← baseResolveBridgePort tables raw
  if mode ≠ .qbridge then return resolution
  else
    match resolution.ifIndex.bind fun index => tables.ports.lookup index with
    | none => return resolution
    | some port =>
      if frontPanelPort port = some raw ∧
          ((tables.ports.map Prod.snd).filter fun candidate => frontPanelPort candidate = some raw) = [port] then
        return { resolution with portKey := physicalKey raw, physicalPort := some raw }
      else return resolution

def digitsAfter (names : List String) (value : Text) : Option Text :=
  if lower (value.take 2) ∈ names.map text ∧ positiveDigits (value.drop 2) then some (value.drop 2) else none

def snrLagName : Text → Option Text := digitsAfter ["po"]

def snrPortName : Text → Option Text := digitsAfter ["ge", "xe"]

def snrResolutionFromPort (port : SwitchPort) : Option PortResolution := do
  let index ← port.ifIndex
  let bridgePort ← port.bridgePort
  match snrLagName port.name with
  | some digits => return ⟨text "lag:po" ++ digits, some index, some bridgePort, none, port.name⟩
  | none =>
    if (snrPortName port.name).isSome then
      return ⟨physicalKey bridgePort, some index, some bridgePort, some bridgePort, port.name⟩
    else return ⟨port.portKey, some index, some bridgePort, port.physicalPort, port.name⟩

def snrResolveBridgePort (tables : PortTables) (bridgePort : Nat) : Option PortResolution := do
  let resolution ← baseResolveBridgePort tables bridgePort
  let port ← resolution.ifIndex.bind fun index => tables.ports.lookup index
  snrResolutionFromPort port

def snrResolutionForIfIndex (tables : PortTables) (index : Nat) : Option PortResolution := do
  let port ← tables.ports.lookup index
  match (tables.bridgeToIfIndex.filter fun entry => entry.2 = index).map Prod.fst with
  | [bridgePort] => if port.bridgePort = some bridgePort then snrResolutionFromPort port else none
  | _ => none

def snrResolveFdbPort (tables : PortTables) (raw : Nat) : FdbMode → Option PortResolution
  | .qbridge => snrResolutionForIfIndex tables (if raw = 31071 then 100001 else raw)
  | .legacy => snrResolveBridgePort tables raw

def tplinkResolveFdbPort (tables : PortTables) (raw : Nat) : Option PortResolution := do
  let port ← tables.ports.lookup (49152 + raw)
  let index ← port.ifIndex
  let bridgePort ← port.bridgePort
  return ⟨physicalKey raw, some index, some bridgePort, some raw, port.name⟩

def css326NormalizePorts (ports : List SwitchPort) : List SwitchPort :=
  ports.map fun port =>
    match port.bridgePort with
    | none => port
    | some bridgePort =>
      if 1 ≤ bridgePort ∧ bridgePort ≤ 26 ∧ port.ifIndex = some bridgePort then
        { port with portKey := physicalKey bridgePort, physicalPort := some bridgePort }
      else port

def css326ResolveFdbPort (tables : PortTables) (raw : Nat) (mode : FdbMode) : Option PortResolution := do
  if mode = .legacy ∧ 1 ≤ raw ∧ raw ≤ 26 ∧ tables.bridgeToIfIndex.lookup raw = some raw then
    let port ← tables.ports.lookup raw
    if port.bridgePort =
      some raw then return ⟨physicalKey raw, some raw, some raw, some raw, port.name⟩ else none
  else none

namespace PortProfile

def normalizePorts (ports : List SwitchPort) : PortProfile → List SwitchPort
  | dgs => dgsNormalizePorts ports
  | css326 => css326NormalizePorts ports
  | _ => ports

def resolveFdbPort (tables : PortTables) (raw : Nat) (mode : FdbMode) :
    PortProfile → Option PortResolution
  | generic => baseResolveBridgePort tables raw
  | dgs => dgsResolveFdbPort tables raw mode
  | snr => snrResolveFdbPort tables raw mode
  | tplink => tplinkResolveFdbPort tables raw
  | css326 => css326ResolveFdbPort tables raw mode

def resolveBridgePort (tables : PortTables) (bridgePort : Nat) : PortProfile → Option PortResolution
  | snr => snrResolveBridgePort tables bridgePort
  | _ => baseResolveBridgePort tables bridgePort

def resolveStpRootPort (tables : PortTables) (raw : Nat) (profile : PortProfile) :
    Option PortResolution :=
  if profile = snr ∧ raw = 927 then snrResolutionForIfIndex tables 5023 else profile.resolveBridgePort tables raw

/-- `qbridge_fid_mode` is `proven_equals_vid`, or a profile does the same of its own. -/
def fidIsVid : PortProfile → Bool
  | dgs | snr | tplink => true
  | generic | css326 => false

end PortProfile

def vidKey (vid : Nat) : Text := text "vid:" ++ Decimal.render vid

def fidKey (fid : Nat) : Text := text "fid:" ++ Decimal.render fid

/-- `resolve_fdb_vlan`, where `vids` are those of the FDB id: the key and the VLAN. -/
def PortProfile.resolveFdbVlan (fid : Nat) (vids : List Nat) (profile : PortProfile) :
    Text × Option Nat :=
  match vids with
  | [vid] => (vidKey vid, some vid)
  | [] => if profile.fidIsVid ∧ fid ≤ 4094 then (vidKey fid, some fid) else (fidKey fid, none)
  | _ => (fidKey fid, none)

end WebOvpn.Snmp

namespace WebOvpn

namespace Snmp

open Text
open SwitchStore (SwitchFdbEntry)

def Answer.successfulRows : Answer → Option (List VarBind)
  | .success rows => some rows
  | .failed .. => none

def indexedEntry (base : Oid) (suffixLength : Nat) (row : VarBind) : Option (Option (Oid × VarBind)) :=
  match suffixOf base row.oid with
  | none => none
  | some suffix => if suffix.length = suffixLength then some (some (suffix, row)) else none

def indexedRows (answer : Answer) (base : Oid) (suffixLength : Nat) : Option (List (Oid × VarBind)) :=
  answer.successfulRows.bind fun rows => Dict.collect (indexedEntry base suffixLength) rows

def sortByIndex {β : Type} (rows : List (Oid × β)) : List (Oid × β) :=
  Dict.sortBy (fun i j => i ≤ j) rows

def sameKeys {κ β γ : Type} [DecidableEq κ] (rows : List (κ × β)) (others : List (κ × γ)) : Bool :=
  (rows.map Prod.fst).all (others.map Prod.fst).contains &&
    (others.map Prod.fst).all (rows.map Prod.fst).contains

def vlanFdbEntry (row : VarBind) : Option (Option (Nat × Nat)) :=
  match suffixOf dot1qVlanFdbId row.oid with
  | some [timeMark, vid] =>
    if timeMark ≤ max32 ∧ 1 ≤ vid ∧ vid ≤ 4094 then (compatibleIntegral row 1 max32).map fun fid =>
      some (vid, fid)
    else none
  | _ => none

def fidsByVid : Answer → Option (List (Nat × Nat))
  | .failed .noSuchObject _ _ => some []
  | .failed .. => none
  | .success rows => Dict.collect vlanFdbEntry rows

/-- The VLANs of an FDB id. -/
def vidsOf (fids : List (Nat × Nat)) (fid : Nat) : List Nat :=
  (fids.filter fun entry => entry.2 = fid).map Prod.fst

def fdbStatusText : Nat → Text
  | 1 => "other"
  | 2 => "invalid"
  | 3 => "learned"
  | 4 => "self"
  | _ => "mgmt"

def fdbStatus (row : VarBind) : Option Text := (integer row .integer 1 5).map fdbStatusText

def PortResolution.fdbEntry (resolution : PortResolution) (fdbId : Option Nat) (vlan : Text × Option Nat)
    (mac status : Text) : SwitchFdbEntry where
  fdbId := fdbId.map Int.ofNat
  vlanKey := vlan.1
  vlanId := vlan.2.map Int.ofNat
  mac := mac
  portKey := resolution.portKey
  bridgePort := resolution.bridgePort.map Int.ofNat
  ifIndex := resolution.ifIndex.map Int.ofNat
  physicalPort := resolution.physicalPort.map Int.ofNat
  portName := resolution.portName
  status := status

def locateRow (profile : PortProfile) (tables : PortTables) (mode : FdbMode)
    (portRow statusRow : VarBind) :
    Option (PortResolution × Text) := do
  let raw ← integer portRow .integer 1 65535
  let resolution ← profile.resolveFdbPort tables raw mode
  let status ← fdbStatus statusRow
  return (resolution, status)

def fdbIndex : Oid → Option (Nat × Text)
  | fid :: octets => if 0 < fid ∧ fid ≤ max32 then (normalizeMac octets).map fun mac =>
    (fid, mac) else none
  | [] => none

def qbridgeEntry (profile : PortProfile) (tables : PortTables) (fids : List (Nat × Nat))
    (statusRows : List (Oid × VarBind)) (row : Oid × VarBind) : Option SwitchFdbEntry := do
  let (fid, mac) ← fdbIndex row.1
  let statusRow ← statusRows.lookup row.1
  let (resolution, status) ← locateRow profile tables .qbridge row.2 statusRow
  return resolution.fdbEntry (some fid) (profile.resolveFdbVlan fid (vidsOf fids fid)) mac status

/-- The rows of the three tables of Q-BRIDGE. -/
structure QbridgeRows where
  portRows : List (Oid × VarBind)
  statusRows : List (Oid × VarBind)
  fids : List (Nat × Nat)

def qbridgeRows (port status vlanFdbId : Answer) : Option QbridgeRows := do
  let portRows ← indexedRows port dot1qFdbPort 7
  let statusRows ← indexedRows status dot1qFdbStatus 7
  let fids ← fidsByVid vlanFdbId
  if sameKeys portRows statusRows && portRows.all (fun row => (fdbIndex row.1).isSome) then
    return ⟨portRows, statusRows, fids⟩
  else none

def QbridgeRows.entries (rows : QbridgeRows) (profile : PortProfile) (tables : PortTables) :
    List SwitchFdbEntry :=
  (sortByIndex rows.portRows).filterMap (qbridgeEntry profile tables rows.fids rows.statusRows)

def QbridgeRows.rejected (rows : QbridgeRows) (profile : PortProfile) (tables : PortTables) : Nat :=
  rows.portRows.countP fun row => (qbridgeEntry profile tables rows.fids rows.statusRows row).isNone

def legacyMac (row : Oid × VarBind) : Option Text := do
  let mac ← normalizeMac row.1
  let data ← octets row.2
  let address ← normalizeMac (data.map UInt8.toNat)
  if address = mac then return mac else none

def legacyEntry (profile : PortProfile) (tables : PortTables)
    (portRows statusRows : List (Oid × VarBind))
    (row : Oid × VarBind) : Option SwitchFdbEntry := do
  let mac ← legacyMac row
  let portRow ← portRows.lookup row.1
  let statusRow ← statusRows.lookup row.1
  let (resolution, status) ← locateRow profile tables .legacy portRow statusRow
  return resolution.fdbEntry none ("legacy:unknown", none) mac status

def parseLegacyFdb (profile : PortProfile) (tables : PortTables) (address port status : Answer) :
    Option (List SwitchFdbEntry) := do
  let addresses ← indexedRows address dot1dFdbAddress 6
  let portRows ← indexedRows port dot1dFdbPort 6
  let statusRows ← indexedRows status dot1dFdbStatus 6
  let entries ← (sortByIndex addresses).mapM (legacyEntry profile tables portRows statusRows)
  if sameKeys portRows addresses && sameKeys statusRows addresses then return entries else none

open Text

/-- What a membership may be. -/
inductive VlanFlag where
  | egress
  | untagged
  | pvid
  deriving DecidableEq

structure VlanMembership where
  vlanId : Nat
  portKey : Text
  ifIndex : Option Nat
  bridgePort : Option Nat
  physicalPort : Option Nat
  portName : Text
  egress : Bool
  untagged : Bool
  pvid : Bool

/-- The VLAN and the port. -/
abbrev MembershipKey := Nat × Text

def VlanMembership.key (row : VlanMembership) : MembershipKey := (row.vlanId, row.portKey)

def VlanMembership.mark (row : VlanMembership) : VlanFlag → VlanMembership
  | .egress => { row with egress := true }
  | .untagged => { row with untagged := true }
  | .pvid => { row with pvid := true }

def PortResolution.membership (resolution : PortResolution) (vlanId : Nat) : VlanMembership where
  vlanId := vlanId
  portKey := resolution.portKey
  ifIndex := resolution.ifIndex
  bridgePort := resolution.bridgePort
  physicalPort := resolution.physicalPort
  portName := resolution.portName
  egress := false
  untagged := false
  pvid := false

structure VlanMark where
  vlanId : Nat
  bridgePort : Nat
  flag : VlanFlag

def bitmapBridgePorts (data : Bytes) : List Nat :=
  data.zipIdx.flatMap fun entry =>
    (List.range 8).filterMap fun bit =>
      if entry.1.toNat.testBit (7 - bit) then some (entry.2 * 8 + bit + 1) else none

def bitmapMarks (base : Oid) (flag : VlanFlag) (row : VarBind) : Option (List VlanMark) :=
  match suffixOf base row.oid with
  | some [timeMark, vlanId] =>
    if timeMark ≤ max32 ∧ 1 ≤ vlanId ∧ vlanId ≤ 4094 then
      (octets row).map fun data => (bitmapBridgePorts data).map fun bridgePort => ⟨vlanId, bridgePort, flag⟩
    else none
  | _ => none

def pvidMark (row : VarBind) : Option VlanMark :=
  match suffixOf dot1qPvid row.oid with
  | some [bridgePort] =>
    if 1 ≤ bridgePort ∧ bridgePort ≤ 65535 then
      (compatibleIntegral row 1 4094).map fun vlanId => ⟨vlanId, bridgePort, .pvid⟩
    else none
  | _ => none

def vlanMarks (egress untagged pvid : Answer) : Option (List VlanMark) := do
  let egressRows ← egress.successfulRows
  let egressMarks ← egressRows.mapM (bitmapMarks dot1qVlanCurrentEgress .egress)
  let untaggedRows ← untagged.successfulRows
  let untaggedMarks ← untaggedRows.mapM (bitmapMarks dot1qVlanCurrentUntagged .untagged)
  let pvidRows ← pvid.successfulRows
  let pvidMarks ← pvidRows.mapM pvidMark
  return egressMarks.flatten ++ untaggedMarks.flatten ++ pvidMarks

def addMark (profile : PortProfile) (tables : PortTables)
    (values : List (MembershipKey × VlanMembership))
    (mark : VlanMark) : Option (List (MembershipKey × VlanMembership)) := do
  let resolution ← profile.resolveBridgePort tables mark.bridgePort
  let key := (mark.vlanId, resolution.portKey)
  let row := (values.lookup key).getD (resolution.membership mark.vlanId)
  return Dict.set values key (row.mark mark.flag)

def membershipLe (a b : MembershipKey) : Bool := if a.1 = b.1 then Text.le a.2 b.2 else a.1 ≤ b.1

def parseVlanMemberships (profile : PortProfile) (tables : PortTables) (egress untagged pvid : Answer) :
    Option (List VlanMembership) := do
  let marks ← vlanMarks egress untagged pvid
  let values ← marks.foldlM (addMark profile tables) []
  return (Dict.sortBy membershipLe values).map Prod.snd

/-- The dictionary that `parse_stp` returns. -/
structure StpState where
  protocol : Text
  rootBridgeMac : Text
  rootPortRaw : Nat
  rootPortKey : Text
  rootPathCost : Nat
  topologyChanges : Nat

def stpProtocolText : Nat → Text
  | 1 => "unknown"
  | 2 => "dec_lb100"
  | 3 => "ieee8021d"
  | 4 => "ieee8021q"
  | 5 => "rstp"
  | n => text "unknown:" ++ Decimal.render n

def scalarRow (answer : Answer) (oid : Oid) : Option VarBind :=
  match answer with
  | .success [row] => if row.oid = oid then some row else none
  | _ => none

/-- The last six octets of the identifier of a bridge. -/
def rootMac (row : VarBind) : Option Text :=
  (octets row).bind fun data => if data.length = 8 then normalizeMac ((data.drop 2).map UInt8.toNat) else none

/-- What the requests of the spanning tree give. -/
structure StpAnswers where
  protocol : Answer
  topologyChanges : Answer
  designatedRoot : Answer
  rootCost : Answer
  rootPort : Answer

def parseStp (profile : PortProfile) (tables : PortTables) (answers : StpAnswers) : Option StpState := do
  let protocolRow ← scalarRow answers.protocol dot1dStpProtocol
  let protocol ← integer protocolRow .integer 0 max32
  let changesRow ← scalarRow answers.topologyChanges dot1dStpTopologyChanges
  let changes ← integer changesRow .counter32 0 max32
  let rootRow ← scalarRow answers.designatedRoot dot1dStpDesignatedRoot
  let mac ← rootMac rootRow
  let costRow ← scalarRow answers.rootCost dot1dStpRootCost
  let cost ← integer costRow .integer 0 max32
  let portRow ← scalarRow answers.rootPort dot1dStpRootPort
  let raw ← integer portRow .integer 0 max32
  let resolution ← profile.resolveStpRootPort tables raw
  return ⟨stpProtocolText protocol, mac, raw, resolution.portKey, cost, changes⟩

open Text

/-- The time mark, the local port and the remote index of a neighbour. -/
abbrev LldpIndex := Nat × Nat × Nat

def lldpIndex : Oid → Option LldpIndex
  | [timeMark, localPort, remoteIndex] =>
    if timeMark ≤ max32 ∧ (0 < localPort ∧ localPort ≤ max31) ∧ 0 < remoteIndex ∧
      remoteIndex ≤ max32 then
      some (timeMark, localPort, remoteIndex)
    else none
  | _ => none

def lldpEntry (base : Oid) (row : VarBind) : Option (Option (LldpIndex × VarBind)) :=
  match suffixOf base row.oid with
  | none => none
  | some suffix => (lldpIndex suffix).map fun index => some (index, row)

abbrev LldpRows := List (LldpIndex × VarBind)

def lldpRows (answer : Answer) (base : Oid) : Option LldpRows :=
  answer.successfulRows.bind fun rows => Dict.collect (lldpEntry base) rows

def optionalRows (answer : Answer) (base : Oid) : LldpRows := (lldpRows answer base).getD []

def optionalValue {β : Type} (rows : LldpRows) (index : LldpIndex) (parser : VarBind → Option β)
    (default : β) : β :=
  ((rows.lookup index).bind parser).getD default

def hexText (data : Bytes) : Text := hexOctets (data.map UInt8.toNat)

def decodedText (rt : Runtime) (isRequired isIdentifier : Bool) (data : Bytes) (value : Text) :
    Option Text :=
  if isIdentifier && value.any (fun c => !rt.isPrintable c) then some (hexText data)
  else if isRequired && value.isEmpty then none
  else some value

def lldpText (rt : Runtime) (isRequired isIdentifier : Bool) (row : VarBind) : Option Text :=
  (octets row).bind fun data =>
    if isRequired && data.isEmpty then none
    else
      match decode data with
      | none => if isIdentifier then some (hexText data) else none
      | some decoded => decodedText rt isRequired isIdentifier data (strip decoded)

def chassisIdSubtypes : List Text :=
  ["chassis_component", "interface_alias", "port_component", "mac_address",
    "network_address", "interface_name", "local"]

def portIdSubtypes : List Text :=
  ["interface_alias", "port_component", "mac_address", "network_address",
    "interface_name", "agent_circuit_id", "local"]

def subtypeText (names : List Text) (row : VarBind) : Option Text :=
  (integer row .integer 1 names.length).bind fun n => names[n - 1]?

def capabilityBits : List Text :=
  ["other", "repeater", "bridge", "wlan_access_point", "router", "telephone",
    "docsis_cable_device", "station_only"]

def neighborCapabilities (row : VarBind) : Option (List Text) :=
  match octets row with
  | some [octet] =>
    some (capabilityBits.zipIdx.filterMap fun entry =>
      if octet.toNat.testBit (7 - entry.2) then some entry.1 else none)
  | _ => none

def managementEntry (row : VarBind) : Option (LldpIndex × Text) :=
  match suffixOf lldpRemManAddrIfSubtype row.oid with
  | some [timeMark, localPort, remoteIndex, 1, 4, a, b, c, d] =>
    if h : a < 256 ∧ b < 256 ∧ c < 256 ∧ d < 256 then
      (lldpIndex [timeMark, localPort, remoteIndex]).map fun index =>
        (index, (Ipv4.ofOctets ⟨a, h.1⟩ ⟨b, h.2.1⟩ ⟨c, h.2.2.1⟩ ⟨d, h.2.2.2⟩).text)
    else none
  | _ => none

def managementAddresses (answer : Answer) (index : LldpIndex) : List Text :=
  ((answer.rows.filterMap fun row =>
    (managementEntry row).bind fun entry => if entry.1 = index then some entry.2
      else none).dedup).insertionSort fun s t => Text.le s t = true

structure LldpNeighbor where
  localPortKey : Text
  chassisId : Text
  chassisIdSubtype : Text
  portId : Text
  portIdSubtype : Text
  portDescription : Text
  systemName : Text
  systemDescription : Text
  systemCapabilities : List Text
  enabledCapabilities : List Text
  managementAddresses : List Text

def localPort (ports : List SwitchPort) (number : Nat) : Option SwitchPort :=
  match ports.filter fun port => port.bridgePort = some number || port.ifIndex = some number with
  | [port] => some port
  | _ => none

/-- What the walks of LLDP give: those that every neighbour needs, and the others. -/
structure LldpAnswers where
  chassisId : Answer
  portId : Answer
  systemName : Answer
  chassisIdSubtype : Answer
  portIdSubtype : Answer
  portDescription : Answer
  systemDescription : Answer
  systemCapabilities : Answer
  enabledCapabilities : Answer
  managementAddress : Answer

def lldpNeighbor (rt : Runtime) (ports : List SwitchPort) (answers : LldpAnswers)
    (portRows nameRows : LldpRows)
    (row : LldpIndex × VarBind) : Option LldpNeighbor := do
  let port ← localPort ports row.1.2.1
  let chassisId ← lldpText rt true true row.2
  let portRow ← portRows.lookup row.1
  let portId ← lldpText rt true true portRow
  let nameRow ← nameRows.lookup row.1
  let systemName ← lldpText rt false false nameRow
  return {
    localPortKey := port.portKey
    chassisId := chassisId
    chassisIdSubtype :=
      optionalValue (optionalRows answers.chassisIdSubtype lldpRemChassisIdSubtype) row.1
        (subtypeText chassisIdSubtypes) []
    portId := portId
    portIdSubtype :=
      optionalValue (optionalRows answers.portIdSubtype lldpRemPortIdSubtype) row.1
        (subtypeText portIdSubtypes) []
    portDescription :=
      optionalValue (optionalRows answers.portDescription lldpRemPortDesc) row.1 (lldpText rt false false) []
    systemName := systemName
    systemDescription :=
      optionalValue (optionalRows answers.systemDescription lldpRemSysDesc) row.1 (lldpText rt false false) []
    systemCapabilities :=
      optionalValue (optionalRows answers.systemCapabilities lldpRemSysCapSupported) row.1
        neighborCapabilities []
    enabledCapabilities :=
      optionalValue (optionalRows answers.enabledCapabilities lldpRemSysCapEnabled) row.1 neighborCapabilities []
    managementAddresses := managementAddresses answers.managementAddress row.1 }

def lldpIndexLe (a b : LldpIndex) : Bool :=
  a.1 < b.1 || (a.1 = b.1 && (a.2.1 < b.2.1 || (a.2.1 = b.2.1 && a.2.2 ≤ b.2.2)))

def parseLldpNeighbors (rt : Runtime) (ports : List SwitchPort)
    (answers : LldpAnswers) : Option (List LldpNeighbor) := do
  let chassisRows ← lldpRows answers.chassisId lldpRemChassisId
  let portRows ← lldpRows answers.portId lldpRemPortId
  let nameRows ← lldpRows answers.systemName lldpRemSysName
  if sameKeys chassisRows portRows && sameKeys chassisRows nameRows then
    (Dict.sortBy lldpIndexLe chassisRows).mapM (lldpNeighbor rt ports answers portRows nameRows)
  else none

end Snmp

end WebOvpn
