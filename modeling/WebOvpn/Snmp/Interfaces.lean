/-
What a switch answers over SNMP: values under numeric object identifiers, the scalars of
the system, and its interfaces and bridge ports.
-/
import WebOvpn.Lib.Codes
import WebOvpn.Lib.ConfigParser
import WebOvpn.Lib.Dict
import WebOvpn.Netctl.SwitchStore

namespace WebOvpn.Snmp

open Text
open SwitchStore (SnmpOutcome SwitchFdbEntry)

abbrev Oid := List Nat

inductive NumberType where
  | integer
  | unsigned32
  | gauge32
  | counter32
  | counter64
  | timeTicks
  deriving DecidableEq

inductive Value where
  | number (type : NumberType) (n : Int)
  | objectIdentifier (value : Text)
  | ipAddress (value : Text)
  | octetString (data : Bytes)
  | string (value : Text)
  deriving DecidableEq

structure VarBind where
  oid : Oid
  value : Value
  oid_ne : oid ≠ []
  deriving DecidableEq

/-- The outcomes of requests that fail. -/
inductive Failure where
  | noSuchObject
  | timeout
  | authOrView
  | parseError
  deriving DecidableEq

def Failure.outcome : Failure → SnmpOutcome
  | .noSuchObject => .unsupportedNoSuchObject
  | .timeout => .timeout
  | .authOrView => .authOrViewFailure
  | .parseError => .parseError

inductive Answer where
  | success (rows : List VarBind)
  | failed (failure : Failure) (errorCode errorMessage : Text)

def Answer.rows : Answer → List VarBind
  | .success rows => rows
  | .failed .. => []

def maxWalkRows : Nat := 10000

structure Transport where
  get : Oid → Answer
  walk : Oid → Answer
  walk_bounded : ∀ oid, (walk oid).rows.length ≤ maxWalkRows

structure CapabilityResult where
  capability : Text
  outcome : SnmpOutcome
  rows : List VarBind
  errorCode : Text
  errorMessage : Text
  details : List (Text × Nat)

def Answer.result (capability : Text) : Answer → CapabilityResult
  | .success rows =>
    ⟨capability, if rows.isEmpty then .successEmpty else .successWithRows, rows, [], [], []⟩
  | .failed failure errorCode errorMessage =>
    ⟨capability, failure.outcome, [], errorCode, errorMessage, []⟩

/-- What Python tells of characters: `\w`, and `str.isprintable`. -/
structure Runtime where
  isWord : CodePoint → Bool
  isPrintable : CodePoint → Bool

def sysDescr : Oid := [1, 3, 6, 1, 2, 1, 1, 1, 0]
def sysObjectId : Oid := [1, 3, 6, 1, 2, 1, 1, 2, 0]
def sysUptime : Oid := [1, 3, 6, 1, 2, 1, 1, 3, 0]
def sysName : Oid := [1, 3, 6, 1, 2, 1, 1, 5, 0]
def sysLocation : Oid := [1, 3, 6, 1, 2, 1, 1, 6, 0]

def ifEntry : Oid := [1, 3, 6, 1, 2, 1, 2, 2, 1]
def ifIndex : Oid := ifEntry ++ [1]
def ifDescr : Oid := ifEntry ++ [2]
def ifSpeed : Oid := ifEntry ++ [5]
def ifPhysAddress : Oid := ifEntry ++ [6]
def ifAdminStatus : Oid := ifEntry ++ [7]
def ifOperStatus : Oid := ifEntry ++ [8]
def ifInOctets : Oid := ifEntry ++ [10]
def ifInDiscards : Oid := ifEntry ++ [13]
def ifInErrors : Oid := ifEntry ++ [14]
def ifOutOctets : Oid := ifEntry ++ [16]
def ifOutDiscards : Oid := ifEntry ++ [19]
def ifOutErrors : Oid := ifEntry ++ [20]

def ifxEntry : Oid := [1, 3, 6, 1, 2, 1, 31, 1, 1, 1]
def ifName : Oid := ifxEntry ++ [1]
def ifHcInOctets : Oid := ifxEntry ++ [6]
def ifHcOutOctets : Oid := ifxEntry ++ [10]
def ifHighSpeed : Oid := ifxEntry ++ [15]
def ifAlias : Oid := ifxEntry ++ [18]

def bridgeMib : Oid := [1, 3, 6, 1, 2, 1, 17]
def dot1dBasePortIfindex : Oid := bridgeMib ++ [1, 4, 1, 2]
def dot1dFdbAddress : Oid := bridgeMib ++ [4, 3, 1, 1]
def dot1dFdbPort : Oid := bridgeMib ++ [4, 3, 1, 2]
def dot1dFdbStatus : Oid := bridgeMib ++ [4, 3, 1, 3]
def dot1qFdbPort : Oid := bridgeMib ++ [7, 1, 2, 2, 1, 2]
def dot1qFdbStatus : Oid := bridgeMib ++ [7, 1, 2, 2, 1, 3]
def dot1qVlanFdbId : Oid := bridgeMib ++ [7, 1, 4, 2, 1, 3]
def dot1qVlanCurrentEgress : Oid := bridgeMib ++ [7, 1, 4, 2, 1, 4]
def dot1qVlanCurrentUntagged : Oid := bridgeMib ++ [7, 1, 4, 2, 1, 5]
def dot1qPvid : Oid := bridgeMib ++ [7, 1, 4, 5, 1, 1]
def dot1dStpProtocol : Oid := bridgeMib ++ [2, 1, 0]
def dot1dStpTopologyChanges : Oid := bridgeMib ++ [2, 4, 0]
def dot1dStpDesignatedRoot : Oid := bridgeMib ++ [2, 5, 0]
def dot1dStpRootCost : Oid := bridgeMib ++ [2, 6, 0]
def dot1dStpRootPort : Oid := bridgeMib ++ [2, 7, 0]

def lldpRemEntry : Oid := [1, 0, 8802, 1, 1, 2, 1, 4, 1, 1]
def lldpRemChassisIdSubtype : Oid := lldpRemEntry ++ [4]
def lldpRemChassisId : Oid := lldpRemEntry ++ [5]
def lldpRemPortIdSubtype : Oid := lldpRemEntry ++ [6]
def lldpRemPortId : Oid := lldpRemEntry ++ [7]
def lldpRemPortDesc : Oid := lldpRemEntry ++ [8]
def lldpRemSysName : Oid := lldpRemEntry ++ [9]
def lldpRemSysDesc : Oid := lldpRemEntry ++ [10]
def lldpRemSysCapSupported : Oid := lldpRemEntry ++ [11]
def lldpRemSysCapEnabled : Oid := lldpRemEntry ++ [12]
def lldpRemManAddrIfSubtype : Oid := [1, 0, 8802, 1, 1, 2, 1, 4, 2, 1, 3]

def suffixOf (base oid : Oid) : Option Oid :=
  if base.isPrefixOf oid then some (oid.drop base.length) else none

def max32 : Nat := 4294967295

/-- The greatest number of 31 bits, for indexes of interfaces. -/
def max31 : Nat := 2147483647

/-- `_integer`: a number of the type, in a range; `none` is a `ValueError`. -/
def integer (row : VarBind) (type : NumberType) (minimum maximum : Nat) : Option Nat :=
  match row.value with
  | .number kind n => if kind = type ∧ (minimum : Int) ≤ n ∧ n ≤ maximum then some n.toNat else none
  | _ => none

def compatibleIntegral (row : VarBind) (minimum maximum : Nat) : Option Nat :=
  match row.value with
  | .number kind n =>
    if kind ∈ [NumberType.integer, .unsigned32, .gauge32] ∧ (minimum : Int) ≤ n ∧ n ≤ maximum then some n.toNat
    else none
  | _ => none

def octets (row : VarBind) : Option Bytes :=
  match row.value with
  | .octetString data => some data
  | _ => none

def rowText (row : VarBind) : Option Text := (octets row).bind decode

theorem integer_range {row : VarBind} {type : NumberType} {minimum maximum n : Nat}
    (h : integer row type minimum maximum = some n) : minimum ≤ n ∧ n ≤ maximum := by
  unfold integer at h
  split at h
  · split at h
    · cases h
      omega
    · cases h
  · cases h

def hexDigit (n : Nat) : CodePoint := Fin.ofNat _ (if n % 16 < 10 then 48 + n % 16 else 55 + n % 16)

def hexOctet (n : Nat) : Text := [hexDigit (n / 16), hexDigit n]

def hexOctets : List Nat → Text
  | [] => []
  | [n] => hexOctet n
  | n :: rest => hexOctet n ++ CodePoint.ofChar ':' :: hexOctets rest

def normalizeMac (octets : List Nat) : Option Text :=
  if octets.length = 6 ∧ ∀ n ∈ octets, n ≤ 255 then some (hexOctets octets) else none

structure SwitchSystem where
  sysDescr : Text
  sysObjectId : Text
  sysName : Text
  sysLocation : Text
  sysUptimeTicks : Option Nat

inductive Scalar where
  | text (value : Text)
  | ticks (n : Nat)
  deriving DecidableEq

def rowObjectIdentifier (row : VarBind) : Option Text :=
  match row.value with
  | .objectIdentifier value =>
    if (value.splitOn (CodePoint.ofChar '.')).all fun part => !part.isEmpty &&
      part.all CodePoint.isDigit then some value
    else none
  | _ => none

def systemEntry (row : VarBind) : Option (Option (Oid × Scalar)) :=
  if row.oid ∈ [sysDescr, sysName, sysLocation] then (rowText row).map fun value => some (row.oid, .text value)
  else if row.oid = sysObjectId then (rowObjectIdentifier row).map fun value => some (row.oid, .text value)
  else if row.oid = sysUptime then (integer row .timeTicks 0 max32).map fun n => some (row.oid, .ticks n)
  else some none

def scalarText (parsed : List (Oid × Scalar)) (oid : Oid) : Text :=
  match parsed.lookup oid with
  | some (.text value) => value
  | some (.ticks n) => Decimal.render n
  | none => []

def parseSystem (rows : List VarBind) : Option SwitchSystem := do
  let parsed ← Dict.collect systemEntry rows
  return {
    sysDescr := scalarText parsed sysDescr
    sysObjectId := scalarText parsed sysObjectId
    sysName := scalarText parsed sysName
    sysLocation := scalarText parsed sysLocation
    sysUptimeTicks :=
      match parsed.lookup sysUptime with
      | some (.ticks n) => some n
      | _ => none }

open List

def bridgeEntry (row : VarBind) : Option (Option (Nat × Nat)) :=
  match suffixOf dot1dBasePortIfindex row.oid with
  | none => some none
  | some [bridgePort] =>
    if 0 < bridgePort ∧ bridgePort ≤ 65535 then
      (integer row .integer 1 max31).map fun index => some (bridgePort, index)
    else none
  | some _ => none

/-- `parse_bridge_port_map`: neither a bridge port nor an interface has two others. -/
def parseBridgePortMap (rows : List VarBind) : Option (List (Nat × Nat)) := do
  let result ← Dict.collect bridgeEntry rows
  let _ ← Dict.collect (fun row => (bridgeEntry row).map (Option.map Prod.swap)) rows
  return result

inductive Column where
  | index
  | descr
  | speed
  | physAddress
  | adminStatus
  | operStatus
  | name
  | highSpeed
  | aliasText
  deriving DecidableEq

def Column.oid : Column → Oid
  | .index => ifIndex
  | .descr => ifDescr
  | .speed => ifSpeed
  | .physAddress => ifPhysAddress
  | .adminStatus => ifAdminStatus
  | .operStatus => ifOperStatus
  | .name => ifName
  | .highSpeed => ifHighSpeed
  | .aliasText => ifAlias

def interfaceColumns : List Column :=
  [.index, .descr, .speed, .physAddress, .adminStatus, .operStatus, .name, .highSpeed, .aliasText]

def locate (oid : Oid) : Option (Option (Column × Nat)) :=
  match interfaceColumns.findSome? fun column => (suffixOf column.oid oid).map fun suffix =>
    (column, suffix) with
  | none => some none
  | some (column, [index]) => if 0 < index ∧ index ≤ max31 then some (some (column, index)) else none
  | some _ => none

inductive Cell where
  | number (n : Nat)
  | text (value : Text)
  | mac (value : Option Text)
  deriving DecidableEq

def cell (column : Column) (index : Nat) (row : VarBind) : Option Cell :=
  match column with
  | .index => (integer row .integer 1 max31).bind fun n => if n = index then some (.number n) else none
  | .descr | .name | .aliasText => (rowText row).map .text
  | .physAddress =>
    (octets row).bind fun data =>
      if data.isEmpty then some (.mac none)
        else (normalizeMac (data.map UInt8.toNat)).map fun mac => .mac (some mac)
  | .speed | .highSpeed => (integer row .gauge32 0 max32).map .number
  | .adminStatus => (integer row .integer 1 3).map .number
  | .operStatus => (integer row .integer 1 7).map .number

def interfaceEntry (row : VarBind) : Option (Option ((Nat × Column) × Cell)) :=
  match locate row.oid with
  | none => none
  | some none => some none
  | some (some (column, index)) => (cell column index row).map fun value => some ((index, column), value)

abbrev InterfaceTable := List ((Nat × Column) × Cell)

namespace InterfaceTable

variable (table : InterfaceTable) (index : Nat)

def number (column : Column) : Option Nat :=
  match table.lookup (index, column) with
  | some (.number n) => some n
  | _ => none

def text (column : Column) : Option Text :=
  match table.lookup (index, column) with
  | some (.text value) => some value
  | _ => none

def mac : Option Text :=
  match table.lookup (index, .physAddress) with
  | some (.mac value) => value
  | _ => none

/-- The interfaces that have an `ifIndex`, in order. -/
def indexes : List Nat :=
  (table.filterMap fun entry => if entry.1.2 = .index then some entry.1.1 else none).insertionSort
    fun i j => i ≤ j

end InterfaceTable

structure SwitchPort where
  portKey : Text
  ifIndex : Option Nat
  bridgePort : Option Nat
  physicalPort : Option Nat
  name : Text
  aliasText : Text
  mac : Option Text
  adminStatus : Text
  operStatus : Text
  speedBps : Option Nat
  deriving DecidableEq

def adminStatusText : Nat → Text
  | 1 => "up"
  | 2 => "down"
  | 3 => "testing"
  | n => text "unknown:" ++ Decimal.render n

def operStatusText : Nat → Text
  | 1 => "up"
  | 2 => "down"
  | 3 => "testing"
  | 4 => "unknown"
  | 5 => "dormant"
  | 6 => "not_present"
  | 7 => "lower_layer_down"
  | n => text "unknown:" ++ Decimal.render n

/-- The key of an interface that no profile knows better. -/
def ifIndexKey (index : Nat) : Text := text "ifindex:" ++ Decimal.render index

/-- The speed, which is that of `ifHighSpeed` where `ifSpeed` has no room for it. -/
def speedBps (speed highSpeed : Option Nat) : Option Nat :=
  match highSpeed with
  | some high => if speed.all fun bps => bps = 0 || max32 ≤ bps then some (high * 1000000) else speed
  | none => speed

def portOf (table : InterfaceTable) (bridgeByIfIndex : List (Nat × Nat)) (index : Nat) : SwitchPort where
  portKey := ifIndexKey index
  ifIndex := some index
  bridgePort := bridgeByIfIndex.lookup index
  physicalPort := none
  name := (((table.text index .name).filter (· ≠ [])).or ((table.text index .descr).filter (· ≠ []))).getD
    (text "ifIndex " ++ Decimal.render index)
  aliasText := (table.text index .aliasText).getD []
  mac := table.mac index
  adminStatus := ((table.number index .adminStatus).map adminStatusText).getD "unknown"
  operStatus := ((table.number index .operStatus).map operStatusText).getD "unknown"
  speedBps := speedBps (table.number index .speed) (table.number index .highSpeed)

/-- The bridge port of an interface, from an entry of the bridge map. -/
def reverseEntry (entry : Nat × Nat) : Option (Option (Nat × Nat)) :=
  if 0 < entry.1 ∧ entry.1 ≤ 65535 ∧ 0 < entry.2 ∧ entry.2 ≤ max31 then some (some (entry.2, entry.1)) else none

def parseInterfaces (ifRows ifxRows : List VarBind) (bridgeToIfIndex : List (Nat × Nat)) :
    Option (List SwitchPort) := do
  let table ← Dict.collect interfaceEntry (ifRows ++ ifxRows)
  let bridgeByIfIndex ← Dict.collect reverseEntry bridgeToIfIndex
  if bridgeToIfIndex.all fun entry => InterfaceTable.indexes table |>.contains entry.2 then
    return (InterfaceTable.indexes table).map (portOf table bridgeByIfIndex)
  else none

theorem bridgeEntry_range {row : VarBind} {bridgePort index : Nat}
    (h : bridgeEntry row = some (some (bridgePort, index))) :
    (0 < bridgePort ∧ bridgePort ≤ 65535) ∧ 0 < index ∧ index ≤ max31 := by
  unfold bridgeEntry at h
  split at h
  · cases h
  · split at h
    · rename_i hrn
      obtain ⟨n, hn, heq⟩ := Option.map_eq_some_iff.1 h
      cases heq
      exact ⟨hrn, integer_range hn⟩
    · cases h
  · cases h

structure BridgeMap (bridge : List (Nat × Nat)) : Prop where
  ports : (bridge.map Prod.fst).Nodup
  interfaces : (bridge.map Prod.snd).Nodup
  range : ∀ entry ∈ bridge, (0 < entry.1 ∧ entry.1 ≤ 65535) ∧ 0 < entry.2 ∧ entry.2 ≤ max31

theorem bridgeMap_of_parse {rows : List VarBind} {bridge : List (Nat × Nat)}
    (h : parseBridgePortMap rows = some bridge) :
    BridgeMap bridge := by
  unfold parseBridgePortMap at h
  obtain ⟨result, hrs, h⟩ := Option.bind_eq_some_iff.1 h
  obtain ⟨reverse, hrv, h⟩ := Option.bind_eq_some_iff.1 h
  cases h
  have hrn : ∀ entry ∈ bridge, (0 < entry.1 ∧ entry.1 ≤ 65535) ∧ 0 < entry.2 ∧ entry.2 ≤ max31 := by
    intro entry hen
    obtain ⟨row, -, hrow⟩ := (Dict.mem_collect hrs entry).1 hen
    exact bridgeEntry_range hrow
  refine ⟨Dict.nodup_collect hrs, ?_, hrn⟩
  -- an interface with two bridge ports would be refused in the reverse map
  have hbc : ∀ entry ∈ bridge, entry.swap ∈ reverse := by
    intro entry hen
    obtain ⟨row, hrow, heq⟩ := (Dict.mem_collect hrs entry).1 hen
    refine (Dict.mem_collect hrv entry.swap).2 ⟨row, hrow, ?_⟩
    rw [heq]
    rfl
  rw [Nodup, pairwise_map]
  apply (pairwise_map.1 (Dict.nodup_collect hrs)).imp_of_mem
  intro a b ha hb hne hsm
  have hlo := (lookup_of_mem (Dict.nodup_collect hrv) (hbc a ha)).symm
  have hlo' := lookup_of_mem (Dict.nodup_collect hrv) (hbc b hb)
  rw [hsm] at hlo
  exact hne (Option.some.inj (hlo.trans hlo'))

def FromRow (entry : (Nat × Column) × Cell) : Prop :=
  (0 < entry.1.1 ∧ entry.1.1 ≤ max31) ∧ ∃ row, cell entry.1.2 entry.1.1 row = some entry.2

theorem locate_range {oid : Oid} {column : Column} {index : Nat}
    (h : locate oid = some (some (column, index))) :
    0 < index ∧ index ≤ max31 := by
  unfold locate at h
  split at h
  · cases h
  · split at h
    · cases h
      assumption
    · cases h
  · cases h

theorem fromRow_of_collect {rows : List VarBind} {table : InterfaceTable}
    (h : Dict.collect interfaceEntry rows = some table) :
    ∀ entry ∈ table, FromRow entry := by
  intro entry hen
  obtain ⟨row, -, hrow⟩ := (Dict.mem_collect h entry).1 hen
  unfold interfaceEntry at hrow
  split at hrow
  · cases hrow
  · cases hrow
  · rename_i column index hlc
    obtain ⟨value, hv, heq⟩ := Option.map_eq_some_iff.1 hrow
    cases heq
    exact ⟨locate_range hlc, row, hv⟩

namespace InterfaceTable

variable {table : InterfaceTable} {index : Nat}

theorem mem_indexes : index ∈ table.indexes ↔ ∃ value, ((index, Column.index), value) ∈ table := by
  unfold indexes
  rw [mem_insertionSort, mem_filterMap]
  constructor
  · rintro ⟨⟨⟨i, column⟩, value⟩, hen, heq⟩
    dsimp only at heq
    split at heq <;> cases heq
    subst_vars
    exact ⟨value, hen⟩
  · rintro ⟨value, hen⟩
    exact ⟨_, hen, by simp⟩

theorem nodup_indexes (h : (table.map Prod.fst).Nodup) : table.indexes.Nodup := by
  unfold indexes
  rw [(perm_insertionSort _ _).nodup_iff, Nodup, pairwise_filterMap]
  apply (pairwise_map.1 h).imp
  rintro ⟨⟨i, column⟩, value⟩ ⟨⟨j, column'⟩, value'⟩ hne k hk l hl
  dsimp only at hne hk hl
  split at hk <;> cases hk
  split at hl <;> cases hl
  subst_vars
  rintro rfl
  exact hne rfl

end InterfaceTable

/-- The ports of the interfaces, before a profile has seen them. -/
structure PlainPorts (bridge : List (Nat × Nat)) (ports : List SwitchPort) : Prop where
  bridgeMap : BridgeMap bridge
  indexes : (ports.map SwitchPort.ifIndex).Nodup
  known : ∀ entry ∈ bridge, ∃ port ∈ ports, port.ifIndex = some entry.2
  ports : ∀ port ∈ ports, ∃ table bridgeByIfIndex index, (0 < index ∧ index ≤ max31) ∧
    (∀ entry ∈ table, FromRow entry) ∧
    (∀ bridgePort, bridgeByIfIndex.lookup index = some bridgePort ↔ (bridgePort, index) ∈ bridge) ∧
    port = portOf table bridgeByIfIndex index

theorem plainPorts_nil : PlainPorts [] [] where
  bridgeMap := ⟨nodup_nil, nodup_nil, fun _ h => absurd h not_mem_nil⟩
  indexes := nodup_nil
  known _ h := absurd h not_mem_nil
  ports _ h := absurd h not_mem_nil

theorem lookup_reverse {bridge reverse : List (Nat × Nat)}
    (h : Dict.collect reverseEntry bridge = some reverse)
    (index bridgePort : Nat) : reverse.lookup index = some bridgePort ↔
      (bridgePort, index) ∈ bridge := by
  rw [Dict.lookup_collect h]
  constructor
  · rintro ⟨⟨b, i⟩, hen, heq⟩
    unfold reverseEntry at heq
    split at heq <;> cases heq
    exact hen
  · intro hen
    refine ⟨_, hen, ?_⟩
    have hsm := (Dict.foldlM_spec h nodup_nil).2.2 _ hen
    unfold reverseEntry at hsm ⊢
    split at hsm
    · rename_i hrn
      exact if_pos hrn
    · cases hsm

theorem plainPorts_of_parse {ifRows ifxRows : List VarBind} {bridge : List (Nat × Nat)}
    {ports : List SwitchPort}
    (hbri : BridgeMap bridge) (h : parseInterfaces ifRows ifxRows bridge = some ports) :
      PlainPorts bridge ports := by
  unfold parseInterfaces at h
  obtain ⟨table, htb, h⟩ := Option.bind_eq_some_iff.1 h
  obtain ⟨reverse, hrv, h⟩ := Option.bind_eq_some_iff.1 h
  split at h
  · rename_i hkn
    cases h
    refine ⟨hbri, ?_, ?_, ?_⟩
    · rw [map_map]
      apply (InterfaceTable.nodup_indexes (Dict.nodup_collect htb)).map
      intro i j heq
      exact Option.some.inj heq
    · intro entry hen
      have hmem := all_eq_true.1 hkn entry hen
      rw [contains_iff_mem] at hmem
      exact ⟨_, mem_map_of_mem hmem, rfl⟩
    · intro port hpr
      obtain ⟨index, hidx, rfl⟩ := mem_map.1 hpr
      obtain ⟨value, hv⟩ := InterfaceTable.mem_indexes.1 hidx
      exact ⟨table, reverse, index, (fromRow_of_collect htb _ hv).1, fromRow_of_collect htb,
        fun bridgePort => lookup_reverse hrv index bridgePort, rfl⟩
  · cases h

end WebOvpn.Snmp
