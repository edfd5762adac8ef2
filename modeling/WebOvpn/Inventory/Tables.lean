/-
How a value of an inventory card is classified, and the tables of the inventory with
their triggers: the manual revision of a card, and the epoch of the network projection.
-/
import WebOvpn.Inventory.Relations
import WebOvpn.Lib.Json
import WebOvpn.Lib.Triggers

namespace WebOvpn.Inventory

open Text

/-- `re.search(r"\d-\d", raw)`. -/
def hasDigitRange : Text → Bool
  | a :: dash :: b :: rest =>
    (a.isDecimal && dash.val = 45 && b.isDecimal) || hasDigitRange (dash :: b :: rest)
  | _ => false

/-- The octet as `str(address)` writes it. -/
def canonicalOctet (s : Text) : Option Nat :=
  let value := s.foldl (fun acc c => acc * 10 + (c.val - 48)) 0
  if s.length ∈ [1, 2, 3] ∧ s.all CodePoint.isDigit = true ∧ (s.length = 1 ∨ s.head? ≠ some 48) ∧
    value ≤ 255 then
    some value
  else none

def validateTargetIpv4 (raw : Text) : Option Text :=
  match (raw.splitOn 46).mapM canonicalOctet with
  | some [a, b, c, d] =>
    if (a, b, c, d) = (0, 0, 0, 0) ∨ a = 127 ∨ (224 ≤ a ∧ a ≤ 239) ∨ d = 0 ∨ d = 255 then none else some raw
  | _ => none

/-- `_HOSTNAME_RE.fullmatch`. -/
def isHostname (s : Text) : Bool :=
  match s with
  | c :: rest => c.isAlnum && rest.length ≤ 252 &&
      rest.all fun c => c.isAlnum || c.val = 46 || c.val = 95 || c.val = 45
  | [] => false

inductive IdentifierType where
  | ip
  | mac
  | hostname
  | extension
  | other
  deriving DecidableEq

inductive ObservationSource where
  | netctl
  | nmap
  | manual
  | endpoint
  deriving DecidableEq

/-- `classify_identifier`; `none` is its `InventoryLookupError`. -/
def classifyIdentifier (value : Text) : Option (IdentifierType × Text) :=
  let raw := strip value
  if raw = [] ∨ 47 ∈ raw ∨ hasDigitRange raw = true then none
  else
    match validateTargetIpv4 raw, normalizeMac raw with
    | some ip, _ => some (.ip, ip)
    | none, some mac => some (.mac, mac)
    | none, none => if isHostname raw = true then some (.hostname, lower raw) else none

def normalizeIdentifier (kind : IdentifierType) (value : Text) : Option Text :=
  match classifyIdentifier value with
  | some (kind', normalized) => if kind' = kind then some normalized else none
  | none => none

/-- A row of `inventory_asset_identifiers`. -/
structure Identifier where
  asset : Text
  kind : IdentifierType
  value : Text
  normalized : Text
  source : ObservationSource
  firstSeenAt : Option Instant
  lastSeenAt : Option Instant
  isCurrent : Bool
  deriving DecidableEq

structure IdentifierCard where
  id : Text
  deleted : Bool

/-- The rows of a session: what the database holds beside what the object says
now, and the rows that are not flushed yet.  Queries do not flush, so they see
the former only. -/
structure IdentifierSession where
  rows : List (Identifier × Identifier)
  added : List Identifier

def IdentifierSession.flush (s : IdentifierSession) : List Identifier := s.rows.map Prod.snd ++ s.added

def Identifier.isNetctl (i : Identifier) (asset : Text) (kind : IdentifierType) : Bool :=
  i.asset = asset ∧ i.kind = kind ∧ i.source = .netctl ∧ i.isCurrent = true

def replaceNetctlIdentifier (s : IdentifierSession) (asset : Text) (kind : IdentifierType)
    (value normalized : Text)
    (observedAt : Instant) : IdentifierSession × Bool :=
  let current := s.rows.filter fun row => row.1.isNetctl asset kind
  let matching := current.any fun row => row.1.normalized = normalized
  let rows := s.rows.map fun row =>
    if row.1.isNetctl asset kind = true then
      if row.1.normalized ≠ normalized then (row.1, { row.2 with isCurrent := false })
      else (row.1, { row.2 with lastSeenAt := some observedAt })
    else row
  let changed := (current.any fun row => row.1.normalized ≠ normalized) || !matching
  if matching = true then (⟨rows, s.added⟩, changed)
  else (⟨rows,
    s.added ++ [⟨asset, kind, value, normalized, .netctl, some observedAt, some observedAt, true⟩]⟩,
    changed)

/-- `_netctl_observed_identifiers`; `none` is an `InventoryLookupError`. -/
def netctlObservedIdentifiers (host : Members) : Option (List (IdentifierType × Text × Text)) := do
  let found ← ([(.ip, "ip"), (.hostname, "hostname")] : List (IdentifierType × String)).mapM fun field =>
    match host.field field.2 with
    | .str raw =>
      if strip raw = [] then some []
      else (normalizeIdentifier field.1 (strip raw)).map fun normalized => [(field.1, strip raw, normalized)]
    | _ => some []
  return found.flatten

def hostMac (host : Members) : Option Text :=
  match host.field "mac" with
  | .str raw => if strip raw = [] then none else normalizeMac raw
  | _ => none

def assetsOf (cards : List IdentifierCard) (identifiers : List Identifier) (mac : Text) : List Text :=
  ((identifiers.filter fun i =>
    i.kind = .mac && i.isCurrent && (cards.any fun card => card.id = i.asset && !card.deleted) &&
      normalizeMac i.value = some mac).map Identifier.asset).dedup

/-- `InventoryIdentifierSyncResult`. -/
structure SyncCounts where
  matched : Nat
  updated : Nat
  skipped : Nat

/-- The turn of an address. -/
def reconcileMac (cards : List IdentifierCard) (identifiers : List Identifier) (hosts : List Members)
    (observedAt : Instant) (state : IdentifierSession × SyncCounts) (mac : Text) :
      IdentifierSession × SyncCounts :=
  let (session, counts) := state
  let assets := assetsOf cards identifiers mac
  match hosts.filter (fun host => hostMac host = some mac), assets with
  | [host], [asset] =>
    match netctlObservedIdentifiers host with
    | none => (session, ⟨counts.matched + 1, counts.updated, counts.skipped + 1⟩)
    | some values =>
      let (session, changed) := values.foldl (fun (session, changed) (kind, value, normalized) =>
        let (session, replaced) := replaceNetctlIdentifier session asset kind value normalized observedAt
        (session, replaced || changed)) (session, false)
      (session, ⟨counts.matched + 1, counts.updated + (if changed then 1 else 0), counts.skipped⟩)
  | observed, assets =>
    (session, if assets ≠ [] ∨
      1 < observed.length then { counts with skipped := counts.skipped + 1 } else counts)

def reconcileNetctlIdentifiers (cards : List IdentifierCard) (identifiers : List Identifier)
    (hosts : List Members)
    (observedAt : Instant) : List Identifier × SyncCounts :=
  let macs := (hosts.filterMap hostMac).eraseDups
  let unidentified := (hosts.filter fun host => (hostMac host).isNone).length
  let start : IdentifierSession := ⟨identifiers.map fun i => (i, i), []⟩
  let (session, counts) :=
    macs.foldl (reconcileMac cards identifiers hosts observedAt) (start, ⟨0, 0, unidentified⟩)
  (session.flush, counts)

/-- The columns of `inventory_assets` that are manual facts. -/
structure AssetFields where
  assetType : Text
  locationId : Option Text
  customName : Option Text
  manufacturer : Option Text
  model : Option Text
  serialNumber : Option Text
  inventoryNumber : Option Text
  status : Option Text
  assignedPersonName : Option Text
  loginName : Option Text
  description : Option Text
  lastVerifiedAt : Option Instant
  deriving DecidableEq

structure Asset where
  id : Text
  manualRevision : Nat
  deletedAt : Option Instant
  fields : AssetFields

inductive DetailFields where
  | pc (osName osVersion cpuModel cpuGeneration ramType storageType : Option Text)
    (ramGb storageGb : Option Int)
  | monitor (diagonalInches : Option Text)
  | printer (pageCounter : Option Int) (connectionType : Option Text)
  | phone (extension : Option Text)
  | ups (powerVa : Option Int) (batteryReplacedAt : Option Text)
  deriving DecidableEq

structure Detail where
  asset : Text
  fields : DetailFields
  deriving DecidableEq

structure AssetRelation where
  id : Text
  parent : Text
  child : Text
  relationType : Text
  createdAt : Instant
  createdBy : Text
  endedAt : Option Instant
  note : Option Text
  deriving DecidableEq

structure NetctlBinding where
  id : Text
  asset : Text
  key : Text
  status : BindingStatus
  evidence : Members
  observation : Members
  snapshotId : Nat
  observedAt : Option Instant
  confirmedAt : Option Instant
  endedAt : Option Instant

structure ExternalBinding where
  id : Text
  asset : Text
  source : Text
  externalId : Text
  status : BindingStatus
  endedAt : Option Instant

structure EndpointState where
  bindingId : Text
  asset : Text
  device : Text
  online : Option Bool
  lastSeenAt : Option Instant
  lastSuccessAt : Option Instant
  unavailableSince : Option Instant
  context : Members

structure Location where
  id : Text
  name : Option Text

structure SyncControl where
  id : Nat
  lastPresenceSyncAt : Option Instant
  lastFullSyncAt : Option Instant
  lastSafeErrorCode : Option Text

structure Tables where
  assets : List Asset
  details : List Detail
  relations : List AssetRelation
  identifiers : List Identifier
  netctl : List NetctlBinding
  external : List ExternalBinding
  endpointStates : List EndpointState
  locations : List Location
  controls : List SyncControl
  epoch : Nat

inductive Write where
  | asset (w : RowWrite Asset)
  | detail (w : RowWrite Detail)
  | relation (w : RowWrite AssetRelation)
  | identifier (w : RowWrite Identifier)
  | netctl (w : RowWrite NetctlBinding)
  | external (w : RowWrite ExternalBinding)
  | endpointState (w : RowWrite EndpointState)
  | location (w : RowWrite Location)
  | control (w : RowWrite SyncControl)

def detailTrigger : FactTrigger Detail Text Detail where
  owners r := [r.asset]
  counts _ := true
  leaves _ := true
  columns r := r
  leaves_counts _ _ := rfl
  determined _ _ h := ⟨congrArg (fun r : Detail => [r.asset]) h, rfl⟩

def relationTrigger : FactTrigger AssetRelation Text AssetRelation where
  owners r := [r.parent, r.child]
  counts _ := true
  leaves _ := true
  columns r := r
  leaves_counts _ _ := rfl
  determined _ _ h := ⟨congrArg (fun r : AssetRelation => [r.parent, r.child]) h, rfl⟩

def Identifier.isManual (i : Identifier) : Bool := i.source = .manual

def Identifier.unseen (i : Identifier) : Identifier :=
  { i with firstSeenAt := none, lastSeenAt := none }

def identifierTrigger : FactTrigger Identifier Text Identifier where
  owners i := [i.asset]
  counts := Identifier.isManual
  leaves := Identifier.isManual
  columns := Identifier.unseen
  leaves_counts _ h := h
  determined _ _ h := by
    have hown := congrArg (fun i : Identifier => [i.asset]) h
    have hcn := congrArg Identifier.isManual h
    exact ⟨hown, hcn⟩

def isDeliberate (status : BindingStatus) (endedAt : Option Instant) : Bool := status = .confirmed ∨
    endedAt.isSome = true

/-- The watched columns of `inventory_netctl_bindings`. -/
structure NetctlDecision where
  asset : Text
  key : Text
  status : BindingStatus
  confirmedAt : Option Instant
  endedAt : Option Instant
  deriving DecidableEq

def NetctlBinding.decision (r : NetctlBinding) : NetctlDecision :=
  ⟨r.asset, r.key, r.status, r.confirmedAt, r.endedAt⟩

def netctlTrigger : FactTrigger NetctlBinding Text NetctlDecision where
  owners r := [r.asset]
  counts r := isDeliberate r.status r.endedAt
  leaves r := r.status = .confirmed
  columns := NetctlBinding.decision
  leaves_counts _ h := decide_eq_true (.inl (of_decide_eq_true h))
  determined _ _ h := ⟨congrArg (fun d : NetctlDecision => [d.asset]) h,
    congrArg (fun d : NetctlDecision => isDeliberate d.status d.endedAt) h⟩

/-- The watched columns of `inventory_external_bindings`. -/
structure ExternalDecision where
  asset : Text
  source : Text
  externalId : Text
  status : BindingStatus
  endedAt : Option Instant
  deriving DecidableEq

def ExternalBinding.decision (r : ExternalBinding) : ExternalDecision :=
  ⟨r.asset, r.source, r.externalId, r.status, r.endedAt⟩

def externalTrigger : FactTrigger ExternalBinding Text ExternalDecision where
  owners r := [r.asset]
  counts r := isDeliberate r.status r.endedAt
  leaves r := r.status = .confirmed
  columns := ExternalBinding.decision
  leaves_counts _ h := decide_eq_true (.inl (of_decide_eq_true h))
  determined _ _ h := ⟨congrArg (fun d : ExternalDecision => [d.asset]) h,
    congrArg (fun d : ExternalDecision => isDeliberate d.status d.endedAt) h⟩

/-- `inventory_manual_asset_revision`: updates only. -/
def assetTargets : Option Asset × Option Asset → List Text
  | (some old, some new) => if old.fields ≠ new.fields then [new.id] else []
  | _ => []

def Asset.shown (a : Asset) : Nat × Option Instant := (a.manualRevision, a.deletedAt)

structure NetctlShown where
  status : BindingStatus
  evidence : Members
  observation : Members
  snapshotId : Nat
  observedAt : Option Instant
  endedAt : Option Instant
  deriving DecidableEq

def NetctlBinding.shown (r : NetctlBinding) : NetctlShown :=
  ⟨r.status, r.evidence, r.observation, r.snapshotId, r.observedAt, r.endedAt⟩

structure EndpointShown where
  asset : Text
  device : Text
  online : Option Bool
  lastSeenAt : Option Instant
  lastSuccessAt : Option Instant
  unavailableSince : Option Instant
  context : Members
  deriving DecidableEq

def EndpointState.shown (r : EndpointState) : EndpointShown :=
  ⟨r.asset, r.device, r.online, r.lastSeenAt, r.lastSuccessAt, r.unavailableSince, r.context⟩

def SyncControl.shown (r : SyncControl) : Option Instant × Option Instant × Option Text :=
  (r.lastPresenceSyncAt, r.lastFullSyncAt, r.lastSafeErrorCode)

namespace Tables

variable (s : Tables)

def isActive (card : Text) : Bool := s.assets.any fun a => a.id = card && a.deletedAt.isNone

def namesInactive {ρ : Type} (cards : ρ → List Text) : Option ρ × Option ρ → Bool
  | (_, some new) => (cards new).any fun card => !s.isActive card
  | (_, none) => false

/-- The triggers that abort a write: of facts of deleted cards, and of the
history and the identity of relations. -/
def refuses : Write → Bool
  | .asset w =>
    match w.images s.assets with
    | (some old, some new) => old.deletedAt.isSome && old.fields ≠ new.fields
    | _ => false
  | .detail w => s.namesInactive (fun r : Detail => [r.asset]) (w.images s.details)
  | .relation w =>
    s.namesInactive (fun r : AssetRelation => if r.endedAt.isNone then [r.parent, r.child] else [])
      (w.images s.relations)
  | .identifier w => s.namesInactive (fun i : Identifier => [i.asset]) (w.images s.identifiers)
  | .netctl w =>
    s.namesInactive (fun r : NetctlBinding => if r.endedAt.isNone then [r.asset] else [])
      (w.images s.netctl) ||
      match w.images s.netctl with
      | (some old, some new) => old.asset ≠ new.asset || old.key ≠ new.key ||
          (old.endedAt.isSome &&
            (old.observation ≠ new.observation || old.snapshotId ≠ new.snapshotId ||
            old.observedAt ≠ new.observedAt))
      | _ => false
  | .external w =>
    s.namesInactive (fun r : ExternalBinding => if r.endedAt.isNone then [r.asset] else [])
      (w.images s.external)
  | .endpointState w => s.namesInactive (fun r : EndpointState => [r.asset]) (w.images s.endpointStates)
  | .location _ => false
  | .control _ => false

/-- The table with the written row. -/
def change : Write → Tables
  | .asset w => { s with assets := w.apply s.assets }
  | .detail w => { s with details := w.apply s.details }
  | .relation w => { s with relations := w.apply s.relations }
  | .identifier w => { s with identifiers := w.apply s.identifiers }
  | .netctl w => { s with netctl := w.apply s.netctl }
  | .external w => { s with external := w.apply s.external }
  | .endpointState w => { s with endpointStates := w.apply s.endpointStates }
  | .location w => { s with locations := w.apply s.locations }
  | .control w => { s with controls := w.apply s.controls }

def targets : Write → List Text
  | .asset w => assetTargets (w.images s.assets)
  | .detail w => detailTrigger.targets (w.images s.details)
  | .relation w => relationTrigger.targets (w.images s.relations)
  | .identifier w => identifierTrigger.targets (w.images s.identifiers)
  | .netctl w => netctlTrigger.targets (w.images s.netctl)
  | .external w => externalTrigger.targets (w.images s.external)
  | _ => []

def isShown : Write → Bool
  | .asset w => fires Asset.shown (w.images s.assets)
  | .netctl w => fires NetctlBinding.shown (w.images s.netctl)
  | .external w => fires ExternalBinding.decision (w.images s.external)
  | .endpointState w => fires EndpointState.shown (w.images s.endpointStates)
  | .location w => fires Location.name (w.images s.locations)
  | .control w => fires SyncControl.shown (w.images s.controls)
  | _ => false

/-- `UPDATE inventory_assets SET manual_revision=manual_revision+1 WHERE id IN (cards)`,
which advances the epoch for every row. -/
def advance (cards : List Text) : Tables :=
  { s with
    assets := s.assets.map fun a =>
      if a.id ∈ cards then { a with manualRevision := a.manualRevision + 1 } else a
    epoch := s.epoch + (s.assets.filter fun a => a.id ∈ cards).length }

def tick (shown : Bool) : Tables := { s with epoch := s.epoch + if shown = true then 1 else 0 }

/-- A write with its triggers; `none` is an abort. -/
def write (w : Write) : Option Tables :=
  if s.refuses w = true then none else some (((s.change w).advance (s.targets w)).tick (s.isShown w))

end Tables

end WebOvpn.Inventory
