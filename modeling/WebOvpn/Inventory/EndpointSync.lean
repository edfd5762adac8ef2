/-
The scheduled synchronisation with the Endpoint platform: any number of
workers, a lease on the control row, and the transactions that each of them
takes between its remote calls.
-/
import WebOvpn.Inventory.Tables
import WebOvpn.Lib.Run

namespace WebOvpn.Inventory

namespace EndpointSync

open Text

/-- `InventoryEndpointSyncControl`.  An owner is the number of its `uuid4`. -/
structure Control where
  leaseOwner : Option Nat
  leaseExpiresAt : Option Instant
  lastPresenceSyncAt : Option Instant
  lastFullSyncAt : Option Instant
  lastSafeErrorCode : Option Text
  updatedAt : Instant

/-- `InventoryEndpointState`; identifiers and hashes of the five profiles in order. -/
structure StateRow where
  bindingId : Text
  asset : Text
  device : Text
  online : Option Bool
  lastSeenAt : Option Instant
  agentVersion : Option Text
  snapshotIds : List (Option Text)
  semanticHashes : List (Option Text)
  lastCheckedAt : Option Instant
  refreshedAt : Option Instant
  lastSuccessAt : Option Instant
  unavailableSince : Option Instant
  safeContext : Members
  createdAt : Instant
  updatedAt : Instant
  deriving DecidableEq

/-- `EndpointAgentNetworkLink`, the compatibility cache. -/
structure Link where
  assetKey : Text
  state : Text
  deviceId : Option Text
  deviceDisplayName : Option Text
  gatewayLastSeenAt : Option Instant
  baselineCollectedAt : Option Instant
  profileSummary : Text
  evidenceKind : Text
  calculatedAt : Instant

/-- `EndpointAgentNetworkRefresh`. -/
structure Refresh where
  lastSuccessAt : Option Instant
  leaseExpiresAt : Option Instant
  lastErrorCode : Text

/-- `InventoryObservation` of the Endpoint platform. -/
structure Observation where
  asset : Text
  bindingId : Text
  device : Text
  profile : Text
  snapshotId : Text
  semanticHash : Text
  collectedAt : Instant
  observedAt : Instant
  data : Members
  deriving DecidableEq

structure Published where
  bindings : List ExternalBinding
  states : List StateRow
  observations : List Observation
  links : List Link

/-- The database, and who was given each `uuid4` so far. -/
structure Database where
  control : Control
  published : Published
  refresh : Refresh
  issued : List Nat

def presenceInterval : Nat := microsPerMinute

def fullInterval : Nat := 5 * microsPerMinute

def leaseInterval : Nat := 10 * microsPerMinute

def maxDevices : Nat := 1000

/-- The `where` of `acquire_endpoint_sync_lease`. -/
def Control.isDue (control : Control) (now : Instant) : Bool :=
  (control.leaseExpiresAt.all fun time => decide (time ≤ now)) &&
    control.lastPresenceSyncAt.all fun time => decide (time.val + presenceInterval ≤ now.val)

/-- `acquire_endpoint_sync_lease`; `none` is a lease that was not given. -/
def acquire (who : Nat) (now expires wall : Instant) (db : Database) : Option Database :=
  if db.control.isDue now then
    some { db with
      control := { db.control with
        leaseOwner := some db.issued.length
        leaseExpiresAt := some expires
        updatedAt := wall }
      issued := db.issued ++ [who] }
  else none

def renew (owner : Nat) (expires wall : Instant) (db : Database) : Option Database :=
  if db.control.leaseOwner = some owner then
    some { db with control := { db.control with leaseExpiresAt := some expires, updatedAt := wall } }
  else none

/-- `full` of `_prepare_pass`. -/
def Control.isFullDue (control : Control) (now : Instant) : Bool :=
  control.lastFullSyncAt.all fun time => decide (time.val + fullInterval ≤ now.val)

/-- The transaction of a pass that owns the lease, given what it publishes. -/
def publish (full : Bool) (appliedAt projectedAt wall : Instant) (published : Published)
    (db : Database) : Database :=
  { db with
    control := { db.control with
      lastPresenceSyncAt := some appliedAt
      lastFullSyncAt := if full then some appliedAt else db.control.lastFullSyncAt
      lastSafeErrorCode := none
      updatedAt := wall }
    published := published
    refresh := ⟨some projectedAt, none, []⟩ }

/-- The last transaction of a pass. -/
def release (owner : Nat) (wall : Instant) (db : Database) : Database :=
  if db.control.leaseOwner = some owner then
    { db with control := { db.control with leaseOwner := none, leaseExpiresAt := none, updatedAt := wall } }
  else db

/-- `InventoryEndpointService._active`. -/
def isActive (binding : ExternalBinding) : Bool :=
  binding.source = "endpoint_platform" && binding.status = .confirmed && binding.endedAt.isNone

/-- The columns that `_failure` writes in a row of an active binding. -/
def StateRow.failed (row : StateRow) (now : Instant) : StateRow :=
  { row with
    lastCheckedAt := some now
    unavailableSince := row.unavailableSince.or (some now) }

/-- A row that was changed gets the time of the change. -/
def StateRow.touched (row old : StateRow) (wall : Instant) : StateRow :=
  if row = old then row else { row with updatedAt := wall }

/-- The loop of `_failure` over the states of active bindings. -/
def failedStates (now wall : Instant) (published : Published) : List StateRow :=
  published.states.map fun row =>
    if published.bindings.any (fun binding => binding.id = row.bindingId && isActive binding) then
      (row.failed now).touched row wall
    else row

/-- `_failure`, which does nothing without the lease. -/
def failure (owner : Nat) (now wall : Instant) (code : Text) (db : Database) : Database :=
  if db.control.leaseOwner = some owner then
    { db with
      control := { db.control with
        leaseOwner := none
        leaseExpiresAt := none
        lastSafeErrorCode := some code
        updatedAt := wall }
      published := { db.published with states := failedStates now wall db.published }
      refresh := { db.refresh with leaseExpiresAt := none, lastErrorCode := code } }
  else db

inductive FailureCode where
  | disabled
  | scopeDenied
  | unavailable
  deriving DecidableEq

def FailureCode.name : FailureCode → Text
  | .disabled => "endpoint_platform_disabled"
  | .scopeDenied => "endpoint_platform_scope_denied"
  | .unavailable => "endpoint_platform_unavailable"

/-- `_PreparedAdapter`: what was read from the platform. -/
structure Prepared (Identity Snapshot : Type) where
  identities : List Identity
  snapshots : List (Text × Snapshot)
  fullPass : Bool

/-- What a pass computes from the tables of cards, which it only reads, and from
what is published: the devices that `_prepare_pass` finds to read, and what
`sync_confirmed_bindings` and `rebuild_endpoint_agent_network_cache` publish
when they read the clock so; `none` is an exception. -/
structure Computation (Identity Snapshot Cards : Type) where
  devices : List Identity → Instant → Cards → Published → Option (List Text)
  publishes : Prepared Identity Snapshot → (Nat → Instant) → Instant → Cards → Published → Option Published

/-- Where a worker is between two of its steps. -/
inductive Phase (Identity Snapshot : Type) where
  | idle
  | acquiring (now : Instant)
  | listing (now : Instant) (owner : Nat)
  | listed (now : Instant) (owner : Nat) (identities : List Identity)
  | selecting (now : Instant) (owner : Nat) (identities : List Identity)
  | reading (now : Instant) (owner : Nat) (prepared : Prepared Identity Snapshot) (device : Text)
    (rest : List Text)
  | read (now : Instant) (owner : Nat) (prepared : Prepared Identity Snapshot) (rest : List Text)
  | applying (now : Instant) (owner : Nat) (prepared : Prepared Identity Snapshot)
  | exporting (now : Instant) (owner : Nat)
  | releasing (now : Instant) (owner : Nat)
  | failing (now : Instant) (owner : Nat) (code : FailureCode)
  | over (status : Nat)

/-- The next step of a worker, with what it is given from outside: the clock,
the answer of a remote call, the cards, or an exception. -/
inductive Event (Identity Snapshot Cards : Type) where
  | start (now : Instant)
  | acquire (wall : Instant)
  | identities (identities : List Identity)
  | renew (elapsed : Nat) (wall : Instant)
  | select (cards : Cards)
  | profiles (snapshot : Snapshot)
  | apply (cards : Cards) (clock : Nat → Instant) (projectedAt wall : Instant)
  | export
  | release (wall : Instant)
  | fail (wall : Instant)
  | raise (code : FailureCode)

section

variable {Identity Snapshot : Type}

/-- The lease that the worker believes to own. -/
def Phase.owner? : Phase Identity Snapshot → Option Nat
  | .idle => none
  | .acquiring _ => none
  | .listing _ owner => some owner
  | .listed _ owner _ => some owner
  | .selecting _ owner _ => some owner
  | .reading _ owner _ _ _ => some owner
  | .read _ owner _ _ => some owner
  | .applying _ owner _ => some owner
  | .exporting _ owner => some owner
  | .releasing _ owner => some owner
  | .failing _ owner _ => some owner
  | .over _ => none

/-- The `except` branches of `run_inventory_endpoint_sync`. -/
def Phase.raised (code : FailureCode) : Phase Identity Snapshot → Phase Identity Snapshot
  | .idle => .idle
  | .acquiring _ => .over 1
  | .listing now owner => .failing now owner code
  | .listed now owner _ => .failing now owner code
  | .selecting now owner _ => .failing now owner code
  | .reading now owner _ _ _ => .failing now owner code
  | .read now owner _ _ => .failing now owner code
  | .applying now owner _ => .failing now owner code
  | .exporting now owner => .failing now owner code
  | .releasing now owner => .failing now owner code
  | .failing _ _ _ => .over 1
  | .over status => .over status

/-- The loop of `_prepare_pass` over the devices that are left. -/
def nextDevice (now : Instant) (owner : Nat) (prepared : Prepared Identity Snapshot) :
    List Text → Phase Identity Snapshot
  | [] => .applying now owner prepared
  | device :: rest => .reading now owner prepared device rest

def renewedUntil (now : Instant) (elapsed : Nat) : Option Instant :=
  (now.add? elapsed).bind fun time => time.add? leaseInterval

/-- A step of `_renew`; the worker goes on or fails. -/
def renewed (now : Instant) (owner : Nat) (expires : Option Instant) (wall : Instant)
    (next : Phase Identity Snapshot) (db : Database) : Database × Phase Identity Snapshot :=
  match expires with
  | none => (db, .failing now owner .unavailable)
  | some expires =>
    match renew owner expires wall db with
    | none => (db, .failing now owner .unavailable)
    | some db' => (db', next)

variable {Cards : Type} (computation : Computation Identity Snapshot Cards)

/-- The first transaction of `run_inventory_endpoint_sync`; `now + LEASE_INTERVAL`
may overflow. -/
def acquireStep (who : Nat) (now : Instant) (expires : Option Instant) (wall : Instant)
    (db : Database) :
    Database × Phase Identity Snapshot :=
  match expires with
  | none => (db, .over 1)
  | some expires =>
    match acquire who now expires wall db with
    | none => (db, .over 0)
    | some db' => (db', .listing now db.issued.length)

/-- The transaction of `_prepare_pass`, which is rolled back. -/
def selectStep (now : Instant) (owner : Nat) (identities : List Identity) (cards : Cards)
    (db : Database) :
    Phase Identity Snapshot :=
  match computation.devices identities now cards db.published with
  | none => .failing now owner .unavailable
  | some devices =>
    if maxDevices < devices.length then .failing now owner .unavailable
    else nextDevice now owner ⟨identities, [], db.control.isFullDue now⟩
      (if db.control.isFullDue now then devices else [])

/-- The transaction that applies the pass. -/
def applyStep (now : Instant) (owner : Nat) (prepared : Prepared Identity Snapshot) (cards : Cards)
    (clock : Nat → Instant) (projectedAt wall : Instant) (db : Database) :
      Database × Phase Identity Snapshot :=
  if db.control.leaseOwner = some owner then
    match computation.publishes prepared clock projectedAt cards db.published with
    | none => (db, .failing now owner .unavailable)
    | some published =>
      (publish prepared.fullPass (clock 0) projectedAt wall published db, .exporting now owner)
  else (db, .over 0)

/-- One step of `run_inventory_endpoint_sync`: a transaction or a remote call. -/
def act (who : Nat) (event : Event Identity Snapshot Cards) (db : Database)
    (phase : Phase Identity Snapshot) :
    Database × Phase Identity Snapshot :=
  match phase, event with
  | .idle, .start now => (db, .acquiring now)
  | .over _, .start now => (db, .acquiring now)
  | .acquiring now, .acquire wall => acquireStep who now (now.add? leaseInterval) wall db
  | .listing now owner, .identities identities =>
    (db, if maxDevices < identities.length then .failing now owner .unavailable
      else .listed now owner identities)
  | .listed now owner identities, .renew elapsed wall =>
    renewed now owner (renewedUntil now elapsed) wall (.selecting now owner identities) db
  | .selecting now owner identities, .select cards => (db, selectStep computation now owner identities cards db)
  | .reading now owner prepared device rest, .profiles snapshot =>
    (db, .read now owner { prepared with snapshots := prepared.snapshots ++ [(device, snapshot)] } rest)
  | .read now owner prepared rest, .renew elapsed wall =>
    renewed now owner (renewedUntil now elapsed) wall (nextDevice now owner prepared rest) db
  | .applying now owner prepared, .apply cards clock projectedAt wall =>
    applyStep computation now owner prepared cards clock projectedAt wall db
  | .exporting now owner, .export => (db, .releasing now owner)
  | .releasing _ owner, .release wall => (release owner wall db, .over 0)
  | .failing now owner code, .fail wall => (failure owner now wall code.name db, .over 1)
  | phase, .raise code => (db, phase.raised code)
  | phase, _ => (db, phase)

end

end EndpointSync

end WebOvpn.Inventory
