/-
The bindings of inventory cards to Endpoint devices: discovery, the decisions
of an operator, and the deletion and restoring of cards.
-/
import Mathlib.Data.List.Sort
import WebOvpn.Lib.Calendar

namespace WebOvpn.Inventory

/-- How a device is matched with a card. -/
inductive Method where
  | mac
  | serial
  | productUuid
  deriving DecidableEq

/-- A normalised value that identifies a card or a device. -/
abbrev Anchor := Method × Text

/-- A card: `anchors` are its serial number, its current MAC addresses and its
product UUIDs. -/
structure Card where
  id : Text
  isPc : Bool
  deleted : Bool
  anchors : List Anchor

inductive BindingStatus where
  | candidate
  | confirmed
  | rejected
  | replaced
  | ended
  deriving DecidableEq

/-- `material` of the evidence: the matched values and what they are shared with. -/
structure Material where
  matched : List (Method × List Text)
  macPcCount : Nat
  macEndpointCount : Nat
  deriving DecidableEq

/-- `evidence_json`; bindings are referred to by their place in the table. -/
structure Evidence where
  material : Option Material
  current : Bool
  observedAt : Option Instant
  reconnectedBy : Option Nat
  endedByDeletion : Bool
  deriving DecidableEq

/-- A row of `inventory_external_bindings` of the Endpoint platform. -/
structure Binding where
  asset : Text
  device : Text
  status : BindingStatus
  evidence : Evidence
  lastVerifiedAt : Option Instant
  endedAt : Option Instant

structure Store where
  cards : List Card
  rows : List Binding

inductive BindingError where
  | notFound
  | notPc
  | notEligible
  | stale
  | evidenceChanged
  | conflict
  | sameDevice
  | revision
  | reason
  /-- A unique index or a trigger of the database. -/
  | integrity
  deriving DecidableEq

def Binding.isActive (r : Binding) : Bool := r.endedAt.isNone

def Binding.isConfirmed (r : Binding) : Bool := r.status = .confirmed ∧ r.isActive

def Binding.isCandidate (r : Binding) (pair : Text × Text) : Bool :=
  r.status = .candidate ∧ r.isActive ∧ (r.asset, r.device) = pair

def Binding.pair (r : Binding) : Text × Text := (r.asset, r.device)

def Store.card? (s : Store) (id : Text) : Option Card :=
  s.cards.find? fun card => card.id = id && !card.deleted

/-- Two rows that a unique index does not allow beside each other. -/
def Binding.clashes (r r' : Binding) : Bool :=
  (r.isConfirmed && r'.isConfirmed && (r.asset = r'.asset || r.device = r'.device)) ||
    (r.isCandidate r'.pair && r'.isCandidate r.pair)

/-- The partial unique indexes, and the trigger that keeps active bindings of
deleted cards out. -/
def Store.isConsistent (s : Store) : Bool :=
  s.rows.Pairwise (fun r r' => r.clashes r' = false) ∧
    ∀ r ∈ s.rows, r.isActive = true → (s.card? r.asset).isSome = true

def flush (s : Store) : Except BindingError Store :=
  if s.isConsistent then .ok s else .error .integrity

/-- A published identity; `collectedAt` is its parsed time, if it has one. -/
structure Identity where
  device : Text
  collectedAt : Option Instant
  anchors : List Anchor
  deriving DecidableEq

def candidateMaxAge : Nat := 86400000000

/-- `timedelta(0) <= now - at <= CANDIDATE_MAX_AGE`. -/
def isRecent (now : Instant) (time : Option Instant) : Bool :=
  match time with
  | some time => time.val ≤ now.val && now.val - time.val ≤ candidateMaxAge
  | none => false

def Identity.isUsable (identity : Identity) (now : Instant) : Bool :=
  Text.strip identity.device ≠ [] && identity.device.length ≤ 255 && isRecent now identity.collectedAt

/-- What a pass of discovery computes before it writes. -/
structure Discovery where
  now : Instant
  identities : List Identity
  start : Store

namespace Discovery

variable (d : Discovery)

def matched (pair : Text × Text) : List Anchor :=
  match d.start.card? pair.1 with
  | some card =>
    if card.isPc then
      card.anchors.filter fun anchor =>
        d.identities.any fun identity => identity.device = pair.2 && identity.anchors.contains anchor
    else []
  | none => []

def matchedBy (method : Method) (pair : Text × Text) : List Text :=
  ((d.matched pair).filter fun anchor => anchor.1 = method).map Prod.snd

def assets : List Text := (d.start.cards.map Card.id).dedup

def devices : List Text := (d.identities.map Identity.device).dedup

/-- `sorted(matches)`. -/
def pairs : List (Text × Text) :=
  ((d.assets ×ˢ d.devices).filter fun pair => d.matched pair ≠ []).insertionSort fun p q =>
    Text.le p.1 q.1 = true ∧ (p.1 = q.1 → Text.le p.2 q.2 = true)

def macAssets (device : Text) : List Text :=
  d.assets.filter fun asset => d.matchedBy .mac (asset, device) ≠ []

def macDevices (asset : Text) : List Text :=
  d.devices.filter fun device => d.matchedBy .mac (asset, device) ≠ []

/-- `sorted(values)[:64]`. -/
def bounded (values : List Text) : List Text :=
  (values.dedup.insertionSort fun s t => Text.le s t = true).take 64

def material (pair : Text × Text) : Material where
  matched := ([.mac, .productUuid, .serial].filter fun method => d.matchedBy method pair ≠ []).map fun method =>
    (method, bounded (d.matchedBy method pair))
  macPcCount := (d.macAssets pair.2).length
  macEndpointCount := (d.macDevices pair.1).length

def collectedAt (device : Text) : Option Instant :=
  ((d.identities.filter fun identity => identity.device = device).filterMap Identity.collectedAt).foldl
    (fun least time => some (least.elim time (min time))) none

def boundAssets : List Text := (d.start.rows.filter Binding.isConfirmed).map Binding.asset

def boundDevices : List Text := (d.start.rows.filter Binding.isConfirmed).map Binding.device

def endedPairs : List (Text × Text) :=
  (d.start.rows.filter fun r => (r.status = .ended || r.status = .replaced) && !r.isActive).map Binding.pair

/-- The condition for a confirmation without an operator. -/
def auto (pair : Text × Text) : Bool :=
  d.matchedBy .mac pair ≠ [] && (d.macAssets pair.2).length = 1 && (d.macDevices pair.1).length = 1 &&
    !d.boundDevices.contains pair.2 && !(d.endedPairs.map Prod.fst).contains pair.1

def evidence (pair : Text × Text) : Evidence where
  material := some (d.material pair)
  current := true
  observedAt := d.collectedAt pair.2
  reconnectedBy := none
  endedByDeletion := false

def offer (s : Store) (pair : Text × Text) : Except BindingError Store :=
  if pair.1 ∈ d.boundAssets ∨ pair ∈ d.endedPairs then .ok s
  else if s.rows.any fun r => r.pair = pair && r.status = .rejected &&
      r.evidence.material = some (d.material pair) then .ok s
  else
    match s.rows.findIdx? fun r => r.isCandidate pair with
    | none =>
      flush { s with rows := s.rows ++ [{
        asset := pair.1
        device := pair.2
        status := if d.auto pair then .confirmed else .candidate
        evidence := d.evidence pair
        lastVerifiedAt := some d.now
        endedAt := none }] }
    | some i =>
      flush { s with rows := s.rows.modify i fun r => { r with
        status := if d.auto pair then .confirmed else r.status
        evidence := d.evidence pair
        lastVerifiedAt := some d.now } }

end Discovery

/-- Candidates are no longer current until they are seen again. -/
def Binding.outdated (r : Binding) : Binding :=
  if r.status = .candidate ∧ r.isActive = true then { r with evidence := { r.evidence with current := false } }
  else r

def reconcileCandidates (s : Store) (identities : List Identity)
    (now : Instant) : Except BindingError Store := do
  let d : Discovery := ⟨now, identities.filter fun identity => identity.isUsable now, s⟩
  let s ← d.pairs.foldlM d.offer { s with rows := s.rows.map Binding.outdated }
  flush s

def Store.pc (s : Store) (asset : Text) : Except BindingError Card :=
  match s.card? asset with
  | none => .error .notFound
  | some card => if card.isPc then .ok card else .error .notPc

def Store.binding (s : Store) (asset : Text) (id : Nat) (status : BindingStatus) :
    Except BindingError Binding := do
  let _ ← s.pc asset
  match s.rows[id]? with
  | none => .error .notFound
  | some r =>
    if r.asset ≠ asset then .error .notFound
    else if r.status ≠ status ∨ r.isActive = false then .error .notEligible
    else .ok r

def Store.unique (s : Store) (asset device : Text) (apart : Option Nat) : Except BindingError Unit :=
  if s.rows.zipIdx.any (fun m => m.1.isConfirmed && (m.1.asset = asset || m.1.device = device) &&
      some m.2 ≠ apart) then .error .conflict
  else .ok ()

def Store.edit (s : Store) (id : Nat) (f : Binding → Binding) : Store :=
  { s with rows := s.rows.modify id f }

def Binding.finish (r : Binding) (status : BindingStatus) (now : Instant) : Binding :=
  { r with status := status, endedAt := some now }

def Binding.supersede (r : Binding) (pair : Text × Text) (now : Instant) : Binding :=
  if r.isCandidate pair then r.finish .replaced now else r

def Binding.endWithCard (r : Binding) (asset : Text) (now : Instant) : Binding :=
  if r.asset = asset ∧ r.isActive = true then
    { r.finish .ended now with evidence := { r.evidence with endedByDeletion := true } }
  else r

/-- A row that an operator confirmed without a candidate. -/
def manualBinding (asset device : Text) (now : Instant) : Binding where
  asset := asset
  device := device
  status := .confirmed
  evidence := ⟨none, false, none, none, false⟩
  lastVerifiedAt := some now
  endedAt := none

def Card.stillMatches (card : Card) (material : Option Material) : Bool :=
  match material with
  | some material => material.matched.any fun m => m.2.any fun value => card.anchors.contains (m.1, value)
  | none => false

def confirmBinding (s : Store) (asset : Text) (id : Nat)
    (now : Instant) : Except BindingError Store := do
  let r ← s.binding asset id .candidate
  if r.evidence.current = false ∨ isRecent now r.lastVerifiedAt = false ∨
      isRecent now r.evidence.observedAt = false then .error .stale
  else do
    let card ← s.pc asset
    if card.stillMatches r.evidence.material = false then .error .evidenceChanged
    else do
      s.unique asset r.device none
      flush (s.edit id fun r => { r with status := .confirmed, lastVerifiedAt := some now })

def rejectBinding (s : Store) (asset : Text) (id : Nat)
    (now : Instant) : Except BindingError Store := do
  let _ ← s.binding asset id .candidate
  flush (s.edit id fun r => r.finish .rejected now)

def detachBinding (s : Store) (asset : Text) (id : Nat)
    (now : Instant) : Except BindingError Store := do
  let _ ← s.binding asset id .confirmed
  flush (s.edit id fun r => r.finish .ended now)

def replaceBinding (s : Store) (asset : Text) (id : Nat) (device : Text) (now : Instant) :
    Except BindingError Store := do
  let old ← s.binding asset id .confirmed
  if Text.strip device = [] ∨ 255 < device.length ∨ device = old.device then .error .sameDevice
  else do
    s.unique asset device (some id)
    let ended := s.edit id fun r => r.finish .replaced now
    let s ← flush { ended with rows := ended.rows.map fun r => r.supersede (asset, device) now }
    flush { s with rows := s.rows ++ [manualBinding asset device now] }

def reconnectBinding (s : Store) (asset : Text) (id : Nat)
    (now : Instant) : Except BindingError Store := do
  let _ ← s.pc asset
  match s.rows[id]? with
  | none => .error .notEligible
  | some old =>
    if old.asset ≠ asset ∨ old.status ≠ .ended ∨ old.isActive = true ∨ old.evidence.reconnectedBy ≠ none then
      .error .notEligible
    else do
      s.unique asset old.device none
      let s' ← flush { s with rows := s.rows ++ [manualBinding asset old.device now] }
      flush (s'.edit id fun r => { r with evidence := { r.evidence with reconnectedBy := some s.rows.length } })

def Store.historical? (s : Store) (asset : Text) : Option Card :=
  s.cards.find? fun card => card.id = asset

def Store.setDeleted (s : Store) (asset : Text) (deleted : Bool) : Store :=
  { s with cards := s.cards.map fun card => if card.id = asset then { card with deleted := deleted } else card }

/-- `soft_delete`; `claimed` is the outcome of the claim of the revision. -/
def softDelete (s : Store) (asset reason : Text) (claimed : Bool) (now : Instant) :
    Except BindingError Store :=
  match s.historical? asset with
  | none => .error .revision
  | some card =>
    if card.deleted then .ok s
    else if Text.strip reason = [] ∨ 2000 < (Text.strip reason).length then .error .reason
    else if claimed = false then .error .revision
    else do
      let s ← flush { s with rows := s.rows.map fun r => r.endWithCard asset now }
      flush (s.setDeleted asset true)

/-- `restore`; `located` tells that the location of the card still exists. -/
def restore (s : Store) (asset : Text) (claimed located : Bool) : Except BindingError Store :=
  match s.historical? asset with
  | none => .error .revision
  | some card =>
    if card.deleted = false then .ok s
    else if located = false then .error .reason
    else if claimed = false then .error .revision
    else flush (s.setDeleted asset false)

/-- A transaction on the store: a call of the service, a new card, or other
facts for a card. -/
inductive Call where
  | reconcile (identities : List Identity) (now : Instant)
  | confirm (asset : Text) (id : Nat) (now : Instant)
  | reject (asset : Text) (id : Nat) (now : Instant)
  | detach (asset : Text) (id : Nat) (now : Instant)
  | replace (asset : Text) (id : Nat) (device : Text) (now : Instant)
  | reconnect (asset : Text) (id : Nat) (now : Instant)
  | delete (asset reason : Text) (claimed : Bool) (now : Instant)
  | restore (asset : Text) (claimed located : Bool)
  | create (asset : Text) (isPc : Bool) (anchors : List Anchor)
  | describe (asset : Text) (isPc : Bool) (anchors : List Anchor)

def Store.describe (s : Store) (asset : Text) (isPc : Bool) (anchors : List Anchor) : Store :=
  { s with cards := s.cards.map fun card =>
    if card.id = asset ∧ card.deleted = false then { card with isPc := isPc, anchors := anchors } else card }

def Call.result (s : Store) : Call → Except BindingError Store
  | .reconcile identities now => reconcileCandidates s identities now
  | .confirm asset id now => confirmBinding s asset id now
  | .reject asset id now => rejectBinding s asset id now
  | .detach asset id now => detachBinding s asset id now
  | .replace asset id device now => replaceBinding s asset id device now
  | .reconnect asset id now => reconnectBinding s asset id now
  | .delete asset reason claimed now => softDelete s asset reason claimed now
  | .restore asset claimed located => Inventory.restore s asset claimed located
  | .create asset isPc anchors =>
    if (s.historical? asset).isSome then .error .notFound
    else flush { s with cards := s.cards ++ [⟨asset, isPc, false, anchors⟩] }
  | .describe asset isPc anchors => flush (s.describe asset isPc anchors)

def call (s : Store) (c : Call) : Store :=
  match c.result s with
  | .ok s' => s'
  | .error _ => s

def emptyStore : Store := ⟨[], []⟩

end WebOvpn.Inventory
