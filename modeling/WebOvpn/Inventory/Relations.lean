/-
The relations of network devices to inventory cards: candidates that follow the
snapshots of Netctl, and the decisions of an operator.
-/
import WebOvpn.Inventory.Bindings

namespace WebOvpn.Inventory

open Text

def upperHex (c : CodePoint) : CodePoint :=
  if h : 97 ≤ c.val ∧ c.val ≤ 102 then ⟨c.val - 32, by omega⟩ else c

/-- `count` pairs of hexadecimal digits, each after an optional separator. -/
def macPairs : Nat → Text → Option (List Text)
  | 0, [] => some []
  | 0, _ :: _ => none
  | count + 1, s =>
    let digits :=
      match s with
      | c :: rest => if c.val = 58 ∨ c.val = 45 then rest else c :: rest
      | [] => []
    match digits with
    | a :: b :: rest =>
      if a.isHex ∧ b.isHex then (macPairs count rest).map fun pairs => [upperHex a, upperHex b] :: pairs
      else none
    | _ => none

/-- `normalize_mac`; `none` is its `InventoryLookupError`. -/
def normalizeMac (value : Text) : Option Text :=
  match strip value with
  | a :: b :: rest =>
    if a.isHex ∧ b.isHex then
      (macPairs 5 rest).map fun pairs =>
        [upperHex a, upperHex b] ++ pairs.flatMap fun pair => text ":" ++ pair
    else none
  | _ => none

def hexValue (c : CodePoint) : Nat := if c.val ≤ 57 then c.val - 48 else c.val - 55

/-- The address of a group of devices. -/
def isMulticast (mac : Text) : Bool :=
  match mac with
  | _ :: b :: _ => hexValue b % 2 = 1
  | _ => false

/-- What is saved of a host of a snapshot, as far as it is compared. -/
structure Observation where
  deviceKey : Text
  mac : Text
  ip : Option Text
  hostname : Option Text
  displayName : Option Text
  status : Option Text
  lastSeenAt : Option Text
  deriving DecidableEq

/-- `stable_key`; `none` is its `NetctlBindingConflict`. -/
def stableKey (host : Observation) : Option Text :=
  if (text "mac:").isPrefixOf host.deviceKey then
    match normalizeMac (host.deviceKey.drop 4), normalizeMac host.mac with
    | some keyMac, some mac =>
      if keyMac ≠ mac ∨ mac = "00:00:00:00:00:00" ∨ mac = "FF:FF:FF:FF:FF:FF" ∨ isMulticast mac then
        none
      else some (text "mac:" ++ mac)
    | _, _ => none
  else none

def identityKeys (hosts : List Observation) : List Text :=
  (hosts.filterMap stableKey).reverse.dedup.reverse

def observationsOf (rank : Observation → Observation → Bool) (hosts : List Observation) (key : Text) :
    List Observation :=
  (hosts.filter fun host => stableKey host = some key).reverse.dedup.reverse.mergeSort rank

/-- `material` of the evidence: the address and the cards that carry it. -/
structure RelationMaterial where
  mac : Text
  cardIds : List Text
  deriving DecidableEq

/-- A row of `inventory_netctl_bindings`. -/
structure Relation where
  asset : Text
  key : Text
  status : BindingStatus
  material : Option RelationMaterial
  ambiguous : Bool
  observation : Observation
  snapshotId : Nat
  observedAt : Option Instant
  endedAt : Option Instant

structure MacCard where
  id : Text
  deleted : Bool
  macs : List Text

structure Relations where
  cards : List MacCard
  rows : List Relation

inductive RelationError where
  | conflict
  | collision
  | taken
  | card
  | reason
  | revision
  | reconsider
  | notFound
  | notCandidate
  | integrity
  deriving DecidableEq

def Relation.isActive (r : Relation) : Bool := r.endedAt.isNone

def Relation.isConfirmed (r : Relation) : Bool := r.status = .confirmed ∧ r.isActive

def Relation.isCandidate (r : Relation) : Bool := r.status = .candidate ∧ r.isActive

def Relation.of (r : Relation) (asset key : Text) : Bool := r.asset = asset ∧ r.key = key

/-- Two rows that a unique index does not allow beside each other. -/
def Relation.clashes (r r' : Relation) : Bool :=
  (r.isConfirmed && r'.isConfirmed && r.key = r'.key) ||
    (r.isCandidate && r'.isCandidate && r.of r'.asset r'.key)

namespace Relations

variable (s : Relations)

def isLive (asset : Text) : Bool := s.cards.any fun card => card.id = asset && !card.deleted

/-- The partial unique indexes, and the trigger on deleted cards. -/
def isConsistent : Bool :=
  s.rows.Pairwise (fun r r' => r.clashes r' = false) ∧ ∀ r ∈ s.rows, r.isActive = true → s.isLive r.asset = true

def flush : Except RelationError Relations := if s.isConsistent then .ok s else .error .integrity

/-- `sorted(_anchors(db).get(key, ()))`: the live cards that carry the address. -/
def cardIds (key : Text) : List Text :=
  ((s.cards.filter fun card => !card.deleted && card.macs.any fun mac =>
    (normalizeMac mac).map (text "mac:" ++ ·) = some key).map MacCard.id).dedup.insertionSort
      fun s t => Text.le s t = true

def rowsOf (key : Text) : List Relation := s.rows.filter fun r => r.key = key && s.isLive r.asset

def material (key : Text) : RelationMaterial := ⟨key.drop 4, s.cardIds key⟩

def declines (asset key : Text) (material : RelationMaterial) : Bool :=
  (s.rowsOf key).any fun r => r.asset = asset && (r.status = .rejected || r.status = .ended) &&
    r.material = some material

def activeFor (key : Text) : Option Relation := (s.rowsOf key).find? Relation.isConfirmed

end Relations

structure Observed where
  rank : Observation → Observation → Bool
  hosts : List Observation
  snapshotId : Nat
  observedAt : Instant
  conflicts : List Text

namespace Relations

variable (s : Relations) (o : Observed) (key : Text) (observation : Observation)

def isAmbiguous : Bool := 1 < (s.cardIds key).length ∨ key ∈ o.conflicts

def see (r : Relation) : Relation :=
  if r.key = key ∧ s.isLive r.asset = true ∧ r.isActive = true then
    { r with
      observation := observation
      observedAt := some o.observedAt
      snapshotId := o.snapshotId
      material := if r.status = .candidate then some (s.material key) else r.material
      ambiguous := if r.status = .candidate then s.isAmbiguous o key else r.ambiguous }
  else r

def fresh : List Text :=
  (s.cardIds key).filter fun asset =>
    !s.declines asset key (s.material key) && !(s.rowsOf key).any fun r => r.asset = asset && r.isActive

def candidateFor (asset : Text) : Relation := {
  asset := asset
  key := key
  status := .candidate
  material := some (s.material key)
  ambiguous := s.isAmbiguous o key
  observation := observation
  snapshotId := o.snapshotId
  observedAt := some o.observedAt
  endedAt := none }

end Relations

def refreshKey (o : Observed) (s : Relations) (key : Text) : Relations :=
  match observationsOf o.rank o.hosts key with
  | [] => s
  | observation :: _ =>
    let seen := s.rows.map (s.see o key observation)
    if (s.rowsOf key).any Relation.isConfirmed then { s with rows := seen }
    else { s with rows := seen ++ (s.fresh key).map (s.candidateFor o key observation) }

def refreshCandidates (s : Relations) (o : Observed) : Except RelationError Relations :=
  ((identityKeys o.hosts).foldl (refreshKey o) s).flush

def isReason (reason : Text) : Bool := strip reason ≠ [] ∧ (strip reason).length ≤ 2000

def Relations.confirmed (s : Relations) (o : Observed) (key : Text) (observation : Observation)
    (r : Relation) :
    Relation :=
  { r with
    status := .confirmed
    material := some (s.material key)
    ambiguous := false
    observation := observation
    snapshotId := o.snapshotId
    observedAt := some o.observedAt }

def confirm (s : Relations) (key asset : Text) (claimed : Bool) (reason : Text) (o : Observed)
    (reconsider : Bool) :
    Except RelationError Relations :=
  match observationsOf o.rank o.hosts key with
  | [] => .error .conflict
  | observation :: _ =>
    if key ∈ o.conflicts then .error .conflict
    else if 1 < (s.cardIds key).length then .error .collision
    else
      match s.activeFor key with
      | some existing => if existing.asset ≠ asset then .error .taken else .ok s
      | none =>
        if s.isLive asset = false then .error .card
        else if isReason reason = false then .error .reason
        else if claimed = false then .error .revision
        else
          match s.rows.findIdx? fun r => r.of asset key && r.isCandidate with
          | some i => ({ s with rows := s.rows.modify i (s.confirmed o key observation) } : Relations).flush
          | none =>
            if (s.rows.any fun r => r.of asset key && (r.status = .rejected || r.status = .ended)) = true ∧
                reconsider = false then .error .reconsider
            else
              let r : Relation := ⟨asset, key, .candidate, none, false, observation, 0, none, none⟩
              ({ s with rows := s.rows ++ [s.confirmed o key observation r] } : Relations).flush

def Relation.finish (r : Relation) (status : BindingStatus) (now : Instant) : Relation :=
  { r with status := status, endedAt := some now }

def endRelation (s : Relations) (id : Nat) (claimed : Bool) (reason : Text) (reject : Bool)
    (now : Instant) :
    Except RelationError Relations :=
  if isReason reason = false then .error .reason
  else
    match s.rows[id]? with
    | none => .error .notFound
    | some r =>
      if r.isActive = false then .ok s
      else if reject = true ∧ r.status ≠ .candidate then .error .notCandidate
      else if s.isLive r.asset = false then .error .card
      else if claimed = false then .error .revision
      else
        let final : BindingStatus := if reject then .rejected else .ended
        ({ s with rows := s.rows.modify id fun r => r.finish final now } : Relations).flush

/-- A transaction: a call of the service, or a change of the cards. -/
inductive RelationCall where
  | refresh (o : Observed)
  | confirm (key asset : Text) (claimed : Bool) (reason : Text) (o : Observed) (reconsider : Bool)
  | finish (id : Nat) (claimed : Bool) (reason : Text) (reject : Bool) (now : Instant)
  | create (asset : Text) (macs : List Text)
  | setMacs (asset : Text) (macs : List Text)
  | delete (asset : Text) (now : Instant)
  | restore (asset : Text)

def Relation.endWithCard (r : Relation) (asset : Text) (now : Instant) : Relation :=
  if r.asset = asset ∧ r.isActive = true then r.finish .ended now else r

def Relations.setDeleted (s : Relations) (asset : Text) (deleted : Bool) : Relations :=
  { s with cards := s.cards.map fun card => if card.id = asset then { card with deleted := deleted } else card }

def RelationCall.result (s : Relations) : RelationCall → Except RelationError Relations
  | .refresh o => refreshCandidates s o
  | .confirm key asset claimed reason o reconsider =>
    Inventory.confirm s key asset claimed reason o reconsider
  | .finish id claimed reason reject now => endRelation s id claimed reason reject now
  | .create asset macs =>
    if s.cards.any fun card => card.id = asset then .error .card
    else ({ s with cards := s.cards ++ [⟨asset, false, macs⟩] } : Relations).flush
  | .setMacs asset macs =>
    ({ s with cards := s.cards.map fun card =>
      if card.id = asset ∧ card.deleted = false then { card with macs := macs } else card } : Relations).flush
  | .delete asset now =>
    (({ s with rows := s.rows.map fun r => r.endWithCard asset now } : Relations).setDeleted asset true).flush
  | .restore asset => (s.setDeleted asset false).flush

def relate (s : Relations) (c : RelationCall) : Relations :=
  match c.result s with
  | .ok s' => s'
  | .error _ => s

def noRelations : Relations := ⟨[], []⟩

end WebOvpn.Inventory
