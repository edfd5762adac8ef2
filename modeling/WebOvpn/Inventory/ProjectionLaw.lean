/-
The projection of the inventory for the network pages.  The epoch covers what is shown:
a run of writes that leaves the epoch leaves every fact of every host.
-/
import WebOvpn.Inventory.Tables
import WebOvpn.Lib.Run

namespace WebOvpn.Inventory

open Text

inductive RelationState where
  | linked
  | unlinked
  | candidate
  | ambiguous
  deriving DecidableEq

/-- `relation_state`; of the evidence the truth of `ambiguous` is given. -/
def relationState (rows : List (BindingStatus × Bool)) : RelationState :=
  let confirmed := (rows.filter fun row => row.1 = .confirmed).length
  let candidates := rows.filter fun row => row.1 = .candidate
  if 1 < confirmed ∨ candidates.any Prod.snd = true then .ambiguous
  else if 0 < confirmed then .linked
  else if candidates ≠ [] then .candidate
  else .unlinked

/-- What the platform decides: which tokens are a float of value zero. -/
structure ProjectionRuntime where
  isZero : List Char → Bool
  endpointEnabled : Bool

variable (rt : ProjectionRuntime)

def ProjectionRuntime.isTrue : JVal → Bool
  | .null => false
  | .bool b => b
  | .int n => n ≠ 0
  | .float token => !rt.isZero token
  | .str s => s ≠ []
  | .arr items => items ≠ []
  | .obj members => members ≠ []

/-- `ambiguous_flag`: `NULL` and zero are false, anything else is a conflict. -/
def ProjectionRuntime.ambiguousFlag : JVal → Bool
  | .null => false
  | .bool b => b
  | .int n => n ≠ 0
  | .float token => !rt.isZero token
  | _ => true

def Tables.liveRows (s : Tables) : List NetctlBinding :=
  s.netctl.flatMap fun r =>
    if r.endedAt =
      none then (s.assets.filter fun a => a.id = r.asset && a.deletedAt.isNone).map fun _ => r
      else []

def stateName : RelationState → Text
  | .linked => "linked"
  | .unlinked => "unlinked"
  | .candidate => "candidate"
  | .ambiguous => "ambiguous"

def upperHexDigit (c : CodePoint) : Bool := c.isDigit || (65 ≤ c.val && c.val ≤ 70)

/-- The pattern of a network key, without the group addresses. -/
def isProjectionKey (key : Text) : Bool :=
  fullmatch (literal "mac:" ++ (List.replicate 5 [upperHexDigit, upperHexDigit, (· == 58)]).flatten ++
      [upperHexDigit, upperHexDigit]) key &&
    key ≠ "mac:00:00:00:00:00:00" && !isMulticast (key.drop 4)

def validateProjection (revision : Nat) (states : List (Text × RelationState)) : Bool :=
  revision ≤ 2 ^ 63 - 1 && states.length ≤ 50000 && (states.all fun entry => isProjectionKey entry.1) &&
    (dumps compact (.obj [("schema_version", .int 1), ("revision", .int revision),
      ("states", .obj (states.map fun entry => (entry.1, .str (stateName entry.2))))])).length ≤ 2097152

def utf8Width (c : CodePoint) : Nat := if c.val < 0x80 then 1 else if c.val < 0x800 then 2
    else if c.val < 0x10000 then 3 else 4

def Tables.filterRows (s : Tables) : List NetctlBinding :=
  s.liveRows.filter fun r => r.status = .confirmed || r.status = .candidate

def filterStates (s : Tables) : List (Text × RelationState) :=
  (s.filterRows.map NetctlBinding.key).eraseDups.map fun key =>
    (key, relationState ((s.filterRows.filter fun r => r.key = key).map fun r =>
      (r.status, rt.ambiguousFlag (Members.field r.evidence "ambiguous"))))

def filterProjection (s : Tables) : Option (Nat × List (Text × RelationState)) :=
  if 100000 < s.filterRows.length ∨ (s.filterRows.any fun r => 255 < (r.key.map utf8Width).sum) = true then none
  else if validateProjection s.epoch (filterStates rt s) = true then some (s.epoch, filterStates rt s)
  else none

def sentState (states : List (Text × RelationState)) (key : Text) : RelationState :=
  (states.lookup key).getD .unlinked

/-- A relation of a host with its card and the place of the card. -/
structure LinkRow where
  bindingId : Text
  status : BindingStatus
  evidence : Members
  asset : Asset
  location : Option Location

def Tables.linksOf (s : Tables) (key : Text) : List LinkRow :=
  s.netctl.flatMap fun r =>
    if r.key = key ∧ r.endedAt = none then
      (s.assets.filter fun a => a.id = r.asset && a.deletedAt.isNone).map fun a =>
        ⟨r.id, r.status, r.evidence, a, s.locations.find? fun location =>
          some location.id = a.fields.locationId⟩
    else []

def Tables.endpointsOf (s : Tables) (asset : Text) : List (ExternalBinding × Option EndpointState) :=
  (s.external.filter fun r => r.asset = asset && r.source = text "endpoint_platform" &&
    r.endedAt.isNone).flatMap
    fun r =>
      match s.endpointStates.filter fun state => state.bindingId = r.id with
      | [] => [(r, none)]
      | states => states.map fun state => (r, some state)

structure ShownAsset where
  id : Text
  name : Text
  inventoryNumber : Option Text
  location : Option Text
  assignedPersonName : Option Text
  manualRevision : Nat

structure InventoryFacts where
  state : RelationState
  candidateCount : Nat
  asset : Option ShownAsset
  bindingId : Option Text

inductive EndpointLink where
  | disabled
  | unknown
  | ambiguous
  | confirmed
  | candidate
  | unbound
  deriving DecidableEq

inductive Freshness where
  | unknown
  | unavailable
  | fresh
  | stale
  deriving DecidableEq

/-- `host['endpoint_agent']`. -/
structure EndpointFacts where
  state : EndpointLink
  freshness : Freshness
  deviceId : Option Text
  evidenceKind : Option Text
  online : Option Bool
  gatewayLastSeenAt : Option Text

def textOr (a : Option Text) (b : Text) : Text :=
  match a with
  | some (c :: rest) => c :: rest
  | _ => b

def Asset.display (a : Asset) (location : Option Location) : ShownAsset := {
  id := a.id
  name := textOr a.fields.customName (textOr a.fields.model a.id)
  inventoryNumber := a.fields.inventoryNumber
  location := location.bind Location.name
  assignedPersonName := a.fields.assignedPersonName
  manualRevision := a.manualRevision }

/-- Not older than `STATE_MAX_AGE`. -/
def isFreshAt (now t : Instant) : Bool := t.val ≤ now.val ∧ now.val - t.val ≤ 600000000

/-- `_parsed`; an error is an `OverflowError`. -/
def parsedTime (value : JVal) : Except Unit (Option Instant) :=
  match value with
  | .str s =>
    match fromisoformat (s.flatMap fun c => if c.val = 90 then "+00:00" else [c]) with
    | none => .ok none
    | some d =>
      match d.offset with
      | none => .ok none
      | some offset =>
        let micros := d.utcMicros offset
        if h : 0 ≤ micros ∧
          micros.toNat <
          315537897600000000 then .ok (some ⟨micros.toNat, d.lt_of_utcMicros offset h⟩)
        else .error ()
  | _ => .ok none

def profiles : List String := ["baseline_v1", "health_v1", "network_v1", "inventory_v1", "session_v1"]

def profileTime (context : Members) (source profile : String) : Except Unit (Option Instant) :=
  match Members.field context source with
  | .obj values => parsedTime (Members.field values profile)
  | _ => .ok none

def baselineFreshness (state : EndpointState) (now : Instant) : Except Unit (Option Freshness) :=
  match Members.field state.context "profile_status" with
  | .obj statuses => do
      let _ ← profiles.mapM fun profile =>
        ["profile_collected_at", "profile_checked_at", "profile_last_success_at"].mapM fun source =>
          profileTime state.context source profile
      let collected ← profileTime state.context "profile_collected_at" "baseline_v1"
      let checked ← profileTime state.context "profile_checked_at" "baseline_v1"
      if state.unavailableSince.isSome = true ∨
        Members.field state.context "identity_status" = .str "unavailable" ∨
          Members.field statuses "baseline_v1" ≠ .str "available" then return some .unavailable
      else if collected.any (isFreshAt now) = true ∧ checked.any (isFreshAt now) = true then return some .fresh
      else return some .stale
  | _ => .ok none

def agentFreshness (sourceError : Bool) (state : EndpointState)
    (now : Instant) : Except Unit Freshness := do
  let baseline ← baselineFreshness state now
  match baseline, sourceError with
  | some status, false => return status
  | _, _ =>
    if sourceError = true ∨ state.unavailableSince.isSome = true then return .unavailable
    else
      match state.lastSuccessAt with
      | none => return .unknown
      | some checked => return if isFreshAt now checked = true then .fresh else .stale

def agentOf (s : Tables) (now : Instant) (asset : Text) (start : EndpointFacts) :
    Except Unit EndpointFacts :=
  let endpoints := s.endpointsOf asset
  let sourceError := (s.controls.find? fun control => control.id = 1).any fun control =>
    control.lastSafeErrorCode.any (· ≠ [])
  match endpoints.filter fun endpoint => endpoint.1.status = .confirmed with
  | [] =>
    if rt.endpointEnabled = true then
      .ok { start with
        state := if (endpoints.any fun endpoint => endpoint.1.status = .candidate) = true then .candidate
          else .unbound }
    else .ok start
  | [(binding, state)] =>
    let facts := { start with
      deviceId := some binding.externalId
      evidenceKind := some (text "inventory_confirmed_binding")
      state := if rt.endpointEnabled = true then .confirmed else .disabled }
    match state with
    | some state =>
      if state.asset = asset ∧ state.device = binding.externalId then do
        let freshness ← agentFreshness sourceError state now
        return { facts with
          freshness := freshness
          online := state.online
          gatewayLastSeenAt := state.lastSeenAt.map Instant.isoformat }
      else .ok facts
    | none => .ok facts
  | _ => .ok { start with state := if rt.endpointEnabled = true then .ambiguous else .disabled }

def hostFacts (s : Tables) (now : Instant) (key : Text) :
    Except Unit (InventoryFacts × EndpointFacts) :=
  let links := s.linksOf key
  let confirmed := links.filter fun link => link.status = .confirmed
  let candidates := links.filter fun link => link.status = .candidate
  let state := relationState (links.map fun link =>
    (link.status, rt.isTrue (Members.field link.evidence "ambiguous")))
  let inventory : InventoryFacts := ⟨state, candidates.length, none, none⟩
  let endpoint : EndpointFacts :=
    ⟨if rt.endpointEnabled = true then .unknown else .disabled, .unknown, none, none, none, none⟩
  match confirmed, state with
  | link :: _, .linked | link :: _, .candidate | link :: _, .unlinked => do
      let agent ← agentOf rt s now link.asset.id endpoint
      return ({ inventory with asset := some (link.asset.display link.location), bindingId := some link.bindingId },
        agent)
  | _, _ =>
    .ok (inventory, { endpoint with
      state :=
        if rt.endpointEnabled = true then
          if state = .ambiguous then .ambiguous else if candidates ≠ [] then .candidate else .unbound
        else endpoint.state })

def attachNetworkProjection (s : Tables) (now : Instant) (keys : List Text) :
    Except Unit (List (InventoryFacts × EndpointFacts)) :=
  keys.mapM (hostFacts rt s now)

open List

variable {rt : ProjectionRuntime} {s s' : Tables} {w : Write} {key : Text} {now : Instant}
    {cards : List Text}

def keepsKey {ρ κ : Type} [DecidableEq κ] (key : ρ → κ) : Option ρ × Option ρ → Bool
  | (some old, some new) => key old = key new
  | _ => true

def Tables.keepsKeys (s : Tables) : Write → Bool
  | .asset w => keepsKey Asset.id (w.images s.assets)
  | .netctl w => keepsKey NetctlBinding.id (w.images s.netctl)
  | .external w => keepsKey ExternalBinding.id (w.images s.external)
  | .endpointState w => keepsKey EndpointState.bindingId (w.images s.endpointStates)
  | .location w => keepsKey Location.id (w.images s.locations)
  | .control w => keepsKey SyncControl.id (w.images s.controls)
  | _ => true

structure LinkColumns where
  id : Text
  asset : Text
  key : Text
  shown : NetctlShown
  deriving DecidableEq

def NetctlBinding.linkColumns (r : NetctlBinding) : LinkColumns := ⟨r.id, r.asset, r.key, r.shown⟩

structure Tables.SameShown (s s' : Tables) : Prop where
  assets : s'.assets = s.assets
  netctl : s'.netctl.map NetctlBinding.linkColumns = s.netctl.map NetctlBinding.linkColumns
  external : s'.external = s.external
  endpointStates : s'.endpointStates = s.endpointStates
  locations : s'.locations = s.locations
  controls : s'.controls = s.controls

theorem Tables.sameShown_refl (s : Tables) : s.SameShown s := ⟨rfl, rfl, rfl, rfl, rfl, rfl⟩

theorem Tables.SameShown.trans {s'' : Tables} (h : s.SameShown s') (h' : s'.SameShown s'') :
    s.SameShown s'' :=
  ⟨h'.assets.trans h.assets, h'.netctl.trans h.netctl, h'.external.trans h.external,
    h'.endpointStates.trans h.endpointStates, h'.locations.trans h.locations, h'.controls.trans h.controls⟩

theorem apply_eq_of_not_fires {ρ κ φ : Type} [DecidableEq κ] [DecidableEq φ] {pk : ρ → κ} {view : ρ → φ}
    {rows : List ρ} {w : RowWrite ρ} (hdt : ∀ r r', pk r = pk r' → view r = view r' → r = r')
    (hkey : keepsKey pk (w.images rows) = true) (hfr : fires view (w.images rows) = false) :
    w.apply rows = rows := by
  have hmap : (w.images rows).1.map id = (w.images rows).2.map id := by
    unfold fires at hfr
    rw [decide_eq_false_iff_not, not_not] at hfr
    generalize w.images rows = images at hkey hfr ⊢
    obtain ⟨old, new⟩ := images
    cases old with
    | none =>
      cases new with
      | none => rfl
      | some new => cases hfr
    | some old =>
      cases new with
      | none => cases hfr
      | some new =>
        have hpk : pk old = pk new := of_decide_eq_true hkey
        rw [hdt old new hpk (Option.some.inj hfr)]
  have hap := RowWrite.map_apply hmap
  rw [map_id, map_id] at hap
  exact hap

theorem advance_eq (h : (s.advance cards).epoch = s.epoch) :
    (∀ a ∈ s.assets, a.id ∉ cards) ∧ s.advance cards = s := by
  have hnn : (s.assets.filter fun a => a.id ∈ cards) = [] := by
    rw [← length_eq_zero_iff]
    change s.epoch + _ = s.epoch at h
    omega
  rw [filter_eq_nil_iff] at hnn
  have htl : ∀ a ∈ s.assets, a.id ∉ cards := by
    intro a ha hmem
    exact hnn a ha (decide_eq_true hmem)
  refine ⟨htl, ?_⟩
  have hass : (s.assets.map fun a =>
    if a.id ∈ cards then { a with manualRevision := a.manualRevision + 1 } else a) =
      s.assets := by
    rw [map_congr_left (g := id), map_id]
    intro a ha
    exact if_neg (htl a ha)
  unfold Tables.advance
  rw [hass]
  change ({ s with epoch := (s.advance cards).epoch } : Tables) = s
  rw [h]

theorem write_unshown (hwr : s.write w = some s') (hepo : s'.epoch = s.epoch) :
    s' = s.change w ∧ s.isShown w = false ∧ ∀ a ∈ (s.change w).assets, a.id ∉ s.targets w := by
  unfold Tables.write at hwr
  split_ifs at hwr
  cases hwr
  have hch : (s.change w).epoch = s.epoch := by cases w <;> rfl
  have hle : (s.change w).epoch ≤ ((s.change w).advance (s.targets w)).epoch := Nat.le_add_right _ _
  change ((s.change w).advance (s.targets w)).epoch + (if s.isShown w = true then 1 else 0) = s.epoch at hepo
  have hsh : s.isShown w = false := by
    rw [← Bool.not_eq_true]
    intro h
    rw [if_pos h] at hepo
    omega
  rw [hsh, if_neg Bool.false_ne_true] at hepo
  obtain ⟨htl, hsm⟩ := advance_eq (hepo.trans hch.symm)
  refine ⟨?_, hsh, htl⟩
  rw [hsm, hsh]
  rfl

theorem asset_unshown {w : RowWrite Asset} (hks : keepsKey Asset.id (w.images s.assets) = true)
    (hsh : fires Asset.shown (w.images s.assets) = false)
    (htl : ∀ a ∈ w.apply s.assets, a.id ∉ assetTargets (w.images s.assets)) :
      w.apply s.assets = s.assets := by
  have hdt : ∀ a b : Asset, a.id = b.id → (a.shown, a.fields) = (b.shown, b.fields) → a = b := by
    intro a b hid hvie
    obtain ⟨hsh', hfl⟩ := Prod.mk.inj hvie
    obtain ⟨hrv, hdel⟩ := Prod.mk.inj hsh'
    cases a
    cases b
    simp_all only
  apply apply_eq_of_not_fires hdt hks
  unfold fires at hsh ⊢
  rw [decide_eq_false_iff_not, not_not] at hsh ⊢
  have hmem : ∀ new, (w.images s.assets).2 = some new → new ∈ w.apply s.assets := fun _ => RowWrite.mem_apply
  generalize w.images s.assets = images at hsh htl hmem ⊢
  obtain ⟨old, new⟩ := images
  cases old with
  | none =>
    cases new with
    | none => rfl
    | some new => cases hsh
  | some old =>
    cases new with
    | none => cases hsh
    | some new =>
      have hfl : old.fields = new.fields := by
        by_contra hne
        apply htl new (hmem new rfl)
        change new.id ∈ if old.fields ≠ new.fields then [new.id] else []
        rw [if_pos hne]
        exact mem_singleton.2 rfl
      change some (old.shown, old.fields) = some (new.shown, new.fields)
      rw [Option.some.inj hsh, hfl]

theorem netctl_unshown {w : RowWrite NetctlBinding}
    (hks : keepsKey NetctlBinding.id (w.images s.netctl) = true)
    (hsh : fires NetctlBinding.shown (w.images s.netctl) = false)
    (hga : s.refuses (.netctl w) = false) :
    (w.apply s.netctl).map NetctlBinding.linkColumns = s.netctl.map NetctlBinding.linkColumns := by
  apply RowWrite.map_apply
  unfold fires at hsh
  rw [decide_eq_false_iff_not, not_not] at hsh
  have hide : ∀ old new, w.images s.netctl = (some old, some new) → old.asset = new.asset ∧
    old.key = new.key := by
    intro old new hima
    unfold Tables.refuses at hga
    simp only [hima, Bool.or_eq_false_iff, decide_eq_false_iff_not, not_not] at hga
    exact hga.2.1
  generalize w.images s.netctl = images at hks hsh hide ⊢
  obtain ⟨old, new⟩ := images
  cases old with
  | none =>
    cases new with
    | none => rfl
    | some new => cases hsh
  | some old =>
    cases new with
    | none => cases hsh
    | some new =>
      obtain ⟨hass, hkey⟩ := hide old new rfl
      have hid : old.id = new.id := of_decide_eq_true hks
      change some (LinkColumns.mk old.id old.asset old.key old.shown) =
        some ⟨new.id, new.asset, new.key, new.shown⟩
      rw [hid, hass, hkey, Option.some.inj hsh]

theorem write_sameShown (hks : s.keepsKeys w = true) (hwr : s.write w = some s')
    (hepo : s'.epoch = s.epoch) :
    s.SameShown s' := by
  obtain ⟨rfl, hsh, htl⟩ := write_unshown hwr hepo
  cases w with
  | asset w => exact ⟨asset_unshown hks hsh htl, rfl, rfl, rfl, rfl, rfl⟩
  | netctl w =>
    have hga : s.refuses (.netctl w) = false := by
      unfold Tables.write at hwr
      split_ifs at hwr with href
      exact Bool.eq_false_iff.2 href
    exact ⟨rfl, netctl_unshown hks hsh hga, rfl, rfl, rfl, rfl⟩
  | external w =>
    refine ⟨rfl, rfl, apply_eq_of_not_fires ?_ hks hsh, rfl, rfl, rfl⟩
    intro a b hid hvie
    cases a
    cases b
    simp_all only [ExternalBinding.decision, ExternalDecision.mk.injEq]
  | endpointState w =>
    refine ⟨rfl, rfl, rfl, apply_eq_of_not_fires ?_ hks hsh, rfl, rfl⟩
    intro a b hid hvie
    cases a
    cases b
    simp_all only [EndpointState.shown, EndpointShown.mk.injEq]
  | location w =>
    refine ⟨rfl, rfl, rfl, rfl, apply_eq_of_not_fires ?_ hks hsh, rfl⟩
    intro a b hid hvie
    cases a
    cases b
    simp_all only
  | control w =>
    refine ⟨rfl, rfl, rfl, rfl, rfl, apply_eq_of_not_fires ?_ hks hsh⟩
    intro a b hid hvie
    cases a
    cases b
    simp_all only [SyncControl.shown, Prod.mk.injEq]
  | _ => exact ⟨rfl, rfl, rfl, rfl, rfl, rfl⟩

/-- The store after a write; an aborted one changes nothing. -/
def writeTo (s : Tables) (w : Write) : Tables := (s.write w).getD s

theorem epoch_writeTo (s : Tables) (w : Write) : s.epoch ≤ (writeTo s w).epoch := by
  unfold writeTo
  cases hwr : s.write w with
  | none => exact Nat.le_refl _
  | some s' =>
    unfold Tables.write at hwr
    split_ifs at hwr
    cases hwr
    have hch : (s.change w).epoch = s.epoch := by cases w <;> rfl
    change s.epoch ≤ (s.change w).epoch + _ + _
    rw [hch, Nat.add_assoc]
    exact Nat.le_add_right _ _

theorem writeTo_sameShown (hks : s.keepsKeys w = true) (hepo : (writeTo s w).epoch = s.epoch) :
    s.SameShown (writeTo s w) := by
  unfold writeTo at hepo ⊢
  cases hwr : s.write w with
  | none => exact s.sameShown_refl
  | some s' =>
    rw [hwr] at hepo
    exact write_sameShown hks hwr hepo

theorem epoch_run (s : Tables) (ws : List Write) : s.epoch ≤ (run writeTo s ws).epoch :=
  run_relates (I := fun _ => True) (R := fun s s' => s.epoch ≤ s'.epoch) trivial (fun _ _ _ => trivial)
    (fun _ => Nat.le_refl _) (fun _ _ _ => Nat.le_trans) fun s w _ => epoch_writeTo s w

theorem run_sameShown {ws : List Write} (hks : Along writeTo (fun s w => s.keepsKeys w = true) s ws)
    (hepo : (run writeTo s ws).epoch = s.epoch) : s.SameShown (run writeTo s ws) := by
  induction ws generalizing s with
  | nil => exact s.sameShown_refl
  | cons w rest ih =>
    have hfs := epoch_writeTo s w
    have hrs := epoch_run (writeTo s w) rest
    change (run writeTo (writeTo s w) rest).epoch = s.epoch at hepo
    have hsm : (writeTo s w).epoch = s.epoch := by omega
    exact (writeTo_sameShown hks.1 hsm).trans (ih hks.2 (hepo.trans hsm.symm))

def linkRows (assets : List Asset) (locations : List Location) (key : Text) (c : LinkColumns) :
    List LinkRow :=
  if c.key = key ∧ c.shown.endedAt = none then
    (assets.filter fun a => a.id = c.asset && a.deletedAt.isNone).map fun a =>
      ⟨c.id, c.shown.status, c.shown.evidence, a, locations.find? fun location =>
        some location.id = a.fields.locationId⟩
  else []

theorem linksOf_eq (s : Tables) (key : Text) :
    s.linksOf key =
      (s.netctl.map NetctlBinding.linkColumns).flatMap (linkRows s.assets s.locations key) := by
  rw [flatMap_map]
  rfl

theorem Tables.SameShown.linksOf_eq (h : s.SameShown s') : s'.linksOf = s.linksOf := by
  funext key
  rw [Inventory.linksOf_eq, Inventory.linksOf_eq, h.netctl, h.assets, h.locations]

theorem Tables.SameShown.agentOf_eq (h : s.SameShown s') : agentOf rt s' = agentOf rt s := by
  funext now asset start
  unfold agentOf Tables.endpointsOf
  rw [h.external, h.endpointStates, h.controls]

theorem Tables.SameShown.attach_eq (h : s.SameShown s') (keys : List Text) :
    attachNetworkProjection rt s' now keys = attachNetworkProjection rt s now keys := by
  have hfc : hostFacts rt s' now = hostFacts rt s now := by
    funext key
    unfold hostFacts
    rw [h.linksOf_eq, h.agentOf_eq]
  unfold attachNetworkProjection
  rw [hfc]

/-- The value is an empty text, list or object: false for Python, but a conflict
for the filter. -/
def isEmptyValue : JVal → Bool
  | .str [] => true
  | .arr [] => true
  | .obj [] => true
  | _ => false

theorem ambiguousFlag_eq {v : JVal} (h : isEmptyValue v = false) :
    rt.ambiguousFlag v = rt.isTrue v := by
  cases v with
  | str s =>
    cases s with
    | nil => cases h
    | cons c rest => rfl
  | arr items =>
    cases items with
    | nil => cases h
    | cons v rest => rfl
  | obj members =>
    cases members with
    | nil => cases h
    | cons m rest => rfl
  | _ => rfl

/-- No candidate that is shown has an empty value for `ambiguous`. -/
def Tables.plainEvidence (s : Tables) : Prop :=
  ∀ r ∈ s.netctl, r.endedAt = none → r.status = .candidate →
    isEmptyValue (Members.field r.evidence "ambiguous") = false

theorem relationState_congr {rows rows' : List (BindingStatus × Bool)}
    (hcn : (rows.filter fun row => row.1 = .confirmed).length =
      (rows'.filter fun row => row.1 = .confirmed).length)
    (hca : rows.filter (fun row => row.1 = .candidate) = rows'.filter fun row => row.1 = .candidate) :
    relationState rows = relationState rows' := by
  unfold relationState
  rw [hcn, hca]

theorem linksOf_statuses (s : Tables) (key : Text) (truth : JVal → Bool) :
    (s.linksOf key).map (fun link => (link.status, truth (Members.field link.evidence "ambiguous"))) =
      (s.liveRows.filter fun r => r.key = key).map fun r =>
        (r.status, truth (Members.field r.evidence "ambiguous")) := by
  unfold Tables.linksOf Tables.liveRows
  rw [filter_flatMap, map_flatMap, map_flatMap]
  apply flatMap_congr
  intro r _
  by_cases hend : r.endedAt = none
  · by_cases hkey : r.key = key
    · rw [if_pos ⟨hkey, hend⟩, if_pos hend, filter_map, map_map, map_map]
      have hall : (s.assets.filter fun a => a.id = r.asset && a.deletedAt.isNone).filter
          ((fun r : NetctlBinding => decide (r.key = key)) ∘ fun _ => r) =
          s.assets.filter fun a => a.id = r.asset && a.deletedAt.isNone := by
        rw [filter_eq_self]
        intro a _
        exact decide_eq_true hkey
      rw [hall]
      rfl
    · rw [if_neg fun h => hkey h.1, if_pos hend]
      symm
      rw [map_nil, map_eq_nil_iff, filter_eq_nil_iff]
      intro r' hr' hsm
      obtain ⟨a, -, rfl⟩ := mem_map.1 hr'
      exact hkey (of_decide_eq_true hsm)
  · rw [if_neg fun h => hend h.2, if_neg hend]
    rfl

theorem lookup_map_key {f : Text → RelationState} (keys : List Text) (key : Text) :
    (keys.map fun key => (key, f key)).lookup key = if key ∈ keys then some (f key) else none := by
  induction keys with
  | nil => rfl
  | cons first rest ih =>
    rw [map_cons, lookup_cons]
    by_cases hkey : key = first
    · subst hkey
      rw [beq_self_eq_true, if_pos mem_cons_self]
    · rw [beq_eq_false_iff_ne.2 hkey, ih]
      simp only [mem_cons, hkey, false_or]

theorem sentState_eq {revision : Nat} {states : List (Text × RelationState)}
    (h : filterProjection rt s = some (revision, states)) (key : Text) :
    sentState states key = relationState ((s.filterRows.filter fun r => r.key = key).map fun r =>
      (r.status, rt.ambiguousFlag (Members.field r.evidence "ambiguous"))) := by
  unfold filterProjection at h
  split_ifs at h
  cases h
  unfold sentState filterStates
  rw [lookup_map_key]
  split_ifs with hkey
  · rfl
  · have hnn : (s.filterRows.filter fun r => r.key = key) = [] := by
      rw [filter_eq_nil_iff]
      intro r hr hsm
      apply hkey
      rw [mem_eraseDups]
      exact mem_map.2 ⟨r, hr, of_decide_eq_true hsm⟩
    rw [hnn]
    rfl

theorem filter_statuses (rows : List NetctlBinding) (truth : JVal → Bool) (status : BindingStatus) :
    (rows.map fun r => (r.status, truth (Members.field r.evidence "ambiguous"))).filter
      (fun row => row.1 = status) =
      (rows.filter fun r => r.status = status).map fun r =>
        (r.status, truth (Members.field r.evidence "ambiguous")) := filter_map

theorem mem_liveRows {r : NetctlBinding} (h : r ∈ s.liveRows) : r ∈ s.netctl ∧ r.endedAt = none := by
  unfold Tables.liveRows at h
  obtain ⟨row, hrow, hmem⟩ := mem_flatMap.1 h
  split_ifs at hmem with hend
  · obtain ⟨a, -, rfl⟩ := mem_map.1 hmem
    exact ⟨hrow, hend⟩
  · cases hmem

theorem displayed_state_eq (hpl : s.plainEvidence) (key : Text) :
    relationState
      ((s.linksOf key).map fun link =>
      (link.status, rt.isTrue (Members.field link.evidence "ambiguous"))) =
      relationState ((s.filterRows.filter fun r => r.key = key).map fun r =>
        (r.status, rt.ambiguousFlag (Members.field r.evidence "ambiguous"))) := by
  rw [linksOf_statuses]
  have hsl : ∀ status : BindingStatus, status = .confirmed ∨ status = .candidate →
      ((s.filterRows.filter fun r => r.key = key).filter fun r => r.status = status) =
        (s.liveRows.filter fun r => r.key = key).filter fun r => r.status = status := by
    intro status hst
    unfold Tables.filterRows
    rw [filter_filter, filter_filter, filter_filter]
    apply filter_congr
    intro r _
    by_cases hr : r.status = status
    · rcases hst with rfl | rfl <;> simp [hr]
    · simp [hr]
  apply relationState_congr
  · rw [filter_statuses, filter_statuses, hsl .confirmed (.inl rfl), length_map, length_map]
  · rw [filter_statuses, filter_statuses, hsl .candidate (.inr rfl)]
    apply map_congr_left
    intro r hr
    obtain ⟨hmem, hcn⟩ := mem_filter.1 hr
    obtain ⟨hrow, hend⟩ := mem_liveRows (mem_filter.1 hmem).1
    rw [ambiguousFlag_eq (hpl r hrow hend (of_decide_eq_true hcn))]

theorem hostFacts_state {facts : InventoryFacts × EndpointFacts}
    (h : hostFacts rt s now key = .ok facts) :
    facts.1.state = relationState ((s.linksOf key).map fun link =>
      (link.status, rt.isTrue (Members.field link.evidence "ambiguous"))) := by
  unfold hostFacts at h
  simp only at h
  split at h
  · obtain ⟨agent, -, h⟩ := bind_eq_ok.1 h
    cases h
    rfl
  · obtain ⟨agent, -, h⟩ := bind_eq_ok.1 h
    cases h
    rfl
  · obtain ⟨agent, -, h⟩ := bind_eq_ok.1 h
    cases h
    rfl
  · cases h
    rfl

/-- When no primary key of a shown row changes, a run of writes that leaves the
epoch leaves every fact of every host.  In a store without empty values for
`ambiguous` the filter sends the state that the display shows. -/
theorem epoch_covers_projection (rt : ProjectionRuntime) (s : Tables) (now : Instant) :
    (∀ ws : List Write, Along writeTo (fun s w => s.keepsKeys w = true) s ws → (run writeTo s ws).epoch = s.epoch →
      ∀ keys, attachNetworkProjection rt (run writeTo s ws) now keys =
        attachNetworkProjection rt s now keys) ∧
    (s.plainEvidence → ∀ revision states, filterProjection rt s = some (revision, states) →
      ∀ key facts, hostFacts rt s now key = .ok facts → facts.1.state = sentState states key) := by
  constructor
  · intro ws hks hepo keys
    exact (run_sameShown hks hepo).attach_eq keys
  · intro hpl revision states hsen key facts hfc
    rw [hostFacts_state hfc, displayed_state_eq hpl, sentState_eq hsen]

def linkedKey : Text := "mac:02:00:00:00:00:10"

def linkedRow (id : String) (status : BindingStatus) (evidence : Members) : NetctlBinding :=
  ⟨text id, "desk", linkedKey, status, evidence, [], 1, some 0, none, none⟩

def linkedStore (row : NetctlBinding) : Tables :=
  ⟨[⟨"desk", 1, none, ⟨"PC", none, none, none, none, none, none, none, none, none, none, none⟩⟩],
    [], [], [], [row], [], [], [], [], 1⟩

def quietRuntime : ProjectionRuntime := ⟨fun _ => false, false⟩

/-- To rename a confirmed relation changes the binding that is shown, but not the
epoch; and an empty text in the evidence is a conflict for the filter only. -/
theorem renamed_binding_unnoticed :
    (writeTo (linkedStore (linkedRow "one" .confirmed []))
      (.netctl (.update 0 (linkedRow "two" .confirmed [])))).epoch =
        (linkedStore (linkedRow "one" .confirmed [])).epoch ∧ (hostFacts quietRuntime
          (writeTo (linkedStore (linkedRow "one" .confirmed []))
            (.netctl (.update 0 (linkedRow "two" .confirmed []))))
          0 linkedKey).map (fun facts => facts.1.bindingId) = .ok (some (text "two")) ∧
      (hostFacts quietRuntime (linkedStore (linkedRow "one" .confirmed [])) 0 linkedKey).map
          (fun facts => facts.1.bindingId) = .ok (some (text "one")) ∧
      (filterProjection quietRuntime
        (linkedStore (linkedRow "one" .candidate [(text "ambiguous", .str [])]))).map
          (fun sent => sentState sent.2 linkedKey) = some .ambiguous ∧
      (hostFacts quietRuntime (linkedStore (linkedRow "one" .candidate [(text "ambiguous", .str [])])) 0 linkedKey).map
          (fun facts => facts.1.state) = .ok .candidate := by
  decide

end WebOvpn.Inventory
