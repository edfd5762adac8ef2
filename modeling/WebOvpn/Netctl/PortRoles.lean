/-
The roles of the ports of the switches: what the links and the subtree candidates
assign to a port, and what the number of addresses behind it says where nothing does.
-/
import WebOvpn.Netctl.FdbSubtree

namespace WebOvpn.Topology

inductive Role where
  | endpoint
  | backbone
  | downstreamBridge
  | sharedEdge
  | unknown
  deriving DecidableEq

def Role.text : Role → Text
  | .endpoint => WebOvpn.text "endpoint"
  | .backbone => WebOvpn.text "backbone"
  | .downstreamBridge => WebOvpn.text "downstream_bridge"
  | .sharedEdge => WebOvpn.text "shared_edge"
  | .unknown => WebOvpn.text "unknown"

structure PortMacSummary where
  sourceId : Int
  portKey : Text
  macCount : Nat
  knownAssetCount : Nat
  uniqueVendorCount : Nat
  switchManagementMacSeen : Bool
  observedAt : Text

structure PortRole where
  sourceId : Int
  portKey : Text
  role : Role
  confidence : Int
  macCount : Nat
  knownAssetCount : Nat
  uniqueVendorCount : Nat
  childSourceId : Option Int
  evidence : List Members
  observedAt : Text

structure SourceIdentity where
  sourceId : Int
  topologyRole : Text

def identityBySource (identities : List SourceIdentity) (sourceId : Int) : Option SourceIdentity :=
  identities.reverse.find? fun identity => identity.sourceId = sourceId

def linkPortKeys (link : CurrentSwitchLink) : List PortId :=
  sortedBy toLex (([(link.sourceAId, link.portAKey), (link.sourceBId, link.portBKey)] ++
    link.evidence.flatMap fun evidence =>
      [evidence.endpointA, evidence.endpointB].map fun endpoint => (endpoint.sourceId, endpoint.portKey)).filter
    fun port => port.2 ≠ []).dedup

def topologyRoleRank (topologyRole : Text) : Option Nat :=
  if topologyRole = "core" then some 0
  else if topologyRole = "distribution" then some 1
  else if topologyRole = "access" then some 2
  else if topologyRole = "edge" then some 3
  else none

/-- What is known of the switches apart from their links. -/
structure Layout where
  depths : Int → Option Int
  identities : List SourceIdentity

def Layout.rank (layout : Layout) (sourceId : Int) : Option Nat :=
  topologyRoleRank (match identityBySource layout.identities sourceId with
    | some identity => identity.topologyRole
    | none => [])

/-- Which of two switches is the nearer one, if the two measures are known and differ. -/
def nearer {α : Type} [LinearOrder α] (first second : Int) (firstMeasure secondMeasure : Option α) :
    Option Int :=
  match firstMeasure, secondMeasure with
  | some x, some y => if x = y then none else some (if x < y then first else second)
  | _, _ => none

def parentSource (layout : Layout) (first second : Int) : Option Int :=
  match nearer first second (layout.depths first) (layout.depths second) with
  | some parent => some parent
  | none => nearer first second (layout.rank first) (layout.rank second)

structure Assignment where
  priority : Nat
  role : Role
  confidence : Int
  childSourceId : Option Int
  evidence : Members
  deriving DecidableEq

/-- What two assignments of one priority are compared in, `candidate[1:4]`. -/
def Assignment.claim (assignment : Assignment) : Role × Int × Option Int :=
  (assignment.role, assignment.confidence, assignment.childSourceId)

structure Assignments where
  assignments : PortId → Option Assignment
  conflicts : Finset PortId

def assign (s : Assignments) (port : PortId) (candidate : Assignment) : Assignments :=
  match s.assignments port with
  | none => { s with assignments := Function.update s.assignments port (some candidate) }
  | some current =>
    if current.priority < candidate.priority then
      { s with assignments := Function.update s.assignments port (some candidate) }
    else if candidate.priority = current.priority ∧ candidate.claim ≠ current.claim then
      { s with conflicts := insert port s.conflicts }
    else s

def backboneEnds (link : CurrentSwitchLink) (priority : Nat) (confidence : Int) (evidenceType : Text) :
    List (PortId × Assignment) :=
  link.held.map fun held =>
    (held.1,
      { priority := priority
        role := .backbone
        confidence := confidence
        childSourceId := none
        evidence := [("type", .str evidenceType), ("peer_source_id", .int held.2)] })

def neighbourEnds (layout : Layout) (link : CurrentSwitchLink) : List (PortId × Assignment) :=
  let parent := parentSource layout link.sourceAId link.sourceBId
  link.held.map fun held =>
    let isParent := some held.1.1 = parent
    (held.1,
      { priority := 250
        role := if isParent then .downstreamBridge else .backbone
        confidence := 95
        childSourceId := if isParent then some held.2 else none
        evidence :=
          [("type", .str (if isParent then "lldp_child_switch" else "lldp_backbone")),
            ("peer_source_id", .int held.2)] })

def linkAssignments (layout : Layout) (link : CurrentSwitchLink) : List (PortId × Assignment) :=
  if link.state = .confirmed then backboneEnds link 300 100 "confirmed_topology"
  else if hasType link.evidence intent then backboneEnds link 275 95 "intent_topology"
  else if hasType link.evidence lldpChassisMac then neighbourEnds layout link
  else if [link.sourceAId, link.sourceBId].all fun source => source ∈ managementSides link.evidence then
    backboneEnds link 225 95 "bidirectional_management_fdb"
  else if hasType link.evidence fdbSubtree then []
  else if link.state = .inferred then
    if hasType link.evidence fdbManagementMac then backboneEnds link 125 70 "one_sided_management_fdb"
    else backboneEnds link 200 95 "non_conflicting_topology"
  else []

def takeLink (layout : Layout) (s : Assignments) (link : CurrentSwitchLink) : Assignments :=
  if link.state = .conflicting then { s with conflicts := s.conflicts ∪ (linkPortKeys link).toFinset }
  else (linkAssignments layout link).foldl (fun s entry => assign s entry.1 entry.2) s

def CurrentSwitchLink.sortKey (link : CurrentSwitchLink) : Int ×ₗ Text ×ₗ Int ×ₗ Text ×ₗ Text :=
  toLex (link.sourceAId, toLex (link.portAKey, toLex (link.sourceBId, toLex (link.portBKey, link.linkKey))))

/-- The candidates and those of them that are selected, with the `repr` of a coverage. -/
structure Subtrees where
  candidates : List SubtreeCandidate
  linkCandidates : List SubtreeCandidate
  floatText : Rat → List Char

/-- What the subtree candidates assign: the parent's port by all of them, the child's by the
selected ones. -/
def subtreeAssignments (subtrees : Subtrees) : List (PortId × Assignment) :=
  ((sortedBy SubtreeCandidate.sortKey subtrees.candidates).map fun candidate =>
    ((candidate.parentSourceId, candidate.parentPortKey),
      { priority := 150
        role := .downstreamBridge
        confidence := candidate.confidence
        childSourceId := some candidate.childSourceId
        evidence := candidate.evidence subtrees.floatText })) ++
  (sortedBy SubtreeCandidate.sortKey subtrees.linkCandidates).map fun candidate =>
    ((candidate.childSourceId, candidate.childPortKey),
      { priority := 150
        role := .backbone
        confidence := candidate.confidence
        childSourceId := none
        evidence := [(text "type", .str (text "fdb_subtree_backbone")),
          (text "peer_source_id", .int candidate.parentSourceId)] ++
            (candidate.evidence subtrees.floatText).filter fun field => field.1 ≠ text "type" })

def topologyAssignments (layout : Layout) (subtrees : Subtrees) (links : List CurrentSwitchLink) :
    Assignments :=
  (subtreeAssignments subtrees).foldl (fun s entry => assign s entry.1 entry.2)
    ((sortedBy CurrentSwitchLink.sortKey links).foldl (takeLink layout) ⟨fun _ => none, ∅⟩)

/-- The role, its confidence and the reason that the number of addresses gives. -/
def densityDecision (summary : PortMacSummary) (threshold : Int) : Role × Int × Text :=
  if summary.macCount = 1 ∧ summary.switchManagementMacSeen = false then (.endpoint, 80, "single_endpoint")
  else if threshold ≤ summary.macCount then (.sharedEdge, 70, "mac_density")
  else if 4 ≤ summary.macCount then (.sharedEdge, 65, "moderate_mac_density")
  else if 2 ≤ summary.macCount then (.sharedEdge, 55, "small_multi_mac")
  else if summary.switchManagementMacSeen then (.unknown, 20, "switch_management_mac_seen")
  else (.unknown, 0, "no_learned_macs")

def densityRole (summary : PortMacSummary) (threshold : Int) : PortRole :=
  let decision := densityDecision summary threshold
  { sourceId := summary.sourceId
    portKey := summary.portKey
    role := decision.1
    confidence := decision.2.1
    macCount := summary.macCount
    knownAssetCount := summary.knownAssetCount
    uniqueVendorCount := summary.uniqueVendorCount
    childSourceId := none
    evidence :=
      [[("type", .str decision.2.2), ("mac_count", .int summary.macCount),
        ("known_asset_count", .int summary.knownAssetCount),
        ("unique_vendor_count", .int summary.uniqueVendorCount),
        ("access_port_mac_threshold", .int threshold),
        ("switch_management_mac_seen", .bool summary.switchManagementMacSeen)]]
    observedAt := summary.observedAt }

def maxSuppressedSubtreeEvidence : Nat := 8

def suppressedKey (candidate : SubtreeCandidate) : Int ×ₗ Rat ×ₗ Int ×ₗ Text :=
  toLex (-candidate.childManagementMacSeen.toNat, toLex (-candidate.coverage,
    toLex (candidate.childSourceId, candidate.childPortKey)))

/-- `child_source_id or winner_evidence.get("peer_source_id")`, if it is an integer. -/
def winnerPeerId (assignment : Assignment) : Option Int :=
  match assignment.childSourceId with
  | some child => if child = 0 then fromEvidence else some child
  | none => fromEvidence
where
  fromEvidence : Option Int :=
    match assignment.evidence.lookup (text "peer_source_id") with
    | some (.int peer) => some peer
    | _ => none

def suppressedSubtreeEvidence (port : PortId) (assignment : Assignment) (subtrees : Subtrees) :
    List Members :=
  if assignment.priority ≤ 150 then []
  else
    match winnerPeerId assignment, assignment.evidence.lookup (text "type") with
    | some peer, some (.str suppressedBy) =>
      let contradictory := sortedBy suppressedKey (subtrees.candidates.filter fun candidate =>
        (candidate.parentSourceId, candidate.parentPortKey) = port ∧ candidate.childSourceId ≠ peer)
      (contradictory.map fun candidate =>
        [(text "type", .str (text "fdb_subtree_suppressed")), (text "suppressed_by", .str suppressedBy)] ++
          (candidate.evidence subtrees.floatText).filter fun field => field.1 ≠ text "type").take
        maxSuppressedSubtreeEvidence
    | _, _ => []

def defaultAccessPortMacThreshold : Int := 10

/-- What is read from the database: the result of `port_mac_summaries`, and the threshold of a
source where
it sets one. -/
structure Observed where
  summaries : List PortMacSummary
  thresholds : Int → Option Int
  observedAt : Text

def PortMacSummary.port (summary : PortMacSummary) : PortId := (summary.sourceId, summary.portKey)

def summaryPorts (observed : Observed) (links : List CurrentSwitchLink) : List PortId :=
  sortedBy toLex (observed.summaries.map PortMacSummary.port ++ links.flatMap linkPortKeys).dedup

def summaryOf (observed : Observed) (port : PortId) : PortMacSummary :=
  (observed.summaries.reverse.find? fun summary => summary.port = port).getD
    ⟨port.1, port.2, 0, 0, 0, false, observed.observedAt⟩

def conflictEvidence (role : PortRole) : Members :=
  [("type", .str "topology_conflict"), ("density_role", .str role.role.text)]

def roleAt (observed : Observed) (subtrees : Subtrees) (assigned : Assignments)
    (port : PortId) : PortRole :=
  let summary := summaryOf observed port
  let role := densityRole summary ((observed.thresholds summary.sourceId).getD defaultAccessPortMacThreshold)
  if port ∈ assigned.conflicts then
    { role with
      role := .unknown
      confidence := 20
      childSourceId := none
      evidence := conflictEvidence role :: role.evidence
      observedAt := observed.observedAt }
  else
    match assigned.assignments port with
    | some assignment =>
      { role with
        role := assignment.role
        confidence := assignment.confidence
        childSourceId := assignment.childSourceId
        evidence := assignment.evidence :: (suppressedSubtreeEvidence port assignment subtrees ++ role.evidence)
        observedAt := observed.observedAt }
    | none => { role with observedAt := observed.observedAt }

def inferPortRoles (observed : Observed) (layout : Layout) (subtrees : Subtrees)
    (links : List CurrentSwitchLink) :
    List PortRole :=
  (summaryPorts observed links).map (roleAt observed subtrees (topologyAssignments layout subtrees links))

def PortRole.port (role : PortRole) : PortId := (role.sourceId, role.portKey)

def PortRole.isConflicting (role : PortRole) : Prop :=
  ∃ rest, role.evidence.head? = some ((text "type", .str (text "topology_conflict")) :: rest)

end WebOvpn.Topology
