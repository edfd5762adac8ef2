/-
Links between switches and the evidence for them; the children that the forwarding tables
give away, next to links of stronger evidence.
-/
import Mathlib.Algebra.Order.Ring.Unbundled.Rat
import Mathlib.Data.Finset.Sort
import WebOvpn.Lib.Bfs
import WebOvpn.Lib.JsonText
import WebOvpn.Lib.Sorted

namespace WebOvpn.Topology

structure LinkEndpoint where
  sourceId : Int
  portKey : Text
  deriving DecidableEq

structure LinkEvidence where
  endpointA : LinkEndpoint
  endpointB : LinkEndpoint
  evidenceType : Text
  confidence : Int
  observedAt : Text
  intentLinkStableId : Text
  details : Members
  deriving DecidableEq

inductive LinkState where
  | confirmed
  | inferred
  | ambiguous
  | conflicting
  deriving DecidableEq

structure CurrentSwitchLink where
  linkKey : Text
  sourceAId : Int
  portAKey : Text
  sourceBId : Int
  portBKey : Text
  state : LinkState
  confidence : Int
  intentLinkStableId : Text
  observedAt : Text
  evidence : List LinkEvidence
  deriving DecidableEq

def intent : Text := "intent"

def lldpChassisMac : Text := "lldp_chassis_mac"

def fdbManagementMac : Text := "fdb_management_mac"

def fdbSubtree : Text := "fdb_subtree"

def macDensity : Text := "mac_density"

def LinkEvidence.swap (evidence : LinkEvidence) : LinkEvidence :=
  { evidence with endpointA := evidence.endpointB, endpointB := evidence.endpointA }

def canonicalEvidence (evidence : LinkEvidence) : Option LinkEvidence :=
  if evidence.endpointA.sourceId = evidence.endpointB.sourceId then none
  else if evidence.endpointA.sourceId < evidence.endpointB.sourceId then some evidence
  else some evidence.swap

/-- The tuples that `_evidence_key` makes, in the order of Python. -/
abbrev EvidenceKey := Text ×ₗ Int ×ₗ Text ×ₗ Int ×ₗ Text ×ₗ Text ×ₗ Text ×ₗ Text

/-- `json.dumps(details, ensure_ascii=False, sort_keys=True, separators=(",", ":"))`. -/
def detailsText (details : Members) : Text := encodePlain (sortKeys (.obj details))

def evidenceKey (evidence : LinkEvidence) : EvidenceKey :=
  toLex (evidence.evidenceType, toLex (evidence.endpointA.sourceId, toLex (evidence.endpointA.portKey,
    toLex (evidence.endpointB.sourceId, toLex (evidence.endpointB.portKey, toLex (evidence.intentLinkStableId,
      toLex (evidence.observedAt, detailsText evidence.details)))))))

def linkKey (sourceA : Int) (portA : Text) (sourceB : Int) (portB : Text) : Text :=
  (encodeInt sourceA).map CodePoint.ofChar ++ text ":" ++ portA ++ text "|" ++
    (encodeInt sourceB).map CodePoint.ofChar ++ text ":" ++ portB

def fdbSidesResolved (evidence : List LinkEvidence) : Bool :=
  let fdbManagement := evidence.filter fun item => item.evidenceType = fdbManagementMac
  (fdbManagement.any fun item => item.endpointA.portKey ≠ []) &&
    fdbManagement.any fun item => item.endpointB.portKey ≠ []

def evidencePriorities (evidence : List LinkEvidence) (evidenceType : Text) : Nat :=
  if evidenceType = intent then 500
  else if evidenceType = lldpChassisMac then 400
  else if evidenceType = fdbManagementMac then (if fdbSidesResolved evidence then 300 else 150)
  else if evidenceType = fdbSubtree then 200
  else if evidenceType = macDensity then 100
  else 0

/-- `ranked` of `_preferred_port`. -/
def ranked (evidence : List LinkEvidence) (endpoint : LinkEvidence → LinkEndpoint)
    (priorities : Text → Nat) :
    List (Nat × Text) :=
  (evidence.filter fun item => (endpoint item).portKey ≠ []).map fun item =>
    (priorities item.evidenceType, (endpoint item).portKey)

def strongestPorts (evidence : List LinkEvidence) (endpoint : LinkEvidence → LinkEndpoint)
    (priorities : Text → Nat) :
    List Text :=
  let ranked := ranked evidence endpoint priorities
  match (ranked.map Prod.fst).max? with
  | none => []
  | some strongest => sortedBy id ((ranked.filter fun rank => rank.1 = strongest).map Prod.snd).dedup

/-- `_preferred_port`: the port, and whether the strongest evidence disagrees on it. -/
def preferredPort (evidence : List LinkEvidence) (endpoint : LinkEvidence → LinkEndpoint)
    (priorities : Text → Nat) :
    Text × Bool :=
  match strongestPorts evidence endpoint priorities with
  | [] => ([], false)
  | [port] => (port, false)
  | _ => ([], true)

def hasType (evidence : List LinkEvidence) (evidenceType : Text) : Bool :=
  evidence.any fun item => item.evidenceType = evidenceType

def greatestConfidence (evidence : List LinkEvidence) : Int :=
  ((evidence.map LinkEvidence.confidence).max?).getD 0

def agreedState (evidence : List LinkEvidence) (portA portB : Text) : LinkState × Int :=
  if hasType evidence intent && (hasType evidence lldpChassisMac || hasType evidence fdbManagementMac) then
    (.confirmed, min 100 (greatestConfidence evidence + 10))
  else if hasType evidence lldpChassisMac then (.inferred, 85)
  else if hasType evidence fdbManagementMac && evidencePriorities evidence fdbManagementMac = 300 then
    (.inferred, 70)
  else if hasType evidence intent then (.inferred, if portA ≠ [] ∧ portB ≠ [] then 60 else 45)
  else if hasType evidence fdbSubtree then
    (.inferred, greatestConfidence (evidence.filter fun item => item.evidenceType = fdbSubtree))
  else if hasType evidence fdbManagementMac then (.inferred, 70)
  else (.ambiguous, 0)

def aggregatePair (pair : Int × Int) (evidence : List LinkEvidence) (observedAt : Text) :
    CurrentSwitchLink :=
  let evidence := sortedBy evidenceKey evidence
  let priorities := evidencePriorities evidence
  let portA := preferredPort evidence LinkEvidence.endpointA priorities
  let portB := preferredPort evidence LinkEvidence.endpointB priorities
  let intentIds := sortedBy id
    ((evidence.map LinkEvidence.intentLinkStableId).filter fun stableId => stableId ≠ []).dedup
  let judged := if portA.2 || portB.2 then (.conflicting, 0) else agreedState evidence portA.1 portB.1
  { linkKey := linkKey pair.1 portA.1 pair.2 portB.1
    sourceAId := pair.1
    portAKey := portA.1
    sourceBId := pair.2
    portBKey := portB.1
    state := judged.1
    confidence := judged.2
    intentLinkStableId := match intentIds with
      | [stableId] => stableId
      | _ => []
    observedAt := observedAt
    evidence := evidence }

def LinkEvidence.pair (evidence : LinkEvidence) : Int × Int :=
  (evidence.endpointA.sourceId, evidence.endpointB.sourceId)

def aggregateLinkEvidence (evidence : List LinkEvidence) (observedAt : Text) : List CurrentSwitchLink :=
  let canonical := evidence.filterMap canonicalEvidence
  (sortedBy toLex (canonical.map LinkEvidence.pair).dedup).map fun pair =>
    aggregatePair pair (canonical.filter fun item => item.pair = pair) observedAt

def adjacency (links : List CurrentSwitchLink) : Int → Finset Int :=
  links.foldl (fun adjacency link =>
    if link.state = .conflicting then adjacency
    else
      let forward := Function.update adjacency link.sourceAId (insert link.sourceBId (adjacency link.sourceAId))
      Function.update forward link.sourceBId (insert link.sourceAId (forward link.sourceBId))) fun _ => ∅

/-- `topology_depths`.  A switch is put on the queue once, so a turn for each end of a link and for
each root empties it. -/
def topologyDepths (links : List CurrentSwitchLink) (roots : Finset Int) : List (Int × Nat) :=
  let ordered := roots.sort (· ≤ ·)
  if ordered = [] then []
  else
    (Bfs.run (fun source => (adjacency links source).sort (· ≤ ·)) (roots.card + 2 * links.length)
      (Bfs.start ordered)).depths

open List

/-- `SubtreeCandidate`.  The coverage is a quotient of two counts. -/
structure SubtreeCandidate where
  parentSourceId : Int
  parentPortKey : Text
  childSourceId : Int
  childSource : Text
  childPortKey : Text
  childLeafMacCount : Int
  matchedMacCount : Int
  coverage : Rat
  childManagementMacSeen : Bool
  confidence : Int
  observedAt : Text
  deriving DecidableEq

abbrev PortId := Int × Text

def managementSides (evidence : List LinkEvidence) : List Int :=
  (evidence.filter fun item => item.evidenceType = fdbManagementMac).flatMap fun item =>
    ([item.endpointA, item.endpointB].filter fun endpoint => endpoint.portKey ≠ []).map LinkEndpoint.sourceId

/-- The links that `occupied_ports` is made from. -/
def CurrentSwitchLink.isStronger (link : CurrentSwitchLink) : Bool :=
  link.state ≠ .ambiguous && link.state ≠ .conflicting &&
    (hasType link.evidence intent || hasType link.evidence lldpChassisMac ||
      ([link.sourceAId, link.sourceBId].all fun source => source ∈ managementSides link.evidence))

def CurrentSwitchLink.held (link : CurrentSwitchLink) : List (PortId × Int) :=
  [((link.sourceAId, link.portAKey), link.sourceBId), ((link.sourceBId, link.portBKey), link.sourceAId)].filter
    fun held => held.1.2 ≠ []

def occupiedPorts (links : List CurrentSwitchLink) : List (PortId × Int) :=
  (links.filter CurrentSwitchLink.isStronger).flatMap CurrentSwitchLink.held

def SubtreeCandidate.ends (candidate : SubtreeCandidate) : List (PortId × Int) :=
  [((candidate.parentSourceId, candidate.parentPortKey), candidate.childSourceId),
    ((candidate.childSourceId, candidate.childPortKey), candidate.parentSourceId)]

def contradictsStrongerLink (occupied : List (PortId × Int)) (candidate : SubtreeCandidate) : Bool :=
  candidate.ends.any fun held =>
    let peers := (occupied.filter fun other => other.1 = held.1).map Prod.snd
    peers ≠ [] && held.2 ∉ peers

def isEligible (strongerLinks : List CurrentSwitchLink) (candidate : SubtreeCandidate) : Bool :=
  candidate.childPortKey ≠ [] && !contradictsStrongerLink (occupiedPorts strongerLinks) candidate

/-- `(int(item.child_management_mac_seen), item.coverage)`. -/
def SubtreeCandidate.rank (candidate : SubtreeCandidate) : Nat ×ₗ Rat :=
  toLex (candidate.childManagementMacSeen.toNat, candidate.coverage)

def winnerOf (eligible : List SubtreeCandidate) : Option SubtreeCandidate :=
  match (eligible.map SubtreeCandidate.rank).max? with
  | none => none
  | some bestRank =>
    match eligible.filter fun item => item.rank = bestRank with
    | [best] => some best
    | _ => none

def SubtreeCandidate.sortKey (candidate : SubtreeCandidate) : Int ×ₗ Text ×ₗ Int ×ₗ Text :=
  toLex (candidate.parentSourceId, toLex (candidate.parentPortKey,
    toLex (candidate.childSourceId, candidate.childPortKey)))

def selectFdbSubtreeLinkCandidates (candidates : List SubtreeCandidate)
    (strongerLinks : List CurrentSwitchLink) :
    List SubtreeCandidate :=
  let eligible := candidates.filter (isEligible strongerLinks)
  sortedBy SubtreeCandidate.sortKey
    ((sortedBy id (eligible.map SubtreeCandidate.childSourceId).dedup).filterMap fun child =>
      winnerOf (eligible.filter fun candidate => candidate.childSourceId = child))

/-- The property `evidence` of a candidate; `floatText` is the `repr` of its coverage. -/
def SubtreeCandidate.evidence (floatText : Rat → List Char) (candidate : SubtreeCandidate) : Members :=
  [("type", .str fdbSubtree), ("child_source", .str candidate.childSource),
    ("child_leaf_mac_count", .int candidate.childLeafMacCount),
    ("matched_mac_count", .int candidate.matchedMacCount),
    ("coverage", .float (floatText candidate.coverage)),
    ("child_management_mac_seen", .bool candidate.childManagementMacSeen)]

variable {candidates candidates' eligible : List SubtreeCandidate}
    {strongerLinks : List CurrentSwitchLink}
  {candidate other : SubtreeCandidate}

theorem winnerOf_eq_some_iff :
    winnerOf eligible = some candidate ↔
      (eligible.filter fun other => candidate.rank ≤ other.rank) = [candidate] := by
  unfold winnerOf
  cases hmax : (eligible.map SubtreeCandidate.rank).max? with
  | none =>
    rw [max?_eq_none_iff, map_eq_nil_iff] at hmax
    subst hmax
    exact iff_of_false nofun nofun
  | some bestRank =>
    obtain ⟨hmem, hle⟩ := max?_eq_some_iff.1 hmax
    obtain ⟨best, hbs, rfl⟩ := mem_map.1 hmem
    have hbou : ∀ other ∈ eligible, other.rank ≤ best.rank := by
      intro other hot
      exact hle _ (mem_map.2 ⟨other, hot, rfl⟩)
    have hsm : (eligible.filter fun other => best.rank ≤ other.rank) =
        eligible.filter fun other => other.rank = best.rank := by
      apply filter_congr
      intro other hot
      exact decide_eq_decide.2 ⟨fun h => le_antisymm (hbou other hot) h, fun h => h.ge⟩
    dsimp only
    constructor
    · intro h
      split at h
      · rename_i only honl
        cases h
        have hran : candidate.rank = best.rank := by
          have hcn : candidate ∈ eligible.filter fun item => item.rank = best.rank := by
            rw [honl]
            exact mem_singleton_self candidate
          exact of_decide_eq_true (mem_filter.1 hcn).2
        rw [hran, hsm, honl]
      · cases h
    · intro h
      have hcn : candidate ∈ eligible := by
        have hmem : candidate ∈ eligible.filter fun other => candidate.rank ≤ other.rank := by
          rw [h]
          exact mem_singleton_self candidate
        exact mem_of_mem_filter hmem
      have hbt : best ∈ eligible.filter fun other => candidate.rank ≤ other.rank :=
        mem_filter.2 ⟨hbs, decide_eq_true (hbou candidate hcn)⟩
      rw [h, mem_singleton] at hbt
      subst hbt
      rw [← hsm, h]

def rivals (candidates : List SubtreeCandidate) (strongerLinks : List CurrentSwitchLink)
    (candidate : SubtreeCandidate) : List SubtreeCandidate :=
  candidates.filter fun other =>
    isEligible strongerLinks other && other.childSourceId = candidate.childSourceId &&
      candidate.rank ≤ other.rank

theorem mem_select_iff : candidate ∈ selectFdbSubtreeLinkCandidates candidates strongerLinks ↔
      rivals candidates strongerLinks candidate = [candidate] := by
  have hriv : ∀ child, child = candidate.childSourceId →
      (((candidates.filter (isEligible strongerLinks)).filter fun other => other.childSourceId = child).filter
        fun other => candidate.rank ≤ other.rank) = rivals candidates strongerLinks candidate := by
    rintro _ rfl
    rw [filter_filter, filter_filter]
    apply filter_congr
    intro other _
    cases isEligible strongerLinks other <;> simp [Bool.and_comm]
  unfold selectFdbSubtreeLinkCandidates
  simp only [mem_sortedBy, mem_filterMap, mem_dedup, mem_map, winnerOf_eq_some_iff]
  constructor
  · rintro ⟨child, -, hwin⟩
    have hmem : candidate ∈ ((candidates.filter (isEligible strongerLinks)).filter fun other =>
        other.childSourceId = child).filter fun other => candidate.rank ≤ other.rank := by
      rw [hwin]
      exact mem_singleton_self candidate
    have hch := of_decide_eq_true (mem_filter.1 (mem_filter.1 hmem).1).2
    rw [← hriv child hch.symm, hwin]
  · intro h
    have hmem : candidate ∈ rivals candidates strongerLinks candidate := by
      rw [h]
      exact mem_singleton_self candidate
    obtain ⟨hcn, hps⟩ := mem_filter.1 hmem
    simp only [Bool.and_eq_true] at hps
    refine ⟨_, ⟨candidate, mem_filter.2 ⟨hcn, hps.1.1⟩, rfl⟩, ?_⟩
    rw [hriv _ rfl, h]

theorem isEligible_of_mem_select
    (h : candidate ∈ selectFdbSubtreeLinkCandidates candidates strongerLinks) :
    isEligible strongerLinks candidate = true := by
  have hmem : candidate ∈ rivals candidates strongerLinks candidate := by
    rw [mem_select_iff.1 h]
    exact mem_singleton_self candidate
  have hps := (mem_filter.1 hmem).2
  simp only [Bool.and_eq_true] at hps
  exact hps.1.1

theorem nodup_children :
    ((selectFdbSubtreeLinkCandidates candidates strongerLinks).map
      SubtreeCandidate.childSourceId).Nodup := by
  unfold selectFdbSubtreeLinkCandidates
  dsimp only
  apply ((sortedBy_perm _ _).map _).nodup_iff.2
  generalize hcs : sortedBy id ((candidates.filter (isEligible strongerLinks)).map
    SubtreeCandidate.childSourceId).dedup = children
  have hnd : children.Nodup := by
    rw [← hcs]
    exact (sortedBy_perm _ _).nodup_iff.2 (nodup_dedup _)
  have hch : ∀ child winner, winnerOf ((candidates.filter (isEligible strongerLinks)).filter fun candidate =>
      candidate.childSourceId = child) = some winner → winner.childSourceId = child := by
    intro child winner h
    have hmem : winner ∈ ((candidates.filter (isEligible strongerLinks)).filter fun candidate =>
        candidate.childSourceId = child).filter fun other => winner.rank ≤ other.rank := by
      rw [winnerOf_eq_some_iff.1 h]
      exact mem_singleton_self winner
    exact of_decide_eq_true (mem_filter.1 (mem_of_mem_filter hmem)).2
  clear hcs
  induction children with
  | nil => exact nodup_nil
  | cons child children ih =>
    rw [nodup_cons] at hnd
    rw [filterMap_cons]
    cases hwin : winnerOf ((candidates.filter (isEligible strongerLinks)).filter fun candidate =>
        candidate.childSourceId = child) with
    | none => exact ih hnd.2
    | some winner =>
      apply nodup_cons.2
      refine ⟨?_, ih hnd.2⟩
      rintro hmem
      obtain ⟨other, hot, heq⟩ := mem_map.1 hmem
      obtain ⟨child', hch', hot⟩ := mem_filterMap.1 hot
      rw [hch child winner hwin, hch child' other hot] at heq
      exact hnd.1 (heq ▸ hch')

/-- Selections with the same members are the same. -/
theorem select_congr
    (h : ∀ candidate, candidate ∈ selectFdbSubtreeLinkCandidates candidates strongerLinks ↔
      candidate ∈ selectFdbSubtreeLinkCandidates candidates' strongerLinks) :
    selectFdbSubtreeLinkCandidates candidates strongerLinks =
      selectFdbSubtreeLinkCandidates candidates' strongerLinks := by
  have hpr := (perm_ext_iff_of_nodup (nodup_children.of_map _) (nodup_children.of_map _)).2 h
  have hsr : ∀ candidates, (selectFdbSubtreeLinkCandidates candidates strongerLinks).Pairwise fun a b =>
      a.sortKey ≤ b.sortKey := fun candidates => sortedBy_pairwise _ _
  apply hpr.eq_of_pairwise _ (hsr candidates) (hsr candidates')
  intro a b ha hb hab hba
  have hkey := le_antisymm hab hba
  apply inj_on_of_nodup_map nodup_children ha ((h b).2 hb)
  exact (Prod.mk.inj (toLex_inj.1 (Prod.mk.inj (toLex_inj.1 (Prod.mk.inj (toLex_inj.1 hkey)).2)).2)).1

theorem select_perm (h : candidates.Perm candidates') :
    selectFdbSubtreeLinkCandidates candidates strongerLinks =
      selectFdbSubtreeLinkCandidates candidates' strongerLinks := by
  apply select_congr
  intro candidate
  have hriv : (rivals candidates strongerLinks candidate).Perm (rivals candidates' strongerLinks candidate) :=
    h.filter _
  rw [mem_select_iff, mem_select_iff]
  constructor
  · intro heq
    rw [heq] at hriv
    exact perm_singleton.1 hriv.symm
  · intro heq
    rw [heq] at hriv
    exact perm_singleton.1 hriv

theorem select_select :
    selectFdbSubtreeLinkCandidates
      (selectFdbSubtreeLinkCandidates candidates strongerLinks) strongerLinks =
      selectFdbSubtreeLinkCandidates candidates strongerLinks := by
  apply select_congr
  intro candidate
  rw [mem_select_iff]
  constructor
  · intro h
    have hmem : candidate ∈
      rivals (selectFdbSubtreeLinkCandidates candidates strongerLinks) strongerLinks candidate := by
      rw [h]
      exact mem_singleton_self candidate
    exact mem_of_mem_filter hmem
  · intro h
    -- A selected candidate is the only one for its child, so nothing is left to compare it with.
    have hnd := (@nodup_children candidates strongerLinks).of_map
    have honl : ∀ other ∈ selectFdbSubtreeLinkCandidates candidates strongerLinks,
        (isEligible strongerLinks other && other.childSourceId = candidate.childSourceId &&
          candidate.rank ≤ other.rank) = decide (other = candidate) := by
      intro other hot
      rw [isEligible_of_mem_select hot, Bool.true_and]
      by_cases heq : other = candidate
      · simp [heq]
      · have hne : other.childSourceId ≠ candidate.childSourceId := by
          intro hch
          exact heq (inj_on_of_nodup_map nodup_children hot h hch)
        simp [heq, hne]
    unfold rivals
    rw [filter_congr honl]
    rw [filter_eq, hnd.count, if_pos h]
    rfl

def Taken (strongerLinks : List CurrentSwitchLink) (port : PortId) (peer : Int) : Prop :=
  ∃ link ∈ strongerLinks, link.isStronger = true ∧ (port, peer) ∈ link.held

theorem mem_occupiedPorts {port : PortId} {peer : Int} :
    (port, peer) ∈ occupiedPorts strongerLinks ↔ Taken strongerLinks port peer := by
  unfold occupiedPorts Taken
  simp only [mem_flatMap, mem_filter, and_assoc]

theorem taken_of_eligible (h : isEligible strongerLinks candidate = true) {port : PortId} {peer : Int}
    (hend : (port, peer) ∈ candidate.ends) (htk : ∃ peer, Taken strongerLinks port peer) :
    Taken strongerLinks port peer := by
  unfold isEligible at h
  rw [Bool.and_eq_true, Bool.not_eq_true'] at h
  have hnn := any_eq_false.1 h.2 (port, peer) hend
  obtain ⟨other, hot⟩ := htk
  have hmem : ∀ peer, peer ∈ ((occupiedPorts strongerLinks).filter fun held => held.1 = port).map Prod.snd ↔
      Taken strongerLinks port peer := by
    intro peer
    rw [← mem_occupiedPorts]
    simp only [mem_map, mem_filter, decide_eq_true_eq]
    constructor
    · rintro ⟨⟨port', peer'⟩, ⟨hhl, rfl⟩, rfl⟩
      exact hhl
    · intro hhl
      exact ⟨(port, peer), ⟨hhl, rfl⟩, rfl⟩
  rw [← hmem]
  by_contra hpe
  apply hnn
  rw [Bool.and_eq_true, decide_eq_true_eq, decide_eq_true_eq]
  exact ⟨ne_nil_of_mem ((hmem other).2 hot), hpe⟩

/-- The selection does not change when it is made again or when the candidates are given in another
order; a child is selected once; and where stronger links take a port of a selected candidate, one of
them takes it for the same switch. -/
theorem select_stable (candidates : List SubtreeCandidate) (strongerLinks : List CurrentSwitchLink) :
    selectFdbSubtreeLinkCandidates
      (selectFdbSubtreeLinkCandidates candidates strongerLinks) strongerLinks =
      selectFdbSubtreeLinkCandidates candidates strongerLinks ∧
        (∀ candidates', candidates.Perm candidates' →
      selectFdbSubtreeLinkCandidates candidates' strongerLinks =
        selectFdbSubtreeLinkCandidates candidates strongerLinks) ∧
    ((selectFdbSubtreeLinkCandidates candidates strongerLinks).map
      SubtreeCandidate.childSourceId).Nodup ∧
    ∀ candidate ∈ selectFdbSubtreeLinkCandidates candidates strongerLinks, ∀ port peer,
      (port, peer) ∈ candidate.ends → (∃ peer, Taken strongerLinks port peer) →
        Taken strongerLinks port peer := by
  refine ⟨select_select, ?_, nodup_children, ?_⟩
  · intro candidates' hpr
    exact (select_perm hpr).symm
  · intro candidate hcn port peer hend htk
    exact taken_of_eligible (isEligible_of_mem_select hcn) hend htk

def sampleCandidate : SubtreeCandidate := ⟨1, "a", 2, [], "b", 4, 4, 1, true, 100, []⟩

def sampleLink (peer : Int) : CurrentSwitchLink :=
  ⟨[], 1, "a", peer, "b", .inferred, 60, [], [],
    [⟨⟨1, "a"⟩, ⟨peer, "b"⟩, intent, 90, [], [], []⟩]⟩

def CurrentSwitchLink.Contradicts (link : CurrentSwitchLink) (candidate : SubtreeCandidate) : Prop :=
  link.isStronger = true ∧ ∃ port peer peer', (port, peer) ∈ candidate.ends ∧
    (port, peer') ∈ link.held ∧ peer' ≠ peer

/-- Two stronger links share a port, and the selected candidate contradicts one of them. -/
theorem select_on_a_shared_port :
    ¬ ∀ candidate ∈ selectFdbSubtreeLinkCandidates [sampleCandidate] [sampleLink 2, sampleLink 3],
      ∀ link ∈ [sampleLink 2, sampleLink 3], ¬ link.Contradicts candidate := by
  have hsl : sampleCandidate ∈
      selectFdbSubtreeLinkCandidates [sampleCandidate] [sampleLink 2, sampleLink 3] := by decide +kernel
  have hst : (sampleLink 3).isStronger = true := by decide +kernel
  intro h
  apply h sampleCandidate hsl (sampleLink 3) (by simp)
  exact ⟨hst, (1, "a"), 2, 3, by decide, by decide, by decide⟩

end WebOvpn.Topology
