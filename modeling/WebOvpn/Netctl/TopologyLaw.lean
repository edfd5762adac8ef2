/-
The depths of switches are their distances from the core over the links that do not
conflict.  How the links follow from their evidence: neither its order nor its direction
matters, and evidence of the subtrees leaves what stronger evidence says.
-/
import Mathlib.Data.Int.ConditionallyCompleteOrder
import Mathlib.Order.ConditionallyCompleteLattice.Basic
import WebOvpn.Netctl.FdbSubtree

namespace WebOvpn.Topology

open List

section

variable {links : List CurrentSwitchLink} {roots : Finset Int} {source peer : Int}

def CurrentSwitchLink.joins (link : CurrentSwitchLink) (source peer : Int) : Prop :=
  link.state ≠ .conflicting ∧
    (link.sourceAId = source ∧ link.sourceBId = peer ∨ link.sourceBId = source ∧ link.sourceAId = peer)

def linkGraph (links : List CurrentSwitchLink) : SimpleGraph Int where
  Adj source peer := source ≠ peer ∧ ∃ link ∈ links, link.joins source peer
  symm := by
    constructor
    rintro source peer ⟨hne, link, hln, hst, hen⟩
    exact ⟨hne.symm, link, hln, hst, hen.symm.imp And.symm And.symm⟩
  loopless := by
    constructor
    rintro source ⟨hne, -⟩
    exact hne rfl

theorem mem_foldl_adjacency (before : Int → Finset Int) : peer ∈ links.foldl (fun adjacency link =>
      if link.state = .conflicting then adjacency
      else
        let forward :=
          Function.update adjacency link.sourceAId
          (insert link.sourceBId (adjacency link.sourceAId))
        Function.update forward link.sourceBId (insert link.sourceAId (forward link.sourceBId))) before source ↔
      peer ∈ before source ∨ ∃ link ∈ links, link.joins source peer := by
  induction links generalizing before with
  | nil => simp
  | cons link links ih =>
    rw [foldl_cons, ih, exists_mem_cons_iff, ← or_assoc]
    apply or_congr_left
    unfold CurrentSwitchLink.joins
    split_ifs with hst
    · simp [hst]
    · dsimp only
      simp only [Function.update_apply]
      grind

/-- The neighbours that the search offers. -/
theorem mem_adjacency : peer ∈ adjacency links source ↔ ∃ link ∈ links, link.joins source peer := by
  unfold adjacency
  rw [mem_foldl_adjacency]
  simp

def switches (links : List CurrentSwitchLink) (roots : Finset Int) : Finset Int :=
  roots ∪ (links.flatMap fun link => [link.sourceAId, link.sourceBId]).toFinset

theorem card_switches_le : (switches links roots).card ≤ roots.card + 2 * links.length := by
  apply (Finset.card_union_le ..).trans
  apply Nat.add_le_add_left
  apply (toFinset_card_le _).trans
  rw [length_flatMap]
  change (links.map (Function.const _ 2)).sum ≤ _
  rw [map_const, sum_replicate, smul_eq_mul, Nat.mul_comm]

theorem mem_switches_of_joins (h : ∃ link ∈ links, link.joins source peer) :
    peer ∈ switches links roots := by
  obtain ⟨link, hln, -, hen⟩ := h
  apply Finset.mem_union_right
  rw [mem_toFinset, mem_flatMap]
  refine ⟨link, hln, ?_⟩
  rcases hen with ⟨-, rfl⟩ | ⟨-, rfl⟩
  · simp
  · simp

theorem topologyDepths_search (links : List CurrentSwitchLink) (roots : Finset Int) :
    ∃ s : Bfs.State Int, topologyDepths links roots = s.depths ∧ s.queue = [] ∧
    ∃ floor, Bfs.Inv (linkGraph links) (fun source => (adjacency links source).sort (· ≤ ·))
      (roots.sort (· ≤ ·)) floor none s := by
  have hji : ∀ source, ∀ peer ∈ (adjacency links source).sort (· ≤ ·), ∃ link ∈ links,
    link.joins source peer := by
    intro source peer h
    exact mem_adjacency.1 ((Finset.mem_sort _).1 h)
  refine ⟨Bfs.run (fun source => (adjacency links source).sort (· ≤ ·)) (roots.card + 2 * links.length)
    (Bfs.start (roots.sort (· ≤ ·))), ?_, ?_, ?_⟩
  · unfold topologyDepths
    dsimp only
    split_ifs with hro
    · rw [hro]
      cases roots.card + 2 * links.length <;> rfl
    · rfl
  · have hmem : ∀ v ∈ roots.sort (· ≤ ·), v ∈ switches links roots := by
      intro v hv
      exact Finset.mem_union_left _ ((Finset.mem_sort _).1 hv)
    apply @Bfs.queue_run _ _ _ _ (switches links roots)
    · exact Bfs.within_start (Finset.sort_nodup ..) hmem
    · intro source peer h
      exact mem_switches_of_joins (hji source peer h)
    · unfold Bfs.start
      rw [length_map]
      exact Nat.add_le_add_right card_switches_le _
  · apply Bfs.inv_start.run
    intro source peer h
    by_cases heq : peer = source
    · exact .inl heq
    · exact .inr ⟨fun h => heq h.symm, hji source peer h⟩

/-- A switch has the depth that a shortest path from a root to it has edges, and a switch that no
root is connected to has none. -/
theorem topologyDepths_eq_distance (links : List CurrentSwitchLink) (roots : Finset Int) (switch : Int) :
    (∀ depth, (topologyDepths links roots).lookup switch = some depth ↔
      (∃ root ∈ roots, ∃ path : (linkGraph links).Path root switch, path.1.length = depth) ∧
        ∀ root ∈ roots, ∀ path : (linkGraph links).Path root switch, depth ≤ path.1.length) ∧
    ((topologyDepths links roots).lookup switch = none ↔
      ∀ root ∈ roots, ¬ (linkGraph links).Reachable root switch) := by
  obtain ⟨s, hdep, hque, floor, inv⟩ := topologyDepths_search links roots
  have hnx : ∀ v w, (linkGraph links).Adj v w → w ∈ (adjacency links v).sort (· ≤ ·) := by
    intro v w h
    exact (Finset.mem_sort _).2 (mem_adjacency.2 h.2)
  rw [hdep]
  constructor
  · intro depth
    rw [inv.lookup_eq_some_iff hque hnx]
    -- A shortest walk is as long as the path that is left when its loops are taken out.
    constructor
    · rintro ⟨⟨root, hro, walk, rfl⟩, hla⟩
      have hro' := (Finset.mem_sort _).1 hro
      refine ⟨⟨root, hro', walk.toPath, ?_⟩, ?_⟩
      · apply le_antisymm (SimpleGraph.Walk.length_bypass_le_length walk)
        exact hla _ ⟨root, hro, walk.bypass, rfl⟩
      · intro root' hro' path
        exact hla _ ⟨root', (Finset.mem_sort _).2 hro', path.1, rfl⟩
    · rintro ⟨⟨root, hro, path, rfl⟩, hla⟩
      refine ⟨⟨root, (Finset.mem_sort _).2 hro, path.1, rfl⟩, ?_⟩
      rintro _ ⟨root', hro', walk, rfl⟩
      exact (hla root' ((Finset.mem_sort _).1 hro') walk.toPath).trans
        (SimpleGraph.Walk.length_bypass_le_length walk)
  · rw [inv.lookup_eq_none_iff hque hnx]
    simp only [Finset.mem_sort]

end

variable {evidence evidence' : List LinkEvidence} {endpoint : LinkEvidence → LinkEndpoint}
    {item other : LinkEvidence}
  {pair : Int × Int} {port observedAt : Text}

structure Strongest (evidence : List LinkEvidence) (endpoint : LinkEvidence → LinkEndpoint)
    (priorities : Text → Nat)
    (item : LinkEvidence) : Prop where
  mem : item ∈ evidence
  named : (endpoint item).portKey ≠ []
  greatest : ∀ other ∈ evidence, (endpoint other).portKey ≠ [] →
    priorities other.evidenceType ≤ priorities item.evidenceType

variable {priorities : Text → Nat} {link : CurrentSwitchLink}

theorem mem_ranked {rank : Nat × Text} : rank ∈ ranked evidence endpoint priorities ↔
      ∃ item ∈ evidence, (endpoint item).portKey ≠ [] ∧
        (priorities item.evidenceType, (endpoint item).portKey) = rank := by
  unfold ranked
  simp only [mem_map, mem_filter, decide_eq_true_eq, and_assoc]

theorem mem_strongestPorts : port ∈ strongestPorts evidence endpoint priorities ↔
      ∃ item, Strongest evidence endpoint priorities item ∧ (endpoint item).portKey = port := by
  unfold strongestPorts
  dsimp only
  cases hmax : ((ranked evidence endpoint priorities).map Prod.fst).max? with
  | none =>
    rw [max?_eq_none_iff, map_eq_nil_iff] at hmax
    constructor
    · intro h
      cases h
    · rintro ⟨item, strongest, -⟩
      have hmem : (priorities item.evidenceType, (endpoint item).portKey) ∈
        ranked evidence endpoint priorities :=
        mem_ranked.2 ⟨item, strongest.mem, strongest.named, rfl⟩
      rw [hmax] at hmem
      cases hmem
  | some greatest =>
    obtain ⟨hmem, hle⟩ := max?_eq_some_iff.1 hmax
    have hbou : ∀ item ∈ evidence, (endpoint item).portKey ≠ [] → priorities item.evidenceType ≤ greatest := by
      intro item hit hnm
      exact hle _ (mem_map.2 ⟨_, mem_ranked.2 ⟨item, hit, hnm, rfl⟩, rfl⟩)
    simp only [mem_sortedBy, mem_dedup, mem_map, mem_filter, decide_eq_true_eq]
    constructor
    · rintro ⟨rank, ⟨hran, heq⟩, rfl⟩
      obtain ⟨item, hit, hnm, rfl⟩ := mem_ranked.1 hran
      refine ⟨item, ⟨hit, hnm, ?_⟩, rfl⟩
      intro other hot hnm'
      rw [show priorities item.evidenceType = greatest from heq]
      exact hbou other hot hnm'
    · rintro ⟨item, strongest, rfl⟩
      refine ⟨_, ⟨mem_ranked.2 ⟨item, strongest.mem, strongest.named, rfl⟩, ?_⟩, rfl⟩
      apply le_antisymm (hbou item strongest.mem strongest.named)
      obtain ⟨rank, hran, rfl⟩ := mem_map.1 hmem
      obtain ⟨best, hbs, hnm, rfl⟩ := mem_ranked.1 hran
      exact strongest.greatest best hbs hnm

theorem strongestPorts_congr {priorities' : Text → Nat}
    (h : ∀ port, port ∈ strongestPorts evidence endpoint priorities ↔
      port ∈ strongestPorts evidence' endpoint priorities') :
    strongestPorts evidence endpoint priorities = strongestPorts evidence' endpoint priorities' := by
  have hsr : ∀ evidence priorities, strongestPorts evidence endpoint priorities =
      sortedBy id (strongestPorts evidence endpoint priorities).dedup := by
    intro evidence priorities
    unfold strongestPorts
    dsimp only
    split
    · rfl
    · rename_i ports _
      have hnd := (sortedBy_perm id ((List.filter (fun rank : Nat × Text => rank.1 = ports)
        (ranked evidence endpoint priorities)).map Prod.snd).dedup).nodup_iff.2 (nodup_dedup _)
      rw [hnd.dedup, sortedBy_of_pairwise (sortedBy_pairwise id _)]
  rw [hsr evidence, hsr evidence']
  exact sortedBy_dedup_congr h

def Disputed (evidence : List LinkEvidence) (endpoint : LinkEvidence → LinkEndpoint) : Prop :=
  ∃ a b, Strongest evidence endpoint (evidencePriorities evidence) a ∧
    Strongest evidence endpoint (evidencePriorities evidence) b ∧ (endpoint a).portKey ≠ (endpoint b).portKey

theorem nodup_strongestPorts : (strongestPorts evidence endpoint priorities).Nodup := by
  unfold strongestPorts
  dsimp only
  split
  · exact nodup_nil
  · exact (sortedBy_perm ..).nodup_iff.2 (nodup_dedup _)

theorem disputed_iff :
    (preferredPort evidence endpoint (evidencePriorities evidence)).2 = true ↔
      Disputed evidence endpoint := by
  have hnd := @nodup_strongestPorts evidence endpoint (evidencePriorities evidence)
  have hmem : ∀ port, port ∈ strongestPorts evidence endpoint (evidencePriorities evidence) ↔ _ :=
    fun port => mem_strongestPorts
  unfold preferredPort
  generalize strongestPorts evidence endpoint (evidencePriorities evidence) = ports at hnd hmem
  match ports with
  | [] =>
    apply iff_of_false nofun
    rintro ⟨a, -, ha, -⟩
    exact not_mem_nil ((hmem _).2 ⟨a, ha, rfl⟩)
  | [port] =>
    apply iff_of_false nofun
    rintro ⟨a, b, ha, hb, hne⟩
    have ha' := mem_singleton.1 ((hmem _).2 ⟨a, ha, rfl⟩)
    have hb' := mem_singleton.1 ((hmem _).2 ⟨b, hb, rfl⟩)
    exact hne (ha'.trans hb'.symm)
  | port :: port' :: _ =>
    apply iff_of_true rfl
    obtain ⟨a, ha, rfl⟩ := (hmem port).1 mem_cons_self
    obtain ⟨b, hb, rfl⟩ := (hmem port').1 (mem_cons_of_mem _ mem_cons_self)
    refine ⟨a, b, ha, hb, ?_⟩
    intro heq
    rw [heq] at hnd
    exact (nodup_cons.1 hnd).1 mem_cons_self

section

variable (h : ∀ item, item ∈ evidence ↔ item ∈ evidence')

include h

theorem hasType_congr : hasType evidence = hasType evidence' := by
  funext evidenceType
  unfold hasType
  rw [Bool.eq_iff_iff, any_eq_true, any_eq_true]
  simp only [h]

theorem fdbSidesResolved_congr : fdbSidesResolved evidence = fdbSidesResolved evidence' := by
  unfold fdbSidesResolved
  rw [Bool.eq_iff_iff]
  simp only [Bool.and_eq_true, any_eq_true, mem_filter, h]

theorem evidencePriorities_congr : evidencePriorities evidence = evidencePriorities evidence' := by
  funext evidenceType
  unfold evidencePriorities
  rw [fdbSidesResolved_congr h]

theorem strongest_congr {priorities : Text → Nat} :
    Strongest evidence endpoint priorities item ↔ Strongest evidence' endpoint priorities item := by
  constructor
  · rintro ⟨hmem, hnm, hgre⟩
    exact ⟨(h item).1 hmem, hnm, fun other hot => hgre other ((h other).2 hot)⟩
  · rintro ⟨hmem, hnm, hgre⟩
    exact ⟨(h item).2 hmem, hnm, fun other hot => hgre other ((h other).1 hot)⟩

theorem preferredPort_congr {priorities : Text → Nat} :
    preferredPort evidence endpoint priorities = preferredPort evidence' endpoint priorities := by
  unfold preferredPort
  rw [strongestPorts_congr]
  intro port
  simp only [mem_strongestPorts, strongest_congr h]

theorem greatestConfidence_congr : greatestConfidence evidence = greatestConfidence evidence' := by
  unfold greatestConfidence
  rw [max?_congr]
  intro rank
  simp only [mem_map, h]

theorem agreedState_congr {portA portB : Text} :
    agreedState evidence portA portB = agreedState evidence' portA portB := by
  have hsubtree : ∀ item, (item ∈ evidence.filter fun item => item.evidenceType = fdbSubtree) ↔
      item ∈ evidence'.filter fun item => item.evidenceType = fdbSubtree := by
    intro item
    simp only [mem_filter, h]
  unfold agreedState
  rw [hasType_congr h, evidencePriorities_congr h, greatestConfidence_congr h, greatestConfidence_congr hsubtree]

theorem aggregatePair_congr : aggregatePair pair evidence observedAt =
    { aggregatePair pair evidence' observedAt with evidence := sortedBy evidenceKey evidence } := by
  have hsr : ∀ item, item ∈ sortedBy evidenceKey evidence ↔ item ∈ sortedBy evidenceKey evidence' := by
    intro item
    rw [mem_sortedBy, mem_sortedBy, h]
  have hids : sortedBy id (((sortedBy evidenceKey evidence).map LinkEvidence.intentLinkStableId).filter
      fun stableId => stableId ≠ []).dedup = sortedBy id (((sortedBy evidenceKey evidence').map
        LinkEvidence.intentLinkStableId).filter fun stableId => stableId ≠ []).dedup := by
    apply sortedBy_dedup_congr
    intro stableId
    simp only [mem_filter, mem_map, hsr]
  unfold aggregatePair
  dsimp only
  simp only [hids, evidencePriorities_congr hsr, preferredPort_congr hsr, agreedState_congr hsr]

end

/-- The evidence in another order, and some of it seen from the other end. -/
def Presents (evidence evidence' : List LinkEvidence) : Prop :=
  ∃ turned, List.Forall₂ (fun item item' => item' = item ∨ item' = item.swap) evidence turned ∧
    turned.Perm evidence'

structure SameUpToTies (link link' : CurrentSwitchLink) : Prop where
  fields : link = { link' with evidence := link.evidence }
  perm : link.evidence.Perm link'.evidence
  keys : link.evidence.map evidenceKey = link'.evidence.map evidenceKey

def LinkEvidence.facing (pair : Int × Int) (item : LinkEvidence) : Option LinkEvidence :=
  if item.pair = pair then some item else if item.swap.pair = pair then some item.swap else none

def CurrentSwitchLink.ends (link : CurrentSwitchLink) : Int × Int := (link.sourceAId, link.sourceBId)

theorem canonicalEvidence_swap (item : LinkEvidence) :
    canonicalEvidence item.swap = canonicalEvidence item := by
  unfold canonicalEvidence
  change (if item.endpointB.sourceId = item.endpointA.sourceId then none
    else if item.endpointB.sourceId < item.endpointA.sourceId then some item.swap else some item) = _
  split_ifs with h₁ h₂ h₃ h₄ h₅ h₆ <;> first | rfl | omega

theorem canonicalEvidence_eq_some (h : canonicalEvidence item = some other) :
    other.endpointA.sourceId < other.endpointB.sourceId := by
  unfold canonicalEvidence at h
  split_ifs at h with hsm hlt
  · cases h
    exact hlt
  · cases h
    exact lt_of_le_of_ne (not_lt.1 hlt) fun heq => hsm heq.symm

theorem Presents.canonical (h : Presents evidence evidence') :
    (evidence.filterMap canonicalEvidence).Perm (evidence'.filterMap canonicalEvidence) := by
  obtain ⟨turned, htr, hpr⟩ := h
  have hsm : evidence.filterMap canonicalEvidence = turned.filterMap canonicalEvidence := by
    clear hpr
    induction htr with
    | nil => rfl
    | cons hit _ ih =>
      rw [filterMap_cons, filterMap_cons, ih]
      rcases hit with rfl | rfl
      · rfl
      · rw [canonicalEvidence_swap]
  rw [hsm]
  exact hpr.filterMap canonicalEvidence

theorem filter_canonicalEvidence (hpi : pair.1 < pair.2) :
    (evidence.filterMap canonicalEvidence).filter (fun item => item.pair = pair) =
      evidence.filterMap (LinkEvidence.facing pair) := by
  rw [filter_filterMap]
  apply filterMap_congr
  intro item _
  obtain ⟨a, b⟩ := pair
  unfold canonicalEvidence LinkEvidence.facing LinkEvidence.pair LinkEvidence.swap
  dsimp only at hpi ⊢
  simp only [Prod.mk.injEq]
  split_ifs <;> simp <;> omega

theorem aggregatePair_perm (h : evidence.Perm evidence') :
    SameUpToTies (aggregatePair pair evidence observedAt) (aggregatePair pair evidence' observedAt) := by
  constructor
  · exact aggregatePair_congr fun item => h.mem_iff
  · exact (sortedBy_perm _ _).trans (h.trans (sortedBy_perm _ _).symm)
  · exact keys_sortedBy_of_perm h

theorem ends_aggregateLinkEvidence :
    (aggregateLinkEvidence evidence observedAt).map CurrentSwitchLink.ends =
    sortedBy toLex ((evidence.filterMap canonicalEvidence).map LinkEvidence.pair).dedup := by
  unfold aggregateLinkEvidence
  dsimp only
  rw [map_map]
  exact map_id _

theorem aggregateLinkEvidence_presents (h : Presents evidence evidence') :
    List.Forall₂ SameUpToTies (aggregateLinkEvidence evidence observedAt)
      (aggregateLinkEvidence evidence' observedAt) := by
  have hcn := h.canonical
  have hpi : sortedBy toLex ((evidence.filterMap canonicalEvidence).map LinkEvidence.pair).dedup =
      sortedBy toLex ((evidence'.filterMap canonicalEvidence).map LinkEvidence.pair).dedup := by
    apply sortedBy_eq_of_perm (fun a _ b _ heq => toLex_inj.1 heq)
    exact (hcn.map _).dedup
  unfold aggregateLinkEvidence
  dsimp only
  rw [hpi, forall₂_map_left_iff, forall₂_map_right_iff, forall₂_same]
  intro pair _
  exact aggregatePair_perm (hcn.filter _)

theorem SameUpToTies.eq {link' : CurrentSwitchLink} (h : SameUpToTies link link')
    (hkey : ∀ a ∈ link.evidence, ∀ b ∈ link.evidence, evidenceKey a = evidenceKey b → a = b) :
      link = link' := by
  have hevi : link.evidence = link'.evidence := by
    apply eq_of_map_eq _ h.keys
    intro a ha b hb
    exact hkey a ha b (h.perm.mem_iff.2 hb)
  rw [h.fields, hevi]

theorem exists_of_mem_aggregateLinkEvidence
    (h : link ∈ aggregateLinkEvidence evidence observedAt) : link.ends.1 < link.ends.2 ∧
      link = aggregatePair link.ends
        (evidence.filterMap (LinkEvidence.facing link.ends)) observedAt := by
  obtain ⟨pair, hpi, rfl⟩ := mem_map.1 h
  rw [mem_sortedBy, mem_dedup] at hpi
  obtain ⟨item, hit, rfl⟩ := mem_map.1 hpi
  obtain ⟨original, -, hcn⟩ := mem_filterMap.1 hit
  have hlt := canonicalEvidence_eq_some hcn
  refine ⟨hlt, ?_⟩
  change aggregatePair item.pair _ observedAt = aggregatePair item.pair _ observedAt
  exact congrArg (aggregatePair item.pair · observedAt) (filter_canonicalEvidence hlt)

theorem perm_evidence (h : link ∈ aggregateLinkEvidence evidence observedAt) :
    link.evidence.Perm (evidence.filterMap (LinkEvidence.facing link.ends)) := by
  obtain ⟨-, heq⟩ := exists_of_mem_aggregateLinkEvidence h
  have hpr := sortedBy_perm evidenceKey (evidence.filterMap (LinkEvidence.facing link.ends))
  exact (congrArg CurrentSwitchLink.evidence heq) ▸ hpr

theorem facing_eq_some (h : item.facing pair = some other) :
    other.pair = pair ∧ (other = item ∨ other = item.swap) := by
  unfold LinkEvidence.facing at h
  split_ifs at h with hpi hswa
  · cases h
    exact ⟨hpi, .inl rfl⟩
  · cases h
    exact ⟨hswa, .inr rfl⟩

/-- Evidence in another order and direction gives the same links, up to the order of evidence
whose keys are equal; each pair of switches has one link, which starts at the smaller of them
and holds the evidence about them. -/
theorem aggregateLinkEvidence_order_free (evidence : List LinkEvidence) (observedAt : Text) :
    (∀ evidence', Presents evidence evidence' →
      List.Forall₂ SameUpToTies (aggregateLinkEvidence evidence observedAt)
        (aggregateLinkEvidence evidence' observedAt) ∧
      ((∀ a ∈ evidence.filterMap canonicalEvidence, ∀ b ∈ evidence.filterMap canonicalEvidence,
          evidenceKey a = evidenceKey b → a = b) →
        aggregateLinkEvidence evidence observedAt = aggregateLinkEvidence evidence' observedAt)) ∧
    ((aggregateLinkEvidence evidence observedAt).map CurrentSwitchLink.ends).Nodup ∧
    ∀ link ∈ aggregateLinkEvidence evidence observedAt, link.sourceAId < link.sourceBId ∧
      link.evidence.Perm (evidence.filterMap (LinkEvidence.facing link.ends)) := by
  refine ⟨?_, ?_, ?_⟩
  · intro evidence' hpr
    have hsm := @aggregateLinkEvidence_presents _ _ observedAt hpr
    refine ⟨hsm, ?_⟩
    intro hkey
    rw [← forall₂_eq_eq_eq]
    apply Forall₂.imp _ ((forall₂_and_left _ _).2 ⟨fun _ h => h, hsm⟩)
    rintro link link' ⟨hln, htis⟩
    apply htis.eq
    have hmem : ∀ a ∈ link.evidence, a ∈ evidence.filterMap canonicalEvidence := by
      intro a ha
      obtain ⟨hlt, -⟩ := exists_of_mem_aggregateLinkEvidence hln
      have ha' := (perm_evidence hln).mem_iff.1 ha
      rw [← filter_canonicalEvidence hlt] at ha'
      exact mem_of_mem_filter ha'
    intro a ha b hb
    exact hkey a (hmem a ha) b (hmem b hb)
  · rw [ends_aggregateLinkEvidence]
    exact (sortedBy_perm _ _).nodup_iff.2 (nodup_dedup _)
  · intro link hln
    exact ⟨(exists_of_mem_aggregateLinkEvidence hln).1, perm_evidence hln⟩

def sampleEvidence (confidence : Int) : LinkEvidence :=
  ⟨⟨1, "a"⟩, ⟨2, "b"⟩, intent, confidence, [], "link", []⟩

/-- Equal keys leave the evidence in the order in which it was given. -/
theorem tied_evidence_keeps_its_order :
    [sampleEvidence 90, sampleEvidence 65].Perm [sampleEvidence 65, sampleEvidence 90] ∧
    aggregateLinkEvidence [sampleEvidence 90, sampleEvidence 65] [] ≠
      aggregateLinkEvidence [sampleEvidence 65, sampleEvidence 90] [] := by
  refine ⟨Perm.swap .., ?_⟩
  decide +kernel

def StrongerNames (evidence : List LinkEvidence) (endpoint : LinkEvidence → LinkEndpoint) : Prop :=
  ∃ item ∈ evidence, (endpoint item).portKey ≠ [] ∧
    evidencePriorities evidence fdbSubtree < evidencePriorities evidence item.evidenceType

section

variable {subtree : List LinkEvidence} (hsubtree : ∀ item ∈ subtree, item.evidenceType = fdbSubtree)
  (h : ∀ item, item ∈ evidence' ↔ item ∈ evidence ∨ item ∈ subtree)

include hsubtree h

/-- Types other than that of subtrees are as they were. -/
theorem exists_added_iff {evidenceType : Text} (hne : evidenceType ≠ fdbSubtree)
    {P : LinkEvidence → Prop} :
    (∃ item ∈ evidence', item.evidenceType = evidenceType ∧ P item) ↔
      ∃ item ∈ evidence, item.evidenceType = evidenceType ∧ P item := by
  constructor
  · rintro ⟨item, hit, hty, hP⟩
    rcases (h item).1 hit with hit | hit
    · exact ⟨item, hit, hty, hP⟩
    · exact absurd (hty.symm.trans (hsubtree item hit)) hne
  · rintro ⟨item, hit, hty, hP⟩
    exact ⟨item, (h item).2 (.inl hit), hty, hP⟩

theorem hasType_added {evidenceType : Text} (hne : evidenceType ≠ fdbSubtree) :
    hasType evidence' evidenceType = hasType evidence evidenceType := by
  have hiff := exists_added_iff hsubtree h hne (P := fun _ => True)
  unfold hasType
  rw [Bool.eq_iff_iff, any_eq_true, any_eq_true]
  simpa using hiff

theorem evidencePriorities_added : evidencePriorities evidence' = evidencePriorities evidence := by
  have hne : fdbManagementMac ≠ fdbSubtree := by decide
  have hsid : fdbSidesResolved evidence' = fdbSidesResolved evidence := by
    have ha := exists_added_iff hsubtree h hne (P := fun item => item.endpointA.portKey ≠ [])
    have hb := exists_added_iff hsubtree h hne (P := fun item => item.endpointB.portKey ≠ [])
    unfold fdbSidesResolved
    rw [Bool.eq_iff_iff]
    simp only [Bool.and_eq_true, any_eq_true, mem_filter, decide_eq_true_eq, and_assoc]
    exact and_congr ha hb
  funext evidenceType
  unfold evidencePriorities
  rw [hsid]

section

variable (hnames : StrongerNames evidence endpoint)
include hnames

theorem strongest_added :
    Strongest evidence' endpoint (evidencePriorities evidence') item ↔
      Strongest evidence endpoint (evidencePriorities evidence) item := by
  rw [evidencePriorities_added hsubtree h]
  obtain ⟨best, hbs, hnm, hlt⟩ := hnames
  have hlow : ∀ added ∈ subtree, evidencePriorities evidence added.evidenceType <
      evidencePriorities evidence best.evidenceType := by
    intro added hadd
    rw [hsubtree added hadd]
    exact hlt
  constructor
  · rintro ⟨hmem, hit, hgre⟩
    have hle := hgre best ((h best).2 (.inl hbs)) hnm
    rcases (h item).1 hmem with hmem | hmem
    · exact ⟨hmem, hit, fun other hot => hgre other ((h other).2 (.inl hot))⟩
    · exact absurd hle (not_le.2 (hlow item hmem))
  · rintro ⟨hmem, hit, hgre⟩
    refine ⟨(h item).2 (.inl hmem), hit, ?_⟩
    intro other hot hpr
    rcases (h other).1 hot with hot | hot
    · exact hgre other hot hpr
    · exact (hlow other hot).le.trans (hgre best hbs hnm)

theorem disputed_added :
    Disputed evidence' endpoint ↔ Disputed evidence endpoint := by
  unfold Disputed
  simp only [strongest_added hsubtree h hnames]

theorem preferredPort_added :
    preferredPort evidence' endpoint (evidencePriorities evidence') =
      preferredPort evidence endpoint (evidencePriorities evidence) := by
  unfold preferredPort
  rw [strongestPorts_congr]
  intro port
  simp only [mem_strongestPorts, strongest_added hsubtree h hnames]

end

theorem agreedState_added (hst : hasType evidence intent = true ∨ hasType evidence lldpChassisMac = true)
    (portA portA' portB portB' : Text) :
    (agreedState evidence' portA' portB').1 = (agreedState evidence portA portB).1 ∧
      (agreedState evidence portA portB).1 ≠ .conflicting := by
  have hint := hasType_added hsubtree h (show intent ≠ fdbSubtree by decide)
  have hlld := hasType_added hsubtree h (show lldpChassisMac ≠ fdbSubtree by decide)
  have hmn := hasType_added hsubtree h (show fdbManagementMac ≠ fdbSubtree by decide)
  unfold agreedState
  rw [hint, hlld, hmn, evidencePriorities_added hsubtree h]
  rcases hst with hst | hst
  · rw [hst]
    cases hasType evidence lldpChassisMac <;> cases hasType evidence fdbManagementMac <;> simp
  · rw [hst]
    cases hasType evidence intent <;> simp

end

def linkOf (evidence : List LinkEvidence) (observedAt : Text) (pair : Int × Int) :
    Option CurrentSwitchLink :=
  (aggregateLinkEvidence evidence observedAt).find? fun link => link.ends = pair

theorem linkOf_eq (hpi : pair.1 < pair.2) (hit : item ∈ evidence)
    (hfc : (item.facing pair).isSome = true) :
    linkOf evidence observedAt pair =
      some (aggregatePair pair (evidence.filterMap (LinkEvidence.facing pair)) observedAt) := by
  obtain ⟨other, hot⟩ := Option.isSome_iff_exists.1 hfc
  have hmem : other ∈ evidence.filterMap (LinkEvidence.facing pair) := mem_filterMap.2 ⟨item, hit, hot⟩
  rw [← filter_canonicalEvidence hpi] at hmem
  have hen : pair ∈ (aggregateLinkEvidence evidence observedAt).map CurrentSwitchLink.ends := by
    rw [ends_aggregateLinkEvidence, mem_sortedBy, mem_dedup]
    exact mem_map.2 ⟨other, mem_of_mem_filter hmem, (facing_eq_some hot).1⟩
  obtain ⟨link, hlink, hln⟩ := mem_map.1 hen
  have hsm : (linkOf evidence observedAt pair).isSome = true :=
    find?_isSome.2 ⟨link, hlink, decide_eq_true hln⟩
  obtain ⟨found, hfn⟩ := Option.isSome_iff_exists.1 hsm
  unfold linkOf at hfn ⊢
  have hfou : found.ends = pair := by simpa using find?_some hfn
  subst hfou
  rw [hfn]
  exact congrArg some (exists_of_mem_aggregateLinkEvidence (mem_of_find?_eq_some hfn)).2

structure FollowsEvidence (link : CurrentSwitchLink) : Prop where
  portA : link.portAKey =
    (preferredPort link.evidence LinkEvidence.endpointA (evidencePriorities link.evidence)).1
  portB : link.portBKey =
    (preferredPort link.evidence LinkEvidence.endpointB (evidencePriorities link.evidence)).1
  conflicting : Disputed link.evidence LinkEvidence.endpointA ∨ Disputed link.evidence LinkEvidence.endpointB →
    link.state = .conflicting
  agreed : ¬ (Disputed link.evidence LinkEvidence.endpointA ∨ Disputed link.evidence LinkEvidence.endpointB) →
    link.state = (agreedState link.evidence link.portAKey link.portBKey).1

theorem aggregatePair_follows : FollowsEvidence (aggregatePair pair evidence observedAt) := by
  have hds : ∀ evidence, (Disputed evidence LinkEvidence.endpointA ∨ Disputed evidence LinkEvidence.endpointB) ↔
      ((preferredPort evidence LinkEvidence.endpointA (evidencePriorities evidence)).2 ||
        (preferredPort evidence LinkEvidence.endpointB (evidencePriorities evidence)).2) = true := by
    intro evidence
    rw [Bool.or_eq_true, disputed_iff, disputed_iff]
  constructor
  · rfl
  · rfl
  · intro h
    exact congrArg Prod.fst (if_pos ((hds _).1 h))
  · intro h
    exact congrArg Prod.fst (if_neg fun hor => h ((hds _).2 hor))

/-- Where a pair of switches has intent or LLDP evidence, evidence of subtrees changes no port that
stronger evidence names, and it changes the state of the link if and only if it gives rise to a
dispute over a side that no stronger evidence names a port of, or settles one. -/
theorem subtree_evidence_yields (evidence subtree : List LinkEvidence) (pair : Int × Int)
    (observedAt : Text)
    (hpi : pair.1 < pair.2) (hst : ∃ item ∈ evidence, (item.facing pair).isSome = true ∧
      (item.evidenceType = intent ∨ item.evidenceType = lldpChassisMac))
    (hsubtree : ∀ item ∈ subtree, (item.facing pair).isSome = true ∧ item.evidenceType = fdbSubtree) :
    ∃ link link', linkOf evidence observedAt pair = some link ∧
      linkOf (evidence ++ subtree) observedAt pair = some link' ∧
      (StrongerNames link.evidence LinkEvidence.endpointA → link'.portAKey = link.portAKey ∧
        (Disputed link'.evidence LinkEvidence.endpointA ↔
          Disputed link.evidence LinkEvidence.endpointA)) ∧
      (StrongerNames link.evidence LinkEvidence.endpointB → link'.portBKey = link.portBKey ∧
        (Disputed link'.evidence LinkEvidence.endpointB ↔
          Disputed link.evidence LinkEvidence.endpointB)) ∧
      (link'.state = link.state ↔
        ((Disputed link'.evidence LinkEvidence.endpointA ∨
          Disputed link'.evidence LinkEvidence.endpointB) ↔
          (Disputed link.evidence LinkEvidence.endpointA ∨
            Disputed link.evidence LinkEvidence.endpointB))) := by
  obtain ⟨item, hit, hfc, htype⟩ := hst
  obtain ⟨other, hot⟩ := Option.isSome_iff_exists.1 hfc
  refine ⟨_, _, linkOf_eq hpi hit hfc, linkOf_eq hpi (mem_append_left subtree hit) hfc, ?_⟩
  have follows : FollowsEvidence
    (aggregatePair pair (evidence.filterMap (LinkEvidence.facing pair)) observedAt) :=
    aggregatePair_follows
  have follows' : FollowsEvidence
      (aggregatePair pair ((evidence ++ subtree).filterMap (LinkEvidence.facing pair)) observedAt) :=
    aggregatePair_follows
  generalize hln : aggregatePair pair (evidence.filterMap (LinkEvidence.facing pair)) observedAt =
    link at follows
  generalize hln' : aggregatePair pair ((evidence ++ subtree).filterMap (LinkEvidence.facing pair))
    observedAt = link'
    at follows'
  have hmem : ∀ item, item ∈ link.evidence ↔ item ∈ evidence.filterMap (LinkEvidence.facing pair) := by
    intro item
    rw [← hln]
    exact mem_sortedBy
  have hadd : ∀ item, item ∈ link'.evidence ↔
      item ∈ link.evidence ∨ item ∈ subtree.filterMap (LinkEvidence.facing pair) := by
    intro item
    rw [hmem, ← mem_append, ← filterMap_append, ← hln']
    exact mem_sortedBy
  have hty : ∀ item ∈ subtree.filterMap (LinkEvidence.facing pair), item.evidenceType = fdbSubtree := by
    intro item hit
    obtain ⟨original, hor, htr⟩ := mem_filterMap.1 hit
    rcases (facing_eq_some htr).2 with rfl | rfl
    · exact (hsubtree _ hor).2
    · exact (hsubtree _ hor).2
  have hothertype : other.evidenceType = intent ∨ other.evidenceType = lldpChassisMac := by
    rcases (facing_eq_some hot).2 with rfl | rfl
    · exact htype
    · exact htype
  have hothe : other ∈ link.evidence := (hmem other).2 (mem_filterMap.2 ⟨item, hit, hot⟩)
  have hhs : hasType link.evidence intent = true ∨ hasType link.evidence lldpChassisMac = true := by
    apply hothertype.imp
    · intro heq
      exact any_eq_true.2 ⟨other, hothe, decide_eq_true heq⟩
    · intro heq
      exact any_eq_true.2 ⟨other, hothe, decide_eq_true heq⟩
  refine ⟨?_, ?_, ?_⟩
  · intro hnames
    refine ⟨?_, disputed_added hty hadd hnames⟩
    rw [follows.portA, follows'.portA, preferredPort_added hty hadd hnames]
  · intro hnames
    refine ⟨?_, disputed_added hty hadd hnames⟩
    rw [follows.portB, follows'.portB, preferredPort_added hty hadd hnames]
  · obtain ⟨hag, hne⟩ := agreedState_added hty hadd hhs link.portAKey link'.portAKey
      link.portBKey link'.portBKey
    have hag' := follows'.agreed
    rw [hag] at hag'
    by_cases hbf : Disputed link.evidence LinkEvidence.endpointA ∨ Disputed link.evidence LinkEvidence.endpointB
    · by_cases haf : Disputed link'.evidence LinkEvidence.endpointA ∨
        Disputed link'.evidence LinkEvidence.endpointB
      · rw [follows.conflicting hbf, follows'.conflicting haf]
        exact iff_of_true rfl (iff_of_true haf hbf)
      · rw [follows.conflicting hbf, hag' haf]
        exact iff_of_false hne fun hiff => haf (hiff.2 hbf)
    · by_cases haf : Disputed link'.evidence LinkEvidence.endpointA ∨
        Disputed link'.evidence LinkEvidence.endpointB
      · rw [follows.agreed hbf, follows'.conflicting haf]
        exact iff_of_false hne.symm fun hiff => hbf (hiff.1 haf)
      · rw [follows.agreed hbf, hag' haf]
        exact iff_of_true rfl (iff_of_false haf hbf)

def sampleIntent : LinkEvidence := ⟨⟨1, []⟩, ⟨2, []⟩, intent, 65, [], "link", []⟩

/-- Each of the two switches looks like the other's parent. -/
def sampleSubtree : List LinkEvidence :=
  [⟨⟨1, "a"⟩, ⟨2, "b"⟩, fdbSubtree, 90, [], [], []⟩, ⟨⟨2, "c"⟩, ⟨1, "d"⟩, fdbSubtree, 90, [], [], []⟩]

/-- Evidence of subtrees that disagrees makes a link with intent conflicting. -/
theorem subtree_dispute_changes_state : (sampleIntent.facing (1, 2)).isSome = true ∧
      (∀ item ∈ sampleSubtree, (item.facing (1, 2)).isSome = true ∧ item.evidenceType = fdbSubtree) ∧
      (linkOf [sampleIntent] [] (1, 2)).map CurrentSwitchLink.state = some .inferred ∧
      (linkOf ([sampleIntent] ++ sampleSubtree) [] (1, 2)).map CurrentSwitchLink.state =
        some .conflicting := by
  decide +kernel

def namedIntent : LinkEvidence := ⟨⟨1, "p"⟩, ⟨2, []⟩, intent, 65, [], "link", []⟩

/-- The port that the intent names stays, whatever the subtrees say about that side. -/
theorem subtree_evidence_yields_sample : ∃ link link', linkOf [namedIntent] [] (1, 2) = some link ∧
      linkOf ([namedIntent] ++ sampleSubtree) [] (1, 2) = some link' ∧ link'.portAKey = link.portAKey ∧
      (link'.state = link.state ↔
        ((Disputed link'.evidence LinkEvidence.endpointA ∨
          Disputed link'.evidence LinkEvidence.endpointB) ↔
          (Disputed link.evidence LinkEvidence.endpointA ∨
            Disputed link.evidence LinkEvidence.endpointB))) := by
  have hsr : ∃ item ∈ [namedIntent], (item.facing (1, 2)).isSome = true ∧
      (item.evidenceType = intent ∨ item.evidenceType = lldpChassisMac) :=
    ⟨namedIntent, mem_singleton_self _, by decide, .inl rfl⟩
  have hsubtree : ∀ item ∈ sampleSubtree, (item.facing (1, 2)).isSome = true ∧
    item.evidenceType = fdbSubtree := by
    decide +kernel
  obtain ⟨link, link', hln, hln', hport, -, hst⟩ :=
    subtree_evidence_yields [namedIntent] sampleSubtree (1, 2) [] (by decide) hsr hsubtree
  have hevi : (linkOf [namedIntent] [] (1, 2)).map CurrentSwitchLink.evidence = some [namedIntent] := by
    decide +kernel
  rw [hln] at hevi
  have hnames : StrongerNames link.evidence LinkEvidence.endpointA := by
    rw [Option.some.inj hevi]
    exact ⟨namedIntent, mem_singleton_self _, by decide, by decide +kernel⟩
  exact ⟨link, link', hln, hln', (hport hnames).1, hst⟩

end WebOvpn.Topology
