/-
When the roles of the ports do not depend on the order of the links: the assignments of
a port are one pass over the links in order, and a disagreement between neighbours
outlives the stronger link that comes after them.
-/
import WebOvpn.Lib.Standing
import WebOvpn.Netctl.PortRoles

namespace WebOvpn.Topology

open Standing List

variable {layout : Layout} {subtrees : Subtrees} {observed : Observed}
    {links links' : List CurrentSwitchLink}
  {link : CurrentSwitchLink} {port : PortId} {assignment : Assignment}

def Assignments.at (s : Assignments) (port : PortId) : Standing Assignment :=
  ⟨s.assignments port, decide (port ∈ s.conflicts)⟩

variable (s : Assignments)

theorem at_assign (taken : PortId) (candidate : Assignment) :
    (assign s taken candidate).at port =
      if taken = port then (s.at port).offer Assignment.priority Assignment.claim candidate
        else s.at port := by
  unfold assign Standing.offer Assignments.at
  split_ifs with hpr
  · subst hpr
    cases hcur : s.assignments taken with
    | none => simp
    | some current =>
      dsimp only
      split_ifs
      · simp
      · simp [hcur]
      · simp [hcur]
  · cases hcur : s.assignments taken with
    | none => simp [Function.update_of_ne (Ne.symm hpr)]
    | some current =>
      dsimp only
      split_ifs
      · simp [Function.update_of_ne (Ne.symm hpr)]
      · simp [Ne.symm hpr]
      · rfl

def entriesAt (entries : List (PortId × Assignment)) (port : PortId) : List Assignment :=
  (entries.filter fun entry => entry.1 = port).map Prod.snd

theorem mem_entriesAt {entries : List (PortId × Assignment)} :
    assignment ∈ entriesAt entries port ↔ (port, assignment) ∈ entries := by
  unfold entriesAt
  simp only [mem_map, mem_filter, decide_eq_true_eq]
  constructor
  · rintro ⟨entry, ⟨hen, rfl⟩, rfl⟩
    exact hen
  · exact fun h => ⟨_, ⟨h, rfl⟩, rfl⟩

theorem at_foldl_assign (entries : List (PortId × Assignment)) :
    (entries.foldl (fun s entry => assign s entry.1 entry.2) s).at port =
      (entriesAt entries port).foldl (Standing.offer Assignment.priority Assignment.claim)
        (s.at port) := by
  induction entries generalizing s with
  | nil => rfl
  | cons entry entries ih =>
    rw [foldl_cons, ih, at_assign]
    unfold entriesAt
    rw [filter_cons]
    by_cases hpr : entry.1 = port
    · rw [if_pos hpr, if_pos (decide_eq_true hpr), map_cons, foldl_cons]
    · rw [if_neg hpr, if_neg (by simpa using hpr)]

def linkOffers (layout : Layout) (link : CurrentSwitchLink) : List (PortId × Assignment) :=
  if link.state = .conflicting then [] else linkAssignments layout link

def InConflict (links : List CurrentSwitchLink) (port : PortId) : Prop :=
  ∃ link ∈ links, link.state = .conflicting ∧ port ∈ linkPortKeys link

instance : Decidable (InConflict links port) := by
  unfold InConflict
  infer_instance

theorem at_takeLink :
    (takeLink layout s link).at port = ((entriesAt (linkOffers layout link) port).foldl
      (Standing.offer Assignment.priority Assignment.claim) (s.at port)).mark
        (decide (link.state = .conflicting ∧ port ∈ linkPortKeys link)) := by
  unfold takeLink linkOffers
  split_ifs with hst
  · change _ = Standing.mark _ (s.at port)
    unfold Assignments.at Standing.mark
    simp [hst, Bool.or_comm]
  · rw [at_foldl_assign, decide_eq_false fun h => hst h.1]
    rfl

theorem at_foldl_takeLink (links : List CurrentSwitchLink) :
    (links.foldl (takeLink layout) s).at port =
      ((links.flatMap fun link => entriesAt (linkOffers layout link) port).foldl
      (Standing.offer Assignment.priority Assignment.claim) (s.at port)).mark (decide
        (InConflict links port)) := by
  induction links generalizing s with
  | nil => simp [InConflict, Standing.mark]
  | cons link links ih =>
    rw [foldl_cons, ih, at_takeLink, foldl_offer_mark, flatMap_cons, List.foldl_append]
    unfold Standing.mark InConflict
    simp [Bool.or_left_comm, or_and_right, exists_or, Bool.decide_or, Bool.or_assoc]

def assignmentsOf (layout : Layout) (subtrees : Subtrees) (links : List CurrentSwitchLink)
    (port : PortId) :
    List Assignment :=
  (links.flatMap fun link => entriesAt (linkOffers layout link) port) ++
    entriesAt (subtreeAssignments subtrees) port

def DiffersAtTop (layout : Layout) (subtrees : Subtrees) (links : List CurrentSwitchLink)
    (port : PortId) : Prop :=
  ContestedAtTop Assignment.priority Assignment.claim (assignmentsOf layout subtrees links port)

abbrev ordered (links : List CurrentSwitchLink) : List CurrentSwitchLink :=
  sortedBy CurrentSwitchLink.sortKey links

theorem inConflict_congr (h : ∀ link, link ∈ links ↔ link ∈ links') : InConflict links port ↔
    InConflict links' port := by
  unfold InConflict
  simp only [h]

theorem at_topologyAssignments : (topologyAssignments layout subtrees links).at port =
      (standing Assignment.priority Assignment.claim
        (assignmentsOf layout subtrees (ordered links) port)).mark
        (decide (InConflict links port)) := by
  unfold topologyAssignments standing assignmentsOf
  rw [at_foldl_assign, at_foldl_takeLink, foldl_offer_mark, List.foldl_append,
    decide_eq_decide.2 (inConflict_congr fun link => mem_sortedBy)]
  rfl

theorem mem_conflicts_iff : port ∈ (topologyAssignments layout subtrees links).conflicts ↔
    InConflict links port ∨
    Contested Assignment.priority Assignment.claim
      (assignmentsOf layout subtrees (ordered links) port) := by
  have h := congrArg Standing.contested (@at_topologyAssignments layout subtrees links port)
  change decide _ = (_ || _) at h
  rw [← (standing_found _).contested_iff, ← decide_eq_true_iff (p := InConflict links port),
    ← Bool.or_eq_true, ← h,
    decide_eq_true_iff]

theorem assignments_eq : (topologyAssignments layout subtrees links).assignments port =
    (standing Assignment.priority Assignment.claim
      (assignmentsOf layout subtrees (ordered links) port)).current :=
  congrArg Standing.current (@at_topologyAssignments layout subtrees links port)

def CurrentSwitchLink.IsFirm (link : CurrentSwitchLink) : Prop :=
  link.state = .confirmed ∨ link.state ≠ .conflicting ∧ hasType link.evidence intent = true

def CurrentSwitchLink.IsNeighbour (link : CurrentSwitchLink) : Prop :=
  link.state ≠ .conflicting ∧ link.state ≠ .confirmed ∧ hasType link.evidence intent = false ∧
    hasType link.evidence lldpChassisMac = true

def childAt (layout : Layout) (link : CurrentSwitchLink) (port : PortId) (peer : Int) : Option Int :=
  if some port.1 = parentSource layout link.sourceAId link.sourceBId then some peer else none

def confidenceOf (priority : Nat) : Int :=
  if priority = 300 then 100 else if priority = 125 then 70 else 95

def evidenceTypeOf (priority : Nat) (child : Option Int) : Text :=
  if priority = 300 then "confirmed_topology"
  else if priority = 275 then "intent_topology"
  else if priority = 250 then if child.isSome then "lldp_child_switch" else "lldp_backbone"
  else if priority = 225 then "bidirectional_management_fdb"
  else if priority = 200 then "non_conflicting_topology"
  else "one_sided_management_fdb"

def endAssignment (priority : Nat) (child : Option Int) (peer : Int) : Assignment :=
  { priority := priority
    role := if child.isSome then .downstreamBridge else .backbone
    confidence := confidenceOf priority
    childSourceId := child
    evidence := [("type", .str (evidenceTypeOf priority child)), ("peer_source_id", .int peer)] }

inductive Offered (layout : Layout) (link : CurrentSwitchLink) (port : PortId) (peer : Int) :
    Assignment → Prop
  | firm (priority : Nat) (h : link.IsFirm) (hstrong : 250 < priority) :
      Offered layout link port peer (endAssignment priority none peer)
  | neighbour (h : link.IsNeighbour) :
      Offered layout link port peer (endAssignment 250 (childAt layout link port peer) peer)
  | weak (priority : Nat) (hweak : priority < 250) (hne : priority ≠ 150) :
      Offered layout link port peer (endAssignment priority none peer)

theorem mem_backboneEnds {priority : Nat} {confidence : Int} {evidenceType : Text}
    (h : (port, assignment) ∈ backboneEnds link priority confidence evidenceType)
    (hcn : confidence = confidenceOf priority) (hty : evidenceType = evidenceTypeOf priority none) :
    ∃ peer, (port, peer) ∈ link.held ∧ assignment = endAssignment priority none peer := by
  obtain ⟨held, hhl, heq⟩ := mem_map.1 h
  cases heq
  exact ⟨held.2, hhl, by rw [hcn, hty]; rfl⟩

theorem mem_neighbourEnds : (port, assignment) ∈ neighbourEnds layout link ↔
    ∃ peer, (port, peer) ∈ link.held ∧
      assignment = endAssignment 250 (childAt layout link port peer) peer := by
  unfold neighbourEnds
  simp only [mem_map]
  have hsm : ∀ held : PortId × Int, endAssignment 250 (childAt layout link held.1 held.2) held.2 =
      { priority := 250
        role := if some held.1.1 = parentSource layout link.sourceAId link.sourceBId then .downstreamBridge
          else .backbone
        confidence := 95
        childSourceId :=
          if some held.1.1 = parentSource layout link.sourceAId link.sourceBId then some held.2
          else none
        evidence := [("type", .str (if some held.1.1 = parentSource layout link.sourceAId link.sourceBId then
            "lldp_child_switch" else "lldp_backbone")), ("peer_source_id", .int held.2)] } := by
    intro held
    unfold endAssignment childAt
    by_cases hpr : some held.1.1 = parentSource layout link.sourceAId link.sourceBId
    · simp only [if_pos hpr]
      rfl
    · simp only [if_neg hpr]
      rfl
  constructor
  · rintro ⟨held, hhl, heq⟩
    cases heq
    exact ⟨held.2, hhl, (hsm held).symm⟩
  · rintro ⟨peer, hhl, rfl⟩
    exact ⟨(port, peer), hhl, by rw [hsm (port, peer)]⟩

theorem offered_of_mem (h : (port, assignment) ∈ linkOffers layout link) :
    ∃ peer, (port, peer) ∈ link.held ∧ Offered layout link port peer assignment := by
  unfold linkOffers at h
  split_ifs at h with hconf
  · cases h
  unfold linkAssignments at h
  split_ifs at h with hcn hint hlld hsid hsub hin hmn
  · obtain ⟨peer, hhl, rfl⟩ := mem_backboneEnds h rfl rfl
    exact ⟨peer, hhl, .firm 300 (.inl hcn) (by decide)⟩
  · obtain ⟨peer, hhl, rfl⟩ := mem_backboneEnds h rfl rfl
    exact ⟨peer, hhl, .firm 275 (.inr ⟨hconf, hint⟩) (by decide)⟩
  · obtain ⟨peer, hhl, rfl⟩ := mem_neighbourEnds.1 h
    exact ⟨peer, hhl, .neighbour ⟨hconf, hcn, Bool.eq_false_iff.2 hint, hlld⟩⟩
  · obtain ⟨peer, hhl, rfl⟩ := mem_backboneEnds h rfl rfl
    exact ⟨peer, hhl, .weak 225 (by decide) (by decide)⟩
  · cases h
  · obtain ⟨peer, hhl, rfl⟩ := mem_backboneEnds h rfl rfl
    exact ⟨peer, hhl, .weak 125 (by decide) (by decide)⟩
  · obtain ⟨peer, hhl, rfl⟩ := mem_backboneEnds h rfl rfl
    exact ⟨peer, hhl, .weak 200 (by decide) (by decide)⟩
  · cases h

theorem exists_firm (layout : Layout) {peer : Int} (h : link.IsFirm) (hhl : (port, peer) ∈ link.held) :
    ∃ assignment, (port, assignment) ∈ linkOffers layout link ∧ 250 < assignment.priority := by
  unfold linkOffers linkAssignments
  by_cases hcn : link.state = .confirmed
  · rw [if_neg (by rw [hcn]; nofun), if_pos hcn]
    exact ⟨_, mem_map_of_mem hhl, (by decide : 250 < 300)⟩
  · obtain ⟨hconfl, hint⟩ := h.resolve_left hcn
    rw [if_neg hconfl, if_neg hcn, if_pos hint]
    exact ⟨_, mem_map_of_mem hhl, (by decide : 250 < 275)⟩

theorem neighbour_mem (layout : Layout) {peer : Int} (h : link.IsNeighbour)
    (hhl : (port, peer) ∈ link.held) :
    (port, endAssignment 250 (childAt layout link port peer) peer) ∈ linkOffers layout link := by
  unfold linkOffers linkAssignments
  obtain ⟨hconf, hcn, hint, hlld⟩ := h
  rw [if_neg hconf, if_neg hcn, if_neg (Bool.eq_false_iff.1 hint), if_pos hlld]
  exact mem_neighbourEnds.2 ⟨peer, hhl, rfl⟩

theorem peer_unique {peer peer' : Int} (h : (port, peer) ∈ link.held) (h' : (port, peer') ∈ link.held) :
    peer = peer' := by
  unfold CurrentSwitchLink.held at h h'
  have hen := mem_of_mem_filter h
  have hen' := mem_of_mem_filter h'
  simp only [mem_cons, Prod.mk.injEq, not_mem_nil, or_false] at hen hen'
  rcases hen with ⟨rfl, rfl⟩ | ⟨rfl, rfl⟩ <;> rcases hen' with ⟨h, rfl⟩ | ⟨h, rfl⟩
  · rfl
  · exact (congrArg Prod.fst h).symm
  · exact (congrArg Prod.fst h).symm
  · rfl

variable {link' : CurrentSwitchLink} {assignment' : Assignment} {peer peer' : Int}

section

variable (h : Offered layout link port peer assignment)
include h

theorem Offered.eq (h' : Offered layout link' port peer assignment')
    (hsr : (link.sourceAId, link.sourceBId) = (link'.sourceAId, link'.sourceBId))
    (hpr : assignment.priority = assignment'.priority) : assignment = assignment' := by
  obtain ⟨hA, hB⟩ := Prod.mk.inj hsr
  have hch : childAt layout link port peer = childAt layout link' port peer := by
    unfold childAt
    rw [hA, hB]
  cases h <;> cases h' <;> dsimp only [endAssignment] at hpr
  all_goals first
    | (subst hpr; rfl)
    | omega
    | rw [hch]

theorem Offered.differ (h' : Offered layout link' port peer' assignment')
    (hpr : assignment.priority = assignment'.priority)
    (hcl : assignment.claim ≠ assignment'.claim) :
    link.IsNeighbour ∧ link'.IsNeighbour ∧ assignment.priority = 250 ∧
      childAt layout link port peer ≠ childAt layout link' port peer' := by
  cases h with
  | neighbour hnei =>
    cases h' with
    | neighbour hnei' =>
      refine ⟨hnei, hnei', rfl, ?_⟩
      intro hch
      apply hcl
      rw [hch]
      rfl
    | firm priority _ hst => exact absurd hpr hst.ne
    | weak priority hwea _ => exact absurd hpr hwea.ne'
  | firm priority _ hst =>
    cases h' with
    | neighbour => exact absurd hpr hst.ne'
    | firm | weak =>
      cases hpr
      exact absurd rfl hcl
  | weak priority hwea _ =>
    cases h' with
    | neighbour => exact absurd hpr hwea.ne
    | firm | weak =>
      cases hpr
      exact absurd rfl hcl

theorem Offered.isFirm (hst : 250 < assignment.priority) :
    link.IsFirm := by
  cases h with
  | firm _ hfr _ => exact hfr
  | neighbour => exact absurd hst (lt_irrefl 250)
  | weak _ hwea _ => exact absurd hst hwea.not_gt

end

theorem priority_subtree (h : assignment ∈ entriesAt (subtreeAssignments subtrees) port) :
    assignment.priority = 150 := by
  rcases mem_append.1 (mem_entriesAt.1 h) with h | h
  all_goals
    obtain ⟨candidate, -, heq⟩ := mem_map.1 h
    cases heq
    rfl

def offersAt (layout : Layout) (links : List CurrentSwitchLink) (port : PortId) :
    List (CurrentSwitchLink × Assignment) :=
  links.flatMap fun link => (entriesAt (linkOffers layout link) port).map (Prod.mk link)

theorem mem_offersAt : (link, assignment) ∈ offersAt layout links port ↔
    link ∈ links ∧ (port, assignment) ∈ linkOffers layout link := by
  unfold offersAt
  simp only [mem_flatMap, mem_map, mem_entriesAt, Prod.mk.injEq]
  constructor
  · rintro ⟨link, hln, assignment, hoff, rfl, rfl⟩
    exact ⟨hln, hoff⟩
  · rintro ⟨hln, hoff⟩
    exact ⟨link, hln, assignment, hoff, rfl, rfl⟩

theorem map_snd_offersAt : (offersAt layout links port).map Prod.snd =
    links.flatMap fun link => entriesAt (linkOffers layout link) port := by
  unfold offersAt
  rw [map_flatMap]
  simp [Function.comp_def]

theorem mem_linkEntries :
    assignment ∈ (links.flatMap fun link => entriesAt (linkOffers layout link) port) ↔
    ∃ link ∈ links, (port, assignment) ∈ linkOffers layout link := by
  simp only [mem_flatMap, mem_entriesAt]

theorem offersAt_sorted :
    (offersAt layout (ordered links) port).Pairwise fun a b => a.1.sortKey ≤ b.1.sortKey := by
  unfold offersAt
  rw [pairwise_flatMap]
  constructor
  · intro link _
    apply pairwise_map.2
    exact pairwise_of_forall fun _ _ => le_rfl
  · apply (sortedBy_pairwise CurrentSwitchLink.sortKey links).imp
    intro link link' hle a ha b hb
    obtain ⟨_, _, rfl⟩ := mem_map.1 ha
    obtain ⟨_, _, rfl⟩ := mem_map.1 hb
    exact hle

theorem held_of_sortKey (h : link.sortKey = link'.sortKey) : link.held = link'.held ∧
    (link.sourceAId, link.sourceBId) = (link'.sourceAId, link'.sourceBId) := by
  unfold CurrentSwitchLink.sortKey at h
  simp only [toLex_inj, Prod.mk.injEq] at h
  obtain ⟨hA, hpr, hB, hportB, -⟩ := h
  unfold CurrentSwitchLink.held
  rw [hA, hpr, hB, hportB]
  exact ⟨rfl, rfl⟩

theorem eq_of_sortKey (h : (port, assignment) ∈ linkOffers layout link)
    (h' : (port, assignment') ∈ linkOffers layout link') (hkey : link.sortKey = link'.sortKey)
    (hpr : assignment.priority = assignment'.priority) : assignment = assignment' := by
  obtain ⟨peer, hhl, hoff⟩ := offered_of_mem h
  obtain ⟨peer', hhl', hoff'⟩ := offered_of_mem h'
  obtain ⟨heq, hsr⟩ := held_of_sortKey hkey
  obtain rfl := peer_unique hhl (heq ▸ hhl')
  exact hoff.eq hoff' hsr hpr

theorem current_perm (h : links.Perm links') :
    (standing Assignment.priority Assignment.claim
      (assignmentsOf layout subtrees (ordered links) port)).current =
      (standing Assignment.priority Assignment.claim
        (assignmentsOf layout subtrees (ordered links') port)).current := by
  unfold standing assignmentsOf
  rw [List.foldl_append, List.foldl_append, ← map_snd_offersAt, ← map_snd_offersAt]
  apply current_foldl_congr
  have hmem : ∀ offer, offer ∈ offersAt layout (ordered links) port ↔
    offer ∈ offersAt layout (ordered links') port := by
    intro offer
    rw [mem_offersAt, mem_offersAt, mem_sortedBy, mem_sortedBy, h.mem_iff]
  have hfn := @standing_found Assignment _ _ Assignment.priority Assignment.claim
    ((offersAt layout (ordered links) port).map Prod.snd)
  have hfn' := @standing_found Assignment _ _ Assignment.priority Assignment.claim
    ((offersAt layout (ordered links') port).map Prod.snd)
  have hem : (offersAt layout (ordered links) port).map Prod.snd = [] ↔
      (offersAt layout (ordered links') port).map Prod.snd = [] := by
    rw [map_eq_nil_iff, map_eq_nil_iff, eq_nil_iff_forall_not_mem, eq_nil_iff_forall_not_mem]
    exact forall_congr' fun offer => not_congr (hmem offer)
  change (standing _ _ _).current = (standing _ _ _).current
  cases hcur : (standing Assignment.priority Assignment.claim
      ((offersAt layout (ordered links) port).map Prod.snd)).current with
  | none => exact (hfn'.none_iff.2 (hem.1 (hfn.none_iff.1 hcur))).symm
  | some first =>
    cases hcur' : (standing Assignment.priority Assignment.claim
        ((offersAt layout (ordered links') port).map Prod.snd)).current with
    | none =>
      rw [hfn.none_iff.2 (hem.2 (hfn'.none_iff.1 hcur'))] at hcur
      cases hcur
    | some first' =>
      obtain ⟨⟨link, _⟩, rfl, hfs⟩ := (hfn.some_of first hcur).of_map
      obtain ⟨⟨link', _⟩, rfl, hfs'⟩ := (hfn'.some_of first' hcur').of_map
      obtain ⟨hkey, hpr⟩ := hfs.key_eq hfs' offersAt_sorted offersAt_sorted hmem
      exact congrArg some (eq_of_sortKey (mem_offersAt.1 hfs.mem).2 (mem_offersAt.1 hfs'.mem).2 hkey hpr)

theorem differsAtTop_congr (h : ∀ link, link ∈ links ↔ link ∈ links') :
    DiffersAtTop layout subtrees links port ↔ DiffersAtTop layout subtrees links' port := by
  apply contestedAtTop_congr
  intro assignment
  unfold assignmentsOf
  rw [mem_append, mem_append, mem_linkEntries, mem_linkEntries]
  simp only [h]

def FirmAt (link : CurrentSwitchLink) (port : PortId) : Prop :=
  link.IsFirm ∧ ∃ peer, (port, peer) ∈ link.held

def DisagreeAt (layout : Layout) (first second : CurrentSwitchLink) (port : PortId) : Prop :=
  first.IsNeighbour ∧ second.IsNeighbour ∧ ∃ peer peer', (port, peer) ∈ first.held ∧
    (port, peer') ∈ second.held ∧
    childAt layout first port peer ≠ childAt layout second port peer'

/-- Where neighbours disagree about a port that a firm link holds, a firm link at the port is in
order before
one of them. -/
def FirmFirst (layout : Layout) (links : List CurrentSwitchLink) : Prop :=
  ∀ port, ¬ InConflict links port → ∀ first ∈ links, ∀ second ∈ links, DisagreeAt layout first second port →
    (∃ firm ∈ links, FirmAt firm port) →
      ∃ firm ∈ links, FirmAt firm port ∧ (firm.sortKey < first.sortKey ∨ firm.sortKey < second.sortKey)

theorem contested_iff (hfs : FirmFirst layout links) (hpo : ¬ InConflict links port) :
    Contested Assignment.priority Assignment.claim (assignmentsOf layout subtrees (ordered links) port) ↔
      DiffersAtTop layout subtrees links port := by
  rw [differsAtTop_congr fun link => (mem_sortedBy : link ∈ sortedBy CurrentSwitchLink.sortKey _ ↔ _).symm]
  refine ⟨?_, contested_of_top⟩
  intro hcn
  have hlinks : ∀ assignment ∈ (ordered links).flatMap fun link => entriesAt (linkOffers layout link) port,
      ∃ link ∈ links, (port, assignment) ∈ linkOffers layout link := by
    intro assignment hass
    obtain ⟨link, hln, hoff⟩ := mem_linkEntries.1 hass
    exact ⟨link, mem_sortedBy.1 hln, hoff⟩
  rcases contested_append.1 hcn with hcn | ⟨before, assignment, rest, heq, hle, other, hot, hsm, hdf⟩
  · -- Two neighbours differ: a firm link would have come before the later one.
    rw [← map_snd_offersAt, contested_map] at hcn
    obtain ⟨⟨first, assignment⟩, hmem, ⟨second, assignment'⟩, hmem', hsm, hdf, hstro⟩ :=
      hcn.exists_pair offersAt_sorted
    dsimp only at hsm hdf hstro
    obtain ⟨hln, hoff⟩ := mem_offersAt.1 hmem
    obtain ⟨hln', hoff'⟩ := mem_offersAt.1 hmem'
    obtain ⟨peer, hheld, hoffered⟩ := offered_of_mem hoff
    obtain ⟨peer', hhl', hoffe'⟩ := offered_of_mem hoff'
    obtain ⟨hnei, hnei', hpr, hch⟩ := hoffered.differ hoffe' hsm hdf
    refine ⟨assignment, ?_, assignment', ?_, hsm, hdf, ?_⟩
    · exact mem_append_left _ (mem_linkEntries.2 ⟨first, hln, hoff⟩)
    · exact mem_append_left _ (mem_linkEntries.2 ⟨second, hln', hoff'⟩)
    intro other hot
    by_contra hnot
    rw [not_le, hpr] at hnot
    rcases mem_append.1 hot with hot | hot
    · obtain ⟨firm, hfr, hofferFirm⟩ := hlinks other hot
      obtain ⟨peerFirm, hhl, hoffe⟩ := offered_of_mem hofferFirm
      obtain ⟨earlier, hear, ⟨hisF, peerEarlier, hheldE⟩, hbf⟩ :=
        hfs port hpo first (mem_sortedBy.1 hln) second (mem_sortedBy.1 hln')
          ⟨hnei, hnei', peer, peer', hheld, hhl', hch⟩
          ⟨firm, hfr, hoffe.isFirm hnot, peerFirm, hhl⟩
      obtain ⟨strong, hst, hlt⟩ := exists_firm layout hisF hheldE
      have haf := hstro (earlier, strong) (mem_offersAt.2 ⟨mem_sortedBy.2 hear, hst⟩) (hpr ▸ hlt)
      exact hbf.elim (fun h => absurd haf.1 h.not_ge) fun h => absurd haf.2 h.not_ge
    · rw [priority_subtree hot] at hnot
      exact absurd hnot (by decide)
  · -- Two subtree candidates differ, and no link is stronger.
    have hass : assignment ∈ entriesAt (subtreeAssignments subtrees) port := by
      rw [heq]
      exact mem_append_right before mem_cons_self
    refine ⟨other, ?_, assignment, mem_append_right _ hass, hsm, hdf, ?_⟩
    · rcases mem_append.1 hot with hot | hot
      · exact mem_append_left _ hot
      · exact mem_append_right _ (heq ▸ mem_append_left _ hot)
    · intro other' hot'
      rw [hsm]
      rcases mem_append.1 hot' with hot' | hot'
      · exact hle other' (mem_append_left _ hot')
      · rw [priority_subtree hot', priority_subtree hass]

variable {first second : CurrentSwitchLink}

theorem DisagreeAt.symm (h : DisagreeAt layout first second port) :
    DisagreeAt layout second first port := by
  obtain ⟨hfs, hsn, peer, peer', hhl, hhl', hne⟩ := h
  exact ⟨hsn, hfs, peer', peer, hhl', hhl, hne.symm⟩

theorem DisagreeAt.key_ne (h : DisagreeAt layout first second port) :
    first.sortKey ≠ second.sortKey := by
  obtain ⟨-, -, peer, peer', hhl, hhl', hne⟩ := h
  intro hkey
  obtain ⟨heq, hsr⟩ := held_of_sortKey hkey
  obtain ⟨hA, hB⟩ := Prod.mk.inj hsr
  obtain rfl := peer_unique hhl (heq ▸ hhl')
  apply hne
  unfold childAt
  rw [hA, hB]

theorem CurrentSwitchLink.IsNeighbour.not_firm (h : link.IsNeighbour) : ¬ link.IsFirm := by
  obtain ⟨-, hcn, hint, -⟩ := h
  rintro (hst | ⟨-, hsr⟩)
  · exact hcn hst
  · rw [hint] at hsr
    cases hsr

theorem contested_of_late (hfs : first ∈ links) (hsn : second ∈ links)
    (hds : DisagreeAt layout first second port) (hle : first.sortKey ≤ second.sortKey)
    (hla : ∀ firm ∈ links, FirmAt firm port → second.sortKey ≤ firm.sortKey) :
    Contested Assignment.priority Assignment.claim
      (assignmentsOf layout subtrees (ordered (second :: links.erase second)) port) := by
  have hlt := lt_of_le_of_ne hle hds.key_ne
  obtain ⟨hnei, hnei', peer, peer', hheld, hhl', hch⟩ := hds
  obtain ⟨before, after, hsp, hbf⟩ :=
    sortedBy_cons_split CurrentSwitchLink.sortKey second (links.erase second)
  have hpr : (ordered (second :: links.erase second)).Perm links :=
    (sortedBy_perm _ _).trans (perm_cons_erase hsn).symm
  have hsr := sortedBy_pairwise CurrentSwitchLink.sortKey (second :: links.erase second)
  unfold ordered at hpr ⊢
  rw [hsp] at hpr hsr ⊢
  have hfi : first ∈ before := by
    rcases mem_append.1 (hpr.mem_iff.2 hfs) with h | h
    · exact h
    · rcases mem_cons.1 h with rfl | h
      · exact absurd hlt (lt_irrefl _)
      · exact absurd hlt (rel_of_pairwise_cons (pairwise_append.1 hsr).2.1 h).not_gt
  obtain ⟨earlier, later, hen⟩ :=
    append_of_mem (mem_entriesAt.2 (neighbour_mem layout hnei' hhl'))
  refine ⟨(before.flatMap fun link => entriesAt (linkOffers layout link) port) ++ earlier,
    endAssignment 250 (childAt layout second port peer') peer',
    later ++ (after.flatMap fun link => entriesAt (linkOffers layout link) port) ++
      entriesAt (subtreeAssignments subtrees) port, ?_, ?_,
        endAssignment 250 (childAt layout first port peer) peer,
    ?_, rfl, ?_⟩
  · unfold assignmentsOf
    rw [flatMap_append, flatMap_cons, hen]
    simp only [append_assoc, cons_append]
  · intro other hot
    by_contra hst
    rw [not_le] at hst
    rcases mem_append.1 hot with hot | hot
    · obtain ⟨firm, hfr, hoffer⟩ := mem_linkEntries.1 hot
      obtain ⟨peerFirm, hhl, hoff⟩ := offered_of_mem hoffer
      exact absurd (hla firm (hpr.mem_iff.1 (mem_append_left _ hfr))
        ⟨hoff.isFirm hst, peerFirm, hhl⟩) (hbf firm hfr).not_ge
    · have hmem : other ∈ entriesAt (linkOffers layout second) port := hen ▸ mem_append_left _ hot
      obtain ⟨_, _, hoff⟩ := offered_of_mem (mem_entriesAt.1 hmem)
      exact hnei'.not_firm (hoff.isFirm hst)
  · exact mem_append_left _ (mem_linkEntries.2 ⟨first, hfi, neighbour_mem layout hnei hheld⟩)
  · intro hcl
    exact hch (congrArg (fun claim => claim.2.2) hcl)

theorem not_differsAtTop (hfr : ∃ firm ∈ links, FirmAt firm port) :
    ¬ DiffersAtTop layout subtrees links port := by
  rintro ⟨first, hfs, second, hsn, hsm, hdf, htop⟩
  obtain ⟨firm, hmem, hisF, peer, hhl⟩ := hfr
  obtain ⟨strong, hst, hlt⟩ := exists_firm layout hisF hhl
  have hle := hlt.trans_le (htop strong (mem_append_left _ (mem_linkEntries.2 ⟨firm, hmem, hst⟩)))
  have hln : ∀ assignment ∈ assignmentsOf layout subtrees links port, 250 < assignment.priority →
      ∃ link ∈ links, (port, assignment) ∈ linkOffers layout link := by
    intro assignment hass hst
    rcases mem_append.1 hass with h | h
    · exact mem_linkEntries.1 h
    · rw [priority_subtree h] at hst
      exact absurd hst (by decide)
  obtain ⟨link, -, hoff⟩ := hln first hfs hle
  obtain ⟨link', -, hoff'⟩ := hln second hsn (hsm ▸ hle)
  obtain ⟨_, -, hoffe⟩ := offered_of_mem hoff
  obtain ⟨_, -, hoffe'⟩ := offered_of_mem hoff'
  exact hle.ne' (hoffe.differ hoffe' hsm hdf).2.2.1

theorem port_summaryOf : (summaryOf observed port).port = port := by
  unfold summaryOf
  cases hfn : observed.summaries.reverse.find? fun summary => summary.port = port with
  | none => rfl
  | some summary => simpa using find?_some hfn

theorem port_roleAt {assigned : Assignments} : (roleAt observed subtrees assigned port).port = port := by
  have hpr := @port_summaryOf observed port
  unfold roleAt
  dsimp only
  split_ifs
  · exact hpr
  · split <;> exact hpr

theorem mem_summaryPorts_of_held {peer : Int} (hln : link ∈ links) (hhl : (port, peer) ∈ link.held) :
    port ∈ summaryPorts observed links := by
  unfold summaryPorts
  rw [mem_sortedBy, mem_dedup]
  apply mem_append_right
  apply mem_flatMap.2 ⟨link, hln, _⟩
  unfold linkPortKeys
  rw [mem_sortedBy, mem_dedup]
  unfold CurrentSwitchLink.held at hhl
  obtain ⟨hen, hpr⟩ := mem_filter.1 hhl
  refine mem_filter.2 ⟨mem_append_left _ ?_, hpr⟩
  simp only [mem_cons, Prod.mk.injEq, not_mem_nil, or_false] at hen ⊢
  exact hen.imp And.left And.left

theorem evidence_ne (h : assignment ∈ assignmentsOf layout subtrees links port) (rest : Members) :
    assignment.evidence ≠ (text "type", .str (text "topology_conflict")) :: rest := by
  have hty : ∀ fields evidenceType, evidenceType ≠ text "topology_conflict" →
      (text "type", JVal.str evidenceType) :: fields ≠
        (text "type", .str (text "topology_conflict")) :: rest := by
    intro fields evidenceType hne heq
    cases (List.cons.inj heq).1
    exact hne rfl
  rcases mem_append.1 h with h | h
  · obtain ⟨link, -, hoff⟩ := mem_linkEntries.1 h
    obtain ⟨peer, -, hoffe⟩ := offered_of_mem hoff
    have hend : ∃ priority child, assignment = endAssignment priority child peer := by
      cases hoffe <;> exact ⟨_, _, rfl⟩
    obtain ⟨priority, child, rfl⟩ := hend
    apply hty
    unfold evidenceTypeOf
    split_ifs <;> decide
  · rcases mem_append.1 (mem_entriesAt.1 h) with h | h
    · obtain ⟨candidate, -, heq⟩ := mem_map.1 h
      cases heq
      exact hty _ _ (by decide)
    · obtain ⟨candidate, -, heq⟩ := mem_map.1 h
      cases heq
      exact hty _ _ (by decide)

theorem isConflicting_iff :
    (roleAt observed subtrees (topologyAssignments layout subtrees links) port).isConflicting ↔
    port ∈ (topologyAssignments layout subtrees links).conflicts := by
  have hassi := @assignments_eq layout subtrees links port
  have hfn := @standing_found Assignment _ _ Assignment.priority Assignment.claim
    (assignmentsOf layout subtrees (ordered links) port)
  unfold PortRole.isConflicting roleAt
  dsimp only
  split_ifs with hcn
  · exact iff_of_true ⟨_, rfl⟩ hcn
  · refine iff_of_false ?_ hcn
    rintro ⟨rest, hha⟩
    cases hass : (topologyAssignments layout subtrees links).assignments port with
    | some assignment =>
      rw [hass] at hha hassi
      exact evidence_ne (hfn.some_of assignment hassi.symm).mem rest (Option.some.inj hha)
    | none =>
      rw [hass] at hha
      have hdc := congrArg Prod.snd (List.cons.inj (Option.some.inj hha)).1
      unfold densityDecision at hdc
      split_ifs at hdc <;> exact absurd hdc (by decide)

theorem summaryPorts_perm (h : links.Perm links') :
    summaryPorts observed links = summaryPorts observed links' := by
  apply sortedBy_eq_of_perm (fun _ _ _ _ heq => toLex_inj.1 heq)
  apply (perm_ext_iff_of_nodup (nodup_dedup _) (nodup_dedup _)).2
  intro port
  simp only [mem_dedup, mem_append, mem_flatMap, h.mem_iff]

/-- What the inference promises: one result for every order of the links, and a conflict exactly at
the ports
of conflicting links and at those whose strongest assignments differ. -/
structure OrderFree (observed : Observed) (layout : Layout) (subtrees : Subtrees)
    (links : List CurrentSwitchLink) :
    Prop where
  perm : ∀ links', links'.Perm links →
    inferPortRoles observed layout subtrees links' = inferPortRoles observed layout subtrees links
  isConflicting : ∀ role ∈ inferPortRoles observed layout subtrees links,
    role.isConflicting ↔ InConflict links role.port ∨ DiffersAtTop layout subtrees links role.port

/-- Where neighbours disagree about a port of a firm link, a firm link must come before one of them. -/
theorem inferPortRoles_order_free_iff (observed : Observed) (layout : Layout) (subtrees : Subtrees)
    (links : List CurrentSwitchLink) : OrderFree observed layout subtrees links ↔
      FirmFirst layout links := by
  constructor
  · rintro ⟨hpe, hconfl⟩ port hpr first hfs second hsn hds hfr
    by_contra hnot
    have hla : ∀ firm ∈ links, FirmAt firm port →
        first.sortKey ≤ firm.sortKey ∧ second.sortKey ≤ firm.sortKey := by
      intro firm hmem hat
      constructor
      · exact not_lt.1 fun hlt => hnot ⟨firm, hmem, hat, .inl hlt⟩
      · exact not_lt.1 fun hlt => hnot ⟨firm, hmem, hat, .inr hlt⟩
    -- In one order of the links the port is contested, though nothing differs at its top.
    have hord : ∃ links', links'.Perm links ∧
        Contested Assignment.priority Assignment.claim
          (assignmentsOf layout subtrees (ordered links') port) := by
      rcases le_total first.sortKey second.sortKey with hle | hle
      · exact ⟨_, (perm_cons_erase hsn).symm,
          contested_of_late hfs hsn hds hle fun firm hmem hat => (hla firm hmem hat).2⟩
      · exact ⟨_, (perm_cons_erase hfs).symm,
          contested_of_late hsn hfs hds.symm hle fun firm hmem hat => (hla firm hmem hat).1⟩
    obtain ⟨links', hln', hcont⟩ := hord
    obtain ⟨-, -, peer, -, hhl, -, -⟩ := hds
    have hrp : roleAt observed subtrees (topologyAssignments layout subtrees links') port ∈
        inferPortRoles observed layout subtrees links := by
      rw [← hpe links' hln']
      exact mem_map_of_mem (mem_summaryPorts_of_held (hln'.mem_iff.2 hfs) hhl)
    have hjud := (hconfl _ hrp).1 (isConflicting_iff.2 (mem_conflicts_iff.2 (.inr hcont)))
    rw [port_roleAt] at hjud
    exact hjud.elim hpr (not_differsAtTop hfr)
  · intro hfs
    have hcn : ∀ links', links'.Perm links → ∀ port,
        port ∈ (topologyAssignments layout subtrees links').conflicts ↔
          InConflict links port ∨ DiffersAtTop layout subtrees links port := by
      intro links' hln' port
      have hcongr : InConflict links' port ↔ InConflict links port := inConflict_congr fun _ => hln'.mem_iff
      rw [mem_conflicts_iff, hcongr]
      apply or_congr_right'
      intro hpr
      have hfs' : FirmFirst layout links' := by
        intro port hpr first hmem second hmem' hds hfr
        simp only [hln'.mem_iff, inConflict_congr fun link => hln'.mem_iff (a := link)] at *
        exact hfs port hpr first hmem second hmem' hds hfr
      rw [contested_iff hfs' (hcongr.not.2 hpr), differsAtTop_congr fun _ => hln'.mem_iff]
    constructor
    · intro links' hln'
      have hsm : topologyAssignments layout subtrees links' = topologyAssignments layout subtrees links := by
        have hass : (topologyAssignments layout subtrees links').assignments =
            (topologyAssignments layout subtrees links).assignments := by
          funext port
          rw [assignments_eq, assignments_eq, current_perm hln']
        have hmr : (topologyAssignments layout subtrees links').conflicts =
            (topologyAssignments layout subtrees links).conflicts := by
          ext port
          rw [hcn links' hln', hcn links (.refl links)]
        generalize topologyAssignments layout subtrees links' = s at hass hmr ⊢
        generalize topologyAssignments layout subtrees links = s' at hass hmr ⊢
        obtain ⟨_, _⟩ := s
        obtain ⟨_, _⟩ := s'
        exact congrArg₂ Assignments.mk hass hmr
      unfold inferPortRoles
      rw [hsm, summaryPorts_perm hln']
    · intro role hrl
      obtain ⟨port, -, rfl⟩ := mem_map.1 hrl
      rw [isConflicting_iff, port_roleAt, hcn links (.refl links)]

/-- Two neighbours below one port, and a confirmed link of that port that comes after them. -/
def uplinkShared : List CurrentSwitchLink :=
  [⟨[], 1, "p", 2, "q", .inferred, 85, [], [], [⟨⟨1, "p"⟩, ⟨2, "q"⟩, lldpChassisMac, 90, [], [], []⟩]⟩,
    ⟨[], 1, "p", 3, "q", .inferred, 85, [], [], [⟨⟨1, "p"⟩, ⟨3, "q"⟩, lldpChassisMac, 90, [], [], []⟩]⟩,
    ⟨[], 1, "p", 4, "q", .confirmed, 100, [], [], [⟨⟨1, "p"⟩, ⟨4, "q"⟩, intent, 90, [], [], []⟩]⟩]

/-- The disagreement of the neighbours is remembered although the confirmed link is stronger. -/
theorem weaker_disagreement_is_kept :
    ¬ ∀ observed layout subtrees links, OrderFree observed layout subtrees links := by
  intro h
  have hfs := (h ⟨[], fun _ => none, []⟩ ⟨fun source => some (source - 1), []⟩ ⟨[], [], fun _ => []⟩
    uplinkShared).isConflicting
  have hconf : ((1, "p") : PortId) ∈ (topologyAssignments ⟨fun source => some (source - 1), []⟩
      ⟨[], [], fun _ => []⟩ uplinkShared).conflicts := by decide +kernel
  have hrp : ((1, "p") : PortId) ∈ summaryPorts ⟨[], fun _ => none, []⟩ uplinkShared := by decide +kernel
  have hjud := (hfs _ (mem_map_of_mem hrp)).1 (isConflicting_iff.2 hconf)
  rw [port_roleAt] at hjud
  rcases hjud with hcn | hdf
  · exact absurd hcn (by decide +kernel)
  · refine not_differsAtTop ⟨uplinkShared[2], getElem_mem _, .inl rfl, 4, by decide +kernel⟩ hdf

end WebOvpn.Topology
