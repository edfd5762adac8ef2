/-
The hosts that are probed: which addresses are known, under which of the accepted
rules each is probed, and whether the projection has the same rule for it.
-/
import WebOvpn.Netctl.ContextImport
import WebOvpn.Netctl.HostProjection

namespace WebOvpn.HostProjection

open List

/-- A rule of `resolve_availability_segment_rules`; a network that is not IPv4 is `none`. -/
structure EffectiveRule where
  segmentId : Text
  network : Option Ipv4Network
  availabilityMonitoring : Bool
  availabilityTcpPorts : List Nat
  availabilityIntervalMinutes : Nat

structure MonitoredRule extends SegmentRule where
  availabilityTcpPorts : List Nat

def minAvailabilityPrefixlen : Nat := 24

def maxAvailabilityTargets : Nat := 4096

def usableCount (network : Ipv4Network) : Nat :=
  if 31 ≤ network.prefixlen.val then hostCount network.prefixlen else hostCount network.prefixlen - 2

def acceptRules (previous : List MonitoredRule) (targetCount : Nat) :
    List EffectiveRule → Except String (List MonitoredRule)
  | [] => .ok previous
  | rule :: rules =>
    match rule.network with
    | none => .error "availability monitoring requires an IPv4 cidr"
    | some network =>
      if network.prefixlen.val < minAvailabilityPrefixlen then
        .error "availability cidr must be at least /24"
      else if previous.any fun other => network.overlaps other.network then
        .error "availability cidrs must not overlap"
      else if maxAvailabilityTargets < targetCount + usableCount network then
        .error "availability target limit 4096 exceeded"
      else
        acceptRules
          (previous ++
            [⟨⟨rule.segmentId, network, rule.availabilityIntervalMinutes⟩,
            rule.availabilityTcpPorts⟩])
          (targetCount + usableCount network) rules

def validateActiveAvailabilitySegments (rules : List EffectiveRule) :
    Except String (List MonitoredRule) :=
  acceptRules [] 0 (rules.filter EffectiveRule.availabilityMonitoring)

/-- `(-rule.network.prefixlen, rule.segment_id)`. -/
def MonitoredRule.rank (rule : MonitoredRule) : Nat ×ₗ Text :=
  toLex (32 - rule.network.prefixlen.val, rule.segmentId)

def targetRule (ip : Text) (segments : List MonitoredRule) : Option MonitoredRule :=
  (Ipv4.ofText ip).bind fun address =>
    (sortedBy MonitoredRule.rank (segments.filter fun rule => rule.network.contains address)).head?

def monitoredRuleForIp (segments : List MonitoredRule) (ip : Text) : Option MonitoredRule :=
  (Ipv4.ofText ip).bind fun address =>
    (sortedBy MonitoredRule.rank (segments.filter fun rule => rule.monitors address)).head?

structure ContextHead where
  contextId : Text
  contextRevisionId : Nat
  activatedAt : Text

structure IntentAsset where
  contextRevisionId : Nat
  lifecycle : Text
  canonicalJson : Text

/-- The tables that the hosts are taken from; `networkHosts` are the addresses and the hardware
addresses. -/
structure TargetTables where
  arpEntries : List ArpEntry
  dhcpLeases : List DhcpLease
  bridgeHosts : List BridgeHost
  currentFdb : List FdbEntry
  networkHosts : List (Text × Option Text)
  forceMonitors : List ForceMonitor
  contextHeads : List ContextHead
  intentAssets : List IntentAsset

inductive TargetsError where
  /-- `target clock must be UTC`. -/
  | clock
  /-- The `OverflowError` of `astimezone`, or of the time a day before. -/
  | overflow
  /-- The `ValueError` of `json.loads` for an integer that is too long. -/
  | digits
  deriving DecidableEq

def isSince (cutoff : Text) (lastSeenAt : Option Text) : Bool := lastSeenAt.any fun seen => cutoff ≤ seen

/-- `trim(coalesce(mac, '')) <> ''`. -/
def hasMac (mac : Option Text) : Bool := (mac.getD []).any fun c => c ≠ ' '

/-- `lower(replace(mac, ':', ''))`. -/
def bareMac (mac : Option Text) : Option Text :=
  mac.map fun mac => Text.lower (mac.filter fun c => c ≠ ':')

/-- `JOIN network_hosts AS hosts` on the hardware address; a null joins nothing. -/
def TargetTables.hostsOf (tables : TargetTables) (mac : Option Text) : List Text :=
  (tables.networkHosts.filter fun host => (bareMac mac).isSome && bareMac host.2 = bareMac mac).map Prod.fst

/-- The union of the four queries. -/
def TargetTables.observed (tables : TargetTables) (cutoff : Text) : List Text :=
  ((tables.arpEntries.filter fun row => isSince cutoff row.lastSeenAt && row.complete &&
    hasMac row.mac).map ArpEntry.ip) ++
    ((tables.dhcpLeases.filter fun row => isSince cutoff row.lastSeenAt && hasMac row.mac).map DhcpLease.ip) ++
    ((tables.bridgeHosts.filter fun row => isSince cutoff row.lastSeenAt && hasMac row.mac).flatMap fun row =>
      tables.hostsOf row.mac) ++
    ((tables.currentFdb.filter fun row => isSince cutoff (some row.lastSeenAt) && hasMac (some row.mac)).flatMap
      fun row => tables.hostsOf (some row.mac))

/-- `ORDER BY activated_at DESC, context_id LIMIT 1`. -/
def TargetTables.newestHead (tables : TargetTables) : Option ContextHead :=
  (sortedBy (fun head => (toLex (OrderDual.toDual head.activatedAt, head.contextId) : Textᵒᵈ ×ₗ Text))
    tables.contextHeads).head?

def managementIp (canonicalJson : Text) : Except TargetsError (List Text) :=
  match Netctl.loadsText canonicalJson with
  | .error .digits => .error .digits
  | .error _ => .ok []
  | .ok (.obj asset) =>
    match asset.lookup (text "management_ip") with
    | some (.str ip) => .ok [ip]
    | _ => .ok []
  | .ok _ => .ok []

def TargetTables.management (tables : TargetTables) : Except TargetsError (List Text) :=
  match tables.newestHead with
  | none => .ok []
  | some head =>
    List.flatten <$> (tables.intentAssets.filter fun asset =>
      asset.contextRevisionId = head.contextRevisionId ∧ asset.lifecycle = text "active").mapM fun asset =>
        managementIp asset.canonicalJson

/-- The time a day before `now`, to the second. -/
def cutoffOf (now : Moment) : Except TargetsError Text :=
  match asUtc now with
  | .error _ => .error .overflow
  | .ok none => .error .clock
  | .ok (some timestamp) =>
    let cutoff := timestamp - minutes (24 * 60)
    if h : 0 ≤ cutoff ∧ cutoff < 315537897600000000 then
      .ok (Instant.seconds ⟨cutoff.toNat, by omega⟩ ++ "Z")
    else .error .overflow

def TargetTables.candidates (tables : TargetTables)
    (now : Moment) : Except TargetsError (List Text) := do
  let cutoff ← cutoffOf now
  let management ← tables.management
  return tables.observed cutoff ++
    (tables.forceMonitors.filter ForceMonitor.enabled).map ForceMonitor.ip ++ management

structure ProbeTarget where
  ip : Text
  tcpPorts : List Nat
  cidr : Text
  deriving DecidableEq

def MonitoredRule.target (rule : MonitoredRule) (address : Ipv4) : ProbeTarget :=
  ⟨address.text, rule.availabilityTcpPorts, rule.network.text⟩

/-- The entry of `targets` that a candidate makes, under its address.  An address has one text, so no
candidate takes the place of another one. -/
def targetOf (segments : List MonitoredRule) (candidate : Text) : Option (Ipv4 × ProbeTarget) :=
  match targetRule candidate segments, Ipv4.ofText candidate with
  | some rule, some address => some (address, rule.target address)
  | _, _ => none

def availabilityTargets (tables : TargetTables) (segments : List MonitoredRule) (now : Moment) :
    Except TargetsError (List ProbeTarget) := do
  let candidates ← tables.candidates now
  return (sortedBy Prod.fst (candidates.filterMap (targetOf segments)).dedup).map Prod.snd

variable {rules : List EffectiveRule} {previous segments : List MonitoredRule}
    {rule : MonitoredRule} {address : Ipv4}

/-- No two rules have a common address. -/
def Disjoint (segments : List MonitoredRule) : Prop :=
  segments.Pairwise fun rule other => other.network.overlaps rule.network = false

theorem disjoint_acceptRules {targetCount : Nat} (hpre : Disjoint previous)
    (h : acceptRules previous targetCount rules = .ok segments) : Disjoint segments := by
  induction rules generalizing previous targetCount with
  | nil =>
    cases h
    exact hpre
  | cons rule rules ih =>
    unfold acceptRules at h
    split at h
    · cases h
    · split_ifs at h with _ hover _
      apply ih _ h
      apply pairwise_append.2
      refine ⟨hpre, pairwise_singleton _ _, ?_⟩
      intro other hot added hadd
      rw [mem_singleton.1 hadd]
      exact Bool.eq_false_iff.2 fun h => hover (any_eq_true.2 ⟨other, hot, h⟩)

theorem filter_contains (hds : Disjoint segments) (address : Ipv4) :
    (segments.filter fun rule => rule.network.contains address) = [] ∨
      ∃ rule, (segments.filter fun rule => rule.network.contains address) = [rule] := by
  have hpi : (segments.filter fun rule => rule.network.contains address).Pairwise fun _ _ => False := by
    apply List.Pairwise.imp_of_mem _ (hds.filter _)
    intro rule other hrl hot hover
    have hrl := (mem_filter.1 hrl).2
    have hot := (mem_filter.1 hot).2
    rw [Ipv4Network.overlaps_of_contains hot hrl] at hover
    cases hover
  generalize (segments.filter fun rule => rule.network.contains address) = found at hpi
  match found, hpi with
  | [], _ => exact .inl rfl
  | [rule], _ => exact .inr ⟨rule, rfl⟩
  | rule :: other :: _, h => exact absurd (rel_of_pairwise_cons h mem_cons_self) not_false

def SegmentRule.IsUsable (rule : SegmentRule) (address : Ipv4) : Prop :=
  rule.network.prefixlen.val < 31 → address ≠ rule.network.base ∧ address ≠ rule.network.broadcast

theorem monitors_iff : rule.monitors address = true ↔
    rule.network.contains address = true ∧ rule.IsUsable address := by
  unfold SegmentRule.monitors SegmentRule.IsUsable
  rw [Bool.and_eq_true, Bool.or_eq_true, Bool.and_eq_true, decide_eq_true_iff, decide_eq_true_iff,
    decide_eq_true_iff,
    ← not_lt, or_iff_not_imp_left, not_not]

theorem targetRule_eq_some_iff (hds : Disjoint segments) {ip : Text}
    (hip : Ipv4.ofText ip = some address) :
    targetRule ip segments = some rule ↔ rule ∈ segments ∧ rule.network.contains address = true := by
  have hmem : rule ∈ segments.filter (fun rule => rule.network.contains address) ↔
      rule ∈ segments ∧ rule.network.contains address = true := mem_filter
  unfold targetRule
  rw [hip, Option.bind_some, ← hmem]
  rcases filter_contains hds address with h | ⟨found, h⟩
  · rw [h]
    exact iff_of_false nofun not_mem_nil
  · rw [h, mem_singleton]
    change some found = some rule ↔ _
    rw [Option.some.injEq, eq_comm]

theorem monitoredRuleForIp_eq_some_iff (hds : Disjoint segments) {ip : Text}
    (hip : Ipv4.ofText ip = some address) : monitoredRuleForIp segments ip = some rule ↔
      rule ∈ segments ∧ rule.network.contains address = true ∧ rule.IsUsable address := by
  have hfl : (segments.filter fun rule => rule.monitors address) =
      (segments.filter fun rule => rule.network.contains address).filter fun rule => rule.monitors address := by
    rw [filter_filter]
    apply filter_congr
    intro rule _
    rw [Bool.eq_iff_iff, Bool.and_eq_true, monitors_iff]
    exact ⟨fun h => ⟨h, h.1⟩, And.left⟩
  have hmem : rule ∈ segments.filter (fun rule => rule.monitors address) ↔
      rule ∈ segments ∧ rule.monitors address = true := mem_filter
  unfold monitoredRuleForIp
  rw [hip, Option.bind_some, ← monitors_iff, ← hmem, hfl]
  rcases filter_contains hds address with h | ⟨found, h⟩
  · rw [h]
    exact iff_of_false nofun not_mem_nil
  · rw [h, filter_singleton]
    cases found.monitors address
    · exact iff_of_false nofun not_mem_nil
    · change some found = some rule ↔ _
      rw [Option.some.injEq, eq_comm]
      exact mem_singleton.symm

variable {tables : TargetTables} {now : Moment} {candidates : List Text} {targets : List ProbeTarget}
  {target : ProbeTarget}

theorem mem_availabilityTargets (hcn : tables.candidates now = .ok candidates)
    (htar : availabilityTargets tables segments now = .ok targets) :
    target ∈ targets ↔ ∃ ip ∈ candidates, ∃ address rule, Ipv4.ofText ip = some address ∧
      targetRule ip segments = some rule ∧ target = rule.target address := by
  unfold availabilityTargets at htar
  rw [hcn] at htar
  cases htar
  simp only [mem_map, mem_sortedBy, mem_dedup, mem_filterMap]
  constructor
  · rintro ⟨entry, ⟨ip, hip, hen⟩, rfl⟩
    unfold targetOf at hen
    split at hen
    · rename_i rule address hrl hadd
      cases hen
      exact ⟨ip, hip, address, rule, hadd, hrl, rfl⟩
    · cases hen
  · rintro ⟨ip, hip, address, rule, hadd, hrl, rfl⟩
    refine ⟨(address, rule.target address), ⟨ip, hip, ?_⟩, rfl⟩
    unfold targetOf
    rw [hadd, hrl]

/-- Every target is the projection's rule for its address, and every known host with a rule is a
target. -/
structure Agree (segments : List MonitoredRule) (candidates : List Text)
    (targets : List ProbeTarget) : Prop where
  projected : ∀ target ∈ targets, ∃ rule address, target = rule.target address ∧
    monitoredRuleForIp segments target.ip = some rule
  selected : ∀ ip ∈ candidates, ∀ rule, monitoredRuleForIp segments ip = some rule →
    ∃ address, Ipv4.ofText ip = some address ∧ rule.target address ∈ targets

/-- The two agree when no known host has the address of a network or a broadcast address. -/
theorem availabilityTargets_agree_iff (rules : List EffectiveRule)
    (hac : validateActiveAvailabilitySegments rules = .ok segments)
    (hca : tables.candidates now = .ok candidates)
    (htar : availabilityTargets tables segments now = .ok targets) : Agree segments candidates targets ↔
      ∀ ip ∈ candidates, ∀ address, Ipv4.ofText ip = some address →
        ∀ rule ∈ segments, rule.network.contains address = true → rule.IsUsable address := by
  have hds := disjoint_acceptRules List.Pairwise.nil hac
  constructor
  · rintro ⟨hpr, -⟩ ip hip address hadd rule hrl hcn
    have htg : rule.target address ∈ targets := (mem_availabilityTargets hca htar).2
      ⟨ip, hip, address, rule, hadd, (targetRule_eq_some_iff hds hadd).2 ⟨hrl, hcn⟩, rfl⟩
    obtain ⟨other, address', heq, hmon⟩ := hpr _ htg
    have hot := (monitoredRuleForIp_eq_some_iff hds (Ipv4.ofText_text address)).1 hmon
    have hnet : rule.network = other.network := Ipv4Network.text_injective (congrArg ProbeTarget.cidr heq)
    unfold SegmentRule.IsUsable
    rw [hnet]
    exact hot.2.2
  · intro husa
    constructor
    · intro target htg
      obtain ⟨ip, hip, address, rule, hadd, hrl, rfl⟩ := (mem_availabilityTargets hca htar).1 htg
      obtain ⟨hmem, hcn⟩ := (targetRule_eq_some_iff hds hadd).1 hrl
      exact ⟨rule, address, rfl, (monitoredRuleForIp_eq_some_iff hds (Ipv4.ofText_text address)).2
        ⟨hmem, hcn, husa ip hip address hadd rule hmem hcn⟩⟩
    · intro ip hip rule hrl
      cases hadd : Ipv4.ofText ip with
      | none =>
        unfold monitoredRuleForIp at hrl
        rw [hadd] at hrl
        cases hrl
      | some address =>
        obtain ⟨hmem, hcn, -⟩ := (monitoredRuleForIp_eq_some_iff hds hadd).1 hrl
        exact ⟨address, rfl, (mem_availabilityTargets hca htar).2
          ⟨ip, hip, address, rule, hadd, (targetRule_eq_some_iff hds hadd).2 ⟨hmem, hcn⟩, rfl⟩⟩

def office : Ipv4Network := ⟨0xC0000200, 30, by decide⟩

def officeRules : List EffectiveRule := [⟨"office", some office, true, [22], 5⟩]

def officeSegments : List MonitoredRule := [⟨⟨"office", office, 5⟩, [22]⟩]

def seenHost (ip : Text) : TargetTables :=
  ⟨[⟨1, ip, some "AA:BB:CC:DD:EE:01", true, some "2026-07-02T00:00:00Z"⟩], [], [], [], [], [], [], []⟩

def sampleNow : Moment := .text "2026-07-02T00:00:00Z"

/-- The address of the network itself is probed and is no host of the segment. -/
theorem network_address_is_probed :
    ¬ ∀ rules segments tables now candidates targets,
      validateActiveAvailabilitySegments rules = .ok segments →
      tables.candidates now = .ok candidates → availabilityTargets tables segments now = .ok targets →
      Agree segments candidates targets := by
  intro h
  have hag := h officeRules officeSegments (seenHost "192.0.2.0") sampleNow ["192.0.2.0"]
    [⟨text "192.0.2.0", [22], text "192.0.2.0/30"⟩] rfl (by decide +kernel) (by decide +kernel)
  obtain ⟨rule, address, -, hmon⟩ := hag.projected _ mem_cons_self
  have hnn : (monitoredRuleForIp officeSegments "192.0.2.0").isNone = true := by decide +kernel
  rw [hmon] at hnn
  cases hnn

/-- A usable address of the same network. -/
theorem host_address_agrees :
    Agree officeSegments ["192.0.2.1"] [⟨"192.0.2.1", [22], "192.0.2.0/30"⟩] := by
  refine (@availabilityTargets_agree_iff officeSegments
    (seenHost (text "192.0.2.1")) sampleNow _ _ officeRules rfl
    (by decide +kernel) (by decide +kernel)).2 ?_
  intro ip hip address hadd rule hrl _
  rw [mem_singleton.1 hip] at hadd
  rw [mem_singleton.1 hrl]
  have hv : Ipv4.ofText "192.0.2.1" = some 0xC0000201 := by decide +kernel
  cases hv.symm.trans hadd
  intro _
  decide

end WebOvpn.HostProjection
