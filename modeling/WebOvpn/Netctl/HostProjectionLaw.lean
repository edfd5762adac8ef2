/-
What is told of many hosts at once is what is told of each of them alone.
-/
import WebOvpn.Netctl.HostProjection
import WebOvpn.Lib.Listing

namespace WebOvpn.HostProjection

open List

section chunks

variable {κ ι : Type} [LinearOrder κ] [LinearOrder ι]

theorem flatten_valueChunks (values : List κ) :
    (valueChunks values).flatten = values.dedup.insertionSort (· ≤ ·) :=
  Chunks.flatten_chunksOf (by decide) _

theorem nodup_valueChunks (values : List κ) : (valueChunks values).flatten.Nodup := by
  rw [flatten_valueChunks]
  exact (perm_insertionSort _ _).nodup_iff.2 (nodup_dedup values)

@[simp]
theorem mem_flatten_valueChunks {values : List κ} {value : κ} :
    value ∈ (valueChunks values).flatten ↔ value ∈ values := by
  rw [flatten_valueChunks, (perm_insertionSort _ _).mem_iff, mem_dedup]

theorem exists_valueChunk {values : List κ} {value : κ} (h : value ∈ values) :
    ∃ chunk ∈ valueChunks values, value ∈ chunk :=
  mem_flatten.1 (mem_flatten_valueChunks.2 h)

theorem exists_pairChunk {first : List κ} {second : List ι} (key : κ × ι) (hfs : key.1 ∈ first)
    (hsn : key.2 ∈ second) : ∃ asked ∈ pairChunks first second, asked key = true := by
  obtain ⟨values, hvas, hkey⟩ := exists_valueChunk hfs
  obtain ⟨others, hot, hkey'⟩ := exists_valueChunk hsn
  refine ⟨_, mem_flatMap.2 ⟨values, hvas, mem_map_of_mem hot⟩, ?_⟩
  simp [hkey, hkey']

end chunks

theorem find?_of_unique {ρ : Type} (same : ρ → ρ → Prop) {rows : List ρ}
    (hun : rows.Pairwise fun r s => ¬same r s) {asked : ρ → Bool} {row : ρ} (hrow : row ∈ rows)
    (hask : asked row = true) (hsm : ∀ other ∈ rows, asked other = true → same other row) :
    rows.find? asked = some row := by
  induction rows with
  | nil => cases hrow
  | cons head rows ih =>
    rw [pairwise_cons] at hun
    rw [find?_cons]
    by_cases hha : asked head = true
    · rcases mem_cons.1 hrow with rfl | hrow
      · rw [hha]
      · exact absurd (hsm head mem_cons_self hha) (hun.1 row hrow)
    · have hne : row ≠ head := fun h => hha (h ▸ hask)
      rw [Bool.eq_false_iff.2 hha]
      apply ih hun.2 ((mem_cons.1 hrow).resolve_left hne)
      intro other hot
      exact hsm other (mem_cons_of_mem head hot)

section lookups

variable (db : Database) {ips : List Text} {ip : Text}

theorem forceMonitorsOf_apply (hip : ip ∈ ips) :
    db.forceMonitorsOf ips ip = db.queries.forceMonitor ip := by
  unfold Database.forceMonitorsOf Database.queries
  apply Chunks.collect_apply
  · intro rows hrs row hrow hkey
    obtain ⟨values, -, rfl⟩ := mem_map.1 hrs
    have hmem := (mem_filter.1 hrow).1
    apply find?_of_unique (fun r s => r.ip = s.ip) db.forceMonitorsUnique hmem
    · simp [hkey]
    · intro other _ hot
      rw [decide_eq_true_eq] at hot
      rw [hot, hkey]
  · intro row hrow
    obtain ⟨values, hvas, hin⟩ := exists_valueChunk hip
    have hkey := find?_some hrow
    rw [decide_eq_true_eq] at hkey
    refine ⟨_, mem_map_of_mem hvas, row, mem_filter.2 ⟨mem_of_find?_eq_some hrow, ?_⟩, hkey⟩
    simp [hkey, hin]

theorem manualsOf_apply {segmentIds : List Text} {segmentId : Text} (hseg : segmentId ∈ segmentIds)
    (hip : ip ∈ ips) : db.manualsOf segmentIds ips (segmentId, ip) = db.queries.manual segmentId ip :=
  Chunks.collect_heads _ _ _ (exists_pairChunk (segmentId, ip) hseg hip)

theorem runsOf_apply {cidrs : List Text} {cidr : Text} (hcid : cidr ∈ cidrs) :
    db.runsOf cidrs cidr = db.queries.run cidr := by
  obtain ⟨values, hvas, hin⟩ := exists_valueChunk hcid
  have hpie : ∃ asked ∈ (valueChunks cidrs).map fun values (key : Text) => decide (key ∈ values),
      asked cidr = true :=
    ⟨_, mem_map_of_mem hvas, by simp [hin]⟩
  have hcl := Chunks.collect_heads Run.cidr Run.rank db.runs hpie
  rw [map_map] at hcl
  exact hcl

theorem resultsOf_apply {runIds : List Nat} {runId : Nat} (cidr : Text) (hrun : runId ∈ runIds)
    (hip : ip ∈ ips) :
    db.resultsOf runIds ips (cidr, ip, runId) = db.queries.result cidr ip runId := by
  unfold Database.resultsOf Database.queries
  apply Chunks.collect_apply
  · intro rows hrs row hrow hkey
    obtain ⟨asked, -, rfl⟩ := mem_map.1 hrs
    simp only [Prod.mk.injEq] at hkey
    apply find?_of_unique (fun r s => r.cidr = s.cidr ∧ r.ip = s.ip) db.resultsUnique
      (mem_filter.1 hrow).1
    · simp [hkey]
    · intro other _ hot
      rw [decide_eq_true_eq] at hot
      exact ⟨hot.1.trans hkey.1.symm, hot.2.1.trans hkey.2.1.symm⟩
  · intro row hrow
    obtain ⟨asked, hmem, hask⟩ := exists_pairChunk (runId, ip) hrun hip
    have hkey := find?_some hrow
    rw [decide_eq_true_eq] at hkey
    obtain ⟨hcid, hrowIp, hrunId⟩ := hkey
    refine ⟨_, mem_map_of_mem hmem, row, mem_filter.2 ⟨mem_of_find?_eq_some hrow, ?_⟩, ?_⟩
    · rw [hrunId, hrowIp]
      exact hask
    · rw [hcid, hrowIp, hrunId]

end lookups

theorem isRecent_of_ne {rowMac : Option Text} {mac : Text} (h : normalizeMac rowMac ≠ some mac)
    (source : Source)
    (lastSeenAt : Option Text) (now : Int) : isRecent rowMac mac source lastSeenAt now = .ok false := by
  unfold isRecent
  rw [if_neg h]
  rfl

theorem firstEvidence_filter {ρ : Type} {label : Evidence} {isEvidence : ρ → Except Raised Bool}
    {kept : ρ → Bool}
    (h : ∀ row, kept row = false → isEvidence row = .ok false) (rows : List ρ) :
    firstEvidence label isEvidence (rows.filter kept) = firstEvidence label isEvidence rows := by
  induction rows with
  | nil => rfl
  | cons row rows ih =>
    cases hkp : kept row with
    | true =>
      rw [filter_cons_of_pos hkp]
      unfold firstEvidence
      rw [ih]
    | false =>
      rw [filter_cons_of_neg (by simp [hkp]), ih]
      conv_rhs => unfold firstEvidence
      rw [h row hkp]
      rfl

section loaded

variable {α : Type} {db : Database} {hosts : List (Host α)} {context : ProjectionContext}

def chosenRules (rules : List SegmentRule) (hosts : List (Host α)) : List SegmentRule :=
  (hosts.map Host.ip).filterMap fun ip => monitoredRuleFromRules rules ip

structure Loaded (db : Database) (hosts : List (Host α)) (context : ProjectionContext) : Prop where
  rules : db.rules = some context.rules
  forceMonitors : context.forceMonitors = db.forceMonitorsOf (hosts.map Host.ip)
  arp : context.arpByIp = Chunks.gather (fun row => some row.1.ip) (valueChunks (hosts.map Host.ip)) db.arpRows
  dhcp : context.dhcpByIp =
    Chunks.gather (fun row => some row.1.ip) (valueChunks (hosts.map Host.ip)) db.dhcpRows
  bridge : context.bridgeByMac =
    Chunks.gather bridgeKey (valueChunks (hosts.filterMap fun host => normalizeMac host.mac)) db.bridgeRows
  fdb : context.fdbByMac =
    Chunks.gather fdbKey (valueChunks (hosts.filterMap fun host => normalizeMac host.mac)) db.fdbRows
  manuals : context.manualBySegmentIp =
    db.manualsOf ((chosenRules context.rules hosts).map (·.segmentId)) (hosts.map Host.ip)
  runs : context.runByCidr = db.runsOf ((chosenRules context.rules hosts).map (·.network.text))
  results : context.resultByCidrIpRun = db.resultsOf
      ((((chosenRules context.rules hosts).map (·.network.text)).filterMap context.runByCidr).map Run.id)
      (hosts.map Host.ip)

theorem loaded_of_load (h : load db hosts = .ok context) : Loaded db hosts context := by
  unfold load at h
  cases hrl : db.rules with
  | none =>
    rw [hrl] at h
    cases h
  | some rules =>
    rw [hrl] at h
    dsimp only at h
    split at h
    · cases h
    · cases h
      exact ⟨hrl, rfl, rfl, rfl, rfl, rfl, rfl, rfl, rfl⟩

namespace Loaded

variable {host : Host α}

section

variable (h : Loaded db hosts context)
include h

section

variable (hhost : host ∈ hosts)
include hhost

theorem arp_apply :
    context.dictionaries.arp host.ip = db.queries.arp host.ip := by
  change context.arpByIp host.ip = _
  rw [h.arp, Chunks.gather_apply _ (nodup_valueChunks _) (mem_flatten_valueChunks.2 (mem_map_of_mem hhost))]
  simp [Database.queries]

theorem dhcp_apply :
    context.dictionaries.dhcp host.ip = db.queries.dhcp host.ip := by
  change context.dhcpByIp host.ip = _
  rw [h.dhcp, Chunks.gather_apply _ (nodup_valueChunks _) (mem_flatten_valueChunks.2 (mem_map_of_mem hhost))]
  simp [Database.queries]

theorem bridge_apply {mac : Text}
    (hmac : normalizeMac host.mac = some mac) :
    context.dictionaries.bridge mac = (db.queries.bridge mac).filter fun row =>
      bridgeKey row = some mac := by
  change context.bridgeByMac mac = _
  rw [h.bridge, Chunks.gather_apply _ (nodup_valueChunks _)
    (mem_flatten_valueChunks.2 (mem_filterMap.2 ⟨host, hhost, hmac⟩))]
  rfl

theorem fdb_apply {mac : Text}
    (hmac : normalizeMac host.mac = some mac) :
    context.dictionaries.fdb mac = (db.queries.fdb mac).filter fun row => fdbKey row = some mac := by
  change context.fdbByMac mac = _
  rw [h.fdb, Chunks.gather_apply _ (nodup_valueChunks _)
    (mem_flatten_valueChunks.2 (mem_filterMap.2 ⟨host, hhost, hmac⟩))]
  rfl

theorem passiveEvidence_eq (now : Int) :
    context.dictionaries.passiveEvidence host.ip (normalizeMac host.mac) now =
      db.queries.passiveEvidence host.ip (normalizeMac host.mac) now := by
  unfold Reads.passiveEvidence
  cases hmac : normalizeMac host.mac with
  | none => rfl
  | some mac =>
    have hbri (row : BridgeHost × Source) (hkey : decide (bridgeKey row = some mac) = false) :
        bridgeIsEvidence mac now row = .ok false :=
      isRecent_of_ne (of_decide_eq_false hkey) _ _ _
    have hfdb (row : FdbEntry × Source) (hkey : decide (fdbKey row = some mac) = false) :
        fdbIsEvidence mac now row = .ok false :=
      isRecent_of_ne (of_decide_eq_false hkey) _ _ _
    dsimp only
    rw [h.arp_apply hhost, h.dhcp_apply hhost, h.bridge_apply hhost hmac, h.fdb_apply hhost hmac,
      firstEvidence_filter hbri, firstEvidence_filter hfdb]

theorem forceMonitorState_eq :
    context.dictionaries.forceMonitorState host.ip = db.queries.forceMonitorState host.ip := by
  unfold Reads.forceMonitorState
  cases hadd : Ipv4.ofText host.ip with
  | none => rfl
  | some address =>
    have hip : address.text ∈ hosts.map Host.ip := by
      rw [Ipv4.text_of_ofText hadd]
      exact mem_map_of_mem hhost
    dsimp only
    change Except.ok ((context.forceMonitors address.text).getD _) = _
    rw [h.forceMonitors, forceMonitorsOf_apply db hip]

end

theorem monitoredRule_eq (ip : Text) :
    context.dictionaries.monitoredRule ip = db.queries.monitoredRule ip := by
  simp [ProjectionContext.dictionaries, Database.queries, h.rules]

theorem check_eq (hhost : host ∈ hosts) {rule : SegmentRule}
    (hrl : monitoredRuleFromRules context.rules host.ip = some rule) (now : Int) :
    context.dictionaries.check rule host.ip now = db.queries.check rule host.ip now := by
  have hmem : _ ∈ chosenRules _ _ := mem_filterMap.2 ⟨_, mem_map_of_mem hhost, hrl⟩
  have hip : host.ip ∈ hosts.map Host.ip := mem_map_of_mem hhost
  have hmn : context.dictionaries.manual rule.segmentId host.ip = db.queries.manual rule.segmentId host.ip := by
    change context.manualBySegmentIp _ = _
    rw [h.manuals]
    exact manualsOf_apply db (mem_map_of_mem hmem) hip
  have hcid : rule.network.text ∈ (chosenRules context.rules hosts).map (·.network.text) :=
    mem_map_of_mem (f := fun r : SegmentRule => r.network.text) hmem
  have hrun : context.dictionaries.run rule.network.text = db.queries.run rule.network.text := by
    change context.runByCidr _ = _
    rw [h.runs]
    exact runsOf_apply db hcid
  have hsc (freshness : Int) :
      context.dictionaries.scheduledCheck rule.network.text host.ip now freshness =
        db.queries.scheduledCheck rule.network.text host.ip now freshness := by
    unfold Reads.scheduledCheck
    rw [hrun]
    cases hfn : db.queries.run rule.network.text with
    | none => rfl
    | some run =>
      -- the results of the run that was found are among those that are loaded
      have hla : context.runByCidr rule.network.text = some run := hrun.trans hfn
      have hrs : context.dictionaries.result rule.network.text host.ip run.id =
          db.queries.result rule.network.text host.ip run.id := by
        change context.resultByCidrIpRun _ = _
        rw [h.results]
        exact resultsOf_apply db _ (mem_map_of_mem (mem_filterMap.2 ⟨_, hcid, hla⟩)) hip
      dsimp only
      rw [hrs]
  unfold Reads.check
  rw [hmn]
  dsimp only
  rw [hsc]

theorem project_eq (hhost : host ∈ hosts) (now : Moment) :
    projectHostFromContext host context now = projectHostAvailability db host now := by
  unfold projectHostFromContext projectHostAvailability Reads.project
  rw [h.forceMonitorState_eq hhost, ← h.monitoredRule_eq]
  have hrl : context.dictionaries.monitoredRule host.ip =
    .ok (monitoredRuleFromRules context.rules host.ip) := rfl
  simp only [h.passiveEvidence_eq hhost, hrl]
  cases hch : monitoredRuleFromRules context.rules host.ip with
  | none => rfl
  | some rule =>
    have hck := h.check_eq hhost hch
    simp only [bind, Except.bind, hck]

end

end Loaded

theorem rules_of_project {host : Host α} {now : Moment} {projected : Projected α}
    (h : projectHostAvailability db host now = .ok projected) : db.rules ≠ none := by
  intro hrl
  unfold projectHostAvailability Reads.project at h
  have hrule : db.queries.monitoredRule host.ip = .error .segments := by
    unfold Database.queries
    rw [hrl]
  rw [hrule] at h
  cases hst : db.queries.forceMonitorState host.ip <;> rw [hst] at h <;> cases h

theorem address_of_project {host : Host α} {now : Moment} {projected : Projected α}
    (h : projectHostAvailability db host now = .ok projected) :
      ∃ address : Ipv4, address.text = host.ip := by
  cases hadd : Ipv4.ofText host.ip with
  | some address => exact ⟨address, Ipv4.text_of_ofText hadd⟩
  | none =>
    unfold projectHostAvailability Reads.project Reads.forceMonitorState at h
    rw [hadd] at h
    cases h

theorem address_isEncodable (address : Ipv4) : address.text.any CodePoint.isSurrogate = false := by
  rw [any_eq_false]
  intro c hc hsur
  unfold CodePoint.isSurrogate at hsur
  rw [Bool.and_eq_true, decide_eq_true_eq, decide_eq_true_eq] at hsur
  rcases Ipv4.text_chars address c hc with hdg | rfl
  · unfold CodePoint.isDigit at hdg
    rw [Bool.and_eq_true, decide_eq_true_eq, decide_eq_true_eq] at hdg
    omega
  · exact absurd hsur.1 (by decide)

theorem load_isOk (hrl : db.rules ≠ none)
    (hips : ∀ host ∈ hosts, host.ip.any CodePoint.isSurrogate = false) :
      ∃ context, load db hosts = .ok context := by
  obtain ⟨rules, hrl⟩ := Option.ne_none_iff_exists'.1 hrl
  have hnn : (hosts.map Host.ip).any (·.any CodePoint.isSurrogate) = false := by
    rw [any_map, any_eq_false]
    intro host hhost
    simp [hips host hhost]
  unfold load
  rw [hrl]
  dsimp only
  rw [hnn]
  exact ⟨_, rfl⟩

end loaded

/-- Whenever the batch is projected, each of its hosts is projected as alone; and
the batch is projected when each of its hosts is.  Only a batch without hosts
also asks for the rules where no host does. -/
theorem bulk_projection_matches {α : Type} (db : Database) (hosts : List (Host α)) (now : Moment) :
    (∀ projections, bulkProjectHostAvailability db hosts now = .ok projections →
      List.Forall₂ (fun host projected => projectHostAvailability db host now = .ok projected) hosts
        projections) ∧ ((hosts ≠ [] ∨ db.rules ≠ none) →
      (∀ host ∈ hosts, ∃ projected, projectHostAvailability db host now = .ok projected) →
        ∃ projections, bulkProjectHostAvailability db hosts now = .ok projections) := by
  constructor
  · intro projections h
    unfold bulkProjectHostAvailability at h
    cases hla : load db hosts with
    | error e =>
      rw [hla] at h
      cases h
    | ok context =>
      rw [hla] at h
      have hall := mapM_eq_ok_iff.1 h
      have hloaded := loaded_of_load hla
      apply (forall₂_iff_get.2 ⟨hall.length_eq, ?_⟩)
      intro i hi hi'
      rw [← hloaded.project_eq (get_mem hosts _)]
      exact (forall₂_iff_get.1 hall).2 i hi hi'
  · intro hsm hall
    have hrl : db.rules ≠ none := by
      rcases hsm with hne | hrl
      · obtain ⟨host, hhost⟩ := exists_mem_of_ne_nil hosts hne
        obtain ⟨projected, hpr⟩ := hall host hhost
        exact rules_of_project hpr
      · exact hrl
    have hips (host : Host α) (hhost : host ∈ hosts) : host.ip.any CodePoint.isSurrogate = false := by
      obtain ⟨projected, hpr⟩ := hall host hhost
      obtain ⟨address, hadd⟩ := address_of_project hpr
      rw [← hadd]
      exact address_isEncodable address
    obtain ⟨context, hla⟩ := load_isOk hrl hips
    unfold bulkProjectHostAvailability
    rw [hla]
    apply mapM_isOk
    intro host hhost
    rw [(loaded_of_load hla).project_eq hhost]
    exact hall host hhost

/-- Tables without rows. -/
def emptyDatabase : Database :=
  ⟨[], [], [], [], [], [], some [], [], [], [], [], List.Pairwise.nil, List.Pairwise.nil⟩

def connectedHost (ip : String) : Host Unit := ⟨text ip, none, true, ()⟩

/-- One address that cannot be read fails the batch, but not the projection of another host. -/
theorem invalid_address_fails_the_batch :
    ¬∀ (db : Database) (hosts : List (Host Unit)) (now : Moment) (place : Nat) (host : Host Unit),
      hosts[place]? = some host →
        (bulkProjectHostAvailability db hosts now).map (·[place]?) =
          (projectHostAvailability db host now).map some := by
  intro h
  have hpl := h emptyDatabase [connectedHost "10.0.0.5", connectedHost "10.0.0.300"] (.text []) 0
    (connectedHost "10.0.0.5") rfl
  have hbul : bulkProjectHostAvailability emptyDatabase
      [connectedHost "10.0.0.5", connectedHost "10.0.0.300"] (.text []) = .error .address := by
    rfl
  have halo : projectHostAvailability emptyDatabase (connectedHost "10.0.0.5") (.text []) =
      .ok ⟨connectedHost "10.0.0.5", .connected, none⟩ := by
    rfl
  rw [hbul, halo] at hpl
  cases hpl

end WebOvpn.HostProjection
