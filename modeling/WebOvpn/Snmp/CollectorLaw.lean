/-
What a collection reports: each capability once, and a forwarding database with the
outcome that it has.
-/
import WebOvpn.Snmp.FdbLaw
import WebOvpn.Snmp.PortLaw

namespace WebOvpn.Snmp

open Text List Option
open SwitchStore (validText)

theorem counterColumn_le {answer : Answer} {base : Oid} {type : NumberType} {maximum : Nat}
    {column : CounterColumn}
    (h : counterColumn answer base type maximum = some column) {index n : Nat}
    (hn : column.lookup index = some n) :
    n ≤ maximum := by
  obtain ⟨row, -, hrow⟩ := (Dict.lookup_collect h).1 hn
  unfold counterEntry at hrow
  split at hrow
  · split at hrow
    · obtain ⟨m, hm, heq⟩ := map_eq_some_iff.1 hrow
      cases heq
      exact (integer_range hm).2
    · cases hrow
  · cases hrow

structure OctetColumns.Bounded (columns : OctetColumns) : Prop where
  inOctets : ∀ index n, columns.inOctets.lookup index = some n → n ≤ max64
  outOctets : ∀ index n, columns.outOctets.lookup index = some n → n ≤ max64
  fallbackIn : ∀ index n, columns.fallbackIn.lookup index = some n → n ≤ max32
  fallbackOut : ∀ index n, columns.fallbackOut.lookup index = some n → n ≤ max32

variable {answers : CounterAnswers} {fallback : Option (Answer × Answer)}

theorem bounded_octetColumns {columns : OctetColumns}
    (h : octetColumns answers fallback = some columns) : columns.Bounded := by
  unfold octetColumns at h
  obtain ⟨inOctets, hin, h⟩ := bind_eq_some_iff.1 h
  obtain ⟨outOctets, hot, h⟩ := bind_eq_some_iff.1 h
  obtain ⟨⟨fallbackIn, fallbackOut⟩, hfl, h⟩ := bind_eq_some_iff.1 h
  cases h
  refine ⟨fun _ _ hn => counterColumn_le hin hn, fun _ _ hn => counterColumn_le hot hn, ?_, ?_⟩
  all_goals
    intro index n hn
    unfold fallbackColumns at hfl
    split at hfl
    · cases hfl
      cases hn
    · obtain ⟨a, ha, hfl⟩ := bind_eq_some_iff.1 hfl
      obtain ⟨b, hb, hfl⟩ := bind_eq_some_iff.1 hfl
      cases hfl
      first
        | exact counterColumn_le ha hn
        | exact counterColumn_le hb hn

structure DetailColumns.Bounded (columns : DetailColumns) : Prop where
  inErrors : ∀ index n, columns.inErrors.lookup index = some n → n ≤ max32
  outErrors : ∀ index n, columns.outErrors.lookup index = some n → n ≤ max32
  inDiscards : ∀ index n, columns.inDiscards.lookup index = some n → n ≤ max32
  outDiscards : ∀ index n, columns.outDiscards.lookup index = some n → n ≤ max32

theorem bounded_detailColumns {columns : DetailColumns}
    (h : detailColumns answers = some columns) : columns.Bounded := by
  unfold detailColumns at h
  obtain ⟨inErrors, hinE, h⟩ := bind_eq_some_iff.1 h
  obtain ⟨outErrors, hot, h⟩ := bind_eq_some_iff.1 h
  obtain ⟨inDiscards, hinD, h⟩ := bind_eq_some_iff.1 h
  obtain ⟨outDiscards, houtD, h⟩ := bind_eq_some_iff.1 h
  cases h
  exact ⟨fun _ _ hn => counterColumn_le hinE hn, fun _ _ hn => counterColumn_le hot hn,
    fun _ _ hn => counterColumn_le hinD hn, fun _ _ hn => counterColumn_le houtD hn⟩

theorem validOptional_of_le {maximum : Nat} {value : Option Nat}
    (h : ∀ n, value = some n → n ≤ maximum) :
    validOptional 0 maximum value = true :=
  validOptional_of_forall fun n hn => ⟨Nat.zero_le n, h n hn⟩

section

variable {octets : OctetColumns} {details : DetailColumns} {ticks : Option Nat}
    {entry : Nat × SwitchPort}

theorem octets_le (hoct : octets.Bounded) {value : Option Nat}
    (hv : value ∈
      [(counterSample octets details ticks entry).inOctets,
      (counterSample octets details ticks entry).outOctets]) :
    validOptional 0 (2 ^ (counterSample octets details ticks entry).octetCounterBits - 1) value =
      true := by
  apply validOptional_of_le
  intro n hn
  unfold counterSample at hv ⊢
  dsimp only at hv ⊢
  cases htk : octets.takesFallback entry.1 with
  | true =>
    rw [htk] at hv
    have hle : n ≤ max32 := by
      rcases mem_cons.1 hv with rfl | hv
      · exact hoct.fallbackIn _ n hn
      · rw [mem_singleton] at hv
        subst hv
        exact hoct.fallbackOut _ n hn
    exact hle
  | false =>
    rw [htk] at hv
    have hle : n ≤ max64 := by
      rcases mem_cons.1 hv with rfl | hv
      · exact hoct.inOctets _ n hn
      · rw [mem_singleton] at hv
        subst hv
        exact hoct.outOctets _ n hn
    exact hle

theorem octetCounterBits_eq : (counterSample octets details ticks entry).octetCounterBits = 32 ∨
      (counterSample octets details ticks entry).octetCounterBits = 64 := by
  unfold counterSample
  dsimp only
  split
  · exact .inl rfl
  · exact .inr rfl

theorem validCounterSample_of_port (hoct : octets.Bounded) (hdt : details.Bounded)
    (hpr : validPort entry.2 = true) (hidx : entry.2.ifIndex = some entry.1)
    (htc : validOptional 0 sqliteIntegerMax ticks = true) :
    validCounterSample (counterSample octets details ticks entry) = true := by
  obtain ⟨hkey, hvl, -, -⟩ := portOptionals hpr
  rw [hidx] at hvl
  unfold validCounterSample
  simp only [Bool.and_eq_true]
  refine ⟨⟨⟨⟨⟨hkey, hvl⟩, htc⟩, ?_⟩, ?_⟩, ?_⟩
  · rw [List.all_eq_true]
    intro value hv
    apply validOptional_of_le
    intro n hn
    simp only [counterSample, mem_cons, not_mem_nil, or_false] at hv
    rcases hv with rfl | rfl | rfl | rfl
    · exact hdt.inErrors _ n hn
    · exact hdt.inDiscards _ n hn
    · exact hdt.outErrors _ n hn
    · exact hdt.outDiscards _ n hn
  · rw [Bool.or_eq_true, decide_eq_true_eq, decide_eq_true_eq]
    exact octetCounterBits_eq
  · rw [List.all_eq_true]
    intro value hv
    exact octets_le hoct hv

end

structure GoodSamples (ports : List SwitchPort) (samples : List CounterSample) : Prop where
  valid : ∀ sample ∈ samples, validCounterSample sample = true
  keys : (samples.map CounterSample.portKey).Nodup
  known : ∀ sample ∈ samples, sample.portKey ∈ ports.map SwitchPort.portKey

theorem goodSamples_nil (ports : List SwitchPort) : GoodSamples ports [] :=
  ⟨fun _ h => absurd h not_mem_nil, nodup_nil, fun _ h => absurd h not_mem_nil⟩

theorem goodSamples_of_parse {bridge : List (Nat × Nat)} {ports : List SwitchPort}
    (normal : NormalPorts bridge ports)
    {ticks : Option Nat} {samples : List CounterSample}
    (htc : validOptional 0 sqliteIntegerMax ticks = true)
    (h : parseCounterSamples answers fallback ports ticks = some samples) :
      GoodSamples ports samples := by
  unfold parseCounterSamples at h
  obtain ⟨octets, hoct, h⟩ := bind_eq_some_iff.1 h
  obtain ⟨details, hdt, h⟩ := bind_eq_some_iff.1 h
  cases h
  have hen : ∀ entry ∈ portsByIfIndex ports, entry.2 ∈ ports ∧ entry.2.ifIndex = some entry.1 := by
    rintro ⟨index, port⟩ hmem
    apply normal.lookup_iff.1
    apply lookup_of_mem _ hmem
    rw [normal.portsByIfIndex_eq]
    exact normal.nodup_indexed
  have hsm : ∀ sample ∈ (Dict.sortBy (fun i j => i ≤ j) ((portsByIfIndex ports).filter
      fun entry => octets.isObserved entry.1)).map (counterSample octets details ticks),
      ∃ entry ∈ portsByIfIndex ports, sample = counterSample octets details ticks entry := by
    intro sample hmem
    obtain ⟨entry, hin, rfl⟩ := List.mem_map.1 hmem
    exact ⟨entry, (mem_filter.1 (Dict.mem_sortBy.1 hin)).1, rfl⟩
  refine ⟨?_, ?_, ?_⟩
  · intro sample hmem
    obtain ⟨entry, hin, rfl⟩ := hsm sample hmem
    obtain ⟨hpr, hidx⟩ := hen entry hin
    exact validCounterSample_of_port (bounded_octetColumns hoct) (bounded_detailColumns hdt)
      (normal.valid _ hpr) hidx htc
  · -- the entries are ports in another order, some of them left out
    have hks : ((portsByIfIndex ports).map fun entry => entry.2.portKey).Nodup := by
      rw [normal.portsByIfIndex_eq, Nodup, pairwise_map, pairwise_filterMap]
      apply (pairwise_map.1 normal.keys).imp
      intro a b hne x hx y hy
      obtain ⟨i, -, rfl⟩ := map_eq_some_iff.1 hx
      obtain ⟨j, -, rfl⟩ := map_eq_some_iff.1 hy
      exact hne
    have hpe := (Dict.sortBy_perm (fun i j => i ≤ j) ((portsByIfIndex ports).filter
      fun entry => octets.isObserved entry.1)).map fun entry => entry.2.portKey
    rw [List.map_map]
    apply hpe.nodup_iff.2
    exact (List.filter_sublist.map _).nodup hks
  · intro sample hmem
    obtain ⟨entry, hin, rfl⟩ := hsm sample hmem
    exact List.mem_map_of_mem (hen entry hin).1

end WebOvpn.Snmp

namespace WebOvpn.Snmp

open Text List
open SwitchStore (SnmpOutcome SwitchFdbEntry validFdbEntry validText)

/-- The capabilities that come before the forwarding database. -/
def firstNames : List String :=
  ["sys_descr", "sys_object_id", "sys_uptime", "sys_name", "sys_location", "if_index", "if_descr", "if_speed",
    "if_phys_address", "if_admin_status", "if_oper_status", "if_name", "if_high_speed", "if_alias",
    "bridge_port_ifindex"]

/-- The walks of the forwarding database. -/
def fdbNames : List String :=
  ["qbridge_port", "qbridge_status", "vlan_fdb_id", "legacy_address", "legacy_port",
    "legacy_status", "legacy_fdb"]

def vlanNames : List String := ["vlan_current_egress", "vlan_current_untagged", "pvid"]

def stpNames : List String :=
  ["stp_protocol", "stp_topology_changes", "stp_designated_root", "stp_root_cost", "stp_root_port"]

def lldpNames : List String :=
  ["lldp_remote_chassis_id", "lldp_remote_port_id", "lldp_remote_system_name", "lldp_remote_chassis_id_subtype",
    "lldp_remote_port_id_subtype", "lldp_remote_port_description", "lldp_remote_system_description",
    "lldp_remote_system_capabilities", "lldp_remote_enabled_capabilities", "lldp_remote_management_address",
    "lldp_remote"]

def counterNames : List String :=
  ["if_hc_in_octets", "if_hc_out_octets", "if_in_octets", "if_out_octets", "if_in_errors", "if_out_errors",
    "if_in_discards", "if_out_discards"]

/-- The capabilities that come after the forwarding database. -/
def lastNames : List String := vlanNames ++ stpNames ++ lldpNames ++ counterNames

/-- The capabilities of every collection, in their order. -/
def allNames : List String :=
  firstNames ++ fdbNames ++ ["qbridge_fdb_rejected_rows"] ++ ["fdb"] ++ lastNames ++ ["counter_samples"]

theorem nodup_allNames : allNames.Nodup := by decide +kernel

theorem text_injective : Function.Injective text := by
  intro s s' h
  have hch : Function.Injective CodePoint.ofChar := by
    intro c d hcd
    have hvl : (CodePoint.ofChar c).val = (CodePoint.ofChar d).val := congrArg (fun x : CodePoint => x.val) hcd
    exact Char.ext (UInt32.toNat_inj.1 hvl)
  exact String.toList_inj.1 (map_injective_iff.2 hch h)

def Named (names : List String) (results : List CapabilityResult) : Prop :=
  (results.map CapabilityResult.capability).Sublist (names.map text)

variable {names names' : List String} {results : List CapabilityResult} {result : CapabilityResult}

theorem Named.append {results' : List CapabilityResult}
    (h : Named names results) (h' : Named names' results') :
      Named (names ++ names') (results ++ results') := by
  unfold Named
  rw [map_append, map_append]
  exact Sublist.append h h'

theorem named_of_sublist (hsub : names'.Sublist names)
    (h : results.map CapabilityResult.capability = names'.map text) : Named names results := by
  unfold Named
  rw [h]
  exact hsub.map text

theorem named_nil (names : List String) : Named names [] := nil_sublist _

theorem named_singleton {name : String} (h : result.capability = text name) : Named [name] [result] := by
  unfold Named
  rw [map_singleton, h]
  exact Sublist.refl _

theorem Named.mem (h : Named names results) (hrs : result ∈ results) :
    ∃ name ∈ names, result.capability = text name := by
  obtain ⟨name, hnm, heq⟩ := mem_map.1 (Sublist.subset h (mem_map_of_mem hrs))
  exact ⟨name, hnm, heq.symm⟩

@[simp]
theorem Answer.result_capability (answer : Answer) (capability : Text) :
    (answer.result capability).capability = capability := by
  cases answer <;> rfl

@[simp]
theorem walkAs_capability (t : Transport) (oid : Oid) (capability : Text) :
    (t.walkAs oid capability).capability = capability :=
  Answer.result_capability _ _

@[simp]
theorem getAs_capability (t : Transport) (oid : Oid) (capability : Text) :
    (t.getAs oid capability).capability = capability :=
  Answer.result_capability _ _

@[simp]
theorem map_capability_parseErrors (results : List CapabilityResult) (errorCode errorMessage : Text) :
    (parseErrors results errorCode errorMessage).map CapabilityResult.capability =
      results.map CapabilityResult.capability := by
  unfold parseErrors
  rw [map_map]
  rfl

theorem not_isUsable_of_failureOf {failure : CapabilityResult}
    (h : failureOf results = some failure) : failure.isUsable = false := by
  have hnot := find?_some h
  rwa [Bool.not_eq_true'] at hnot

theorem outcome_ne_of_not_isUsable (h : result.isUsable = false) :
    result.outcome ≠ .successWithRows ∧ result.outcome ≠ .successEmpty := by
  unfold CapabilityResult.isUsable at h
  rw [Bool.or_eq_false_iff, decide_eq_false_iff_not, decide_eq_false_iff_not] at h
  exact h

theorem parsedGroup_outcome {β : Type} (capability : Text) (rows : List β) :
    (parsedGroup capability rows).outcome = .successWithRows ↔ rows ≠ [] := by
  cases rows with
  | _ => simp [parsedGroup, groupResult]

/-- What holds of the forwarding database, from whichever table it is. -/
structure FdbPart.Settled (names : List String) (part : FdbPart) : Prop where
  named : Named names part.reported
  capability : part.final.capability = "fdb"
  outcome : part.final.outcome = .successWithRows ↔ part.fdb ≠ []
  rejected : part.rejected ≤ maxWalkRows

def IsEmptyFallback (emptyFallback : Option CapabilityResult) : Prop :=
  ∀ result, emptyFallback = some result → result.capability = "fdb" ∧ result.outcome = .successEmpty

theorem getD_emptyFallback {emptyFallback : Option CapabilityResult}
    (h : IsEmptyFallback emptyFallback) (hnm : result.capability = "fdb")
    (hot : result.outcome ≠ .successWithRows) :
    (emptyFallback.getD result).capability = "fdb" ∧
      (emptyFallback.getD result).outcome ≠ .successWithRows := by
  cases emptyFallback with
  | none => exact ⟨hnm, hot⟩
  | some fallback =>
    obtain ⟨hcap, hem⟩ := h fallback rfl
    refine ⟨hcap, ?_⟩
    change fallback.outcome ≠ _
    rw [hem]
    exact nofun

theorem FdbPart.settled_nil {final : CapabilityResult} {reported : List CapabilityResult}
    (hnm : Named names reported) (hfn : final.capability = "fdb" ∧ final.outcome ≠ .successWithRows) :
    FdbPart.Settled names ⟨[], final, reported, 0⟩ :=
  ⟨hnm, hfn.1, ⟨fun h => absurd h hfn.2, fun h => absurd rfl h⟩, Nat.zero_le _⟩

def legacyNames : List String := ["legacy_address", "legacy_port", "legacy_status", "legacy_fdb"]

theorem settled_legacy (t : Transport) (profile : PortProfile) (tables : PortTables)
    {emptyFallback : Option CapabilityResult} (hfl : IsEmptyFallback emptyFallback) :
    (collectLegacyFdb t profile tables emptyFallback).Settled legacyNames := by
  have hnm : Named legacyNames (legacyResults t) :=
    @named_of_sublist _ ["legacy_address", "legacy_port", "legacy_status"] _ (by decide)
      (by simp [legacyResults])
  unfold collectLegacyFdb
  split
  · rename_i failure hfi
    apply FdbPart.settled_nil hnm
    exact getD_emptyFallback hfl rfl (outcome_ne_of_not_isUsable (not_isUsable_of_failureOf hfi)).1
  · split
    · apply FdbPart.settled_nil hnm
      exact getD_emptyFallback hfl rfl nofun
    · split
      · apply FdbPart.settled_nil
        · exact named_of_sublist (Sublist.refl _)
            (by simp [legacyResults, legacyNames, parseErrorOf, groupResult])
        · exact getD_emptyFallback hfl rfl nofun
      · apply FdbPart.settled_nil hnm
        exact getD_emptyFallback hfl rfl nofun
      · exact ⟨hnm, rfl, parsedGroup_outcome _ _, Nat.zero_le _⟩

theorem rejected_le {t : Transport} {rows : QbridgeRows} (h : t.qbridgeRows = some rows)
    (profile : PortProfile)
    (tables : PortTables) : rows.rejected profile tables ≤ maxWalkRows :=
  calc rows.rejected profile tables ≤ rows.portRows.length := countP_le_length
    _ ≤ (t.walk dot1qFdbPort).rows.length := (qbridgeRows_sound h).2
    _ ≤ maxWalkRows := t.walk_bounded dot1qFdbPort

def qbridgeNames : List String := ["qbridge_port", "qbridge_status", "vlan_fdb_id"]

theorem settled_qbridge (t : Transport) (profile : PortProfile) (tables : PortTables) :
    (collectQbridgeFdb t profile tables).Settled qbridgeNames := by
  have hnm : Named qbridgeNames [qbridgePort t, qbridgeStatus t, vlanFdbId t] :=
    named_of_sublist (Sublist.refl _) (by simp [qbridgePort, qbridgeStatus, vlanFdbId, qbridgeNames])
  unfold collectQbridgeFdb
  split
  · split
    · split
      · exact FdbPart.settled_nil hnm ⟨rfl, nofun⟩
      · rename_i rows hrs
        refine ⟨hnm, ?_, ?_, rejected_le hrs profile tables⟩
        · dsimp only
          split <;> rfl
        · dsimp only
          cases hen : rows.entries profile tables with
          | nil => simp [malformedFdb, parseErrorOf, groupResult]
          | cons entry entries => exact parsedGroup_outcome _ _
    · rename_i hvl
      apply FdbPart.settled_nil hnm
      refine ⟨rfl, ?_⟩
      rw [Bool.or_eq_true, not_or] at hvl
      exact (outcome_ne_of_not_isUsable (Bool.eq_false_iff.2 hvl.1)).1
  · rename_i hst
    apply FdbPart.settled_nil
    · exact @named_of_sublist _ ["qbridge_port", "qbridge_status"] _ (by decide)
        (by simp [qbridgePort, qbridgeStatus])
    · exact ⟨rfl, (outcome_ne_of_not_isUsable (Bool.eq_false_iff.2 hst)).1⟩

theorem FdbPart.Settled.after {part : FdbPart} (h : part.Settled names) {name : String}
    (hnm : result.capability = text name) : (part.after result).Settled (name :: names) :=
  ⟨(named_singleton hnm).append h.named, h.capability, h.outcome, h.rejected⟩

theorem FdbPart.Settled.mono {part : FdbPart} (h : part.Settled names)
    (hsub : names.Sublist names') : part.Settled names' :=
  ⟨Sublist.trans h.named (hsub.map text), h.capability, h.outcome, h.rejected⟩

theorem isEmptyFallback_some : IsEmptyFallback (some (groupResult "fdb" .successEmpty 0 [] [])) := by
  intro result h
  cases h
  exact ⟨rfl, rfl⟩

theorem isEmptyFallback_none : IsEmptyFallback none := by
  intro result h
  cases h

theorem settled_fdb (t : Transport) (profile : PortProfile) (tables : PortTables) :
    (collectFdb t profile tables).Settled fdbNames := by
  have hpr : (qbridgePort t).capability = "qbridge_port" := walkAs_capability t _ _
  unfold collectFdb
  split
  · exact ((settled_legacy t profile tables isEmptyFallback_some).after hpr).mono (by decide)
  · exact (settled_qbridge t profile tables).mono (by decide)
  · exact ((settled_legacy t profile tables isEmptyFallback_none).after hpr).mono (by decide)
  · rename_i hem hrs _
    apply FdbPart.settled_nil
    · exact @named_of_sublist _ ["qbridge_port"] _ (by decide) (by simp [hpr])
    · exact ⟨rfl, hrs⟩

/-- The answers of Q-BRIDGE are those that the collector reads rows from. -/
theorem outcomes_of_qbridgeRows {t : Transport} {rows : QbridgeRows} (h : t.qbridgeRows = some rows) :
    (rows.portRows ≠ [] → (qbridgePort t).outcome = .successWithRows) ∧
      (qbridgeStatus t).isUsable = true ∧
      ((vlanFdbId t).isUsable || (vlanFdbId t).outcome = .unsupportedNoSuchObject) = true := by
  have hrs : ∀ (rows : List VarBind) (name : Text), ((Answer.success rows).result name).isUsable = true := by
    intro rows name
    cases rows <;> rfl
  unfold Transport.qbridgeRows qbridgeRows at h
  obtain ⟨portRows, hpr, h⟩ := Option.bind_eq_some_iff.1 h
  obtain ⟨statusRows, hst, h⟩ := Option.bind_eq_some_iff.1 h
  obtain ⟨fids, hfs, h⟩ := Option.bind_eq_some_iff.1 h
  split at h
  · cases h
    refine ⟨?_, ?_, ?_⟩
    · intro hne
      have hlen := (indexedRows_eq_some hpr).2.1
      obtain ⟨answered, han, -⟩ := Option.bind_eq_some_iff.1 hpr
      unfold qbridgePort Transport.walkAs
      cases hwl : t.walk dot1qFdbPort with
      | failed => rw [hwl] at han; cases han
      | success given =>
        cases given with
        | nil =>
          rw [hwl] at hlen
          exact absurd (eq_nil_of_length_eq_zero (Nat.le_zero.1 hlen)) hne
        | cons row given => rfl
    · obtain ⟨answered, han, -⟩ := Option.bind_eq_some_iff.1 hst
      unfold qbridgeStatus Transport.walkAs
      cases hwl : t.walk dot1qFdbStatus with
      | failed => rw [hwl] at han; cases han
      | success given => exact hrs given _
    · unfold vlanFdbId Transport.walkAs
      cases hwl : t.walk dot1qVlanFdbId with
      | success given => rw [hrs given _]; rfl
      | failed failure =>
        rw [hwl] at hfs
        cases failure with
        | noSuchObject => rfl
        | _ => cases hfs
  · cases h

def QbridgeCollides (t : Transport) (profile : PortProfile) (tables : PortTables) : Prop :=
  ∃ rows, t.qbridgeRows = some rows ∧ rows.Collides profile tables

section

variable {t : Transport} {profile : PortProfile} {bridge : List (Nat × Nat)} {ports : List SwitchPort}

theorem not_collides_of_outcome {tables : PortTables} (h : (qbridgePort t).outcome ≠ .successWithRows) :
    ¬QbridgeCollides t profile tables := by
  rintro ⟨rows, hrs, -, fid, vid, octets, portRow, portRow', hrow, -⟩
  exact h ((outcomes_of_qbridgeRows hrs).1 (ne_nil_of_mem hrow))

theorem GoodFdb.nodup_iff {entries : List SwitchFdbEntry} (h : GoodFdb entries) {p : Prop} (hp : ¬p) :
    (entries.map SwitchFdbEntry.key).Nodup ↔ ¬p :=
  iff_of_true h.keys hp

theorem goodFdb_collectLegacy (normal : NormalPorts bridge ports)
    (emptyFallback : Option CapabilityResult) :
    GoodFdb (collectLegacyFdb t profile (tablesOf bridge ports) emptyFallback).fdb := by
  unfold collectLegacyFdb
  split
  · exact goodFdb_nil
  · split
    · exact goodFdb_nil
    · split
      · exact goodFdb_nil
      · exact goodFdb_nil
      · rename_i hpr
        exact goodFdb_legacy normal hpr

theorem valid_collectFdb (normal : NormalPorts bridge ports) :
    ∀ entry ∈ (collectFdb t profile (tablesOf bridge ports)).fdb, validFdbEntry entry = true := by
  unfold collectFdb
  split
  · exact (goodFdb_collectLegacy normal _).valid
  · unfold collectQbridgeFdb
    split
    · split
      · split
        · exact goodFdb_nil.valid
        · rename_i rows hrs
          exact fun entry hen => QbridgeRows.valid_entries normal (qbridgeRows_sound hrs).1 hen
      · exact goodFdb_nil.valid
    · exact goodFdb_nil.valid
  · exact (goodFdb_collectLegacy normal _).valid
  · exact goodFdb_nil.valid

theorem nodup_collectFdb_iff (normal : NormalPorts bridge ports) :
    ((collectFdb t profile (tablesOf bridge ports)).fdb.map SwitchFdbEntry.key).Nodup ↔
      ¬QbridgeCollides t profile (tablesOf bridge ports) := by
  by_cases hot : (qbridgePort t).outcome = .successWithRows
  · unfold collectFdb
    rw [hot]
    dsimp only
    unfold collectQbridgeFdb
    cases hrs : t.qbridgeRows with
    | none =>
      have hno : ¬QbridgeCollides t profile (tablesOf bridge ports) := by
        rintro ⟨rows, hsm, -⟩
        rw [hrs] at hsm
        cases hsm
      refine GoodFdb.nodup_iff ?_ hno
      split
      · split
        · exact goodFdb_nil
        · exact goodFdb_nil
      · exact goodFdb_nil
    | some rows =>
      obtain ⟨-, hst, hvl⟩ := outcomes_of_qbridgeRows hrs
      rw [if_pos hst, if_pos hvl]
      dsimp only
      rw [QbridgeRows.nodup_entries_iff (qbridgeRows_sound hrs).1]
      apply not_congr
      constructor
      · intro hcl
        exact ⟨rows, hrs, hcl⟩
      · rintro ⟨rows', hrs', hcl⟩
        rw [hrs] at hrs'
        cases hrs'
        exact hcl
  · refine GoodFdb.nodup_iff ?_ (not_collides_of_outcome hot)
    unfold collectFdb
    split
    · exact goodFdb_collectLegacy normal _
    · rename_i hrs
      exact absurd hrs hot
    · exact goodFdb_collectLegacy normal _
    · exact goodFdb_nil

end

end WebOvpn.Snmp
