/-
Which snapshots of a collection the store takes: all but those in whose forwarding
database two rows of a switch have become one key.
-/
import WebOvpn.Snmp.CollectorLaw

namespace WebOvpn.Snmp

open Text List Option
open SwitchStore (SnmpOutcome SwitchFdbEntry validText validFdbEntry)

structure GoodMemberships (values : List (MembershipKey × VlanMembership)) : Prop where
  keys : (values.map Prod.fst).Nodup
  own : ∀ entry ∈ values, entry.2.key = entry.1

theorem VlanMembership.mark_key (row : VlanMembership) (flag : VlanFlag) :
    (row.mark flag).key = row.key := by
  cases flag <;> rfl

section

variable {profile : PortProfile} {tables : PortTables}

theorem goodMemberships_addMark {values values' : List (MembershipKey × VlanMembership)}
    {mark : VlanMark} (good : GoodMemberships values)
    (h : addMark profile tables values mark = some values') : GoodMemberships values' := by
  unfold addMark at h
  obtain ⟨resolution, -, h⟩ := bind_eq_some_iff.1 h
  cases h
  refine ⟨Dict.nodup_set good.keys, ?_⟩
  intro entry hen
  rcases Dict.mem_set hen with rfl | hold
  · rw [VlanMembership.mark_key]
    cases hlo : values.lookup (mark.vlanId, resolution.portKey) with
    | none => rfl
    | some row => exact good.own _ (mem_of_lookup hlo)
  · exact good.own entry hold

theorem goodMemberships_foldlM {marks : List VlanMark}
    {values values' : List (MembershipKey × VlanMembership)} (good : GoodMemberships values)
    (h : marks.foldlM (addMark profile tables) values = some values') : GoodMemberships values' := by
  induction marks generalizing values with
  | nil =>
    cases h
    exact good
  | cons mark marks ih =>
    rw [foldlM_cons] at h
    obtain ⟨middle, hmid, hrs⟩ := bind_eq_some_iff.1 h
    exact ih (goodMemberships_addMark good hmid) hrs

theorem nodup_memberships {egress untagged pvid : Answer}
    {memberships : List VlanMembership}
    (h : parseVlanMemberships profile tables egress untagged pvid = some memberships) :
    (memberships.map VlanMembership.key).Nodup := by
  unfold parseVlanMemberships at h
  obtain ⟨marks, -, h⟩ := bind_eq_some_iff.1 h
  obtain ⟨values, hvas, h⟩ := bind_eq_some_iff.1 h
  cases h
  have good : GoodMemberships values :=
    goodMemberships_foldlM (show GoodMemberships [] from ⟨nodup_nil, nofun⟩) hvas
  rw [List.map_map]
  have hks : (values.map (VlanMembership.key ∘ Prod.snd)) = values.map Prod.fst :=
    map_congr_left fun entry hen => good.own entry hen
  apply ((Dict.sortBy_perm membershipLe values).map _).nodup_iff.2
  rw [hks]
  exact good.keys

end

/-- What is known of the interfaces, whatever the switch has answered. -/
structure InterfacePart.Sound (part : InterfacePart) : Prop where
  plain : PlainPorts part.bridgeToIfIndex part.ports
  named : part.reported.map CapabilityResult.capability = ["if_name", "if_high_speed", "if_alias"].map text

theorem ifxStep_sound {ifResults : List CapabilityResult} {bridge : List (Nat × Nat)} {state : IfxState}
    (result : CapabilityResult) (plain : PlainPorts bridge state.ports) :
    PlainPorts bridge (ifxStep ifResults bridge state result).ports ∧
      (ifxStep ifResults bridge state result).reported.map CapabilityResult.capability =
        state.reported.map CapabilityResult.capability ++ [result.capability] := by
  unfold ifxStep
  split
  · split
    · refine ⟨plain, ?_⟩
      dsimp only
      rw [map_append, map_capability_parseErrors]
      rfl
    · rename_i enriched henr
      exact ⟨plainPorts_of_parse plain.bridgeMap henr, map_append⟩
  · exact ⟨plain, map_append⟩

theorem foldl_ifxStep_sound {ifResults ifxResults : List CapabilityResult}
    {bridge : List (Nat × Nat)} {state : IfxState}
    (plain : PlainPorts bridge state.ports) :
    PlainPorts bridge (ifxResults.foldl (ifxStep ifResults bridge) state).ports ∧
      (ifxResults.foldl (ifxStep ifResults bridge) state).reported.map CapabilityResult.capability =
        state.reported.map CapabilityResult.capability ++
          ifxResults.map CapabilityResult.capability := by
  induction ifxResults generalizing state with
  | nil => exact ⟨plain, (append_nil _).symm⟩
  | cons result results ih =>
    obtain ⟨hpl, hnm⟩ := @ifxStep_sound ifResults _ _ result plain
    obtain ⟨hpl', hnm'⟩ := ih hpl
    refine ⟨hpl', ?_⟩
    rw [foldl_cons, hnm', hnm, append_assoc]
    rfl

theorem map_capability_ifxResults (t : Transport) :
    t.ifxResults.map CapabilityResult.capability =
      ["if_name", "if_high_speed", "if_alias"].map text := by
  simp [Transport.ifxResults]

theorem interfacePart_sound {t : Transport} {part : InterfacePart}
    (h : interfacePart t = some part) : part.Sound := by
  unfold interfacePart at h
  split at h
  · split at h
    · cases h
    · cases h
      exact ⟨plainPorts_nil, map_capability_ifxResults t⟩
  · rename_i bridge ports hcor
    cases h
    unfold corePorts at hcor
    obtain ⟨bridge', hbri, hcor⟩ := bind_eq_some_iff.1 hcor
    obtain ⟨ports', hpr, hcor⟩ := bind_eq_some_iff.1 hcor
    cases hcor
    have hpl := plainPorts_of_parse (bridgeMap_of_parse hbri) hpr
    obtain ⟨hpl', hnm⟩ := @foldl_ifxStep_sound t.ifResults t.ifxResults _ ⟨[], [], ports⟩ hpl
    exact ⟨hpl', hnm.trans (map_capability_ifxResults t)⟩

theorem systemEntry_ticks {row : VarBind} {oid : Oid} {n : Nat}
    (h : systemEntry row = some (some (oid, .ticks n))) :
    n ≤ max32 := by
  unfold systemEntry at h
  split at h
  · obtain ⟨value, -, heq⟩ := map_eq_some_iff.1 h
    cases heq
  · split at h
    · obtain ⟨value, -, heq⟩ := map_eq_some_iff.1 h
      cases heq
    · split at h
      · obtain ⟨m, hm, heq⟩ := map_eq_some_iff.1 h
        cases heq
        exact (integer_range hm).2
      · cases h

theorem validSystem_of_parse {rows : List VarBind} {system : SwitchSystem}
    (h : parseSystem rows = some system) :
    validSystem system = true := by
  unfold parseSystem at h
  obtain ⟨parsed, hps, h⟩ := bind_eq_some_iff.1 h
  cases h
  apply validOptional_of_le
  intro n hn
  dsimp only at hn
  split at hn
  · rename_i ticks htc
    cases hn
    obtain ⟨row, -, hrow⟩ := (Dict.mem_collect hps _).1 (mem_of_lookup htc)
    exact (systemEntry_ticks hrow).trans (by decide)
  · cases hn

/-- What a collection has before the forwarding database. -/
structure Groundwork.Sound (ground : Groundwork) : Prop where
  normal : NormalPorts ground.interfaces.bridgeToIfIndex ground.ports
  system : validSystem ground.system = true
  named : ground.interfaces.reported.map CapabilityResult.capability =
    ["if_name", "if_high_speed", "if_alias"].map text

theorem groundwork_sound {rt : Runtime} {t : Transport} {hint : ProfileHint} {ground : Groundwork}
    (h : groundwork rt t hint = some ground) : ground.Sound := by
  unfold groundwork at h
  obtain ⟨system, hsys, h⟩ := bind_eq_some_iff.1 h
  obtain ⟨interfaces, hinte, h⟩ := bind_eq_some_iff.1 h
  obtain ⟨profile, -, h⟩ := bind_eq_some_iff.1 h
  cases h
  have hsn := interfacePart_sound hinte
  exact ⟨normalPorts_of_plain hsn.plain profile, validSystem_of_parse hsys, hsn.named⟩

structure FdbSettled (fdb : List SwitchFdbEntry) (reported : List CapabilityResult) : Prop where
  parts : ∃ walks warning final, reported = walks ++ warning ++ [final] ∧ Named fdbNames walks ∧
    final.capability = text "fdb" ∧ (final.outcome = .successWithRows ↔ fdb ≠ []) ∧
    (warning = [] ∨ (final.outcome = .successWithRows ∧
      ∃ count, warning = [rejectedRows count] ∧ 1 ≤ count ∧ count ≤ maxWalkRows))

theorem requiredFailure_outcome {results : List CapabilityResult} {failure : CapabilityResult}
    (h : requiredFailure results = some failure) :
    failure.capability = "fdb" ∧ failure.outcome ≠ .successWithRows ∧
      failure.outcome ≠ .successEmpty := by
  obtain ⟨first, hfs, rfl⟩ := map_eq_some_iff.1 h
  have hne := outcome_ne_of_not_isUsable (not_isUsable_of_failureOf hfs)
  exact ⟨rfl, hne⟩

theorem settleFdb_settled {part : FdbPart} (h : part.Settled fdbNames)
    (results : List CapabilityResult) :
    FdbSettled (settleFdb (requiredFailure results) part).1
      (settleFdb (requiredFailure results) part).2 := by
  unfold settleFdb
  split
  · rename_i failure hfi
    obtain ⟨hnm, hot, -⟩ := requiredFailure_outcome hfi
    exact ⟨part.reported, [], failure, by simp, h.named, hnm,
      ⟨fun heq => absurd heq hot, fun hne => absurd rfl hne⟩, .inl rfl⟩
  · split
    · rename_i hwar
      refine ⟨part.reported, [rejectedRows part.rejected],
        part.final, by simp, h.named, h.capability, h.outcome, .inr ?_⟩
      exact ⟨hwar.2.2, part.rejected, rfl, Nat.one_le_iff_ne_zero.2 hwar.1, h.rejected⟩
    · exact ⟨part.reported, [], part.final, by simp, h.named, h.capability, h.outcome, .inl rfl⟩

theorem named_vlanPart (t : Transport) (profile : PortProfile) (tables : PortTables) :
    Named vlanNames (vlanPart t profile tables).2 := by
  have hrs : (vlanResults t).map CapabilityResult.capability = vlanNames.map text := by
    simp [vlanResults, vlanNames]
  unfold vlanPart
  split
  · split
    · split
      · exact named_of_sublist (Sublist.refl _) ((map_capability_parseErrors _ _ _).trans hrs)
      · exact named_of_sublist (Sublist.refl _) hrs
    · exact named_of_sublist (Sublist.refl _) hrs
  · exact named_nil _

theorem named_stpPart (t : Transport) (profile : PortProfile) (tables : PortTables) :
    Named stpNames (stpPart t profile tables).2 := by
  have hrs : (stpResults t).map CapabilityResult.capability = stpNames.map text := by
    simp [stpResults, stpNames]
  unfold stpPart
  split
  · split
    · split
      · exact named_of_sublist (Sublist.refl _) ((map_capability_parseErrors _ _ _).trans hrs)
      · exact named_of_sublist (Sublist.refl _) hrs
    · exact named_of_sublist (Sublist.refl _) hrs
  · exact named_nil _

theorem named_lldpPart (rt : Runtime) (t : Transport) (ports : List SwitchPort) :
    Named lldpNames (lldpPart rt t ports).2 := by
  unfold lldpPart
  split
  · exact named_of_sublist (Sublist.refl _)
      (by simp [lldpCoreResults, lldpEnrichmentResults, lldpNames, propagate, groupResult])
  · split
    · exact named_of_sublist (Sublist.refl _)
        (by simp [lldpCoreResults, lldpEnrichmentResults, lldpNames, parseErrorOf, groupResult])
    · exact named_of_sublist (Sublist.refl _)
        (by simp [lldpCoreResults, lldpEnrichmentResults, lldpNames, parsedGroup, groupResult])

theorem named_counterResults (t : Transport) (ports : List SwitchPort) :
    Named counterNames (counterResults t ports) := by
  unfold counterResults
  split
  · exact named_of_sublist (Sublist.refl _)
      (by simp [hcOctetResults, fallbackOctetResults, counterDetailResults, counterNames])
  · exact @named_of_sublist _ ["if_hc_in_octets", "if_hc_out_octets", "if_in_errors",
      "if_out_errors", "if_in_discards",
        "if_out_discards"] _ (by decide) (by simp [hcOctetResults, counterDetailResults])

structure CountersSettled (ports : List SwitchPort) (samples : List CounterSample)
    (reported : List CapabilityResult) :
    Prop where
  good : GoodSamples ports samples
  parts : ∃ walks group, reported = walks ++ [group] ∧ Named counterNames walks ∧
    group.capability = text "counter_samples" ∧ (group.outcome = .successWithRows ↔ samples ≠ [])

theorem counterPart_settled {bridge : List (Nat × Nat)} {ports : List SwitchPort}
    (normal : NormalPorts bridge ports)
    (t : Transport) {ticks : Option Nat} (htc : validOptional 0 sqliteIntegerMax ticks = true) :
    CountersSettled ports (counterPart t ports ticks).1 (counterPart t ports ticks).2 := by
  have hnm := named_counterResults t ports
  have hem : ∀ {group : CapabilityResult}, group.outcome ≠ .successWithRows →
      (group.outcome = .successWithRows ↔ ([] : List CounterSample) ≠ []) :=
    fun h => ⟨fun heq => absurd heq h, fun hne => absurd rfl hne⟩
  unfold counterPart
  split
  · rename_i failure hfi
    refine ⟨goodSamples_nil ports, _, _, rfl, hnm, rfl, hem ?_⟩
    apply (@outcome_ne_of_not_isUsable failure _).1
    unfold counterFailure at hfi
    split at hfi
    · rename_i first hfs
      cases hfi
      exact not_isUsable_of_failureOf hfs
    · split at hfi
      · split at hfi
        · cases hfi
        · exact not_isUsable_of_failureOf hfi
      · exact not_isUsable_of_failureOf hfi
  · split
    · exact ⟨goodSamples_nil ports, _, _, rfl, hnm, rfl, hem nofun⟩
    · rename_i samples hsm
      exact ⟨goodSamples_of_parse normal htc hsm, _, _, rfl, hnm, rfl, parsedGroup_outcome _ _⟩

end WebOvpn.Snmp
