/-
The store takes a snapshot of a collection exactly if no address of the switch has rows
under two FDB ids that a profile makes one VLAN.
-/
import WebOvpn.Snmp.StorableLaw

namespace WebOvpn.Snmp

open Text List
open SwitchStore (SnmpOutcome SwitchFdbEntry validText validFdbEntry)

structure Report (snapshot : Snapshot) where
  first : List CapabilityResult
  walks : List CapabilityResult
  warning : List CapabilityResult
  final : CapabilityResult
  middle : List CapabilityResult
  group : CapabilityResult
  capabilities_eq : snapshot.capabilities = first ++ walks ++ warning ++ [final] ++ middle ++ [group]
  named_first : Named firstNames first
  named_walks : Named fdbNames walks
  named_middle : Named lastNames middle
  final_name : final.capability = "fdb"
  final_outcome : final.outcome = .successWithRows ↔ snapshot.fdb ≠ []
  group_name : group.capability = "counter_samples"
  group_outcome : group.outcome = .successWithRows ↔ snapshot.counterSamples ≠ []
  warned : warning = [] ∨ (final.outcome = .successWithRows ∧
    ∃ count, warning = [rejectedRows count] ∧ 1 ≤ count ∧ count ≤ maxWalkRows)

theorem named_first (t : Transport) {reported : List CapabilityResult}
    (h : reported.map CapabilityResult.capability = ["if_name", "if_high_speed", "if_alias"].map text) :
    Named firstNames (t.systemResults ++ t.ifResults ++ reported ++ [t.bridgeResult]) := by
  apply named_of_sublist (Sublist.refl _)
  rw [map_append, map_append, h]
  simp [Transport.systemResults, Transport.ifResults, Transport.bridgeResult, firstNames]

theorem exists_report (rt : Runtime) (t : Transport) {ground : Groundwork} (sound : ground.Sound) :
    Nonempty (Report (ground.snapshot rt t)) := by
  obtain ⟨walks, warning, final, hfdb, hwl, hfn, hou, hwar⟩ :=
    (settleFdb_settled (settled_fdb t ground.profile ground.tables) t.required).parts
  obtain ⟨hgo, counterWalks, group, hcou, hcoun, hgr, hgrou⟩ :=
    counterPart_settled sound.normal t sound.system
  refine ⟨{
    first := t.systemResults ++ t.ifResults ++ ground.interfaces.reported ++ [t.bridgeResult]
    walks := walks
    warning := warning
    final := final
    middle := (vlanPart t ground.profile ground.tables).2 ++ (stpPart t ground.profile ground.tables).2 ++
      (lldpPart rt t ground.ports).2 ++ counterWalks
    group := group
    capabilities_eq := ?_
    named_first := named_first t sound.named
    named_walks := hwl
    named_middle := ?_
    final_name := hfn
    final_outcome := hou
    group_name := hgr
    group_outcome := hgrou
    warned := hwar }⟩
  · unfold Groundwork.snapshot
    dsimp only
    rw [hfdb, hcou]
    simp only [append_assoc]
  · exact (((named_vlanPart t _ _).append (named_stpPart t _ _)).append (named_lldpPart rt t _)).append hcoun

theorem validRejectedRows_of_le {count : Nat} (h : 1 ≤ count ∧ count ≤ maxWalkRows) :
    validRejectedRows (rejectedRows count) = true := by
  have hmax : maxWalkRows ≤ sqliteIntegerMax := by decide
  unfold validRejectedRows rejectedRows
  simp only [decide_true, isEmpty_nil, Bool.and_true, Bool.true_and, Bool.and_eq_true, decide_eq_true_eq]
  exact ⟨h.1, h.2.trans hmax⟩

namespace Report

variable {snapshot : Snapshot} (report : Report snapshot)
include report

theorem named_warning : Named ["qbridge_fdb_rejected_rows"] report.warning := by
  rcases report.warned with h | ⟨-, count, h, -⟩
  · rw [h]
    exact named_nil _
  · rw [h]
    exact named_singleton rfl

theorem named : Named allNames snapshot.capabilities := by
  rw [report.capabilities_eq]
  exact ((((report.named_first.append report.named_walks).append report.named_warning).append
    (named_singleton report.final_name)).append report.named_middle).append (named_singleton report.group_name)

theorem nodup_names : (snapshot.capabilities.map CapabilityResult.capability).Nodup :=
  report.named.nodup (nodup_allNames.map text_injective)

theorem final_mem : report.final ∈ snapshot.capabilities := by
  rw [report.capabilities_eq]
  simp

theorem group_mem : report.group ∈ snapshot.capabilities := by
  rw [report.capabilities_eq]
  simp

variable {result : CapabilityResult}

section

variable (hmem : result ∈ snapshot.capabilities)
include hmem

theorem mem_warning (hnm : result.capability = "qbridge_fdb_rejected_rows") :
    result ∈ report.warning := by
  have hoh : ∀ {names : List String} {results : List CapabilityResult}, Named names results →
      "qbridge_fdb_rejected_rows" ∉ names → result ∉ results := by
    intro names results hnd hnot hin
    obtain ⟨name, hmemN, heq⟩ := hnd.mem hin
    exact hnot (text_injective (heq.symm.trans hnm) ▸ hmemN)
  rw [report.capabilities_eq] at hmem
  simp only [mem_append] at hmem
  rcases hmem with ((((h | h) | h) | h) | h) | h
  · exact absurd h (hoh report.named_first (by decide))
  · exact absurd h (hoh report.named_walks (by decide))
  · exact h
  · exact absurd h (hoh (named_singleton report.final_name) (by decide))
  · exact absurd h (hoh report.named_middle (by decide))
  · exact absurd h (hoh (named_singleton report.group_name) (by decide))

theorem validText_name : validText result.capability = true := by
  have hall : ∀ name ∈ allNames, validText (text name) = true := by decide +kernel
  obtain ⟨name, hnm, heq⟩ := report.named.mem hmem
  rw [heq]
  exact hall name hnm

theorem valid : validCapability result = true := by
  unfold validCapability
  rw [report.validText_name hmem, Bool.true_and, Bool.or_eq_true, decide_eq_true_eq]
  by_cases hnm : result.capability = "qbridge_fdb_rejected_rows"
  · right
    have hwar := report.mem_warning hmem hnm
    rcases report.warned with h | ⟨-, count, h, hcnt⟩
    · rw [h] at hwar
      cases hwar
    · rw [h, mem_singleton] at hwar
      rw [hwar]
      exact validRejectedRows_of_le hcnt
  · exact .inl hnm

theorem outcome?_eq :
    snapshot.stored.outcome? result.capability = some result.outcome := by
  unfold SwitchStore.SwitchSnapshot.outcome? Snapshot.stored
  dsimp only
  rw [find?_map]
  have hfn : snapshot.capabilities.find? ((fun stored : SwitchStore.CapabilityResult =>
      decide (stored.capability = result.capability)) ∘ CapabilityResult.stored) = some result := by
    rw [find?_eq_some_iff_append]
    refine ⟨decide_eq_true rfl, ?_⟩
    obtain ⟨before, after, heq⟩ := append_of_mem hmem
    refine ⟨before, after, heq, ?_⟩
    intro other hoh
    rw [Bool.not_eq_true', Function.comp_apply, decide_eq_false_iff_not]
    intro hsm
    have hnd := report.nodup_names
    rw [heq, map_append, nodup_append] at hnd
    exact hnd.2.2 _ (mem_map_of_mem hoh) _ (mem_map_of_mem mem_cons_self) hsm
  rw [hfn]
  rfl

end

theorem warning_outcome :
    ((snapshot.stored.outcome? "qbridge_fdb_rejected_rows").isNone ||
      report.final.outcome = .successWithRows) =
      true := by
  rw [Bool.or_eq_true, decide_eq_true_eq]
  rcases report.warned with h | ⟨hou, -⟩
  · left
    rw [Option.isNone_iff_eq_none]
    unfold SwitchStore.SwitchSnapshot.outcome? Snapshot.stored
    dsimp only
    rw [Option.map_eq_none_iff, find?_eq_none]
    intro stored hst hnm
    rw [decide_eq_true_eq] at hnm
    obtain ⟨result, hrs, rfl⟩ := mem_map.1 hst
    have hwar := report.mem_warning hrs hnm
    rw [h] at hwar
    cases hwar
  · exact .inr hou

end Report

/-- The rows of a switch collide in the forwarding database of its snapshot. -/
def Collides (t : Transport) (ground : Groundwork) : Prop :=
  requiredFailure t.required = none ∧ QbridgeCollides t ground.profile ground.tables

section

variable (rt : Runtime) (t : Transport) {ground : Groundwork}

theorem nodup_vlanMemberships :
    ((ground.snapshot rt t).vlanMemberships.map VlanMembership.key).Nodup := by
  change ((vlanPart _ _ _).1.map VlanMembership.key).Nodup
  unfold vlanPart
  split
  · split
    · split
      · exact nodup_nil
      · rename_i hpr
        exact nodup_memberships hpr
    · exact nodup_nil
  · exact nodup_nil

variable (sound : ground.Sound)
include sound

theorem valid_fdb : ∀ entry ∈ (ground.snapshot rt t).fdb, validFdbEntry entry = true := by
  change ∀ entry ∈ (settleFdb _ _).1, validFdbEntry entry = true
  unfold settleFdb
  split
  · exact goodFdb_nil.valid
  · split
    · exact valid_collectFdb sound.normal
    · exact valid_collectFdb sound.normal

/-- The keys of the forwarding database are distinct unless rows collide. -/
theorem nodup_fdb_iff : ((ground.snapshot rt t).fdb.map SwitchFdbEntry.key).Nodup ↔
    ¬Collides t ground := by
  have hiff := @nodup_collectFdb_iff t ground.profile _ _ sound.normal
  change ((settleFdb _ _).1.map SwitchFdbEntry.key).Nodup ↔ _
  unfold settleFdb Collides
  cases hrq : requiredFailure t.required with
  | some failure => exact iff_of_true nodup_nil fun h => absurd h.1 nofun
  | none =>
    have hnot : ¬((none : Option CapabilityResult) = none ∧ QbridgeCollides t ground.profile ground.tables) ↔
        ¬QbridgeCollides t ground.profile ground.tables := by
      rw [and_iff_right rfl]
    rw [hnot]
    dsimp only
    split
    · exact hiff
    · exact hiff

theorem validDetails_snapshot (report : Report (ground.snapshot rt t)) :
    validDetails (ground.snapshot rt t) = true := by
  have hpr : ∀ profile : PortProfile,
      validText profile.profileId = true ∧ validText profile.profileFingerprint = true := by
    intro profile
    cases profile <;> decide
  have hcou := (counterPart_settled sound.normal t sound.system).good
  unfold validDetails
  simp only [Bool.and_eq_true, all_eq_true]
  exact ⟨⟨⟨⟨⟨sound.system, (hpr _).1⟩, (hpr _).2⟩, fun port hpo => sound.normal.valid port hpo⟩,
    fun result hrs => report.valid hrs⟩, hcou.valid⟩

theorem validCounters_snapshot (report : Report (ground.snapshot rt t)) :
    SwitchStore.validCounters (ground.snapshot rt t).stored = true := by
  have hcou := (counterPart_settled sound.normal t sound.system).good
  unfold SwitchStore.validCounters
  rw [← report.group_name, report.outcome?_eq report.group_mem]
  dsimp only
  simp only [Bool.and_eq_true, decide_eq_true_eq, all_eq_true]
  refine ⟨⟨?_, hcou.keys⟩, ?_⟩
  · rw [report.group_outcome]
    exact not_congr map_eq_nil_iff.symm
  · intro key hkey
    obtain ⟨sample, hsm, rfl⟩ := mem_map.1 hkey
    exact contains_iff_mem.2 (hcou.known sample hsm)

theorem validate_isSome_iff {ρ : Type}
    (save : Nat → Nat → SwitchStore.SwitchSnapshot Snapshot → Text → ρ → Option ρ) :
    (SwitchStore.validate (storeDetails save) (ground.snapshot rt t).stored).isSome = true ↔
      ((ground.snapshot rt t).fdb.map SwitchFdbEntry.key).Nodup := by
  obtain ⟨report⟩ := exists_report rt t sound
  have hks : (ground.snapshot rt t).stored.portKeys.all validText = true := by
    rw [all_eq_true]
    intro key hkey
    obtain ⟨port, hport, rfl⟩ := mem_map.1 hkey
    exact (portOptionals (sound.normal.valid port hport)).1
  have hnm : (ground.snapshot rt t).stored.capabilities.all
    (fun result => validText result.capability) = true := by
    rw [all_eq_true]
    intro stored hst
    obtain ⟨result, hrs, rfl⟩ := mem_map.1 hst
    exact report.validText_name hrs
  have hds : ((ground.snapshot rt t).stored.capabilities.map SwitchStore.CapabilityResult.capability).Nodup := by
    change ((List.map _ _).map _).Nodup
    rw [map_map]
    exact report.nodup_names
  have hfn : (ground.snapshot rt t).stored.outcome? "fdb" = some report.final.outcome := by
    rw [← report.final_name]
    exact report.outcome?_eq report.final_mem
  have hvl : (ground.snapshot rt t).stored.fdb.all validFdbEntry = true :=
    all_eq_true.2 (valid_fdb rt t sound)
  unfold SwitchStore.validate
  rw [if_pos]
  · rw [hfn]
    dsimp only
    unfold SwitchStore.validFdb
    have hou : report.final.outcome = .successWithRows ↔ (ground.snapshot rt t).stored.fdb ≠ [] :=
      report.final_outcome
    rw [hvl, report.warning_outcome, decide_eq_true hou, Bool.true_and, Bool.and_true, Bool.and_true]
    change _ ↔ ((ground.snapshot rt t).stored.fdb.map SwitchFdbEntry.key).Nodup
    by_cases hnd : ((ground.snapshot rt t).stored.fdb.map SwitchFdbEntry.key).Nodup
    · rw [if_pos (decide_eq_true hnd)]
      exact iff_of_true rfl hnd
    · rw [if_neg (by rw [decide_eq_true_eq]; exact hnd)]
      exact iff_of_false Bool.false_ne_true hnd
  · rw [hks, hnm, validCounters_snapshot rt t sound report, decide_eq_true hds]
    have hdt : (storeDetails save).isValid (ground.snapshot rt t).stored = true :=
      validDetails_snapshot rt t sound report
    have hpr : (ground.snapshot rt t).stored.portKeys.Nodup := sound.normal.keys
    rw [hdt, decide_eq_true hpr]
    rfl

end

structure IsStorable (snapshot : Snapshot) : Prop where
  accepted : IsAccepted snapshot
  fdb : (snapshot.fdb.map SwitchFdbEntry.key).Nodup
  ports : (snapshot.ports.map SwitchPort.portKey).Nodup
  memberships : (snapshot.vlanMemberships.map VlanMembership.key).Nodup

def AnswersCollide (rt : Runtime) (t : Transport) (hint : ProfileHint) : Prop :=
  ∃ ground, groundwork rt t hint = some ground ∧ Collides t ground

/-- A collected snapshot can be stored iff no two rows of the answers fall on one FDB key. -/
theorem collected_storable_iff {rt : Runtime} {t : Transport} {hint : ProfileHint} {snapshot : Snapshot}
    (h : collectSwitchSnapshot rt t hint = some snapshot) : IsStorable snapshot ↔
      ¬AnswersCollide rt t hint := by
  obtain ⟨ground, hgr, rfl⟩ := Option.map_eq_some_iff.1 h
  have sound := groundwork_sound hgr
  have hiff := nodup_fdb_iff rt t sound
  constructor
  · rintro hst ⟨ground', hgr', hcl⟩
    rw [hgr] at hgr'
    cases hgr'
    exact hiff.1 hst.fdb hcl
  · intro hno
    have hfdb : ((ground.snapshot rt t).fdb.map SwitchFdbEntry.key).Nodup := by
      apply hiff.2
      intro hcl
      exact hno ⟨ground, hgr, hcl⟩
    refine ⟨?_, hfdb, sound.normal.keys, nodup_vlanMemberships rt t⟩
    intro ρ save
    exact (validate_isSome_iff rt t sound save).2 hfdb

/-- A switch of SNR with one port, whose VLAN 10 has the FDB id 5, and whose forwarding
database has one address under the ids 5 and 10. -/
def collidingTable : List (Oid × List VarBind) :=
  [(ifIndex, [⟨ifIndex ++ [1], .number .integer 1, by decide⟩]),
    (dot1dBasePortIfindex, [⟨dot1dBasePortIfindex ++ [1], .number .integer 1, by decide⟩]),
    (dot1qFdbPort, [⟨dot1qFdbPort ++ [5, 0, 1, 2, 3, 4, 5], .number .integer 1, by decide⟩,
        ⟨dot1qFdbPort ++ [10, 0, 1, 2, 3, 4, 5], .number .integer 1, by decide⟩]),
    (dot1qFdbStatus, [⟨dot1qFdbStatus ++ [5, 0, 1, 2, 3, 4, 5], .number .integer 3, by decide⟩,
        ⟨dot1qFdbStatus ++ [10, 0, 1, 2, 3, 4, 5], .number .integer 3, by decide⟩]),
    (dot1qVlanFdbId, [⟨dot1qVlanFdbId ++ [0, 10], .number .integer 5, by decide⟩])]

theorem collidingTable_bounded (oid : Oid) :
    ((collidingTable.lookup oid).getD []).length ≤ maxWalkRows := by
  have hall : ∀ entry ∈ collidingTable, entry.2.length ≤ maxWalkRows := by decide
  cases h : collidingTable.lookup oid with
  | none => exact Nat.zero_le _
  | some rows => exact hall _ (mem_of_lookup h)

def collidingSwitch : Transport where
  get oid :=
    .success (if oid =
      sysObjectId then [⟨sysObjectId, .objectIdentifier "1.3.6.1.4.1.57206", by decide⟩] else [])
  walk oid := .success ((collidingTable.lookup oid).getD [])
  walk_bounded := collidingTable_bounded

def asciiRuntime : Runtime where
  isWord c := c.isAlnum || c = '_'
  isPrintable c := 32 ≤ c.val && c.val ≤ 126

theorem colliding_fdb : ((collectSwitchSnapshot asciiRuntime collidingSwitch .absent).map fun snapshot =>
      decide (snapshot.fdb.map SwitchFdbEntry.key).Nodup) = some false := by
  decide +kernel

/-- Two rows of the answers of this switch fall on one key. -/
theorem colliding_switch_not_storable :
    ∃ snapshot, collectSwitchSnapshot asciiRuntime collidingSwitch .absent = some snapshot ∧
      ¬IsStorable snapshot := by
  obtain ⟨snapshot, hsn, hks⟩ := Option.map_eq_some_iff.1 colliding_fdb
  refine ⟨snapshot, hsn, ?_⟩
  intro hst
  exact of_decide_eq_false hks hst.fdb

/-- The law at the switch whose rows collide. -/
theorem collected_storable_iff_colliding :
    ∃ snapshot, collectSwitchSnapshot asciiRuntime collidingSwitch .absent = some snapshot ∧
      (IsStorable snapshot ↔ ¬AnswersCollide asciiRuntime collidingSwitch .absent) := by
  obtain ⟨snapshot, hsn, -⟩ := Option.map_eq_some_iff.1 colliding_fdb
  exact ⟨snapshot, hsn, collected_storable_iff hsn⟩

end WebOvpn.Snmp
