/-
Equality of values as the interpreter compares them, and the servers of a plan:
what the policy makes of them it accepts again as they are.
-/
import WebOvpn.Workflow.Order

namespace WebOvpn.Workflow

open Text
open Vnc (pyEq pyEqItems pyEqMembers)

variable {rt : Vnc.Runtime} {plan : Plan}

mutual

def hasDistinctKeys : JVal → Bool
  | .arr items => itemsDistinct items
  | .obj members => decide (members.map Prod.fst).Nodup && membersDistinct members
  | _ => true

def itemsDistinct : List JVal → Bool
  | [] => true
  | value :: rest => hasDistinctKeys value && itemsDistinct rest

def membersDistinct : Members → Bool
  | [] => true
  | (_, value) :: rest => hasDistinctKeys value && membersDistinct rest

end

variable {members : Members} {value : JVal} {servers : List Text}

theorem hasDistinctKeys_of_mem (h : membersDistinct members = true) {key : Text}
    (hmem : (key, value) ∈ members) : hasDistinctKeys value = true := by
  induction members with
  | nil => cases hmem
  | cons entry rest ih =>
    obtain ⟨k, v⟩ := entry
    simp only [membersDistinct, Bool.and_eq_true] at h
    rcases List.mem_cons.1 hmem with heq | hmem
    · cases heq
      exact h.1
    · exact ih h.2 hmem

theorem pyEq_str {s : Text} : pyEq rt value (.str s) = true ↔ value = .str s := by
  cases value <;> simp [pyEq, Vnc.integerOf, Vnc.isNumber]

theorem pyEq_int (n : Int) : pyEq rt (.int n) (.int n) = true := by
  simp [pyEq, Vnc.integerOf]

theorem exists_of_pyEq_arr {items : List JVal} (h : pyEq rt value (.arr items) = true) :
    ∃ others, value = .arr others ∧ pyEqItems rt others items = true := by
  cases value with
  | arr others =>
    rw [pyEq] at h
    exact ⟨others, rfl, h⟩
  | _ => simp [pyEq, Vnc.integerOf, Vnc.isNumber] at h

theorem exists_of_pyEq_obj (h : pyEq rt value (.obj members) = true) :
    ∃ others, value = .obj others ∧ others.length = members.length ∧
      pyEqMembers rt others members = true := by
  cases value with
  | obj others =>
    rw [pyEq, Bool.and_eq_true, decide_eq_true_eq] at h
    exact ⟨others, rfl, h⟩
  | _ => simp [pyEq, Vnc.integerOf, Vnc.isNumber] at h

theorem pyEqItems_str {values : List JVal} {names : List Text} :
    pyEqItems rt values (names.map .str) = true ↔ values = names.map .str := by
  induction values generalizing names with
  | nil => cases names <;> simp [pyEqItems]
  | cons value rest ih =>
    cases names with
    | nil => simp [pyEqItems]
    | cons name more => simp [pyEqItems, pyEq_str, ih]

theorem pyEq_of_mem {others : Members} (h : pyEqMembers rt others members = true) {key : Text}
    (hmem : (key, value) ∈ others) : ∃ other, members.lookup key = some other ∧
      pyEq rt value other = true := by
  induction others with
  | nil => cases hmem
  | cons entry rest ih =>
    obtain ⟨k, v⟩ := entry
    rw [pyEqMembers, Bool.and_eq_true] at h
    rcases List.mem_cons.1 hmem with heq | hmem
    · cases heq
      cases hlo : members.lookup key with
      | none => simp [hlo] at h
      | some other =>
        simp only [hlo] at h
        exact ⟨other, rfl, h.1⟩
    · exact ih h.2 hmem

theorem pyEqMembers_of_forall {others : Members}
    (h : ∀ entry ∈ others, ∃ other, members.lookup entry.1 = some other ∧ pyEq rt entry.2 other = true) :
    pyEqMembers rt others members = true := by
  induction others with
  | nil => rw [pyEqMembers]
  | cons entry rest ih =>
    obtain ⟨k, v⟩ := entry
    obtain ⟨other, hlo, heq⟩ := h _ List.mem_cons_self
    rw [pyEqMembers, Bool.and_eq_true]
    refine ⟨?_, ih fun e he => h e (List.mem_cons_of_mem _ he)⟩
    simp only [hlo]
    exact heq

theorem pyEq_obj_self (hnd : (members.map Prod.fst).Nodup)
    (h : ∀ entry ∈ members, pyEq rt entry.2 entry.2 = true) :
      pyEq rt (.obj members) (.obj members) = true := by
  rw [pyEq, Bool.and_eq_true, decide_eq_true_eq]
  refine ⟨rfl, pyEqMembers_of_forall ?_⟩
  intro entry hen
  exact ⟨entry.2, lookup_of_mem hnd hen, h entry hen⟩

/-- Equal dictionaries have equal values under every key. -/
theorem item_of_pyEq {other : JVal} {name : String} (hds : hasDistinctKeys value = true)
    (h : pyEq rt value (.obj members) = true) (hot : members.lookup (text name) = some other) :
    ∃ inner, item value name = some inner ∧ pyEq rt inner other = true ∧
      hasDistinctKeys inner = true := by
  obtain ⟨others, rfl, hlen, hms⟩ := exists_of_pyEq_obj h
  rw [hasDistinctKeys, Bool.and_eq_true, decide_eq_true_eq] at hds
  have hsub : others.map Prod.fst ⊆ members.map Prod.fst := by
    intro key hkey
    obtain ⟨entry, hen, rfl⟩ := List.mem_map.1 hkey
    obtain ⟨found, hfn, -⟩ := pyEq_of_mem hms hen
    exact List.mem_map.2 ⟨_, mem_of_lookup hfn, rfl⟩
  have hpr : (others.map Prod.fst).Perm (members.map Prod.fst) := by
    apply (List.subperm_of_subset hds.1 hsub).perm_of_length_le
    rw [List.length_map, List.length_map, hlen]
  have hkey : text name ∈ others.map Prod.fst :=
    hpr.mem_iff.2 (List.mem_map.2 ⟨_, mem_of_lookup hot, rfl⟩)
  obtain ⟨entry, hen, hnm⟩ := List.mem_map.1 hkey
  obtain ⟨found, hfn, heq⟩ := pyEq_of_mem hms hen
  rw [hnm, hot] at hfn
  cases Option.some.inj hfn
  refine ⟨entry.2, ?_, heq, hasDistinctKeys_of_mem hds.2 hen⟩
  unfold item
  rw [← hnm]
  exact lookup_of_mem hds.1 hen

/-- An entry of a policy that is kept as it is. -/
def IsServer (t : Text) : Prop :=
  t.any (ConfigParser.isChar '%') = false ∧ ∃ address, ipAddress t = some address ∧
    address.text = t ∧ address.isHost = true

theorem isServer_of_ipAddress {item : Text} {address : Resolver.Address}
    (h : ipAddress item = some address)
    (hhs : address.isHost = true) : IsServer address.text := by
  obtain ⟨a, -, rfl⟩ := Option.map_eq_some_iff.1 h
  constructor
  · rw [List.any_eq_false]
    intro c hc hpr
    rcases IpVersions.text_chars a c hc with hhex | rfl | rfl
    · unfold ConfigParser.isChar at hpr
      rw [decide_eq_true_eq] at hpr
      rw [hpr] at hhex
      exact absurd hhex (by decide)
    · exact absurd hpr (by decide)
    · exact absurd hpr (by decide)
  · refine ⟨_, ?_, rfl, hhs⟩
    unfold ipAddress
    simp only [IpVersions.ofText_text, Option.map_some]

theorem validateFrom_sound {items done result : List Text}
    (h : Resolver.validateFrom ipAddress done items = some result)
    (hdn : done.Nodup) :
    ∃ added, result = done ++ added ∧ added.length = items.length ∧ (∀ t ∈ added, IsServer t) ∧
      result.Nodup := by
  induction items generalizing done with
  | nil =>
    cases Option.some.inj h
    exact ⟨[], (List.append_nil _).symm, rfl, nofun, hdn⟩
  | cons item rest ih =>
    unfold Resolver.validateFrom at h
    split_ifs at h with hpr
    cases hadd : ipAddress item with
    | none => simp [hadd] at h
    | some address =>
      simp only [hadd] at h
      split_ifs at h with hbad
      simp only [Bool.or_eq_true, Bool.not_eq_true', decide_eq_true_eq, not_or, Bool.not_eq_false] at hbad
      have hnx : (done ++ [address.text]).Nodup := by
        rw [List.nodup_append]
        refine ⟨hdn, List.nodup_singleton _, ?_⟩
        intro a ha b hb heq
        cases List.mem_singleton.1 hb
        subst heq
        exact hbad.2 ha
      obtain ⟨added, hrs, hlen, hsr, hnd⟩ := ih h hnx
      refine ⟨address.text :: added, ?_, ?_, ?_, hnd⟩
      · rw [hrs, List.append_assoc, List.singleton_append]
      · rw [List.length_cons, List.length_cons, hlen]
      · intro t ht
        rcases List.mem_cons.1 ht with rfl | ht
        · exact isServer_of_ipAddress hadd hbad.1
        · exact hsr t ht

theorem validateFrom_self {done : List Text} (hsr : ∀ t ∈ servers, IsServer t)
    (hnd : (done ++ servers).Nodup) :
    Resolver.validateFrom ipAddress done servers = some (done ++ servers) := by
  induction servers generalizing done with
  | nil => rw [Resolver.validateFrom, List.append_nil]
  | cons server rest ih =>
    obtain ⟨hpr, address, hadd, htx, hhs⟩ := hsr server List.mem_cons_self
    have hfr : server ∉ done := by
      intro hmem
      exact (List.nodup_append.1 hnd).2.2 server hmem server List.mem_cons_self rfl
    unfold Resolver.validateFrom
    rw [hpr, if_neg Bool.false_ne_true]
    simp only [hadd, htx, hhs, Bool.not_true, hfr, Bool.false_or, decide_false, Bool.false_eq_true, if_false]
    rw [ih (fun t ht => hsr t (List.mem_cons_of_mem _ ht)) (by rwa [List.append_assoc]), List.append_assoc]
    rfl

theorem validate_self {items : List Text} (h : Resolver.validate ipAddress items = some servers) :
    Resolver.validate ipAddress servers = some servers := by
  unfold Resolver.validate at h
  split_ifs at h with hbd
  obtain ⟨added, hrs, hlen, hsr, hnd⟩ := validateFrom_sound h List.nodup_nil
  rw [List.nil_append] at hrs
  subst hrs
  unfold Resolver.validate
  rw [if_pos (by rw [hlen]; exact hbd)]
  exact validateFrom_self hsr hnd

theorem validate_of_policyServers {policy : JVal} (h : policyServers policy = some servers) :
    Resolver.validate ipAddress servers = some servers := by
  unfold policyServers at h
  split at h
  · split_ifs at h
    obtain ⟨items, -, hits⟩ := Option.bind_eq_some_iff.1 h
    exact validate_self hits
  · cases h

theorem policyServers_finalDnsPolicy {policy : JVal} (h : policyServers policy = some plan.servers) :
    policyServers plan.finalDnsPolicy = some plan.servers := by
  unfold policyServers Plan.finalDnsPolicy finalDns
  simp only [if_true]
  rw [asTexts_eq_some.2 rfl, Option.bind_some]
  exact validate_of_policyServers h

theorem pyEq_arr_str (names : List Text) :
    pyEq rt (.arr (names.map .str)) (.arr (names.map .str)) = true := by
  rw [pyEq]
  exact pyEqItems_str.2 rfl

theorem pyEq_finalDnsPolicy : pyEq rt plan.finalDnsPolicy plan.finalDnsPolicy = true := by
  apply pyEq_obj_self
  · exact List.nodup_singleton _
  · intro entry hen
    cases List.mem_singleton.1 hen
    exact pyEq_arr_str _

theorem eq_finalDnsPolicy (h : pyEq rt value plan.finalDnsPolicy = true) :
    value = plan.finalDnsPolicy := by
  obtain ⟨others, rfl, hlen, hms⟩ := exists_of_pyEq_obj h
  obtain ⟨⟨key, servers⟩, rfl⟩ := List.length_eq_one_iff.1 hlen
  obtain ⟨other, hlo, heq⟩ := pyEq_of_mem hms List.mem_cons_self
  have hen := List.mem_singleton.1 (mem_of_lookup hlo)
  obtain ⟨rfl, rfl⟩ := Prod.mk.inj hen
  obtain ⟨items, rfl, hits⟩ := exists_of_pyEq_arr heq
  rw [pyEqItems_str.1 hits]
  rfl

theorem pyEq_vncPolicy : pyEq rt Vnc.policy Vnc.policy = true := by
  apply pyEq_obj_self
  · decide
  · simp [pyEq_int, pyEq_str]

theorem pyEq_policy : pyEq rt plan.policy plan.policy = true := by
  apply pyEq_obj_self
  · change [text "final_dns", text "vnc"].Nodup
    decide
  · simp [pyEq_finalDnsPolicy, pyEq_vncPolicy]

theorem pyEq_phaseJson (phase : Phase) :
    pyEq rt (plan.phaseJson phase) (plan.phaseJson phase) = true := by
  apply pyEq_obj_self
  · change [text "id", text "component_ids", text "budget_seconds"].Nodup
    decide
  · simp [pyEq_int, pyEq_str, pyEq_arr_str]

theorem pyEq_toJson : pyEq rt (plan.toJson rt) (plan.toJson rt) = true := by
  apply pyEq_obj_self
  · change [text "schema_version", text "kind", text "profile_id", text "policy",
      text "policy_sha256", text "phases"].Nodup
    decide
  · have hphs : pyEq rt (.arr (Phase.all.map plan.phaseJson)) (.arr (Phase.all.map plan.phaseJson)) = true := by
      rw [pyEq]
      simp [Phase.all, pyEqItems, pyEq_phaseJson]
    simp [pyEq_int, pyEq_str, pyEq_policy, hphs]

end WebOvpn.Workflow
