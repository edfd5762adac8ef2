/-
What the catalogue and the templates answer: the networks are in normal form,
and nothing else than the files of the catalogue decides them.
-/
import WebOvpn.Lib.Run
import WebOvpn.Vpn.Networks

namespace WebOvpn.Vpn

open Text Prog List

variable {cfg : Settings} {s t : Files} {cidr cidr' name : Text} {cidrs selected : List Text}
  {template : NetworkTemplate}

def Canonical (cidr : Text) : Prop := ∃ net : Ipv4Network, net.text = cidr

theorem canonical_of_normalizeCidr (h : normalizeCidr cidr = .ok cidr') : Canonical cidr' := by
  unfold normalizeCidr at h
  split at h
  · cases h
    exact ⟨_, rfl⟩
  · cases h

theorem Canonical.normalizeCidr (h : Canonical cidr) : normalizeCidr cidr = .ok cidr := by
  obtain ⟨net, rfl⟩ := h
  unfold Vpn.normalizeCidr
  rw [Ipv4Network.ofText_text]

theorem distinct_loop (items seen : List Text) (hse : seen.Nodup) :
    (items.foldl (fun seen item => if item ∈ seen then seen else seen ++ [item]) seen).Nodup ∧
      ∀ item, item ∈ items.foldl (fun seen item => if item ∈ seen then seen else seen ++ [item]) seen ↔
        item ∈ seen ∨ item ∈ items := by
  induction items generalizing seen with
  | nil => exact ⟨hse, by simp⟩
  | cons first rest ih =>
    rw [foldl_cons]
    split_ifs with hmem
    · refine ⟨(ih seen hse).1, fun item => ?_⟩
      rw [(ih seen hse).2, mem_cons]
      constructor
      · rintro (h | h)
        · exact .inl h
        · exact .inr (.inr h)
      · rintro (h | rfl | h)
        · exact .inl h
        · exact .inl hmem
        · exact .inr h
    · have hnd : (seen ++ [first]).Nodup := by
        rw [nodup_append]
        refine ⟨hse, nodup_singleton _, ?_⟩
        intro a ha b hb heq
        rw [mem_singleton] at hb
        exact hmem (hb ▸ heq ▸ ha)
      refine ⟨(ih _ hnd).1, fun item => ?_⟩
      rw [(ih _ hnd).2, mem_append, mem_singleton, mem_cons, or_assoc]

theorem mem_distinct {items : List Text} {item : Text} : item ∈ distinct items ↔ item ∈ items := by
  have h := (distinct_loop items [] nodup_nil).2 item
  rw [mem_nil_iff, false_or] at h
  exact h

theorem distinct_loop_of_nodup (items seen : List Text) (h : (seen ++ items).Nodup) :
    items.foldl (fun seen item => if item ∈ seen then seen else seen ++ [item]) seen =
      seen ++ items := by
  induction items generalizing seen with
  | nil => exact (append_nil _).symm
  | cons first rest ih =>
    have hnot : first ∉ seen := by
      intro hmem
      exact (nodup_append.1 h).2.2 first hmem first mem_cons_self rfl
    rw [foldl_cons, if_neg hnot, ih]
    · rw [append_assoc]
      rfl
    · rwa [append_assoc]

/-- Networks in normal form, each of them once. -/
def Normal (cidrs : List Text) : Prop := cidrs.Nodup ∧ ∀ cidr ∈ cidrs, Canonical cidr

theorem uniqueCidrs_eq_ok (h : uniqueCidrs cidrs = .ok selected) :
    ∃ normalized, cidrs.mapM normalizeCidr = .ok normalized ∧ distinct normalized = selected := by
  obtain ⟨normalized, hnor, hsl⟩ := bind_eq_ok.1 h
  cases hsl
  exact ⟨normalized, hnor, rfl⟩

theorem normal_of_uniqueCidrs (h : uniqueCidrs cidrs = .ok selected) : Normal selected := by
  obtain ⟨normalized, hnor, rfl⟩ := uniqueCidrs_eq_ok h
  refine ⟨(distinct_loop _ [] nodup_nil).1, fun cidr hcid => ?_⟩
  obtain ⟨a, -, ha⟩ := (mem_of_mapM hnor).1 (mem_distinct.1 hcid)
  exact canonical_of_normalizeCidr ha

theorem Normal.uniqueCidrs (h : Normal cidrs) : uniqueCidrs cidrs = .ok cidrs := by
  have hsm : cidrs.mapM normalizeCidr = .ok (cidrs.map id) :=
    mapM_eq_ok cidrs fun cidr hcid => (h.2 cidr hcid).normalizeCidr
  rw [map_id] at hsm
  unfold Vpn.uniqueCidrs
  rw [hsm]
  exact congrArg Except.ok (distinct_loop_of_nodup _ [] h.1)

theorem mem_of_mem_putTemplate {rows : List NetworkTemplate} {row other : NetworkTemplate}
    (h : other ∈ putTemplate rows row) : other = row ∨ other ∈ rows := by
  unfold putTemplate at h
  split_ifs at h
  · obtain ⟨old, hold, heq⟩ := mem_map.1 h
    split_ifs at heq
    · exact .inl heq.symm
    · exact .inr (heq ▸ hold)
  · rcases mem_append.1 h with h | h
    · exact .inr h
    · exact .inl (mem_singleton.1 h)

theorem mem_of_mem_putTemplates {rows seen : List NetworkTemplate} {other : NetworkTemplate}
    (h : other ∈ rows.foldl putTemplate seen) : other ∈ seen ∨ other ∈ rows := by
  induction rows generalizing seen with
  | nil => exact .inl h
  | cons row rest ih =>
    rcases ih h with hse | hrs
    · rcases mem_of_mem_putTemplate hse with rfl | hse
      · exact .inr mem_cons_self
      · exact .inl hse
    · exact .inr (mem_cons_of_mem _ hrs)

theorem getNetworkTemplate_eq_ok (h : (exec (getNetworkTemplate cfg name) s).1 = .ok template) :
    Normal template.cidrs ∧ ∃ rows, (exec (listNetworks cfg) s).1 = .ok rows := by
  have hlif : (lift (normalizeTemplateName name) : Command Text).ReadsOnly := uses_lift _
  have hbuilt : (builtinNetworkTemplates cfg).ReadsOnly := builtinNetworkTemplates_uses trivial trivial
  have hcs : customNetworkTemplates.ReadsOnly := customNetworkTemplates_uses trivial
  have hns : (readVipnetNets cfg).ReadsOnly := readVipnetNets_uses trivial trivial
  have hnet : (listNetworks cfg).ReadsOnly := listNetworks_uses trivial trivial
  have hls : (listNetworkTemplates cfg).ReadsOnly :=
    hbuilt.bind fun _ => hcs.bind fun _ => uses_pure _
  obtain ⟨wanted, -, h⟩ := hlif.bind_eq_ok h
  obtain ⟨rows, hrs, h⟩ := hls.bind_eq_ok h
  obtain ⟨builtin, hbi, hrs⟩ := hbuilt.bind_eq_ok hrs
  obtain ⟨custom, hcustom, hrs⟩ := hcs.bind_eq_ok hrs
  obtain ⟨vipnet, hvip, hbi⟩ := hns.bind_eq_ok hbi
  obtain ⟨catalogue, hcat, -⟩ := hnet.bind_eq_ok hvip
  refine ⟨?_, catalogue, hcat⟩
  have hmem : template ∈ rows := by
    cases hfn : rows.find? fun row => row.name = wanted with
    | none =>
      rw [hfn] at h
      cases h
    | some row =>
      rw [hfn] at h
      cases h
      exact mem_of_find?_eq_some hfn
  cases hrs
  rw [mem_insertionSort] at hmem
  rcases mem_of_mem_putTemplates hmem with hnil | hmem
  · cases hnil
  rcases mem_append.1 hmem with hmem | hmem
  · rw [exec_lift] at hbi
    obtain ⟨spec, -, hsp⟩ := (mem_of_mapM hbi).1 hmem
    obtain ⟨selected, hsl, hsm⟩ := bind_eq_ok.1 hsp
    cases hsm
    exact normal_of_uniqueCidrs hsl
  · have hra : (exec (lift (List.mapM normalizeTemplateRow (Option.getD (s File.templatesDb) [])) :
        Command (List NetworkTemplate)) s).1 = .ok custom := hcustom
    rw [exec_lift] at hra
    obtain ⟨row, -, hrow⟩ := (mem_of_mapM hra).1 hmem
    obtain ⟨selected, hsl, hrow⟩ := bind_eq_ok.1 hrow
    obtain ⟨named, -, hsm⟩ := bind_eq_ok.1 hrow
    cases hsm
    exact normal_of_uniqueCidrs hsl

end WebOvpn.Vpn
