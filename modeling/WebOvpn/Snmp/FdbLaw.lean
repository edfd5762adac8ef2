/-
The forwarding database of a snapshot: its entries are those that the store takes,
and what makes two of them have one VLAN key and one address.
-/
import WebOvpn.Snmp.PortLaw

namespace WebOvpn.Snmp

open Text List Option
open SwitchStore (SwitchFdbEntry validFdbEntry validText validMac matchVlanKey VlanKind FdbKey)

theorem nodup_filterMap_iff {α β κ : Type} {items : List α} (hnd : items.Nodup) (f : α → Option β)
    (key : β → κ) :
    ((items.filterMap f).map key).Nodup ↔
      ∀ a ∈ items, ∀ b ∈ items, a ≠ b → ∀ x, f a = some x → ∀ y, f b = some y → key x ≠ key y := by
  rw [Nodup, pairwise_map, pairwise_filterMap]
  constructor
  · intro h a ha b hb hne x hx y hy
    have hsym : Std.Symm fun a b : α => ∀ x, f a = some x → ∀ y, f b = some y → key x ≠ key y :=
      ⟨fun a b hab x hx y hy heq => hab y hy x hx heq.symm⟩
    exact List.Pairwise.forall h ha hb hne x hx y hy
  · intro h
    apply hnd.imp_of_mem
    intro a b ha hb hne x hx y hy
    exact h a ha b hb hne x hx y hy

theorem mapM_option {α β : Type} {f : α → Option β} {items : List α} {results : List β}
    (h : items.mapM f = some results) : results = items.filterMap f ∧ ∀ a ∈ items,
      (f a).isSome = true := by
  induction items generalizing results with
  | nil =>
    cases h
    exact ⟨rfl, fun _ ha => absurd ha not_mem_nil⟩
  | cons a items ih =>
    rw [mapM_cons] at h
    obtain ⟨b, hb, h⟩ := bind_eq_some_iff.1 h
    obtain ⟨rest, hrs, h⟩ := bind_eq_some_iff.1 h
    cases h
    obtain ⟨rfl, hsm⟩ := ih hrs
    refine ⟨(filterMap_cons_some hb).symm, ?_⟩
    intro c hc
    rcases mem_cons.1 hc with rfl | hc
    · rw [hb]
      rfl
    · exact hsm c hc

theorem matchVlanKey_of_take {s : Text} {n : Nat} (hn : 0 < n) (hlen : s.length = 4) :
    matchVlanKey (s ++ Decimal.render n) = if s = "vid:" then some (.vid, Decimal.render n)
      else if s = "fid:" then some (.fid, Decimal.render n) else none := by
  obtain ⟨first, rest, hren, hfs⟩ := Decimal.head_render hn
  have hdg : ∀ c ∈ first :: rest, c.isDigit = true := by
    rw [← hren]
    exact fun c hc => Decimal.isDigit_of_mem_render hc
  unfold matchVlanKey
  rw [drop_left' hlen, take_left' hlen, hren]
  dsimp only
  rw [if_pos]
  rw [Bool.and_eq_true, Bool.and_eq_true]
  exact ⟨⟨hdg first mem_cons_self, decide_eq_true hfs⟩,
    List.all_eq_true.2 fun c hc => hdg c (mem_cons_of_mem first hc)⟩

theorem matchVlanKey_vidKey {n : Nat} (hn : 0 < n) :
    matchVlanKey (vidKey n) = some (.vid, Decimal.render n) :=
  (matchVlanKey_of_take hn rfl).trans (if_pos rfl)

theorem matchVlanKey_fidKey {n : Nat} (hn : 0 < n) :
    matchVlanKey (fidKey n) = some (.fid, Decimal.render n) := by
  apply (matchVlanKey_of_take hn rfl).trans
  rw [if_neg (by decide), if_pos rfl]

theorem vidKey_injective {m n : Nat} (h : vidKey m = vidKey n) : m = n :=
  Decimal.render_injective (append_cancel_left h)

theorem vidKey_ne_fidKey (m n : Nat) : vidKey m ≠ fidKey n := by
  intro h
  have hha : CodePoint.ofChar 'v' = CodePoint.ofChar 'f' := (List.cons.inj h).1
  exact absurd hha (by decide)

theorem vidKey_ne_legacy (n : Nat) : vidKey n ≠ "legacy:unknown" := by
  intro h
  have hha : CodePoint.ofChar 'v' = CodePoint.ofChar 'l' := (List.cons.inj h).1
  exact absurd hha (by decide)

theorem fidKey_ne_legacy (n : Nat) : fidKey n ≠ "legacy:unknown" := by
  intro h
  have hha : CodePoint.ofChar 'f' = CodePoint.ofChar 'l' := (List.cons.inj h).1
  exact absurd hha (by decide)

theorem mem_fdbStatuses (n : Nat) : fdbStatusText n ∈ SwitchStore.fdbStatuses := by
  unfold fdbStatusText
  split <;> decide

theorem fdbStatus_mem {row : VarBind} {status : Text} (h : fdbStatus row = some status) :
    status ∈ SwitchStore.fdbStatuses := by
  obtain ⟨n, -, rfl⟩ := map_eq_some_iff.1 h
  exact mem_fdbStatuses n

section

variable {resolution : PortResolution} {mac status : Text}

theorem validFdbEntry_of_parts {fdbId : Option Nat} {vlan : Text × Option Nat} (hgo : resolution.Good)
    (hmac : validMac mac = true) (hst : status ∈ SwitchStore.fdbStatuses)
    (hfid : validOptional 1 4294967295 fdbId = true) (hkey : (if vlan.1 = "legacy:unknown" then
        (fdbId.map Int.ofNat = none : Bool) && (vlan.2.map Int.ofNat = none : Bool) else
        match matchVlanKey vlan.1 with
        | none => false
        | some (kind, digits) =>
          if 10 < digits.length then false
          else
            let value : Int := digitsValue digits
            match kind with
            | .vid => SwitchStore.validOptionalInt 1 4094 (vlan.2.map Int.ofNat) &&
              vlan.2.map Int.ofNat = some value
            | .fid => (vlan.2.map Int.ofNat = none : Bool) && fdbId.map Int.ofNat = some value) = true) :
    validFdbEntry (resolution.fdbEntry fdbId vlan mac status) = true := by
  have hcn : SwitchStore.fdbStatuses.contains status = true := contains_iff_mem.2 hst
  unfold validFdbEntry PortResolution.fdbEntry
  dsimp only
  rw [hmac, hgo.key, hcn]
  have hi := hgo.ifIndex
  have hb := hgo.bridgePort
  have hp := hgo.physicalPort
  unfold validOptional at hfid hi hb hp
  rw [Bool.and_eq_true]
  refine ⟨?_, hkey⟩
  simp only [Bool.and_true, Bool.and_eq_true]
  exact ⟨⟨⟨hfid, hb⟩, hi⟩, hp⟩

theorem validFdbEntry_legacy (hgo : resolution.Good) (hmac : validMac mac = true)
    (hst : status ∈ SwitchStore.fdbStatuses) :
    validFdbEntry (resolution.fdbEntry none ("legacy:unknown", none) mac status) = true := by
  apply validFdbEntry_of_parts hgo hmac hst rfl
  rw [if_pos rfl]
  rfl

theorem validFdbEntry_vid {fid vid : Nat} (hgo : resolution.Good) (hmac : validMac mac = true)
    (hst : status ∈ SwitchStore.fdbStatuses) (hfid : 0 < fid ∧ fid ≤ max32)
    (hvid : 1 ≤ vid ∧ vid ≤ 4094) :
    validFdbEntry (resolution.fdbEntry (some fid) (vidKey vid, some vid) mac status) = true := by
  apply validFdbEntry_of_parts hgo hmac hst (validOptional_some.2 hfid)
  have hlen : (Decimal.render vid).length ≤ 10 := Decimal.length_render (by omega) (by decide)
  have hv : digitsValue (Decimal.render vid) = vid := Decimal.value_render vid
  dsimp only
  rw [if_neg (vidKey_ne_legacy vid), matchVlanKey_vidKey hvid.1]
  dsimp only
  rw [if_neg (Nat.not_lt.2 hlen), hv, Bool.and_eq_true]
  exact ⟨validOptional_some.2 hvid, by simp⟩

theorem validFdbEntry_fid {fid : Nat} (hgo : resolution.Good) (hmac : validMac mac = true)
    (hst : status ∈ SwitchStore.fdbStatuses) (hfid : 0 < fid ∧ fid ≤ max32) :
    validFdbEntry (resolution.fdbEntry (some fid) (fidKey fid, none) mac status) = true := by
  apply validFdbEntry_of_parts hgo hmac hst (validOptional_some.2 hfid)
  have hlen : (Decimal.render fid).length ≤ 10 := by
    apply Decimal.length_render _ (by decide)
    have := hfid.2
    unfold max32 at this
    omega
  have hv : digitsValue (Decimal.render fid) = fid := Decimal.value_render fid
  dsimp only
  rw [if_neg (fidKey_ne_legacy fid), matchVlanKey_fidKey hfid.1]
  dsimp only
  rw [if_neg (Nat.not_lt.2 hlen), hv]
  simp

end

theorem length_collect {κ β ρ : Type} [DecidableEq κ] [DecidableEq β]
    {entryOf : ρ → Option (Option (κ × β))}
    {rows : List ρ} {d d' : List (κ × β)} (h : rows.foldlM (Dict.addRow entryOf) d = some d') :
    d'.length ≤ d.length + rows.length := by
  induction rows generalizing d with
  | nil =>
    cases h
    exact Nat.le_refl _
  | cons row rows ih =>
    rw [foldlM_cons] at h
    obtain ⟨middle, hmid, hrs⟩ := bind_eq_some_iff.1 h
    have hlen : middle.length ≤ d.length + 1 := by
      unfold Dict.addRow at hmid
      split at hmid
      · cases hmid
      · cases hmid
        exact Nat.le_succ _
      · rcases Dict.add_cases hmid with ⟨-, rfl⟩ | ⟨-, rfl⟩
        · simp
        · exact Nat.le_succ _
    have := ih hrs
    rw [length_cons]
    omega

/-- What rows of Q-BRIDGE that were read are like. -/
structure QbridgeRows.Sound (rows : QbridgeRows) : Prop where
  nodup : (rows.portRows.map Prod.fst).Nodup
  joined : ∀ row ∈ rows.portRows, (fdbIndex row.1).isSome = true
  vids : (rows.fids.map Prod.fst).Nodup
  range : ∀ entry ∈ rows.fids, 1 ≤ entry.1 ∧ entry.1 ≤ 4094

theorem vlanFdbEntry_range {row : VarBind} {vid fid : Nat}
    (h : vlanFdbEntry row = some (some (vid, fid))) :
    1 ≤ vid ∧ vid ≤ 4094 := by
  unfold vlanFdbEntry at h
  split at h
  · split at h
    · rename_i hrn
      obtain ⟨n, -, heq⟩ := map_eq_some_iff.1 h
      cases heq
      exact hrn.2
    · cases h
  · cases h

theorem fidsByVid_sound {answer : Answer} {fids : List (Nat × Nat)} (h : fidsByVid answer = some fids) :
    (fids.map Prod.fst).Nodup ∧ ∀ entry ∈ fids, 1 ≤ entry.1 ∧ entry.1 ≤ 4094 := by
  unfold fidsByVid at h
  split at h
  · cases h
    exact ⟨nodup_nil, fun _ hen => absurd hen not_mem_nil⟩
  · cases h
  · refine ⟨Dict.nodup_collect h, ?_⟩
    intro entry hen
    obtain ⟨row, -, hrow⟩ := (Dict.mem_collect h entry).1 hen
    exact vlanFdbEntry_range hrow

theorem indexedRows_eq_some {answer : Answer} {base : Oid} {suffixLength : Nat}
    {rows : List (Oid × VarBind)}
    (h : indexedRows answer base suffixLength = some rows) :
    (rows.map Prod.fst).Nodup ∧ rows.length ≤ answer.rows.length ∧
      ∀ answered, answer = .success answered →
        Dict.collect (indexedEntry base suffixLength) answered = some rows := by
  unfold indexedRows at h
  obtain ⟨answered, han, h⟩ := bind_eq_some_iff.1 h
  cases answer with
  | failed => cases han
  | success given =>
    cases han
    refine ⟨Dict.nodup_collect h, ?_, fun _ heq => by cases heq; exact h⟩
    have hlen := length_collect h
    rw [length_nil, Nat.zero_add] at hlen
    exact hlen

theorem qbridgeRows_sound {port status vlanFdbId : Answer} {rows : QbridgeRows}
    (h : qbridgeRows port status vlanFdbId = some rows) :
    rows.Sound ∧ rows.portRows.length ≤ port.rows.length := by
  unfold qbridgeRows at h
  obtain ⟨portRows, hpr, h⟩ := bind_eq_some_iff.1 h
  obtain ⟨statusRows, -, h⟩ := bind_eq_some_iff.1 h
  obtain ⟨fids, hfs, h⟩ := bind_eq_some_iff.1 h
  split at h
  · rename_i hji
    cases h
    rw [Bool.and_eq_true, List.all_eq_true] at hji
    obtain ⟨hvis, hrn⟩ := fidsByVid_sound hfs
    obtain ⟨hnd, hlen, -⟩ := indexedRows_eq_some hpr
    exact ⟨⟨hnd, hji.2, hvis, hrn⟩, hlen⟩
  · cases h

theorem mem_vidsOf {fids : List (Nat × Nat)} {fid vid : Nat} : vid ∈ vidsOf fids fid ↔
    (vid, fid) ∈ fids := by
  unfold vidsOf
  rw [List.mem_map]
  constructor
  · rintro ⟨⟨v, f⟩, hen, rfl⟩
    rw [mem_filter, decide_eq_true_eq] at hen
    obtain ⟨hmem, rfl⟩ := hen
    exact hmem
  · intro hen
    exact ⟨(vid, fid), mem_filter.2 ⟨hen, decide_eq_true rfl⟩, rfl⟩

/-- The VLAN of an FDB id is its only one, or the id itself where a profile takes an id
without VLANs for a VLAN, or unknown. -/
theorem resolveFdbVlan_cases (profile : PortProfile) (fid : Nat) (vids : List Nat) :
    (∃ vid, vids = [vid] ∧ profile.resolveFdbVlan fid vids = (vidKey vid, some vid)) ∨
      (vids = [] ∧ profile.fidIsVid = true ∧ fid ≤ 4094 ∧
        profile.resolveFdbVlan fid vids = (vidKey fid, some fid)) ∨
      profile.resolveFdbVlan fid vids = (fidKey fid, none) := by
  unfold PortProfile.resolveFdbVlan
  split
  · rename_i vid
    exact .inl ⟨vid, rfl, rfl⟩
  · split
    · rename_i hvid
      exact .inr (.inl ⟨rfl, hvid.1, hvid.2, rfl⟩)
    · exact .inr (.inr rfl)
  · exact .inr (.inr rfl)

theorem fdbIndex_eq_some {index : Oid} {fid : Nat} {mac : Text} (h : fdbIndex index = some (fid, mac)) :
    ∃ octets, index = fid :: octets ∧ (0 < fid ∧ fid ≤ max32) ∧ normalizeMac octets = some mac := by
  unfold fdbIndex at h
  split at h
  · rename_i f octets
    split at h
    · rename_i hrn
      obtain ⟨m, hm, heq⟩ := map_eq_some_iff.1 h
      cases heq
      exact ⟨octets, rfl, hrn, hm⟩
    · cases h
  · cases h

theorem locateRow_eq_some {profile : PortProfile} {bridge : List (Nat × Nat)} {ports : List SwitchPort}
    (normal : NormalPorts bridge ports) {mode : FdbMode} {portRow statusRow : VarBind}
    {resolution : PortResolution}
    {status : Text}
    (h : locateRow profile (tablesOf bridge ports) mode portRow statusRow =
    some (resolution, status)) :
    resolution.Good ∧ status ∈ SwitchStore.fdbStatuses := by
  unfold locateRow at h
  obtain ⟨raw, hraw, h⟩ := bind_eq_some_iff.1 h
  obtain ⟨r, hr, h⟩ := bind_eq_some_iff.1 h
  obtain ⟨s, hs, h⟩ := bind_eq_some_iff.1 h
  cases h
  exact ⟨good_resolveFdbPort normal (integer_range hraw) hr, fdbStatus_mem hs⟩

namespace QbridgeRows

variable (rows : QbridgeRows) (profile : PortProfile) (tables : PortTables)

def IsLocated (row : Oid × VarBind) : Prop :=
  ∃ statusRow, rows.statusRows.lookup row.1 = some statusRow ∧
    (locateRow profile tables .qbridge row.2 statusRow).isSome = true

/-- An address has good rows under two FDB ids, of which one has the other for its only
VLAN, and the other has none and is taken for a VLAN. -/
def Collides : Prop :=
  profile.fidIsVid = true ∧ ∃ fid vid octets portRow portRow',
      (fid :: octets, portRow) ∈ rows.portRows ∧ (vid :: octets, portRow') ∈ rows.portRows ∧ fid ≠ vid ∧
        vidsOf rows.fids fid = [vid] ∧ vidsOf rows.fids vid = [] ∧
        rows.IsLocated profile tables (fid :: octets, portRow) ∧
          rows.IsLocated profile tables (vid :: octets, portRow')

variable {rows profile tables}

theorem qbridgeEntry_eq_some {row : Oid × VarBind} {entry : SwitchFdbEntry}
    (h : qbridgeEntry profile tables rows.fids rows.statusRows row = some entry) :
    ∃ fid octets mac resolution status, row.1 = fid :: octets ∧ (0 < fid ∧ fid ≤ max32) ∧
      normalizeMac octets = some mac ∧ rows.IsLocated profile tables row ∧
      (∃ statusRow, locateRow profile tables .qbridge row.2 statusRow = some (resolution, status)) ∧
      entry = resolution.fdbEntry (some fid)
        (profile.resolveFdbVlan fid (vidsOf rows.fids fid)) mac status := by
  unfold qbridgeEntry at h
  obtain ⟨⟨fid, mac⟩, hidx, h⟩ := bind_eq_some_iff.1 h
  obtain ⟨statusRow, hst, h⟩ := bind_eq_some_iff.1 h
  obtain ⟨⟨resolution, status⟩, hlc, h⟩ := bind_eq_some_iff.1 h
  cases h
  obtain ⟨octets, hoct, hrn, hmac⟩ := fdbIndex_eq_some hidx
  refine ⟨fid, octets, mac, resolution, status, hoct, hrn, hmac, ⟨statusRow, hst, ?_⟩, ⟨statusRow, hlc⟩, rfl⟩
  rw [hlc]
  rfl

theorem exists_qbridgeEntry {fid : Nat} {octets : List Nat} {portRow : VarBind} {mac : Text}
    (hrn : 0 < fid ∧ fid ≤ max32) (hmac : normalizeMac octets = some mac)
    (h : rows.IsLocated profile tables (fid :: octets, portRow)) :
    ∃ entry, qbridgeEntry profile tables rows.fids rows.statusRows (fid :: octets, portRow) =
      some entry ∧
      entry.key = ((profile.resolveFdbVlan fid (vidsOf rows.fids fid)).1, mac) := by
  obtain ⟨statusRow, hst, hlocate⟩ := h
  obtain ⟨⟨resolution, status⟩, hlc⟩ := isSome_iff_exists.1 hlocate
  have hidx : fdbIndex (fid :: octets) = some (fid, mac) := by
    change (if 0 < fid ∧ fid ≤ max32 then _ else _) = _
    rw [if_pos hrn, hmac]
    rfl
  refine ⟨resolution.fdbEntry (some fid) (profile.resolveFdbVlan fid (vidsOf rows.fids fid)) mac status, ?_, rfl⟩
  unfold qbridgeEntry
  rw [hidx]
  change (List.lookup (fid :: octets) rows.statusRows).bind _ = _
  rw [hst]
  change (locateRow profile tables .qbridge portRow statusRow).bind _ = _
  rw [hlc]
  rfl

theorem mem_sortByIndex {β : Type} {items : List (Oid × β)} {row : Oid × β} :
    row ∈ sortByIndex items ↔ row ∈ items :=
  Dict.mem_sortBy

theorem nodup_sortByIndex {β : Type} {items : List (Oid × β)} (h : (items.map Prod.fst).Nodup) :
    (sortByIndex items).Nodup :=
  (Dict.sortBy_perm _ _).nodup_iff.2 (Nodup.of_map Prod.fst h)

theorem collides_of_vid (sound : rows.Sound) {a b : Oid × VarBind} (ha : a ∈ rows.portRows)
    (hb : b ∈ rows.portRows)
    {f g v : Nat} {octets : List Nat} (hai : a.1 = f :: octets) (hbi : b.1 = g :: octets) (hne : f ≠ g)
    (hla : rows.IsLocated profile tables a) (hlb : rows.IsLocated profile tables b)
    (hv : vidsOf rows.fids f = [v])
    (hkey : (profile.resolveFdbVlan g (vidsOf rows.fids g)).1 = vidKey v) :
    rows.Collides profile tables := by
  have hmem : (v, f) ∈ rows.fids := mem_vidsOf.1 (by rw [hv]; exact mem_singleton_self v)
  rcases resolveFdbVlan_cases profile g (vidsOf rows.fids g) with ⟨w, hw, heq⟩ | ⟨hnn, hvid, hle, heq⟩ | heq
  · -- a VLAN has one FDB id
    rw [heq] at hkey
    obtain rfl : w = v := vidKey_injective hkey
    have hmem' : (w, g) ∈ rows.fids := mem_vidsOf.1 (by rw [hw]; exact mem_singleton_self w)
    have hsm := (lookup_of_mem sound.vids hmem).symm.trans (lookup_of_mem sound.vids hmem')
    exact absurd (Option.some.inj hsm) hne
  · rw [heq] at hkey
    obtain rfl : g = v := vidKey_injective hkey
    obtain ⟨ai, ar⟩ := a
    obtain ⟨bi, br⟩ := b
    dsimp only at hai hbi
    subst hai hbi
    exact ⟨hvid, f, g, octets, ar, br, ha, hb, hne, hv, hnn, hla, hlb⟩
  · rw [heq] at hkey
    exact absurd hkey.symm (vidKey_ne_fidKey v g)

theorem nodup_entries_iff (sound : rows.Sound) :
    ((rows.entries profile tables).map SwitchFdbEntry.key).Nodup ↔ ¬rows.Collides profile tables := by
  unfold entries
  rw [nodup_filterMap_iff (nodup_sortByIndex sound.nodup)]
  constructor
  · rintro hds ⟨hfid, fid, vid, octets, portRow, portRow', hrow, hrow', hne, hvis, hnn, hlc, hlc'⟩
    obtain ⟨⟨f, mac⟩, hidx⟩ := isSome_iff_exists.1 (sound.joined _ hrow)
    obtain ⟨⟨g, mac'⟩, hidx'⟩ := isSome_iff_exists.1 (sound.joined _ hrow')
    obtain ⟨_, heq, hrn, hmac⟩ := fdbIndex_eq_some hidx
    obtain ⟨_, heq', hrn', hmac'⟩ := fdbIndex_eq_some hidx'
    cases heq
    cases heq'
    obtain rfl : mac = mac' := Option.some.inj (hmac.symm.trans hmac')
    obtain ⟨x, hx, hxke⟩ := exists_qbridgeEntry hrn hmac hlc
    obtain ⟨y, hy, hyke⟩ := exists_qbridgeEntry hrn' hmac' hlc'
    have hvid : 1 ≤ vid ∧ vid ≤ 4094 :=
      sound.range (vid, fid) (mem_vidsOf.1 (by rw [hvis]; exact mem_singleton_self vid))
    have hfl : profile.resolveFdbVlan vid [] = (vidKey vid, some vid) := if_pos ⟨hfid, hvid.2⟩
    apply hds _ (mem_sortByIndex.2 hrow) _ (mem_sortByIndex.2 hrow') _ x hx y hy
    · rw [hxke, hyke, hvis, hnn, hfl]
      rfl
    · intro hsm
      exact hne (List.cons.inj (congrArg Prod.fst hsm)).1
  · intro hno a ha b hb hne x hx y hy hkey
    rw [mem_sortByIndex] at ha hb
    obtain ⟨f, octets, mac, resolution, status, hai, -, hmac, hla, -, rfl⟩ := qbridgeEntry_eq_some hx
    obtain ⟨g, octets', mac', resolution', status', hbi, -, hmac', hlb, -, rfl⟩ := qbridgeEntry_eq_some hy
    obtain ⟨hvl, hsm⟩ := Prod.mk.inj hkey
    change mac = mac' at hsm
    subst hsm
    obtain rfl : octets = octets' := normalizeMac_injective hmac hmac'
    have hind : a.1 ≠ b.1 := by
      intro heq
      apply hne
      have hla := lookup_of_mem sound.nodup (show (a.1, a.2) ∈ _ from ha)
      have hlb := lookup_of_mem sound.nodup (show (b.1, b.2) ∈ _ from hb)
      rw [← heq, hla] at hlb
      exact Prod.ext heq (Option.some.inj hlb)
    have hfg : f ≠ g := by
      rintro rfl
      exact hind (hai.trans hbi.symm)
    dsimp only [PortResolution.fdbEntry] at hvl
    rcases resolveFdbVlan_cases profile f (vidsOf rows.fids f) with ⟨v, hv, heq⟩ | ⟨-, hvid, hle, heq⟩ | heq
    · rw [heq] at hvl
      exact hno (collides_of_vid sound ha hb hai hbi hfg hla hlb hv hvl.symm)
    · rcases resolveFdbVlan_cases profile g (vidsOf rows.fids g) with ⟨w, hw, heq'⟩ | ⟨-, -, -, heq'⟩ | heq'
      · rw [heq'] at hvl
        exact hno (collides_of_vid sound hb ha hbi hai hfg.symm hlb hla hw hvl)
      · rw [heq, heq'] at hvl
        exact hfg (vidKey_injective hvl)
      · rw [heq, heq'] at hvl
        exact vidKey_ne_fidKey f g hvl
    · rcases resolveFdbVlan_cases profile g (vidsOf rows.fids g) with ⟨w, hw, heq'⟩ | ⟨-, -, -, heq'⟩ | heq'
      · rw [heq'] at hvl
        exact hno (collides_of_vid sound hb ha hbi hai hfg.symm hlb hla hw hvl)
      · rw [heq, heq'] at hvl
        exact vidKey_ne_fidKey g f hvl.symm
      · rw [heq, heq'] at hvl
        exact hfg (Decimal.render_injective (append_cancel_left hvl))

theorem valid_entries {bridge : List (Nat × Nat)} {ports : List SwitchPort}
    (normal : NormalPorts bridge ports)
    (sound : rows.Sound) {entry : SwitchFdbEntry}
    (h : entry ∈ rows.entries profile (tablesOf bridge ports)) :
    validFdbEntry entry = true := by
  obtain ⟨row, -, hrow⟩ := mem_filterMap.1 h
  obtain ⟨fid, octets, mac, resolution, status, -, hfid, hmac, -, ⟨statusRow, hlc⟩, rfl⟩ :=
    qbridgeEntry_eq_some hrow
  obtain ⟨hgo, hst⟩ := locateRow_eq_some normal hlc
  have hvl := validMac_of_normalizeMac hmac
  rcases resolveFdbVlan_cases profile fid (vidsOf rows.fids fid) with ⟨vid, hvid, heq⟩ | ⟨-, -, hle, heq⟩ | heq
  · rw [heq]
    apply validFdbEntry_vid hgo hvl hst hfid
    exact sound.range (vid, fid) (mem_vidsOf.1 (by rw [hvid]; exact mem_singleton_self vid))
  · rw [heq]
    exact validFdbEntry_vid hgo hvl hst hfid ⟨hfid.1, hle⟩
  · rw [heq]
    exact validFdbEntry_fid hgo hvl hst hfid

end QbridgeRows

theorem legacyMac_eq_some {row : Oid × VarBind} {mac : Text} (h : legacyMac row = some mac) :
    normalizeMac row.1 = some mac := by
  unfold legacyMac at h
  obtain ⟨m, hm, h⟩ := bind_eq_some_iff.1 h
  obtain ⟨data, -, h⟩ := bind_eq_some_iff.1 h
  obtain ⟨address, -, h⟩ := bind_eq_some_iff.1 h
  split at h
  · cases h
    exact hm
  · cases h

theorem legacyEntry_eq_some {profile : PortProfile} {tables : PortTables}
    {portRows statusRows : List (Oid × VarBind)}
    {row : Oid × VarBind} {entry : SwitchFdbEntry}
    (h : legacyEntry profile tables portRows statusRows row = some entry) :
    ∃ mac resolution status portRow statusRow, normalizeMac row.1 = some mac ∧
      locateRow profile tables .legacy portRow statusRow = some (resolution, status) ∧
      entry = resolution.fdbEntry none ("legacy:unknown", none) mac status := by
  unfold legacyEntry at h
  obtain ⟨mac, hmac, h⟩ := bind_eq_some_iff.1 h
  obtain ⟨portRow, -, h⟩ := bind_eq_some_iff.1 h
  obtain ⟨statusRow, -, h⟩ := bind_eq_some_iff.1 h
  obtain ⟨⟨resolution, status⟩, hlc, h⟩ := bind_eq_some_iff.1 h
  cases h
  exact ⟨mac, resolution, status, portRow, statusRow, legacyMac_eq_some hmac, hlc, rfl⟩

structure GoodFdb (entries : List SwitchFdbEntry) : Prop where
  valid : ∀ entry ∈ entries, validFdbEntry entry = true
  keys : (entries.map SwitchFdbEntry.key).Nodup

theorem goodFdb_nil : GoodFdb [] := ⟨fun _ h => absurd h not_mem_nil, nodup_nil⟩

theorem goodFdb_legacy {profile : PortProfile} {bridge : List (Nat × Nat)} {ports : List SwitchPort}
    (normal : NormalPorts bridge ports) {address port status : Answer} {entries : List SwitchFdbEntry}
    (h : parseLegacyFdb profile (tablesOf bridge ports) address port status = some entries) :
      GoodFdb entries := by
  unfold parseLegacyFdb at h
  obtain ⟨addresses, hadd, h⟩ := bind_eq_some_iff.1 h
  obtain ⟨portRows, -, h⟩ := bind_eq_some_iff.1 h
  obtain ⟨statusRows, -, h⟩ := bind_eq_some_iff.1 h
  obtain ⟨parsed, hps, h⟩ := bind_eq_some_iff.1 h
  split at h
  · cases h
    obtain ⟨rfl, -⟩ := mapM_option hps
    have hnd := (indexedRows_eq_some hadd).1
    constructor
    · intro entry hen
      obtain ⟨row, -, hrow⟩ := mem_filterMap.1 hen
      obtain ⟨mac, resolution, status, portRow, statusRow, hmac, hlc, rfl⟩ := legacyEntry_eq_some hrow
      obtain ⟨hgo, hst⟩ := locateRow_eq_some normal hlc
      exact validFdbEntry_legacy hgo (validMac_of_normalizeMac hmac) hst
    · rw [nodup_filterMap_iff (QbridgeRows.nodup_sortByIndex hnd)]
      intro a ha b hb hne x hx y hy hkey
      rw [QbridgeRows.mem_sortByIndex] at ha hb
      obtain ⟨mac, _, _, _, _, hmac, -, rfl⟩ := legacyEntry_eq_some hx
      obtain ⟨mac', _, _, _, _, hmac', -, rfl⟩ := legacyEntry_eq_some hy
      have hsm : mac = mac' := (Prod.mk.inj hkey).2
      subst hsm
      have hidx := normalizeMac_injective hmac hmac'
      have hla := lookup_of_mem hnd (show (a.1, a.2) ∈ _ from ha)
      have hlb := lookup_of_mem hnd (show (b.1, b.2) ∈ _ from hb)
      rw [← hidx, hla] at hlb
      exact hne (Prod.ext hidx (Option.some.inj hlb))
  · cases h

end WebOvpn.Snmp
