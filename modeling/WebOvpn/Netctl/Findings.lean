/-
Findings about the identity of assets: the conflicts that the current rows show, and
what a recomputation makes of the findings that are stored.
-/
import Mathlib.Data.Finset.Card
import WebOvpn.Lib.Codes
import WebOvpn.Lib.JsonText
import WebOvpn.Lib.Keyed
import WebOvpn.Lib.Rows
import WebOvpn.Lib.Sorted

namespace WebOvpn.Findings

open List

inductive IdentityMethod where
  | macSeed
  | provisionalLegacy
  | manual
  deriving DecidableEq

/-- The columns of a row of `assets`. -/
structure Asset where
  id : Nat
  assetKey : Text
  identityMethod : IdentityMethod

/-- The columns of a row of `asset_interfaces`. -/
structure AssetInterface where
  assetId : Nat
  interfaceKey : Text
  mac : Option Text

/-- The columns of a row of `ip_observations`. -/
structure IpObservation where
  assetId : Nat
  site : Text
  ip : Text
  isCurrent : Bool
  observationSource : Text

structure CurrentRows where
  assets : List Asset
  interfaces : List AssetInterface
  observations : List IpObservation

inductive Status where
  | opened
  | acknowledged
  | resolved
  deriving DecidableEq

/-- A row of `runtime_identity_findings`. -/
structure Finding where
  findingKey : Text
  findingType : Text
  severity : Text
  status : Status
  assetId : Option Nat
  sourceId : Option Nat
  firstSeenAt : Text
  lastSeenAt : Text
  detailsJson : Text

abbrev FindingTable := Keyed Finding.findingKey

/-- The arguments of `_upsert_finding`. -/
structure Report where
  findingKey : Text
  findingType : Text
  severity : Text
  assetId : Option Nat
  sourceId : Option Nat
  details : Members

def canonicalJson (details : Members) : Text := encodePlain (sortKeys (.obj details))

/-- The row of a report: a new one, or what `DO UPDATE SET` makes of the one that is there. -/
def Report.row (report : Report) (observedAt : Text) (existing : Option Finding) : Finding :=
  { findingKey := report.findingKey
    findingType := report.findingType
    severity := report.severity
    status := match existing with
      | none => .opened
      | some existing => if existing.status = .resolved then .opened else existing.status
    assetId := report.assetId
    sourceId := report.sourceId
    firstSeenAt := (existing.map Finding.firstSeenAt).getD observedAt
    lastSeenAt := observedAt
    detailsJson := canonicalJson report.details }

def upsertFinding (observedAt : Text) (findings : FindingTable) (report : Report) :
    FindingTable × Bool :=
  let existing := findings.find report.findingKey
  (findings.put (report.row observedAt existing), existing.all fun existing => existing.status = .resolved)

def collectorHost : Text := "collector_host"

def CurrentRows.current (rows : CurrentRows) : List IpObservation :=
  rows.observations.filter fun observation => observation.observationSource = collectorHost ∧
    observation.isCurrent

/-- `SELECT DISTINCT site … AND trim(site) != '' ORDER BY site`. -/
def CurrentRows.sitesOf (rows : CurrentRows) (assetId : Nat) : List Text :=
  sortedBy id ((rows.current.filter fun observation =>
    observation.assetId = assetId ∧
      observation.site.any fun c => c ≠ CodePoint.ofChar ' ').map IpObservation.site).dedup

def CurrentRows.seeds (rows : CurrentRows) : List (Nat × Text) :=
  (rows.assets.filter fun asset => asset.identityMethod = .macSeed).flatMap fun asset =>
    (rows.interfaces.filter fun interface =>
      interface.assetId = asset.id ∧ interface.interfaceKey = asset.assetKey).filterMap fun interface =>
        interface.mac.map (asset.id, ·)

/-- `mac_collision_rows`: the groups of the join with more than one site. -/
def CurrentRows.macCollisions (rows : CurrentRows) : List (Nat × Text) :=
  (sortedBy toLex rows.seeds.dedup).filter fun seed => 1 < (rows.sitesOf seed.1).length

/-- `SELECT DISTINCT asset_id … ORDER BY asset_id`. -/
def CurrentRows.assetsOf (rows : CurrentRows) (ip : Text) : List Nat :=
  sortedBy id ((rows.current.filter fun observation => observation.ip = ip).map IpObservation.assetId).dedup

def CurrentRows.duplicateIps (rows : CurrentRows) : List Text :=
  (sortedBy id (rows.current.map IpObservation.ip).dedup).filter fun ip => 1 < (rows.assetsOf ip).length

def macIdentityCollision : Text := "mac_identity_collision"

def duplicateCurrentIp : Text := "duplicate_current_ip"

def macCollisionReport (rows : CurrentRows) (seed : Nat × Text) : Report :=
  { findingKey := text "mac-site-collision:" ++ (Decimal.render seed.1 ++ text ":" ++ seed.2)
    findingType := macIdentityCollision
    severity := "warning"
    assetId := some seed.1
    sourceId := none
    details := [("asset_id", .int seed.1), ("mac", .str seed.2),
      ("sites", .arr ((rows.sitesOf seed.1).map .str))] }

def duplicateIpReport (rows : CurrentRows) (ip : Text) : Report :=
  { findingKey := text "duplicate-current-ip:" ++ ip
    findingType := duplicateCurrentIp
    severity := "warning"
    assetId := none
    sourceId := none
    details := [("asset_ids", .arr ((rows.assetsOf ip).map fun assetId => .int assetId)), ("ip", .str ip)] }

def CurrentRows.reports (rows : CurrentRows) : List Report :=
  rows.macCollisions.map (macCollisionReport rows) ++ rows.duplicateIps.map (duplicateIpReport rows)

/-- `finding_type IN ('mac_identity_collision', 'duplicate_current_ip') AND status != 'resolved'`. -/
def Finding.isPending (finding : Finding) : Bool :=
  (finding.findingType = macIdentityCollision || finding.findingType = duplicateCurrentIp) &&
    finding.status ≠ .resolved

/-- `SET status = 'resolved', last_seen_at = ?`. -/
def Finding.resolve (observedAt : Text) (finding : Finding) : Finding :=
  { finding with status := .resolved, lastSeenAt := observedAt }

def Finding.resolveStale (stale : List Text) (observedAt : Text) (finding : Finding) : Finding :=
  if finding.findingKey ∈ stale then finding.resolve observedAt else finding

theorem key_resolveStale (stale : List Text) (observedAt : Text) (finding : Finding) :
    (finding.resolveStale stale observedAt).findingKey = finding.findingKey := by
  unfold Finding.resolveStale
  split_ifs <;> rfl

structure Counts where
  active : Nat
  opened : Nat
  pending : Nat
  resolved : Nat

def upsertAll (observedAt : Text) (findings : FindingTable) (reports : List Report) :
    FindingTable × Nat :=
  reports.foldl (fun s report =>
    let upserted := upsertFinding observedAt s.1 report
    (upserted.1, s.2 + upserted.2.toNat)) (findings, 0)

def staleKeys (findings : FindingTable) (reports : List Report) : List Text :=
  (findings.rows.filter fun finding =>
    finding.isPending && finding.findingKey ∉ reports.map Report.findingKey).map Finding.findingKey

def recomputeRuntimeIdentityFindings (rows : CurrentRows) (findings : FindingTable) (observedAt : Text) :
    FindingTable × Counts :=
  let upserted := upsertAll observedAt findings rows.reports
  let stale := staleKeys upserted.1 rows.reports
  let resolved := upserted.1.map (Finding.resolveStale stale observedAt) (key_resolveStale stale observedAt)
  (resolved,
    { active := (rows.reports.map Report.findingKey).dedup.length
      opened := upserted.2
      pending := (resolved.rows.filter fun finding => finding.status = .opened).length
      resolved := stale.length })

inductive Conflict where
  | macCollision (assetId : Nat) (mac : Text)
  | duplicateIp (ip : Text)

def Conflict.report (rows : CurrentRows) : Conflict → Report
  | .macCollision assetId mac => macCollisionReport rows (assetId, mac)
  | .duplicateIp ip => duplicateIpReport rows ip

def Conflict.key : Conflict → Text
  | .macCollision assetId mac =>
    text "mac-site-collision:" ++ (Decimal.render assetId ++ text ":" ++ mac)
  | .duplicateIp ip => text "duplicate-current-ip:" ++ ip

def IpObservation.HasSite (observation : IpObservation) : Prop :=
  observation.site.any (fun c => c ≠ ' ') = true

/-- The current rows show the conflict: one hardware address at two sites, or one address of two
assets. -/
def Present (rows : CurrentRows) : Conflict → Prop
  | .macCollision assetId mac =>
    (∃ asset ∈ rows.assets, asset.id = assetId ∧ asset.identityMethod = .macSeed ∧
      ∃ interface ∈ rows.interfaces, interface.assetId = assetId ∧
        interface.interfaceKey = asset.assetKey ∧
        interface.mac = some mac) ∧
    ∃ first ∈ rows.current, ∃ second ∈ rows.current, first.assetId = assetId ∧ second.assetId = assetId ∧
      first.HasSite ∧ second.HasSite ∧ first.site ≠ second.site
  | .duplicateIp ip =>
    ∃ first ∈ rows.current, ∃ second ∈ rows.current, first.ip = ip ∧ second.ip = ip ∧
      first.assetId ≠ second.assetId

variable {rows : CurrentRows} {findings : FindingTable} {conflict other : Conflict}
    {report : Report} {k : Text}
  {observedAt : Text}

theorem key_report : (conflict.report rows).findingKey = conflict.key := by
  cases conflict <;> rfl

theorem colon_notMem_render (n : Nat) : CodePoint.ofChar ':' ∉ Decimal.render n := by
  intro h
  have := Decimal.isDigit_of_mem_render h
  revert this
  decide

theorem key_injective (h : conflict.key = other.key) : conflict = other := by
  cases conflict with
  | macCollision assetId mac =>
    cases other with
    | macCollision assetId' mac' =>
      have hres := append_cancel_left h
      rw [append_assoc, append_assoc] at hres
      obtain ⟨hid, hmac⟩ := append_cons_inj (colon_notMem_render _) (colon_notMem_render _) hres
      have hmac : mac = mac' := hmac
      rw [Decimal.render_injective hid, hmac]
    | duplicateIp ip =>
      have hhea : some (CodePoint.ofChar 'm') = some (CodePoint.ofChar 'd') := congrArg List.head? h
      exact absurd hhea (by decide)
  | duplicateIp ip =>
    cases other with
    | macCollision assetId mac =>
      have hhea : some (CodePoint.ofChar 'd') = some (CodePoint.ofChar 'm') := congrArg List.head? h
      exact absurd hhea (by decide)
    | duplicateIp ip' => rw [append_cancel_left h]

theorem one_lt_length_distinct {α : Type} [LinearOrder α] [DecidableEq α] {items : List α} :
    1 < (sortedBy id items.dedup).length ↔ ∃ first ∈ items, ∃ second ∈ items, first ≠ second := by
  rw [length_sortedBy, ← card_toFinset, Finset.one_lt_card]
  simp only [mem_toFinset]

theorem mem_seeds {seed : Nat × Text} : seed ∈ rows.seeds ↔
    ∃ asset ∈ rows.assets, asset.id = seed.1 ∧ asset.identityMethod = .macSeed ∧
      ∃ interface ∈ rows.interfaces, interface.assetId = seed.1 ∧
        interface.interfaceKey = asset.assetKey ∧
        interface.mac = some seed.2 := by
  unfold CurrentRows.seeds
  simp only [mem_flatMap, mem_filter, mem_filterMap, decide_eq_true_eq, Option.map_eq_some_iff]
  constructor
  · rintro ⟨asset, ⟨hass, hmt⟩, interface, ⟨hint, hid, hkey⟩, mac, hmac, rfl⟩
    exact ⟨asset, hass, rfl, hmt, interface, hint, hid, hkey, hmac⟩
  · rintro ⟨asset, hass, hid, hmt, interface, hint, hass', hkey, hmac⟩
    exact ⟨asset, ⟨hass, hmt⟩, interface, ⟨hint, hass'.trans hid.symm, hkey⟩, seed.2, hmac,
      Prod.ext hid rfl⟩

theorem mem_macCollisions {seed : Nat × Text} :
    seed ∈ rows.macCollisions ↔ Present rows (.macCollision seed.1 seed.2) := by
  unfold CurrentRows.macCollisions CurrentRows.sitesOf
  rw [mem_filter, mem_sortedBy, mem_dedup, mem_seeds, decide_eq_true_iff, one_lt_length_distinct]
  apply and_congr_right'
  simp only [mem_map, mem_filter, decide_eq_true_eq]
  constructor
  · rintro ⟨_, ⟨first, ⟨hfs, hid, hsit⟩, rfl⟩, _, ⟨second, ⟨hsn, hid', hsit'⟩, rfl⟩, hne⟩
    exact ⟨first, hfs, second, hsn, hid, hid', hsit, hsit', hne⟩
  · rintro ⟨first, hfs, second, hsn, hid, hid', hsit, hsit', hne⟩
    exact ⟨_, ⟨first, ⟨hfs, hid, hsit⟩, rfl⟩, _, ⟨second, ⟨hsn, hid', hsit'⟩, rfl⟩, hne⟩

theorem mem_duplicateIps {ip : Text} : ip ∈ rows.duplicateIps ↔ Present rows (.duplicateIp ip) := by
  unfold CurrentRows.duplicateIps CurrentRows.assetsOf
  rw [mem_filter, mem_sortedBy, mem_dedup, decide_eq_true_iff, one_lt_length_distinct]
  simp only [mem_map, mem_filter, decide_eq_true_eq]
  constructor
  · rintro ⟨-, _, ⟨first, ⟨hfs, hip⟩, rfl⟩, _, ⟨second, ⟨hsn, hip'⟩, rfl⟩, hne⟩
    exact ⟨first, hfs, second, hsn, hip, hip', hne⟩
  · rintro ⟨first, hfs, second, hsn, hip, hip', hne⟩
    exact ⟨⟨first, hfs, hip⟩, _, ⟨first, ⟨hfs, hip⟩, rfl⟩, _, ⟨second, ⟨hsn, hip'⟩, rfl⟩, hne⟩

theorem mem_reports : report ∈ rows.reports ↔ ∃ conflict, Present rows conflict ∧
    report = conflict.report rows := by
  unfold CurrentRows.reports
  rw [mem_append, mem_map, mem_map]
  constructor
  · rintro (⟨seed, hse, rfl⟩ | ⟨ip, hip, rfl⟩)
    · exact ⟨.macCollision seed.1 seed.2, mem_macCollisions.1 hse, rfl⟩
    · exact ⟨.duplicateIp ip, mem_duplicateIps.1 hip, rfl⟩
  · rintro ⟨conflict, hpr, rfl⟩
    cases conflict with
    | macCollision assetId mac => exact .inl ⟨(assetId, mac), mem_macCollisions.2 hpr, rfl⟩
    | duplicateIp ip => exact .inr ⟨ip, mem_duplicateIps.2 hpr, rfl⟩

theorem nodup_reports : (rows.reports.map Report.findingKey).Nodup := by
  have hcn : (rows.reports.map Report.findingKey) =
      ((rows.macCollisions.map fun seed => Conflict.macCollision seed.1 seed.2) ++
        rows.duplicateIps.map Conflict.duplicateIp).map Conflict.key := by
    unfold CurrentRows.reports
    simp only [map_append, map_map]
    rfl
  rw [hcn]
  apply Nodup.map_on fun conflict _ other _ h => key_injective h
  apply Nodup.append
  · refine Nodup.map ?_ (((sortedBy_perm _ _).nodup_iff.2 (nodup_dedup _)).filter _)
    intro seed seed' h
    obtain ⟨hid, hmac⟩ := Conflict.macCollision.inj h
    exact Prod.ext hid hmac
  · refine Nodup.map ?_ (((sortedBy_perm _ _).nodup_iff.2 (nodup_dedup _)).filter _)
    intro ip ip' h
    cases h
    rfl
  · intro conflict hlf hrg
    obtain ⟨seed, -, rfl⟩ := mem_map.1 hlf
    obtain ⟨ip, -, heq⟩ := mem_map.1 hrg
    cases heq

theorem find_upsertAll (reports : List Report) : (upsertAll observedAt findings reports).1.find k =
    replay Report.findingKey (fun report existing => some (report.row observedAt existing)) reports
      findings.find k := by
  unfold upsertAll
  generalize 0 = opened
  induction reports generalizing findings opened with
  | nil => rfl
  | cons report reports ih =>
    rw [foldl_cons, ih]
    have hfn : (upsertFinding observedAt findings report).1.find =
      Function.update findings.find report.findingKey
        (some (report.row observedAt (findings.find report.findingKey))) := by
      funext k
      change (findings.put (report.row observedAt _)).find k = _
      rw [Keyed.find_put, Function.update_apply]
      exact if_congr eq_comm rfl rfl
    exact congrArg (fun find => replay _ _ reports find k) hfn

theorem mem_staleKeys {reports : List Report} : k ∈ staleKeys findings reports ↔
    (∃ finding, findings.find k = some finding ∧ finding.isPending = true) ∧
      k ∉ reports.map Report.findingKey := by
  unfold staleKeys
  simp only [mem_map, mem_filter, Bool.and_eq_true, decide_eq_true_eq]
  constructor
  · rintro ⟨finding, ⟨hfn, hpn, hact⟩, rfl⟩
    exact ⟨⟨finding, Keyed.mem_iff_find.1 hfn, hpn⟩, hact⟩
  · rintro ⟨⟨finding, hfind, hpn⟩, hact⟩
    obtain ⟨hfn, rfl⟩ := Keyed.find_eq_some_iff.1 hfind
    exact ⟨finding, ⟨hfn, hpn, hact⟩, rfl⟩

abbrev recomputed (rows : CurrentRows) (findings : FindingTable) (observedAt : Text) : FindingTable :=
  (recomputeRuntimeIdentityFindings rows findings observedAt).1

theorem find_recomputed : (recomputed rows findings observedAt).find k =
    ((upsertAll observedAt findings rows.reports).1.find k).map
      (Finding.resolveStale (staleKeys (upsertAll observedAt findings rows.reports).1 rows.reports)
        observedAt) :=
  Keyed.find_map (key_resolveStale _ _)

theorem find_of_present (h : Present rows conflict) :
    (recomputed rows findings observedAt).find conflict.key =
    some ((conflict.report rows).row observedAt (findings.find conflict.key)) := by
  have hrp : conflict.report rows ∈ rows.reports := mem_reports.2 ⟨conflict, h, rfl⟩
  have hups : (upsertAll observedAt findings rows.reports).1.find conflict.key =
      some ((conflict.report rows).row observedAt (findings.find conflict.key)) := by
    rw [find_upsertAll, ← @key_report rows conflict]
    exact replay_of_mem nodup_reports hrp
  have hact : conflict.key ∉ staleKeys (upsertAll observedAt findings rows.reports).1 rows.reports := by
    intro hst
    exact (mem_staleKeys.1 hst).2 (mem_map.2 ⟨_, hrp, key_report⟩)
  rw [find_recomputed, hups, Option.map_some]
  unfold Finding.resolveStale
  rw [if_neg]
  change (conflict.report rows).findingKey ∉ _
  rw [key_report]
  exact hact

theorem find_of_absent (h : ∀ conflict, Present rows conflict → conflict.key ≠ k) :
    (recomputed rows findings observedAt).find k =
      (findings.find k).map fun finding => if finding.isPending then finding.resolve observedAt
        else finding := by
  have hrepo : ∀ report ∈ rows.reports, report.findingKey ≠ k := by
    intro report hrp
    obtain ⟨conflict, hpr, rfl⟩ := mem_reports.1 hrp
    rw [key_report]
    exact h conflict hpr
  have hups : (upsertAll observedAt findings rows.reports).1.find k = findings.find k := by
    rw [find_upsertAll]
    exact replay_of_not_mem hrepo
  have hst : k ∈ staleKeys (upsertAll observedAt findings rows.reports).1 rows.reports ↔
      ∃ finding, findings.find k = some finding ∧ finding.isPending = true := by
    rw [mem_staleKeys, hups]
    apply and_iff_left
    intro hmem
    obtain ⟨report, hrp, hkey⟩ := mem_map.1 hmem
    exact hrepo report hrp hkey
  rw [find_recomputed, hups]
  cases hfn : findings.find k with
  | none => rfl
  | some finding =>
    rw [Option.map_some, Option.map_some]
    unfold Finding.resolveStale
    rw [Keyed.key_of_find hfn]
    apply congrArg some
    apply if_congr _ rfl rfl
    rw [hst, hfn]
    exact ⟨fun ⟨other, heq, hpn⟩ => Option.some.inj heq ▸ hpn, fun hpn => ⟨finding, rfl, hpn⟩⟩

structure Finding.IsOf (finding : Finding) (report : Report) : Prop where
  findingKey : finding.findingKey = report.findingKey
  findingType : finding.findingType = report.findingType
  severity : finding.severity = report.severity
  assetId : finding.assetId = report.assetId
  sourceId : finding.sourceId = report.sourceId
  detailsJson : finding.detailsJson = canonicalJson report.details

structure Mirrors (rows : CurrentRows) (findings : FindingTable) : Prop where
  sound : ∀ finding ∈ findings.rows, finding.isPending = true →
    ∃ conflict, Present rows conflict ∧ finding.IsOf (conflict.report rows)
  complete : ∀ conflict, Present rows conflict →
    ∃ finding ∈ findings.rows, finding.isPending = true ∧ finding.IsOf (conflict.report rows)

def statusOf (findings : FindingTable) (key : Text) : Option Status :=
  (findings.find key).map Finding.status

theorem isOf_row {existing : Option Finding} : (report.row observedAt existing).IsOf report :=
  ⟨rfl, rfl, rfl, rfl, rfl, rfl⟩

theorem isPending_row {existing : Option Finding} :
    ((conflict.report rows).row observedAt existing).isPending = true := by
  unfold Finding.isPending
  rw [Bool.and_eq_true]
  constructor
  · cases conflict
    · exact Bool.or_eq_true_iff.2 (.inl (decide_eq_true rfl))
    · exact Bool.or_eq_true_iff.2 (.inr (decide_eq_true rfl))
  · apply decide_eq_true
    unfold Report.row
    cases existing with
    | none => nofun
    | some existing =>
      dsimp only
      split_ifs with h
      · nofun
      · exact h

theorem recomputed_mirrors (rows : CurrentRows) (findings : FindingTable) (observedAt : Text) :
    Mirrors rows (recomputed rows findings observedAt) := by
  constructor
  · intro finding hfindi hpn
    have hfn := Keyed.mem_iff_find.1 hfindi
    by_cases h : ∃ conflict, Present rows conflict ∧ conflict.key = finding.findingKey
    · obtain ⟨conflict, hpr, hkey⟩ := h
      rw [← hkey, find_of_present hpr] at hfn
      exact ⟨conflict, hpr, Option.some.inj hfn ▸ isOf_row⟩
    · have habs : ∀ conflict, Present rows conflict → conflict.key ≠ finding.findingKey :=
        fun conflict hpr hkey =>
        h ⟨conflict, hpr, hkey⟩
      rw [find_of_absent habs] at hfn
      obtain ⟨old, -, rfl⟩ := Option.map_eq_some_iff.1 hfn
      split_ifs at hpn with hold
      · unfold Finding.isPending Finding.resolve at hpn
        simp at hpn
      · exact absurd hpn hold
  · intro conflict hpr
    have hfn := @find_of_present rows findings conflict observedAt hpr
    exact ⟨_, (Keyed.find_eq_some_iff.1 hfn).1, isPending_row, isOf_row⟩

/-- What a recomputation makes of the status of a conflict that is present. -/
def nextStatus : Option Status → Status
  | some .acknowledged => .acknowledged
  | _ => .opened

theorem statusOf_of_present (h : Present rows conflict) :
    statusOf (recomputed rows findings observedAt) conflict.key =
      some (nextStatus (statusOf findings conflict.key)) := by
  unfold statusOf
  rw [find_of_present h, Option.map_some]
  apply congrArg some
  unfold Report.row
  cases findings.find conflict.key with
  | none => rfl
  | some existing =>
    dsimp only
    rw [Option.map_some]
    cases existing.status <;> rfl

theorem nextStatus_nextStatus (status : Option Status) :
    nextStatus (some (nextStatus status)) = nextStatus status := by
  rcases status with _ | _ | _ | _ <;> rfl

theorem statusOf_again (rows : CurrentRows) (findings : FindingTable) (observedAt later key : Text) :
    statusOf (recomputed rows (recomputed rows findings observedAt) later) key =
      statusOf (recomputed rows findings observedAt) key := by
  by_cases h : ∃ conflict, Present rows conflict ∧ conflict.key = key
  · obtain ⟨conflict, hpr, rfl⟩ := h
    rw [statusOf_of_present hpr, statusOf_of_present hpr, nextStatus_nextStatus]
  · have habs : ∀ conflict, Present rows conflict → conflict.key ≠ key := fun conflict hpr hkey =>
      h ⟨conflict, hpr, hkey⟩
    unfold statusOf
    rw [find_of_absent habs, Option.map_map]
    cases hfn : (recomputed rows findings observedAt).find key with
    | none => rfl
    | some finding =>
      have hrs : finding.isPending = false := by
        rw [← Bool.not_eq_true]
        intro hpn
        obtain ⟨hmem, hkey⟩ := Keyed.find_eq_some_iff.1 hfn
        obtain ⟨conflict, hpr, hof⟩ := (recomputed_mirrors rows findings observedAt).sound finding hmem hpn
        exact habs conflict hpr (key_report.symm.trans (hof.findingKey.symm.trans hkey))
      rw [Option.map_some, Option.map_some, Function.comp_apply, hrs]
      rfl

/-- Recomputations one after another, each over its own rows at its own time. -/
def recomputeAll (findings : FindingTable) (snapshots : List (CurrentRows × Text)) : FindingTable :=
  snapshots.foldl (fun findings snapshot => recomputed snapshot.1 findings snapshot.2) findings

theorem acknowledged_recomputeAll {snapshots : List (CurrentRows × Text)}
    (hpr : ∀ snapshot ∈ snapshots, Present snapshot.1 conflict)
    (h : statusOf findings conflict.key = some .acknowledged) :
    statusOf (recomputeAll findings snapshots) conflict.key = some .acknowledged := by
  induction snapshots generalizing findings with
  | nil => exact h
  | cons snapshot snapshots ih =>
    apply ih fun later hlt => hpr later (mem_cons_of_mem _ hlt)
    rw [statusOf_of_present (hpr snapshot mem_cons_self), h]
    rfl

/-- Findings mirror the conflicts: after a recomputation those that are not resolved are exactly the
conflicts of the rows; an acknowledgement lasts as long as the conflict is present, a resolved finding is
opened when its conflict returns, and the same rows change no status again. -/
theorem findings_mirror_conflicts (findings : FindingTable) (rows : CurrentRows) (observedAt : Text) :
    Mirrors rows (recomputed rows findings observedAt) ∧
      (∀ conflict snapshots, (∀ snapshot ∈ snapshots, Present snapshot.1 conflict) →
        statusOf findings conflict.key = some .acknowledged →
        statusOf (recomputeAll findings snapshots) conflict.key = some .acknowledged) ∧
      (∀ conflict, Present rows conflict → statusOf findings conflict.key = some .resolved →
        statusOf (recomputed rows findings observedAt) conflict.key = some .opened) ∧
      ∀ later key, statusOf (recomputed rows (recomputed rows findings observedAt) later) key =
        statusOf (recomputed rows findings observedAt) key := by
  refine ⟨recomputed_mirrors rows findings observedAt, ?_, ?_, ?_⟩
  · intro conflict snapshots hpr h
    exact acknowledged_recomputeAll hpr h
  · intro conflict hpr h
    rw [statusOf_of_present hpr, h]
    rfl
  · intro later key
    exact statusOf_again rows findings observedAt later key

end WebOvpn.Findings
