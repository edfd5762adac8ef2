/-
What retention is to delete: every deletion takes the rows that were selected at the
start, and which references restrict it.
-/
import WebOvpn.Lib.Listing
import WebOvpn.Netctl.Retention

namespace WebOvpn.Retention

open Pruning List

def expiredSample (cutoffs : List (Int × Text)) (sample : Row) : Bool :=
  cutoffs.any fun cutoff => expiredBy cutoff sample

def expiredSampleIds (cutoffs : List (Int × Text)) (rows : Tables Table Row) : Finset Int :=
  (((rows .switchPortCounterSamples).filter (expiredSample cutoffs)).map Row.id).toFinset

def protectedIds (cutoffs : List (Int × Text)) (rows : Tables Table Row) : Table → Finset Int
  | .nmapFingerprintRuns => protectedNmapRunIds rows
  | .collectionRuns => latestCollectionRunIds rows
  | .switchCollectionRuns => protectedSwitchRunIds rows (expiredSampleIds cutoffs rows)
  | .networkCorrelationRuns => protectedCorrelationRunIds rows
  | .routerPathFactRuns => protectedPathFactRunIds rows
  | .availabilityRuns => protectedAvailabilityRunIds rows
  | _ => ∅

def timeOf : Table → Row → Option Text
  | .switchFdbEvents | .switchLinkEvents | .assetAttachmentEvents | .hostObservations
  | .availabilityResultEvents => (·.text .observedAt)
  | .networkEvents => (·.text .ts)
  | _ => Row.ended

/-- The tables whose rows are selected by age. -/
def agedTables : List Table :=
  [.nmapFingerprintRuns, .switchFdbEvents, .switchLinkEvents, .assetAttachmentEvents, .hostObservations,
    .networkEvents, .availabilityResultEvents, .collectionRuns, .switchCollectionRuns, .networkCorrelationRuns,
    .routerPathFactRuns, .availabilityRuns]

def isAged (cutoff : Text) (cutoffs : List (Int × Text)) (rows : Tables Table Row) (table : Table)
    (row : Row) : Bool :=
  older cutoff (timeOf table row) && row.id ∉ protectedIds cutoffs rows table

def outdated (cutoff : Text) (cutoffs : List (Int × Text)) (rows : Tables Table Row) : Table → Row → Bool
  | .switchPortCounterSamples, row => expiredSample cutoffs row
  | .nmapFingerprintPorts, row | .nmapFingerprintOsMatches, row =>
    (rows .nmapFingerprintRuns).any fun run =>
      isAged cutoff cutoffs rows .nmapFingerprintRuns run && row.int .runId = some run.id
  | .ipObservations, row | .hostnameObservations, row => isStale cutoff row
  | table, row => decide (table ∈ agedTables) && isAged cutoff cutoffs rows table row

def sweptTables : List Table :=
  [.switchPortCounterSamples, .nmapFingerprintPorts, .nmapFingerprintOsMatches, .nmapFingerprintRuns,
    .switchFdbEvents, .switchLinkEvents, .assetAttachmentEvents, .hostObservations, .networkEvents,
    .availabilityResultEvents, .ipObservations, .hostnameObservations, .collectionRuns, .switchCollectionRuns,
    .networkCorrelationRuns, .routerPathFactRuns, .availabilityRuns]

variable {p : Platform} {now : Instant} {cutoff : Text} {referenceTime : Option Text}
    {cutoffs : List (Int × Text)}
  {sources : List NetworkSource} {rows rows' : Tables Table Row} {table : Table} {row run : Row}
    {done : List Table}

theorem outdated_of_aged (h : table ∈ agedTables) :
    outdated cutoff cutoffs rows table row = isAged cutoff cutoffs rows table row := by
  cases table <;> first | (exfalso; revert h; decide) | simp [outdated, agedTables]

theorem outdated_of_notMem (h : table ∉ sweptTables) :
    outdated cutoff cutoffs rows table row = false := by
  cases table <;> first | (exfalso; revert h; decide) | simp [outdated, agedTables]

theorem sweptTables_childrenFirst : ChildrenFirst references sweptTables :=
  ⟨by decide, by decide, by decide⟩

theorem latestRunIds_congr {group : Column} {statuses : List String} (h : rows' table = rows table) :
    latestRunIds rows' table group statuses = latestRunIds rows table group statuses := by
  unfold latestRunIds
  rw [h]

variable {tables : List Table} {reference : Text}

theorem currentRunIds_congr {column : IntColumn} (h : ∀ t ∈ tables, rows' t = rows t) :
    currentRunIds rows' tables column = currentRunIds rows tables column := by
  unfold currentRunIds
  rw [flatMap_congr fun t ht => by rw [h t ht]]

theorem protectedNmapRunIds_congr (hrs : rows' .nmapFingerprintRuns = rows .nmapFingerprintRuns)
    (hips : rows' .ipObservations = rows .ipObservations) :
      protectedNmapRunIds rows' = protectedNmapRunIds rows := by
  unfold protectedNmapRunIds runningNmapRunIds latestCurrentNmapRunIds isTargeted
  rw [hrs, hips]

def readTables : Table → List Table
  | .nmapFingerprintRuns => [.nmapFingerprintRuns, .ipObservations]
  | .collectionRuns => [.collectionRuns]
  | .switchCollectionRuns => .switchCollectionRuns :: switchCurrentTables
  | .networkCorrelationRuns => .networkCorrelationRuns :: correlationCurrentTables
  | .routerPathFactRuns => .routerPathFactRuns :: pathCurrentTables
  | .availabilityRuns => [.availabilityRuns, .availabilityResults]
  | _ => []

/-- The samples that stay keep their runs, whether the others are left out of the
selection or deleted. -/
theorem protectedSwitchRunIds_congr {ids ids' : Finset Int}
    (hra : ∀ t ∈ readTables .switchCollectionRuns, rows' t = rows t)
    (hsm : ((rows' .switchPortCounterSamples).filter fun sample => sample.id ∉ ids') =
      (rows .switchPortCounterSamples).filter fun sample => sample.id ∉ ids) :
    protectedSwitchRunIds rows' ids' = protectedSwitchRunIds rows ids := by
  obtain ⟨hrs, hcur⟩ := forall_mem_cons.1 hra
  unfold protectedSwitchRunIds
  rw [hsm, latestRunIds_congr hrs, currentRunIds_congr hcur]

theorem protectedIds_congr (hra : ∀ t ∈ readTables table, rows' t = rows t)
    (hswi : table ≠ .switchCollectionRuns) :
    protectedIds cutoffs rows' table = protectedIds cutoffs rows table := by
  cases table <;> try rfl
  case nmapFingerprintRuns =>
    exact protectedNmapRunIds_congr (hra _ (by decide)) (hra _ (by decide))
  case collectionRuns => exact latestRunIds_congr (hra _ (by decide))
  case switchCollectionRuns => exact absurd rfl hswi
  case networkCorrelationRuns =>
    obtain ⟨hrs, hcur⟩ := forall_mem_cons.1 hra
    exact congrArg₂ (· ∪ ·) (currentRunIds_congr hcur) (latestRunIds_congr hrs)
  case routerPathFactRuns =>
    obtain ⟨hrs, hcur⟩ := forall_mem_cons.1 hra
    exact congrArg₂ (· ∪ ·) (currentRunIds_congr hcur) (latestRunIds_congr hrs)
  case availabilityRuns =>
    obtain ⟨hrs, hcur⟩ := forall_mem_cons.1 hra
    exact congrArg₂ (· ∪ ·) (currentRunIds_congr hcur) (latestRunIds_congr hrs)

theorem mem_ids_iff {q : Row → Bool} {items : List Row} (hids : (items.map Row.id).Nodup)
    (hrow : row ∈ items) :
    row.id ∈ (items.filter q).map Row.id ↔ q row = true := by
  constructor
  · intro h
    obtain ⟨other, hot, hid⟩ := mem_map.1 h
    obtain ⟨hmem, hq⟩ := mem_filter.1 hot
    rwa [← inj_on_of_nodup_map hids hmem hrow hid]
  · intro hq
    exact mem_map_of_mem (mem_filter.2 ⟨hrow, hq⟩)

theorem filter_notMem_expired (hids : ((rows .switchPortCounterSamples).map Row.id).Nodup) :
    ((rows .switchPortCounterSamples).filter fun sample => sample.id ∉ expiredSampleIds cutoffs rows) =
      (rows .switchPortCounterSamples).filter fun sample => !expiredSample cutoffs sample := by
  apply filter_congr
  intro sample hsm
  have hiff : sample.id ∈ expiredSampleIds cutoffs rows ↔ expiredSample cutoffs sample = true := by
    rw [expiredSampleIds, mem_toFinset]
    exact mem_ids_iff hids hsm
  simp [hiff]

theorem flatMap_filter_perm {κ : Type} {alternatives : List κ} {meets : κ → Row → Bool}
    {items : List Row}
    (hone : alternatives.Pairwise fun a b => ∀ row, ¬ (meets a row = true ∧ meets b row = true)) :
    (alternatives.flatMap fun a => items.filter (meets a)).Perm
      (items.filter fun row => alternatives.any fun a => meets a row) := by
  induction alternatives with
  | nil => simp
  | cons a rest ih =>
    obtain ⟨hher, hrs⟩ := pairwise_cons.1 hone
    have hsp := filter_append_perm (meets a) (items.filter fun row => (a :: rest).any fun b => meets b row)
    have hlf : (items.filter fun row => (a :: rest).any fun b => meets b row).filter (meets a) =
        items.filter (meets a) := by
      rw [filter_filter]
      apply filter_congr
      intro row _
      cases h : meets a row <;> simp [h]
    have hrg : (items.filter fun row => (a :: rest).any fun b => meets b row).filter (fun row => !meets a row) =
        items.filter fun row => rest.any fun b => meets b row := by
      rw [filter_filter]
      apply filter_congr
      intro row _
      cases h : meets a row with
      | false => simp [h]
      | true =>
        have hnn : rest.any (fun b => meets b row) = false := by
          rw [any_eq_false]
          intro b hb hmee
          exact hher b hb row ⟨h, hmee⟩
        simp [hnn]
    rw [hlf, hrg] at hsp
    exact ((ih hrs).append_left _).trans hsp

def agedIds (cutoff : Text) (cutoffs : List (Int × Text)) (rows : Tables Table Row)
    (table : Table) : List Int :=
  ((rows table).filter (isAged cutoff cutoffs rows table)).map Row.id

def childIds (rows : Tables Table Row) (table : Table) (runIds : List Int) : List Int :=
  sortedBy id (((rows table).filter fun row => (row.int .runId).any (· ∈ runIds)).map Row.id)

def sampleIds (cutoffs : List (Int × Text)) (rows : Tables Table Row) : List Int :=
  sortedBy id (cutoffs.flatMap fun cutoff =>
    ((rows .switchPortCounterSamples).filter (expiredBy cutoff)).map Row.id)

/-- The statements that select have few enough variables. -/
structure Selectable (p : Platform) (cutoff : Text) (cutoffs : List (Int × Text))
    (rows : Tables Table Row) : Prop where
  aged : ∀ table ∈ agedTables, (protectedIds cutoffs rows table).card + 1 ≤ p.maxVariables
  nmapRuns : (agedIds cutoff cutoffs rows .nmapFingerprintRuns).length ≤ p.maxVariables

theorem oldIds_eq (h : (protectedIds cutoffs rows table).card + 1 ≤ p.maxVariables) :
    oldIds p rows table (timeOf table) cutoff (protectedIds cutoffs rows table) =
      some (agedIds cutoff cutoffs rows table) :=
  if_pos h

theorem counterSampleIds_eq (h : sourceCutoffs p sources reference = some cutoffs) :
    counterSampleIds p sources rows reference = some (sampleIds cutoffs rows) := by
  rw [counterSampleIds, h]
  rfl

theorem map_fst_of_sourceCutoffs (h : sourceCutoffs p sources reference = some cutoffs) :
    cutoffs.map Prod.fst =
      (sortedBy (·.id) (sources.filter fun source => source.driver = text "snmp_switch")).map
        (·.id) := by
  obtain ⟨parsed, -, hcs⟩ := Option.bind_eq_some_iff.1 h
  have hids : Forall₂ (fun cutoff id => cutoff = id) (cutoffs.map Prod.fst)
      ((sortedBy (·.id) (sources.filter fun source => source.driver = text "snmp_switch")).map (·.id)) := by
    rw [forall₂_map_left_iff, forall₂_map_right_iff]
    refine (mapM_eq_some_iff.1 hcs).flip.imp ?_
    intro cutoff source hsrc
    obtain ⟨rawOptions, -, hsrc⟩ := Option.bind_eq_some_iff.1 hsrc
    obtain ⟨options, -, hsrc⟩ := Option.bind_eq_some_iff.1 hsrc
    obtain ⟨before, -, hsrc⟩ := Option.bind_eq_some_iff.1 hsrc
    rw [← Option.some.inj hsrc]
  rwa [forall₂_eq_eq_eq] at hids

theorem sampleIds_perm (hsr : (sources.map (·.id)).Nodup)
    (h : sourceCutoffs p sources reference = some cutoffs) :
    (sampleIds cutoffs rows).Perm
      (((rows .switchPortCounterSamples).filter (expiredSample cutoffs)).map Row.id) := by
  have hfs : (cutoffs.map Prod.fst).Nodup := by
    rw [map_fst_of_sourceCutoffs h]
    refine (((sortedBy_perm _ _).map _).nodup_iff).2 (hsr.sublist ?_)
    exact List.filter_sublist.map _
  have hone : cutoffs.Pairwise fun a b => ∀ row, ¬ (expiredBy a row = true ∧ expiredBy b row = true) := by
    refine (pairwise_map.1 hfs).imp ?_
    intro a b hne row hbot
    simp only [expiredBy, Bool.and_eq_true, decide_eq_true_eq] at hbot
    exact hne (Option.some.inj (hbot.1.1.symm.trans hbot.2.1))
  refine (sortedBy_perm _ _).trans ?_
  rw [← map_flatMap]
  exact (flatMap_filter_perm hone).map _

theorem toFinset_sampleIds (hsr : (sources.map (·.id)).Nodup)
    (h : sourceCutoffs p sources reference = some cutoffs) :
    (sampleIds cutoffs rows).toFinset = expiredSampleIds cutoffs rows :=
  toFinset_eq_of_perm _ _ (sampleIds_perm hsr h)

theorem childIds_perm (table : Table)
    (htb : table = .nmapFingerprintPorts ∨ table = .nmapFingerprintOsMatches) :
    (childIds rows table (agedIds cutoff cutoffs rows .nmapFingerprintRuns)).Perm
      (((rows table).filter (outdated cutoff cutoffs rows table)).map Row.id) := by
  refine (sortedBy_perm _ _).trans (Perm.of_eq ?_)
  apply congrArg (List.map Row.id)
  apply filter_congr
  intro row _
  have hch : outdated cutoff cutoffs rows table row = (rows .nmapFingerprintRuns).any fun run =>
      isAged cutoff cutoffs rows .nmapFingerprintRuns run && row.int .runId = some run.id := by
    rcases htb with rfl | rfl <;> rfl
  rw [hch]
  apply Bool.eq_iff_iff.2
  simp only [Option.any_eq_true, decide_eq_true_eq, any_eq_true, Bool.and_eq_true]
  simp only [agedIds, mem_map, mem_filter]
  constructor
  · rintro ⟨_, hid, run, ⟨hrun, hage⟩, rfl⟩
    exact ⟨run, hrun, hage, hid⟩
  · rintro ⟨run, hrun, hage, hid⟩
    exact ⟨run.id, hid, run, ⟨hrun, hage⟩, rfl⟩

theorem agedIds_eq (h : table ∈ agedTables) :
    agedIds cutoff cutoffs rows table =
      ((rows table).filter (outdated cutoff cutoffs rows table)).map Row.id := by
  apply congrArg (List.map Row.id)
  apply filter_congr
  intro row _
  rw [outdated_of_aged h]

/-- The ids of the rows that go fit into one statement; the observations are
deleted without listing them. -/
def Fits (p : Platform) (gone : Table → Row → Bool) (rows : Tables Table Row) (table : Table) : Prop :=
  table ≠ .ipObservations → table ≠ .hostnameObservations → (rows table).countP (gone table) ≤ p.maxVariables

/-- In the tables that it finds, the statement takes the rows that go, and succeeds
if they fit. -/
def Takes (p : Platform) (gone : Table → Row → Bool) (rows : Tables Table Row)
    (statement : Statement Table Row)
    (found : Tables Table Row) : Prop :=
  Aims gone statement found ∧ (Succeeds statement found ↔ Fits p gone rows statement.table)

variable {gone : Table → Row → Bool}

theorem takes_deleteIds {select : Tables Table Row → Option (List Int)} {ids : List Int}
    (hids : ((rows table).map Row.id).Nodup) (hnew : table ∉ done)
    (hls : table ≠ .ipObservations ∧ table ≠ .hostnameObservations)
    (hsl : select (cleared gone done rows) = some ids)
    (hpr : ids.Perm (((rows table).filter (gone table)).map Row.id)) :
    Takes p gone rows (deleteIds p table select) (cleared gone done rows) := by
  have hgos : (deleteIds p table select).goes (cleared gone done rows) =
      if ids.length ≤ p.maxVariables then some fun row => decide (row.id ∈ ids) else none := by
    simp [deleteIds, hsl]
  have hlen : ids.length = (rows table).countP (gone table) := by
    rw [hpr.length_eq, length_map, countP_eq_length_filter]
  refine ⟨?_, ?_⟩
  · intro goes h row hrow
    change row ∈ cleared gone done rows table at hrow
    rw [cleared_of_notMem hnew] at hrow
    rw [hgos] at h
    split at h
    · rw [← Option.some.inj h]
      apply Bool.eq_iff_iff.2
      rw [decide_eq_true_eq, hpr.mem_iff]
      exact mem_ids_iff hids hrow
    · cases h
  · unfold Succeeds Fits
    rw [hgos, hlen]
    change _ ↔ (table ≠ _ → table ≠ _ → (rows table).countP (gone table) ≤ p.maxVariables)
    split <;> simp [*]

theorem takes_deleteStale (htb : table = .ipObservations ∨ table = .hostnameObservations) :
    Takes p (outdated cutoff cutoffs rows) rows (deleteStale table cutoff) rows' := by
  refine ⟨?_, ?_⟩
  · intro goes h row _
    rw [← Option.some.inj h]
    rcases htb with rfl | rfl <;> rfl
  · refine iff_of_true rfl ?_
    intro hip hhs
    exact absurd htb (not_or.2 ⟨hip, hhs⟩)

/-- A deletion by age, whose protected runs are the same as at the start. -/
theorem takes_aged (protectedNow : Tables Table Row → Finset Int) (hage : table ∈ agedTables)
    (hsl : Selectable p cutoff cutoffs rows) (hids : ((rows table).map Row.id).Nodup)
    (hnew : table ∉ done)
    (hpr : protectedNow (cleared (outdated cutoff cutoffs rows) done rows) =
      protectedIds cutoffs rows table) :
    Takes p (outdated cutoff cutoffs rows) rows
      (deleteIds p table fun found => oldIds p found table (timeOf table) cutoff (protectedNow found))
      (cleared (outdated cutoff cutoffs rows) done rows) := by
  refine takes_deleteIds hids hnew ?_ (?_ : _ = some (agedIds cutoff cutoffs rows table))
    (Perm.of_eq (agedIds_eq hage))
  · constructor <;> rintro rfl <;> revert hage <;> decide
  · rw [hpr, ← oldIds_eq (hsl.aged table hage)]
    unfold oldIds
    rw [cleared_of_notMem hnew]

def plan (p : Platform) (sources : List NetworkSource) (reference cutoff : Text)
    (nmapRunIds : List Int) :
    List (Statement Table Row) :=
  deleteIds p .switchPortCounterSamples (fun rows => counterSampleIds p sources rows reference) ::
    deletions p cutoff nmapRunIds

theorem plan_tables {nmapRunIds : List Int} :
    (plan p sources reference cutoff nmapRunIds).map (·.table) = sweptTables := rfl

theorem unswept (h : ∀ t ∈ tables, t ∉ done) :
    ∀ t ∈ tables, cleared gone done rows t = rows t :=
  fun t ht => cleared_of_notMem (h t ht)

/-- The tables of the first deletions, the last one first. -/
def sweptBefore (count : Nat) : List Table := (sweptTables.take count).reverse

theorem takes_children (hsl : Selectable p cutoff cutoffs rows) (hids : ((rows table).map Row.id).Nodup)
    (htb : table = .nmapFingerprintPorts ∨ table = .nmapFingerprintOsMatches) (hnew : table ∉ done) :
    Takes p (outdated cutoff cutoffs rows) rows (deleteIds p table fun found =>
        childIdsForRuns p found table (agedIds cutoff cutoffs rows .nmapFingerprintRuns))
      (cleared (outdated cutoff cutoffs rows) done rows) := by
  refine takes_deleteIds hids hnew ?_ ?_ (childIds_perm table htb)
  · rcases htb with rfl | rfl <;> decide
  · unfold childIdsForRuns
    rw [cleared_of_notMem hnew, if_pos hsl.nmapRuns]
    rfl

/-- The samples that are gone by now do not protect runs, as they were left out at
the start. -/
theorem takes_switchRuns (db : Database) (hsl : Selectable p cutoff cutoffs db.rows) :
    Takes p (outdated cutoff cutoffs db.rows) db.rows (deleteIds p .switchCollectionRuns fun found =>
        oldIds p found .switchCollectionRuns Row.ended cutoff (protectedSwitchRunIds found ∅))
      (cleared (outdated cutoff cutoffs db.rows) (sweptBefore 13) db.rows) := by
  refine takes_aged (fun found => protectedSwitchRunIds found ∅) (by decide) hsl (db.ids _) (by decide)
    (protectedSwitchRunIds_congr (unswept (by decide)) ?_)
  have hsm : cleared (outdated cutoff cutoffs db.rows) (sweptBefore 13) db.rows .switchPortCounterSamples =
      (db.rows .switchPortCounterSamples).filter fun sample => !expiredSample cutoffs sample :=
    if_pos (by decide)
  rw [hsm, filter_notMem_expired (db.ids _)]
  simp

/-- Every deletion takes the rows that go: what its selection reads is not changed by
the deletions before it, but for the samples, which were left out already. -/
theorem plan_takes (db : Database) (hcs : sourceCutoffs p db.sources reference = some cutoffs)
    (hsl : Selectable p cutoff cutoffs db.rows) :
    Each (outdated cutoff cutoffs db.rows) (Takes p (outdated cutoff cutoffs db.rows) db.rows)
      (plan p db.sources reference cutoff (agedIds cutoff cutoffs db.rows .nmapFingerprintRuns))
        db.rows := by
  have hage (t : Table) (count : Nat) (h : t ∈ agedTables ∧ t ∉ sweptBefore count ∧
      (∀ u ∈ readTables t, u ∉ sweptBefore count) ∧ t ≠ .switchCollectionRuns) :=
    takes_aged (fun found => protectedIds cutoffs found t) h.1 hsl (db.ids t) h.2.1
      (protectedIds_congr (unswept h.2.2.1) h.2.2.2)
  have hall : EachAfter (outdated cutoff cutoffs db.rows)
    (Takes p (outdated cutoff cutoffs db.rows) db.rows) db.rows []
      (plan p db.sources reference cutoff (agedIds cutoff cutoffs db.rows .nmapFingerprintRuns)) := by
    refine ⟨?samples, takes_children hsl (db.ids _) (.inl rfl) (by decide : _ ∉ sweptBefore 1),
      takes_children hsl (db.ids _) (.inr rfl) (by decide : _ ∉ sweptBefore 2), ?nmapRuns,
      hage .switchFdbEvents 4 (by decide), hage .switchLinkEvents 5 (by decide),
      hage .assetAttachmentEvents 6 (by decide), hage .hostObservations 7 (by decide),
      hage .networkEvents 8 (by decide), hage .availabilityResultEvents 9 (by decide),
      takes_deleteStale (.inl rfl), takes_deleteStale (.inr rfl),
        hage .collectionRuns 12 (by decide), takes_switchRuns db hsl,
      hage .networkCorrelationRuns 14 (by decide), hage .routerPathFactRuns 15 (by decide),
      hage .availabilityRuns 16 (by decide), trivial⟩
    case samples =>
      exact takes_deleteIds (db.ids _) not_mem_nil (by decide) (counterSampleIds_eq hcs)
        (sampleIds_perm db.sourceIds hcs)
    case nmapRuns =>
      exact takes_deleteIds (db.ids _) (by decide : Table.nmapFingerprintRuns ∉ sweptBefore 3) (by decide) rfl
        (Perm.of_eq (agedIds_eq (by decide)))
  have heac := hall.each
  rwa [cleared_nil] at heac

theorem mem_kept : row ∈ cleared (outdated cutoff cutoffs rows) sweptTables rows table ↔
    row ∈ rows table ∧ outdated cutoff cutoffs rows table row = false := by
  rw [mem_cleared]
  apply and_congr_right
  intro _
  constructor
  · intro h
    by_cases hin : table ∈ sweptTables
    · exact h hin
    · exact outdated_of_notMem hin
  · exact fun h _ => h

theorem mem_currentRunIds {column : IntColumn} {id : Int} (htb : table ∈ tables)
    (hrow : row ∈ rows table) (hid : row.int column = some id) :
      id ∈ currentRunIds rows tables column := by
  rw [currentRunIds, mem_toFinset, mem_flatMap]
  exact ⟨table, htb, mem_filterMap.2 ⟨row, hrow, hid⟩⟩

theorem notMem_protectedIds (table : Table) (hage : table ∈ agedTables)
    (hgn : outdated cutoff cutoffs rows table row = true) :
    row.id ∉ protectedIds cutoffs rows table := by
  rw [outdated_of_aged hage, isAged, Bool.and_eq_true, decide_eq_true_eq] at hgn
  exact hgn.2

theorem id_of_referringWithSource {child : Table} {target : Row}
    (h : (referringWithSource child).refers row target = true) :
      row.int .collectorRunId = some target.id := by
  simp only [referringWithSource, Bool.and_eq_true, decide_eq_true_eq] at h
  exact h.1.1

theorem child_goes {child : Row} (hgn : outdated cutoff cutoffs rows .nmapFingerprintRuns run = true)
    (hrun : run ∈ rows .nmapFingerprintRuns) (href : child.int .runId = some run.id) :
    outdated cutoff cutoffs rows .nmapFingerprintPorts child = true := by
  rw [outdated_of_aged (by decide)] at hgn
  refine any_eq_true.2 ⟨run, hrun, ?_⟩
  rw [hgn, Bool.true_and]
  exact decide_eq_true href

theorem protecting_refers (hids : ∀ t, ((rows t).map Row.id).Nodup) {ref : Reference Table Row}
    (href : ref ∈ protectingReferences) {parent child : Row} (hpr : parent ∈ rows ref.parent)
    (hgn : outdated cutoff cutoffs rows ref.parent parent = true)
    (hch : child ∈ cleared (outdated cutoff cutoffs rows) sweptTables rows ref.child) :
    ref.refers child parent = false := by
  obtain ⟨hch, hst⟩ := mem_kept.1 hch
  rw [Bool.eq_false_iff]
  intro hrefe
  simp only [protectingReferences, mem_append, mem_map, mem_cons, not_mem_nil, or_false] at href
  rcases href with (((⟨t, ht, rfl⟩ | rfl) | ⟨t, ht, rfl⟩) | ⟨t, ht, rfl⟩) | rfl | rfl | rfl
  · have hid := id_of_referringWithSource hrefe
    refine notMem_protectedIds .switchCollectionRuns (by decide) hgn ?_
    exact Finset.mem_union_left _ (Finset.mem_union_left _ (mem_currentRunIds ht hch hid))
  · have hid := id_of_referringWithSource hrefe
    refine notMem_protectedIds .switchCollectionRuns (by decide) hgn ?_
    refine Finset.mem_union_left _ (Finset.mem_union_right _ (mem_toFinset.2 ?_))
    rw [filter_notMem_expired (hids _)]
    refine mem_filterMap.2 ⟨child, mem_filter.2 ⟨hch, ?_⟩, hid⟩
    exact congrArg not hst
  · refine notMem_protectedIds .networkCorrelationRuns (by decide) hgn ?_
    exact Finset.mem_union_left _ (mem_currentRunIds ht hch (of_decide_eq_true hrefe))
  · refine notMem_protectedIds .routerPathFactRuns (by decide) hgn ?_
    exact Finset.mem_union_left _ (mem_currentRunIds ht hch (of_decide_eq_true hrefe))
  · refine notMem_protectedIds .availabilityRuns (by decide) hgn ?_
    exact Finset.mem_union_left _
      (mem_currentRunIds (mem_singleton.2 rfl) hch (of_decide_eq_true hrefe))
  · exact absurd (child_goes hgn hpr (of_decide_eq_true hrefe)) (ne_true_of_eq_false hst)
  · exact absurd (child_goes hgn hpr (of_decide_eq_true hrefe)) (ne_true_of_eq_false hst)

/-- Only the references that the selection of runs does not look at restrict a
deletion. -/
theorem unreferenced_iff (hids : ∀ t, ((rows t).map Row.id).Nodup) :
    Unreferenced references (outdated cutoff cutoffs rows) sweptTables rows ↔
      ∀ ref ∈ otherReferences, ∀ parent ∈ rows ref.parent,
        outdated cutoff cutoffs rows ref.parent parent = true →
        ∀ child ∈ rows ref.child, outdated cutoff cutoffs rows ref.child child = false →
          ref.refers child parent = false := by
  have hpare : ∀ ref ∈ otherReferences, ref.parent ∈ sweptTables := by decide
  constructor
  · intro h ref href parent hpr hgn child hch hst
    exact h ref (mem_append_right _ href) (hpare ref href) parent hpr hgn child
      (mem_kept.2 ⟨hch, hst⟩)
  · intro h ref href _ parent hpr hgn child hch
    rcases mem_append.1 href with hpo | hot
    · exact protecting_refers hids hpo hpr hgn hch
    · obtain ⟨hch, hst⟩ := mem_kept.1 hch
      exact h ref hot parent hpr hgn child hch hst

end WebOvpn.Retention
