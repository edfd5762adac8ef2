/-
The dry run of retention against its application: both agree, and a second application
finds nothing, unless something is in the way of a deletion.
-/
import WebOvpn.Lib.CalendarRoundTrip
import WebOvpn.Netctl.RetentionPlan

namespace WebOvpn.Retention

open Pruning List Option

variable {p : Platform} {now : Instant} {cutoff : Text} {referenceTime : Option Text}
    {cutoffs : List (Int × Text)}
  {sources : List NetworkSource} {rows rows' : Tables Table Row} {table : Table} {row run : Row}
    {done : List Table}

def reportTables : List Table :=
  eventTables.map Prod.fst ++
    [.switchPortCounterSamples, .nmapFingerprintPorts, .nmapFingerprintOsMatches, .nmapFingerprintRuns,
      .ipObservations, .hostnameObservations, .collectionRuns, .switchCollectionRuns, .networkCorrelationRuns,
      .routerPathFactRuns, .availabilityRuns]

theorem reportTables_perm : reportTables.Perm sweptTables := by decide

def countOf (counts : List (Table × Nat)) (table : Table) : Nat := (counts.lookup table).getD 0

variable {time : Row → Option Text} {q : Row → Bool}

theorem oldIds_eq_some_iff {kept : Finset Int} {ids : List Int} :
    oldIds p rows table time cutoff kept = some ids ↔ kept.card + 1 ≤ p.maxVariables ∧
      ids = ((rows table).filter fun row => older cutoff (time row) && row.id ∉ kept).map Row.id := by
  unfold oldIds
  split <;> simp [*, eq_comm]

theorem length_agedIds (h : table ∈ agedTables) :
    (agedIds cutoff cutoffs rows table).length =
      (rows table).countP (outdated cutoff cutoffs rows table) := by
  rw [agedIds_eq h, length_map, countP_eq_length_filter]

theorem childIds_length (htb : table = .nmapFingerprintPorts ∨ table = .nmapFingerprintOsMatches) :
    (childIds rows table (agedIds cutoff cutoffs rows .nmapFingerprintRuns)).length =
      (rows table).countP (outdated cutoff cutoffs rows table) := by
  rw [(childIds_perm table htb).length_eq, length_map, countP_eq_length_filter]

theorem events_eq (cutoffs : List (Int × Text)) {events : List (Table × Nat)}
    (h : (eventTables.mapM fun (table, column) =>
      (oldIds p rows table (·.text column) cutoff ∅).map fun ids => (table, ids.length)) = some events) :
    1 ≤ p.maxVariables ∧ events = eventTables.map fun event =>
      (event.1, (rows event.1).countP (outdated cutoff cutoffs rows event.1)) := by
  have hpi := mapM_eq_some_iff.1 h
  have hpl : ∀ event ∈ eventTables, event.1 ∈ agedTables ∧ timeOf event.1 = (·.text event.2) ∧
      protectedIds cutoffs rows event.1 = ∅ := by
    simp [eventTables, agedTables, timeOf, protectedIds]
  have hcn : Forall₂ (fun event count => 1 ≤ p.maxVariables ∧
      (event.1, (rows event.1).countP (outdated cutoff cutoffs rows event.1)) = count) eventTables events := by
    refine ((forall₂_and_left _ _).2 ⟨hpl, hpi⟩).imp ?_
    rintro event count ⟨⟨hage, htm, hnn⟩, hcnt⟩
    obtain ⟨ids, hids, rfl⟩ := map_eq_some_iff.1 hcnt
    obtain ⟨hfs, rfl⟩ := oldIds_eq_some_iff.1 hids
    refine ⟨by simpa using hfs, ?_⟩
    have hsl : isAged cutoff cutoffs rows event.1 =
        fun row => older cutoff (row.text event.2) && decide (row.id ∉ (∅ : Finset Int)) := by
      funext row
      rw [isAged, htm, hnn]
    rw [← length_agedIds hage, agedIds, hsl]
  refine ⟨?_, ?_⟩
  · obtain ⟨_, _, hft, -, -⟩ := forall₂_cons_left_iff.1 hcn
    exact hft.1
  · have hmap := forall₂_map_left_iff.2 (hcn.imp fun _ _ h => h.2)
    rw [forall₂_eq_eq_eq] at hmap
    exact hmap.symm

/-- What the dry run says when it returns, and what that tells of the statements. -/
theorem retentionReport_eq (db : Database) {report : RetentionReport}
    (h : retentionReport p now cutoff referenceTime db.sources db.rows = some report) :
    ∃ before reference cutoffs, validateCutoff cutoff = some before ∧
      retentionReference now referenceTime = some reference ∧
      sourceCutoffs p db.sources reference = some cutoffs ∧ Selectable p before cutoffs db.rows ∧
      report.delete =
        reportTables.map (fun t => (t, (db.rows t).countP (outdated before cutoffs db.rows t))) ∧
      report.keep = keepCounts db.rows := by
  obtain ⟨before, hbf, h⟩ := bind_eq_some_iff.1 h
  obtain ⟨reference, href, h⟩ := bind_eq_some_iff.1 h
  obtain ⟨samples, hsm, h⟩ := bind_eq_some_iff.1 h
  obtain ⟨cutoffs, hcs, -⟩ := bind_eq_some_iff.1 hsm
  rw [counterSampleIds_eq hcs] at hsm
  obtain rfl := Option.some.inj hsm
  rw [toFinset_sampleIds db.sourceIds hcs] at h
  obtain ⟨nmapRunIds, hnmap, h⟩ := bind_eq_some_iff.1 h
  obtain ⟨hnmapC, rfl⟩ := oldIds_eq_some_iff.1 hnmap
  obtain ⟨events, heve, h⟩ := bind_eq_some_iff.1 h
  obtain ⟨hone, rfl⟩ := events_eq cutoffs heve
  obtain ⟨portIds, hpr, h⟩ := bind_eq_some_iff.1 h
  obtain ⟨osMatchIds, hosM, h⟩ := bind_eq_some_iff.1 h
  obtain ⟨collectionIds, hcl, h⟩ := bind_eq_some_iff.1 h
  obtain ⟨hcoll, rfl⟩ := oldIds_eq_some_iff.1 hcl
  obtain ⟨switchIds, hswitch, h⟩ := bind_eq_some_iff.1 h
  obtain ⟨hswi, rfl⟩ := oldIds_eq_some_iff.1 hswitch
  obtain ⟨correlationIds, hcor, h⟩ := bind_eq_some_iff.1 h
  obtain ⟨hcorr, rfl⟩ := oldIds_eq_some_iff.1 hcor
  obtain ⟨pathIds, hpath, h⟩ := bind_eq_some_iff.1 h
  obtain ⟨hpt, rfl⟩ := oldIds_eq_some_iff.1 hpath
  obtain ⟨availabilityIds, hava, h⟩ := bind_eq_some_iff.1 h
  obtain ⟨havai, rfl⟩ := oldIds_eq_some_iff.1 hava
  obtain rfl := Option.some.inj h
  have hnma : (agedIds before cutoffs db.rows .nmapFingerprintRuns).length ≤ p.maxVariables := by
    unfold childIdsForRuns at hpr
    split at hpr
    · assumption
    · cases hpr
  obtain rfl : childIds db.rows .nmapFingerprintPorts _ = portIds :=
    Option.some.inj ((if_pos hnma).symm.trans hpr)
  obtain rfl : childIds db.rows .nmapFingerprintOsMatches _ = osMatchIds :=
    Option.some.inj ((if_pos hnma).symm.trans hosM)
  refine ⟨before, reference, cutoffs, hbf, href, hcs, ⟨?_, hnma⟩, ?_, rfl⟩
  · simp only [agedTables, forall_mem_cons, not_mem_nil, false_implies, implies_true, and_true]
    exact ⟨hnmapC, hone, hone, hone, hone, hone, hone, hcoll, hswi, hcorr, hpt,
      havai⟩
  · rw [reportTables, map_append, List.map_map]
    refine congrArg₂ (· ++ ·) rfl ?_
    have hsampl : (sampleIds cutoffs db.rows).length =
        (db.rows .switchPortCounterSamples).countP
          (outdated before cutoffs db.rows .switchPortCounterSamples) := by
      rw [(sampleIds_perm db.sourceIds hcs).length_eq, length_map, countP_eq_length_filter]
      rfl
    have hrs (t : Table) (ht : t ∈ agedTables) : (agedIds before cutoffs db.rows t).length =
        (db.rows t).countP (outdated before cutoffs db.rows t) := length_agedIds ht
    simp only [map_cons, map_nil, List.cons.injEq, Prod.mk.injEq, true_and, and_true]
    exact ⟨hsampl, childIds_length (.inl rfl), childIds_length (.inr rfl),
      hrs .nmapFingerprintRuns (by decide), rfl, rfl, hrs .collectionRuns (by decide),
      hrs .switchCollectionRuns (by decide), hrs .networkCorrelationRuns (by decide),
      hrs .routerPathFactRuns (by decide), hrs .availabilityRuns (by decide)⟩

theorem seconds_congr {s t : Instant} (hday : s.val / microsPerDay = t.val / microsPerDay)
    (hsn : s.val % microsPerDay / 1000000 = t.val % microsPerDay / 1000000) : s.seconds = t.seconds := by
  simp only [Instant.seconds, hday, hsn]

theorem exists_whole (t : Instant) : ∃ whole : Instant, whole.val % 1000000 = 0 ∧
    whole.seconds = t.seconds := by
  have hwho : t.val / 1000000 * 1000000 / 1000000 = t.val / 1000000 := Nat.mul_div_cancel _ (by decide)
  have hun : microsPerDay = 1000000 * 86400 := rfl
  refine ⟨⟨t.val / 1000000 * 1000000, (Nat.div_mul_le_self _ _).trans_lt t.isLt⟩, Nat.mul_mod_left _ _,
    seconds_congr ?_ ?_⟩
  · rw [hun, ← Nat.div_div_eq_div_mul, ← Nat.div_div_eq_div_mul]
    exact congrArg (· / 86400) hwho
  · rw [hun, Nat.mod_mul_right_div_self, Nat.mod_mul_right_div_self]
    exact congrArg (· % 86400) hwho

theorem withOffset_seconds (t : Instant) :
    withOffset (t.seconds ++ text "Z") = t.seconds ++ text "+00:00" := by
  have hnn : CodePoint.ofChar 'Z' ∉ t.seconds := t.seconds_not_mem (by decide) (by decide)
  unfold withOffset
  rw [flatMap_append]
  refine congrArg₂ (· ++ ·) ?_ rfl
  have hke : ∀ c ∈ t.seconds, (if c = CodePoint.ofChar 'Z' then text "+00:00" else [c]) = [c] := by
    intro c hc
    exact if_neg (ne_of_mem_of_not_mem hc hnn)
  rw [flatMap_congr hke, flatMap_singleton']

theorem validateCutoff_seconds (t : Instant) :
    validateCutoff (t.seconds ++ "Z") = some (t.seconds ++ "Z") := by
  obtain ⟨whole, hwho, hsc⟩ := exists_whole t
  unfold validateCutoff
  rw [withOffset_seconds, ← hsc]
  have hra := @fromisoformat_seconds [] whole (.inl ⟨rfl, hwho⟩)
  rw [append_nil] at hra
  rw [hra]
  rfl

theorem validateCutoff_validated {before : Text} (h : validateCutoff cutoff = some before) :
    validateCutoff before = some before := by
  obtain ⟨parsed, -, h⟩ := bind_eq_some_iff.1 h
  split at h
  · obtain rfl := Option.some.inj h
    exact validateCutoff_seconds parsed.wall
  · cases h

theorem retentionReference_validated {reference : Text}
    (h : retentionReference now referenceTime = some reference) :
    retentionReference now (some reference) = some reference := by
  cases referenceTime with
  | none =>
    obtain rfl := Option.some.inj h
    exact validateCutoff_seconds now
  | some value => exact validateCutoff_validated h

/-- The report that applying makes first is the one of the dry run. -/
theorem retentionReport_validated {before reference : Text} (hbf : validateCutoff cutoff = some before)
    (href : retentionReference now referenceTime = some reference) :
    retentionReport p now before (some reference) sources rows =
      retentionReport p now cutoff referenceTime sources rows := by
  unfold retentionReport
  rw [validateCutoff_validated hbf, retentionReference_validated href, hbf, href]

/-- Nothing is in the way of the deletions: their rows fit into the statements, and
no event that stays, and no port role, refers to a run that goes. -/
structure Unhindered (p : Platform) (gone : Table → Row → Bool) (rows : Tables Table Row) : Prop where
  fits : ∀ table, Fits p gone rows table
  unreferenced : ∀ ref ∈ otherReferences, ∀ parent ∈ rows ref.parent, gone ref.parent parent = true →
    ∀ child ∈ rows ref.child, gone ref.child child = false → ref.refers child parent = false

def kept (cutoff : Text) (cutoffs : List (Int × Text)) (rows : Tables Table Row) : Tables Table Row :=
  cleared (outdated cutoff cutoffs rows) sweptTables rows

section Applied

variable {db : Database} {report : RetentionReport} {before reference : Text}

theorem sweep_plan_isSome_iff (hcs : sourceCutoffs p db.sources reference = some cutoffs)
    (hsl : Selectable p before cutoffs db.rows) :
    (sweep references
      (plan p db.sources reference before (agedIds before cutoffs db.rows .nmapFingerprintRuns))
      db.rows).isSome ↔ Unhindered p (outdated before cutoffs db.rows) db.rows := by
  have htk := plan_takes db hcs hsl
  rw [sweep_isSome_iff sweptTables_childrenFirst (htk.imp fun _ _ h => h.1), plan_tables,
    unreferenced_iff db.ids,
    each_iff_forall (htk.imp fun _ _ h => h.2)]
  constructor
  · rintro ⟨hfs, hfr⟩
    refine ⟨?_, hfr⟩
    intro table
    by_cases hsw : table ∈ sweptTables
    · rw [← plan_tables] at hsw
      obtain ⟨statement, hst, rfl⟩ := List.mem_map.1 hsw
      exact hfs statement hst
    · intro _ _
      rw [countP_eq_zero.2 fun row _ => by simp [outdated_of_notMem hsw]]
      exact Nat.zero_le _
  · rintro ⟨hfs, hfr⟩
    exact ⟨fun statement _ => hfs statement.table, hfr⟩

theorem nmapRunIds_of_swept {first : List (Table × Nat) × Tables Table Row}
    (hcs : sourceCutoffs p db.sources reference = some cutoffs)
    (hsl : Selectable p before cutoffs db.rows)
    (hfs : sweep references
      [deleteIds p .switchPortCounterSamples fun rows =>
        counterSampleIds p db.sources rows reference] db.rows =
        some first) :
          oldIds p first.2 .nmapFingerprintRuns Row.ended before (protectedNmapRunIds first.2) =
      some (agedIds before cutoffs db.rows .nmapFingerprintRuns) := by
  have hais : Each (outdated before cutoffs db.rows) (Aims (outdated before cutoffs db.rows))
      [deleteIds p .switchPortCounterSamples fun rows => counterSampleIds p db.sources rows reference] db.rows :=
    ⟨(plan_takes db hcs hsl).1.1, trivial⟩
  have hrs : first.2 = cleared (outdated before cutoffs db.rows) [.switchPortCounterSamples] db.rows :=
    (sweep_result (by simp) hais hfs).2
  have hru : first.2 .nmapFingerprintRuns = db.rows .nmapFingerprintRuns := by
    rw [hrs]
    exact cleared_of_notMem (by decide)
  have hips : first.2 .ipObservations = db.rows .ipObservations := by
    rw [hrs]
    exact cleared_of_notMem (by decide)
  rw [protectedNmapRunIds_congr hru hips]
  unfold oldIds
  rw [hru]
  exact if_pos (hsl.aged .nmapFingerprintRuns (by decide))

theorem applyRetention_eq
    (hrp : retentionReport p now cutoff referenceTime db.sources db.rows = some report)
    (hbf : validateCutoff cutoff = some before)
    (href : retentionReference now referenceTime = some reference)
    (hcs : sourceCutoffs p db.sources reference = some cutoffs)
    (hsl : Selectable p before cutoffs db.rows) :
    applyRetention p now cutoff referenceTime db.sources db.rows =
      (sweep references
        (plan p db.sources reference before (agedIds before cutoffs db.rows .nmapFingerprintRuns))
        db.rows).bind fun swept =>
          if Sound references swept.2 then some (⟨swept.1, report.keep, (swept.1.map Prod.snd).sum⟩,
            swept.2)
          else none := by
  have hsp (ids : List Int) : plan p db.sources reference before ids =
      [deleteIds p .switchPortCounterSamples fun rows => counterSampleIds p db.sources rows reference] ++
        deletions p before ids := rfl
  rw [hsp, sweep_append, applyRetention, hbf, href]
  simp only [bind_eq_bind, bind_some, retentionReport_validated hbf href, hrp]
  cases hfs : sweep references
      [deleteIds p .switchPortCounterSamples fun rows =>
        counterSampleIds p db.sources rows reference] db.rows with
  | none => rfl
  | some first =>
    simp only [bind_some, nmapRunIds_of_swept hcs hsl hfs]
    cases sweep references
      (deletions p before (agedIds before cutoffs db.rows .nmapFingerprintRuns)) first.2 with
    | _ => rfl

end Applied

theorem isLatest_filter {items : List Row}
    (hids : (items.map Row.id).Nodup) (hrow : row ∈ items.filter q)
    (h : isLatest time items row.id = true) :
    isLatest time (items.filter q) row.id = true := by
  obtain ⟨latest, hlt, hid⟩ := map_eq_some_iff.1 (of_decide_eq_true h)
  have hmem := (mem_filter.1 hrow).1
  obtain rfl := inj_on_of_nodup_map hids (argmax_mem hlt) hmem hid
  cases hnow : (items.filter q).argmax (order time) with
  | none =>
    rw [argmax_eq_none.1 hnow] at hrow
    cases hrow
  | some now =>
    have hup := le_of_mem_argmax hrow hnow
    have hdow := le_of_mem_argmax (mem_of_mem_filter (argmax_mem hnow)) hlt
    have hsm := congrArg (fun key => (ofLex key).2) (le_antisymm hdow hup)
    rw [isLatest, hnow]
    exact decide_eq_true (congrArg some hsm)

theorem mem_latest_filter {items : List Row} {eligible eligible' : Row → Bool}
    {rival : Row → Row → Bool} (hids : (items.map Row.id).Nodup) (hrow : row ∈ items.filter q)
    (hsti : eligible row = true → eligible' row = true)
    (h : row.id ∈ (((items.filter eligible).filter fun run =>
      isLatest time (items.filter (rival run)) run.id).map Row.id).toFinset) :
    row.id ∈ ((((items.filter q).filter eligible').filter fun run =>
      isLatest time ((items.filter q).filter (rival run)) run.id).map Row.id).toFinset := by
  rw [List.mem_toFinset, List.filter_filter] at h
  obtain ⟨hmem, hq⟩ := mem_filter.1 hrow
  have hsl := (mem_ids_iff hids hmem).1 h
  rw [Bool.and_eq_true] at hsl
  obtain ⟨hlt, heli⟩ := hsl
  refine List.mem_toFinset.2 (List.mem_map_of_mem (mem_filter.2 ⟨mem_filter.2 ⟨hrow, hsti heli⟩, ?_⟩))
  have hswa : (items.filter q).filter (rival row) = (items.filter (rival row)).filter q := filter_comm ..
  rw [hswa]
  refine isLatest_filter (hids.sublist (List.filter_sublist.map _)) (mem_filter.2 ⟨?_, hq⟩) hlt
  -- the latest of the rivals has the id of the row, so the row is one of them
  obtain ⟨latest, harg, hid⟩ := map_eq_some_iff.1 (of_decide_eq_true hlt)
  have hin := argmax_mem harg
  rwa [inj_on_of_nodup_map hids (mem_of_mem_filter hin) hmem hid] at hin

def hasStatus (statuses : List String) (run : Row) : Bool :=
  (run.text .status).any (· ∈ statuses.map text)

theorem latestRunIds_eq {group : Column} {statuses : List String} :
    latestRunIds rows table group statuses =
      ((((rows table).filter (hasStatus statuses)).filter fun run =>
        isLatest Row.ended ((rows table).filter fun latest =>
          decide (latest.cell group = run.cell group) &&
            hasStatus statuses latest) run.id).map Row.id).toFinset := by
  have hriv (run : Row) : ((rows table).filter (hasStatus statuses)).filter
      (fun latest => decide (latest.cell group = run.cell group)) =
        (rows table).filter fun latest => decide (latest.cell group = run.cell group) &&
          hasStatus statuses latest :=
    List.filter_filter ..
  simp only [← hriv]
  rfl

theorem mem_latestRunIds_filter {group : Column} {statuses : List String}
    (hids : ((rows table).map Row.id).Nodup) (hfl : rows' table = (rows table).filter q)
    (hrow : row ∈ rows' table) (h : row.id ∈ latestRunIds rows table group statuses) :
    row.id ∈ latestRunIds rows' table group statuses := by
  rw [latestRunIds_eq] at h ⊢
  rw [hfl] at hrow ⊢
  exact mem_latest_filter hids hrow id h

theorem mem_latestCurrentNmapRunIds_filter {status : Option String}
    (hids : ((rows .nmapFingerprintRuns).map Row.id).Nodup)
    (hfl : rows' .nmapFingerprintRuns = (rows .nmapFingerprintRuns).filter q)
    (htar : ∀ run, isTargeted rows run = true → isTargeted rows' run = true)
    (hrow : row ∈ rows' .nmapFingerprintRuns) (h : row.id ∈ latestCurrentNmapRunIds rows status) :
    row.id ∈ latestCurrentNmapRunIds rows' status := by
  unfold latestCurrentNmapRunIds at h ⊢
  rw [hfl] at hrow ⊢
  refine mem_latest_filter hids hrow ?_ h
  intro heli
  rw [Bool.and_eq_true] at heli ⊢
  exact ⟨htar row heli.1, heli.2⟩

/-- Current observations stay. -/
theorem isTargeted_kept (h : isTargeted rows run = true) :
    isTargeted (kept cutoff cutoffs rows) run = true := by
  obtain ⟨ips, hips, htg⟩ := List.any_eq_true.1 h
  refine List.any_eq_true.2 ⟨ips, mem_kept.2 ⟨hips, ?_⟩, htg⟩
  simp only [Bool.and_eq_true, decide_eq_true_eq] at htg
  simp [outdated, isStale, htg.1.2]

theorem kept_eq_filter : kept cutoff cutoffs rows table =
    (rows table).filter fun row => !outdated cutoff cutoffs rows table row := by
  unfold kept cleared
  split
  · rfl
  · rename_i hsw
    symm
    rw [filter_eq_self]
    intro row _
    rw [outdated_of_notMem hsw]
    rfl

theorem expiredSampleIds_kept : expiredSampleIds cutoffs (kept cutoff cutoffs rows) = ∅ := by
  unfold expiredSampleIds
  rw [kept_eq_filter, List.filter_filter]
  have hnn : (rows .switchPortCounterSamples).filter (fun sample => expiredSample cutoffs sample &&
      !outdated cutoff cutoffs rows .switchPortCounterSamples sample) = [] := by
    rw [filter_eq_nil_iff]
    intro sample _
    simp [outdated]
  rw [hnn]
  rfl

theorem mem_protectedIds_kept (hids : ∀ t, ((rows t).map Row.id).Nodup)
    (hrow : row ∈ kept cutoff cutoffs rows table)
    (h : row.id ∈ protectedIds cutoffs rows table) :
    row.id ∈ protectedIds cutoffs (kept cutoff cutoffs rows) table := by
  have hlt {group : Column} {statuses : List String} (hin : row.id ∈ latestRunIds rows table group statuses) :
      row.id ∈ latestRunIds (kept cutoff cutoffs rows) table group statuses :=
    mem_latestRunIds_filter (hids table) kept_eq_filter hrow hin
  have hcur {tables : List Table} {column : IntColumn} (htb : ∀ t ∈ tables, t ∉ sweptTables) :
      currentRunIds (kept cutoff cutoffs rows) tables column = currentRunIds rows tables column :=
    currentRunIds_congr fun t ht => cleared_of_notMem (htb t ht)
  cases table <;> try exact h
  case nmapFingerprintRuns =>
    have hsti {status : Option String} (hin : row.id ∈ latestCurrentNmapRunIds rows status) :=
      mem_latestCurrentNmapRunIds_filter (hids _) kept_eq_filter (fun _ => isTargeted_kept) hrow hin
    rcases Finset.mem_union.1 h with h | h
    · rcases Finset.mem_union.1 h with h | h
      · refine Finset.mem_union_left _ (Finset.mem_union_left _ ?_)
        have hrun := (mem_ids_iff (hids _) (mem_kept.1 hrow).1).1 (List.mem_toFinset.1 h)
        exact List.mem_toFinset.2 (List.mem_map_of_mem (mem_filter.2 ⟨hrow, hrun⟩))
      · exact Finset.mem_union_left _ (Finset.mem_union_right _ (hsti h))
    · exact Finset.mem_union_right _ (hsti h)
  case collectionRuns => exact hlt h
  case switchCollectionRuns =>
    have hsm : ((kept cutoff cutoffs rows .switchPortCounterSamples).filter fun sample =>
        sample.id ∉ expiredSampleIds cutoffs (kept cutoff cutoffs rows)) =
          (rows .switchPortCounterSamples).filter fun sample => sample.id ∉ expiredSampleIds cutoffs rows := by
      rw [filter_notMem_expired (hids _), expiredSampleIds_kept, kept_eq_filter]
      simp [outdated]
    rcases Finset.mem_union.1 h with h | h
    · refine Finset.mem_union_left _ ?_
      rcases Finset.mem_union.1 h with h | h
      · exact Finset.mem_union_left _ (by rwa [hcur (by decide)])
      · exact Finset.mem_union_right _ (by rwa [hsm])
    · exact Finset.mem_union_right _ (hlt h)
  case networkCorrelationRuns =>
    rcases Finset.mem_union.1 h with h | h
    · exact Finset.mem_union_left _ (by rwa [hcur (by decide)])
    · exact Finset.mem_union_right _ (hlt h)
  case routerPathFactRuns =>
    rcases Finset.mem_union.1 h with h | h
    · exact Finset.mem_union_left _ (by rwa [hcur (by decide)])
    · exact Finset.mem_union_right _ (hlt h)
  case availabilityRuns =>
    rcases Finset.mem_union.1 h with h | h
    · exact Finset.mem_union_left _ (by rwa [hcur (by decide)])
    · exact Finset.mem_union_right _ (hlt h)

theorem outdated_kept (hids : ∀ t, ((rows t).map Row.id).Nodup)
    (hrow : row ∈ kept cutoff cutoffs rows table) :
    outdated cutoff cutoffs (kept cutoff cutoffs rows) table row = false := by
  have hst := (mem_kept.1 hrow).2
  have hage {t : Table} {r : Row} (ht : t ∈ agedTables) (hr : r ∈ kept cutoff cutoffs rows t) :
      isAged cutoff cutoffs (kept cutoff cutoffs rows) t r = false := by
    have hrst := (mem_kept.1 hr).2
    rw [outdated_of_aged ht, isAged, Bool.and_eq_false_iff] at hrst
    rw [isAged, Bool.and_eq_false_iff]
    refine hrst.imp_right ?_
    intro hpr
    simp only [decide_eq_false_iff_not, not_not] at hpr ⊢
    exact mem_protectedIds_kept hids hr hpr
  by_cases ht : table ∈ agedTables
  · rw [outdated_of_aged ht]
    exact hage ht hrow
  · cases table <;> first | exact absurd (by decide) ht | exact hst | skip
    all_goals
      refine List.any_eq_false.2 fun run hrun => ?_
      rw [hage (by decide) hrun]
      simp

def due (p : Platform) (now : Instant) (cutoff : Text) (referenceTime : Option Text)
    (sources : List NetworkSource)
    (rows : Tables Table Row) (table : Table) (row : Row) : Bool :=
  match validateCutoff cutoff, (retentionReference now referenceTime).bind (sourceCutoffs p sources) with
  | some before, some cutoffs => outdated before cutoffs rows table row
  | _, _ => false

section Applied

variable {db : Database} {report : RetentionReport} {before reference : Text}

theorem due_eq (hbf : validateCutoff cutoff = some before)
    (href : retentionReference now referenceTime = some reference)
    (hcs : sourceCutoffs p sources reference = some cutoffs) :
    due p now cutoff referenceTime sources rows = outdated before cutoffs rows := by
  funext table row
  simp only [due, hbf, href, bind_some, hcs]

theorem countOf_map {tables : List Table} {f : Table → Nat} :
    countOf (tables.map fun t => (t, f t)) table = if table ∈ tables then f table else 0 := by
  unfold countOf
  induction tables with
  | nil => rfl
  | cons t rest ih =>
    rw [map_cons, lookup_cons]
    by_cases h : table = t
    · subst h
      simp
    · have hne : (table == t) = false := beq_eq_false_iff_ne.2 h
      rw [hne, ih]
      simp [h]

theorem countOf_swept {tables : List Table} (htb : tables.Perm sweptTables) :
    countOf (tables.map fun t => (t, (rows t).countP (outdated before cutoffs rows t))) table =
      (rows table).countP (outdated before cutoffs rows table) := by
  rw [countOf_map]
  split
  · rfl
  · rename_i hot
    symm
    rw [countP_eq_zero]
    intro row _
    rw [outdated_of_notMem fun hin => hot (htb.mem_iff.2 hin)]
    exact Bool.false_ne_true

theorem countOf_report (hdel : report.delete =
    reportTables.map fun t => (t, (rows t).countP (outdated before cutoffs rows t))) :
    countOf report.delete table = (rows table).countP (outdated before cutoffs rows table) := by
  rw [hdel, countOf_swept reportTables_perm]

theorem countP_add_length_kept : (rows table).countP (outdated before cutoffs rows table) +
    (kept before cutoffs rows table).length = (rows table).length := by
  rw [kept_eq_filter, ← countP_eq_length_filter,
    length_eq_countP_add_countP (outdated before cutoffs rows table)]
  simp only [Bool.not_eq_true, Bool.decide_eq_false]

/-- Where nothing is in the way, the rows that are due go and the database stays sound. -/
theorem applyRetention_isSome_iff
    (hrp : retentionReport p now cutoff referenceTime db.sources db.rows = some report)
    (hbf : validateCutoff cutoff = some before)
    (href : retentionReference now referenceTime = some reference)
    (hcs : sourceCutoffs p db.sources reference = some cutoffs)
    (hsl : Selectable p before cutoffs db.rows) :
    (applyRetention p now cutoff referenceTime db.sources db.rows).isSome ↔
      Unhindered p (outdated before cutoffs db.rows) db.rows := by
  rw [applyRetention_eq hrp hbf href hcs hsl]
  constructor
  · intro h
    rw [← sweep_plan_isSome_iff hcs hsl]
    obtain ⟨_, hre⟩ := isSome_iff_exists.1 h
    obtain ⟨swept, hsw, -⟩ := bind_eq_some_iff.1 hre
    exact isSome_iff_exists.2 ⟨swept, hsw⟩
  · intro h
    obtain ⟨swept, hsw⟩ := isSome_iff_exists.1 ((sweep_plan_isSome_iff hcs hsl).2 h)
    have hrs := (sweep_result (by rw [plan_tables]; decide)
      ((plan_takes db hcs hsl).imp fun _ _ h => h.1) hsw).2
    rw [plan_tables] at hrs
    have hsn : Sound references swept.2 := by
      rw [hrs]
      exact db.sound.cleared ((unreferenced_iff db.ids).2 h.unreferenced)
    rw [hsw, bind_some, if_pos hsn]
    rfl

theorem applyRetention_result {result : RetentionResult × Tables Table Row}
    (h : applyRetention p now cutoff referenceTime db.sources db.rows = some result)
    (hbf : validateCutoff cutoff = some before)
    (href : retentionReference now referenceTime = some reference)
    (hcs : sourceCutoffs p db.sources reference = some cutoffs) :
    result.2 = kept before cutoffs db.rows ∧ Sound references result.2 ∧
      ∀ table, countOf result.1.deleted table =
        (db.rows table).countP (outdated before cutoffs db.rows table) := by
  have hrp : ∃ report, retentionReport p now cutoff referenceTime db.sources db.rows = some report := by
    obtain ⟨_, hb, h⟩ := bind_eq_some_iff.1 h
    obtain ⟨_, hr, h⟩ := bind_eq_some_iff.1 h
    obtain ⟨report, hrp, -⟩ := bind_eq_some_iff.1 h
    exact ⟨report, (retentionReport_validated hb hr).symm.trans hrp⟩
  obtain ⟨report, hrp⟩ := hrp
  obtain ⟨_, _, _, hb, hr, hc, hsl, -⟩ := retentionReport_eq db hrp
  obtain rfl := Option.some.inj (hbf.symm.trans hb)
  obtain rfl := Option.some.inj (href.symm.trans hr)
  obtain rfl := Option.some.inj (hcs.symm.trans hc)
  rw [applyRetention_eq hrp hbf href hcs hsl] at h
  obtain ⟨swept, hsw, h⟩ := bind_eq_some_iff.1 h
  obtain ⟨hcn, hrs⟩ := sweep_result (by rw [plan_tables]; decide)
    ((plan_takes db hcs hsl).imp fun _ _ h => h.1) hsw
  split at h
  · rename_i hsn
    obtain rfl := Option.some.inj h
    refine ⟨hrs, hsn, fun table => ?_⟩
    rw [← countOf_swept (Perm.refl sweptTables), ← plan_tables, List.map_map]
    exact congrArg (fun counts => countOf counts table) hcn
  · cases h

theorem afterRetention_eq
    (hrp : retentionReport p now cutoff referenceTime db.sources db.rows = some report)
    (hbf : validateCutoff cutoff = some before)
    (href : retentionReference now referenceTime = some reference)
    (hcs : sourceCutoffs p db.sources reference = some cutoffs)
    (hsl : Selectable p before cutoffs db.rows) :
    (Unhindered p (outdated before cutoffs db.rows) db.rows ∧
        afterRetention p now cutoff referenceTime db.sources db.rows = kept before cutoffs db.rows) ∨
      (¬ Unhindered p (outdated before cutoffs db.rows) db.rows ∧
        afterRetention p now cutoff referenceTime db.sources db.rows = db.rows) := by
  rw [← applyRetention_isSome_iff hrp hbf href hcs hsl]
  cases hap : applyRetention p now cutoff referenceTime db.sources db.rows with
  | none =>
    refine .inr ⟨by simp, ?_⟩
    rw [afterRetention, hap]
    rfl
  | some result =>
    refine .inl ⟨rfl, ?_⟩
    rw [afterRetention, hap]
    exact (applyRetention_result hap hbf href hcs).1

/-- The database that a call leaves when nothing is in its way. -/
def keptDatabase (db : Database) (h : Unhindered p (outdated before cutoffs db.rows) db.rows) :
    Database where
  sources := db.sources
  rows := kept before cutoffs db.rows
  sourceIds := db.sourceIds
  ids table := by
    rw [kept_eq_filter]
    exact (db.ids table).sublist (List.filter_sublist.map _)
  sound := db.sound.cleared ((unreferenced_iff db.ids).2 h.unreferenced)

/-- Where no row is due, a call changes nothing, whether it returns or raises. -/
theorem afterRetention_settled (hbf : validateCutoff cutoff = some before)
    (href : retentionReference now referenceTime = some reference)
    (hcs : sourceCutoffs p db.sources reference = some cutoffs)
    (hset : ∀ table, ∀ row ∈ db.rows table, outdated before cutoffs db.rows table row = false) :
    afterRetention p now cutoff referenceTime db.sources db.rows = db.rows := by
  unfold afterRetention
  cases hap : applyRetention p now cutoff referenceTime db.sources db.rows with
  | none => rfl
  | some result =>
    change result.2 = db.rows
    rw [(applyRetention_result hap hbf href hcs).1]
    funext table
    rw [kept_eq_filter, filter_eq_self]
    intro row hrow
    rw [hset table row hrow]
    rfl

/-- What the dry run counts is what applying deletes, and applying again deletes
nothing more, if and only if nothing is in the way of the deletions. -/
theorem retentionReport_exact_iff (db : Database)
    (h : retentionReport p now cutoff referenceTime db.sources db.rows = some report) :
    ((∀ table, countOf report.delete table +
          (afterRetention p now cutoff referenceTime db.sources db.rows table).length =
            (db.rows table).length) ∧
        afterRetention p now cutoff referenceTime db.sources
            (afterRetention p now cutoff referenceTime db.sources db.rows) =
          afterRetention p now cutoff referenceTime db.sources db.rows) ↔
      Unhindered p (due p now cutoff referenceTime db.sources db.rows) db.rows := by
  obtain ⟨before, reference, cutoffs, hbf, href, hcs, hsl, hdel, -⟩ := retentionReport_eq db h
  have hcnt (table : Table) : countOf report.delete table =
      (db.rows table).countP (outdated before cutoffs db.rows table) := countOf_report hdel
  rw [due_eq hbf href hcs]
  rcases afterRetention_eq h hbf href hcs hsl with ⟨hfr, haf⟩ | ⟨hhin, haf⟩
  · refine iff_of_true ⟨?_, ?_⟩ hfr
    · intro table
      rw [haf, hcnt, countP_add_length_kept]
    · rw [haf]
      exact @afterRetention_settled _ _ _ _ _ (keptDatabase db hfr) _ _ hbf href hcs
        fun table row hrow => outdated_kept db.ids hrow
  · refine iff_of_false ?_ hhin
    rintro ⟨hexact, -⟩
    have hnn (table : Table) : (db.rows table).countP (outdated before cutoffs db.rows table) = 0 := by
      have hsum := hexact table
      rw [haf, hcnt] at hsum
      omega
    refine hhin ⟨?_, ?_⟩
    · intro table _ _
      rw [hnn]
      exact Nat.zero_le _
    · intro ref _ parent hpr hgn
      exact absurd hgn (countP_eq_zero.1 (hnn ref.parent) parent hpr)

end Applied

def sqlite : Platform := ⟨32766, Text.lower⟩

def topologyRun (id : Int) (time : String) : Row where
  id
  int _ := none
  text
    | .startedAt | .finishedAt => some (text time)
    | .status => some "success"
    | .runType => some "topology"
    | _ => none

def supersededRun (roles : List Row) : Tables Table Row
  | .networkCorrelationRuns =>
    [topologyRun 1 "2026-06-01T00:00:00Z", topologyRun 2 "2026-07-01T00:00:00Z"]
  | .currentSwitchPortRoles => roles
  | _ => []

def roleOfFirstRun : Row where
  id := 1
  int
    | .sourceId | .correlationRunId => some 1
    | _ => none
  text _ := none

def withoutRoles : Database where
  sources := []
  rows := supersededRun []
  sourceIds := List.nodup_nil
  ids table := by cases table <;> decide
  sound := by decide

def withRole : Database where
  sources := []
  rows := supersededRun [roleOfFirstRun]
  sourceIds := List.nodup_nil
  ids table := by cases table <;> decide
  sound := by decide

def dryRun (db : Database) : Option RetentionReport :=
  retentionReport sqlite 0 "2026-06-26T00:00:00Z" (some "2026-07-10T00:00:00Z") db.sources db.rows

def applied (db : Database) : Tables Table Row :=
  afterRetention sqlite 0 "2026-06-26T00:00:00Z" (some "2026-07-10T00:00:00Z") db.sources db.rows

/-- The report of the sample tables, in which no port has a role. -/
theorem retentionReport_exact_sample :
    (∀ table, countOf ((dryRun withoutRoles).get (by decide +kernel)).delete table +
        (applied withoutRoles table).length = (withoutRoles.rows table).length) ∧
      afterRetention sqlite 0 "2026-06-26T00:00:00Z" (some "2026-07-10T00:00:00Z")
        withoutRoles.sources (applied withoutRoles) = applied withoutRoles := by
  refine (retentionReport_exact_iff withoutRoles (some_get _).symm).2 ⟨?_, by decide +kernel⟩
  intro table _ _
  exact countP_le_length.trans (by cases table <;> decide)

/-- The role of a port is current, but does not keep its run from the selection; the
run is counted by the dry run and cannot be deleted. -/
theorem role_restricts_its_run : ¬ ∀ report, dryRun withRole = some report → ∀ table,
      countOf report.delete table + (applied withRole table).length = (withRole.rows table).length := by
  intro h
  have hcou : (dryRun withRole).map (fun report => countOf report.delete .networkCorrelationRuns) = some 1 := by
    decide +kernel
  have hlf : (applied withRole .networkCorrelationRuns).length = 2 := by decide +kernel
  obtain ⟨report, hrp, hcnt⟩ := map_eq_some_iff.1 hcou
  have hsum := h report hrp .networkCorrelationRuns
  rw [hcnt, hlf] at hsum
  cases hsum

end WebOvpn.Retention
