/-
The log of a forwarding database against its rows: the events of a source, taken
one after another from the empty table, lead to the rows of the source.  Where collections overlap,
these are the entries of
its newest completed run.
-/
import WebOvpn.Lib.Rows
import WebOvpn.Netctl.SwitchStore

namespace WebOvpn

open List

namespace SwitchStore

variable {rows old : List FdbRow} {entries : List SwitchFdbEntry} {entry : SwitchFdbEntry}
    {event : FdbEvent}
  {source other run : Nat} {observedAt : Text} {k : FdbKey}

theorem sortByKey_perm {α : Type} (key : α → FdbKey) (items : List α) :
    (sortByKey key items).Perm items :=
  mergeSort_perm items _

def Keyed (rows : List FdbRow) : Prop := (rows.map FdbRow.key).Nodup

theorem rowAt_of_mem {row : FdbRow} (hkey : Keyed rows) (h : row ∈ rows) :
    rowAt rows row.key = some row := by
  induction rows with
  | nil => cases h
  | cons first rest ih =>
    obtain ⟨hfs, hrs⟩ := nodup_cons.1 hkey
    unfold rowAt
    rw [find?_cons]
    rcases mem_cons.1 h with rfl | hmem
    · rw [decide_eq_true rfl]
    · have hne : first.key ≠ row.key := fun heq => hfs (heq ▸ mem_map_of_mem hmem)
      rw [decide_eq_false hne]
      exact ih hrs hmem

theorem rowAt_eq_some {row : FdbRow} (h : rowAt rows k = some row) : row ∈ rows ∧ row.key = k :=
  ⟨mem_of_find?_eq_some h, of_decide_eq_true (find?_some h :)⟩

theorem rowAt_eq_none : rowAt rows k = none ↔ k ∉ rows.map FdbRow.key := by
  unfold rowAt
  rw [find?_eq_none]
  constructor
  · intro h hmem
    obtain ⟨row, hrow, hkey⟩ := mem_map.1 hmem
    exact h row hrow (decide_eq_true hkey)
  · intro h row hrow hkey
    exact h (mem_map.2 ⟨row, hrow, of_decide_eq_true hkey⟩)

/-- `_replace_fdb` tells of the entries that appeared, that moved and that disappeared. -/
def changes (source run : Nat) (observedAt : Text) (old : List FdbRow)
    (entries : List SwitchFdbEntry) : List FdbEvent :=
  appearedEvents source run observedAt old entries ++ movedEvents source run observedAt old entries ++
    disappearedEvents source run observedAt old entries

theorem mem_appearedEvents : event ∈ appearedEvents source run observedAt old entries ↔
    ∃ entry ∈ entries, rowAt old entry.key = none ∧
      event = fdbEvent source run observedAt entry .appeared [] entry.portKey := by
  unfold appearedEvents
  rw [mem_filterMap]
  constructor
  · rintro ⟨entry, hen, hev⟩
    cases hrow : rowAt old entry.key with
    | none =>
      rw [hrow] at hev
      exact ⟨entry, (sortByKey_perm _ _).mem_iff.1 hen, hrow, (Option.some.inj hev).symm⟩
    | some row =>
      rw [hrow] at hev
      cases hev
  · rintro ⟨entry, hen, hrow, rfl⟩
    exact ⟨entry, (sortByKey_perm _ _).mem_iff.2 hen, by rw [hrow]⟩

theorem mem_movedEvents : event ∈ movedEvents source run observedAt old entries ↔
    ∃ entry ∈ entries, ∃ row, rowAt old entry.key = some row ∧ row.entry.portKey ≠ entry.portKey ∧
      event = fdbEvent source run observedAt entry .moved row.entry.portKey entry.portKey := by
  unfold movedEvents
  rw [mem_filterMap]
  constructor
  · rintro ⟨entry, hen, hev⟩
    cases hrow : rowAt old entry.key with
    | none =>
      rw [hrow] at hev
      cases hev
    | some row =>
      rw [hrow] at hev
      dsimp only at hev
      split_ifs at hev with hpr
      exact ⟨entry, (sortByKey_perm _ _).mem_iff.1 hen, row, hrow, hpr, (Option.some.inj hev).symm⟩
  · rintro ⟨entry, hen, row, hrow, hpr, rfl⟩
    refine ⟨entry, (sortByKey_perm _ _).mem_iff.2 hen, ?_⟩
    rw [hrow]
    exact if_neg hpr

theorem mem_disappearedEvents : event ∈ disappearedEvents source run observedAt old entries ↔
    ∃ row ∈ old, row.key ∉ entries.map SwitchFdbEntry.key ∧
      event = fdbEvent source run observedAt row.entry .disappeared row.entry.portKey [] := by
  unfold disappearedEvents
  rw [mem_filterMap]
  constructor
  · rintro ⟨row, hrow, hev⟩
    split_ifs at hev with hkey
    exact ⟨row, (sortByKey_perm _ _).mem_iff.1 hrow, hkey, (Option.some.inj hev).symm⟩
  · rintro ⟨row, hrow, hkey, rfl⟩
    exact ⟨row, (sortByKey_perm _ _).mem_iff.2 hrow, if_neg hkey⟩

theorem nodup_filterMap_key {α : Type} {items : List α} {key : α → FdbKey} {make : α → Option FdbEvent}
    (hnd : (items.map key).Nodup) (hmak : ∀ item event, make item = some event → event.key = key item) :
    (((sortByKey key items).filterMap make).map FdbEvent.key).Nodup := by
  have hsr : ((sortByKey key items).map key).Nodup := ((sortByKey_perm key items).map key).nodup_iff.2 hnd
  have hds := pairwise_map.1 hsr
  apply pairwise_map.2
  apply List.Pairwise.filterMap make _ hds
  intro item item' hne event hev event' hev' heq
  rw [hmak item event hev, hmak item' event' hev'] at heq
  exact hne heq

theorem changes_nodup (hold : Keyed old) (hes : (entries.map SwitchFdbEntry.key).Nodup) :
    ((changes source run observedAt old entries).map FdbEvent.key).Nodup := by
  have hap : ((appearedEvents source run observedAt old entries).map FdbEvent.key).Nodup := by
    apply nodup_filterMap_key hes
    intro entry event hev
    split at hev
    · cases hev
      rfl
    · cases hev
  have hmv : ((movedEvents source run observedAt old entries).map FdbEvent.key).Nodup := by
    apply nodup_filterMap_key hes
    intro entry event hev
    split at hev
    · cases hev
    · split_ifs at hev
      cases hev
      rfl
  have hds : ((disappearedEvents source run observedAt old entries).map FdbEvent.key).Nodup := by
    apply nodup_filterMap_key hold
    intro row event hev
    split_ifs at hev
    cases hev
    rfl
  unfold changes
  rw [map_append, map_append]
  apply Nodup.append (Nodup.append hap hmv _) hds
  · intro k hbot hgn
    obtain ⟨event, hev, rfl⟩ := mem_map.1 hgn
    obtain ⟨row, -, hkey, rfl⟩ := mem_disappearedEvents.1 hev
    rcases mem_append.1 hbot with hmem | hmem
    · obtain ⟨event, hev, hsm⟩ := mem_map.1 hmem
      obtain ⟨entry, hen, -, rfl⟩ := mem_appearedEvents.1 hev
      exact hkey (mem_map.2 ⟨entry, hen, hsm⟩)
    · obtain ⟨event, hev, hsm⟩ := mem_map.1 hmem
      obtain ⟨entry, hen, row', -, -, rfl⟩ := mem_movedEvents.1 hev
      exact hkey (mem_map.2 ⟨entry, hen, hsm⟩)
  · intro k hfr hkn
    obtain ⟨event, hev, rfl⟩ := mem_map.1 hfr
    obtain ⟨entry, -, hnn, rfl⟩ := mem_appearedEvents.1 hev
    obtain ⟨event, hev, hsm⟩ := mem_map.1 hkn
    obtain ⟨entry', -, row, hso, -, rfl⟩ := mem_movedEvents.1 hev
    have hkey : entry'.key = entry.key := hsm
    rw [hkey, hnn] at hso
    cases hso

def tableOf (rows : List FdbRow) (k : FdbKey) : Option (Text × Text) :=
  (rowAt rows k).map fun row => (row.entry.portKey, row.firstSeenAt)

def FdbEvent.apply (event : FdbEvent) (known : Option (Text × Text)) : Option (Text × Text) :=
  match event.eventType with
  | .appeared => some (event.newPortKey, event.observedAt)
  | .moved => known.map fun row => (event.newPortKey, row.2)
  | .disappeared => none

def renewed (source run : Nat) (observedAt : Text) (old : List FdbRow)
    (entries : List SwitchFdbEntry) : List FdbRow :=
  (sortByKey SwitchFdbEntry.key entries).map (fdbRow source run observedAt old)

theorem renewed_keyed (hen : (entries.map SwitchFdbEntry.key).Nodup) :
    Keyed (renewed source run observedAt old entries) := by
  unfold Keyed renewed
  rw [map_map]
  exact ((sortByKey_perm SwitchFdbEntry.key entries).map SwitchFdbEntry.key).nodup_iff.2 hen

theorem tableOf_renewed (hen : (entries.map SwitchFdbEntry.key).Nodup) (het : entry ∈ entries) :
    tableOf (renewed source run observedAt old entries) entry.key =
      some (entry.portKey, ((rowAt old entry.key).map FdbRow.firstSeenAt).getD observedAt) := by
  have hmem : fdbRow source run observedAt old entry ∈ renewed source run observedAt old entries :=
    mem_map.2 ⟨entry, (sortByKey_perm _ _).mem_iff.2 het, rfl⟩
  have hrow : rowAt (renewed source run observedAt old entries) entry.key = _ :=
    rowAt_of_mem (renewed_keyed hen) hmem
  unfold tableOf
  rw [hrow]
  rfl

theorem tableOf_renewed_none (h : k ∉ entries.map SwitchFdbEntry.key) :
    tableOf (renewed source run observedAt old entries) k = none := by
  unfold tableOf
  rw [rowAt_eq_none.2, Option.map_none]
  intro hmem
  obtain ⟨row, hrow, rfl⟩ := mem_map.1 hmem
  obtain ⟨entry, hen, rfl⟩ := mem_map.1 hrow
  exact h (mem_map.2 ⟨entry, (sortByKey_perm _ _).mem_iff.1 hen, rfl⟩)

theorem replay_changes (hold : Keyed old) (hes : (entries.map SwitchFdbEntry.key).Nodup) :
    replay FdbEvent.key FdbEvent.apply (changes source run observedAt old entries) (tableOf old) =
      tableOf (renewed source run observedAt old entries) := by
  apply replay_eq_of_diff (changes_nodup hold hes)
  · intro event hev
    unfold changes at hev
    rcases mem_append.1 hev with hmem | hgn
    · rcases mem_append.1 hmem with hfr | hmv
      · obtain ⟨entry, hen, hnn, rfl⟩ := mem_appearedEvents.1 hfr
        have haf : tableOf (renewed source run observedAt old entries) entry.key = _ := tableOf_renewed hes hen
        rw [hnn] at haf
        exact haf.symm
      · obtain ⟨entry, hen, row, hrow, -, rfl⟩ := mem_movedEvents.1 hmv
        have haf : tableOf (renewed source run observedAt old entries) entry.key = _ := tableOf_renewed hes hen
        have hbf : tableOf old entry.key = some (row.entry.portKey, row.firstSeenAt) := by
          unfold tableOf
          rw [hrow]
          rfl
        rw [hrow] at haf
        change (tableOf old entry.key).map _ = _
        rw [hbf]
        exact haf.symm
    · obtain ⟨row, -, hkey, rfl⟩ := mem_disappearedEvents.1 hgn
      exact (tableOf_renewed_none hkey).symm
  · intro k hnn
    by_cases hk : k ∈ entries.map SwitchFdbEntry.key
    · obtain ⟨entry, hen, rfl⟩ := mem_map.1 hk
      rw [tableOf_renewed hes hen]
      cases hrow : rowAt old entry.key with
      | none =>
        apply absurd _ hnn
        have hev : fdbEvent source run observedAt entry .appeared [] entry.portKey ∈
            appearedEvents source run observedAt old entries := mem_appearedEvents.2 ⟨entry, hen, hrow, rfl⟩
        exact mem_map.2 ⟨_, mem_append_left _ (mem_append_left _ hev), rfl⟩
      | some row =>
        have hpr : row.entry.portKey = entry.portKey := by
          by_contra hne
          apply hnn
          have hev : fdbEvent source run observedAt entry .moved row.entry.portKey entry.portKey ∈
              movedEvents source run observedAt old entries :=
                mem_movedEvents.2 ⟨entry, hen, row, hrow, hne, rfl⟩
          exact mem_map.2 ⟨_, mem_append_left _ (mem_append_right _ hev), rfl⟩
        unfold tableOf
        rw [hrow, ← hpr]
        rfl
    · rw [tableOf_renewed_none hk]
      cases hrow : rowAt old k with
      | none =>
        unfold tableOf
        rw [hrow]
        rfl
      | some row =>
        obtain ⟨hmem, rfl⟩ := rowAt_eq_some hrow
        apply absurd _ hnn
        have hev : fdbEvent source run observedAt row.entry .disappeared row.entry.portKey [] ∈
            disappearedEvents source run observedAt old entries := mem_disappearedEvents.2 ⟨row, hmem, hk, rfl⟩
        exact mem_map.2 ⟨_, mem_append_right _ hev, rfl⟩

variable {δ ρ κ : Type} {d : Details δ ρ} {db db' : Database ρ} {phase phase' : Phase δ}
    {event : Event δ}
  {source other run id : Nat} {call : Call} {snapshot : SwitchSnapshot δ} {fdbOutcome : SnmpOutcome}
  {entries : List SwitchFdbEntry} {observedAt : Text}

theorem fdbOf_replaceFdb_self : (replaceFdb db source run entries observedAt).1.fdbOf source =
    renewed source run observedAt (db.fdbOf source) entries := by
  have hos : (db.fdb.filter fun row => row.source ≠ source).filter (fun row => row.source = source) = [] := by
    rw [filter_filter, filter_eq_nil_iff]
    simp
  have hns : (renewed source run observedAt (db.fdbOf source) entries).filter
    (fun row => row.source = source) = _ :=
    filter_eq_self.2 fun row hrow => by
      obtain ⟨entry, -, rfl⟩ := mem_map.1 hrow
      exact decide_eq_true rfl
  change List.filter _ (_ ++ renewed source run observedAt (db.fdbOf source) entries) = _
  rw [filter_append, hos, hns]
  rfl

theorem fdbOf_replaceFdb_ne (h : other ≠ source) :
    (replaceFdb db source run entries observedAt).1.fdbOf other = db.fdbOf other := by
  have hos : (db.fdb.filter fun row => row.source ≠ source).filter (fun row => row.source = other) =
      db.fdbOf other := by
    rw [filter_filter]
    apply filter_congr
    intro row _
    by_cases hrow : row.source = other
    · simp [hrow, h]
    · simp [hrow]
  have hns : (renewed source run observedAt (db.fdbOf source) entries).filter
    (fun row => row.source = other) = [] :=
    filter_eq_nil_iff.2 fun row hrow => by
      obtain ⟨entry, -, rfl⟩ := mem_map.1 hrow
      intro hsrc
      exact h (of_decide_eq_true hsrc).symm
  change List.filter _ (_ ++ renewed source run observedAt (db.fdbOf source) entries) = _
  rw [filter_append, hos, hns, append_nil]

theorem source_of_changes {old : List FdbRow} {e : FdbEvent}
    (h : e ∈ changes source run observedAt old entries) :
    e.source = source := by
  unfold changes at h
  rcases mem_append.1 h with hmem | hmem
  · rcases mem_append.1 hmem with hmem | hmem
    · obtain ⟨entry, -, -, rfl⟩ := mem_appearedEvents.1 hmem
      rfl
    · obtain ⟨entry, -, row, -, -, rfl⟩ := mem_movedEvents.1 hmem
      rfl
  · obtain ⟨row, -, -, rfl⟩ := mem_disappearedEvents.1 hmem
    rfl

theorem eventsOf_replaceFdb_self : (replaceFdb db source run entries observedAt).1.eventsOf source =
    db.eventsOf source ++ changes source run observedAt (db.fdbOf source) entries := by
  have hns : (changes source run observedAt (db.fdbOf source) entries).filter (fun e => e.source = source) = _ :=
    filter_eq_self.2 fun e he => decide_eq_true (source_of_changes he)
  change List.filter _ (_ ++ changes source run observedAt (db.fdbOf source) entries) = _
  rw [filter_append, hns]
  rfl

theorem eventsOf_replaceFdb_ne (h : other ≠ source) :
    (replaceFdb db source run entries observedAt).1.eventsOf other = db.eventsOf other := by
  have hns : (changes source run observedAt (db.fdbOf source) entries).filter (fun e => e.source = other) = [] :=
    filter_eq_nil_iff.2 fun e he => by
      intro hsrc
      exact h ((of_decide_eq_true hsrc).symm.trans (source_of_changes he))
  change List.filter _ (_ ++ changes source run observedAt (db.fdbOf source) entries) = _
  rw [filter_append, hns, append_nil]
  rfl

def Phase.held : Phase δ → Option (Nat × Call)
  | .idle | .returned _ => none
  | .collecting run call | .saving run call _ _ | .failing run call _ => some (run, call)

inductive Change (d : Details δ ρ) (db : Database ρ) (phase : Phase δ) : Database ρ → Phase δ → Prop
  | kept {phase' : Phase δ} (h : phase'.held = none ∨ phase'.held = phase.held) : Change d db phase db phase'
  | created (call : Call) : Change d db phase (createRun db call) (.collecting db.runs.length call)
  | failed {phase' : Phase δ} {id : Nat} {call : Call} {run : Run} (finish : Run → Run)
      (hheld : phase.held = some (id, call)) (hphase' : phase'.held = none)
      (hrun : db.runs[id]? = some run) (hrunning : run.status = .running)
      (hfinish : ∀ run, (finish run).source = run.source ∧ (finish run).startedAt = run.startedAt ∧
        (finish run).status = .failed) :
      Change d db phase { db with runs := db.runs.modify id finish } phase'
  | completed {phase' : Phase δ} {id : Nat} {call : Call} {run : Run} {snapshot : SwitchSnapshot δ}
      {fdbOutcome : SnmpOutcome} {others : ρ} (counts : Counts)
        (hphase : phase = .saving id call snapshot fdbOutcome)
      (hphase' : phase'.held = none) (hrun : db.runs[id]? = some run) (hrunning : run.status = .running)
      (hnewer : hasNewerOrEqualCompleted call.startedTime (completedOthers db.runs call.source id) = some false)
      (hsave : d.save call.source id snapshot call.startedAt db.others = some others) :
      Change d db phase
        { (replaceFdb { db with others := others } call.source id snapshot.fdb call.startedAt).1 with
          runs := db.runs.modify id (Run.complete snapshot call counts) } phase'

theorem finishRun_eq_some {finish : Run → Run} (h : finishRun db id source finish = some db') :
    ∃ run, db.runs[id]? = some run ∧ run.source = source ∧ run.status = .running ∧
      db' = { db with runs := db.runs.modify id finish } := by
  unfold finishRun at h
  cases hrun : db.runs[id]? with
  | none =>
    rw [hrun] at h
    cases h
  | some run =>
    rw [hrun] at h
    dsimp only at h
    split_ifs at h with hop
    exact ⟨run, rfl, hop.1, hop.2, (Option.some.inj h).symm⟩

theorem judge_held (collected : Collected δ) : (judge d run call collected).held = some (run, call) := by
  cases collected with
  | snapshot snapshot =>
    unfold judge
    dsimp only
    cases validate d snapshot <;> rfl
  | _ => rfl

theorem startCall_change (startedAt : Text) (isPermitted fails : Bool) :
    Change d db phase (startCall (δ := δ) db source startedAt isPermitted fails).1
      (startCall db source startedAt isPermitted fails).2 := by
  unfold startCall
  split
  · exact .kept (.inl rfl)
  · cases isPermitted && !fails with
    | true => exact .created _
    | false => exact .kept (.inl rfl)

variable {result : CollectResult}

theorem recordFailedRun_change {failure : Failure}
    (hph : phase.held = some (run, call)) (hph' : phase'.held = none)
    (h : recordFailedRun db run call failure = some (db', result)) : Change d db phase db' phase' := by
  unfold recordFailedRun at h
  obtain ⟨after, haf, heq⟩ := Option.map_eq_some_iff.1 h
  cases heq
  obtain ⟨row, hrow, -, hrun, rfl⟩ := finishRun_eq_some haf
  exact .failed _ hph hph' hrow hrun fun _ => ⟨rfl, rfl, rfl⟩

theorem refuseSnapshot_change {errorClass : ErrorClass}
    (hph : phase.held = some (run, call)) (hph' : phase'.held = none)
    (h : refuseSnapshot db run call snapshot fdbOutcome errorClass = some (db', result)) :
    Change d db phase db' phase' := by
  unfold refuseSnapshot at h
  obtain ⟨after, haf, heq⟩ := Option.map_eq_some_iff.1 h
  cases heq
  obtain ⟨row, hrow, -, hrun, rfl⟩ := finishRun_eq_some haf
  exact .failed _ hph hph' hrow hrun fun _ => ⟨rfl, rfl, rfl⟩

theorem saveSnapshot_change (hph' : phase'.held = none)
    (h : saveSnapshot d db run call snapshot fdbOutcome = some (db', result)) :
    Change d db (.saving run call snapshot fdbOutcome) db' phase' := by
  unfold saveSnapshot at h
  split_ifs at h
  · cases hnew : hasNewerOrEqualCompleted call.startedTime (completedOthers db.runs call.source run) with
    | none =>
      rw [hnew] at h
      cases h
    | some isStale =>
      rw [hnew] at h
      cases isStale with
      | true => exact refuseSnapshot_change rfl hph' h
      | false =>
        dsimp only at h
        unfold applySnapshot at h
        cases hsv : d.save call.source run snapshot call.startedAt db.others with
        | none =>
          rw [hsv] at h
          cases h
        | some others =>
          rw [hsv] at h
          obtain ⟨after, haf, heq⟩ := Option.map_eq_some_iff.1 h
          cases heq
          obtain ⟨row, hrow, -, hrun, rfl⟩ := finishRun_eq_some haf
          exact .completed _ rfl hph' hrow hrun hnew hsv
  · exact refuseSnapshot_change rfl hph' h

/-- A step of a call is one of the changes. -/
theorem act_change (d : Details δ ρ) (who : κ) (event : Event δ) (db : Database ρ) (phase : Phase δ) :
    Change d db phase (act d who event db phase).1 (act d who event db phase).2 := by
  cases event with
  | crash => exact .kept (.inl rfl)
  | start source startedAt isPermitted fails =>
    cases phase with
    | idle => exact startCall_change startedAt isPermitted fails
    | returned result => exact startCall_change startedAt isPermitted fails
    | _ => exact .kept (.inr rfl)
  | collect collected =>
    cases phase with
    | collecting run call => exact .kept (.inr (judge_held collected))
    | _ => exact .kept (.inr rfl)
  | commit fails =>
    cases phase with
    | saving run call snapshot fdbOutcome =>
      change Change d db _ (finishCall db (saveSnapshot d db run call snapshot fdbOutcome) fails _).1
        (finishCall db (saveSnapshot d db run call snapshot fdbOutcome) fails _).2
      unfold finishCall
      split
      · rename_i after result hsv
        split_ifs
        · exact .kept (.inr rfl)
        · exact saveSnapshot_change rfl hsv
      · exact .kept (.inr rfl)
    | _ => exact .kept (.inr rfl)
  | record fails =>
    cases phase with
    | failing run call failure =>
      unfold act finishCall
      dsimp only
      cases hrc : recordFailedRun db run call failure with
      | none => split_ifs <;> exact .kept (.inl rfl)
      | some done =>
        obtain ⟨after, result⟩ := done
        dsimp only
        split_ifs
        · exact .kept (.inl rfl)
        · exact recordFailedRun_change rfl rfl hrc
        · exact .kept (.inl rfl)
        · exact recordFailedRun_change rfl rfl hrc
    | _ => exact .kept (.inr rfl)

end SwitchStore

end WebOvpn
