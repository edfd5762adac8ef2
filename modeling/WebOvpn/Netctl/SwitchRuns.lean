/-
Every run of overlapping collections: what is current comes from the newest
completed run of a source, and the log of its events leads to it.
-/
import WebOvpn.Netctl.SwitchLog

namespace WebOvpn.SwitchStore

open List

variable {δ ρ κ : Type} {d : Details δ ρ} {db db' : Database ρ} {phase phase' : Phase δ}
    {source run id : Nat}
  {call : Call} {snapshot : SwitchSnapshot δ}

def Earlier (first second : Run) : Prop :=
  ∃ t t', parseStartedAt first.startedAt = some t ∧ parseStartedAt second.startedAt = some t' ∧ t < t'

theorem Earlier.ne {first second : Run} (h : Earlier first second) :
    parseStartedAt first.startedAt ≠ parseStartedAt second.startedAt := by
  obtain ⟨t, t', ht, ht', hlt⟩ := h
  rw [ht, ht']
  intro heq
  exact absurd (Option.some.inj heq) (Fin.ne_of_lt hlt)

theorem earlier_of_hasNewer {startedTime : Instant} {runs : List Run}
    (h : hasNewerOrEqualCompleted startedTime runs = some false) :
    ∀ run ∈ runs, ∃ t, parseStartedAt run.startedAt = some t ∧ t < startedTime := by
  induction runs with
  | nil => nofun
  | cons first rest ih =>
    unfold hasNewerOrEqualCompleted at h
    cases htm : parseStartedAt first.startedAt with
    | none =>
      rw [htm] at h
      cases h
    | some t =>
      rw [htm] at h
      dsimp only at h
      by_cases hle : startedTime ≤ t
      · rw [if_pos hle] at h
        cases h
      rw [if_neg hle] at h
      intro run hrun
      rcases mem_cons.1 hrun with rfl | hmem
      · exact ⟨t, htm, Fin.not_le.1 hle⟩
      · exact ih h run hmem

def CompletedAt (db : Database ρ) (source id : Nat) (run : Run) : Prop :=
  db.runs[id]? = some run ∧ run.source = source ∧ run.isCompleted = true

theorem earlier_of_completedAt {new : Run} {run : Run} {other : Nat}
    (hnewer : hasNewerOrEqualCompleted call.startedTime (completedOthers db.runs call.source id) =
      some false)
    (hnew : new.startedAt = call.startedAt) (hrun : CompletedAt db call.source other run)
    (hne : other ≠ id) :
    Earlier run new := by
  have hmem : run ∈ completedOthers db.runs call.source id := by
    apply mem_filter.2
    refine ⟨mem_eraseIdx_iff_getElem?.2 ⟨other, hne, hrun.1⟩, ?_⟩
    rw [hrun.2.1, hrun.2.2, decide_eq_true rfl]
    rfl
  obtain ⟨t, ht, hlt⟩ := earlier_of_hasNewer hnewer run hmem
  exact ⟨t, call.startedTime, ht, by rw [hnew]; exact call.isParsed, hlt⟩

/-- The rows of a source are the entries that its run `id` made current. -/
structure Shows (db : Database ρ) (source id : Nat) (run : Run) : Prop where
  entries : ((db.fdbOf source).map FdbRow.entry).Perm run.published
  collected : ∀ row ∈ db.fdbOf source, row.collectorRunId = id ∧ row.lastSeenAt = run.startedAt

def Current (db : Database ρ) (source : Nat) : Prop :=
  (∀ id run, ¬ CompletedAt db source id run) ∧ db.fdbOf source = [] ∨
    ∃ id run, CompletedAt db source id run ∧ Shows db source id run ∧
      ∀ id' run', CompletedAt db source id' run' → id' ≠ id → Earlier run' run

/-- The events of every source lead from the empty table to its rows, whose keys are unique. -/
def Faithful (db : Database ρ) : Prop :=
  ∀ source, Keyed (db.fdbOf source) ∧
    replay FdbEvent.key FdbEvent.apply (db.eventsOf source) (fun _ => none) = tableOf (db.fdbOf source)

/-- What holds of the tables in every state. -/
structure Sound (db : Database ρ) : Prop where
  faithful : Faithful db
  current : ∀ source, Current db source
  distinct : ∀ source id id' run run', CompletedAt db source id run → CompletedAt db source id' run' → id ≠ id' →
    parseStartedAt run.startedAt ≠ parseStartedAt run'.startedAt

structure Calling (db : Database ρ) (phase : Phase δ) : Prop where
  held : ∀ id call, phase.held = some (id, call) →
    ∃ run, db.runs[id]? = some run ∧ run.source = call.source ∧ run.startedAt = call.startedAt
  valid : ∀ id call snapshot fdbOutcome, phase = .saving id call snapshot fdbOutcome →
    (snapshot.fdb.map SwitchFdbEntry.key).Nodup

def Ages (first second : Run) : Prop := second.source = first.source ∧ second.startedAt = first.startedAt

theorem Change.grows (h : Change d db phase db' phase') : Grows Ages db.runs db'.runs := by
  have href : ∀ run : Run, Ages run run := fun _ => ⟨rfl, rfl⟩
  cases h with
  | kept h => exact grows_refl href _
  | created call => exact grows_append href _ _
  | failed finish hhl hph' hrun hrunn hfn =>
    exact grows_modify href fun run _ => ⟨(hfn run).1, (hfn run).2.1⟩
  | completed counts hph hph' hrun hrunn hnew hsv =>
    exact grows_modify href fun run _ => ⟨rfl, rfl⟩

theorem Calling.grows (h : Calling db phase) (hgr : Grows Ages db.runs db'.runs) :
    Calling db' phase := by
  refine ⟨fun id call hhl => ?_, h.valid⟩
  obtain ⟨run, hrun, hsrc, htm⟩ := h.held id call hhl
  obtain ⟨run', hrun', hag⟩ := hgr id run hrun
  exact ⟨run', hrun', hag.1.trans hsrc, hag.2.trans htm⟩

theorem not_completedAt_running {run : Run} (hrun : db.runs[id]? = some run)
    (hrunn : run.status = .running) (run' : Run) :
    ¬ CompletedAt db source id run' := by
  rintro ⟨hrun', -, hcm⟩
  cases hrun.symm.trans hrun'
  unfold Run.isCompleted at hcm
  rw [hrunn] at hcm
  cases hcm

theorem completedAt_create {run : Run} : CompletedAt (createRun db call) source id run ↔
    CompletedAt db source id run := by
  constructor
  · rintro ⟨hrun, hsrc, hcm⟩
    rcases getElem?_append_cases hrun with ⟨-, hold⟩ | ⟨-, hnew⟩
    · exact ⟨hold, hsrc, hcm⟩
    · have hmem := mem_singleton.1 (mem_of_getElem? hnew)
      rw [hmem] at hcm
      cases hcm
  · rintro ⟨hrun, hsrc, hcm⟩
    exact ⟨(getElem?_append_left (List.getElem?_eq_some_iff.1 hrun).1).trans hrun, hsrc, hcm⟩

theorem completedAt_fail {finish : Run → Run} {row run : Run} {other : Nat}
    (hrow : db.runs[id]? = some row)
    (hrunn : row.status = .running) (hfn : ∀ run, (finish run).status = .failed) :
    CompletedAt { db with runs := db.runs.modify id finish } source other run ↔
      CompletedAt db source other run := by
  constructor
  · rintro ⟨hrun, hsrc, hcm⟩
    rcases getElem?_modify_cases hrun with ⟨-, hold⟩ | ⟨rfl, old, -, rfl⟩
    · exact ⟨hold, hsrc, hcm⟩
    · unfold Run.isCompleted at hcm
      rw [hfn old] at hcm
      cases hcm
  · rintro ⟨hrun, hsrc, hcm⟩
    refine ⟨?_, hsrc, hcm⟩
    rw [getElem?_modify_ne _ _ fun heq => ?_]
    · exact hrun
    · subst heq
      exact not_completedAt_running hrow hrunn run ⟨hrun, hsrc, hcm⟩

theorem isCompleted_complete (counts : Counts) (run : Run) :
    (Run.complete snapshot call counts run).isCompleted = true := by
  unfold Run.complete Run.isCompleted
  dsimp only
  split_ifs <;> rfl

theorem Sound.same (h : Sound db) (hfdb : db'.fdb = db.fdb) (hevents : db'.events = db.events)
    (hcm : ∀ source id run, CompletedAt db' source id run ↔ CompletedAt db source id run) :
      Sound db' := by
  have hfdbOf : ∀ source, db'.fdbOf source = db.fdbOf source := fun source => by
    unfold Database.fdbOf
    rw [hfdb]
  have heve : ∀ source, db'.eventsOf source = db.eventsOf source := fun source => by
    unfold Database.eventsOf
    rw [hevents]
  constructor
  · intro source
    rw [hfdbOf, heve]
    exact h.faithful source
  · intro source
    rcases h.current source with ⟨hnn, hem⟩ | ⟨id, run, hat, hsh, hnew⟩
    · exact .inl ⟨fun id run hrun => hnn id run ((hcm source id run).1 hrun), (hfdbOf source).trans hem⟩
    · refine .inr ⟨id, run, (hcm source id run).2 hat, ⟨?_, ?_⟩, fun id' run' hrun' => ?_⟩
      · rw [hfdbOf]
        exact hsh.entries
      · rw [hfdbOf]
        exact hsh.collected
      · exact hnew id' run' ((hcm source id' run').1 hrun')
  · intro source id id' run run' hrun hrun'
    exact h.distinct source id id' run run' ((hcm source id run).1 hrun) ((hcm source id' run').1 hrun')

/-- The tables after the transaction that completes a run. -/
def published (db : Database ρ) (id : Nat) (call : Call) (snapshot : SwitchSnapshot δ)
    (counts : Counts) (others : ρ) :
    Database ρ :=
  { (replaceFdb { db with others := others } call.source id snapshot.fdb call.startedAt).1 with
    runs := db.runs.modify id (Run.complete snapshot call counts) }

section

variable {row : Run} {counts : Counts} {others : ρ}

theorem completedAt_published (hrow : db.runs[id]? = some row) (hsrc : row.source = call.source)
    (hrunn : row.status = .running) {other : Nat} {run : Run} :
    CompletedAt (published db id call snapshot counts others) source other run ↔
      CompletedAt db source other run ∨
        other = id ∧ source = call.source ∧ run = Run.complete snapshot call counts row := by
  constructor
  · rintro ⟨hrun, hrunS, hcm⟩
    rcases getElem?_modify_cases hrun with ⟨-, hold⟩ | ⟨rfl, old, hold, rfl⟩
    · exact .inl ⟨hold, hrunS, hcm⟩
    · cases hrow.symm.trans hold
      exact .inr ⟨rfl, hrunS.symm.trans hsrc, rfl⟩
  · rintro (⟨hrun, hrunS, hcm⟩ | ⟨rfl, rfl, rfl⟩)
    · refine ⟨?_, hrunS, hcm⟩
      unfold published
      dsimp only
      rw [getElem?_modify_ne _ _ fun heq => ?_]
      · exact hrun
      · subst heq
        exact not_completedAt_running hrow hrunn run ⟨hrun, hrunS, hcm⟩
    · refine ⟨?_, hsrc, isCompleted_complete counts row⟩
      unfold published
      dsimp only
      rw [getElem?_modify_eq, hrow]
      rfl

theorem fdbOf_published : (published db id call snapshot counts others).fdbOf call.source =
    renewed call.source id call.startedAt (db.fdbOf call.source) snapshot.fdb :=
  fdbOf_replaceFdb_self

theorem Faithful.publish (h : Faithful db) (hen : (snapshot.fdb.map SwitchFdbEntry.key).Nodup) :
    Faithful (published db id call snapshot counts others) := by
  intro source
  by_cases hsrc : source = call.source
  · subst hsrc
    have heve : (published db id call snapshot counts others).eventsOf call.source =
        db.eventsOf call.source ++ changes call.source id call.startedAt (db.fdbOf call.source) snapshot.fdb :=
      eventsOf_replaceFdb_self
    rw [fdbOf_published, heve, replay_append, (h call.source).2]
    exact ⟨renewed_keyed hen, replay_changes (h call.source).1 hen⟩
  · have hfdb : (published db id call snapshot counts others).fdbOf source = db.fdbOf source :=
      fdbOf_replaceFdb_ne hsrc
    have heve : (published db id call snapshot counts others).eventsOf source = db.eventsOf source :=
      eventsOf_replaceFdb_ne hsrc
    rw [hfdb, heve]
    exact h source

theorem Sound.publish (h : Sound db) (hrow : db.runs[id]? = some row) (hsrc : row.source = call.source)
    (htm : row.startedAt = call.startedAt) (hrunn : row.status = .running)
    (hnew : hasNewerOrEqualCompleted call.startedTime (completedOthers db.runs call.source id) =
      some false)
    (hen : (snapshot.fdb.map SwitchFdbEntry.key).Nodup) :
      Sound (published db id call snapshot counts others) := by
  have hear : ∀ other run, CompletedAt db call.source other run →
      other ≠ id ∧ Earlier run (Run.complete snapshot call counts row) := by
    intro other run hrun
    have hne : other ≠ id := by
      rintro rfl
      exact not_completedAt_running hrow hrunn run hrun
    exact ⟨hne, earlier_of_completedAt hnew htm hrun hne⟩
  have hcm {source other : Nat} {run : Run} :
      CompletedAt (published db id call snapshot counts others) source other run ↔
        CompletedAt db source other run ∨
        other = id ∧ source = call.source ∧ run = Run.complete snapshot call counts row :=
    completedAt_published hrow hsrc hrunn
  constructor
  · exact h.faithful.publish hen
  · intro source
    by_cases hoh : source = call.source
    · subst hoh
      refine .inr ⟨id, _, hcm.2 (.inr ⟨rfl, rfl, rfl⟩), ⟨?_, ?_⟩, ?_⟩
      · rw [fdbOf_published]
        unfold renewed
        rw [map_map]
        exact ((sortByKey_perm SwitchFdbEntry.key snapshot.fdb).map _).trans
          (by simp [Function.comp_def, fdbRow, Run.complete])
      · intro fdbRow hfdbR
        rw [fdbOf_published] at hfdbR
        obtain ⟨entry, -, rfl⟩ := mem_map.1 hfdbR
        exact ⟨rfl, htm.symm⟩
      · intro id' run' hrun' hne
        rcases hcm.1 hrun' with hold | ⟨rfl, -, -⟩
        · exact (hear id' run' hold).2
        · exact absurd rfl hne
    · have hfdb : (published db id call snapshot counts others).fdbOf source = db.fdbOf source :=
        fdbOf_replaceFdb_ne hoh
      have hold : ∀ id' run', CompletedAt (published db id call snapshot counts others) source id' run' →
          CompletedAt db source id' run' := by
        intro id' run' hrun'
        rcases hcm.1 hrun' with hold | ⟨-, heq, -⟩
        · exact hold
        · exact absurd heq hoh
      rcases h.current source with ⟨hnn, hem⟩ | ⟨id', run', hat, hsh, hnewe⟩
      · exact .inl ⟨fun id' run' hrun' => hnn id' run' (hold id' run' hrun'), hfdb.trans hem⟩
      · refine .inr ⟨id', run', hcm.2 (.inl hat), ⟨?_, ?_⟩,
          fun id'' run'' hrun'' => hnewe id'' run'' (hold _ _ hrun'')⟩
        · rw [hfdb]
          exact hsh.entries
        · rw [hfdb]
          exact hsh.collected
  · intro source id' id'' run' run'' hrun' hrun'' hne
    rcases hcm.1 hrun' with hold' | ⟨rfl, rfl, rfl⟩
    · rcases hcm.1 hrun'' with hold'' | ⟨rfl, rfl, rfl⟩
      · exact h.distinct source id' id'' run' run'' hold' hold'' hne
      · exact (hear id' run' hold').2.ne
    · rcases hcm.1 hrun'' with hold'' | ⟨rfl, -, -⟩
      · exact (hear id'' run'' hold'').2.ne.symm
      · exact absurd rfl hne

end

theorem Change.sound (h : Change d db phase db' phase') (hsn : Sound db) (hcl : Calling db phase) :
    Sound db' := by
  cases h with
  | kept => exact hsn
  | created call => exact hsn.same rfl rfl fun _ _ _ => completedAt_create
  | failed finish hhl hph' hrun hrunn hfn =>
    exact hsn.same rfl rfl fun _ _ _ => completedAt_fail hrun hrunn fun run => (hfn run).2.2
  | completed counts hph hph' hrun hrunn hnew hsv =>
    subst hph
    obtain ⟨row, hrow, hsrc, htm⟩ := hcl.held _ _ rfl
    cases hrun.symm.trans hrow
    exact hsn.publish hrun hsrc htm hrunn hnew (hcl.valid _ _ _ _ rfl)

theorem nodup_of_validate {fdbOutcome : SnmpOutcome} (h : validate d snapshot = some fdbOutcome) :
    (snapshot.fdb.map SwitchFdbEntry.key).Nodup := by
  unfold validate at h
  split_ifs at h
  split at h
  · cases h
  · split_ifs at h with hfdb
    unfold validFdb at hfdb
    simp only [Bool.and_eq_true, decide_eq_true_eq] at hfdb
    exact hfdb.1.1.2

theorem act_saving {who : κ} {event : Event δ} {fdbOutcome : SnmpOutcome}
    (h : (act d who event db phase).2 = .saving id call snapshot fdbOutcome) :
    phase = .saving id call snapshot fdbOutcome ∨ validate d snapshot = some fdbOutcome := by
  have hst : ∀ source startedAt isPermitted fails,
      (startCall (δ := δ) db source startedAt isPermitted fails).2 ≠ .saving id call snapshot fdbOutcome := by
    intro source startedAt isPermitted fails heq
    unfold startCall at heq
    split at heq
    · cases heq
    · split_ifs at heq
  have hfn : ∀ (done : Option (Database ρ × CollectResult)) (fails : Bool) (otherwise : Phase δ),
      otherwise ≠ .saving id call snapshot fdbOutcome →
        (finishCall db done fails otherwise).2 ≠ .saving id call snapshot fdbOutcome := by
    intro done fails otherwise hne heq
    unfold finishCall at heq
    split at heq
    · split_ifs at heq
      exact hne heq
    · exact hne heq
  cases event with
  | crash => cases h
  | start source startedAt isPermitted fails =>
    cases phase with
    | collecting run call => cases h
    | saving run call snapshot fdbOutcome => exact .inl h
    | failing run call failure => cases h
    | _ => exact absurd h (hst source startedAt isPermitted fails)
  | collect collected =>
    cases phase with
    | collecting run call =>
      cases collected with
      | snapshot snapshot =>
        change (judge d run call (.snapshot snapshot)) = _ at h
        unfold judge at h
        dsimp only at h
        cases hvl : validate d snapshot with
        | none =>
          rw [hvl] at h
          cases h
        | some outcome =>
          rw [hvl] at h
          cases h
          exact .inr hvl
      | _ => cases h
    | saving run call snapshot fdbOutcome => exact .inl h
    | _ => cases h
  | commit fails =>
    cases phase with
    | saving run call snapshot fdbOutcome => exact absurd h (hfn _ fails _ nofun)
    | _ => cases h
  | record fails =>
    cases phase with
    | failing run call failure =>
      unfold act at h
      dsimp only at h
      split_ifs at h
      exact absurd h (hfn _ fails _ nofun)
    | saving run call snapshot fdbOutcome => exact .inl h
    | _ => cases h

theorem Change.held (h : Change d db phase db' phase') (hcl : Calling db phase)
    (hhl : phase'.held = some (id, call)) :
    ∃ run, db'.runs[id]? = some run ∧ run.source = call.source ∧ run.startedAt = call.startedAt := by
  cases h with
  | kept h =>
    rcases h with hnn | hsm
    · rw [hnn] at hhl
      cases hhl
    · exact hcl.held id call (hsm.symm.trans hhl)
  | created call =>
    cases hhl
    exact ⟨_, getElem?_concat_length, rfl, rfl⟩
  | failed finish hhl' hph' =>
    rw [hph'] at hhl
    cases hhl
  | completed counts hph hph' =>
    rw [hph'] at hhl
    cases hhl

theorem act_calling {who : κ} {event : Event δ} (hcl : Calling db phase) :
    Calling (act d who event db phase).1 (act d who event db phase).2 := by
  have hch := act_change d who event db phase
  refine ⟨fun id call hhl => hch.held hcl hhl, fun id call snapshot fdbOutcome hsv => ?_⟩
  rcases act_saving hsv with hsm | hvl
  · exact hcl.valid id call snapshot fdbOutcome hsm
  · exact nodup_of_validate hvl

/-- Before the first call there is no run, no row and no event. -/
def start (others : ρ) : Crew κ (Database ρ) (Phase δ) := ⟨⟨[], [], [], others⟩, fun _ => .idle⟩

theorem sound_start (others : ρ) : Sound (⟨[], [], [], others⟩ : Database ρ) := by
  have hnn : ∀ source id run, ¬ CompletedAt (⟨[], [], [], others⟩ : Database ρ) source id run := by
    rintro source id run ⟨hrun, -⟩
    cases hrun
  constructor
  · exact fun source => ⟨nodup_nil, rfl⟩
  · exact fun source => .inl ⟨hnn source, rfl⟩
  · intro source id id' run run' hrun
    exact absurd hrun (hnn source id run)

theorem keeps (d : Details δ ρ) :
    Crew.Keeps (κ := κ) (act d) Sound fun db _ phase => Calling db phase := by
  constructor
  · intro who event db phase hsn hcl
    exact ⟨(act_change d who event db phase).sound hsn hcl, act_calling hcl⟩
  · intro who event db phase other phase' _ _ _ hoh
    exact hoh.grows (act_change d who event db phase).grows

variable [DecidableEq κ]

theorem holds_run (d : Details δ ρ) (others : ρ) (moves : List (κ × Event δ)) :
    Crew.Holds Sound (fun db _ phase => Calling db phase)
      (WebOvpn.run (Crew.step (act d)) (start others) moves) := by
  have hst : Crew.Holds (κ := κ) (μ := Phase δ) Sound (fun db _ phase => Calling db phase) (start others) :=
    ⟨sound_start others, fun _ => ⟨nofun, nofun⟩⟩
  exact hst.run (keeps d)

/-- **The log of a forwarding database is faithful**: in every state of any run of
collections, the events of a source lead from the empty table to its rows. -/
theorem fdb_log_is_faithful (d : Details δ ρ) (others : ρ) (moves : List (κ × Event δ)) :
    Faithful (WebOvpn.run (Crew.step (act d)) (start others) moves).shared :=
  (holds_run d others moves).shared.faithful

/-- What is current of a source is what its newest completed run published, and no
two completed runs of it were started at the same instant. -/
structure CurrentLaw (db : Database ρ) : Prop where
  newest : ∀ source id run, CompletedAt db source id run →
    (∀ id' run', CompletedAt db source id' run' → ¬ Earlier run run') → Shows db source id run
  none : ∀ source, (∀ id run, ¬ CompletedAt db source id run) → db.fdbOf source = []
  distinct : ∀ source id id' run run', CompletedAt db source id run → CompletedAt db source id' run' → id ≠ id' →
    parseStartedAt run.startedAt ≠ parseStartedAt run'.startedAt

theorem Sound.currentLaw (h : Sound db) : CurrentLaw db := by
  refine ⟨fun source id run hrun hgre => ?_, fun source hnn => ?_, h.distinct⟩
  · rcases h.current source with ⟨hnn, -⟩ | ⟨id', run', hrun', hsh, hnew⟩
    · exact absurd hrun (hnn id run)
    · by_cases hid : id = id'
      · subst hid
        cases hrun.1.symm.trans hrun'.1
        exact hsh
      · exact absurd (hnew id run hrun hid) (hgre id' run' hrun')
  · rcases h.current source with ⟨-, hem⟩ | ⟨id, run, hrun, -⟩
    · exact hem
    · exact absurd hrun (hnn id run)

/-- A step that changes a current table or an event table completes the run of
its call; other runs, and completed ones, stay as they are. -/
structure StepLaw (who : κ) (before after : Crew κ (Database ρ) (Phase δ)) : Prop where
  quiet : (after.shared.fdb = before.shared.fdb ∧ after.shared.events = before.shared.events ∧
      after.shared.others = before.shared.others) ∨
    ∃ id call run, (before.workers who).held = some (id, call) ∧ after.shared.runs[id]? = some run ∧
      run.isCompleted = true
  own : ∀ id, after.shared.runs[id]? = before.shared.runs[id]? ∨
    ∃ call, (before.workers who).held = some (id, call) ∨ (after.workers who).held = some (id, call)
  settled : ∀ (id : Nat) (run : Run), before.shared.runs[id]? = some run → run.isCompleted = true →
    after.shared.runs[id]? = some run

theorem Change.quiet (h : Change d db phase db' phase') :
    (db'.fdb = db.fdb ∧ db'.events = db.events ∧ db'.others = db.others) ∨
      ∃ id call run, phase.held = some (id, call) ∧ db'.runs[id]? = some run ∧
        run.isCompleted = true := by
  cases h with
  | @completed phase' held call row snapshot fdbOutcome others counts hph hph' hrow =>
    refine .inr ⟨held, call,
      Run.complete snapshot call counts row, by rw [hph]; rfl, ?_, isCompleted_complete counts row⟩
    dsimp only
    rw [getElem?_modify_eq, hrow]
    rfl
  | _ => exact .inl ⟨rfl, rfl, rfl⟩

theorem Change.own (h : Change d db phase db' phase') (id : Nat) : db'.runs[id]? = db.runs[id]? ∨
    ∃ call, phase.held = some (id, call) ∨ phase'.held = some (id, call) := by
  cases h with
  | kept => exact .inl rfl
  | created call =>
    by_cases hid : id = db.runs.length
    · exact .inr ⟨call, .inr (by rw [hid]; rfl)⟩
    · left
      unfold createRun
      dsimp only
      rcases Nat.lt_or_gt_of_ne hid with hlt | hgt
      · exact getElem?_append_left hlt
      · rw [getElem?_eq_none, getElem?_eq_none (Nat.le_of_lt hgt)]
        rw [length_append]
        exact hgt
  | @failed phase' held call row finish hhl =>
    by_cases hid : held = id
    · exact .inr ⟨call, .inl (hid ▸ hhl)⟩
    · exact .inl (getElem?_modify_ne _ _ hid)
  | @completed phase' held call row snapshot fdbOutcome others counts hph =>
    by_cases hid : held = id
    · exact .inr ⟨call, .inl (by rw [hph, ← hid]; rfl)⟩
    · exact .inl (getElem?_modify_ne _ _ hid)

theorem Change.settled (h : Change d db phase db' phase') {run : Run} (hrun : db.runs[id]? = some run)
    (hcm : run.isCompleted = true) : db'.runs[id]? = some run := by
  cases h with
  | kept => exact hrun
  | created => exact (getElem?_append_left (List.getElem?_eq_some_iff.1 hrun).1).trans hrun
  | failed finish hhl hph' hrow hrunn hfn =>
    refine (getElem?_modify_ne _ _ fun heq => ?_).trans hrun
    subst heq
    exact not_completedAt_running hrow hrunn run ⟨hrun, rfl, hcm⟩
  | completed counts hph hph' hrow hrunn hnew hsv =>
    refine (getElem?_modify_ne _ _ fun heq => ?_).trans hrun
    subst heq
    exact not_completedAt_running hrow hrunn run ⟨hrun, rfl, hcm⟩

/-- **The newest completed run is the current one**, in every state that overlapping
collections lead to, and a run that is not completed changes only its own row. -/
theorem newest_completed_run_is_current (d : Details δ ρ) (others : ρ) (moves : List (κ × Event δ)) :
    CurrentLaw (WebOvpn.run (Crew.step (act d)) (start others) moves).shared ∧
      ∀ move : κ × Event δ, StepLaw move.1 (WebOvpn.run (Crew.step (act d)) (start others) moves)
        (Crew.step (act d) (WebOvpn.run (Crew.step (act d)) (start others) moves) move) := by
  refine ⟨(holds_run d others moves).shared.currentLaw, ?_⟩
  rintro ⟨who, event⟩
  have hch := act_change d who event (WebOvpn.run (Crew.step (act d)) (start others) moves).shared
    ((WebOvpn.run (Crew.step (act d)) (start others) moves).workers who)
  refine ⟨hch.quiet, fun id => ?_, fun id run hrun hcm => hch.settled hrun hcm⟩
  rw [Crew.step_self]
  exact hch.own id

end WebOvpn.SwitchStore
