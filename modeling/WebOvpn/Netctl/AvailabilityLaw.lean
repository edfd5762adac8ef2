/-
Runs that find out which addresses of a network answer, and the log of the changes:
the events of a network lead from nothing to what is current of it, and a save is one
whole.
-/
import Mathlib.Data.List.Dedup
import WebOvpn.Lib.Calendar
import WebOvpn.Lib.Ipv4
import WebOvpn.Lib.Rows
import WebOvpn.Lib.Run

namespace WebOvpn.Availability

structure AvailabilityResult where
  ip : Text
  state : Text
  method : Option Text
  checkedAt : Option Text
  failureClass : Text

structure AvailabilityRun where
  cidr : Text
  startedAt : Text
  finishedAt : Text
  status : Text
  targetCount : Int
  completedTargetCount : Int
  results : List AvailabilityResult
  errorClass : Text

structure SegmentRule where
  network : Ipv4Network
  segmentId : Text

/-- What the tables of the context say: the active rules, or the exception of
loading them, and the revision that holds a segment. -/
structure Context where
  rules : Option (List SegmentRule)
  revisionOf : Text → Option Nat

def replaceZ (value : Text) : Text :=
  value.flatMap fun c => if c = CodePoint.ofChar 'Z' then "+00:00" else [c]

def utcTimestamp (value : Text) : Option Text :=
  (fromisoformat (replaceZ value)).bind fun parsed =>
    if parsed.offset = some 0 then some (parsed.wall.seconds ++ "Z") else none

def joinWords (value : Text) : Text :=
  [CodePoint.ofChar ' '].intercalate ((value.splitOnP CodePoint.isSpace).filter (· ≠ []))

def sanitizeReason (value : Text) : Text := (joinWords value).take 200

def activeContextRevisionForCidr (context : Context) (cidr : Text) : Option (Nat × Text × Ipv4Network) :=
  match Ipv4Network.ofText cidr, context.rules with
  | some network, some rules =>
    match rules.filter fun rule => rule.network.text = network.text with
    | [rule] => (context.revisionOf rule.segmentId).map fun revision => (revision, network.text, network)
    | _ => none
  | _, _ => none

/-- The result that is stored, with the address as `ipaddress` writes it. -/
structure StoredResult where
  ip : Text
  state : Text
  method : Text
  checkedAt : Text
  failureClass : Text

def validateResult (network : Ipv4Network) (finishedAt : Text) (result : AvailabilityResult) :
    Option StoredResult :=
  match Ipv4.ofText result.ip with
  | none => none
  | some address =>
    if network.contains address = true ∧ (result.state = "reachable" ∨ result.state = "unreachable") then
      let checkedAt := result.checkedAt.getD []
      (utcTimestamp (if checkedAt = [] then finishedAt else checkedAt)).map fun checkedAt =>
        ⟨address.text, result.state, result.method.getD [], checkedAt, sanitizeReason result.failureClass⟩
    else none

structure ValidatedRun where
  revision : Nat
  cidr : Text
  startedAt : Text
  finishedAt : Text
  isSuccess : Bool
  targetCount : Int
  completedTargetCount : Int
  errorClass : Text
  results : List StoredResult
  /-- `result ips must be unique`. -/
  isUnique : (results.map StoredResult.ip).Nodup
  /-- `failed run must not contain results`. -/
  isEmpty : isSuccess = false → results = []
  /-- The states are the two that there are, and none is empty. -/
  isStated : ∀ result ∈ results, result.state ≠ []

def validCounts (run : AvailabilityRun) : Bool :=
  0 ≤ run.targetCount && 0 ≤ run.completedTargetCount && run.completedTargetCount ≤ run.targetCount &&
    (run.status ≠ "success" || run.completedTargetCount = run.targetCount) &&
    (run.results.length : Int) = run.completedTargetCount

theorem state_ne_nil {network : Ipv4Network} {finishedAt : Text} {result : AvailabilityResult}
    {stored : StoredResult}
    (h : validateResult network finishedAt result = some stored) : stored.state ≠ [] := by
  unfold validateResult at h
  split at h
  · cases h
  · split_ifs at h with hvl
    obtain ⟨checkedAt, -, rfl⟩ := Option.map_eq_some_iff.1 h
    rcases hvl.2 with hst | hst
    · dsimp only
      rw [hst]
      exact List.cons_ne_nil _ _
    · dsimp only
      rw [hst]
      exact List.cons_ne_nil _ _

theorem forall_of_mapM {α β : Type} {f : α → Option β} {P : β → Prop} {items : List α} {made : List β}
    (h : items.mapM f = some made) (hf : ∀ item b, f item = some b → P b) : ∀ b ∈ made, P b := by
  induction items generalizing made with
  | nil =>
    cases h
    nofun
  | cons first rest ih =>
    rw [List.mapM_cons] at h
    obtain ⟨b, hb, h⟩ := Option.bind_eq_some_iff.1 h
    obtain ⟨bs, hbs, h⟩ := Option.bind_eq_some_iff.1 h
    cases h
    exact List.forall_mem_cons.2 ⟨hf first b hb, ih hbs⟩

def validatedRun (context : Context) (run : AvailabilityRun) : Option ValidatedRun :=
  match activeContextRevisionForCidr context run.cidr, utcTimestamp run.startedAt,
    utcTimestamp run.finishedAt with
  | some (revision, cidr, network), some startedAt, some finishedAt =>
    if run.status = "success" ∨ run.status = "failed" ∧ run.results = [] then
      if validCounts run then
        match h : run.results.mapM (validateResult network finishedAt) with
        | none => none
        | some results =>
          if hun : (results.map StoredResult.ip).Nodup then
            if hem : run.status = "success" ∨ results = [] then
              some {
                revision, cidr, startedAt, finishedAt, results
                isSuccess := run.status = "success"
                targetCount := run.targetCount
                completedTargetCount := run.completedTargetCount
                errorClass := sanitizeReason run.errorClass
                isUnique := hun
                isEmpty := fun hfi => hem.resolve_left (of_decide_eq_false hfi)
                isStated := forall_of_mapM h fun _ _ => state_ne_nil }
            else none
          else none
      else none
    else none
  | _, _, _ => none

/-- A row of `availability_runs`, whose id is its place. -/
structure RunRow where
  contextRevisionId : Nat
  cidr : Text
  startedAt : Text
  finishedAt : Text
  isSuccess : Bool
  targetCount : Int
  completedTargetCount : Int
  errorClass : Text

structure ResultRow where
  cidr : Text
  runId : Nat
  result : StoredResult

structure EventRow where
  runId : Nat
  ip : Text
  oldActiveState : Text
  newActiveState : Text
  oldActiveMethod : Text
  newActiveMethod : Text
  observedAt : Text
  reason : Text

structure Database where
  runs : List RunRow
  results : List ResultRow
  events : List EventRow

def Database.currentRows (db : Database) (cidr : Text) : List StoredResult :=
  (db.results.filter fun row => row.cidr = cidr).map ResultRow.result

def resultAt (results : List StoredResult) (ip : Text) : Option StoredResult :=
  results.find? fun result => result.ip = ip

def activeResultChanged (old new : Option StoredResult) : Bool :=
  match old, new with
  | some old, some new => (old.state, old.method) ≠ (new.state, new.method)
  | none, none => false
  | _, _ => true

def changeEvent (runId : Nat) (ip : Text) (old new : Option StoredResult)
    (observedAt : Text) : EventRow :=
  ⟨runId, ip, (old.map StoredResult.state).getD [], (new.map StoredResult.state).getD [],
    (old.map StoredResult.method).getD [], (new.map StoredResult.method).getD [], observedAt,
    if old = none then "initial result" else if new = none then "result removed" else "availability changed"⟩

/-- `sorted(set(old_rows) | set(new_rows))`. -/
def addressesOf (old new : List StoredResult) : List Text :=
  (old.map StoredResult.ip ++ new.map StoredResult.ip).dedup.mergeSort Text.le

def changeEvents (runId : Nat) (old new : List StoredResult) (observedAt : Text) : List EventRow :=
  (addressesOf old new).filterMap fun ip =>
    if activeResultChanged (resultAt old ip) (resultAt new ip) then
      some (changeEvent runId ip (resultAt old ip) (resultAt new ip) observedAt)
    else none

def insertValidatedRun (db : Database) (run : ValidatedRun) : Database :=
  let row : RunRow := ⟨run.revision, run.cidr, run.startedAt, run.finishedAt, run.isSuccess, run.targetCount,
    run.completedTargetCount, run.errorClass⟩
  if run.isSuccess then
    { runs := db.runs ++ [row]
      events := db.events ++ changeEvents db.runs.length (db.currentRows run.cidr) run.results run.finishedAt
      results := db.results.filter (fun row => row.cidr ≠ run.cidr) ++
        run.results.map fun result => ⟨run.cidr, db.runs.length, result⟩ }
  else { db with runs := db.runs ++ [row] }

/-- A call of `save_availability_runs`: the runs, the context at that time, and
whether the transaction fails. -/
structure Save where
  context : Context
  runs : List AvailabilityRun
  fails : Bool

/-- `save_availability_runs`: the tables after it, and the ids of the runs unless it raises. -/
def saveAvailabilityRuns (db : Database) (save : Save) : Database × Option (List Nat) :=
  match save.runs.mapM (validatedRun save.context) with
  | none => (db, none)
  | some validated =>
    if save.fails then (db, none)
    else (validated.foldl insertValidatedRun db, some ((List.range validated.length).map (db.runs.length + ·)))

def step (db : Database) (save : Save) : Database := (saveAvailabilityRuns db save).1

open List

variable {db : Database} {run : ValidatedRun} {runs : List ValidatedRun} {save : Save}
    {old new : List StoredResult}
  {cidr ip observedAt : Text} {runId : Nat} {event : EventRow}

def stateAt (results : List StoredResult) (ip : Text) : Option (Text × Text) :=
  (resultAt results ip).map fun result => (result.state, result.method)

def EventRow.apply (event : EventRow) (_ : Option (Text × Text)) : Option (Text × Text) :=
  if event.newActiveState = [] then none else some (event.newActiveState, event.newActiveMethod)

theorem resultAt_eq_none : resultAt old ip = none ↔ ip ∉ old.map StoredResult.ip := by
  unfold resultAt
  rw [find?_eq_none]
  constructor
  · intro h hmem
    obtain ⟨result, hrs, hip⟩ := mem_map.1 hmem
    exact h result hrs (decide_eq_true hip)
  · intro h result hrs hip
    exact h (mem_map.2 ⟨result, hrs, of_decide_eq_true hip⟩)

theorem mem_addressesOf : ip ∈ addressesOf old new ↔ ip ∈ old.map StoredResult.ip ∨
    ip ∈ new.map StoredResult.ip := by
  unfold addressesOf
  rw [(mergeSort_perm _ _).mem_iff, mem_dedup, mem_append]

theorem ip_of_changeEvents (h : event ∈ changeEvents runId old new observedAt) :
    ∃ ip ∈ addressesOf old new, activeResultChanged (resultAt old ip) (resultAt new ip) = true ∧
      event = changeEvent runId ip (resultAt old ip) (resultAt new ip) observedAt := by
  obtain ⟨ip, hip, hev⟩ := mem_filterMap.1 h
  split_ifs at hev with hch
  exact ⟨ip, hip, hch, (Option.some.inj hev).symm⟩

theorem changeEvents_nodup : ((changeEvents runId old new observedAt).map EventRow.ip).Nodup := by
  have hnd : (addressesOf old new).Nodup := (mergeSort_perm _ _).nodup_iff.2 (nodup_dedup _)
  apply pairwise_map.2
  apply List.Pairwise.filterMap _ _ hnd
  intro ip ip' hne event hev event' hev' heq
  split_ifs at hev
  split_ifs at hev'
  cases hev
  cases hev'
  exact hne heq

theorem stateAt_of_not_changed (h : activeResultChanged (resultAt old ip) (resultAt new ip) = false) :
    stateAt old ip = stateAt new ip := by
  unfold stateAt
  unfold activeResultChanged at h
  cases hold : resultAt old ip with
  | none =>
    cases hnew : resultAt new ip with
    | none => rfl
    | some result =>
      rw [hold, hnew] at h
      cases h
  | some before =>
    cases hnew : resultAt new ip with
    | none =>
      rw [hold, hnew] at h
      cases h
    | some result =>
      rw [hold, hnew] at h
      exact congrArg some (not_not.1 (of_decide_eq_false h))

theorem changeEvent_apply (hst : ∀ result ∈ new, result.state ≠ []) (known : Option (Text × Text)) :
    (changeEvent runId ip (resultAt old ip) (resultAt new ip) observedAt).apply known =
      stateAt new ip := by
  unfold EventRow.apply stateAt changeEvent
  cases hnew : resultAt new ip with
  | none => rfl
  | some result => exact if_neg (hst result (mem_of_find?_eq_some hnew))

theorem replay_changeEvents (hst : ∀ result ∈ new, result.state ≠ []) :
    replay EventRow.ip EventRow.apply (changeEvents runId old new observedAt) (stateAt old) =
      stateAt new := by
  apply replay_eq_of_diff changeEvents_nodup
  · intro event hev
    obtain ⟨ip, -, -, rfl⟩ := ip_of_changeEvents hev
    exact changeEvent_apply hst _
  · intro ip hnn
    apply stateAt_of_not_changed
    by_contra hch
    rw [Bool.not_eq_false] at hch
    have hmem : ip ∈ addressesOf old new := by
      rw [mem_addressesOf]
      by_contra hnei
      rw [not_or, ← resultAt_eq_none, ← resultAt_eq_none] at hnei
      rw [hnei.1, hnei.2] at hch
      cases hch
    apply hnn
    apply mem_map.2
    exact ⟨changeEvent runId ip (resultAt old ip) (resultAt new ip) observedAt,
      mem_filterMap.2 ⟨ip, hmem, if_pos hch⟩, rfl⟩

def Database.eventsOf (db : Database) (cidr : Text) : List EventRow :=
  db.events.filter fun event => db.runs[event.runId]?.any fun run => run.cidr = cidr

/-- What holds of the tables after every sequence of saves. -/
structure Sound (db : Database) : Prop where
  faithful : ∀ cidr, replay EventRow.ip EventRow.apply (db.eventsOf cidr) (fun _ => none) =
    stateAt (db.currentRows cidr)
  unique : ∀ cidr, ((db.currentRows cidr).map StoredResult.ip).Nodup
  referenced : ∀ event ∈ db.events, event.runId < db.runs.length

def ValidatedRun.row (run : ValidatedRun) : RunRow :=
  ⟨run.revision, run.cidr, run.startedAt, run.finishedAt, run.isSuccess, run.targetCount,
    run.completedTargetCount,
    run.errorClass⟩

theorem insert_runs : (insertValidatedRun db run).runs = db.runs ++ [run.row] := by
  unfold insertValidatedRun
  dsimp only
  split_ifs <;> rfl

theorem insert_failed (h : run.isSuccess = false) :
    insertValidatedRun db run = { db with runs := db.runs ++ [run.row] } := by
  unfold insertValidatedRun
  dsimp only
  rw [if_neg (by rw [h]; exact Bool.false_ne_true)]
  rfl

theorem insert_success (h : run.isSuccess = true) : insertValidatedRun db run =
    { runs := db.runs ++ [run.row]
      events := db.events ++ changeEvents db.runs.length (db.currentRows run.cidr) run.results run.finishedAt
      results := db.results.filter (fun row => row.cidr ≠ run.cidr) ++
        run.results.map fun result => ⟨run.cidr, db.runs.length, result⟩ } := by
  unfold insertValidatedRun
  rw [if_pos h]
  rfl

theorem currentRows_insert_self (h : run.isSuccess = true) :
    (insertValidatedRun db run).currentRows run.cidr = run.results := by
  rw [insert_success h]
  unfold Database.currentRows
  have hot : (db.results.filter fun row => row.cidr ≠ run.cidr).filter
    (fun row => row.cidr = run.cidr) = [] := by
    rw [filter_filter, filter_eq_nil_iff]
    simp
  have hns : (run.results.map fun result => (⟨run.cidr, db.runs.length, result⟩ : ResultRow)).filter
      (fun row => row.cidr = run.cidr) = _ := filter_eq_self.2 fun row hrow => by
    obtain ⟨result, -, rfl⟩ := mem_map.1 hrow
    exact decide_eq_true rfl
  rw [filter_append, hot, hns, nil_append, map_map]
  exact map_id _

theorem currentRows_insert_of (h : run.isSuccess = false ∨ run.cidr ≠ cidr) :
    (insertValidatedRun db run).currentRows cidr = db.currentRows cidr := by
  cases hsc : run.isSuccess with
  | false =>
    rw [insert_failed hsc]
    rfl
  | true =>
    have hne : run.cidr ≠ cidr := h.resolve_left (by rw [hsc]; nofun)
    rw [insert_success hsc]
    unfold Database.currentRows
    have hot : (db.results.filter fun row => row.cidr ≠ run.cidr).filter (fun row => row.cidr = cidr) =
        db.results.filter fun row => row.cidr = cidr := by
      rw [filter_filter]
      apply filter_congr
      intro row _
      by_cases hrow : row.cidr = cidr
      · simp [hrow, Ne.symm hne]
      · simp [hrow]
    have hns : (run.results.map fun result => (⟨run.cidr, db.runs.length, result⟩ : ResultRow)).filter
        (fun row => row.cidr = cidr) = [] := filter_eq_nil_iff.2 fun row hrow hsm => by
      obtain ⟨result, -, rfl⟩ := mem_map.1 hrow
      exact hne (of_decide_eq_true hsm)
    rw [filter_append, hot, hns, append_nil]

theorem oldEvents_insert (href : ∀ event ∈ db.events, event.runId < db.runs.length) :
    db.events.filter (fun event => (db.runs ++ [run.row])[event.runId]?.any fun row =>
      row.cidr = cidr) = db.eventsOf cidr := by
  apply filter_congr
  intro event hev
  rw [getElem?_append_left (href event hev)]

theorem eventsOf_insert_failed (h : run.isSuccess = false)
    (href : ∀ event ∈ db.events, event.runId < db.runs.length) :
    (insertValidatedRun db run).eventsOf cidr = db.eventsOf cidr := by
  rw [insert_failed h]
  exact oldEvents_insert href

theorem runId_of_changeEvents (h : event ∈ changeEvents runId old new observedAt) :
    event.runId = runId := by
  obtain ⟨ip, -, -, rfl⟩ := ip_of_changeEvents h
  rfl

theorem eventsOf_insert_success (h : run.isSuccess = true)
    (href : ∀ event ∈ db.events, event.runId < db.runs.length) :
    (insertValidatedRun db run).eventsOf cidr = db.eventsOf cidr ++
      if run.cidr = cidr then changeEvents db.runs.length
        (db.currentRows run.cidr) run.results run.finishedAt else [] := by
  have hnew : ∀ event ∈ changeEvents db.runs.length (db.currentRows run.cidr) run.results run.finishedAt,
      ((db.runs ++ [run.row])[event.runId]?.any fun row => row.cidr = cidr) = decide (run.cidr = cidr) := by
    intro event hev
    rw [runId_of_changeEvents hev, getElem?_concat_length]
    rfl
  rw [insert_success h]
  unfold Database.eventsOf
  dsimp only
  rw [filter_append, oldEvents_insert href, filter_congr hnew]
  unfold Database.eventsOf
  by_cases hcid : run.cidr = cidr
  · rw [if_pos hcid, decide_eq_true hcid, filter_true]
  · rw [if_neg hcid, decide_eq_false hcid, filter_false]

theorem Sound.insert (h : Sound db) (run : ValidatedRun) : Sound (insertValidatedRun db run) := by
  cases hsc : run.isSuccess with
  | false =>
    refine ⟨fun cidr => ?_, fun cidr => ?_, ?_⟩
    · rw [eventsOf_insert_failed hsc h.referenced, currentRows_insert_of (.inl hsc)]
      exact h.faithful cidr
    · rw [currentRows_insert_of (.inl hsc)]
      exact h.unique cidr
    · rw [insert_failed hsc]
      intro event hev
      rw [length_append]
      exact Nat.lt_succ_of_lt (h.referenced event hev)
  | true =>
    refine ⟨fun cidr => ?_, fun cidr => ?_, ?_⟩
    · rw [eventsOf_insert_success hsc h.referenced, replay_append, h.faithful]
      by_cases hcid : run.cidr = cidr
      · subst hcid
        rw [if_pos rfl, currentRows_insert_self hsc]
        exact replay_changeEvents run.isStated
      · rw [if_neg hcid, currentRows_insert_of (.inr hcid)]
        rfl
    · by_cases hcid : run.cidr = cidr
      · subst hcid
        rw [currentRows_insert_self hsc]
        exact run.isUnique
      · rw [currentRows_insert_of (.inr hcid)]
        exact h.unique cidr
    · rw [insert_success hsc]
      intro event hev
      rw [length_append, length_singleton]
      rcases mem_append.1 hev with hold | hnew
      · exact Nat.lt_succ_of_lt (h.referenced event hold)
      · rw [runId_of_changeEvents hnew]
        exact Nat.lt_succ_self _

/-- The runs of a save all take effect: a row for each, in their order, and of every
network the results of its last run that succeeded. -/
structure Applies (runs : List ValidatedRun) (before after : Database) : Prop where
  rows : after.runs = before.runs ++ runs.map ValidatedRun.row
  results : ∀ cidr, after.currentRows cidr =
    (((runs.filter fun run => run.isSuccess && run.cidr = cidr).getLast?).map ValidatedRun.results).getD
      (before.currentRows cidr)
  quiet : ∀ cidr, (∀ run ∈ runs, run.cidr = cidr → run.isSuccess = false) →
    after.eventsOf cidr = before.eventsOf cidr ∧ after.currentRows cidr = before.currentRows cidr

theorem applies_nil : Applies [] db db := by
  refine ⟨?_, fun _ => rfl, fun _ _ => ⟨rfl, rfl⟩⟩
  rw [map_nil, append_nil]

theorem Applies.cons {after : Database} (hsn : Sound db)
    (h : Applies runs (insertValidatedRun db run) after) :
    Applies (run :: runs) db after := by
  constructor
  · rw [h.rows, insert_runs, append_assoc, map_cons, singleton_append]
  · intro cidr
    rw [h.results]
    by_cases hrun : run.isSuccess = true ∧ run.cidr = cidr
    · obtain ⟨hsc, rfl⟩ := hrun
      rw [currentRows_insert_self hsc, filter_cons_of_pos (by simp [hsc]), getLast?_cons]
      cases (runs.filter fun later => later.isSuccess && later.cidr = run.cidr).getLast? <;> rfl
    · have hne : run.isSuccess = false ∨ run.cidr ≠ cidr := by
        rw [← Bool.not_eq_true]
        exact not_and_or.1 hrun
      have hsk : ¬(run.isSuccess && run.cidr = cidr) = true := by simpa using hrun
      rw [currentRows_insert_of hne,
        filter_cons_of_neg (p := fun later : ValidatedRun => later.isSuccess && later.cidr = cidr) hsk]
  · intro cidr hfi
    obtain ⟨heve, hrs⟩ := h.quiet cidr fun later hlt => hfi later (mem_cons_of_mem run hlt)
    rw [heve, hrs]
    by_cases hcid : run.cidr = cidr
    · have hrun := hfi run mem_cons_self hcid
      exact ⟨eventsOf_insert_failed hrun hsn.referenced, currentRows_insert_of (.inl hrun)⟩
    · refine ⟨?_, currentRows_insert_of (.inr hcid)⟩
      cases hsc : run.isSuccess with
      | false => exact eventsOf_insert_failed hsc hsn.referenced
      | true => rw [eventsOf_insert_success hsc hsn.referenced, if_neg hcid, append_nil]

theorem applies_foldl (hsn : Sound db) (runs : List ValidatedRun) :
    Sound (runs.foldl insertValidatedRun db) ∧ Applies runs db (runs.foldl insertValidatedRun db) := by
  induction runs generalizing db with
  | nil => exact ⟨hsn, applies_nil⟩
  | cons first rest ih =>
    obtain ⟨haf, hap⟩ := ih (hsn.insert first)
    exact ⟨haf, hap.cons hsn⟩

def IsWhole (before after : Database) (save : Save) : Prop :=
  after = before ∧ (saveAvailabilityRuns before save).2 = none ∨ (saveAvailabilityRuns before save).2 ≠ none ∧
      ∃ runs, save.runs.mapM (validatedRun save.context) = some runs ∧ Applies runs before after

theorem step_whole (hsn : Sound db) (save : Save) : Sound (step db save) ∧
    IsWhole db (step db save) save := by
  unfold step IsWhole saveAvailabilityRuns
  cases hvl : save.runs.mapM (validatedRun save.context) with
  | none => exact ⟨hsn, .inl ⟨rfl, rfl⟩⟩
  | some runs =>
    cases hfl : save.fails with
    | true => exact ⟨hsn, .inl ⟨rfl, rfl⟩⟩
    | false =>
      obtain ⟨haf, hap⟩ := applies_foldl hsn runs
      exact ⟨haf, .inr ⟨Option.some_ne_none _, runs, rfl, hap⟩⟩

/-- The tables before the first save. -/
def empty : Database := ⟨[], [], []⟩

theorem sound_empty : Sound empty := ⟨fun _ => rfl, fun _ => nodup_nil, nofun⟩

/-- **The log of availability is faithful**: after every sequence of saves the events of
a network lead, address by address, to its results, and every save is one whole. -/
theorem availability_log_is_faithful (saves : List Save) :
    (∀ cidr, replay EventRow.ip EventRow.apply ((WebOvpn.run step empty saves).eventsOf cidr)
      (fun _ => none) =
      stateAt ((WebOvpn.run step empty saves).currentRows cidr)) ∧
    Along step (fun db save => IsWhole db (step db save) save) empty saves := by
  have hsn : ∀ saves : List Save, Sound (WebOvpn.run step empty saves) := fun saves =>
    run_keeps sound_empty fun db save h => (step_whole h save).1
  refine ⟨fun cidr => (hsn saves).faithful cidr, ?_⟩
  have halo : ∀ (db : Database) (saves : List Save), Sound db →
      Along step (fun db save => IsWhole db (step db save) save) db saves := by
    intro db saves
    induction saves generalizing db with
    | nil => exact fun _ => trivial
    | cons save rest ih => exact fun h => ⟨(step_whole h save).2, ih _ (step_whole h save).1⟩
  exact halo empty saves sound_empty

end WebOvpn.Availability
