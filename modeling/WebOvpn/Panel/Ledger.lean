/-
Operations of the panel: registration, execution in the pool of a process, and what
becomes of work whose lease has run out.  No operation runs twice, its outcome is kept,
and the slots are accounted for.
-/
import WebOvpn.Lib.Calendar
import WebOvpn.Lib.Rows
import WebOvpn.Lib.Run

namespace WebOvpn.Panel

open Text

/-- The statuses of an operation. -/
inductive Status where
  | registered
  | running
  | succeeded
  | failed
  | unknown
  | partialResult
  deriving DecidableEq

inductive PhaseStatus where
  | succeeded
  | unknown
  | failed
  deriving DecidableEq

structure PhaseRecord where
  name : Text
  status : PhaseStatus
  deriving DecidableEq

structure Thread where
  process : Nat
  index : Nat
  deriving DecidableEq

/-- A row of `panel_operations`; its identifier is its place in the table.
`registrar` is the thread that inserted it, which no column holds. -/
structure Operation where
  registrar : Thread
  owner : Text
  action : Text
  permission : Text
  fingerprint : Text
  intentHash : Text
  status : Status
  phases : List PhaseRecord
  artifactIds : List Nat
  leaseUntil : Instant
  createdAt : Instant
  finishedAt : Option Instant
  verifiedAt : Option Instant
  deriving DecidableEq

def Operation.isUnresolved (row : Operation) : Bool :=
  match row.status with
  | .registered => true
  | .running => true
  | .unknown => row.verifiedAt.isNone
  | .partialResult => row.verifiedAt.isNone
  | _ => false

def Operation.clashes (row other : Operation) : Bool :=
  row.fingerprint = other.fingerprint ||
    (row.isUnresolved && other.isUnresolved && row.intentHash = other.intentHash)

/-- The database, the free slots of every process, and the processes that are gone. -/
structure Shared where
  rows : List Operation
  slots : Nat → Nat
  lost : Nat → Bool

def Shared.setRow (s : Shared) (id : Nat) (f : Operation → Operation) : Shared :=
  { s with rows := s.rows.modify id f }

def Shared.releaseSlot (s : Shared) (process : Nat) : Shared :=
  { s with slots := Function.update s.slots process (s.slots process + 1) }

/-- The `update` of `recover` on a row. -/
def Operation.expired (row : Operation) (now finished : Instant) : Operation :=
  if (row.status = .registered ∨ row.status = .running) ∧ row.leaseUntil < now then
    { row with status := .unknown, finishedAt := some finished }
  else row

def recover (now finished : Instant) (s : Shared) : Shared :=
  { s with rows := s.rows.map fun row => row.expired now finished }

def Operation.claimed (row : Operation) (now : Instant) : Operation :=
  if row.status = .registered ∧ now < row.leaseUntil then { row with status := .running } else row

/-- What `_execute` writes when it may not claim the row. -/
def Operation.lapsed (row : Operation) (now finished : Instant) : Operation :=
  if row.status = .registered ∧ row.leaseUntil ≤ now then
    { row with status := .unknown, finishedAt := some finished }
  else row

/-- What a run of the callable ends with. -/
inductive Result where
  | response (statusCode : Nat)
  | httpError
  | exception
  deriving DecidableEq

structure Outcome where
  phases : List PhaseRecord
  artifactIds : List Nat
  result : Result
  deriving DecidableEq

/-- The status that `_execute` computes. -/
def Outcome.status (outcome : Outcome) : Status :=
  let successes := outcome.phases.any fun p => p.status = .succeeded
  let errors := outcome.phases.any fun p => p.status ≠ .succeeded
  match outcome.result with
  | .response statusCode =>
    if errors then
      if successes then .partialResult
      else if outcome.phases.any fun p => p.status = .unknown then .unknown
      else .failed
    else if 400 ≤ statusCode then if successes then .partialResult else .failed
    else .succeeded
  | .httpError => if successes then .partialResult else if outcome.phases ≠ [] then .unknown else .failed
  | .exception => if successes then .partialResult else .unknown

/-- The last `update` of `_execute`. -/
def Operation.finished (row : Operation) (outcome : Outcome) (now : Instant) : Operation :=
  if row.status = .running then
    { row with
      status := outcome.status
      phases := outcome.phases
      artifactIds := outcome.artifactIds
      finishedAt := some now }
  else row

/-- What the routes for verification write. -/
def Operation.verified (row : Operation) (now : Instant) : Operation :=
  if row.status = .unknown ∨ row.status = .partialResult then { row with verifiedAt := some now } else row

/-- `LEASE_SECONDS`, in microseconds. -/
def leaseMicros : Nat := 1800000000

def slotCount : Nat := 32

/-- A call of `register`, with the two keys that it computes. -/
structure Call where
  owner : Text
  action : Text
  permission : Text
  fingerprint : Text
  intentHash : Text
  deriving DecidableEq

/-- The row that `register` inserts. -/
def Call.row (call : Call) (registrar : Thread) (leaseUntil now : Instant) : Operation where
  registrar := registrar
  owner := call.owner
  action := call.action
  permission := call.permission
  fingerprint := call.fingerprint
  intentHash := call.intentHash
  status := .registered
  phases := []
  artifactIds := []
  leaseUntil := leaseUntil
  createdAt := now
  finishedAt := none
  verifiedAt := none

/-- The `where` of the second query of `register`. -/
def Call.isBlockedBy (call : Call) (row : Operation) : Bool :=
  row.intentHash = call.intentHash && row.isUnresolved

/-- The `where` of the query after the insert was refused. -/
def Call.isTakenBy (call : Call) (row : Operation) : Bool :=
  row.fingerprint = call.fingerprint || call.isBlockedBy row

/-- Where a thread is that registers an operation and, once the pool took it,
executes it; `answered` has the operation that was there before, if it was not
an exception. -/
inductive Phase where
  | idle
  | recovering (call : Call)
  | looking (call : Call)
  | comparing (call : Call)
  | waiting (call : Call)
  | inserting (call : Call)
  | reselecting (call : Call)
  | submitting (id : Nat)
  | answered (existing : Option Nat)
  | queued (id : Nat)
  | refused (id : Nat)
  | calling (id : Nat)
  | writing (id : Nat) (outcome : Outcome)
  | ending (id : Nat) (reached : Option Outcome)
  | over (id : Nat) (reached : Option Outcome)
  deriving DecidableEq

/-- The next step of a thread, with the readings of the clock and what the
callable and the pool do; `raise` is an exception of the database, or one that
is not an `Exception`. -/
inductive Event where
  | call (call : Call)
  | recover (now finished : Instant)
  | look
  | takeSlot
  | insert (now later : Instant)
  | submit (accepted : Bool)
  | claim (now : Instant)
  | lapse (now finished : Instant)
  | finish (outcome : Outcome)
  | write (now : Instant)
  | release
  | raise
  | verify (id : Nat) (now : Instant)
  | lose

def lookStep (found : Option Nat) (next : Phase) : Phase :=
  match found with
  | some id => .answered (some id)
  | none => next

/-- `_slots.acquire(blocking=False)`. -/
def takeStep (who : Thread) (call : Call) (s : Shared) : Shared × Phase :=
  if s.slots who.process = 0 then (s, .answered none)
  else ({ s with slots := Function.update s.slots who.process (s.slots who.process - 1) }, .inserting call)

/-- The row is inserted unless a unique index forbids it; the end of its lease
may overflow. -/
def insertStep (who : Thread) (call : Call) (leaseUntil : Option Instant) (now : Instant) (s : Shared) :
    Shared × Phase :=
  match leaseUntil with
  | none => (s.releaseSlot who.process, .answered none)
  | some leaseUntil =>
    if s.rows.any (call.row who leaseUntil now).clashes then (s, .reselecting call)
    else ({ s with rows := s.rows ++ [call.row who leaseUntil now] }, .submitting s.rows.length)

def claimStep (id : Nat) (now : Instant) (s : Shared) : Shared × Phase :=
  match s.rows[id]? with
  | some row =>
    if row.status = .registered ∧ now < row.leaseUntil then
      (s.setRow id fun row => row.claimed now, .calling id)
    else (s, .refused id)
  | none => (s, .refused id)

def liveStep (who : Thread) (event : Event) (s : Shared) (phase : Phase) : Shared × Phase :=
  match phase, event with
  | .idle, .call call => (s, .recovering call)
  | .recovering call, .recover now finished => (recover now finished s, .looking call)
  | .looking call, .look =>
    (s, lookStep (s.rows.findIdx? fun row => row.fingerprint = call.fingerprint) (.comparing call))
  | .comparing call, .look => (s, lookStep (s.rows.findIdx? call.isBlockedBy) (.waiting call))
  | .waiting call, .takeSlot => takeStep who call s
  | .recovering _, .raise => (s, .answered none)
  | .looking _, .raise => (s, .answered none)
  | .comparing _, .raise => (s, .answered none)
  | .inserting call, .insert now later => insertStep who call (now.add? leaseMicros) later s
  | .inserting _, .raise => (s.releaseSlot who.process, .answered none)
  | .reselecting call, .look => (s.releaseSlot who.process, .answered (s.rows.findIdx? call.isTakenBy))
  | .reselecting _, .raise => (s.releaseSlot who.process, .answered none)
  | .submitting id, .submit true => (s, .queued id)
  | .submitting _, .submit false => (s.releaseSlot who.process, .answered none)
  | .queued id, .claim now => claimStep id now s
  | .queued id, .raise => (s, .ending id none)
  | .refused id, .lapse now finished =>
    (s.setRow id fun row => row.lapsed now finished, .ending id none)
  | .refused id, .raise => (s, .ending id none)
  | .calling id, .finish outcome => (s, .writing id outcome)
  | .calling id, .raise => (s, .ending id none)
  | .writing id outcome, .write now =>
    (s.setRow id fun row => row.finished outcome now, .ending id (some outcome))
  | .writing id _, .raise => (s, .ending id none)
  | .ending id reached, .release => (s.releaseSlot who.process, .over id reached)
  | .idle, .recover now finished => (recover now finished s, .idle)
  | .idle, .verify id now => (s.setRow id fun row => row.verified now, .idle)
  | phase, .lose => ({ s with lost := Function.update s.lost who.process true }, phase)
  | phase, _ => (s, phase)

def act (who : Thread) (event : Event) (s : Shared) (phase : Phase) : Shared × Phase :=
  if s.lost who.process then (s, phase) else liveStep who event s phase

open Text

variable {s s' : Shared} {phase phase' : Phase} {event : Event} {who other : Thread}
    {row row' : Operation}
  {id : Nat}

abbrev Threads := Crew Thread Shared Phase

abbrev Moves := List (Thread × Event)

/-- What any thread can do to a row. -/
inductive Ages (row : Operation) : Event → Operation → Prop where
  | same {event : Event} : Ages row event row
  | expired (now finished : Instant) : Ages row (.recover now finished) (row.expired now finished)
  | verified (id : Nat) (now : Instant) : Ages row (.verify id now) (row.verified now)

inductive Executes (row : Operation) (id : Nat) : Event → Phase → Operation → Phase → Prop where
  | claims (now : Instant) (h : row.status = .registered ∧ now < row.leaseUntil) :
      Executes row id (.claim now) (.queued id) (row.claimed now) (.calling id)
  | lapses (now finished : Instant) :
      Executes row id (.lapse now finished) (.refused id) (row.lapsed now finished) (.ending id none)
  | finishes (outcome : Outcome) (now : Instant) :
      Executes row id (.write now) (.writing id outcome) (row.finished outcome now) (.ending id (some outcome))

/-- The operation that a thread has registered. -/
def Phase.id? : Phase → Option Nat
  | .submitting id => some id
  | .queued id => some id
  | .refused id => some id
  | .calling id => some id
  | .writing id _ => some id
  | .ending id _ => some id
  | .over id _ => some id
  | _ => none

/-- What a step does to the table: every row ages or is executed, and a new row
clashes with none. -/
structure RowsChange (who : Thread) (event : Event) (s : Shared) (phase : Phase) (s' : Shared)
    (phase' : Phase) : Prop where
  kept : ∀ id row, s.rows[id]? = some row → ∃ row', s'.rows[id]? = some row' ∧
    (Ages row event row' ∨ Executes row id event phase row' phase')
  added : s'.rows.length = s.rows.length ∨ ∃ call leaseUntil now,
    s'.rows = s.rows ++ [Call.row call who leaseUntil now] ∧
      s.rows.any (Call.row call who leaseUntil now).clashes = false

theorem RowsChange.of_rows_eq (h : s'.rows = s.rows) : RowsChange who event s phase s' phase' := by
  refine ⟨fun id row hrow => ⟨row, ?_, .inl .same⟩, .inl (by rw [h])⟩
  rw [h]
  exact hrow

theorem RowsChange.modify {f : Operation → Operation}
    (h : ∀ row, s.rows[id]? = some row → Ages row event (f row) ∨
      Executes row id event phase (f row) phase') :
    RowsChange who event s phase (s.setRow id f) phase' := by
  constructor
  · intro id' row hrow
    unfold Shared.setRow
    rw [List.getElem?_modify, hrow]
    split
    · rename_i heq
      subst heq
      exact ⟨f row, rfl, h row hrow⟩
    · exact ⟨row, rfl, .inl .same⟩
  · left
    unfold Shared.setRow
    exact List.length_modify ..

theorem recover_rowsChange (now finished : Instant) :
    RowsChange who (.recover now finished) s phase (recover now finished s) phase' := by
  constructor
  · intro id row hrow
    unfold recover
    rw [List.getElem?_map, hrow]
    exact ⟨_, rfl, .inl (.expired now finished)⟩
  · left
    unfold recover
    exact List.length_map ..

theorem insertStep_rowsChange (call : Call) (leaseUntil : Option Instant) (now : Instant) :
    RowsChange who event s phase (insertStep who call leaseUntil now s).1
      (insertStep who call leaseUntil now s).2 := by
  unfold insertStep
  split
  · exact .of_rows_eq rfl
  · split
    · exact .of_rows_eq rfl
    · rename_i hcl
      refine ⟨fun id row hrow => ⟨row, ?_, .inl .same⟩, .inr ⟨_, _, _, rfl, Bool.eq_false_iff.2 hcl⟩⟩
      rw [List.getElem?_append_left (List.getElem?_eq_some_iff.1 hrow).1]
      exact hrow

theorem claimStep_rowsChange (now : Instant) :
    RowsChange who (.claim now) s (.queued id) (claimStep id now s).1 (claimStep id now s).2 := by
  unfold claimStep
  split
  · rename_i row hrow
    split
    · rename_i hfr
      apply RowsChange.modify
      intro row' hrow'
      cases hrow.symm.trans hrow'
      exact .inr (.claims now hfr)
    · exact .of_rows_eq rfl
  · exact .of_rows_eq rfl

theorem liveStep_rowsChange :
    RowsChange who event s phase (liveStep who event s phase).1 (liveStep who event s phase).2 := by
  unfold liveStep
  split
  · exact .of_rows_eq rfl
  · exact recover_rowsChange _ _
  · exact .of_rows_eq rfl
  · exact .of_rows_eq rfl
  · unfold takeStep
    split <;> exact .of_rows_eq rfl
  · exact .of_rows_eq rfl
  · exact .of_rows_eq rfl
  · exact .of_rows_eq rfl
  · exact insertStep_rowsChange _ _ _
  · exact .of_rows_eq rfl
  · exact .of_rows_eq rfl
  · exact .of_rows_eq rfl
  · exact .of_rows_eq rfl
  · exact .of_rows_eq rfl
  · exact claimStep_rowsChange _
  · exact .of_rows_eq rfl
  · exact .modify fun row _ => .inr (.lapses _ _)
  · exact .of_rows_eq rfl
  · exact .of_rows_eq rfl
  · exact .of_rows_eq rfl
  · exact .modify fun row _ => .inr (.finishes _ _)
  · exact .of_rows_eq rfl
  · exact .of_rows_eq rfl
  · exact recover_rowsChange _ _
  · exact .modify fun row _ => .inl (.verified _ _)
  · exact .of_rows_eq rfl
  · exact .of_rows_eq rfl

theorem act_rowsChange :
    RowsChange who event s phase (act who event s phase).1 (act who event s phase).2 := by
  unfold act
  split
  · exact .of_rows_eq rfl
  · exact liveStep_rowsChange

structure Carries (row : Operation) (outcome : Outcome) : Prop where
  status : row.status = outcome.status
  phases : row.phases = outcome.phases
  artifactIds : row.artifactIds = outcome.artifactIds

/-- The row has neither phases nor artifacts, and the status or `unknown`. -/
structure Blank (row : Operation) (status : Status) : Prop where
  status : row.status = status ∨ row.status = .unknown
  phases : row.phases = []
  artifactIds : row.artifactIds = []

def Fits (row : Operation) : Phase → Prop
  | .submitting _ => Blank row .registered
  | .queued _ => Blank row .registered
  | .refused _ => Blank row .registered
  | .calling _ => Blank row .running
  | .writing _ _ => Blank row .running
  | .ending _ (some outcome) => Carries row outcome ∨ Blank row .unknown
  | .over _ (some outcome) => Carries row outcome ∨ Blank row .unknown
  | _ => True

theorem Outcome.status_cases (outcome : Outcome) : outcome.status = .succeeded ∨
    outcome.status = .failed ∨
    outcome.status = .unknown ∨ outcome.status = .partialResult := by
  unfold Outcome.status
  cases outcome.result <;> dsimp only <;> split_ifs <;> simp

theorem Blank.ages {status : Status} (h : Blank row status) (hag : Ages row event row') :
    Blank row' status := by
  cases hag with
  | same => exact h
  | expired now finished =>
    unfold Operation.expired
    split
    · exact ⟨.inr rfl, h.phases, h.artifactIds⟩
    · exact h
  | verified _ now =>
    unfold Operation.verified
    split
    · exact ⟨h.status, h.phases, h.artifactIds⟩
    · exact h

theorem Carries.ages {outcome : Outcome} (h : Carries row outcome) (hag : Ages row event row') :
    Carries row' outcome := by
  cases hag with
  | same => exact h
  | expired now finished =>
    unfold Operation.expired
    rw [if_neg]
    · exact h
    · rintro ⟨hst, -⟩
      rw [h.status] at hst
      have hcs := outcome.status_cases
      grind
  | verified _ now =>
    unfold Operation.verified
    split
    · exact ⟨h.status, h.phases, h.artifactIds⟩
    · exact h

theorem Fits.ages (h : Fits row phase) (hag : Ages row event row') : Fits row' phase := by
  cases phase with
  | submitting id => exact Blank.ages h hag
  | queued id => exact Blank.ages h hag
  | refused id => exact Blank.ages h hag
  | calling id => exact Blank.ages h hag
  | writing id outcome => exact Blank.ages h hag
  | ending id reached =>
    cases reached with
    | none => trivial
    | some outcome => exact h.imp (fun h => h.ages hag) fun h => h.ages hag
  | «over» id reached =>
    cases reached with
    | none => trivial
    | some outcome => exact h.imp (fun h => h.ages hag) fun h => h.ages hag
  | _ => trivial

theorem Fits.executes (h : Fits row phase) (hst : Executes row id event phase row' phase') :
    Fits row' phase' := by
  cases hst with
  | claims now hfr =>
    unfold Operation.claimed
    rw [if_pos hfr]
    exact ⟨.inl rfl, h.phases, h.artifactIds⟩
  | lapses now finished => trivial
  | finishes outcome now =>
    unfold Operation.finished
    split
    · exact .inl ⟨rfl, rfl, rfl⟩
    · rename_i hsa
      exact .inr ⟨.inl (h.status.resolve_left hsa), h.phases, h.artifactIds⟩

def Follows (who : Thread) (event : Event) (s : Shared) (phase : Phase) (s' : Shared)
    (phase' : Phase) : Prop :=
  ∀ id, phase'.id? = some id → phase.id? = some id ∧ ((∀ row, Fits row phase → Fits row phase') ∨
        ∃ row row', s.rows[id]? = some row ∧ s'.rows[id]? = some row' ∧
          Executes row id event phase row' phase') ∨
      id = s.rows.length ∧ ∃ row, s'.rows[id]? = some row ∧ row.registrar = who ∧ Fits row phase'

theorem Follows.of_none (h : phase'.id? = none) : Follows who event s phase s' phase' := by
  intro id hid
  rw [h] at hid
  cases hid

theorem Follows.of_fits (hid : phase'.id? = phase.id?) (h : ∀ row, Fits row phase → Fits row phase') :
    Follows who event s phase s' phase' :=
  fun _ hph => .inl ⟨hid ▸ hph, .inl h⟩

theorem setRow_self {f : Operation → Operation} (hrow : s.rows[id]? = some row) :
    (s.setRow id f).rows[id]? = some (f row) := by
  simp [Shared.setRow, hrow]

theorem claimStep_follows (now : Instant) :
    Follows who (.claim now) s (.queued id) (claimStep id now s).1 (claimStep id now s).2 := by
  unfold claimStep
  split
  · rename_i row hrow
    split
    · rename_i hfr
      rintro id' ⟨⟩
      exact .inl ⟨rfl, .inr ⟨row, _, hrow, setRow_self hrow, .claims now hfr⟩⟩
    · exact .of_fits rfl fun _ h => h
  · exact .of_fits rfl fun _ h => h

theorem insertStep_follows (call : Call) (leaseUntil : Option Instant) (now : Instant) :
    Follows who event s phase (insertStep who call leaseUntil now s).1
      (insertStep who call leaseUntil now s).2 := by
  unfold insertStep
  split
  · exact .of_none rfl
  · split
    · exact .of_none rfl
    · rintro id ⟨⟩
      exact .inr ⟨rfl, _, List.getElem?_concat_length .., rfl, .inl rfl, rfl, rfl⟩

theorem finishes_follows (outcome : Outcome) (now : Instant) (hrow : s.rows[id]? = some row) :
    Follows who (.write now) s (.writing id outcome) (s.setRow id fun row => row.finished outcome now)
      (.ending id (some outcome)) := by
  rintro id' ⟨⟩
  exact .inl ⟨rfl, .inr ⟨row, _, hrow, setRow_self hrow, .finishes outcome now⟩⟩

theorem lookStep_id? (found : Option Nat) (hph : phase.id? = none) :
    (lookStep found phase).id? = none := by
  unfold lookStep
  split
  · rfl
  · exact hph

theorem liveStep_follows (h : ∀ id, phase.id? = some id → ∃ row, s.rows[id]? = some row) :
    Follows who event s phase (liveStep who event s phase).1 (liveStep who event s phase).2 := by
  unfold liveStep
  split
  · exact .of_none rfl
  · exact .of_none rfl
  · exact .of_none (lookStep_id? _ rfl)
  · exact .of_none (lookStep_id? _ rfl)
  · unfold takeStep
    split <;> exact .of_none rfl
  · exact .of_none rfl
  · exact .of_none rfl
  · exact .of_none rfl
  · exact insertStep_follows _ _ _
  · exact .of_none rfl
  · exact .of_none rfl
  · exact .of_none rfl
  · exact .of_fits rfl fun _ h => h
  · exact .of_none rfl
  · exact claimStep_follows _
  · exact .of_fits rfl fun _ _ => trivial
  · exact .of_fits rfl fun _ _ => trivial
  · exact .of_fits rfl fun _ _ => trivial
  · exact .of_fits rfl fun _ h => h
  · exact .of_fits rfl fun _ _ => trivial
  · obtain ⟨row, hrow⟩ := h _ rfl
    exact finishes_follows _ _ hrow
  · exact .of_fits rfl fun _ _ => trivial
  · rename_i id reached
    cases reached with
    | none => exact .of_fits rfl fun _ _ => trivial
    | some outcome => exact .of_fits rfl fun _ h => h
  · exact .of_none rfl
  · exact .of_none rfl
  · exact .of_fits rfl fun _ h => h
  · exact .of_fits rfl fun _ h => h

theorem act_follows (h : ∀ id, phase.id? = some id → ∃ row, s.rows[id]? = some row) :
    Follows who event s phase (act who event s phase).1 (act who event s phase).2 := by
  unfold act
  split
  · exact .of_fits rfl fun _ h => h
  · exact liveStep_follows h

/-- The statuses that an operation ends with. -/
def Status.isTerminal : Status → Bool
  | .registered => false
  | .running => false
  | _ => true

theorem Ages.registrar (h : Ages row event row') : row'.registrar = row.registrar := by
  cases h with
  | same => rfl
  | expired now finished =>
    unfold Operation.expired
    split <;> rfl
  | verified _ now =>
    unfold Operation.verified
    split <;> rfl

theorem Executes.registrar (h : Executes row id event phase row' phase') :
    row'.registrar = row.registrar := by
  cases h with
  | claims now h =>
    unfold Operation.claimed
    split <;> rfl
  | lapses now finished =>
    unfold Operation.lapsed
    split <;> rfl
  | finishes outcome now =>
    unfold Operation.finished
    split <;> rfl

theorem Executes.id? (h : Executes row id event phase row' phase') : phase.id? = some id := by
  cases h <;> rfl

def Status.Moves (status status' : Status) : Prop :=
  status' = status ∨ status = .registered ∧ (status' = .running ∨ status' = .unknown) ∨
    status = .running ∧ status'.isTerminal = true

structure Advances (row row' : Operation) : Prop where
  fingerprint : row'.fingerprint = row.fingerprint
  intentHash : row'.intentHash = row.intentHash
  moves : row.status.Moves row'.status
  settled : row.status.isTerminal = true → row' = { row with verifiedAt := row'.verifiedAt }
  verified : row'.verifiedAt = row.verifiedAt ∨ row.status.isTerminal = true ∧ row'.verifiedAt.isSome = true

theorem Advances.refl (row : Operation) : Advances row row :=
  ⟨rfl, rfl, .inl rfl, fun _ => rfl, .inl rfl⟩

theorem Ages.advances (h : Ages row event row') : Advances row row' := by
  cases h with
  | same => exact .refl row
  | expired now finished =>
    unfold Operation.expired
    split
    · rename_i hex
      refine ⟨rfl, rfl, ?_, ?_, .inl rfl⟩
      · rcases hex.1 with h | h
        · exact .inr (.inl ⟨h, .inr rfl⟩)
        · exact .inr (.inr ⟨h, rfl⟩)
      · intro htr
        rcases hex.1 with h | h
        · rw [h] at htr
          cases htr
        · rw [h] at htr
          cases htr
    · exact .refl row
  | verified _ now =>
    unfold Operation.verified
    split
    · rename_i hend
      refine ⟨rfl, rfl, .inl rfl, fun _ => rfl, .inr ⟨?_, rfl⟩⟩
      rcases hend with h | h
      · rw [h]
        rfl
      · rw [h]
        rfl
    · exact .refl row

theorem Executes.advances (h : Executes row id event phase row' phase') : Advances row row' := by
  cases h with
  | claims now h =>
    unfold Operation.claimed
    rw [if_pos h]
    refine ⟨rfl, rfl, .inr (.inl ⟨h.1, .inl rfl⟩), ?_, .inl rfl⟩
    intro htr
    rw [h.1] at htr
    cases htr
  | lapses now finished =>
    unfold Operation.lapsed
    split
    · rename_i hls
      refine ⟨rfl, rfl, .inr (.inl ⟨hls.1, .inr rfl⟩), ?_, .inl rfl⟩
      intro htr
      rw [hls.1] at htr
      cases htr
    · exact .refl row
  | finishes outcome now =>
    unfold Operation.finished
    split
    · rename_i hrun
      refine ⟨rfl, rfl, .inr (.inr ⟨hrun, ?_⟩), ?_, .inl rfl⟩
      · rcases outcome.status_cases with h | h | h | h <;> exact congrArg Status.isTerminal h
      · intro htr
        rw [hrun] at htr
        cases htr
    · exact .refl row

theorem RowsChange.advances (h : RowsChange who event s phase s' phase')
    (hrow : s.rows[id]? = some row) :
    ∃ row', s'.rows[id]? = some row' ∧ Advances row row' ∧ row'.registrar = row.registrar := by
  obtain ⟨row', hrow', hag | hex⟩ := h.kept id row hrow
  · exact ⟨row', hrow', hag.advances, hag.registrar⟩
  · exact ⟨row', hrow', hex.advances, hex.registrar⟩

theorem isUnresolved_iff : row.isUnresolved = true ↔ row.status.isTerminal = false ∨
    (row.status = .unknown ∨ row.status = .partialResult) ∧ row.verifiedAt = none := by
  unfold Operation.isUnresolved
  cases row.status <;> simp [Status.isTerminal]

theorem Advances.unresolved (h : Advances row row') (hun : row'.isUnresolved = true) :
    row.isUnresolved = true := by
  apply isUnresolved_iff.2
  rcases h.moves with hsm | ⟨hrg, -⟩ | ⟨hrun, -⟩
  · rcases isUnresolved_iff.1 hun with hop | ⟨hend, hvr⟩
    · rw [hsm] at hop
      exact .inl hop
    · rw [hsm] at hend
      rcases h.verified with hkp | ⟨-, hso⟩
      · exact .inr ⟨hend, hkp ▸ hvr⟩
      · rw [hvr] at hso
        cases hso
  · rw [hrg]
    exact .inl rfl
  · rw [hrun]
    exact .inl rfl

theorem Advances.clashes {old old' : Operation} (h : Advances row row') (h' : Advances old old')
    (hcl : row'.clashes old' = true) : row.clashes old = true := by
  unfold Operation.clashes at *
  rw [h.fingerprint, h'.fingerprint, h.intentHash, h'.intentHash] at hcl
  simp only [Bool.or_eq_true, Bool.and_eq_true] at hcl ⊢
  exact hcl.imp id fun ⟨⟨hun, hun'⟩, hint⟩ =>
    ⟨⟨h.unresolved hun, h'.unresolved hun'⟩, hint⟩

end WebOvpn.Panel
