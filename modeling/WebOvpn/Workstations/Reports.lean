/-
What the service tells of a request: the readings of the callers, the reports
over a run, and the law of the service.
-/
import WebOvpn.Workstations.ServiceLaw

namespace WebOvpn.Workstations

open Text List
open Panel (Thread)

variable {operationId : Nat → Text} {s s' : Shared} {task : Task} {caller : Caller} {event : Event}
  {who other : Thread} {row row' reading : Request} {id : Nat} {c : Tasks} {moves : Moves} {orderly : Prop}

def writtenStatus (s : Shared) (task : Task) (event : Event) : Option (Nat × RequestStatus) :=
  match event, task.caller, task.request, task.body with
  | .caller (.write _), .recording id _ false, _, _ => some (id, .duplicate)
  | .caller (.write _), .recanting id, _, _ => some (id, .failed)
  | .caller (.check now), .checking id reading, _, _ =>
    if leasePassed s reading now then some (id, .unknown) else none
  | .caller .answer, .answering id reading, _, _ => some (id, reading.status)
  | .body (.write _), _, some id, .closing reply => s.requests[id]?.map fun row => (id, reply.status row.action)
  | _, _, _, _ => none

def Orderly (c : Tasks) (move : Thread × Event) : Prop :=
  ∀ id status row, writtenStatus c.shared (c.workers move.1) move.2 = some (id, status) →
    c.shared.requests[id]? = some row → row.status = .succeeded → status = .succeeded

def KeepsSucceeded (s s' : Shared) : Prop :=
  ∀ (id : Nat) (row : Request), s.requests[id]? = some row → row.status = .succeeded →
    ∃ row', s'.requests[id]? = some row' ∧ row'.status = .succeeded

theorem KeepsSucceeded.of_eq (h : s'.requests = s.requests) : KeepsSucceeded s s' := by
  intro id row hrow hst
  rw [h]
  exact ⟨row, hrow, hst⟩

theorem KeepsSucceeded.modify {f : Request → Request}
    (h : ∀ row, s.requests[id]? = some row → row.status = .succeeded → (f row).status = .succeeded) :
    KeepsSucceeded s (s.setRequest id f) := by
  intro id' row hrow hst
  unfold Shared.setRequest
  rw [getElem?_modify, hrow]
  split
  · rename_i heq
    subst heq
    exact ⟨f row, rfl, h row hrow hst⟩
  · exact ⟨row, rfl, hst⟩

theorem create_keepsSucceeded (start : Start) (now : Instant) :
    KeepsSucceeded s (create s start now task).1 := by
  unfold create
  split
  · exact .of_eq rfl
  · intro id row hrow hst
    refine ⟨row, ?_, hst⟩
    rw [getElem?_append_left (List.getElem?_eq_some_iff.1 hrow).1]
    exact hrow

theorem check_keepsSucceeded (now : Instant) (h : leasePassed s reading now = true →
    ∀ row, s.requests[id]? = some row → row.status ≠ .succeeded) :
      KeepsSucceeded s (check s id reading now).1 := by
  unfold check
  split
  · rename_i hps
    split
    · exact .of_eq rfl
    · exact .modify fun row hrow hst => absurd hst (h hps row hrow)
  · exact .of_eq rfl

theorem answerStep_keepsSucceeded (event : CallerEvent) (hcl : task.caller = caller)
    (h : ∀ id status row, writtenStatus s task (.caller event) = some (id, status) →
      s.requests[id]? = some row → row.status = .succeeded → status = .succeeded) :
    KeepsSucceeded s (answerStep operationId event s caller).1 := by
  unfold answerStep
  split
  · exact .of_eq rfl
  · exact .of_eq rfl
  · exact .of_eq rfl
  · rename_i id operation created now
    apply KeepsSucceeded.modify
    intro row hrow hst
    unfold recorded
    split
    · exact hst
    · rename_i hcr
      have hwr := h id .duplicate row (by
        unfold writtenStatus
        rw [hcl, Bool.not_eq_true _ |>.mp hcr]) hrow hst
      cases hwr
  · exact .of_eq rfl
  · exact .of_eq rfl
  · rename_i id now
    apply KeepsSucceeded.modify
    intro row hrow hst
    have hwr := h id .failed row (by
      unfold writtenStatus
      rw [hcl]) hrow hst
    cases hwr
  · exact .of_eq rfl
  · rename_i id reading now
    apply check_keepsSucceeded
    intro hps row hrow hst
    have hwr := h id .unknown row (by
      unfold writtenStatus
      rw [hcl]
      exact if_pos hps) hrow hst
    cases hwr
  · exact .of_eq rfl
  · exact .of_eq rfl
  · exact .of_eq rfl
  · exact .of_eq rfl
  · exact .modify fun _ _ _ => rfl
  all_goals exact .of_eq rfl

theorem callerStep_keepsSucceeded (event : CallerEvent)
    (h : ∀ id status row, writtenStatus s task (.caller event) = some (id, status) →
      s.requests[id]? = some row → row.status = .succeeded → status = .succeeded) :
    KeepsSucceeded s (callerStep operationId event s task).1 := by
  unfold callerStep
  split
  · exact .of_eq rfl
  · exact create_keepsSucceeded _ _
  · exact .of_eq rfl
  · exact answerStep_keepsSucceeded _ rfl h

theorem panelStep_keepsSucceeded (event : Panel.Event) :
    KeepsSucceeded s (panelStep who event s task).1 := by
  unfold panelStep
  dsimp only
  split
  · exact .of_eq rfl
  · split <;> exact .of_eq rfl
  · exact .of_eq rfl

theorem bodyStep_keepsSucceeded {body : Body} (event : BodyEvent)
    (h : ∀ reply now row, body = .closing reply → event = .write now → s.requests[id]? = some row →
      row.status = .succeeded → reply.status row.action = .succeeded) :
    KeepsSucceeded s (bodyStep who event s id body).1 := by
  unfold bodyStep
  split
  · split
    · apply KeepsSucceeded.modify
      intro row hrow hst
      unfold Request.claimed
      rw [if_neg]
      · exact hst
      · rw [hst]
        nofun
    · exact .of_eq rfl
  · exact .of_eq rfl
  · exact .modify fun _ _ hst => hst
  · exact .of_eq rfl
  · exact .of_eq rfl
  · exact .of_eq rfl
  · exact .modify fun row hrow hst => h _ _ row rfl rfl hrow hst
  · exact .of_eq rfl
  · exact .of_eq rfl

theorem executeStep_keepsSucceeded (event : BodyEvent)
    (h : ∀ id status row, writtenStatus s task (.body event) = some (id, status) →
      s.requests[id]? = some row → row.status = .succeeded → status = .succeeded) :
    KeepsSucceeded s (executeStep who event s task).1 := by
  unfold executeStep
  split
  · exact .of_eq rfl
  · rename_i id hrq _
    apply bodyStep_keepsSucceeded
    intro reply now row hbd hev hrow hst
    apply h id _ row _ hrow hst
    unfold writtenStatus
    rw [hev, hrq, hbd]
    simp [hrow]
  · exact .of_eq rfl

variable {move : Thread × Event} {told : Text × RequestStatus} {start : Start} {now : Instant}

theorem step_keepsSucceeded (h : Orderly c move) :
    KeepsSucceeded c.shared (c.step (act operationId) move).shared := by
  obtain ⟨who, event⟩ := move
  rw [Crew.step_shared]
  unfold Orderly at h
  unfold act
  split
  · exact .of_eq rfl
  · split
    · exact callerStep_keepsSucceeded _ h
    · exact panelStep_keepsSucceeded _
    · exact executeStep_keepsSucceeded _ h

def Caller.readings : Caller → List (Nat × Request)
  | .checking id reading => [(id, reading)]
  | .lookingUp id reading => [(id, reading)]
  | .resolving id reading _ => [(id, reading)]
  | .confirming id reading row _ => [(id, reading), (id, row)]
  | .answering id reading => [(id, reading)]
  | _ => []

def Agrees (orderly : Prop) (s : Shared) (p : Nat × Request) : Prop :=
  ∃ row, s.requests[p.1]? = some row ∧ row.id = p.2.id ∧
    (orderly → p.2.status = .succeeded → row.status = .succeeded)

theorem agrees_row (hrow : s.requests[id]? = some row) : Agrees orderly s (id, row) :=
  ⟨row, hrow, rfl, fun _ h => h⟩

theorem Agrees.kept {p : Nat × Request} (h : Agrees orderly s p) (hch : RequestsChange who s s')
    (hkp : orderly → KeepsSucceeded s s') : Agrees orderly s' p := by
  obtain ⟨row, hrow, hid, hst⟩ := h
  obtain ⟨row', hrow', hrw⟩ := hch.kept p.1 row hrow
  refine ⟨row', hrow', hrw.sameId.trans hid, fun hord hread => ?_⟩
  obtain ⟨row'', hrow'', hsc⟩ := hkp hord p.1 row hrow (hst hord hread)
  cases hrow'.symm.trans hrow''
  exact hsc

theorem setRequest_self {f : Request → Request} (hrow : s.requests[id]? = some row) :
    (s.setRequest id f).requests[id]? = some (f row) := by
  simp [Shared.setRequest, hrow]

def Reads (orderly : Prop) (s : Shared) (caller : Caller) : Prop :=
  ∀ p ∈ caller.readings, Agrees orderly s p

theorem Reads.of_nil (h : caller.readings = []) : Reads orderly s caller := by
  intro p hp
  rw [h] at hp
  cases hp

theorem reads_answering (h : Agrees orderly s (id, row)) : Reads orderly s (.answering id row) := by
  intro p hp
  cases mem_singleton.1 hp
  exact h

theorem reads_settle (h : Agrees orderly s (id, row)) : Reads orderly s (settle id row) := by
  intro p hp
  unfold settle at hp
  split at hp
  · cases mem_singleton.1 hp
    exact h
  · cases mem_singleton.1 hp
    exact h

theorem reads_lookUp (start : Start) : Reads orderly s (lookUp s start) := by
  unfold lookUp
  split
  · exact .of_nil rfl
  · split
    · exact .of_nil rfl
    · rename_i hrow
      split
      · exact .of_nil rfl
      · exact reads_answering (agrees_row hrow)

theorem reads_readRecord (key actor : Text) : Reads orderly s (readRecord operationId s key actor) := by
  unfold readRecord
  split
  · split
    · exact .of_nil rfl
    · rename_i hrow
      split
      · exact .of_nil rfl
      · split
        · exact reads_settle (agrees_row hrow)
        · exact reads_answering (agrees_row hrow)
  · exact .of_nil rfl

theorem reads_check (h : Agrees orderly s (id, reading)) (now : Instant) :
    Reads orderly (check s id reading now).1 (check s id reading now).2 := by
  unfold check
  split
  · split
    · exact .of_nil rfl
    · rename_i hrow
      exact reads_settle (agrees_row (setRequest_self hrow))
  · exact reads_answering h

theorem reads_resolve (h : Agrees orderly s (id, reading)) (receipt : Receipt) :
    Reads orderly s (resolve s id reading receipt) := by
  unfold resolve
  split
  · exact reads_answering h
  · rename_i hrow
    split
    · exact reads_answering (agrees_row hrow)
    · split
      · intro p hp
        rcases mem_cons.1 hp with rfl | hp
        · exact h
        · cases mem_singleton.1 hp
          exact agrees_row hrow
      · exact reads_answering h

theorem reads_confirm (h : Agrees orderly s (id, row)) (receipt : Receipt) (now : Instant) :
    Reads orderly (confirm s id row receipt now).1 (confirm s id row receipt now).2 := by
  obtain ⟨current, hrow, hid, -⟩ := h
  exact reads_answering ⟨_, setRequest_self hrow, hid, fun _ _ => rfl⟩

theorem reads_answerStep (h : Reads orderly s caller) (event : CallerEvent) :
    Reads orderly (answerStep operationId event s caller).1
      (answerStep operationId event s caller).2 := by
  unfold answerStep
  split
  · split <;> exact .of_nil rfl
  · split <;> exact .of_nil rfl
  · exact reads_lookUp _
  · dsimp only
    split
    · exact .of_nil rfl
    · rename_i hrow
      exact reads_answering (agrees_row (setRequest_self hrow))
  · exact .of_nil rfl
  · split <;> exact .of_nil rfl
  · exact .of_nil rfl
  · exact reads_readRecord _ _
  · exact reads_check (h _ mem_cons_self) _
  · have hra := h _ mem_cons_self
    split
    · exact reads_answering hra
    · exact reads_answering hra
  · exact reads_answering (h _ mem_cons_self)
  · exact reads_resolve (h _ mem_cons_self) _
  · exact reads_answering (h _ mem_cons_self)
  · exact reads_confirm (h _ (mem_cons_of_mem _ mem_cons_self)) _ _
  · exact reads_answering (h _ mem_cons_self)
  · exact .of_nil rfl
  · exact .of_nil rfl
  · exact .of_nil rfl
  · exact .of_nil rfl
  · exact .of_nil rfl
  · exact .of_nil rfl
  · exact .of_nil rfl
  · exact h

theorem Reads.kept (h : Reads orderly s caller) (hch : RequestsChange who s s')
    (hkp : orderly → KeepsSucceeded s s') : Reads orderly s' caller :=
  fun p hp => (h p hp).kept hch hkp

theorem reads_callerStep (h : Reads orderly s task.caller) (event : CallerEvent) :
    Reads orderly (callerStep operationId event s task).1
      (callerStep operationId event s task).2.caller := by
  unfold callerStep
  split
  · exact .of_nil rfl
  · unfold create
    split <;> exact .of_nil rfl
  · dsimp only
    unfold proceed
    split
    · exact .of_nil rfl
    · exact .of_nil rfl
    · split <;> exact .of_nil rfl
  · exact reads_answerStep h _

theorem panelStep_caller (event : Panel.Event) :
    (panelStep who event s task).2.caller = task.caller := by
  unfold panelStep
  dsimp only
  split
  · rfl
  · split <;> rfl
  · rfl

theorem executeStep_caller (event : BodyEvent) :
    (executeStep who event s task).2.caller = task.caller := by
  unfold executeStep
  split <;> rfl

/-- What every step keeps, and what it keeps in an orderly run. -/
structure Kept (orderly : Prop) (c : Tasks) : Prop where
  holds : c.Holds Sound Executes
  reads : ∀ who, Reads orderly c.shared (c.workers who).caller

theorem Kept.step (h : Kept orderly c) (hord : orderly → Orderly c move) :
    Kept orderly (c.step (act operationId) move) := by
  refine ⟨h.holds.step keeps_executes move, fun other => ?_⟩
  have hkp : orderly → KeepsSucceeded c.shared (c.step (act operationId) move).shared :=
    fun ho => step_keepsSucceeded (hord ho)
  obtain ⟨who, event⟩ := move
  have hch : RequestsChange who c.shared (c.step (act operationId) (who, event)).shared := act_change
  by_cases hot : other = who
  · subst hot
    have hrd := h.reads other
    rw [Crew.step_self]
    rw [Crew.step_shared] at hkp hch ⊢
    unfold act at hkp hch ⊢
    split
    · exact hrd
    · rename_i hlos
      rw [if_neg hlos] at hkp hch
      split
      · exact reads_callerStep hrd _
      · rw [panelStep_caller]
        exact hrd.kept hch hkp
      · rw [executeStep_caller]
        exact hrd.kept hch hkp
  · rw [Crew.step_other hot]
    exact (h.reads other).kept hch hkp

def report (c : Tasks) (move : Thread × Event) : Option (Text × RequestStatus) :=
  match c.shared.panel.lost move.1.process, move.2, (c.workers move.1).caller with
  | false, .caller .answer, .answering _ reading => some (reading.id, reading.status)
  | _, _, _ => none

def Told (c : Tasks) (told : Text × RequestStatus) : Prop :=
  told.2 = .succeeded → ∃ (id : Nat) (row : Request),
    c.shared.requests[id]? = some row ∧ row.id = told.1 ∧ row.status = .succeeded

/-- Of one request nothing is told after `succeeded` but `succeeded`. -/
def Consistent (told told' : Text × RequestStatus) : Prop :=
  told.1 = told'.1 → told.2 = .succeeded → told'.2 = .succeeded

theorem report_eq_some (h : report c move = some told) :
    ∃ id reading, (c.workers move.1).caller = .answering id reading ∧ move.2 = .caller .answer ∧
      told = (reading.id, reading.status) := by
  unfold report at h
  split at h
  · rename_i id reading _ hev hcl
    cases h
    exact ⟨id, reading, hcl, hev, rfl⟩
  · cases h

theorem told_consistent {told' : Text × RequestStatus} (h : Kept True c)
    (hord : Orderly c move) (htl : Told c told) (hrp : report c move = some told') :
    Consistent told told' := by
  obtain ⟨id, reading, hcl, hev, rfl⟩ := report_eq_some hrp
  intro hid hsc
  obtain ⟨j, row, hrow, hrowId, hst⟩ := htl hsc
  obtain ⟨row', hrow', hrowId', -⟩ := h.reads move.1 (id, reading) (by rw [hcl]; exact mem_cons_self)
  dsimp only at hrow' hrowId' hid
  cases eq_of_sameId h.holds.shared hrow hrow' (hrowId.trans (hid.trans hrowId'.symm))
  apply hord id reading.status row _ hrow hst
  unfold writtenStatus
  rw [hev, hcl]

theorem Told.step (hord : Orderly c move)
    (h : Told c told) : Told (c.step (act operationId) move) told := by
  intro hsc
  obtain ⟨id, row, hrow, hid, hst⟩ := h hsc
  have hch : RequestsChange move.1 c.shared (c.step (act operationId) move).shared := act_change
  obtain ⟨row', hrow', hrw⟩ := hch.kept id row hrow
  obtain ⟨row'', hrow'', hst'⟩ := step_keepsSucceeded hord id row hrow hst
  cases hrow'.symm.trans hrow''
  exact ⟨id, row', hrow', hrw.sameId.trans hid, hst'⟩

theorem told_of_report (h : Kept True c) (hrp : report c move = some told) : Told c told := by
  obtain ⟨id, reading, hcl, -, rfl⟩ := report_eq_some hrp
  intro hsc
  obtain ⟨row, hrow, hid, hst⟩ := h.reads move.1 (id, reading) (by rw [hcl]; exact mem_cons_self)
  exact ⟨id, row, hrow, hid, hst trivial hsc⟩

structure Quiet (task : Task) : Prop where
  request : task.request = none
  caller : task.caller = .over ∨ task.caller = .conflict ∨ ∃ id reading, task.caller = .answering id reading

theorem Quiet.kept (h : Quiet task) : Quiet (act operationId who event s task).2 := by
  have hrq := h.request
  unfold act
  split
  · exact h
  · split
    · rename_i event
      rcases h.caller with hcl | hcl | ⟨id, reading, hcl⟩
      · unfold callerStep answerStep
        rw [hcl]
        exact ⟨hrq, .inl rfl⟩
      · unfold callerStep answerStep
        rw [hcl]
        exact ⟨hrq, .inr (.inl rfl)⟩
      · unfold callerStep answerStep
        rw [hcl]
        cases event with
        | answer => exact ⟨hrq, .inl rfl⟩
        | _ => exact ⟨hrq, .inr (.inr ⟨id, reading, rfl⟩)⟩
    · rename_i event
      refine ⟨?_, ?_⟩
      · unfold panelStep
        dsimp only
        split
        · exact hrq
        · split <;> exact hrq
        · exact hrq
      · rw [panelStep_caller]
        exact h.caller
    · unfold executeStep
      rw [hrq]
      exact h

theorem quiet_run (h : Quiet (c.workers who)) :
    Quiet ((run (Crew.step (act operationId)) c moves).workers who) := by
  apply run_keeps (P := fun c : Tasks => Quiet (c.workers who)) h
  rintro c ⟨other, event⟩ hqui
  by_cases hot : who = other
  · subst hot
    rw [Crew.step_self]
    exact hqui.kept
  · rw [Crew.step_other hot]
    exact hqui

theorem lookUp_eq (hs : Sound s) (hrow : s.requests[id]? = some row) (hid : row.id = start.requestId) :
    lookUp s start = if start.isConflict row then .conflict else .answering id row := by
  have hfd : s.requests.findIdx? (fun row => row.id = start.requestId) = some id := by
    cases hfn : s.requests.findIdx? fun row => row.id = start.requestId with
    | none =>
      have hnn := findIdx?_eq_none_iff.1 hfn row (mem_of_getElem? hrow)
      rw [hid, decide_eq_true rfl] at hnn
      cases hnn
    | some j =>
      obtain ⟨hlt, hj, -⟩ := findIdx?_eq_some_iff_getElem.1 hfn
      have hj' := (of_decide_eq_true hj).trans hid.symm
      rw [eq_of_sameId hs (getElem?_eq_getElem hlt) hrow hj']
  unfold lookUp
  rw [hfd]
  dsimp only
  rw [hrow]

section

variable (hlive : s.panel.lost who.process = false)
include hlive

theorem act_lookUp (hcl : task.caller = .starting start) :
    act operationId who (.caller .read) s task = (s, { task with caller := lookUp s start }) := by
  unfold act
  rw [hlive]
  simp [callerStep, hcl, answerStep]

theorem act_create (hcl : task.caller = .creating start) :
    act operationId who (.caller (.write now)) s task = create s start now task := by
  unfold act
  rw [hlive]
  simp [callerStep, hcl]

theorem act_check (hcl : task.caller = .checking id reading) :
    act operationId who (.caller (.check now)) s task =
      ((check s id reading now).1, { task with caller := (check s id reading now).2 }) := by
  unfold act
  rw [hlive]
  simp [callerStep, hcl, answerStep]

end

theorem act_readRecord {key actor : Text} (hlive : s.panel.lost who.process = false)
    (hcl : task.caller = .polling key actor) :
    act operationId who (.caller .read) s task =
      (s, { task with caller := readRecord operationId s key actor }) := by
  unfold act
  rw [hlive]
  simp [callerStep, hcl, answerStep]

theorem settle_readings (id : Nat) (row : Request) : (settle id row).readings = [(id, row)] := by
  unfold settle
  split <;> rfl

theorem readRecord_readings {key actor : Text} {p : Nat × Request}
    (h : p ∈ (readRecord operationId s key actor).readings) : s.requests[p.1]? = some p.2 ∧
      (p.2.status.isTerminal = true ∨ readRecord operationId s key actor = .checking p.1 p.2) := by
  unfold readRecord at h ⊢
  split at h
  · split at h
    · cases h
    · rename_i row hrow
      split at h
      · cases h
      · rename_i hact
        rw [if_neg hact]
        split at h
        · rename_i htr
          rw [settle_readings] at h
          cases mem_singleton.1 h
          exact ⟨hrow, .inl htr⟩
        · rename_i hop
          rw [if_neg hop]
          cases mem_singleton.1 h
          exact ⟨hrow, .inr rfl⟩
  · cases h

theorem check_ends (hrow : s.requests[id]? = some row) (hps : leasePassed s reading now = true) :
    (check s id reading now).1.requests[id]? = some (row.expired now) := by
  unfold check
  rw [if_pos hps, hrow]
  exact setRequest_self hrow

/-- The identifier is that of the request, or that of the operation that it names. -/
def Request.IsNamed (operationId : Nat → Text) (key : Text) (row : Request) : Prop :=
  row.id = key ∨ ∃ operation, row.panelOperation = some operation ∧ operationId operation = key

theorem answersTo_iff {key : Text} : row.answersTo operationId key = true ↔
    row.IsNamed operationId key := by
  unfold Request.answersTo Request.IsNamed
  rw [Bool.or_eq_true, decide_eq_true_iff, decide_eq_true_iff, Option.map_eq_some_iff]
  exact or_comm

/-- The lease of the operation has passed or, before the request names one, half
an hour since the request was added. -/
def Request.LeaseOver (panel : Panel.Shared) (row : Request) (now : Instant) : Prop :=
  match row.panelOperation with
  | none => row.createdAt.val + Panel.leaseMicros ≤ now.val
  | some operation => ∀ lease, panel.rows[operation]? = some lease → lease.leaseUntil < now

theorem leasePassed_iff : leasePassed s reading now = true ↔ reading.LeaseOver s.panel now := by
  unfold leasePassed Request.LeaseOver
  cases reading.panelOperation with
  | none => rw [decide_eq_true_iff, Nat.add_comm]
  | some operation =>
    dsimp only
    rw [Option.all_eq_true]
    exact forall₂_congr fun _ _ => decide_eq_true_iff

/-- The identifier names this row and no other. -/
structure NamesOnly (operationId : Nat → Text) (s : Shared) (key : Text) (id : Nat)
    (row : Request) : Prop where
  stored : s.requests[id]? = some row
  named : row.IsNamed operationId key
  only : ∀ (other : Nat) (row' : Request), s.requests[other]? = some row' → row'.IsNamed operationId key →
    other = id

theorem NamesOnly.findIdxs {key : Text} (h : NamesOnly operationId s key id row) :
    s.requests.findIdxs (fun row => row.answersTo operationId key) = [id] := by
  obtain ⟨hlt, hget⟩ := List.getElem?_eq_some_iff.1 h.stored
  have hmem : id ∈ s.requests.findIdxs fun row => row.answersTo operationId key := by
    rw [mem_findIdxs_iff_pos_getElem hlt, hget]
    exact answersTo_iff.2 h.named
  have honl : ∀ other ∈ s.requests.findIdxs fun row => row.answersTo operationId key, other = id := by
    intro other hot
    obtain ⟨hlt', han⟩ := mem_findIdxs_iff_exists_getElem_pos.1 hot
    exact h.only other _ (getElem?_eq_getElem hlt') (answersTo_iff.1 han)
  have hlen := List.eq_replicate_iff.2 ⟨rfl, honl⟩
  have hdup := @nodup_findIdxs _ s.requests (fun row => row.answersTo operationId key) 0
  rw [hlen] at hdup hmem ⊢
  have hle := nodup_replicate.1 hdup
  have hpos := (mem_replicate.1 hmem).1
  rw [show length _ = 1 by omega]
  rfl

theorem readRecord_eq {key : Text} (h : NamesOnly operationId s key id row) :
    readRecord operationId s key row.actor =
      if row.status.isTerminal then settle id row else .checking id row := by
  unfold readRecord
  rw [h.findIdxs]
  dsimp only
  rw [h.stored]
  exact if_neg (absurd rfl)

def Lasts (row row' : Request) : Prop :=
  row'.id = row.id ∧ (row.status.isTerminal = true → row'.status.isTerminal = true)

theorem Lasts.trans {row'' : Request} (h : Lasts row row') (h' : Lasts row' row'') : Lasts row row'' :=
  ⟨h'.1.trans h.1, fun htr => h'.2 (h.2 htr)⟩

theorem grows_run (later : Moves) :
    Grows Lasts c.shared.requests (run (Crew.step (act operationId)) c later).shared.requests := by
  induction later generalizing c with
  | nil => exact grows_refl (fun _ => ⟨rfl, fun h => h⟩) _
  | cons move rest ih =>
    have hfs : Grows Lasts c.shared.requests (c.step (act operationId) move).shared.requests := by
      intro id row hrow
      have hch : RequestsChange move.1 c.shared (c.step (act operationId) move).shared := act_change
      obtain ⟨row', hrow', hrw⟩ := hch.kept id row hrow
      exact ⟨row', hrow', hrw.sameId, hrw.terminal⟩
    exact hfs.trans (fun _ _ _ h h' => Lasts.trans h h') ih

structure StateLaw (operationId : Nat → Text) (c : Tasks) : Prop where
  repeated : ∀ (who : Thread) (start : Start) (id : Nat) (row : Request),
    c.shared.panel.lost who.process = false → (c.workers who).caller = .starting start →
    c.shared.requests[id]? = some row → row.id = start.requestId →
    (c.step (act operationId) (who, .caller .read)).shared = c.shared ∧
      (row.actor = start.actor → row.intentSha256 = start.digest →
        ((c.step (act operationId) (who, .caller .read)).workers who).caller = .answering id row) ∧
      (row.actor ≠ start.actor ∨ row.intentSha256 ≠ start.digest →
        ((c.step (act operationId) (who, .caller .read)).workers who).caller = .conflict) ∧
      ∀ later, ((run (Crew.step (act operationId)) (c.step (act operationId) (who, .caller .read)) later).workers
        who).request = none
  raced : ∀ (who : Thread) (start : Start) (row : Request) (now : Instant),
    c.shared.panel.lost who.process = false → (c.workers who).caller = .creating start →
    row ∈ c.shared.requests → row.id = start.requestId →
    (c.step (act operationId) (who, .caller (.write now))).shared = c.shared ∧
      ((c.step (act operationId) (who, .caller (.write now))).workers who).caller = .starting start
  unbegun : ∀ who, (c.workers who).request = none → (c.workers who).body = .before
  begun : ∀ who, c.shared.panel.lost who.process = false → (c.workers who).caller = .idle →
    (∀ start : Start, start.isValid = true →
      ((c.step (act operationId) (who, .caller (.start start))).workers who).caller = .starting start) ∧
    ∀ key actor, validUuid key = true →
      ((c.step (act operationId) (who, .caller (.poll key actor))).workers who).caller = .polling key actor
  polled : ∀ (who : Thread) (key : Text) (id : Nat) (row : Request),
    c.shared.panel.lost who.process = false → (c.workers who).caller = .polling key row.actor →
    NamesOnly operationId c.shared key id row →
    (c.step (act operationId) (who, .caller .read)).shared = c.shared ∧
      ((c.step (act operationId) (who, .caller .read)).workers who).caller.readings = [(id, row)] ∧
      (row.status.isTerminal = false →
        ((c.step (act operationId) (who, .caller .read)).workers who).caller = .checking id row) ∧
      ∀ (between : Moves) (now : Instant), (∀ move ∈ between, move.1 ≠ who) →
        (run (Crew.step (act operationId)) c ((who, .caller .read) :: between)).shared.panel.lost
          who.process = false →
        row.LeaseOver (run (Crew.step (act operationId)) c ((who, .caller .read) :: between)).shared.panel now →
        ∃ row', (run (Crew.step (act operationId)) c
            ((who, .caller .read) :: between ++
              [(who, .caller (.check now))])).shared.requests[id]? = some row' ∧
          row'.id = row.id ∧ row'.status.isTerminal = true
  read : ∀ (who : Thread) (key actor : Text) (p : Nat × Request),
    c.shared.panel.lost who.process = false → (c.workers who).caller = .polling key actor →
    p ∈ ((c.step (act operationId) (who, .caller .read)).workers who).caller.readings →
    c.shared.requests[p.1]? = some p.2 ∧ (p.2.status.isTerminal = true ∨
      ((c.step (act operationId) (who, .caller .read)).workers who).caller = .checking p.1 p.2)
  ended : ∀ (who : Thread) (id : Nat) (reading : Request) (now : Instant),
    c.shared.panel.lost who.process = false → (c.workers who).caller = .checking id reading →
    reading.LeaseOver c.shared.panel now →
    ∃ row, (c.step (act operationId) (who, .caller (.check now))).shared.requests[id]? = some row ∧
      row.id = reading.id ∧ row.status.isTerminal = true

structure RequestLaw (operationId : Nat → Text) (c : Tasks) (moves : Moves) : Prop where
  once : (emitted (Crew.step (act operationId)) issuedCall c moves).Nodup
  state : StateLaw operationId (run (Crew.step (act operationId)) c moves)
  lasts : ∀ later, Grows Lasts (run (Crew.step (act operationId)) c moves).shared.requests
    (run (Crew.step (act operationId)) c (moves ++ later)).shared.requests
  reported : Along (Crew.step (act operationId)) Orderly c moves →
    (emitted (Crew.step (act operationId)) report c moves).Pairwise Consistent

/-- No thread has done anything yet. -/
structure Fresh (c : Tasks) : Prop where
  sound : Sound c.shared
  idle : ∀ who, c.workers who = ⟨.idle, none, .idle, .before⟩

theorem Fresh.kept (h : Fresh c) : Kept orderly c := by
  refine ⟨⟨h.sound, fun who => ?_⟩, fun who => ?_⟩
  · rw [h.idle who]
    exact ⟨fun _ => rfl, fun _ => rfl, nofun⟩
  · rw [h.idle who]
    exact .of_nil rfl

theorem Kept.run (h : Kept False c) : Kept False (run (Crew.step (act operationId)) c moves) :=
  run_keeps h fun _ _ hc => hc.step False.elim

theorem repeated_quiet (h : Kept False c) (hlive : c.shared.panel.lost who.process = false)
    (hcl : (c.workers who).caller = .starting start) (hrow : c.shared.requests[id]? = some row)
    (hid : row.id = start.requestId) (later : Moves) :
    ((run (Crew.step (act operationId)) (c.step (act operationId) (who, .caller .read)) later).workers
      who).request = none := by
  have hst : act operationId who (.caller .read) c.shared (c.workers who) = _ := act_lookUp hlive hcl
  rw [lookUp_eq h.holds.shared hrow hid] at hst
  have hqui : Quiet ((c.step (act operationId) (who, .caller .read)).workers who) := by
    rw [Crew.step_self, hst]
    refine ⟨(h.holds.worker who).before (by rw [hcl]; rfl), ?_⟩
    dsimp only
    split
    · exact .inr (.inl rfl)
    · exact .inr (.inr ⟨id, row, rfl⟩)
  exact (quiet_run hqui).request

theorem checked_ends (h : Kept False c) (hlive : c.shared.panel.lost who.process = false)
    (hcl : (c.workers who).caller = .checking id reading) (hps : reading.LeaseOver c.shared.panel now) :
    ∃ row, (c.step (act operationId) (who, .caller (.check now))).shared.requests[id]? = some row ∧
      row.id = reading.id ∧ row.status.isTerminal = true := by
  obtain ⟨row, hrow, hid, -⟩ := h.reads who (id, reading) (by rw [hcl]; exact mem_cons_self)
  rw [Crew.step_shared, act_check hlive hcl]
  exact ⟨row.expired now, check_ends hrow (leasePassed_iff.2 hps), hid, rfl⟩

/-- A poll that has read an open row ends it, whatever the others do in between. -/
theorem polled_ends (h : Kept False c) {key : Text} (hlive : c.shared.panel.lost who.process = false)
    (hcl : (c.workers who).caller = .polling key row.actor)
    (hnm : NamesOnly operationId c.shared key id row)
    {between : Moves} (hothe : ∀ move ∈ between, move.1 ≠ who)
    (hlt : (run (Crew.step (act operationId)) c ((who, .caller .read) :: between)).shared.panel.lost
      who.process =
      false)
    (hps : row.LeaseOver
      (run (Crew.step (act operationId)) c ((who, .caller .read) :: between)).shared.panel now) :
    ∃ row', (run (Crew.step (act operationId)) c
        ((who, .caller .read) :: between ++ [(who, .caller (.check now))])).shared.requests[id]? =
          some row' ∧
      row'.id = row.id ∧ row'.status.isTerminal = true := by
  cases htr : row.status.isTerminal with
  | true =>
    obtain ⟨row', hrow', hid, hls⟩ :=
      grows_run ((who, .caller .read) :: between ++ [(who, .caller (.check now))])
      id row hnm.stored
    exact ⟨row', hrow', hid, hls htr⟩
  | false =>
    have hread : ((c.step (act operationId) (who, .caller .read)).workers who).caller = .checking id row := by
      rw [Crew.step_self, act_readRecord hlive hcl, readRecord_eq hnm, htr]
      rfl
    rw [run_append]
    apply checked_ends h.run hlt _ hps
    rw [← hread]
    exact congrArg Task.caller (Crew.run_other hothe)

theorem Kept.stateLaw (h : Kept False c) : StateLaw operationId c where
  repeated who start id row hlive hcl hrow hid := by
    have hst : act operationId who (.caller .read) c.shared (c.workers who) = _ := act_lookUp hlive hcl
    rw [lookUp_eq h.holds.shared hrow hid] at hst
    refine ⟨?_, fun hact hdige => ?_, fun hot => ?_, repeated_quiet h hlive hcl hrow hid⟩
    · rw [Crew.step_shared, hst]
    · rw [Crew.step_self, hst]
      unfold Start.isConflict
      simp [hact, hdige]
    · rw [Crew.step_self, hst]
      have hconf : start.isConflict row = true := by
        unfold Start.isConflict
        rwa [Bool.or_eq_true, decide_eq_true_iff, decide_eq_true_iff]
      rw [hconf]
      rfl
  raced who start row now hlive hcl hmem hid := by
    have hst : act operationId who (.caller (.write now)) c.shared (c.workers who) = _ := act_create hlive hcl
    have htk : (c.shared.requests.any fun row => row.id = start.requestId) = true :=
      any_eq_true.2 ⟨row, hmem, decide_eq_true hid⟩
    unfold create at hst
    rw [if_pos htk] at hst
    constructor
    · rw [Crew.step_shared, hst]
    · rw [Crew.step_self, hst]
  unbegun who hnn := (h.holds.worker who).unbegun hnn
  begun who hlive hcl := by
    constructor
    · intro start hvl
      rw [Crew.step_self]
      unfold act
      rw [hlive]
      simp [callerStep, hcl, answerStep, hvl]
    · intro key actor hvl
      rw [Crew.step_self]
      unfold act
      rw [hlive]
      simp [callerStep, hcl, answerStep, hvl]
  polled who key id row hlive hcl hnm := by
    have hst : act operationId who (.caller .read) c.shared (c.workers who) = _ := act_readRecord hlive hcl
    rw [readRecord_eq hnm] at hst
    refine ⟨?_, ?_, fun hop => ?_, fun between now hothe hlt hps => ?_⟩
    · rw [Crew.step_shared, hst]
    · rw [Crew.step_self, hst]
      dsimp only
      split
      · exact settle_readings id row
      · rfl
    · rw [Crew.step_self, hst, hop]
      rfl
    · exact polled_ends h hlive hcl hnm hothe hlt hps
  read who key actor p hlive hcl hp := by
    rw [Crew.step_self, act_readRecord hlive hcl] at hp ⊢
    exact readRecord_readings hp
  ended _ _ _ _ hlive hcl hps := checked_ends h hlive hcl hps

/-- The gateway is called once for a request; a start that finds its request
answers with it, or with a conflict, and does nothing else; a poll that names one
request of its caller reads it, and ends it once the lease has passed; and reports
do not go back on `succeeded` when no other status is written or reported over it. -/
theorem request_executed_once (operationId : Nat → Text) (c : Tasks) (hc : Fresh c) (moves : Moves) :
    RequestLaw operationId c moves where
  once := by
    apply emitted_nodup (I := Kept False) hc.kept
    · exact fun _ _ h => h.step False.elim
    · intro c move requestId h his
      have hsp : ¬ Issued c requestId ∧ Issued (c.step (act operationId) move) requestId :=
        issuedCall_spends h.holds his
      exact hsp
    · exact fun _ move _ h his => his.step h.holds.shared move
  state := by
    have hkp : Kept False (run (Crew.step (act operationId)) c moves) := hc.kept.run
    exact hkp.stateLaw
  lasts later := by
    rw [run_append]
    exact grows_run later
  reported hord := by
    apply emitted_pairwise (I := Kept True) hc.kept hord
    · exact fun _ _ h ho => h.step fun _ => ho
    · intro c move told told' h ho htl hrp
      exact told_consistent h ho htl hrp
    · exact fun _ _ _ h ho hrp => (told_of_report h hrp).step ho
    · exact fun _ _ _ _ ho htl => htl.step ho

def sampleTime (minutes : Fin 60) : Instant :=
  ⟨63876418200000000 + minutes * microsPerMinute, minute_lt minutes⟩

def sampleId : Text := "8f1c2d3e-0000-0000-0000-000000000001"

def sampleStart : Start where
  action := .plansApply
  parameters := [("plan_id", .str "p"), ("sha256", .str "h")]
  actor := "user:a"
  requestId := sampleId
  digest := "d"
  fingerprint := "f"
  intentHash := "i"

def sampleReceipt : Receipt where
  requestId := some sampleId
  state := some "successful"
  data := [("job_id", .str "job-20261015T000000Z-12345678"), ("machine_uuid", .str sampleId),
    ("plan_id", .str "p"), ("plan_sha256", .str "h")]

def sampleTasks : Tasks where
  shared := ⟨[], [], fun _ => Panel.slotCount, fun _ => false⟩
  workers _ := ⟨.idle, none, .idle, .before⟩

/-- The request waits in the queue, and its call is issued late. -/
def issuingMoves : Moves :=
  [.caller (.start sampleStart), .caller .read, .caller (.write (sampleTime 0)),
    .panel (.recover (sampleTime 0) (sampleTime 0)), .panel .look, .panel .look, .panel .takeSlot,
    .panel (.insert (sampleTime 0) (sampleTime 0)), .panel (.submit true), .caller .proceed,
    .caller (.write (sampleTime 0)), .caller .answer, .panel (.claim (sampleTime 29)),
      .body .enter, .body .claim,
    .body (.write (sampleTime 29)), .body .issue].map fun event => (⟨0, 0⟩, event)

def resolvingMoves : Moves :=
  [.caller (.poll sampleId "user:a"), .caller .read, .caller (.check (sampleTime 31)),
    .caller (.receipt (some sampleReceipt)), .caller .read, .caller (.write (sampleTime 31)),
    .caller .answer].map fun event => (⟨0, 1⟩, event)

/-- The call times out, and its outcome is written. -/
def timeoutMoves : Moves :=
  [.body (.reply (.raised (some "timeout") true)), .body (.write (sampleTime 34))].map fun event =>
    (⟨0, 0⟩, event)

def pollingMoves : Moves :=
  [.caller (.poll sampleId "user:a"), .caller .read, .caller (.receipt none), .caller .answer].map fun event =>
    (⟨0, 2⟩, event)

def slowMoves : Moves := issuingMoves ++ resolvingMoves ++ timeoutMoves ++ pollingMoves

theorem sound_of_nil (h : s.requests = []) : Sound s := by
  constructor
  · intro i j r r' hi
    rw [h] at hi
    cases hi
  · intro row hmem
    rw [h] at hmem
    cases hmem

theorem sampleTasks_fresh : Fresh sampleTasks where
  sound := sound_of_nil rfl
  idle _ := rfl

/-- The law at moves in which a poll ends a request whose call still runs. -/
theorem sampleTasks_law : RequestLaw (fun _ => "o") sampleTasks slowMoves :=
  request_executed_once (fun _ => "o") sampleTasks sampleTasks_fresh slowMoves

/-- A request is reported to have succeeded, and then to be unknown. -/
theorem slow_call_regresses : emitted (Crew.step (act fun _ => "o")) report sampleTasks slowMoves =
        [(sampleId, .registered), (sampleId, .succeeded), (sampleId, .unknown)] ∧
      ¬ (emitted (Crew.step (act fun _ => "o")) report sampleTasks slowMoves).Pairwise Consistent := by
  have hrp : emitted (Crew.step (act fun _ => "o")) report sampleTasks slowMoves =
      [(sampleId, .registered), (sampleId, .succeeded), (sampleId, .unknown)] := by
    decide
  refine ⟨hrp, ?_⟩
  rw [hrp]
  intro hpi
  have hls := (pairwise_cons.1 (pairwise_cons.1 hpi).2).1 _ mem_cons_self rfl rfl
  cases hls

end WebOvpn.Workstations
